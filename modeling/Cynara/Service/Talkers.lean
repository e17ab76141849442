import Cynara.Service.Registers

/-!
# Talkers and contexts

In every state of every run each context has its own talker in the register, and each talker has a
context.  So a reply of an agent is for the check for which its number has been issued last on its
link, or there is no such talker any more.

When an agent is disconnected, only one of the types that have been registered for its link is
unregistered.  If at most one type is registered for each link, then nothing refers to a link
that has been closed.
-/

namespace Cynara

open Std PredefinedPolicyType ProtocolClient

namespace CheckLogic

/-! ### The correspondence -/

/-- The talker is in the register. -/
def Live (σ : CheckLogic) (talker : AgentTalker) : Prop :=
  ∃ link checkId, σ.agentManager.talkers.find link checkId = some talker

/-- Each context has a talker of its own, and each talker has a context.  An agent is registered
for a link that has talkers and is open. -/
structure Paired (σ : CheckLogic) : Prop where
  live : ∀ context, σ.Keeps context → σ.Live context.agentTalker
  held : ∀ talker, σ.Live talker → ∃ context, σ.Keeps context ∧ context.agentTalker = talker
  distinct : Distinct σ
  registered : ∀ link ∉ σ.closed, link ∈ σ.agentManager.talkers →
    ∃ agentType : AgentType, σ.agentManager.agents[agentType]? = some link

variable {σ σ' : CheckLogic} {event : Event} {context context' : CheckContext}
  {talker talker' : AgentTalker} {link : LinkId} {checkId : UInt16}

theorem live_iff :
  σ.Live talker ↔ σ.agentManager.talkers.find talker.linkId talker.checkId = some talker
  := by
  constructor
  · rintro ⟨link, checkId, hfind⟩
    obtain ⟨rfl, rfl, -⟩ := σ.agentManager.placed link checkId talker hfind
    exact hfind
  · intro hfind
    exact ⟨_, _, hfind⟩

/-- Talkers of one link have different numbers. -/
theorem Live.eq_of_place (h : σ.Live talker) (h' : σ.Live talker')
    (hlink : talker.linkId = talker'.linkId) (hid : talker.checkId = talker'.checkId) :
  talker = talker'
  := by
  rw [live_iff] at h h'
  rw [hlink, hid] at h
  exact Option.some.inj (h.symm.trans h')

theorem Live.address_lt (h : σ.Live talker) :
  talker.address < σ.agentManager.address
  := by
  obtain ⟨link, checkId, hfind⟩ := h
  exact (σ.agentManager.placed link checkId talker hfind).2.2

theorem Paired.talker_eq (h : Paired σ) (hlive : σ.Live talker) (hlive' : σ.Live talker')
    (haddress : talker.address = talker'.address) :
  talker = talker'
  := by
  obtain ⟨context, hkeeps, rfl⟩ := h.held talker hlive
  obtain ⟨context', hkeeps', rfl⟩ := h.held talker' hlive'
  rw [h.distinct context context' hkeeps hkeeps' haddress]

/-- The context that is found for a talker has this talker. -/
theorem Paired.agentTalker_eq (h : Paired σ) (hlive : σ.Live talker)
    (hcontext : σ.checkRequestManager.getContextOf talker = some context) :
  context.agentTalker = talker
  := by
  obtain ⟨hkeeps, haddress⟩ := CheckRequestManager.getContext_of_getContextOf hcontext
  exact h.talker_eq (h.live context hkeeps) hlive haddress

/-! ### Marks -/

theorem SameRegisters.keeps_iff (h : SameRegisters σ σ') :
  σ'.Keeps context ↔ σ.Keeps context
  := by
  rw [Keeps, getContext, h.checkRequestManager]
  rfl

theorem Marked.exists_keeps (h : Marked σ σ') (hkeeps : σ'.Keeps context) :
  ∃ context', σ.Keeps context' ∧ context'.cancel = context.cancel
  := by
  have hcontexts := h.contexts context.link context.checkId
  rw [show σ'.getContext _ _ = some context from hkeeps, Option.map_some] at hcontexts
  obtain ⟨context', hcontext', hcancel⟩ := Option.map_eq_some_iff.mp hcontexts.symm
  exact ⟨context', keeps_of_getContext hcontext', hcancel⟩

theorem Marked.exists_keeps_after (h : Marked σ σ') (hkeeps : σ.Keeps context) :
  ∃ context', σ'.Keeps context' ∧ context'.cancel = context.cancel
  := by
  have hcontexts := h.contexts context.link context.checkId
  rw [show σ.getContext _ _ = some context from hkeeps, Option.map_some] at hcontexts
  obtain ⟨context', hcontext', hcancel⟩ := Option.map_eq_some_iff.mp hcontexts
  exact ⟨context', keeps_of_getContext hcontext', hcancel⟩

/-- A context keeps its talker when it is marked. -/
theorem agentTalker_of_cancel_eq (h : context'.cancel = context.cancel) :
  context'.agentTalker = context.agentTalker
  := by
  have htalker := congrArg CheckContext.agentTalker h
  exact htalker

theorem Distinct.marked (h : Distinct σ) (hmarked : Marked σ σ') :
  Distinct σ'
  := by
  intro context context' hkeeps hkeeps' haddress
  obtain ⟨context₀, hkeeps₀, hcancel⟩ := hmarked.exists_keeps hkeeps
  obtain ⟨context₁, hkeeps₁, hcancel'⟩ := hmarked.exists_keeps hkeeps'
  have hsame : context₀ = context₁ := by
    apply h context₀ context₁ hkeeps₀ hkeeps₁
    rw [agentTalker_of_cancel_eq hcancel, agentTalker_of_cancel_eq hcancel', haddress]
  obtain ⟨hlink, hid⟩ := place_of_cancel_eq hcancel
  obtain ⟨hlink', hid'⟩ := place_of_cancel_eq hcancel'
  apply hkeeps.eq_of_place hkeeps'
  rw [← hlink, ← hid, ← hlink', ← hid', hsame]
  exact ⟨rfl, rfl⟩

theorem Paired.marked (h : Paired σ) (hmarked : Marked σ σ') :
  Paired σ'
  := by
  have hlive : ∀ talker, σ'.Live talker ↔ σ.Live talker := by
    intro talker
    rw [Live, Live, hmarked.agentManager]
  constructor
  · intro context hkeeps
    obtain ⟨context₀, hkeeps₀, hcancel⟩ := hmarked.exists_keeps hkeeps
    rw [hlive, ← agentTalker_of_cancel_eq hcancel]
    exact h.live context₀ hkeeps₀
  · intro talker htalker
    obtain ⟨context, hkeeps, rfl⟩ := h.held talker ((hlive talker).mp htalker)
    obtain ⟨context', hkeeps', hcancel⟩ := hmarked.exists_keeps_after hkeeps
    exact ⟨context', hkeeps', agentTalker_of_cancel_eq hcancel⟩
  · exact h.distinct.marked hmarked
  · rw [hmarked.closed, hmarked.agentManager]
    exact h.registered

/-! ### Requests and replies -/

/-- Nothing happens to the talkers and the agents, but a number may be used up. -/
theorem Paired.number (h : Paired σ) {m : AgentManager} (hagents : m.agents = σ.agentManager.agents)
    (htalkers : m.talkers = σ.agentManager.talkers) :
  Paired { σ with agentManager := m }
  := by
  have hlive : ∀ talker, Live { σ with agentManager := m } talker ↔ σ.Live talker := by
    intro talker
    rw [Live, Live, htalkers]
  constructor
  · intro context hkeeps
    exact (hlive _).mpr (h.live context hkeeps)
  · intro talker htalker
    exact h.held talker ((hlive talker).mp htalker)
  · exact h.distinct
  · intro link hopen hmem
    rw [htalkers] at hmem
    rw [hagents]
    exact h.registered link hopen hmem

/-- A new talker and a new context. -/
theorem Paired.create (h : Paired σ) {agentType : AgentType} {m : AgentManager}
    (hcreate : σ.agentManager.createTalker agentType = (some talker, m))
    (htalker : context.agentTalker = talker)
    (hfree : σ.getContext context.link context.checkId = none) :
  Paired { σ.put context with agentManager := m }
  := by
  obtain ⟨hagent, hagents, hnone, htalkers, haddress⟩ := AgentManager.createTalker_eq_some hcreate
  have hlive : ∀ talker', Live { σ.put context with agentManager := m } talker' ↔
      talker' = talker ∨ σ.Live talker' := by
    intro talker'
    rw [live_iff, live_iff]
    simp only [htalkers, Nested.find_put]
    split
    · rename_i hplace
      rw [← hplace.1, ← hplace.2, hnone]
      simp [eq_comm]
    · rename_i hplace
      constructor
      · exact Or.inr
      · rintro (rfl | hfind)
        · exact absurd ⟨rfl, rfl⟩ hplace
        · exact hfind
  have hnew : ∀ context', σ.Keeps context' → context'.agentTalker.address ≠ talker.address := by
    intro context' hkeeps hsame
    have hlt := (h.live context' hkeeps).address_lt
    omega
  constructor
  · intro context' hkeeps
    rcases keeps_put.mp hkeeps with rfl | ⟨-, hkeeps⟩
    · exact (hlive _).mpr (Or.inl htalker)
    · exact (hlive _).mpr (Or.inr (h.live context' hkeeps))
  · intro talker' htalker'
    rcases (hlive talker').mp htalker' with rfl | htalker'
    · exact ⟨context, keeps_put.mpr (Or.inl rfl), htalker⟩
    · obtain ⟨context', hkeeps, rfl⟩ := h.held talker' htalker'
      refine ⟨context', keeps_put.mpr (Or.inr ⟨?_, hkeeps⟩), rfl⟩
      rintro ⟨hlink, hid⟩
      rw [hlink, hid, show σ.getContext _ _ = some context' from hkeeps] at hfree
      cases hfree
  · intro context₀ context₁ hkeeps₀ hkeeps₁ hsame
    rcases keeps_put.mp hkeeps₀ with heq₀ | ⟨-, hold₀⟩
    · rcases keeps_put.mp hkeeps₁ with heq₁ | ⟨-, hold₁⟩
      · exact heq₀.trans heq₁.symm
      · rw [heq₀, htalker] at hsame
        exact absurd hsame.symm (hnew context₁ hold₁)
    · rcases keeps_put.mp hkeeps₁ with heq₁ | ⟨-, hold₁⟩
      · rw [heq₁, htalker] at hsame
        exact absurd hsame (hnew context₀ hold₀)
      · exact h.distinct context₀ context₁ hold₀ hold₁ hsame
  · intro link hopen hmem
    simp only [htalkers, Nested.mem_put] at hmem
    simp only [hagents]
    rcases hmem with rfl | hmem
    · exact ⟨agentType, hagent⟩
    · exact h.registered link hopen hmem

/-- A talker and its context are removed. -/
theorem Paired.answer (h : Paired σ) (htalker : σ.Live talker) (hkeeps : σ.Keeps context)
    (hpair : context.agentTalker = talker) :
  Paired { σ.remove context with agentManager := σ.agentManager.removeTalker talker }
  := by
  have hlive : ∀ talker',
      Live { σ.remove context with agentManager := σ.agentManager.removeTalker talker } talker' ↔
        talker' ≠ talker ∧ σ.Live talker' := by
    intro talker'
    rw [live_iff]
    simp only [AgentManager.removeTalker, Nested.find_remove]
    split
    · rename_i hplace
      simp only [reduceCtorEq, false_iff, not_and]
      intro hne hlive'
      exact hne (hlive'.eq_of_place htalker hplace.1.symm hplace.2.symm)
    · rename_i hplace
      rw [live_iff]
      refine (and_iff_right ?_).symm
      rintro rfl
      exact hplace ⟨rfl, rfl⟩
  constructor
  · intro context' hkeeps'
    obtain ⟨hplace, hkeeps'⟩ := keeps_remove.mp hkeeps'
    refine (hlive _).mpr ⟨?_, h.live context' hkeeps'⟩
    intro hsame
    have hsameContext : context = context' := by
      apply h.distinct context context' hkeeps hkeeps'
      rw [hpair, hsame]
    rw [hsameContext] at hplace
    exact hplace ⟨rfl, rfl⟩
  · intro talker' htalker'
    obtain ⟨hne, htalker'⟩ := (hlive talker').mp htalker'
    obtain ⟨context', hkeeps', rfl⟩ := h.held talker' htalker'
    refine ⟨context', keeps_remove.mpr ⟨?_, hkeeps'⟩, rfl⟩
    intro hplace
    rw [← hkeeps.eq_of_place hkeeps' hplace] at hne
    exact hne hpair
  · intro context₀ context₁ hkeeps₀ hkeeps₁
    exact h.distinct context₀ context₁ (keeps_remove.mp hkeeps₀).2 (keeps_remove.mp hkeeps₁).2
  · intro link hopen hmem
    exact h.registered link hopen (Nested.mem_of_mem_remove hmem)

theorem Paired.register (h : Paired σ) (agentType : AgentType) (link : LinkId) :
  Paired { σ with agentManager := (σ.agentManager.registerAgent agentType link).2 }
  := by
  rcases AgentManager.registerAgent_cases agentType link σ.agentManager with ⟨-, hr⟩ | ⟨hnew, hr⟩
  · rw [hr]
    exact h
  · rw [hr]
    refine ⟨h.live, h.held, h.distinct, ?_⟩
    intro link' hopen hmem
    obtain ⟨agentType', hagent⟩ := h.registered link' hopen hmem
    refine ⟨agentType', ?_⟩
    have hne : agentType ≠ agentType' := by
      rintro rfl
      apply hnew
      rw [ExtTreeMap.mem_iff_isSome_getElem?, hagent]
      rfl
    simp only
    rw [ExtTreeMap.getElem?_insert, if_neg (by simpa using hne)]
    exact hagent

theorem Paired.manages {created : Option CheckContext} (h : Paired σ)
    (hmanages : Manages event σ created σ') :
  Paired σ'
  := by
  cases hmanages with
  | same hsame => exact h.marked hsame.marked
  | number hcreate hsame =>
      obtain ⟨hagents, htalkers⟩ := AgentManager.createTalker_eq_none hcreate
      exact (h.number hagents htalkers).marked hsame.marked
  | create hcreate hfree hsame => exact (h.create hcreate rfl hfree).marked hsame.marked
  | mark hkeeps hsame => exact (h.marked (marked_put_cancel hkeeps)).marked hsame.marked
  | answer htalker hcontext hsame =>
      have hlive : σ.Live _ := ⟨_, _, htalker⟩
      exact (h.answer hlive (keeps_of_getContextOf hcontext)
        (h.agentTalker_eq hlive hcontext)).marked hsame.marked
  | stray htalker hnone hsame =>
      obtain ⟨context, hkeeps, htalker'⟩ := h.held _ ⟨_, _, htalker⟩
      have hother := getContextOf_eq_none hnone hkeeps
      rw [htalker'] at hother
      exact absurd rfl hother
  | register hsame => exact (h.register _ _).marked hsame.marked

/-! ### Connections that are closed -/

/-- The talkers that are left when a connection is closed. -/
theorem Paired.find_unregisterAgent (h : Paired σ) (hopen : link ∉ σ.closed) :
  (σ.agentManager.unregisterAgent link).talkers.find talker.linkId talker.checkId = some talker ↔
    talker.linkId ≠ link ∧ σ.Live talker
  := by
  rw [live_iff, AgentManager.unregisterAgent]
  split
  · rename_i hnone
    refine (and_iff_right_of_imp ?_).symm
    rintro hfind rfl
    obtain ⟨agentType, hagent⟩ := h.registered _ hopen (Nested.mem_of_find hfind)
    exact AgentManager.getAgentType_eq_none hnone hagent
  · simp only [AgentManager.forget, Nested.find_erase]
    split
    · rename_i hlink
      simp [hlink]
    · rename_i hlink
      exact (and_iff_right (Ne.symm hlink)).symm

theorem Paired.closeSocket (h : Paired σ) (hopen : link ∉ σ.closed) :
  Paired (σ.closeSocket link)
  := by
  obtain ⟨hagent, hclosed, σ₁, hmarked, hkept⟩ := registers_closeSocket h.distinct link
  have hlive : ∀ talker,
      (σ.closeSocket link).Live talker ↔ talker.linkId ≠ link ∧ σ.Live talker := by
    intro talker
    rw [← h.find_unregisterAgent hopen, ← hagent]
    exact live_iff
  have hdistinct : Distinct σ₁ := by
    intro context context' hkeeps hkeeps'
    exact h.distinct context context' ((hkept context).mp hkeeps).1 ((hkept context').mp hkeeps').1
  constructor
  · intro context hkeeps
    obtain ⟨context₀, hkeeps₀, hcancel⟩ := hmarked.exists_keeps hkeeps
    obtain ⟨hkeeps₀, hother⟩ := (hkept context₀).mp hkeeps₀
    rw [hlive, ← agentTalker_of_cancel_eq hcancel]
    refine ⟨?_, h.live context₀ hkeeps₀⟩
    rintro rfl
    have hfind := live_iff.mp (h.live context₀ hkeeps₀)
    exact hother context₀.agentTalker (Nested.mem_values.mpr ⟨_, hfind⟩) rfl
  · intro talker htalker
    obtain ⟨hlink, htalker⟩ := (hlive talker).mp htalker
    obtain ⟨context, hkeeps, rfl⟩ := h.held talker htalker
    have hkeeps₁ : σ₁.Keeps context := by
      refine (hkept context).mpr ⟨hkeeps, ?_⟩
      intro talker' hmem haddress
      obtain ⟨checkId, hfind⟩ := Nested.mem_values.mp hmem
      have hsame := h.talker_eq htalker ⟨link, checkId, hfind⟩ haddress
      rw [hsame] at hlink
      exact hlink (σ.agentManager.placed link checkId talker' hfind).1
    obtain ⟨context', hkeeps', hcancel⟩ := hmarked.exists_keeps_after hkeeps₁
    exact ⟨context', hkeeps', agentTalker_of_cancel_eq hcancel⟩
  · exact hdistinct.marked hmarked
  · intro link' hopen' hmem
    rw [hclosed, List.mem_cons, not_or] at hopen'
    rw [hagent] at hmem ⊢
    unfold AgentManager.unregisterAgent at hmem ⊢
    split
    · rename_i hnone
      rw [hnone] at hmem
      exact h.registered link' hopen'.2 hmem
    · rename_i agentType hsome
      rw [hsome] at hmem
      obtain ⟨agentType', hagent'⟩ := h.registered link' hopen'.2 (ExtTreeMap.mem_of_mem_erase hmem)
      have hne : agentType ≠ agentType' := by
        rintro rfl
        have hlink := AgentManager.getAgentType_eq_some hsome
        exact hopen'.1 (Option.some.inj (hagent'.symm.trans hlink))
      refine ⟨agentType', ?_⟩
      simp only [AgentManager.forget]
      rw [ExtTreeMap.getElem?_erase, if_neg (by simpa using hne)]
      exact hagent'

theorem Manages.closed_eq {created : Option CheckContext} (h : Manages event σ created σ') :
  σ'.closed = σ.closed
  := by
  cases h with
  | same hsame => exact hsame.closed
  | number _ hsame => exact hsame.closed
  | create _ _ hsame => exact hsame.closed
  | mark _ hsame => exact hsame.closed
  | answer _ _ hsame => exact hsame.closed
  | stray _ _ hsame => exact hsame.closed
  | register hsame => exact hsame.closed

/-- Each event keeps the questions and the checks paired. -/
theorem Paired.step (h : Paired σ) (hstep : σ.step event = some σ') :
  Paired σ'
  := by
  obtain ⟨hopen, σ₁, hmanages, rfl | rfl⟩ := manages_step hstep
  · exact h.manages hmanages
  · rw [← hmanages.closed_eq] at hopen
    exact (h.manages hmanages).closeSocket hopen

theorem paired_start :
  Paired {}
  := by
  constructor
  · intro context hkeeps
    simp [Keeps, getContext, CheckRequestManager.getContext, CheckRequestManager.empty] at hkeeps
  · rintro talker ⟨link, checkId, hfind⟩
    simp [AgentManager.empty] at hfind
  · intro context context' hkeeps
    simp [Keeps, getContext, CheckRequestManager.getContext, CheckRequestManager.empty] at hkeeps
  · intro link _ hmem
    simp [AgentManager.empty] at hmem

/-! ### Replies -/

/-- The service, with the checks for which the numbers of talkers have been issued last. -/
structure Tracked where
  logic : CheckLogic := {}
  lastIssued : LinkId → UInt16 → Option CheckContext := fun _ _ => none

namespace Tracked

/-- The number of a new talker is issued for its context. -/
def issue (s : Tracked) : Option CheckContext → LinkId → UInt16 → Option CheckContext
  | none => s.lastIssued
  | some context => fun link checkId =>
      if context.agentTalker.linkId = link ∧ context.agentTalker.checkId = checkId then some context
      else s.lastIssued link checkId

/-- The numbers that are given out are recorded. -/
def step (s : Tracked) (event : Event) : Option Tracked :=
  (s.logic.step event).map fun σ => ⟨σ, s.issue (s.logic.issued event)⟩

end Tracked

/-- The reply is applied to the check of the context: no response is sent but the answer of the
plugin for its key, to its client, and the other contexts are kept. -/
structure Applied (σ σ' : CheckLogic) (context : CheckContext)
    (answer : PolicyKey → PluginUpdate) : Prop where
  sent : σ'.sent = σ.sent ∨ ∃ result ∈ answerOf (answer context.key),
    σ'.sent = σ.sent ++ [(context.link, .check result context.checkId)]
  others : ∀ context', ¬ (context.link = context'.link ∧ context.checkId = context'.checkId) →
    (σ'.Keeps context' ↔ σ.Keeps context')

theorem applied_executeAgentAction {sequenceNumber : UInt16} (type : UInt8)
    (answer : PolicyKey → PluginUpdate)
    (htalker : σ.agentManager.getTalker link sequenceNumber = some talker)
    (hcontext : σ.checkRequestManager.getContextOf talker = some context) :
  Applied σ (σ.executeAgentAction link sequenceNumber type answer).state context answer
  := by
  have hanswer : ((σ.answerContext context type answer).state.sent = σ.sent
      ∨ ∃ result ∈ answerOf (answer context.key), (σ.answerContext context type answer).state.sent
        = σ.sent ++ [(context.link, .check result context.checkId)]) := by
    rcases answerContext_cases context type answer σ
      with ⟨-, h⟩ | ⟨-, ⟨e, h⟩ | ⟨result, hresult, h⟩⟩
    · exact Or.inl (by rw [h, Outcome.returned_state])
    · exact Or.inl (by rw [h, Outcome.threw_state])
    · rcases returnResponse_cases context.link (.check result context.checkId) σ
        with ⟨-, h'⟩ | ⟨-, h'⟩ | ⟨-, e, h'⟩
      · exact Or.inl (by rw [h, h', Outcome.returned_state])
      · exact Or.inr ⟨result, hresult, by rw [h, h', Outcome.returned_state, send]⟩
      · exact Or.inl (by rw [h, h', Outcome.threw_state])
  have hregisters := sameRegisters_answerContext context type answer σ
  unfold executeAgentAction
  rw [htalker]
  simp only [hcontext, Outcome.andThen]
  split
  · refine ⟨hanswer, ?_⟩
    intro context' hplace
    change (remove context (σ.answerContext context type answer).state).Keeps context' ↔ _
    rw [keeps_remove, hregisters.keeps_iff]
    exact and_iff_right hplace
  · exact ⟨hanswer, fun context' _ => hregisters.keeps_iff⟩

/-- A context has been created now, or it has been there before, marked or not. -/
theorem Manages.origin {created : Option CheckContext} (h : Manages event σ created σ')
    (hkeeps : σ'.Keeps context) :
  created = some context ∨ ∃ context', σ.Keeps context' ∧ context'.cancel = context.cancel
  := by
  cases h with
  | same hsame => exact Or.inr ⟨context, hsame.keeps_iff.mp hkeeps, rfl⟩
  | number _ hsame => exact Or.inr ⟨context, hsame.keeps_iff.mp hkeeps, rfl⟩
  | create _ _ hsame =>
      rcases keeps_put.mp (hsame.keeps_iff.mp hkeeps) with rfl | ⟨-, hkeeps⟩
      · exact Or.inl rfl
      · exact Or.inr ⟨context, hkeeps, rfl⟩
  | mark hmarked hsame =>
      exact Or.inr ((marked_put_cancel hmarked).exists_keeps (hsame.keeps_iff.mp hkeeps))
  | answer _ _ hsame =>
      exact Or.inr ⟨context, (keeps_remove.mp (hsame.keeps_iff.mp hkeeps)).2, rfl⟩
  | stray _ _ hsame => exact Or.inr ⟨context, hsame.keeps_iff.mp hkeeps, rfl⟩
  | register hsame => exact Or.inr ⟨context, hsame.keeps_iff.mp hkeeps, rfl⟩

theorem exists_keeps_of_closeSocket (h : Paired σ) (hkeeps : (σ.closeSocket link).Keeps context) :
  ∃ context', σ.Keeps context' ∧ context'.cancel = context.cancel
  := by
  obtain ⟨-, -, σ₁, hmarked, hkept⟩ := registers_closeSocket h.distinct link
  obtain ⟨context', hkeeps', hcancel⟩ := hmarked.exists_keeps hkeeps
  exact ⟨context', ((hkept context').mp hkeeps').1, hcancel⟩

namespace Tracked

variable {s s' : Tracked}

/-- The number of the talker of a context has been issued last for this context. -/
def Remembers (s : Tracked) : Prop :=
  ∀ context, s.logic.Keeps context →
    ∃ issued, s.lastIssued context.agentTalker.linkId context.agentTalker.checkId = some issued ∧
      issued.cancel = context.cancel

/-- A new talker takes a number that no other talker has. -/
theorem lastIssued_issue {created : Option CheckContext} {issued : CheckContext} {σ : CheckLogic}
    (hpaired : Paired s.logic) (hmanages : Manages event s.logic created σ)
    (hkeeps : s.logic.Keeps context)
    (h : s.lastIssued context.agentTalker.linkId context.agentTalker.checkId = some issued) :
  s.issue created context.agentTalker.linkId context.agentTalker.checkId = some issued
  := by
  cases hmanages with
  | create hcreate hfree hsame =>
      obtain ⟨-, -, hnone, -⟩ := AgentManager.createTalker_eq_some hcreate
      have hlive := live_iff.mp (hpaired.live context hkeeps)
      simp only [issue]
      split
      · rename_i hplace
        rw [hplace.1, hplace.2, hlive] at hnone
        cases hnone
      · exact h
  | same _ => exact h
  | number _ _ => exact h
  | mark _ _ => exact h
  | answer _ _ _ => exact h
  | stray _ _ _ => exact h
  | register _ => exact h

/-- The reply of an agent is ignored, or it is applied to the check for which its number has been
issued last.  Talkers and contexts are in correspondence. -/
structure Matched (s : Tracked) : Prop where
  live : ∀ context, s.logic.Keeps context → s.logic.Live context.agentTalker
  unique : ∀ talker, s.logic.Live talker →
    ∃! context, s.logic.Keeps context ∧ context.agentTalker = talker
  numbers : ∀ talker talker', s.logic.Live talker → s.logic.Live talker' →
    talker.linkId = talker'.linkId → talker.checkId = talker'.checkId → talker = talker'
  reply : ∀ link sequenceNumber type answer,
    (s.logic.executeAgentAction link sequenceNumber type answer).state = s.logic
      ∨ ∃ context issued, s.logic.Keeps context ∧
        s.lastIssued link sequenceNumber = some issued ∧ issued.cancel = context.cancel ∧
        Applied s.logic (s.logic.executeAgentAction link sequenceNumber type answer).state context
          answer

theorem Remembers.step (h : Remembers s) (hpaired : Paired s.logic)
    (hstep : s.step event = some s') :
  Remembers s'
  := by
  obtain ⟨σ, hσ, rfl⟩ := Option.map_eq_some_iff.mp hstep
  obtain ⟨-, σ₁, hmanages, hσ⟩ := manages_step hσ
  have hremembers : ∀ context, σ₁.Keeps context → ∃ issued,
      s.issue (s.logic.issued event) context.agentTalker.linkId context.agentTalker.checkId
        = some issued ∧ issued.cancel = context.cancel := by
    intro context hkeeps
    rcases hmanages.origin hkeeps with hcreated | ⟨context', hkeeps', hcancel⟩
    · use context
      rw [hcreated]
      simp [issue]
    · obtain ⟨issued, hlast, hissued⟩ := h context' hkeeps'
      have hissue := lastIssued_issue hpaired hmanages hkeeps' hlast
      rw [agentTalker_of_cancel_eq hcancel] at hissue
      exact ⟨issued, hissue, hissued.trans hcancel⟩
  intro context hkeeps
  rcases hσ with rfl | rfl
  · exact hremembers context hkeeps
  · obtain ⟨context', hkeeps', hcancel⟩ :=
      exists_keeps_of_closeSocket (hpaired.manages hmanages) hkeeps
    obtain ⟨issued, hlast, hissued⟩ := hremembers context' hkeeps'
    rw [agentTalker_of_cancel_eq hcancel] at hlast
    exact ⟨issued, hlast, hissued.trans hcancel⟩

/-- In every run the number of a question was issued last for its check. -/
theorem remembers_of_reaches (h : Runs.Reaches step (fun _ _ => True) {} s) :
  Paired s.logic ∧ Remembers s
  := by
  apply h.invariant
  · refine ⟨paired_start, ?_⟩
    intro context hkeeps
    simp [Keeps, getContext, CheckRequestManager.getContext, CheckRequestManager.empty] at hkeeps
  · rintro s event s' ⟨hpaired, hremembers⟩ - hstep
    refine ⟨?_, hremembers.step hpaired hstep⟩
    obtain ⟨σ, hσ, rfl⟩ := Option.map_eq_some_iff.mp hstep
    exact hpaired.step hσ

/-- This holds in every state of every run. -/
theorem matched_of_reaches (h : Runs.Reaches step (fun _ _ => True) {} s) :
  Matched s
  := by
  obtain ⟨hpaired, hremembers⟩ := remembers_of_reaches h
  refine ⟨hpaired.live, ?_, fun _ _ => Live.eq_of_place, ?_⟩
  · intro talker hlive
    obtain ⟨context, hkeeps, rfl⟩ := hpaired.held talker hlive
    refine ⟨context, ⟨hkeeps, rfl⟩, ?_⟩
    rintro context' ⟨hkeeps', htalker⟩
    exact hpaired.distinct context' context hkeeps' hkeeps (by rw [htalker])
  · intro link sequenceNumber type answer
    cases htalker : s.logic.agentManager.getTalker link sequenceNumber with
    | none =>
        rw [executeAgentAction, htalker]
        exact Or.inl rfl
    | some talker =>
        have hlive : s.logic.Live talker := ⟨link, sequenceNumber, htalker⟩
        obtain ⟨hlink, hid, -⟩ := s.logic.agentManager.placed link sequenceNumber talker htalker
        cases hcontext : s.logic.checkRequestManager.getContextOf talker with
        | none =>
            obtain ⟨context, hkeeps, rfl⟩ := hpaired.held talker hlive
            exact absurd rfl (getContextOf_eq_none hcontext hkeeps)
        | some context =>
            have hkeeps := keeps_of_getContextOf hcontext
            obtain ⟨issued, hlast, hissued⟩ := hremembers context hkeeps
            rw [hpaired.agentTalker_eq hlive hcontext, hlink, hid] at hlast
            exact Or.inr ⟨context, issued, hkeeps, hlast, hissued,
              applied_executeAgentAction type answer htalker hcontext⟩

/-- A check waits for an agent. -/
theorem matched_waiting :
  ∃ s, Runs.Reaches step (fun _ _ => True) {} s ∧ (s.logic.getContext 0 7).isSome ∧ Matched s
  := by
  have hrun : (Runs.run step (fun _ _ => true) waitingEvents {}).any (fun s =>
      (s.logic.getContext 0 7).isSome) = true := by
    decide +kernel
  obtain ⟨s, hs, hwaiting⟩ := (Option.any_eq_true _ _).mp hrun
  have hreaches : Runs.Reaches step (fun _ _ => True) {} s :=
    .run (fun _ _ _ => trivial) .start hs
  exact ⟨s, hreaches, hwaiting, matched_of_reaches hreaches⟩

end Tracked

/-! ### Agents that are disconnected -/

/-- No agent and no talker refers to the link. -/
structure Clean (m : AgentManager) (link : LinkId) : Prop where
  agents : ∀ agentType : AgentType, m.agents[agentType]? ≠ some link
  talkers : link ∉ m.talkers

/-- A link for which an agent type is registered does not register another one. -/
def Single (σ : CheckLogic) : Event → Prop
  | .agentRegister link agentType _ =>
      agentType ∈ σ.agentManager.agents ∨ σ.agentManager.getAgentType link = none
  | _ => True

/-- Agents are registered for open links, at most one for each, and for all links that have
talkers. -/
structure Tidy (σ : CheckLogic) : Prop where
  opened : ∀ (agentType : AgentType) link, σ.agentManager.agents[agentType]? = some link →
    link ∉ σ.closed
  single : ∀ (agentType agentType' : AgentType) link,
    σ.agentManager.agents[agentType]? = some link →
    σ.agentManager.agents[agentType']? = some link → agentType = agentType'
  registered : ∀ link ∈ σ.agentManager.talkers,
    ∃ agentType : AgentType, σ.agentManager.agents[agentType]? = some link

theorem Tidy.clean (h : Tidy σ) (hclosed : link ∈ σ.closed) :
  Clean σ.agentManager link
  := by
  constructor
  · intro agentType hagent
    exact h.opened agentType link hagent hclosed
  · intro hmem
    obtain ⟨agentType, hagent⟩ := h.registered link hmem
    exact h.opened agentType link hagent hclosed

/-- The agents are the same, and talkers are left out or made for agents that are registered. -/
theorem Tidy.talkers (h : Tidy σ) (hclosed : σ'.closed = σ.closed)
    (hagents : σ'.agentManager.agents = σ.agentManager.agents)
    (htalkers : ∀ link ∈ σ'.agentManager.talkers, link ∈ σ.agentManager.talkers
      ∨ ∃ agentType : AgentType, σ.agentManager.agents[agentType]? = some link) :
  Tidy σ'
  := by
  constructor
  · rw [hagents, hclosed]
    exact h.opened
  · rw [hagents]
    exact h.single
  · intro link hmem
    rw [hagents]
    rcases htalkers link hmem with hmem | hagent
    · exact h.registered link hmem
    · exact hagent

theorem Tidy.same (h : Tidy σ) (hsame : SameRegisters σ σ') :
  Tidy σ'
  := by
  apply h.talkers hsame.closed
  · rw [hsame.agentManager]
  · intro link hmem
    rw [hsame.agentManager] at hmem
    exact Or.inl hmem

theorem Tidy.register {agentType : AgentType} {sequenceNumber : UInt16} (h : Tidy σ)
    (hopen : link ∉ σ.closed) (hsingle : σ.Single (.agentRegister link agentType sequenceNumber)) :
  Tidy { σ with agentManager := (σ.agentManager.registerAgent agentType link).2 }
  := by
  rcases AgentManager.registerAgent_cases agentType link σ.agentManager with ⟨-, hr⟩ | ⟨hnew, hr⟩
  · rw [hr]
    exact h
  · have hnone : σ.agentManager.getAgentType link = none := hsingle.resolve_left hnew
    have hinsert : ∀ (agentType' : AgentType) link',
        (σ.agentManager.agents.insert agentType link)[agentType']? = some link' ↔
          agentType = agentType' ∧ link = link' ∨
            agentType ≠ agentType' ∧ σ.agentManager.agents[agentType']? = some link' := by
      intro agentType' link'
      rw [ExtTreeMap.getElem?_insert]
      by_cases htype : agentType = agentType'
      · simp [htype]
      · simp [htype]
    rw [hr]
    constructor
    · intro agentType' link' hagent
      rcases (hinsert agentType' link').mp hagent with ⟨-, rfl⟩ | ⟨-, hagent⟩
      · exact hopen
      · exact h.opened agentType' link' hagent
    · intro agentType₁ agentType₂ link' hagent₁ hagent₂
      rcases (hinsert agentType₁ link').mp hagent₁ with ⟨rfl, rfl⟩ | ⟨-, hagent₁⟩
      · rcases (hinsert agentType₂ link).mp hagent₂ with ⟨rfl, -⟩ | ⟨-, hagent₂⟩
        · rfl
        · exact absurd hagent₂ (AgentManager.getAgentType_eq_none hnone)
      · rcases (hinsert agentType₂ link').mp hagent₂ with ⟨rfl, rfl⟩ | ⟨-, hagent₂⟩
        · exact absurd hagent₁ (AgentManager.getAgentType_eq_none hnone)
        · exact h.single agentType₁ agentType₂ link' hagent₁ hagent₂
    · intro link' hmem
      obtain ⟨agentType', hagent⟩ := h.registered link' hmem
      refine ⟨agentType', (hinsert agentType' link').mpr (Or.inr ⟨?_, hagent⟩)⟩
      rintro rfl
      apply hnew
      rw [ExtTreeMap.mem_iff_isSome_getElem?, hagent]
      rfl

theorem Tidy.manages {created : Option CheckContext} (h : Tidy σ) (hopen : event.link ∉ σ.closed)
    (hsingle : σ.Single event) (hmanages : Manages event σ created σ') :
  Tidy σ'
  := by
  cases hmanages with
  | same hsame => exact h.same hsame
  | number hcreate hsame =>
      obtain ⟨hagents, htalkers⟩ := AgentManager.createTalker_eq_none hcreate
      refine Tidy.same ?_ hsame
      refine h.talkers rfl hagents ?_
      intro link hmem
      exact Or.inl (htalkers ▸ hmem)
  | create hcreate hfree hsame =>
      obtain ⟨hagent, hagents, -, htalkers, -⟩ := AgentManager.createTalker_eq_some hcreate
      refine Tidy.same ?_ hsame
      refine h.talkers rfl hagents ?_
      intro link hmem
      simp only [htalkers, Nested.mem_put] at hmem
      rcases hmem with rfl | hmem
      · exact Or.inr ⟨_, hagent⟩
      · exact Or.inl hmem
  | mark hkeeps hsame =>
      refine Tidy.same ?_ hsame
      exact h.talkers rfl rfl fun _ => Or.inl
  | answer htalker hcontext hsame =>
      refine Tidy.same ?_ hsame
      exact h.talkers rfl rfl fun _ hmem => Or.inl (Nested.mem_of_mem_remove hmem)
  | stray htalker hnone hsame =>
      refine Tidy.same ?_ hsame
      exact h.talkers rfl rfl fun _ hmem => Or.inl (Nested.mem_of_mem_remove hmem)
  | register hsame => exact Tidy.same (h.register hopen hsingle) hsame

theorem Tidy.closeSocket (h : Tidy σ) (hpaired : Paired σ) :
  Tidy (σ.closeSocket link)
  := by
  obtain ⟨hagent, hclosed, -⟩ := registers_closeSocket hpaired.distinct link
  cases htype : σ.agentManager.getAgentType link with
  | none =>
      rw [AgentManager.unregisterAgent, htype] at hagent
      constructor
      · intro agentType link' hlink'
        rw [hagent] at hlink'
        rw [hclosed, List.mem_cons, not_or]
        refine ⟨?_, h.opened agentType link' hlink'⟩
        rintro rfl
        exact AgentManager.getAgentType_eq_none htype hlink'
      · rw [hagent]
        exact h.single
      · rw [hagent]
        exact h.registered
  | some agentType =>
      have hlink := AgentManager.getAgentType_eq_some htype
      rw [AgentManager.unregisterAgent, htype] at hagent
      have herase : ∀ (agentType' : AgentType) link',
          (σ.closeSocket link).agentManager.agents[agentType']? = some link' ↔
            agentType ≠ agentType' ∧ σ.agentManager.agents[agentType']? = some link' := by
        intro agentType' link'
        rw [hagent]
        simp only [AgentManager.forget]
        rw [ExtTreeMap.getElem?_erase]
        by_cases hsame : agentType = agentType'
        · simp [hsame]
        · simp [hsame]
      constructor
      · intro agentType' link' hlink'
        obtain ⟨hne, hkept⟩ := (herase agentType' link').mp hlink'
        rw [hclosed, List.mem_cons, not_or]
        refine ⟨?_, h.opened agentType' link' hkept⟩
        rintro rfl
        exact hne (h.single agentType agentType' _ hlink hkept)
      · intro agentType₁ agentType₂ link' hlink₁ hlink₂
        exact h.single agentType₁ agentType₂ link' ((herase agentType₁ link').mp hlink₁).2
          ((herase agentType₂ link').mp hlink₂).2
      · intro link' hmem
        rw [hagent] at hmem
        simp only [AgentManager.forget, ExtTreeMap.mem_erase] at hmem
        obtain ⟨hne, hmem⟩ := hmem
        obtain ⟨agentType', hlink'⟩ := h.registered link' hmem
        refine ⟨agentType', (herase agentType' link').mpr ⟨?_, hlink'⟩⟩
        rintro rfl
        have hsame : link = link' := Option.some.inj (hlink.symm.trans hlink')
        simp [hsame] at hne

/-- Each event of single agents keeps the registers tidy. -/
theorem Tidy.step (h : Tidy σ) (hpaired : Paired σ) (hsingle : σ.Single event)
    (hstep : σ.step event = some σ') :
  Tidy σ'
  := by
  obtain ⟨hopen, σ₁, hmanages, rfl | rfl⟩ := manages_step hstep
  · exact h.manages hopen hsingle hmanages
  · exact (h.manages hopen hsingle hmanages).closeSocket (hpaired.manages hmanages)

theorem tidy_of_reaches (h : Runs.Reaches step Single {} σ) :
  Tidy σ
  := by
  have hboth : Paired σ ∧ Tidy σ := by
    apply h.invariant
    · refine ⟨paired_start, ?_, ?_, ?_⟩
      · simp [AgentManager.empty]
      · simp [AgentManager.empty]
      · simp [AgentManager.empty]
    · rintro σ event σ' ⟨hpaired, htidy⟩ hsingle hstep
      exact ⟨hpaired.step hstep, htidy.step hpaired hsingle hstep⟩
  exact hboth.2

/-- If no link registers a second agent type, then nothing refers to a link that has been closed,
an agent type is refused only if it is registered for an open link, and no talker is made for a
link that has been closed. -/
theorem clean_of_single (h : Runs.Reaches step Single {} σ) :
  (∀ link ∈ σ.closed, Clean σ.agentManager link) ∧
    (∀ agentType link, (σ.agentManager.registerAgent agentType link).1 = .DONE
      ∨ ∃ link' ∉ σ.closed, σ.agentManager.agents[agentType]? = some link') ∧
    ∀ agentType talker, (σ.agentManager.createTalker agentType).1 = some talker →
      talker.linkId ∉ σ.closed
  := by
  have htidy := tidy_of_reaches h
  refine ⟨fun link => htidy.clean, ?_, ?_⟩
  · intro agentType link
    rcases AgentManager.registerAgent_cases agentType link σ.agentManager with ⟨hmem, -⟩ | ⟨-, hr⟩
    · obtain ⟨link', hagent⟩ := Option.isSome_iff_exists.mp
        (ExtTreeMap.mem_iff_isSome_getElem?.mp hmem)
      exact Or.inr ⟨link', htidy.opened agentType link' hagent, hagent⟩
    · rw [hr]
      exact Or.inl rfl
  · intro agentType talker htalker
    generalize hcreate : σ.agentManager.createTalker agentType = result at htalker
    obtain ⟨created, m⟩ := result
    obtain rfl : created = some talker := htalker
    exact htidy.opened agentType _ (AgentManager.createTalker_eq_some hcreate).1

/-- An agent registers types of a list and is disconnected. -/
def disconnectEvents (agentTypes : List AgentType) : List Event :=
  agentTypes.map (fun agentType => .agentRegister 1 agentType 0) ++ [.close 1]

/-- An agent with one type. -/
theorem clean_oneType :
  ∃ σ, Runs.Reaches step Single {} σ ∧ 1 ∈ σ.closed ∧
    (∀ link ∈ σ.closed, Clean σ.agentManager link) ∧
    (∀ agentType link, (σ.agentManager.registerAgent agentType link).1 = .DONE
      ∨ ∃ link' ∉ σ.closed, σ.agentManager.agents[agentType]? = some link') ∧
    ∀ agentType talker, (σ.agentManager.createTalker agentType).1 = some talker →
      talker.linkId ∉ σ.closed
  := by
  let single : CheckLogic → Event → Bool
    | σ, .agentRegister link _ _ => (σ.agentManager.getAgentType link).isNone
    | _, _ => true
  have hrun : (Runs.run step single (disconnectEvents [Str.ofString "agent"]) {}).any (fun σ =>
      σ.closed.contains 1) = true := by
    decide +kernel
  obtain ⟨σ, hσ, hclosed⟩ := (Option.any_eq_true _ _).mp hrun
  have hsingle : ∀ σ event, single σ event = true → σ.Single event := by
    intro σ event hmeets
    cases event with
    | agentRegister link agentType sequenceNumber =>
        exact Or.inr (Option.isNone_iff_eq_none.mp hmeets)
    | request link request verdict => trivial
    | agentAction link sequenceNumber type answer => trivial
    | close link => trivial
  have hreaches : Runs.Reaches step Single {} σ := .run hsingle .start hσ
  exact ⟨σ, hreaches, by simpa using hclosed, clean_of_single hreaches⟩

/-- An agent with two types: one of them stays registered for the link that has been closed, and a
talker is made for it. -/
theorem not_clean_twoTypes :
  ∃ σ, Runs.Reaches step (fun _ _ => True) {} σ ∧ 1 ∈ σ.closed ∧ ¬ Clean σ.agentManager 1 ∧
    ∃ talker, (σ.agentManager.createTalker (Str.ofString "b")).1 = some talker ∧ talker.linkId = 1
  := by
  have hrun : (Runs.run step (fun _ _ => true)
      (disconnectEvents [Str.ofString "a", Str.ofString "b"]) {}).any (fun σ =>
        σ.closed.contains 1 && σ.agentManager.agents[Str.ofString "b"]? == some 1 &&
        (σ.agentManager.createTalker (Str.ofString "b")).1.any fun talker => talker.linkId = 1) =
      true := by
    decide +kernel
  obtain ⟨σ, hσ, hstale⟩ := (Option.any_eq_true _ _).mp hrun
  simp only [Bool.and_eq_true, List.contains_iff_mem, beq_iff_eq] at hstale
  obtain ⟨⟨hclosed, hagent⟩, htalker⟩ := hstale
  obtain ⟨talker, htalker, hlink⟩ := (Option.any_eq_true _ _).mp htalker
  refine ⟨σ, .run (fun _ _ _ => trivial) .start hσ, hclosed, ?_, talker, htalker, ?_⟩
  · intro hclean
    exact hclean.agents _ hagent
  · simpa using hlink

end CheckLogic

end Cynara
