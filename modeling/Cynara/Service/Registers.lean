import Cynara.Service.CheckRuns

/-!
# The registers of the service

The service has two registers: the talkers, by the links of the agents and the numbers of the
talkers, and the contexts, by the links of the clients and the ids of the checks.  A request or a
reply changes them in one of a few ways, and after that its connection may be closed.  When a
connection is closed, the contexts of its talkers are removed, the talkers are dropped if an agent
is registered for the link, and the contexts of the link itself are marked.
-/

namespace Cynara

open Std PredefinedPolicyType ProtocolClient

/-! ### Registers of agents -/

namespace AgentManager

variable {m m' : AgentManager} {agentType agentType' : AgentType} {link : LinkId}
  {talker talker' : AgentTalker}

theorem getAgentType_eq_some (h : m.getAgentType link = some agentType) :
  m.agents[agentType]? = some link
  := by
  obtain ⟨⟨agentType, link'⟩, hfind, rfl⟩ := Option.map_eq_some_iff.mp h
  have hlink : link' = link := by simpa using List.find?_some hfind
  rw [← hlink]
  exact ExtTreeMap.mem_toList_iff_getElem?_eq_some.mp (List.mem_of_find?_eq_some hfind)

theorem getAgentType_eq_none (h : m.getAgentType link = none) :
  m.agents[agentType]? ≠ some link
  := by
  intro hagent
  rw [getAgentType, Option.map_eq_none_iff, List.find?_eq_none] at h
  have hmem := ExtTreeMap.mem_toList_iff_getElem?_eq_some.mpr hagent
  simpa using h _ hmem

/-- A talker that is created is new, and it is for an agent that is registered. -/
theorem createTalker_eq_some (h : m.createTalker agentType = (some talker, m')) :
  m.agents[agentType]? = some talker.linkId ∧ m'.agents = m.agents ∧
    m.talkers.find talker.linkId talker.checkId = none ∧
    m'.talkers = m.talkers.put talker.linkId talker.checkId talker ∧
    talker.address = m.address
  := by
  unfold createTalker at h
  simp only [generateSequenceNumber] at h
  split at h
  · cases h
  · rename_i link hagent
    split at h
    · cases h
    · rename_i hfree
      cases h
      exact ⟨hagent, rfl, hfree, rfl, rfl⟩

/-- Only a number is used up if no talker is created. -/
theorem createTalker_eq_none (h : m.createTalker agentType = (none, m')) :
  m'.agents = m.agents ∧ m'.talkers = m.talkers
  := by
  unfold createTalker at h
  simp only [generateSequenceNumber] at h
  split at h
  · cases h
    exact ⟨rfl, rfl⟩
  · split at h
    · cases h
      exact ⟨rfl, rfl⟩
    · cases h

/-- The code and the types that are registered. -/
theorem registerAgent_cases (agentType : AgentType) (link : LinkId) (m : AgentManager) :
  agentType ∈ m.agents ∧ m.registerAgent agentType link = (.REJECTED, m)
    ∨ agentType ∉ m.agents ∧ m.registerAgent agentType link =
        (.DONE, { m with agents := m.agents.insert agentType link })
  := by
  unfold registerAgent
  split
  · rename_i hmem
    exact Or.inl ⟨hmem, rfl⟩
  · rename_i hmem
    exact Or.inr ⟨hmem, rfl⟩

end AgentManager

namespace CheckLogic

/-! ### What happens to the registers -/

/-- Nothing happens to the registers and the connections. -/
structure SameRegisters (σ σ' : CheckLogic) : Prop where
  agentManager : σ'.agentManager = σ.agentManager
  checkRequestManager : σ'.checkRequestManager = σ.checkRequestManager
  closed : σ'.closed = σ.closed

/-- What an event does to the registers, before its connection may be closed, with the context
that is created. -/
inductive Manages : Event → CheckLogic → Option CheckContext → CheckLogic → Prop
  | same {event : Event} {σ σ' : CheckLogic} : SameRegisters σ σ' → Manages event σ none σ'
  | number {event : Event} {σ σ' : CheckLogic} {agentType : AgentType} {m : AgentManager} :
      σ.agentManager.createTalker agentType = (none, m) →
      SameRegisters { σ with agentManager := m } σ' → Manages event σ none σ'
  | create {link : LinkId} {key : PolicyKey} {checkId : UInt16} {verdict : Verdict}
      {σ σ' : CheckLogic} {agentType : AgentType} {talker : AgentTalker} {m : AgentManager} :
      σ.agentManager.createTalker agentType = (some talker, m) →
      σ.getContext link checkId = none →
      SameRegisters
        { σ.put ⟨talker, checkId, key, link, false, σ.sent.length⟩ with agentManager := m } σ' →
      Manages (.request link (.check key checkId) verdict) σ
        (some ⟨talker, checkId, key, link, false, σ.sent.length⟩) σ'
  | mark {event : Event} {σ σ' : CheckLogic} {context : CheckContext} : σ.Keeps context →
      SameRegisters (σ.put context.cancel) σ' → Manages event σ none σ'
  | answer {event : Event} {σ σ' : CheckLogic} {link : LinkId} {checkId : UInt16}
      {talker : AgentTalker} {context : CheckContext} :
      σ.agentManager.getTalker link checkId = some talker →
      σ.checkRequestManager.getContextOf talker = some context →
      SameRegisters
        { σ.remove context with agentManager := σ.agentManager.removeTalker talker } σ' →
      Manages event σ none σ'
  | stray {event : Event} {σ σ' : CheckLogic} {link : LinkId} {checkId : UInt16}
      {talker : AgentTalker} :
      σ.agentManager.getTalker link checkId = some talker →
      σ.checkRequestManager.getContextOf talker = none →
      SameRegisters { σ with agentManager := σ.agentManager.removeTalker talker } σ' →
      Manages event σ none σ'
  | register {link : LinkId} {agentType : AgentType} {sequenceNumber : UInt16}
      {σ σ' : CheckLogic} :
      SameRegisters
        { σ with agentManager := (σ.agentManager.registerAgent agentType link).2 } σ' →
      Manages (.agentRegister link agentType sequenceNumber) σ none σ'

/-- The context that a request creates. -/
def issued (σ : CheckLogic) : Event → Option CheckContext
  | .request link (.check key checkId) verdict =>
      match σ.getContext link checkId with
      | some _ => none
      | none => (σ.executeCheck link key checkId verdict).state.getContext link checkId
  | _ => none

variable {σ σ' σ₁ : CheckLogic} {event : Event} {context context' : CheckContext}
  {talker talker' : AgentTalker} {link : LinkId} {checkId : UInt16}

theorem sameRegisters_returnResponse (link : LinkId) (response : Response) (σ : CheckLogic) :
  SameRegisters σ (σ.returnResponse link response).state
  := by
  rcases returnResponse_cases link response σ with ⟨-, h⟩ | ⟨-, h⟩ | ⟨-, e, h⟩
  · rw [h]
    exact ⟨rfl, rfl, rfl⟩
  · rw [h]
    exact ⟨rfl, rfl, rfl⟩
  · rw [h]
    exact ⟨rfl, rfl, rfl⟩

/-- The registers after a check that has no context. -/
theorem registers_executeCheck (key : PolicyKey) (verdict : Verdict)
    (hfree : σ.getContext link checkId = none) :
  SameRegisters σ (σ.executeCheck link key checkId verdict).state
    ∨ (∃ agentType m, σ.agentManager.createTalker agentType = (none, m) ∧
      SameRegisters { σ with agentManager := m } (σ.executeCheck link key checkId verdict).state)
    ∨ ∃ agentType talker m, σ.agentManager.createTalker agentType = (some talker, m) ∧
      SameRegisters
        { σ.put ⟨talker, checkId, key, link, false, σ.sent.length⟩ with agentManager := m }
        (σ.executeCheck link key checkId verdict).state
  := by
  have hchecked := checked_executeCheck key verdict hfree
  generalize σ.executeCheck link key checkId verdict = executed at hchecked ⊢
  cases hchecked with
  | throws => exact Or.inl ⟨rfl, rfl, rfl⟩
  | answers _ hm =>
      rcases hm with rfl | ⟨agentType, hcreate⟩
      · exact Or.inl (sameRegisters_returnResponse link _ σ)
      · exact Or.inr (Or.inl ⟨agentType, _, hcreate, sameRegisters_returnResponse link _ _⟩)
  | asks _ hcreate hstate =>
      rw [hstate]
      exact Or.inr (Or.inr ⟨_, _, _, hcreate, rfl, rfl, rfl⟩)

/-- A check may begin a question to an agent. -/
theorem manages_executeCheck (link : LinkId) (key : PolicyKey) (checkId : UInt16)
    (verdict : Verdict) (σ : CheckLogic) :
  Manages (.request link (.check key checkId) verdict) σ
    (σ.issued (.request link (.check key checkId) verdict))
    (σ.executeCheck link key checkId verdict).state
  := by
  cases hfree : σ.getContext link checkId with
  | some context =>
      rw [issued, hfree, executeCheck, check, hfree]
      exact .same ⟨rfl, rfl, rfl⟩
  | none =>
      rw [issued, hfree]
      simp only [getContext]
      rcases registers_executeCheck key verdict hfree with hsame | ⟨agentType, m, hcreate, hsame⟩ |
        ⟨agentType, talker, m, hcreate, hsame⟩
      · rw [hsame.checkRequestManager,
          show σ.checkRequestManager.getContext link checkId = none from hfree]
        exact .same hsame
      · rw [hsame.checkRequestManager,
          show σ.checkRequestManager.getContext link checkId = none from hfree]
        exact .number hcreate hsame
      · simp only [hsame.checkRequestManager, put, CheckRequestManager.getContext_put, and_self,
          if_true]
        exact .create hcreate hfree hsame

theorem manages_executeCancel (hopen : link ∉ σ.closed) (checkId : UInt16) :
  Manages event σ none (σ.executeCancel link checkId).state
  := by
  rcases executeCancel_cases hopen checkId with ⟨-, h⟩ | ⟨context, agentSent, hcontext, -, h⟩
  · rw [h]
    exact .same ⟨rfl, rfl, rfl⟩
  · rw [h]
    exact .mark (keeps_of_getContext hcontext) ⟨rfl, rfl, rfl⟩

theorem sameRegisters_answerContext (context : CheckContext) (type : UInt8)
    (answer : PolicyKey → PluginUpdate) (σ : CheckLogic) :
  SameRegisters σ (σ.answerContext context type answer).state
  := by
  rcases answerContext_cases context type answer σ with ⟨-, h⟩ | ⟨-, ⟨e, h⟩ | ⟨result, -, h⟩⟩
  · rw [h]
    exact ⟨rfl, rfl, rfl⟩
  · rw [h]
    exact ⟨rfl, rfl, rfl⟩
  · rw [h]
    exact sameRegisters_returnResponse _ _ σ

theorem manages_executeAgentAction (link : LinkId) (sequenceNumber : UInt16) (type : UInt8)
    (answer : PolicyKey → PluginUpdate) (σ : CheckLogic) :
  Manages event σ none (σ.executeAgentAction link sequenceNumber type answer).state
  := by
  unfold executeAgentAction
  split
  · exact .same ⟨rfl, rfl, rfl⟩
  · rename_i talker htalker
    split
    · rename_i hnone
      exact .stray htalker hnone ⟨rfl, rfl, rfl⟩
    · rename_i context hcontext
      have hanswer := sameRegisters_answerContext context type answer σ
      unfold Outcome.andThen
      split
      · refine .answer htalker hcontext ⟨?_, ?_, hanswer.closed⟩
        · simp only [Outcome.returned_state, hanswer.agentManager]
        · simp only [Outcome.returned_state, hanswer.checkRequestManager, remove]
      · exact .same hanswer

/-- What a request does to the registers. -/
theorem manages_executeRequest (hopen : link ∉ σ.closed) (verdict : Verdict) (request : Request) :
  Manages (.request link request verdict) σ (σ.issued (.request link request verdict))
    (σ.executeRequest link verdict request).state
  := by
  cases request with
  | cancel checkId => exact manages_executeCancel hopen checkId
  | check key checkId => exact manages_executeCheck link key checkId verdict σ
  | simpleCheck key checkId =>
      refine .same ?_
      change SameRegisters σ (σ.executeSimpleCheck link checkId verdict).state
      unfold executeSimpleCheck
      split
      · exact ⟨rfl, rfl, rfl⟩
      · exact sameRegisters_returnResponse link _ σ
  | monitorEntriesPut entries sequenceNumber => exact .same ⟨rfl, rfl, rfl⟩
  | monitorEntryPut entry sequenceNumber => exact .same ⟨rfl, rfl, rfl⟩

/-- What an event does to the registers. -/
theorem manages_step (h : σ.step event = some σ') :
  event.link ∉ σ.closed ∧ ∃ σ₁, Manages event σ (σ.issued event) σ₁ ∧
    (σ' = σ₁ ∨ σ' = σ₁.closeSocket event.link)
  := by
  unfold step at h
  split at h
  · cases h
  · rename_i hopen
    obtain rfl := Option.some.inj h
    have hhandle : ∀ executed : Outcome LogicException CheckLogic,
        handle event.link executed = executed.state
          ∨ handle event.link executed = executed.state.closeSocket event.link := by
      intro executed
      unfold handle
      split
      · exact Or.inl rfl
      · exact Or.inr rfl
    refine ⟨hopen, ?_⟩
    cases event with
    | request link request verdict =>
        exact ⟨_, manages_executeRequest hopen verdict request, hhandle _⟩
    | agentRegister link agentType sequenceNumber =>
        exact ⟨σ.executeAgentRegister link agentType sequenceNumber, .register ⟨rfl, rfl, rfl⟩,
          Or.inl rfl⟩
    | agentAction link sequenceNumber type answer =>
        exact ⟨_, manages_executeAgentAction link sequenceNumber type answer σ, hhandle _⟩
    | close link => exact ⟨σ, .same ⟨rfl, rfl, rfl⟩, Or.inr rfl⟩

/-! ### Connections that are closed -/

/-- Contexts have been marked, and nothing else has happened to the registers. -/
structure Marked (σ σ' : CheckLogic) : Prop where
  agentManager : σ'.agentManager = σ.agentManager
  contexts : ∀ link checkId, (σ'.getContext link checkId).map CheckContext.cancel =
    (σ.getContext link checkId).map CheckContext.cancel
  closed : σ'.closed = σ.closed

theorem Marked.refl (σ : CheckLogic) :
  Marked σ σ
  := ⟨rfl, fun _ _ => rfl, rfl⟩

theorem Marked.trans (h : Marked σ σ₁) (h' : Marked σ₁ σ') :
  Marked σ σ'
  := by
  refine ⟨h'.agentManager.trans h.agentManager, ?_, h'.closed.trans h.closed⟩
  intro link checkId
  exact (h'.contexts link checkId).trans (h.contexts link checkId)

theorem SameRegisters.marked (h : SameRegisters σ σ') :
  Marked σ σ'
  := by
  refine ⟨h.agentManager, ?_, h.closed⟩
  intro link checkId
  rw [getContext, h.checkRequestManager]
  rfl

theorem marked_put_cancel (h : σ.Keeps context) :
  Marked σ (σ.put context.cancel)
  := by
  refine ⟨rfl, ?_, rfl⟩
  intro link checkId
  rw [show (σ.put context.cancel).getContext link checkId = _ from
    CheckRequestManager.getContext_put]
  split
  · rename_i hplace
    rw [← show context.link = link from hplace.1, ← show context.checkId = checkId from hplace.2,
      show σ.getContext _ _ = _ from h]
    rfl
  · rfl

theorem marked_handleClientDisconnection (context : CheckContext) (σ : CheckLogic) :
  Marked σ (σ.handleClientDisconnection context)
  := by
  rcases handleClientDisconnection_cases context σ with ⟨agentSent, h⟩ | ⟨kept, agentSent, hkept, h⟩
  · rw [h]
    exact ⟨rfl, fun _ _ => rfl, rfl⟩
  · rw [h]
    exact (marked_put_cancel (keeps_of_getContext hkept)).trans ⟨rfl, fun _ _ => rfl, rfl⟩

theorem marked_foldl (contexts : List CheckContext) (σ : CheckLogic) :
  Marked σ (contexts.foldl handleClientDisconnection σ)
  := by
  induction contexts generalizing σ with
  | nil => exact .refl σ
  | cons context contexts ih => exact (marked_handleClientDisconnection context σ).trans (ih _)

/-- No two contexts have one talker. -/
def Distinct (σ : CheckLogic) : Prop :=
  ∀ context context', σ.Keeps context → σ.Keeps context' →
    context.agentTalker.address = context'.agentTalker.address → context = context'

theorem sameRegisters_handleAgentTalkerDisconnection
    (h : σ.checkRequestManager.getContextOf talker = some context) :
  SameRegisters (σ.remove context) (σ.handleAgentTalkerDisconnection talker)
  := by
  rw [handleAgentTalkerDisconnection_eq h]
  split
  · exact ⟨rfl, rfl, rfl⟩
  · exact ⟨rfl, rfl, rfl⟩

theorem getContextOf_eq_none (h : σ.checkRequestManager.getContextOf talker = none)
    (hkeeps : σ.Keeps context) :
  context.agentTalker.address ≠ talker.address
  := by
  simpa using Nested.search_eq_none.mp h _ _ _ hkeeps

/-- The context of the talker is removed. -/
theorem keeps_handleAgentTalkerDisconnection (hdistinct : Distinct σ) (talker : AgentTalker) :
  (σ.handleAgentTalkerDisconnection talker).agentManager = σ.agentManager ∧
    (σ.handleAgentTalkerDisconnection talker).closed = σ.closed ∧
    ∀ context, (σ.handleAgentTalkerDisconnection talker).Keeps context ↔
      σ.Keeps context ∧ context.agentTalker.address ≠ talker.address
  := by
  cases hfound : σ.checkRequestManager.getContextOf talker with
  | none =>
      simp only [handleAgentTalkerDisconnection, hfound, true_and]
      intro context
      exact ⟨fun hkeeps => ⟨hkeeps, getContextOf_eq_none hfound hkeeps⟩, And.left⟩
  | some removed =>
      have hsame := sameRegisters_handleAgentTalkerDisconnection hfound
      obtain ⟨hremoved, haddress⟩ := CheckRequestManager.getContext_of_getContextOf hfound
      refine ⟨hsame.agentManager, hsame.closed, ?_⟩
      intro context
      have hkeeps : (σ.handleAgentTalkerDisconnection talker).Keeps context ↔
          (σ.remove removed).Keeps context := by
        rw [Keeps, getContext, hsame.checkRequestManager]
        rfl
      rw [hkeeps, keeps_remove]
      constructor
      · rintro ⟨hplace, hkeeps⟩
        refine ⟨hkeeps, ?_⟩
        intro hsameAddress
        obtain rfl := hdistinct removed context hremoved hkeeps (haddress.trans hsameAddress.symm)
        exact hplace ⟨rfl, rfl⟩
      · rintro ⟨hkeeps, hother⟩
        refine ⟨?_, hkeeps⟩
        intro hplace
        obtain rfl := Keeps.eq_of_place hremoved hkeeps hplace
        exact hother haddress

/-- The contexts of all talkers of a list are removed. -/
theorem keeps_foldl (hdistinct : Distinct σ) (talkers : List AgentTalker) :
  (talkers.foldl handleAgentTalkerDisconnection σ).agentManager = σ.agentManager ∧
    (talkers.foldl handleAgentTalkerDisconnection σ).closed = σ.closed ∧
    ∀ context, (talkers.foldl handleAgentTalkerDisconnection σ).Keeps context ↔
      σ.Keeps context ∧ ∀ talker ∈ talkers, context.agentTalker.address ≠ talker.address
  := by
  induction talkers generalizing σ with
  | nil => simp
  | cons talker talkers ih =>
      obtain ⟨hagent, hclosed, hkeeps⟩ :=
        keeps_handleAgentTalkerDisconnection hdistinct talker
      have hdistinct' : Distinct (σ.handleAgentTalkerDisconnection talker) := by
        intro context context' hcontext hcontext'
        exact hdistinct context context' ((hkeeps context).mp hcontext).1
          ((hkeeps context').mp hcontext').1
      obtain ⟨hagent', hclosed', hkeeps'⟩ := ih hdistinct'
      refine ⟨hagent'.trans hagent, hclosed'.trans hclosed, ?_⟩
      intro context
      rw [List.foldl_cons, hkeeps', hkeeps, List.forall_mem_cons, and_assoc]

/-- When a connection is closed, the contexts of its talkers are removed, and its own contexts are
marked. -/
theorem registers_closeSocket (hdistinct : Distinct σ) (link : LinkId) :
  (σ.closeSocket link).agentManager = σ.agentManager.unregisterAgent link ∧
    (σ.closeSocket link).closed = link :: σ.closed ∧
    ∃ σ₁, Marked σ₁ (σ.closeSocket link) ∧ ∀ context, σ₁.Keeps context ↔
      σ.Keeps context ∧ ∀ talker ∈ σ.agentManager.talkersOf link,
        context.agentTalker.address ≠ talker.address
  := by
  have hclose : Distinct (σ.close link) := hdistinct
  obtain ⟨hagent, hclosed, hkeeps⟩ := keeps_foldl hclose (σ.agentManager.talkersOf link)
  unfold closeSocket contextClosed
  change _ ∧ _ ∧ ∃ σ₁, Marked σ₁ (List.foldl _ _ _) ∧ _
  set σ₁ := (σ.agentManager.talkersOf link).foldl handleAgentTalkerDisconnection (σ.close link)
  have hmarked := marked_foldl (CheckRequestManager.contextsOf link σ₁.checkRequestManager)
    { σ₁ with agentManager := σ₁.agentManager.unregisterAgent link }
  refine ⟨?_, ?_, _, hmarked, hkeeps⟩
  · refine hmarked.agentManager.trans ?_
    rw [hagent]
    rfl
  · exact hmarked.closed.trans hclosed

end CheckLogic

end Cynara
