import Mathlib.Logic.Relation
import Cynara.Service.CheckLogic

/-!
# What the service does to its contexts

When an agent replies, or when a connection is closed, contexts are removed or marked, one after
the other.  A context is removed after its check has been answered, after it has been cancelled,
or after its connection has been closed.  There is one exception: a reply of an agent of another
type than `CYNARA_MSG_TYPE_ACTION` removes a context silently.

A request of a client is answered, discarded or kept in a new context; the exceptions close its
connection.
-/

namespace Cynara

open Std PredefinedPolicyType ProtocolClient

namespace CheckLogic

/-! ### Effects -/

/-- Nothing happens to the contexts, the responses and the connections. -/
structure Quiet (σ σ' : CheckLogic) : Prop where
  contexts : σ'.checkRequestManager = σ.checkRequestManager
  sent : σ'.sent = σ.sent
  closed : σ'.closed = σ.closed

/-- A context is removed. -/
def remove (context : CheckContext) (σ : CheckLogic) : CheckLogic :=
  { σ with checkRequestManager := σ.checkRequestManager.removeRequest context }

/-- A context is added, or takes the place of another one. -/
def put (context : CheckContext) (σ : CheckLogic) : CheckLogic :=
  { σ with checkRequestManager := σ.checkRequestManager.put context }

/-- A response is sent. -/
def send (link : LinkId) (response : Response) (σ : CheckLogic) : CheckLogic :=
  { σ with sent := σ.sent ++ [(link, response)] }

/-- The connection has been closed. -/
def close (link : LinkId) (σ : CheckLogic) : CheckLogic := { σ with closed := link :: σ.closed }

/-- The context is kept by the service. -/
def Keeps (σ : CheckLogic) (context : CheckContext) : Prop :=
  σ.getContext context.link context.checkId = some context

/-- What happens to contexts that are not new.  A context is forgotten only if this is said to be
possible. -/
inductive Effect (forgets : Prop) : CheckLogic → CheckLogic → Prop
  | quiet {σ σ' : CheckLogic} : Quiet σ σ' → Effect forgets σ σ'
  | close {σ : CheckLogic} (link : LinkId) : Effect forgets σ (σ.close link)
  | settle {σ : CheckLogic} {context : CheckContext} (result : PolicyResult) : σ.Keeps context →
      context.cancelled = false → context.link ∉ σ.closed →
      Effect forgets σ ((σ.send context.link (.check result context.checkId)).remove context)
  | drop {σ : CheckLogic} {context : CheckContext} : σ.Keeps context →
      context.cancelled = true ∨ context.link ∈ σ.closed →
      Effect forgets σ (σ.remove context)
  | forget {σ : CheckLogic} {context : CheckContext} : forgets → σ.Keeps context →
      Effect forgets σ (σ.remove context)
  | abandon {σ : CheckLogic} {context : CheckContext} : σ.Keeps context →
      context.link ∈ σ.closed → Effect forgets σ (σ.put context.cancel)

/-- Several effects, one after the other. -/
abbrev Effects (forgets : Prop) := Relation.ReflTransGen (Effect forgets)

variable {σ σ' σ₁ : CheckLogic} {forgets : Prop} {context : CheckContext} {link : LinkId}
  {checkId : UInt16}

theorem keeps_of_getContext (h : σ.getContext link checkId = some context) :
  σ.Keeps context
  := by
  obtain ⟨rfl, rfl⟩ := CheckRequestManager.placed_getContext h
  exact h

theorem keeps_of_getContextOf {talker : AgentTalker}
    (h : σ.checkRequestManager.getContextOf talker = some context) :
  σ.Keeps context
  := (CheckRequestManager.getContext_of_getContextOf h).1

theorem Quiet.getContext_eq (h : Quiet σ σ') (link : LinkId) (checkId : UInt16) :
  σ'.getContext link checkId = σ.getContext link checkId
  := by
  rw [getContext, h.contexts]
  rfl

theorem Effects.quiet (h : Quiet σ σ') :
  Effects forgets σ σ'
  := .single (.quiet h)

theorem Effects.andQuiet (h : Effects forgets σ σ₁) (hquiet : Quiet σ₁ σ') :
  Effects forgets σ σ'
  := h.tail (.quiet hquiet)

theorem Effects.mem_closed (h : Effects forgets σ σ') (hclosed : link ∈ σ.closed) :
  link ∈ σ'.closed
  := by
  induction h with
  | refl => exact hclosed
  | tail _ heffect ih =>
      cases heffect with
      | quiet hquiet =>
          rw [hquiet.closed]
          exact ih
      | close link' => exact List.mem_cons_of_mem link' ih
      | settle _ _ _ _ => exact ih
      | drop _ _ => exact ih
      | forget _ _ => exact ih
      | abandon _ _ => exact ih

/-- A loop whose turns have effects, when a connection has been closed. -/
theorem effects_foldl {α : Type} {f : CheckLogic → α → CheckLogic} {l : List α}
    (hf : ∀ σ : CheckLogic, link ∈ σ.closed → ∀ a ∈ l, Effects forgets σ (f σ a))
    (hclosed : link ∈ σ.closed) :
  Effects forgets σ (l.foldl f σ)
  := by
  induction l generalizing σ with
  | nil => exact .refl
  | cons a l ih =>
      have hfirst := hf σ hclosed a List.mem_cons_self
      apply hfirst.trans
      apply ih
      · intro σ hclosed b hb
        exact hf σ hclosed b (List.mem_cons_of_mem a hb)
      · exact hfirst.mem_closed hclosed

/-! ### Responses and messages -/

/-- A response is sent, or it is too long, unless the connection has been closed. -/
theorem returnResponse_cases (link : LinkId) (response : Response) (σ : CheckLogic) :
  link ∈ σ.closed ∧ σ.returnResponse link response = .returned σ
    ∨ link ∉ σ.closed ∧ σ.returnResponse link response = .returned (σ.send link response)
    ∨ link ∉ σ.closed ∧ ∃ e, σ.returnResponse link response = .threw e σ
  := by
  unfold returnResponse
  split
  · rename_i hclosed
    exact Or.inl ⟨hclosed, rfl⟩
  · rename_i hopen
    split
    · exact Or.inr (Or.inr ⟨hopen, _, rfl⟩)
    · exact Or.inr (Or.inl ⟨hopen, rfl⟩)

/-- A denial is never too long. -/
theorem returnResponse_deny (hopen : link ∉ σ.closed) :
  σ.returnResponse link (.check { policyType := DENY } checkId) =
    .returned (σ.send link (.check { policyType := DENY } checkId))
  := by
  rw [returnResponse, if_neg hopen]
  rfl

theorem returnResponse_cancel (hopen : link ∉ σ.closed) :
  σ.returnResponse link (.cancel checkId) = .returned (σ.send link (.cancel checkId))
  := by
  rw [returnResponse, if_neg hopen]
  rfl

/-- A message to an agent is sent, or it is too long. -/
theorem sendMessage_state (talker : AgentTalker) (type : UInt8) (data : Str) (σ : CheckLogic) :
  ∃ agentSent, (σ.sendMessage talker type data).state = { σ with agentSent := agentSent }
  := by
  unfold sendMessage
  simp only
  split
  · exact ⟨σ.agentSent, rfl⟩
  · exact ⟨_, rfl⟩

/-- A context that is kept is marked, and the agent is told. -/
theorem cancelContext_eq (h : σ.Keeps context) :
  ∃ agentSent, σ.cancelContext context = { σ.put context.cancel with agentSent := agentSent }
  := by
  unfold cancelContext
  rw [CheckRequestManager.cancel, show σ.checkRequestManager.getContext _ _ = _ from h]
  exact sendMessage_state _ _ _ _

/-! ### Checks -/

/-- The result of a plugin that is returned at once. -/
def pluginResult (m : AgentManager) : Option PluginCheck → Option PolicyResult
  | none => some { policyType := DENY }
  | some plugin =>
      match plugin.status with
      | .ANSWER_READY => some plugin.result
      | .ANSWER_NOTREADY =>
          if (m.createTalker plugin.requiredAgent).1.isSome then none
          else some { policyType := DENY }
      | _ => some { policyType := DENY }

/-- The result of a check that is returned at once. -/
def directResult (m : AgentManager) (verdict : Verdict) : Option PolicyResult :=
  match if verdict.dbCorrupted then some { policyType := DENY } else verdict.stored with
  | none => none
  | some result =>
      if result.policyType = ALLOW ∨ result.policyType = DENY then some result
      else pluginResult m verdict.plugin

/-- What a check that has no context comes to: an exception; an answer, after a number for a talker
may have been used up; or a context, and a message to the agent. -/
inductive Checked (link : LinkId) (key : PolicyKey) (checkId : UInt16) (verdict : Verdict)
    (σ : CheckLogic) : Outcome LogicException CheckLogic → Prop
  | throws : verdict.dbCorrupted = false → verdict.stored = none →
      Checked link key checkId verdict σ (.threw .storage σ)
  | answers {result : PolicyResult} {m : AgentManager} :
      directResult σ.agentManager verdict = some result →
      (m = σ.agentManager ∨ ∃ agentType, σ.agentManager.createTalker agentType = (none, m)) →
      Checked link key checkId verdict σ
        ({ σ with agentManager := m }.returnResponse link (.check result checkId))
  | asks {agentType : AgentType} {talker : AgentTalker} {m : AgentManager}
      {agentSent : List (LinkId × ProtocolAgent.Response)}
      {executed : Outcome LogicException CheckLogic} :
      directResult σ.agentManager verdict = none →
      σ.agentManager.createTalker agentType = (some talker, m) →
      executed.state = { σ.put ⟨talker, checkId, key, link, false, σ.sent.length⟩ with
        agentManager := m, agentSent := agentSent } →
      Checked link key checkId verdict σ executed

/-- A plugin has a result at once, or a context is created. -/
theorem pluginCheck_cases (key : PolicyKey) (plugin : Option PluginCheck)
    (hfree : σ.getContext link checkId = none) :
  (∃ result m, σ.pluginCheck link key checkId plugin
        = (some result, .returned { σ with agentManager := m })
      ∧ pluginResult σ.agentManager plugin = some result
      ∧ (m = σ.agentManager ∨ ∃ agentType, σ.agentManager.createTalker agentType = (none, m)))
    ∨ ∃ agentType talker m agentSent executed,
      σ.pluginCheck link key checkId plugin = (none, executed)
      ∧ pluginResult σ.agentManager plugin = none
      ∧ σ.agentManager.createTalker agentType = (some talker, m)
      ∧ executed.state = { σ.put ⟨talker, checkId, key, link, false, σ.sent.length⟩ with
        agentManager := m, agentSent := agentSent }
  := by
  cases plugin with
  | none => exact Or.inl ⟨_, σ.agentManager, rfl, rfl, Or.inl rfl⟩
  | some plugin =>
      obtain ⟨status, result, requiredAgent, pluginData⟩ := plugin
      cases status with
      | SUCCESS => exact Or.inl ⟨_, σ.agentManager, rfl, rfl, Or.inl rfl⟩
      | ANSWER_READY => exact Or.inl ⟨_, σ.agentManager, rfl, rfl, Or.inl rfl⟩
      | ERROR => exact Or.inl ⟨_, σ.agentManager, rfl, rfl, Or.inl rfl⟩
      | ANSWER_NOTREADY =>
          simp only [pluginCheck, pluginResult]
          cases hcreate : σ.agentManager.createTalker requiredAgent with
          | mk talker m =>
              cases talker with
              | none => exact Or.inl ⟨_, m, rfl, rfl, Or.inr ⟨requiredAgent, hcreate⟩⟩
              | some talker =>
                  simp only [CheckRequestManager.createContext,
                    show σ.checkRequestManager.getContext link checkId = none from hfree]
                  obtain ⟨agentSent, hstate⟩ := sendMessage_state talker CYNARA_MSG_TYPE_ACTION
                    pluginData { σ.put ⟨talker, checkId, key, link, false, σ.sent.length⟩ with
                      agentManager := m }
                  exact Or.inr ⟨requiredAgent, talker, m, agentSent, _, rfl, rfl, hcreate, hstate⟩

/-- What a check comes to, if its number is not in use. -/
theorem checked_executeCheck (key : PolicyKey) (verdict : Verdict)
    (hfree : σ.getContext link checkId = none) :
  Checked link key checkId verdict σ (σ.executeCheck link key checkId verdict)
  := by
  unfold executeCheck check
  rw [hfree]
  cases hstored : (if verdict.dbCorrupted then some { policyType := DENY } else verdict.stored) with
  | none =>
      cases hcorrupted : verdict.dbCorrupted with
      | true => simp [hcorrupted] at hstored
      | false => exact .throws hcorrupted (by simpa [hcorrupted] using hstored)
  | some stored =>
      by_cases hpredefined : stored.policyType = ALLOW ∨ stored.policyType = DENY
      · simp only [if_pos hpredefined]
        refine .answers (m := σ.agentManager) ?_ (Or.inl rfl)
        simp [directResult, hstored, hpredefined]
      · simp only [if_neg hpredefined]
        have hdirect : directResult σ.agentManager verdict
            = pluginResult σ.agentManager verdict.plugin := by
          simp [directResult, hstored, hpredefined]
        rcases pluginCheck_cases key verdict.plugin hfree with ⟨result, m, hcheck, hresult, hm⟩ |
          ⟨agentType, talker, m, agentSent, executed, hcheck, hresult, hcreate, hstate⟩
        · rw [hcheck]
          exact .answers (hdirect.trans hresult) hm
        · rw [hcheck]
          exact .asks (hdirect.trans hresult) hcreate hstate

/-! ### Connections that are closed -/

/-- The context of a talker is removed, after a denial has been sent unless it was cancelled. -/
theorem handleAgentTalkerDisconnection_eq {talker : AgentTalker}
    (h : σ.checkRequestManager.getContextOf talker = some context) :
  σ.handleAgentTalkerDisconnection talker
    = (if context.cancelled = true ∨ context.link ∈ σ.closed then σ
        else σ.send context.link (.check { policyType := DENY } context.checkId)).remove context
  := by
  unfold handleAgentTalkerDisconnection
  rw [h]
  change remove context (ite _ _ _) = _
  congr 1
  by_cases hcancelled : context.cancelled = true
  · simp [hcancelled]
  · by_cases hclosed : context.link ∈ σ.closed
    · simp [hcancelled, hclosed, returnResponse]
    · simp [hcancelled, hclosed, returnResponse_deny]

theorem effects_handleAgentTalkerDisconnection (talker : AgentTalker) (σ : CheckLogic) :
  Effects forgets σ (σ.handleAgentTalkerDisconnection talker)
  := by
  cases hcontext : σ.checkRequestManager.getContextOf talker with
  | none =>
      rw [handleAgentTalkerDisconnection, hcontext]
  | some context =>
      have hkeeps := keeps_of_getContextOf hcontext
      rw [handleAgentTalkerDisconnection_eq hcontext]
      split
      · rename_i hdropped
        exact .single (.drop hkeeps hdropped)
      · rename_i hwaits
        obtain ⟨hactive, hopen⟩ := not_or.mp hwaits
        exact .single (.settle _ hkeeps (by simpa using hactive) hopen)

/-- A context is marked, if it is kept and not marked yet. -/
theorem handleClientDisconnection_cases (context : CheckContext) (σ : CheckLogic) :
  (∃ agentSent, σ.handleClientDisconnection context = { σ with agentSent := agentSent })
    ∨ ∃ kept agentSent, σ.getContext context.link context.checkId = some kept
      ∧ σ.handleClientDisconnection context
        = { σ.put kept.cancel with agentSent := agentSent }
  := by
  unfold handleClientDisconnection
  split
  · exact Or.inl ⟨σ.agentSent, rfl⟩
  · unfold cancelContext
    rw [CheckRequestManager.cancel]
    split
    · exact Or.inl (sendMessage_state _ _ _ _)
    · rename_i kept hkept
      obtain ⟨agentSent, hstate⟩ := sendMessage_state context.agentTalker CYNARA_MSG_TYPE_CANCEL []
        (σ.put kept.cancel)
      exact Or.inr ⟨kept, agentSent, hkept, hstate⟩

/-- The contexts of a connection that has been closed are marked. -/
theorem effects_handleClientDisconnection (hclosed : context.link ∈ σ.closed) :
  Effects forgets σ (σ.handleClientDisconnection context)
  := by
  rcases handleClientDisconnection_cases context σ with ⟨agentSent, h⟩ | ⟨kept, agentSent, hkept, h⟩
  · rw [h]
    exact .quiet ⟨rfl, rfl, rfl⟩
  · rw [h]
    rw [← (CheckRequestManager.placed_getContext hkept).1] at hclosed
    have habandon : Effects forgets σ (σ.put kept.cancel) :=
      .single (.abandon (keeps_of_getContext hkept) hclosed)
    exact habandon.andQuiet ⟨rfl, rfl, rfl⟩

theorem link_of_mem_contextsOf (h : context ∈ σ.checkRequestManager.contextsOf link) :
  context.link = link
  := by
  obtain ⟨checkId, hcontext⟩ := Nested.mem_values.mp h
  exact (CheckRequestManager.placed_getContext hcontext).1

theorem effects_contextClosed (hclosed : link ∈ σ.closed) :
  Effects forgets σ (σ.contextClosed link)
  := by
  have htalkers : Effects forgets σ
      ((σ.agentManager.talkersOf link).foldl handleAgentTalkerDisconnection σ) :=
    effects_foldl (fun σ _ talker _ => effects_handleAgentTalkerDisconnection talker σ) hclosed
  unfold contextClosed
  generalize (σ.agentManager.talkersOf link).foldl handleAgentTalkerDisconnection σ = σ₁
    at htalkers
  have hunregister : Effects forgets σ
      { σ₁ with agentManager := σ₁.agentManager.unregisterAgent link } :=
    htalkers.andQuiet ⟨rfl, rfl, rfl⟩
  apply hunregister.trans
  apply effects_foldl _ (hunregister.mem_closed hclosed)
  intro σ hclosed context hcontext
  apply effects_handleClientDisconnection
  rw [link_of_mem_contextsOf hcontext]
  exact hclosed

theorem effects_closeSocket (link : LinkId) (σ : CheckLogic) :
  Effects forgets σ (σ.closeSocket link)
  := by
  have hclose : Effects forgets σ (σ.close link) := .single (.close link)
  apply hclose.trans
  apply effects_contextClosed
  exact List.mem_cons_self

theorem mem_closed_closeSocket (link : LinkId) (σ : CheckLogic) :
  link ∈ (σ.closeSocket link).closed
  := by
  have hclosed : link ∈ (σ.close link).closed := List.mem_cons_self
  have hcontext : Effects False (σ.close link) (σ.closeSocket link) :=
    effects_contextClosed hclosed
  exact hcontext.mem_closed hclosed

/-! ### Replies of agents -/

/-- A reply of an agent to a check that has not been cancelled has the type
`CYNARA_MSG_TYPE_ACTION`. -/
def Proper (σ : CheckLogic) : Event → Prop
  | .agentAction link sequenceNumber type _ =>
      ∀ talker ∈ σ.agentManager.getTalker link sequenceNumber,
        ∀ context ∈ σ.checkRequestManager.getContextOf talker,
          context.cancelled = false → context.link ∉ σ.closed → type = CYNARA_MSG_TYPE_ACTION
  | _ => True

/-- The answer of a plugin to the data of the agent. -/
def answerOf (u : PluginUpdate) : Option PolicyResult :=
  match u.status with
  | .SUCCESS => some u.result
  | .ERROR => some { policyType := DENY }
  | _ => none

/-- A reply that is not of the right type, or comes after the check was cancelled, is ignored.
Otherwise the answer of the plugin is sent, if it has one. -/
theorem answerContext_cases (context : CheckContext) (type : UInt8)
    (answer : PolicyKey → PluginUpdate) (σ : CheckLogic) :
  (context.cancelled = true ∨ type ≠ CYNARA_MSG_TYPE_ACTION)
      ∧ σ.answerContext context type answer = .returned σ
    ∨ context.cancelled = false ∧ ((∃ e, σ.answerContext context type answer = .threw e σ)
      ∨ ∃ result ∈ answerOf (answer context.key), σ.answerContext context type answer
        = σ.returnResponse context.link (.check result context.checkId))
  := by
  unfold answerContext
  split
  · rename_i hcancelled
    exact Or.inl ⟨Or.inl hcancelled, rfl⟩
  · rename_i hcancelled
    split
    · rename_i htype
      exact Or.inl ⟨Or.inr (by rw [htype]; decide), rfl⟩
    · split
      · refine Or.inr ⟨by simpa using hcancelled, ?_⟩
        unfold update answerOf
        simp only
        cases (answer context.key).status with
        | SUCCESS => exact Or.inr ⟨_, rfl, rfl⟩
        | ERROR => exact Or.inr ⟨_, rfl, rfl⟩
        | ANSWER_READY => exact Or.inl ⟨_, rfl⟩
        | ANSWER_NOTREADY => exact Or.inl ⟨_, rfl⟩
      · rename_i htype
        exact Or.inl ⟨Or.inr htype, rfl⟩

/-- What is done for a context, and its removal unless an exception is thrown. -/
theorem effects_answerContext (type : UInt8) (answer : PolicyKey → PluginUpdate)
    (hkeeps : σ.Keeps context)
    (hforgets : context.cancelled = false → context.link ∉ σ.closed →
      type ≠ CYNARA_MSG_TYPE_ACTION → forgets) :
  (∃ e, σ.answerContext context type answer = .threw e σ)
    ∨ ∃ σ₁, σ.answerContext context type answer = .returned σ₁
      ∧ Effects forgets σ (σ₁.remove context)
  := by
  rcases answerContext_cases context type answer σ
    with ⟨hignored, h⟩ | ⟨hactive, hthrows | ⟨result, -, h⟩⟩
  · refine Or.inr ⟨σ, h, ?_⟩
    by_cases hdropped : context.cancelled = true ∨ context.link ∈ σ.closed
    · exact .single (.drop hkeeps hdropped)
    · obtain ⟨hcancelled, hopen⟩ := not_or.mp hdropped
      have hactive : context.cancelled = false := by simpa using hcancelled
      exact .single (.forget (hforgets hactive hopen (hignored.resolve_left hcancelled)) hkeeps)
  · exact Or.inl hthrows
  · rw [h]
    rcases returnResponse_cases context.link (.check result context.checkId) σ
      with ⟨hclosed, h'⟩ | ⟨hopen, h'⟩ | ⟨-, e, h'⟩
    · exact Or.inr ⟨σ, h', .single (.drop hkeeps (Or.inr hclosed))⟩
    · exact Or.inr ⟨_, h', .single (.settle result hkeeps hactive hopen)⟩
    · exact Or.inl ⟨e, h'⟩

/-- The answer of an agent forgets a check only if it is not proper. -/
theorem effects_executeAgentAction (link : LinkId) (sequenceNumber : UInt16) (type : UInt8)
    (answer : PolicyKey → PluginUpdate) (σ : CheckLogic) :
  Effects (¬ σ.Proper (.agentAction link sequenceNumber type answer)) σ
    (σ.executeAgentAction link sequenceNumber type answer).state
  := by
  unfold executeAgentAction
  split
  · exact .refl
  · rename_i talker htalker
    split
    · exact .quiet ⟨rfl, rfl, rfl⟩
    · rename_i context hcontext
      have hforgets : context.cancelled = false → context.link ∉ σ.closed →
          type ≠ CYNARA_MSG_TYPE_ACTION →
          ¬ σ.Proper (.agentAction link sequenceNumber type answer) := by
        intro hactive hopen htype hproper
        exact htype (hproper talker htalker context hcontext hactive hopen)
      rcases effects_answerContext type answer (keeps_of_getContextOf hcontext) hforgets
        with ⟨e, h⟩ | ⟨σ₁, h, heffects⟩
      · rw [h]
        exact .refl
      · rw [h]
        exact heffects.andQuiet ⟨rfl, rfl, rfl⟩

theorem effects_handle {executed : Outcome LogicException CheckLogic}
    (h : Effects forgets σ executed.state) (link : LinkId) :
  Effects forgets σ (handle link executed)
  := by
  unfold handle
  split
  · exact h
  · exact h.trans (effects_closeSocket link _)

/-! ### Requests of clients -/

/-- What a request of a client comes to, if no exception is thrown. -/
inductive Serves (link : LinkId) : Request → CheckLogic → CheckLogic → Prop
  | answer {σ σ' : CheckLogic} {checkId : UInt16} (key : PolicyKey) (result : PolicyResult) :
      σ.getContext link checkId = none → Quiet (σ.send link (.check result checkId)) σ' →
      Serves link (.check key checkId) σ σ'
  | discard {σ : CheckLogic} {checkId : UInt16} {context : CheckContext} (key : PolicyKey) :
      σ.getContext link checkId = some context → Serves link (.check key checkId) σ σ
  | hold {σ σ' : CheckLogic} {checkId : UInt16} (key : PolicyKey) (talker : AgentTalker) :
      σ.getContext link checkId = none →
      Quiet (σ.put ⟨talker, checkId, key, link, false, σ.sent.length⟩) σ' →
      Serves link (.check key checkId) σ σ'
  | simple {σ σ' : CheckLogic} (key : PolicyKey) (retValue : Int32) (result : PolicyResult)
      (checkId : UInt16) : Quiet (σ.send link (.simpleCheck retValue result checkId)) σ' →
      Serves link (.simpleCheck key checkId) σ σ'
  | acknowledge {σ σ' : CheckLogic} {checkId : UInt16} {context : CheckContext} :
      σ.getContext link checkId = some context → context.cancelled = false →
      Quiet ((σ.put context.cancel).send link (.cancel checkId)) σ' →
      Serves link (.cancel checkId) σ σ'
  | ignore {σ : CheckLogic} {checkId : UInt16} :
      (∀ context ∈ σ.getContext link checkId, context.cancelled = true) →
      Serves link (.cancel checkId) σ σ
  | monitorEntries {σ : CheckLogic} (entries : List MonitorEntry) (sequenceNumber : UInt16) :
      Serves link (.monitorEntriesPut entries sequenceNumber) σ σ
  | monitorEntry {σ : CheckLogic} (entry : MonitorEntry) (sequenceNumber : UInt16) :
      Serves link (.monitorEntryPut entry sequenceNumber) σ σ

/-- The request is served, or an exception is thrown, maybe after a context has been created. -/
def Executes (link : LinkId) (request : Request) (σ : CheckLogic)
    (executed : Outcome LogicException CheckLogic) : Prop :=
  Serves link request σ executed.state ∨ executed.thrown.isSome ∧ Quiet σ executed.state

/-- An answer is sent at once, unless it is too long. -/
theorem executes_answer (hopen : link ∉ σ.closed) (key : PolicyKey)
    (hfree : σ.getContext link checkId = none) (hquiet : Quiet σ σ₁) (result : PolicyResult) :
  Executes link (.check key checkId) σ (σ₁.returnResponse link (.check result checkId))
  := by
  rcases returnResponse_cases link (.check result checkId) σ₁ with ⟨hclosed, -⟩ | ⟨-, h⟩ | ⟨-, e, h⟩
  · rw [hquiet.closed] at hclosed
    exact absurd hclosed hopen
  · rw [h]
    refine Or.inl (.answer key result hfree ⟨hquiet.contexts, ?_, hquiet.closed⟩)
    simp [send, hquiet.sent]
  · rw [h]
    exact Or.inr ⟨rfl, hquiet⟩

theorem executes_executeCheck (hopen : link ∉ σ.closed) (key : PolicyKey) (checkId : UInt16)
    (verdict : Verdict) :
  Executes link (.check key checkId) σ (σ.executeCheck link key checkId verdict)
  := by
  cases hfree : σ.getContext link checkId with
  | some context =>
      rw [executeCheck, check, hfree]
      exact Or.inl (.discard key hfree)
  | none =>
      have hchecked := checked_executeCheck key verdict hfree
      generalize σ.executeCheck link key checkId verdict = executed at hchecked ⊢
      cases hchecked with
      | throws => exact Or.inr ⟨rfl, rfl, rfl, rfl⟩
      | answers =>
          apply executes_answer hopen key hfree
          exact ⟨rfl, rfl, rfl⟩
      | @asks _ talker _ _ _ _ _ hstate =>
          refine Or.inl (.hold key talker hfree ?_)
          rw [hstate]
          exact ⟨rfl, rfl, rfl⟩

theorem executes_executeSimpleCheck (hopen : link ∉ σ.closed) (key : PolicyKey)
    (checkId : UInt16) (verdict : Verdict) :
  Executes link (.simpleCheck key checkId) σ (σ.executeSimpleCheck link checkId verdict)
  := by
  unfold executeSimpleCheck
  split
  · exact Or.inr ⟨rfl, rfl, rfl, rfl⟩
  · rename_i result _
    obtain ⟨retValue, result⟩ := simpleResult result verdict.plugin
    change Executes link _ σ (σ.returnResponse link (.simpleCheck retValue result checkId))
    rcases returnResponse_cases link (.simpleCheck retValue result checkId) σ
      with ⟨hclosed, -⟩ | ⟨-, h⟩ | ⟨-, e, h⟩
    · exact absurd hclosed hopen
    · rw [h]
      exact Or.inl (.simple key _ _ checkId ⟨rfl, rfl, rfl⟩)
    · rw [h]
      exact Or.inr ⟨rfl, rfl, rfl, rfl⟩

/-- A cancellation is ignored, or the context is marked and this is acknowledged. -/
theorem executeCancel_cases (hopen : link ∉ σ.closed) (checkId : UInt16) :
  (∀ context ∈ σ.getContext link checkId, context.cancelled = true)
      ∧ σ.executeCancel link checkId = .returned σ
    ∨ ∃ context agentSent, σ.getContext link checkId = some context ∧ context.cancelled = false
      ∧ σ.executeCancel link checkId = .returned
        { (σ.put context.cancel).send link (.cancel checkId) with agentSent := agentSent }
  := by
  unfold executeCancel
  split
  · rename_i hnone
    exact Or.inl ⟨by simp [hnone], rfl⟩
  · rename_i context hcontext
    split
    · rename_i hcancelled
      exact Or.inl ⟨by simp [hcontext, hcancelled], rfl⟩
    · rename_i hcancelled
      obtain ⟨agentSent, hcancel⟩ := cancelContext_eq (keeps_of_getContext hcontext)
      refine Or.inr ⟨context, agentSent, hcontext, by simpa using hcancelled, ?_⟩
      rw [hcancel]
      exact returnResponse_cancel (σ := { σ.put context.cancel with agentSent := agentSent }) hopen

/-- A cancellation throws no exception. -/
theorem serves_executeCancel (hopen : link ∉ σ.closed) (checkId : UInt16) :
  Serves link (.cancel checkId) σ (σ.executeCancel link checkId).state
  := by
  rcases executeCancel_cases hopen checkId with ⟨hignored, h⟩ |
    ⟨context, agentSent, hcontext, hactive, h⟩
  · rw [h]
    exact .ignore hignored
  · rw [h]
    exact .acknowledge hcontext hactive ⟨rfl, rfl, rfl⟩

/-- What the execution of a request may come to. -/
theorem executes_executeRequest (hopen : link ∉ σ.closed) (request : Request)
    (verdict : Verdict) :
  Executes link request σ (σ.executeRequest link verdict request)
  := by
  cases request with
  | cancel checkId => exact Or.inl (serves_executeCancel hopen checkId)
  | check key checkId => exact executes_executeCheck hopen key checkId verdict
  | simpleCheck key checkId => exact executes_executeSimpleCheck hopen key checkId verdict
  | monitorEntriesPut entries sequenceNumber =>
      exact Or.inl (.monitorEntries entries sequenceNumber)
  | monitorEntryPut entry sequenceNumber => exact Or.inl (.monitorEntry entry sequenceNumber)

/-! ### Steps -/

/-- What an event comes to. -/
theorem step_cases {event : Event} (h : σ.step event = some σ') :
  event.link ∉ σ.closed ∧
    ((∃ link request verdict, event = .request link request verdict ∧
      ∃ σ₁, Serves link request σ σ₁ ∧ (σ' = σ₁ ∨ Effects False σ₁ σ' ∧ link ∈ σ'.closed))
    ∨ Effects (¬ σ.Proper event) σ σ')
  := by
  unfold step at h
  split at h
  · cases h
  · rename_i hopen
    obtain rfl := Option.some.inj h
    refine ⟨hopen, ?_⟩
    cases event with
    | request link request verdict =>
        rcases executes_executeRequest hopen request verdict with hserves | ⟨hthrown, hquiet⟩
        · refine Or.inl ⟨link, request, verdict, rfl, _, hserves, ?_⟩
          unfold handle
          split
          · exact Or.inl rfl
          · exact Or.inr ⟨effects_closeSocket link _, mem_closed_closeSocket link _⟩
        · exact Or.inr (effects_handle (.quiet hquiet) link)
    | agentRegister link agentType sequenceNumber =>
        exact Or.inr (.quiet ⟨rfl, rfl, rfl⟩)
    | agentAction link sequenceNumber type answer =>
        exact Or.inr (effects_handle
          (effects_executeAgentAction link sequenceNumber type answer σ) link)
    | close link => exact Or.inr (effects_closeSocket link σ)

end CheckLogic

end Cynara
