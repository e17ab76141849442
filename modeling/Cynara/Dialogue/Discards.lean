import Cynara.Dialogue.Replies
import Cynara.Service.Verdicts

/-!
# Requests that are discarded

The service answers a request for a check at once, or it keeps a context for the check, unless
there is a context with the same id already.  The client uses an id again as soon as a cancellation
has been acknowledged, but the service keeps the context of the cancelled check until the agent
replies.  In between, a new request with the id is discarded, and it is never answered.
-/

namespace Cynara

open Std PredefinedPolicyType ProtocolClient ProtocolSerialization ClientAsync

/-- The storage has a result, and what is answered at once is not too long. -/
def Verdict.Deliverable (verdict : Verdict) : Prop :=
  verdict.dbCorrupted = true ∨
    ∃ stored, verdict.stored = some stored ∧
      if stored.policyType = ALLOW ∨ stored.policyType = DENY then
        stored.metadata.length ≤ maxIdLength
      else
        ∀ plugin ∈ verdict.plugin, plugin.status = .ANSWER_READY →
          plugin.result.metadata.length ≤ maxIdLength

namespace CheckLogic

/-- A request for a check is answered at once. -/
def Answers (link : LinkId) (key : PolicyKey) (checkId : UInt16) (verdict : Verdict)
    (σ : CheckLogic) : Prop :=
  ∃ result, (σ.executeCheck link key checkId verdict).state.sent =
    σ.sent ++ [(link, .check result checkId)]

/-- A new context is made for a request for a check. -/
def Creates (link : LinkId) (key : PolicyKey) (checkId : UInt16) (verdict : Verdict)
    (σ : CheckLogic) : Prop :=
  σ.getContext link checkId = none ∧
    ∃ context, (σ.executeCheck link key checkId verdict).state.getContext link checkId =
      some context

variable {σ : CheckLogic} {link : LinkId} {key : PolicyKey} {checkId : UInt16} {verdict : Verdict}

/-- A request whose id has a context is discarded. -/
theorem executeCheck_of_getContext {context : CheckContext}
    (h : σ.getContext link checkId = some context) (key : PolicyKey) (verdict : Verdict) :
  σ.executeCheck link key checkId verdict = .returned σ
  := by
  simp only [executeCheck, check, h]

/-- What is returned by a plugin at once is too long only if the plugin answered. -/
theorem length_of_pluginResult {m : AgentManager} {plugin : Option PluginCheck}
    {result : PolicyResult} (h : pluginResult m plugin = some result) :
  result.metadata.length ≤ maxIdLength ↔
    ∀ p ∈ plugin, p.status = .ANSWER_READY → p.result.metadata.length ≤ maxIdLength
  := by
  cases plugin with
  | none =>
      cases h
      simp
  | some plugin =>
      obtain ⟨status, answer, requiredAgent, pluginData⟩ := plugin
      cases status with
      | SUCCESS =>
          cases h
          simp
      | ANSWER_READY =>
          cases h
          simp
      | ERROR =>
          cases h
          simp
      | ANSWER_NOTREADY =>
          simp only [pluginResult] at h
          split at h
          · cases h
          · cases h
            simp

/-- A plugin that has no result at once has not answered. -/
theorem status_of_pluginResult {m : AgentManager} {plugin : Option PluginCheck}
    (h : pluginResult m plugin = none) :
  ∀ p ∈ plugin, p.status ≠ .ANSWER_READY
  := by
  rintro p rfl hready
  simp only [pluginResult, hready] at h
  cases h

theorem getContext_returnResponse (response : Response) :
  (σ.returnResponse link response).state.getContext link checkId = σ.getContext link checkId
  := by
  rcases returnResponse_cases link response σ with ⟨-, h⟩ | ⟨-, h⟩ | ⟨-, e, h⟩
  · rw [h]
    rfl
  · rw [h]
    rfl
  · rw [h]
    rfl

/-- A check with a direct result has no context. -/
theorem getContext_executeCheck_of_directResult {result : PolicyResult}
    (hfree : σ.getContext link checkId = none)
    (hdirect : directResult σ.agentManager verdict = some result) :
  (σ.executeCheck link key checkId verdict).state.getContext link checkId = none
  := by
  have hchecked := checked_executeCheck key verdict hfree
  generalize σ.executeCheck link key checkId verdict = executed at hchecked ⊢
  cases hchecked with
  | throws => exact hfree
  | answers =>
      rw [getContext_returnResponse]
      exact hfree
  | asks hnone => rw [hdirect] at hnone; cases hnone

/-- A check with a direct result is answered, unless the result is too long. -/
theorem answers_or_creates_of_directResult {result : PolicyResult} (hopen : link ∉ σ.closed)
    (hfree : σ.getContext link checkId = none)
    (hdirect : directResult σ.agentManager verdict = some result) :
  (σ.Answers link key checkId verdict ∨ σ.Creates link key checkId verdict) ↔
    result.metadata.length ≤ maxIdLength
  := by
  constructor
  · rintro (⟨result', hsent⟩ | ⟨-, context, hcontext⟩)
    · obtain ⟨hdirect', hshort⟩ := (sent_executeCheck hopen key hfree result').mp hsent
      obtain rfl := Option.some.inj (hdirect.symm.trans hdirect')
      exact hshort
    · rw [getContext_executeCheck_of_directResult hfree hdirect] at hcontext
      cases hcontext
  · intro hshort
    exact Or.inl ⟨result, (sent_executeCheck hopen key hfree result).mpr ⟨hdirect, hshort⟩⟩

/-- A check that waits for an agent has a context. -/
theorem creates_of_pluginResult {stored : PolicyResult} {plugin : Option PluginCheck}
    (hfree : σ.getContext link checkId = none)
    (hother : ¬ (stored.policyType = ALLOW ∨ stored.policyType = DENY))
    (hwaits : pluginResult σ.agentManager plugin = none) :
  σ.Creates link key checkId ⟨false, some stored, plugin⟩
  := by
  have hdirect : directResult σ.agentManager ⟨false, some stored, plugin⟩ = none := by
    simp [directResult, hother, hwaits]
  have hchecked := checked_executeCheck key ⟨false, some stored, plugin⟩ hfree
  refine ⟨hfree, ?_⟩
  generalize σ.executeCheck link key checkId ⟨false, some stored, plugin⟩ = executed at hchecked ⊢
  cases hchecked with
  | throws _ hstored => cases hstored
  | answers hsome => rw [hdirect] at hsome; cases hsome
  | asks _ _ hstate =>
      rw [hstate]
      refine ⟨_, CheckRequestManager.getContext_put.trans (if_pos ⟨rfl, rfl⟩)⟩

/-- A request is answered or gets a context, exactly if there is no context with its id and the
verdict can be delivered. -/
theorem answers_or_creates_iff (hopen : link ∉ σ.closed) (key : PolicyKey) (checkId : UInt16)
    (verdict : Verdict) :
  (σ.Answers link key checkId verdict ∨ σ.Creates link key checkId verdict) ↔
    σ.getContext link checkId = none ∧ verdict.Deliverable
  := by
  cases hfree : σ.getContext link checkId with
  | some context =>
      have hdiscard := executeCheck_of_getContext hfree key verdict
      simp [Answers, Creates, hdiscard, hfree]
  | none =>
      rw [and_iff_right rfl]
      obtain ⟨dbCorrupted, stored, plugin⟩ := verdict
      cases dbCorrupted with
      | true =>
          rw [answers_or_creates_of_directResult hopen hfree rfl]
          simp [Verdict.Deliverable]
      | false =>
          cases stored with
          | none => simp [Answers, Creates, Verdict.Deliverable, executeCheck, check, hfree]
          | some stored =>
              simp only [Verdict.Deliverable, Bool.false_eq_true, false_or, Option.some.injEq,
                exists_eq_left']
              split
              · rename_i hpredefined
                apply answers_or_creates_of_directResult hopen hfree
                simp only [directResult, Bool.false_eq_true, if_false, if_pos hpredefined]
              · rename_i hother
                have hdirect : directResult σ.agentManager ⟨false, some stored, plugin⟩ =
                    pluginResult σ.agentManager plugin := by
                  simp only [directResult, Bool.false_eq_true, if_false, if_neg hother]
                cases hplugin : pluginResult σ.agentManager plugin with
                | some result =>
                    rw [answers_or_creates_of_directResult hopen hfree (hdirect.trans hplugin)]
                    exact length_of_pluginResult hplugin
                | none =>
                    refine iff_of_true (Or.inr (creates_of_pluginResult hfree hother hplugin)) ?_
                    intro p hp hready
                    exact absurd hready (status_of_pluginResult hplugin p hp)

end CheckLogic

namespace Dialogue

/-- When the service takes a request for a check in a run of a dialogue, it answers the request or
makes a context for it, exactly if there is no context with its id and the verdict can be delivered.
If there is a context, it is that of a check that has been cancelled. -/
theorem answers_or_creates_of_reaches (monitoringEnabled : Bool) (d : Dialogue)
    (h : Runs.Reaches step (fun _ _ => True) (start monitoringEnabled) d) (link : LinkId)
    (hlink : d.channel.link = some link) (hopen : link ∉ d.service.closed) (key : PolicyKey)
    (checkId : UInt16)
    (hrequest : d.client.logic.socketClient.wire[d.channel.taken]? = some (.check key checkId))
    (verdict : Verdict) :
  ((d.service.Answers link key checkId verdict ∨ d.service.Creates link key checkId verdict) ↔
      d.service.getContext link checkId = none ∧ verdict.Deliverable) ∧
    ∀ context, d.service.getContext link checkId = some context → context.cancelled = true
  := by
  refine ⟨CheckLogic.answers_or_creates_iff hopen key checkId verdict, ?_⟩
  intro context hcontext
  exact (inv_of_reaches h).orderly.cancelled_of_request hlink (requests_of_wire hrequest) rfl
    hcontext

/-- The cancellation is acknowledged, and the client asks for another check with the same id. -/
def askAgain : List Input :=
  [.request needsAgent, .client (.receiveFromCynara (some true) .succeeded) 6,
    .client (.getResponse (.cancel 0) 0 none ⟨true, .succeeded⟩) 6, .client .noResponse 6,
    .client (.createRequest false ⟨[98], [], []⟩ [] ⟨true, .succeeded⟩) 6] ++ sending

/-- The first request gets a context. -/
theorem answers_or_creates_askFirst :
  ∃ d, Runs.Reaches step (fun _ _ => True) (start false) d ∧
    d.client.logic.socketClient.wire[d.channel.taken]? = some (.check ⟨[97], [], []⟩ 0) ∧
    (d.service.Answers 5 ⟨[97], [], []⟩ 0 needsAgent ∨
      d.service.Creates 5 ⟨[97], [], []⟩ 0 needsAgent)
  := by
  have hrun : (Runs.run step (fun _ _ => true) askFirst (start false)).any (fun d =>
      d.channel.link == some 5 && d.service.closed == [] &&
        d.client.logic.socketClient.wire[d.channel.taken]? == some (.check ⟨[97], [], []⟩ 0) &&
        (d.service.getContext 5 0).isNone) = true := by
    decide +kernel
  obtain ⟨d, hd, hfinal⟩ := (Option.any_eq_true _ _).mp hrun
  simp only [Bool.and_eq_true, beq_iff_eq, Option.isNone_iff_eq_none] at hfinal
  obtain ⟨⟨⟨hlink, hclosed⟩, hrequest⟩, hfree⟩ := hfinal
  have hreach := Runs.Reaches.run (fun _ _ _ => trivial) .start hd
  have hdeliverable : needsAgent.Deliverable :=
    Or.inr ⟨_, rfl, by simp [needsAgent, PredefinedPolicyType.ALLOW, PredefinedPolicyType.DENY]⟩
  refine ⟨d, hreach, hrequest, ?_⟩
  exact (answers_or_creates_of_reaches false d hreach 5 hlink (by simp [hclosed]) _ 0 hrequest
    needsAgent).1.mpr ⟨hfree, hdeliverable⟩

/-- The service keeps the context of a check that has been cancelled, and the next request with the
same id is neither answered nor does it get a context. -/
theorem not_answers_or_creates_askAgain :
  ∃ d, Runs.Reaches step (fun _ _ => True) (start false) d ∧
    d.client.logic.socketClient.wire[d.channel.taken]? = some (.check ⟨[98], [], []⟩ 0) ∧
    d.channel.inbox = [] ∧
    ¬ (d.service.Answers 5 ⟨[98], [], []⟩ 0 needsAgent ∨
      d.service.Creates 5 ⟨[98], [], []⟩ 0 needsAgent)
  := by
  have hrun : (Runs.run step (fun _ _ => true) (askFirst ++ cancelFirst ++ askAgain)
      (start false)).any (fun d =>
        d.service.closed == [] && d.channel.inbox == [] &&
          d.client.logic.socketClient.wire[d.channel.taken]? == some (.check ⟨[98], [], []⟩ 0) &&
          (d.service.getContext 5 0).isSome) = true := by
    decide +kernel
  obtain ⟨d, hd, hfinal⟩ := (Option.any_eq_true _ _).mp hrun
  simp only [Bool.and_eq_true, beq_iff_eq, Option.isSome_iff_exists] at hfinal
  obtain ⟨⟨⟨hclosed, hinbox⟩, hrequest⟩, context, hcontext⟩ := hfinal
  refine ⟨d, Runs.Reaches.run (fun _ _ _ => trivial) .start hd, hrequest, hinbox, ?_⟩
  rw [CheckLogic.answers_or_creates_iff (by simp [hclosed]), hcontext]
  simp

end Dialogue

end Cynara
