import Cynara.Service.Registers
import Cynara.Storage.Database

/-!
# Checks and simple checks

A check and a simple check of one key should come to the same result, if the check is answered at
once.  There are two exceptions.  If the database was found corrupted, a check is denied without a
look at the storage, but a simple check asks the storage, which has no buckets, and its connection
is closed.  If a plugin needs an agent and no talker can be made, a check is denied, but a simple
check is not resolved.
-/

namespace Cynara

open Std PredefinedPolicyType ProtocolClient ProtocolSerialization InMemoryStorageBackend

/-! ### The database -/

/-- The buckets in memory, and whether the database was found corrupted: then there are none. -/
structure Database where
  buckets : Buckets
  dbCorrupted : Bool
  empty_of_corrupted : dbCorrupted = true → buckets = ⟨∅, Buckets.keyed_empty⟩

namespace Database

/-- `Logic::loadDb` with the files of the database; another exception is not caught. -/
def loadDb (digest : Str → Vector UInt8 16) (read : Str → Option Str) (order : IterationOrder Str)
    (isBackupValid : Bool) : Option Database :=
  let loaded := readBuckets digest read order isBackupValid
  match loaded.thrown with
  | none => some ⟨loaded.state, false, nofun⟩
  | some .database => some ⟨⟨∅, Buckets.keyed_empty⟩, true, fun _ => rfl⟩
  | some (.invalidBucketId _) => none

/-- The plugins of the service, by the types they are registered for. -/
abbrev Plugins := PolicyType → Option (PolicyKey → PluginCheck)

/-- What a check of a key depends on; there is no result as long as the storage is searched. -/
def verdict (fuel : ℕ) (order : IterationOrder Str) (plugins : Plugins) (key : PolicyKey)
    (d : Database) : Option Verdict :=
  match Storage.checkPolicy fuel order d.buckets key defaultPolicyBucketId true with
  | none => none
  | some (.error _) => some ⟨d.dbCorrupted, none, none⟩
  | some (.ok result) =>
      some ⟨d.dbCorrupted, some result, (plugins result.policyType).map fun plugin => plugin key⟩

/-- The storage of a corrupted database throws. -/
theorem stored_of_corrupted {fuel : ℕ} {order : IterationOrder Str} {plugins : Plugins}
    {key : PolicyKey} {d : Database} {v : Verdict} (h : d.verdict fuel order plugins key = some v)
    (hcorrupted : d.dbCorrupted = true) :
  v = ⟨true, none, none⟩
  := by
  rw [verdict, d.empty_of_corrupted hcorrupted, hcorrupted] at h
  have hsearch : searchBucket ⟨∅, by simp⟩ defaultPolicyBucketId key =
      .error (.bucketNotExists defaultPolicyBucketId) := by
    simp [searchBucket, Buckets.find?]
  simp only [Storage.checkPolicy, hsearch, Option.some.injEq] at h
  exact h.symm

theorem dbCorrupted_verdict {fuel : ℕ} {order : IterationOrder Str} {plugins : Plugins}
    {key : PolicyKey} {d : Database} {v : Verdict} (h : d.verdict fuel order plugins key = some v) :
  v.dbCorrupted = d.dbCorrupted
  := by
  unfold verdict at h
  split at h
  · cases h
  · cases h
    rfl
  · cases h
    rfl

end Database

/-! ### Answers at once -/

/-- A talker can be made: the agent is registered, and the next number is not in use. -/
def AgentManager.Ready (m : AgentManager) (agentType : AgentType) : Prop :=
  ∃ link, m.agents[agentType]? = some link ∧ m.talkers.find link m.sequenceNumber = none

theorem AgentManager.ready_iff (m : AgentManager) (agentType : AgentType) :
  m.Ready agentType ↔ (m.createTalker agentType).1.isSome
  := by
  unfold Ready createTalker
  simp only [generateSequenceNumber]
  cases m.agents[agentType]? with
  | none => simp
  | some link =>
      simp only [Option.some.injEq, exists_eq_left']
      cases m.talkers.find link m.sequenceNumber with
      | none => simp [insertTalker]
      | some talker => simp

namespace CheckLogic

variable {σ : CheckLogic} {link : LinkId} {checkId : UInt16} {verdict : Verdict}

/-- The response is sent if its metadata are not too long. -/
theorem sent_returnResponse (hopen : link ∉ σ.closed) (response response' : Response) :
  (σ.returnResponse link response).state.sent = σ.sent ++ [(link, response')] ↔
    response = response' ∧ ∀ field ∈ responseFields response, field.Short
  := by
  have hserialize : serialize response = Field.serializeAll (responseFields response) :=
    responseCodec.serialize_eq response
  rw [returnResponse, if_neg hopen, hserialize]
  by_cases hshort : ∀ field ∈ responseFields response, field.Short
  · obtain ⟨bytes, hbytes, -⟩ := Field.serializeAll_of_short hshort
    rw [hbytes, and_iff_left hshort]
    simp
  · rw [Field.serializeAll_of_not_short hshort, iff_false_right (fun h => hshort h.2)]
    simp

theorem sent_check (hopen : link ∉ σ.closed) (result result' : PolicyResult) :
  (σ.returnResponse link (.check result checkId)).state.sent =
      σ.sent ++ [(link, .check result' checkId)] ↔
    result = result' ∧ result.metadata.length ≤ maxIdLength
  := by
  rw [sent_returnResponse hopen]
  simp [responseFields, Field.Short]

theorem sent_simpleCheck (hopen : link ∉ σ.closed) (retValue retValue' : Int32)
    (result result' : PolicyResult) :
  (σ.returnResponse link (.simpleCheck retValue result checkId)).state.sent =
      σ.sent ++ [(link, .simpleCheck retValue' result' checkId)] ↔
    (retValue = retValue' ∧ result = result') ∧ result.metadata.length ≤ maxIdLength
  := by
  rw [sent_returnResponse hopen]
  simp [responseFields, Field.Short]

/-- A check is answered at once with its direct result, unless this is too long. -/
theorem sent_executeCheck (hopen : link ∉ σ.closed) (key : PolicyKey)
    (hfree : σ.getContext link checkId = none) (result : PolicyResult) :
  (σ.executeCheck link key checkId verdict).state.sent =
      σ.sent ++ [(link, .check result checkId)] ↔
    directResult σ.agentManager verdict = some result ∧ result.metadata.length ≤ maxIdLength
  := by
  have hchecked := checked_executeCheck key verdict hfree
  generalize σ.executeCheck link key checkId verdict = executed at hchecked ⊢
  cases hchecked with
  | throws hintact hstored => simp [directResult, hintact, hstored]
  | @answers direct m hdirect _ =>
      rw [hdirect, Option.some.injEq]
      apply (sent_check (σ := { σ with agentManager := m }) hopen direct result).trans
      apply and_congr_right
      rintro rfl
      rfl
  | asks hdirect _ hstate =>
      rw [hstate, hdirect]
      simp [put]

/-- A simple check is answered with success and a result. -/
theorem sent_executeSimpleCheck (hopen : link ∉ σ.closed) (result : PolicyResult) :
  (σ.executeSimpleCheck link checkId verdict).state.sent =
      σ.sent ++ [(link, .simpleCheck CYNARA_API_SUCCESS result checkId)] ↔
    (∃ stored, verdict.stored = some stored ∧
      simpleResult stored verdict.plugin = (CYNARA_API_SUCCESS, result)) ∧
    result.metadata.length ≤ maxIdLength
  := by
  unfold executeSimpleCheck
  cases verdict.stored with
  | none => simp
  | some stored =>
      simp only [Option.some.injEq, exists_eq_left']
      generalize simpleResult stored verdict.plugin = simple
      obtain ⟨retValue, simple⟩ := simple
      rw [sent_simpleCheck hopen, Prod.mk.injEq]
      constructor
      · rintro ⟨⟨rfl, rfl⟩, hshort⟩
        exact ⟨⟨rfl, rfl⟩, hshort⟩
      · rintro ⟨⟨rfl, rfl⟩, hshort⟩
        exact ⟨⟨rfl, rfl⟩, hshort⟩

/-! ### Agreement -/

/-- The database was not found corrupted, and if a plugin needs an agent, a talker can be made. -/
def Agreeable (σ : CheckLogic) (verdict : Verdict) : Prop :=
  verdict.dbCorrupted = false ∧
    ∀ result ∈ verdict.stored, result.policyType ≠ ALLOW → result.policyType ≠ DENY →
      ∀ plugin ∈ verdict.plugin, plugin.status = .ANSWER_NOTREADY →
        σ.agentManager.Ready plugin.requiredAgent

/-- Both kinds of checks use the result of a plugin in the same way, unless an agent is needed. -/
theorem simpleResult_of_pluginResult {m : AgentManager} {plugin : Option PluginCheck}
    {stored result : PolicyResult}
    (hother : ¬ (stored.policyType = ALLOW ∨ stored.policyType = DENY))
    (hready : ∀ p ∈ plugin, p.status = .ANSWER_NOTREADY → m.Ready p.requiredAgent)
    (h : pluginResult m plugin = some result) :
  simpleResult stored plugin = (CYNARA_API_SUCCESS, result)
  := by
  unfold simpleResult
  rw [if_neg hother]
  cases plugin with
  | none =>
      cases h
      rfl
  | some plugin =>
      obtain ⟨status, pluginAnswer, requiredAgent, pluginData⟩ := plugin
      cases status with
      | SUCCESS =>
          cases h
          rfl
      | ANSWER_READY =>
          cases h
          rfl
      | ERROR =>
          cases h
          rfl
      | ANSWER_NOTREADY =>
          have hagent := (AgentManager.ready_iff m requiredAgent).mp (hready _ rfl rfl)
          simp [pluginResult, hagent] at h

/-- If no talker can be made for the agent, the results differ. -/
theorem simpleResult_ne_of_not_ready {m : AgentManager} {plugin : PluginCheck}
    {stored : PolicyResult} (hother : ¬ (stored.policyType = ALLOW ∨ stored.policyType = DENY))
    (hstatus : plugin.status = .ANSWER_NOTREADY) (hready : ¬ m.Ready plugin.requiredAgent) :
  pluginResult m (some plugin) = some { policyType := DENY } ∧
    ∀ result, simpleResult stored (some plugin) ≠ (CYNARA_API_SUCCESS, result)
  := by
  obtain ⟨status, pluginAnswer, requiredAgent, pluginData⟩ := plugin
  obtain rfl : status = .ANSWER_NOTREADY := hstatus
  rw [AgentManager.ready_iff] at hready
  constructor
  · simp [pluginResult, hready]
  · intro result hsimple
    rw [simpleResult, if_neg hother, Prod.mk.injEq] at hsimple
    exact absurd hsimple.1 (by decide)

/-- The direct result of a check is that of a simple check. -/
theorem simpleResult_of_directResult {result : PolicyResult} (h : σ.Agreeable verdict)
    (hdirect : directResult σ.agentManager verdict = some result) :
  ∃ stored, verdict.stored = some stored ∧
    simpleResult stored verdict.plugin = (CYNARA_API_SUCCESS, result)
  := by
  obtain ⟨dbCorrupted, stored, plugin⟩ := verdict
  obtain ⟨hcorrupted, hready⟩ := h
  obtain rfl : dbCorrupted = false := hcorrupted
  cases stored with
  | none => cases hdirect
  | some stored =>
      refine ⟨stored, rfl, ?_⟩
      by_cases hpredefined : stored.policyType = ALLOW ∨ stored.policyType = DENY
      · simp only [directResult, Bool.false_eq_true, if_false, if_pos hpredefined] at hdirect
        cases hdirect
        unfold simpleResult
        rw [if_pos hpredefined]
      · simp only [directResult, Bool.false_eq_true, if_false, if_neg hpredefined] at hdirect
        obtain ⟨hallow, hdeny⟩ := not_or.mp hpredefined
        exact simpleResult_of_pluginResult hpredefined (hready stored rfl hallow hdeny) hdirect

/-- A check that is answered at once and the simple check of the same key have the same result,
exactly if the database was not found corrupted and a talker can be made for an agent that is
needed. -/
theorem simpleCheck_agrees_iff {d : Database} {fuel : ℕ} {order : IterationOrder Str}
    {plugins : Database.Plugins} {key : PolicyKey}
    (hverdict : d.verdict fuel order plugins key = some verdict) (hopen : link ∉ σ.closed)
    (hfree : σ.getContext link checkId = none) (simpleId : UInt16) :
  (∀ result, (σ.executeCheck link key checkId verdict).state.sent =
        σ.sent ++ [(link, .check result checkId)] →
      (σ.executeSimpleCheck link simpleId verdict).state.sent =
        σ.sent ++ [(link, .simpleCheck CYNARA_API_SUCCESS result simpleId)])
    ↔ σ.Agreeable verdict
  := by
  simp only [sent_executeCheck hopen key hfree, sent_executeSimpleCheck hopen]
  constructor
  · intro hagrees
    constructor
    · by_contra hcorrupted
      rw [Bool.not_eq_false, Database.dbCorrupted_verdict hverdict] at hcorrupted
      obtain rfl := Database.stored_of_corrupted hverdict hcorrupted
      obtain ⟨⟨stored, hstored, -⟩, -⟩ := hagrees { policyType := DENY } ⟨rfl, by decide⟩
      cases hstored
    · intro stored hstored hallow hdeny plugin hplugin hstatus
      by_contra hready
      have hother : ¬ (stored.policyType = ALLOW ∨ stored.policyType = DENY) :=
        not_or.mpr ⟨hallow, hdeny⟩
      obtain ⟨hdirect, hsimple⟩ := simpleResult_ne_of_not_ready hother hstatus hready
      obtain ⟨dbCorrupted, _, _⟩ := verdict
      cases hstored
      cases hplugin
      have hdeny' : directResult σ.agentManager ⟨dbCorrupted, some stored, some plugin⟩ =
          some { policyType := DENY } := by
        cases dbCorrupted with
        | true => rfl
        | false =>
            simpa only [directResult, Bool.false_eq_true, if_false, if_neg hother] using hdirect
      obtain ⟨⟨stored', hstored', hresult⟩, -⟩ := hagrees _ ⟨hdeny', by decide⟩
      cases hstored'
      exact hsimple _ hresult
  · rintro hagreeable result ⟨hdirect, hshort⟩
    exact ⟨simpleResult_of_directResult hagreeable hdirect, hshort⟩

/-- A database whose files are missing. -/
def corrupted : Database := ⟨⟨∅, Buckets.keyed_empty⟩, true, fun _ => rfl⟩

/-- A database that asks a plugin for every key. -/
def asking : Database :=
  ⟨Buckets.put ⟨∅, Buckets.keyed_empty⟩
      (PolicyBucket.empty defaultPolicyBucketId { policyType := 7 }
        idValidator_defaultPolicyBucketId),
    false, nofun⟩

/-- A plugin that answers, or needs an agent. -/
def pluginOf (status : PluginStatus) : Database.Plugins := fun _ =>
  some fun _ => ⟨status, { policyType := ALLOW }, Str.ofString "agent", []⟩

/-- The plugin answers. -/
theorem simpleCheck_agrees_ready :
  ∃ verdict, asking.verdict 1 .sorted (pluginOf .ANSWER_READY) ⟨[], [], []⟩ = some verdict ∧
    ∀ result, (executeCheck 0 ⟨[], [], []⟩ 7 verdict {}).state.sent = [(0, .check result 7)] →
      (executeSimpleCheck 0 7 verdict {}).state.sent =
        [(0, .simpleCheck CYNARA_API_SUCCESS result 7)]
  := by
  let verdict : Verdict := ⟨false, some { policyType := 7 },
    some ⟨.ANSWER_READY, { policyType := ALLOW }, Str.ofString "agent", []⟩⟩
  have hverdict : asking.verdict 1 .sorted (pluginOf .ANSWER_READY) ⟨[], [], []⟩
      = some verdict := by
    rfl
  refine ⟨verdict, hverdict, ?_⟩
  apply (simpleCheck_agrees_iff (σ := {}) hverdict (by simp) (by rfl) 7).mpr
  refine ⟨rfl, ?_⟩
  intro result _ _ _ plugin hplugin hstatus
  cases hplugin
  cases hstatus

/-- A check is denied while the database is corrupted, and the simple check gets no response.  A
check is denied if the agent that a plugin needs is not registered, and the simple check is not
resolved. -/
theorem not_simpleCheck_agrees :
  Database.loadDb (fun _ => Vector.replicate 16 0) (fun _ => none) .sorted false = some corrupted ∧
  (∃ verdict, corrupted.verdict 1 .sorted (pluginOf .ANSWER_READY) ⟨[], [], []⟩ = some verdict ∧
    (executeCheck 0 ⟨[], [], []⟩ 7 verdict {}).state.sent =
      [(0, .check { policyType := DENY } 7)] ∧
    (executeSimpleCheck 0 7 verdict {}).state.sent = []) ∧
  ∃ verdict, asking.verdict 1 .sorted (pluginOf .ANSWER_NOTREADY) ⟨[], [], []⟩ = some verdict ∧
    (executeCheck 0 ⟨[], [], []⟩ 7 verdict {}).state.sent =
      [(0, .check { policyType := DENY } 7)] ∧
    (executeSimpleCheck 0 7 verdict {}).state.sent =
      [(0, .simpleCheck CYNARA_API_ACCESS_NOT_RESOLVED { policyType := ALLOW } 7)]
  := by
  exact ⟨rfl, ⟨⟨true, none, none⟩, rfl, rfl, rfl⟩,
    ⟨false, some { policyType := 7 }, some ⟨.ANSWER_NOTREADY, { policyType := ALLOW },
      Str.ofString "agent", []⟩⟩, rfl, rfl, rfl⟩

end CheckLogic

end Cynara
