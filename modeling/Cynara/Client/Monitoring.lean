import Cynara.Client.AsyncEffects
import Cynara.Client.SyncLogic

/-!
# What the clients record for the monitor

A check that is answered is recorded with its key, its result and the time, and every result other
than `CYNARA_API_ACCESS_ALLOWED` is recorded as `CYNARA_API_ACCESS_DENIED`.

The asynchronous client records the result that it hands to its caller.  So does the synchronous
client if the result comes from the cache.  If it has asked the service, it records the code that
says that the request has succeeded, before the answer is translated: such a check is always
recorded as denied.
-/

namespace Cynara

open ProtocolClient
open ClientAsync (ValidKey ValidEntry MonitorCache Clock)

/-! ### Entries -/

/-- The entry for a check. -/
def entryFor (key : ValidKey) (result : Int32) (time : Int64 × Int64) : ValidEntry :=
  ⟨⟨key.val, result, time.1, time.2⟩, key.valid⟩

/-- The entries are those of the cache, or the cache is empty and they have been handed to the
socket with the last request. -/
def KeptOrSent (entries : List ValidEntry) (cache : MonitorCache) (requests : List Request) :
    Prop :=
  cache.entries = entries
    ∨ cache.entries = [] ∧ ∃ sequenceNumber,
        requests.getLast? = some (.monitorEntriesPut (entries.map Subtype.val) sequenceNumber)

/-- An entry is recorded after those that were in the cache before. -/
def Records (before after : MonitorCache) (requests : List Request) (entry : ValidEntry) : Prop :=
  KeptOrSent (before.entries ++ [entry]) after requests

variable {before after : MonitorCache} {requests : List Request} {entry entry' : ValidEntry}

theorem keptOrSent_sent (cache : MonitorCache) (requests : List Request) (sequenceNumber : UInt16) :
  KeptOrSent cache.entries cache.clear
    (requests ++ [.monitorEntriesPut (cache.entries.map Subtype.val) sequenceNumber])
  := Or.inr ⟨rfl, sequenceNumber, List.getLast?_concat⟩

/-- Entries that have been kept may be sent later. -/
theorem KeptOrSent.trans {entries : List ValidEntry} {requests' : List Request}
    (h : KeptOrSent entries before requests) (hne : before.entries ≠ [])
    (h' : KeptOrSent before.entries after requests') :
  KeptOrSent entries after requests'
  := by
  rw [← h.resolve_right fun hsent => hne hsent.1]
  exact h'

/-- There is only one entry that is recorded. -/
theorem Records.unique (h : Records before after requests entry)
    (h' : Records before after requests entry') :
  entry = entry'
  := by
  rcases h with h | ⟨h, n, hlast⟩
  · rcases h' with h' | ⟨h', -⟩
    · rw [h] at h'
      simpa using h'
    · simp [h] at h'
  · rcases h' with h' | ⟨-, n', hlast'⟩
    · simp [h] at h'
    · rw [hlast] at hlast'
      simp only [Option.some.injEq, Request.monitorEntriesPut.injEq] at hlast'
      have hentries := List.map_injective_iff.mpr Subtype.val_injective hlast'.1
      simpa using hentries

/-- Every result other than `CYNARA_API_ACCESS_ALLOWED` is recorded as
`CYNARA_API_ACCESS_DENIED`. -/
def recordedResult (result : Int32) : Int32 :=
  if result ≠ CYNARA_API_ACCESS_ALLOWED then CYNARA_API_ACCESS_DENIED else result

theorem recordedResult_eq {result : Int32}
    (h : result = CYNARA_API_ACCESS_ALLOWED ∨ result = CYNARA_API_ACCESS_DENIED) :
  recordedResult result = result
  := by
  rcases h with rfl | rfl
  · rfl
  · rfl

theorem ne_of_answer {code result : Int32}
    (h : result = CYNARA_API_ACCESS_ALLOWED ∨ result = CYNARA_API_ACCESS_DENIED)
    (hallowed : code ≠ CYNARA_API_ACCESS_ALLOWED) (hdenied : code ≠ CYNARA_API_ACCESS_DENIED) :
  result ≠ code
  := by
  rintro rfl
  exact h.elim hallowed hdenied

theorem entries_update (key : ValidKey) (result : Int32) (time : Int64 × Int64)
    (cache : MonitorCache) :
  (cache.update key result (some time)).entries =
    cache.entries ++ [entryFor key (recordedResult result) time]
  := rfl

/-! ### The asynchronous client -/

namespace ClientAsync.Logic

variable {σ : Logic} {key : ValidKey} {result : Int32} {time : Int64 × Int64}

/-- The entries are kept or sent when the monitor is flushed. -/
theorem keptOrSent_flushMonitor (net : Net) (σ : Logic) :
  KeptOrSent σ.monitorCache.entries (σ.flushMonitor net).state.monitorCache
    (σ.flushMonitor net).state.socketClient.writeQueue
  := by
  unfold flushMonitor
  split
  · exact Or.inl rfl
  split
  · exact Or.inl rfl
  have hensure := (apart_ensureConnection net σ).monitorCache
  generalize σ.ensureConnection net = connected at hensure
  obtain ⟨connected, σ₁⟩ := connected
  rw [← hensure]
  rcases connected with _ | _ | _
  · exact Or.inl rfl
  · exact Or.inl rfl
  · exact keptOrSent_sent σ₁.monitorCache _ _

/-- The entry is recorded. -/
theorem records_updateMonitor (henabled : σ.monitoringEnabled = true) (key : ValidKey)
    (result : Int32) (time : Int64 × Int64) (net : Net) :
  Records σ.monitorCache (σ.updateMonitor key result (some time) net).state.monitorCache
    (σ.updateMonitor key result (some time) net).state.socketClient.writeQueue
    (entryFor key (recordedResult result) time)
  := by
  rw [Records, ← entries_update, updateMonitor, if_neg (not_not_intro henabled)]
  dsimp only
  split
  · exact keptOrSent_flushMonitor net _
  · exact Or.inl rfl

/-- What `checkCache` returns is recorded, if it is an answer. -/
theorem records_checkCache {cached ret : Int32} {alive : Bool} {net net' : Net} {σ' : Logic}
    (henabled : σ.monitoringEnabled = true)
    (h : σ.checkCache key cached (some time) alive net net' = (some ret, σ'))
    (hret : ret = CYNARA_API_ACCESS_ALLOWED ∨ ret = CYNARA_API_ACCESS_DENIED) :
  Records σ.monitorCache σ'.monitorCache σ'.socketClient.writeQueue (entryFor key ret time)
  := by
  unfold checkCache at h
  split at h
  · exact absurd (Option.some.inj (congrArg Prod.fst h)).symm
      (ne_of_answer hret (by decide) (by decide))
  split at h
  · exact absurd (Option.some.inj (congrArg Prod.fst h)).symm
      (ne_of_answer hret (by decide) (by decide))
  obtain ⟨hret', rfl⟩ := Prod.mk.inj h
  obtain rfl : cached = ret := Option.some.inj (Option.ite_none_left_eq_some.mp hret').2
  rw [if_pos (ne_of_answer hret (by decide) (by decide))]
  have hupdated := records_updateMonitor henabled key cached time net
  rw [recordedResult_eq hret] at hupdated
  apply Outcome.andThen_state (P := fun σ' : Logic =>
    Records σ.monitorCache σ'.monitorCache σ'.socketClient.writeQueue (entryFor key cached time))
  · exact hupdated
  · intro σ' hσ'
    split
    · rename_i hflush
      simp only [MonitorCache.shouldFlush, Bool.and_eq_true, Bool.not_eq_true',
        List.isEmpty_eq_false_iff] at hflush
      exact hσ'.trans hflush.1 (keptOrSent_flushMonitor net' σ')
    · exact hσ'

/-- The answer that the callback of a check is given is recorded. -/
theorem records_processCheckResponse {id : UInt16} {cached : Int32} {net : Net} {σ' : Logic}
    {onAnswerCancel : Bool} {number : ℕ} (henabled : σ.monitoringEnabled = true)
    (h : σ.processCheckResponse id cached (some time) net = (.callback onAnswerCancel, σ'))
    (hcall : σ'.calls.getLast? = some ⟨id, .CYNARA_CALL_CAUSE_ANSWER, result, number⟩)
    (hresult : result = CYNARA_API_ACCESS_ALLOWED ∨ result = CYNARA_API_ACCESS_DENIED) :
  ∃ check, σ.checks[id]? = some check ∧
    Records σ.monitorCache σ'.monitorCache σ'.socketClient.writeQueue
      (entryFor check.key result time)
  := by
  unfold processCheckResponse at h
  split at h
  · cases h
  rename_i check hcheck
  refine ⟨check, hcheck, ?_⟩
  have hupdated := records_updateMonitor (σ := σ.releaseRequest id) henabled check.key cached time
    net
  dsimp only at h
  split at h
  · cases h
  · unfold answerCheck at h
    split at h
    · cases h
    · cases h
      have hlast : (⟨id, .CYNARA_CALL_CAUSE_ANSWER, cached, check.number⟩ : Call) =
          ⟨id, .CYNARA_CALL_CAUSE_ANSWER, result, number⟩ := by
        rw [call, List.getLast?_concat] at hcall
        exact Option.some.inj hcall
      obtain rfl : cached = result := (Call.mk.inj hlast).2.2.1
      rw [recordedResult_eq hresult] at hupdated
      exact hupdated

end ClientAsync.Logic

/-! ### The synchronous client -/

namespace ClientSync.Logic

variable {plugins : PolicyType → Option ClientPlugin} {σ σ' : Logic} {key : ValidKey}
  {session : ClientSession} {env : Surroundings} {result ret : Int32} {time : Int64 × Int64}

/-- Nothing changes that concerns the monitor. -/
def Unmonitored (σ σ' : Logic) : Prop :=
  σ'.monitorCache = σ.monitorCache ∧ σ'.monitoringEnabled = σ.monitoringEnabled

theorem unmonitored_ensureConnection (net : Net) (σ : Logic) :
  Unmonitored σ (σ.ensureConnection net).2
  := by
  unfold ensureConnection
  split
  · exact ⟨rfl, rfl⟩
  · exact ⟨rfl, rfl⟩

/-- The response of the service, if there is one. -/
def answer : List Turn → Option Response
  | [] => none
  | turn :: turns =>
      match turn.response with
      | none => none
      | some (some response) => some response
      | some none => if turn.connect = some true then answer turns else none

/-- The loop does not concern the monitor, and returns the response of the service. -/
theorem unmonitored_askLoop {request : Request} {turns : List Turn}
    {response : Option (Option Response)} (h : askLoop request turns σ = some (response, σ')) :
  Unmonitored σ σ' ∧ ∀ r, response = some (some r) → answer turns = some r
  := by
  induction turns generalizing σ with
  | nil => cases h
  | cons turn turns ih =>
      obtain ⟨asked, connected⟩ := turn
      rcases asked with _ | _ | r
      · cases h
        exact ⟨⟨rfl, rfl⟩, nofun⟩
      · rcases connected with _ | _ | _
        · cases h
          exact ⟨⟨rfl, rfl⟩, nofun⟩
        · cases h
          exact ⟨⟨rfl, rfl⟩, nofun⟩
        · exact ih (σ := onDisconnected { σ with requests := σ.requests ++ [request] }) h
      · cases h
        exact ⟨⟨rfl, rfl⟩, fun r' hr' => by cases hr'; rfl⟩

/-- A result comes with the code for success, and is that of the response of the service. -/
theorem unmonitored_requestResult {turns : List Turn}
    {returned : Option (Int32 × PolicyResult)}
    (h : σ.requestResult key turns = some (returned, σ')) :
  Unmonitored σ σ' ∧ ∀ code result, returned = some (code, result) →
    code = CYNARA_API_SERVICE_NOT_AVAILABLE
      ∨ code = CYNARA_API_SUCCESS ∧ ∃ n, answer turns = some (.check result n)
  := by
  obtain ⟨⟨response, σ₁⟩, hask, heq⟩ := Option.map_eq_some_iff.mp h
  obtain ⟨hsame, hanswer⟩ := unmonitored_askLoop hask
  cases heq
  refine ⟨hsame, ?_⟩
  intro code result hcode
  rcases response with _ | _ | response
  · cases hcode
  · cases hcode
    exact Or.inl rfl
  · cases response with
    | check policyResult n =>
        cases hcode
        exact Or.inr ⟨rfl, n, hanswer _ rfl⟩
    | cancel n =>
        cases hcode
        exact Or.inl rfl
    | simpleCheck retValue policyResult n =>
        cases hcode
        exact Or.inl rfl

/-- A flush sends all entries or keeps them. -/
theorem keptOrSent_flushMonitor (flush : Flush) (σ : Logic) :
  KeptOrSent σ.monitorCache.entries (σ.flushMonitor flush).state.monitorCache
    (σ.flushMonitor flush).state.requests
  := by
  unfold flushMonitor
  split
  · exact Or.inl rfl
  split
  · exact Or.inl rfl
  have hensure := (unmonitored_ensureConnection flush.net σ).1
  generalize σ.ensureConnection flush.net = connected at hensure
  obtain ⟨connected, σ₁⟩ := connected
  rw [← hensure]
  rcases connected with _ | _ | _
  · exact Or.inl rfl
  · exact Or.inl rfl
  · rcases flush.sent with _ | _ | _
    · exact Or.inl rfl
    · exact Or.inl rfl
    · exact keptOrSent_sent σ₁.monitorCache _ _

/-- A result that is noted is kept or sent. -/
theorem records_updateMonitor (henabled : σ.monitoringEnabled = true) (key : ValidKey)
    (result : Int32) (time : Int64 × Int64) (flush : Flush) :
  Records σ.monitorCache (σ.updateMonitor key result (some time) flush).state.monitorCache
    (σ.updateMonitor key result (some time) flush).state.requests
    (entryFor key (recordedResult result) time)
  := by
  rw [Records, ← entries_update, updateMonitor, if_neg (not_not_intro henabled)]
  dsimp only
  split
  · exact keptOrSent_flushMonitor flush _
  · exact Or.inl rfl

theorem update_translate {result : PolicyResult} {returned : Option Int32}
    (h : σ.update plugins session key result = some (returned, σ')) :
  returned = some (Int32.ofInt (CapacityCache.translate plugins session result)) ∧
    σ'.monitorCache = σ.monitorCache ∧ σ'.requests = σ.requests
  := by
  obtain ⟨⟨answer, cache⟩, hupdate, heq⟩ := Option.bind_eq_some_iff.mp h
  cases heq
  rw [CapacityCache.update_answer hupdate]
  exact ⟨rfl, rfl, rfl⟩

/-- The check is answered from the cache: the client is connected, and the cache has an answer. -/
def Hit (plugins : PolicyType → Option ClientPlugin) (key : ValidKey) (session : ClientSession)
    (env : Surroundings) (σ : Logic) : Prop :=
  env.net.isConnected = true ∧ ∃ answer cache,
    σ.cache.get plugins session key.val = some (answer, cache) ∧
      Int32.ofInt answer ≠ CYNARA_API_CACHE_MISS

/-- After a new connection the cache is empty. -/
theorem get_clear (cache : CapacityCache) :
  cache.clear.get plugins session key.val = some (CYNARA_API_CACHE_MISS, cache.clear)
  := by
  simp [CapacityCache.get, CapacityCache.clear]

theorem hit_iff {σ₁ : Logic} {found : Int} {cache : CapacityCache}
    (hconnected : σ.ensureConnection env.net = (some true, σ₁))
    (hget : σ₁.cache.get plugins session key.val = some (found, cache)) :
  Hit plugins key session env σ ↔ Int32.ofInt found ≠ CYNARA_API_CACHE_MISS
  := by
  unfold ensureConnection at hconnected
  split at hconnected
  · rename_i hopen
    cases hconnected
    simp [Hit, hopen, hget]
  · rename_i hclosed
    obtain ⟨-, rfl⟩ := Prod.mk.inj hconnected
    have hmissed : found = CYNARA_API_CACHE_MISS :=
      congrArg Prod.fst (Option.some.inj (hget.symm.trans (get_clear σ.cache)))
    apply iff_of_false
    · exact fun hhit => hclosed hhit.1
    · rw [hmissed]
      decide

/-- What is recorded for a check: its result if it is answered from the cache, and the code for
success if the service has answered. -/
theorem records_check (henabled : σ.monitoringEnabled = true) (hclock : env.clock = some time)
    (h : σ.check plugins key session env = some (some ret, σ'))
    (hret : ret = CYNARA_API_ACCESS_ALLOWED ∨ ret = CYNARA_API_ACCESS_DENIED) :
  Hit plugins key session env σ ∧
      Records σ.monitorCache σ'.monitorCache σ'.requests (entryFor key ret time)
    ∨ ¬ Hit plugins key session env σ ∧
      Records σ.monitorCache σ'.monitorCache σ'.requests
        (entryFor key CYNARA_API_ACCESS_DENIED time) ∧
      ∃ result n, answer env.turns = some (.check result n) ∧
        ret = Int32.ofInt (CapacityCache.translate plugins session result)
  := by
  unfold check at h
  generalize hconnected : σ.ensureConnection env.net = connected at h
  obtain ⟨connected, σ₁⟩ := connected
  have hsame : Unmonitored σ σ₁ := by
    simpa [hconnected] using unmonitored_ensureConnection env.net σ
  rcases connected with _ | _ | _
  · cases h
  · exact absurd (Option.some.inj (congrArg Prod.fst (Option.some.inj h))).symm
      (ne_of_answer hret (by decide) (by decide))
  obtain ⟨⟨found, cache⟩, hget, h⟩ := Option.bind_eq_some_iff.mp h
  have hhit : Hit plugins key session env σ ↔ Int32.ofInt found ≠ CYNARA_API_CACHE_MISS :=
    hit_iff hconnected hget
  dsimp only at h
  split at h
  · rename_i hfound
    left
    obtain ⟨hret', rfl⟩ := Prod.mk.inj (Option.some.inj h)
    obtain rfl : Int32.ofInt found = ret :=
      Option.some.inj (Option.ite_none_left_eq_some.mp hret').2
    refine ⟨hhit.mpr hfound, ?_⟩
    have hrecords := records_updateMonitor (σ := { σ₁ with cache := cache })
      (hsame.2.trans henabled) key (Int32.ofInt found) time env.flush
    rw [recordedResult_eq hret, ← hclock] at hrecords
    rw [← hsame.1]
    exact hrecords
  · rename_i hmissed
    right
    refine ⟨mt hhit.mp hmissed, ?_⟩
    obtain ⟨⟨returned, σ₂⟩, hrequest, h⟩ := Option.bind_eq_some_iff.mp h
    obtain ⟨hsame', hreturned⟩ := unmonitored_requestResult hrequest
    rcases returned with _ | ⟨code, result⟩
    · cases h
    dsimp only at h
    rcases hreturned code result rfl with rfl | ⟨rfl, n, hanswer⟩
    · rw [if_pos (by decide)] at h
      exact absurd (Option.some.inj (congrArg Prod.fst (Option.some.inj h))).symm
        (ne_of_answer hret (by decide) (by decide))
    · rw [if_neg (not_not_intro rfl)] at h
      split at h
      · cases h
      obtain ⟨hret', hcache, hrequests⟩ := update_translate h
      refine ⟨?_, result, n, hanswer, Option.some.inj hret'⟩
      have hrecords := records_updateMonitor (σ := σ₂) (hsame'.2.trans (hsame.2.trans henabled))
        key CYNARA_API_SUCCESS time env.flush
      rw [← hclock, ← hcache, ← hrequests, hsame'.1] at hrecords
      rw [← hsame.1]
      exact hrecords

/-- The check is answered from the cache, or what the service answers is not translated to
`CYNARA_API_ACCESS_ALLOWED`. -/
def Truthful (plugins : PolicyType → Option ClientPlugin) (key : ValidKey)
    (session : ClientSession) (env : Surroundings) (σ : Logic) : Prop :=
  Hit plugins key session env σ
    ∨ ∀ result n, answer env.turns = some (.check result n) →
        Int32.ofInt (CapacityCache.translate plugins session result) ≠ CYNARA_API_ACCESS_ALLOWED

/-- The result of a check is recorded exactly if the check is answered from the cache or not
allowed. -/
theorem records_check_iff (henabled : σ.monitoringEnabled = true) (hclock : env.clock = some time)
    (h : σ.check plugins key session env = some (some ret, σ'))
    (hret : ret = CYNARA_API_ACCESS_ALLOWED ∨ ret = CYNARA_API_ACCESS_DENIED) :
  Records σ.monitorCache σ'.monitorCache σ'.requests (entryFor key ret time)
    ↔ Truthful plugins key session env σ
  := by
  obtain ⟨hhit, hrecords⟩ | ⟨hmissed, hrecords, result, n, hanswer, rfl⟩ :=
    records_check henabled hclock h hret
  · exact iff_of_true hrecords (Or.inl hhit)
  constructor
  · intro hrecords'
    right
    intro result' n' hanswer'
    cases hanswer.symm.trans hanswer'
    have hdenied := congrArg (fun entry : ValidEntry => entry.val.result)
      (hrecords'.unique hrecords)
    rw [show Int32.ofInt (CapacityCache.translate plugins session result) =
      CYNARA_API_ACCESS_DENIED from hdenied]
    decide
  · rintro (hhit | hdenied)
    · exact absurd hhit hmissed
    · rw [hret.resolve_left (hdenied result n hanswer)]
      exact hrecords

end ClientSync.Logic

/-! ### The results -/

/-- A check that yields `CYNARA_API_ACCESS_ALLOWED` or `CYNARA_API_ACCESS_DENIED` while the monitor
is enabled.  The synchronous client records this result exactly if it comes from its cache or is
not `CYNARA_API_ACCESS_ALLOWED`; the asynchronous client always does, both when it answers from its
cache and when it calls the callback of a check. -/
theorem recorded_result_iff (plugins : PolicyType → Option ClientPlugin)
    (time : Int64 × Int64) (result : Int32)
    (hresult : result = CYNARA_API_ACCESS_ALLOWED ∨ result = CYNARA_API_ACCESS_DENIED) :
  (∀ (σ σ' : ClientSync.Logic) key session env, σ.monitoringEnabled = true →
      env.clock = some time → σ.check plugins key session env = some (some result, σ') →
      (Records σ.monitorCache σ'.monitorCache σ'.requests (entryFor key result time)
        ↔ ClientSync.Logic.Truthful plugins key session env σ))
    ∧ (∀ (σ σ' : ClientAsync.Logic) key cached alive net net', σ.monitoringEnabled = true →
      σ.checkCache key cached (some time) alive net net' = (some result, σ') →
      Records σ.monitorCache σ'.monitorCache σ'.socketClient.writeQueue (entryFor key result time))
    ∧ (∀ (σ σ' : ClientAsync.Logic) id cached net onAnswerCancel number,
      σ.monitoringEnabled = true →
      σ.processCheckResponse id cached (some time) net = (.callback onAnswerCancel, σ') →
      σ'.calls.getLast? = some ⟨id, .CYNARA_CALL_CAUSE_ANSWER, result, number⟩ →
      ∃ check, σ.checks[id]? = some check ∧
        Records σ.monitorCache σ'.monitorCache σ'.socketClient.writeQueue
          (entryFor check.key result time))
  := by
  refine ⟨?_, ?_, ?_⟩
  · intro σ σ' key session env henabled hclock h
    exact ClientSync.Logic.records_check_iff henabled hclock h hresult
  · intro σ σ' key cached alive net net' henabled h
    exact ClientAsync.Logic.records_checkCache henabled h hresult
  · intro σ σ' id cached net onAnswerCancel number henabled h hcall
    exact ClientAsync.Logic.records_processCheckResponse henabled h hcall hresult

/-- A client that monitors its checks. -/
def monitored : ClientSync.Logic := { cache := { capacity := 1 }, monitoringEnabled := true }

/-- The service is asked once, and answers. -/
def asked (policyType : PolicyType) : ClientSync.Logic.Surroundings where
  net := ⟨true, none⟩
  turns := [⟨some (some (.check ⟨policyType, []⟩ 1)), none⟩]
  clock := some (0, 0)
  flush := ⟨⟨true, none⟩, some true⟩

/-- A key of three empty strings. -/
def emptyKey : ValidKey := ⟨⟨[], [], []⟩, by decide⟩

/-- Access is denied by the service, and this is recorded. -/
theorem recorded_denied :
  ∃ σ', monitored.check naivePlugins emptyKey [] (asked PredefinedPolicyType.DENY) =
      some (some CYNARA_API_ACCESS_DENIED, σ') ∧
    Records monitored.monitorCache σ'.monitorCache σ'.requests
      (entryFor emptyKey CYNARA_API_ACCESS_DENIED (0, 0))
  := by
  have hcheck : (monitored.check naivePlugins emptyKey []
      (asked PredefinedPolicyType.DENY)).any
        (fun outcome => outcome.1 == some CYNARA_API_ACCESS_DENIED) = true := by
    decide +kernel
  obtain ⟨⟨ret, σ'⟩, hσ', hret⟩ := (Option.any_eq_true _ _).mp hcheck
  obtain rfl : ret = some CYNARA_API_ACCESS_DENIED := by simpa using hret
  refine ⟨σ', hσ', ?_⟩
  apply ((recorded_result_iff naivePlugins (0, 0) CYNARA_API_ACCESS_DENIED
    (Or.inr rfl)).1 monitored σ' emptyKey [] _ rfl rfl hσ').mpr
  right
  intro result n hanswer
  cases hanswer
  decide

/-- Access is allowed by the service, and it is recorded that it is denied. -/
theorem recorded_allowed_as_denied :
  ∃ σ', monitored.check naivePlugins emptyKey [] (asked PredefinedPolicyType.ALLOW) =
      some (some CYNARA_API_ACCESS_ALLOWED, σ') ∧
    σ'.monitorCache.entries = [entryFor emptyKey CYNARA_API_ACCESS_DENIED (0, 0)]
  := by
  have hcheck : (monitored.check naivePlugins emptyKey []
      (asked PredefinedPolicyType.ALLOW)).any
        (fun outcome => outcome.1 == some CYNARA_API_ACCESS_ALLOWED &&
          outcome.2.monitorCache.entries ==
            [entryFor emptyKey CYNARA_API_ACCESS_DENIED (0, 0)]) = true := by
    decide +kernel
  obtain ⟨⟨ret, σ'⟩, hσ', hret⟩ := (Option.any_eq_true _ _).mp hcheck
  simp only [Bool.and_eq_true, beq_iff_eq] at hret
  obtain ⟨rfl, hentries⟩ := hret
  exact ⟨σ', hσ', hentries⟩

end Cynara
