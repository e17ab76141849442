import Cynara.Client.AsyncEffects

/-!
# The checks of the asynchronous client

Whatever the client does to its checks, the ids that are allocated are those of its checks, and
the callbacks of the checks that have been created have been called once, except for the checks
that are still there and not cancelled, and for those that are held.

The requests for checks that are queued for a connection are those of the checks that had not
been cancelled when it was made, and of the checks that have been created since then.
-/

namespace Cynara

namespace ClientAsync

open Std ProtocolClient

namespace Logic

/-! ### Numbers of checks and callbacks -/

/-- The check has been created, and its callback is still to be called. -/
def Awaits (σ : Logic) (n : ℕ) : Prop :=
  ∃ (id : UInt16) (check : CheckData), σ.checks[id]? = some check ∧ check.number = n ∧
    check.cancelled = false

/-- The numbers of the checks whose callbacks have been called. -/
def called (σ : Logic) : List ℕ := σ.calls.map Call.number

/-- The ids of the checks are allocated, their numbers differ, and the callbacks of the checks
have been called once, except for those that wait for it and those that are held. -/
structure Settled (held : List ℕ) (σ : Logic) : Prop where
  allocated : ∀ id, σ.sequenceContainer.Allocated id ↔ id ∈ σ.checks
  number_lt : ∀ (id : UInt16) check, σ.checks[id]? = some check → check.number < σ.created
  number_inj : ∀ (id id' : UInt16) check check', σ.checks[id]? = some check →
    σ.checks[id']? = some check' → check.number = check'.number → id = id'
  nodup : (σ.called ++ held).Nodup
  mem_called : ∀ n, n ∈ σ.called ++ held ↔ n < σ.created ∧ ¬ σ.Awaits n

/-- The requests for checks that are queued for the connection are those of its checks, which
are different and include all that wait for their callbacks.  There is a connection if the
socket may be found connected. -/
structure Exact (σ : Logic) : Prop where
  linked : σ.socketClient.opened ∨ σ.socketClient.connectionInProgress → σ.connection.isSome
  requests : ∀ k ∈ σ.connection, σ.socketClient.requests.filter isCheckRequest =
    k.checks.map fun check => check.2.request check.1
  nodup : ∀ k ∈ σ.connection, (k.checks.map fun check => check.2.number).Nodup
  number_lt : ∀ k ∈ σ.connection, ∀ check ∈ k.checks, check.2.number < σ.created
  pending : ∀ k ∈ σ.connection, ∀ check ∈ σ.active, check ∈ k.checks

variable {σ σ' : Logic} {held held' : List ℕ} {id : UInt16} {check : CheckData}

theorem isCheckRequest_request (id : UInt16) (check : CheckData) :
  isCheckRequest (check.request id)
  := by
  unfold CheckData.request
  split
  · rfl
  · rfl

/-- The numbers of the checks that have not been cancelled. -/
def activeNumbers (σ : Logic) : List ℕ := σ.active.map fun check => check.2.number

theorem mem_activeNumbers {n : ℕ} :
  n ∈ σ.activeNumbers ↔ σ.Awaits n
  := by
  rw [activeNumbers, List.mem_map]
  constructor
  · rintro ⟨⟨id, check⟩, hcheck, rfl⟩
    obtain ⟨hcheck, hactive⟩ := mem_active.mp hcheck
    exact ⟨id, check, hcheck, rfl, hactive⟩
  · rintro ⟨id, check, hcheck, rfl, hactive⟩
    exact ⟨(id, check), mem_active.mpr ⟨hcheck, hactive⟩, rfl⟩

theorem Settled.nodup_activeNumbers (h : Settled held σ) :
  σ.activeNumbers.Nodup
  := by
  have hdistinct := (ExtTreeMap.distinct_keys_toList (t := σ.checks)).filter
    fun check => ¬ check.2.cancelled
  rw [activeNumbers, List.Nodup, List.pairwise_map]
  apply List.Pairwise.imp_of_mem _ hdistinct
  rintro ⟨id, check⟩ ⟨id', check'⟩ hmem hmem' hne heq
  have hid := h.number_inj id id' check check' (mem_active.mp hmem).1 (mem_active.mp hmem').1 heq
  simp [hid] at hne

/-! ### What the effects keep -/

/-- What leaves the checks alone leaves them accounted for. -/
theorem Settled.quiet (h : Settled held σ) (hquiet : Quiet σ σ') :
  Settled held σ'
  := by
  obtain ⟨⟨hchecks, hcontainer, -⟩, hcreated, hcalls, -⟩ := hquiet
  have hawaits : σ'.Awaits = σ.Awaits := by
    funext n
    rw [Awaits, Awaits, hchecks]
  constructor
  · rw [hchecks, hcontainer]
    exact h.allocated
  · rw [hchecks, hcreated]
    exact h.number_lt
  · rw [hchecks]
    exact h.number_inj
  · rw [called, hcalls]
    exact h.nodup
  · rw [called, hcalls, hcreated, hawaits]
    exact h.mem_called

theorem getElem?_releaseRequest {id' : UInt16} :
  (σ.releaseRequest id).checks[id']? = if id = id' then none else σ.checks[id']?
  := by
  simp [releaseRequest, ExtTreeMap.getElem?_erase]

theorem Settled.awaits_releaseRequest (h : Settled held σ) (hcheck : σ.checks[id]? = some check)
    (n : ℕ) :
  (σ.releaseRequest id).Awaits n ↔
    σ.Awaits n ∧ ¬ (check.number = n ∧ check.cancelled = false)
  := by
  constructor
  · rintro ⟨id', check', hcheck', rfl, hactive⟩
    rw [getElem?_releaseRequest] at hcheck'
    split at hcheck'
    · cases hcheck'
    · rename_i hne
      refine ⟨⟨id', check', hcheck', rfl, hactive⟩, ?_⟩
      rintro ⟨hnumber, -⟩
      exact hne (h.number_inj id id' check check' hcheck hcheck' hnumber)
  · rintro ⟨⟨id', check', hcheck', rfl, hactive⟩, hother⟩
    refine ⟨id', check', ?_, rfl, hactive⟩
    rw [getElem?_releaseRequest, if_neg]
    · exact hcheck'
    · rintro rfl
      obtain rfl : check = check' := Option.some.inj (hcheck.symm.trans hcheck')
      exact hother ⟨rfl, hactive⟩

/-- A check is released: it must have been accounted for. -/
theorem Settled.releaseRequest (h : Settled held σ) (hcheck : σ.checks[id]? = some check)
    (hnodup : (σ.called ++ held').Nodup)
    (hmem : ∀ n, n ∈ σ.called ++ held' ↔
      n < σ.created ∧ ¬ (σ.Awaits n ∧ ¬ (check.number = n ∧ check.cancelled = false))) :
  Settled held' (σ.releaseRequest id)
  := by
  constructor
  · intro id'
    change ((σ.sequenceContainer.release id).2.Allocated id') ↔ id' ∈ σ.checks.erase id
    rw [SequenceContainer.allocated_release, h.allocated, ExtTreeMap.mem_erase]
    simp [@eq_comm _ id' id]
  · intro id' check' hcheck'
    rw [getElem?_releaseRequest] at hcheck'
    split at hcheck'
    · cases hcheck'
    · exact h.number_lt id' check' hcheck'
  · intro id₁ id₂ check₁ check₂ h₁ h₂
    rw [getElem?_releaseRequest] at h₁ h₂
    split at h₁
    · cases h₁
    · split at h₂
      · cases h₂
      · exact h.number_inj id₁ id₂ check₁ check₂ h₁ h₂
  · exact hnodup
  · intro n
    rw [h.awaits_releaseRequest hcheck]
    exact hmem n

/-- A cancelled check is forgotten. -/
theorem Settled.discard (h : Settled held σ) (hcheck : σ.checks[id]? = some check)
    (hcancelled : check.cancelled = true) :
  Settled held (σ.releaseRequest id)
  := by
  apply h.releaseRequest hcheck h.nodup
  intro n
  rw [h.mem_called]
  simp [hcancelled]

/-- A check that is to be answered is taken out of the map, and held. -/
theorem Settled.hold (h : Settled held σ) (hcheck : σ.checks[id]? = some check)
    (hactive : check.cancelled = false) :
  Settled (check.number :: held) (σ.releaseRequest id)
  := by
  have hawaits : σ.Awaits check.number := ⟨id, check, hcheck, rfl, hactive⟩
  have hnew : check.number ∉ σ.called ++ held := fun hmem =>
    ((h.mem_called _).mp hmem).2 hawaits
  have hperm : (σ.called ++ check.number :: held).Perm (check.number :: (σ.called ++ held)) :=
    List.perm_middle
  apply h.releaseRequest hcheck
  · rw [hperm.nodup_iff, List.nodup_cons]
    exact ⟨hnew, h.nodup⟩
  · intro n
    rw [hperm.mem_iff, List.mem_cons, h.mem_called]
    by_cases hn : n = check.number
    · subst hn
      simp [hactive, h.number_lt id check hcheck]
    · simp [hn, Ne.symm hn]

/-- The check that was held has its callback. -/
theorem Settled.answer (h : Settled (check.number :: held) σ) (id : UInt16) (result : Int32) :
  Settled held (σ.call id .CYNARA_CALL_CAUSE_ANSWER result check)
  := by
  have hcalled : (σ.call id .CYNARA_CALL_CAUSE_ANSWER result check).called ++ held =
      σ.called ++ check.number :: held := by
    simp [called, call]
  refine ⟨h.allocated, h.number_lt, h.number_inj, ?_, ?_⟩
  · rw [hcalled]
    exact h.nodup
  · rw [hcalled]
    exact h.mem_called

theorem getElem?_cancelCheck {id' : UInt16} :
  (σ.cancelCheck id check).checks[id']? =
    if id = id' then some check.cancel else σ.checks[id']?
  := by
  simp [cancelCheck, call, appendRequest, ExtTreeMap.getElem?_insert]

theorem Settled.awaits_cancelCheck (h : Settled held σ) (hcheck : σ.checks[id]? = some check)
    (n : ℕ) :
  (σ.cancelCheck id check).Awaits n ↔ σ.Awaits n ∧ n ≠ check.number
  := by
  constructor
  · rintro ⟨id', check', hcheck', rfl, hactive'⟩
    rw [getElem?_cancelCheck] at hcheck'
    split at hcheck'
    · obtain rfl := Option.some.inj hcheck'
      cases hactive'
    · rename_i hne
      refine ⟨⟨id', check', hcheck', rfl, hactive'⟩, ?_⟩
      intro hnumber
      exact hne (h.number_inj id id' check check' hcheck hcheck' hnumber.symm)
  · rintro ⟨⟨id', check', hcheck', rfl, hactive'⟩, hne⟩
    refine ⟨id', check', ?_, rfl, hactive'⟩
    rw [getElem?_cancelCheck, if_neg]
    · exact hcheck'
    · rintro rfl
      obtain rfl : check = check' := Option.some.inj (hcheck.symm.trans hcheck')
      exact hne rfl

/-- The callback of a check that is cancelled is called, and its number stays in use. -/
theorem Settled.cancel (h : Settled held σ) (hcheck : σ.checks[id]? = some check)
    (hactive : check.cancelled = false) :
  Settled held (σ.cancelCheck id check)
  := by
  -- the numbers are the same as before
  have hold : ∀ (id' : UInt16) (check' : CheckData),
      (σ.cancelCheck id check).checks[id']? = some check' →
      ∃ check₀ : CheckData, σ.checks[id']? = some check₀ ∧ check₀.number = check'.number := by
    intro id' check' hcheck'
    rw [getElem?_cancelCheck] at hcheck'
    split at hcheck'
    · rename_i heq
      subst heq
      obtain rfl := Option.some.inj hcheck'
      exact ⟨check, hcheck, rfl⟩
    · exact ⟨check', hcheck', rfl⟩
  have hnew : check.number ∉ σ.called ++ held := fun hmem =>
    ((h.mem_called _).mp hmem).2 ⟨id, check, hcheck, rfl, hactive⟩
  have hperm : ((σ.cancelCheck id check).called ++ held).Perm
      (check.number :: (σ.called ++ held)) := by
    have hcalled : (σ.cancelCheck id check).called ++ held =
        σ.called ++ check.number :: held := by
      simp [called, cancelCheck, call, appendRequest]
    rw [hcalled]
    exact List.perm_middle
  constructor
  · intro id'
    rw [ExtTreeMap.mem_iff_isSome_getElem?, getElem?_cancelCheck]
    change σ.sequenceContainer.Allocated id' ↔ _
    rw [h.allocated, ExtTreeMap.mem_iff_isSome_getElem?]
    split
    · rename_i heq
      simp [← heq, hcheck]
    · rfl
  · intro id' check' hcheck'
    obtain ⟨check₀, hcheck₀, hnumber⟩ := hold id' check' hcheck'
    rw [← hnumber]
    exact h.number_lt id' check₀ hcheck₀
  · intro id₁ id₂ check₁ check₂ h₁ h₂ heq
    obtain ⟨check₁', h₁', hnumber₁⟩ := hold id₁ check₁ h₁
    obtain ⟨check₂', h₂', hnumber₂⟩ := hold id₂ check₂ h₂
    apply h.number_inj id₁ id₂ check₁' check₂' h₁' h₂'
    rw [hnumber₁, hnumber₂, heq]
  · rw [hperm.nodup_iff, List.nodup_cons]
    exact ⟨hnew, h.nodup⟩
  · intro n
    rw [hperm.mem_iff, List.mem_cons, h.mem_called, h.awaits_cancelCheck hcheck]
    change _ ↔ n < σ.created ∧ _
    by_cases hn : n = check.number
    · subst hn
      simp [h.number_lt id check hcheck]
    · simp [hn]

/-- The id of a new check is not used by another one. -/
theorem getElem?_insertCheck (hfree : id ∉ σ.checks) (simple : Bool) (key : ValidKey)
    (session : ClientSession) (sequenceContainer : SequenceContainer) (id' : UInt16) :
  (σ.insertCheck simple key session id sequenceContainer).checks[id']? =
    if id = id' then some ⟨key, session, simple, false, σ.created⟩ else σ.checks[id']?
  := by
  simp only [insertCheck, onStatusChange, appendRequest, ExtTreeMap.getElem?_insertIfNew]
  by_cases hid : id = id'
  · subst hid
    simp [hfree]
  · simp [hid]

theorem awaits_insertCheck (hfree : id ∉ σ.checks) (simple : Bool) (key : ValidKey)
    (session : ClientSession) (sequenceContainer : SequenceContainer) (n : ℕ) :
  (σ.insertCheck simple key session id sequenceContainer).Awaits n ↔ σ.Awaits n ∨ n = σ.created
  := by
  have hchecks := getElem?_insertCheck hfree simple key session sequenceContainer
  constructor
  · rintro ⟨id', check', hcheck', rfl, hactive'⟩
    rw [hchecks] at hcheck'
    split at hcheck'
    · obtain rfl := Option.some.inj hcheck'
      exact Or.inr rfl
    · exact Or.inl ⟨id', check', hcheck', rfl, hactive'⟩
  · rintro (⟨id', check', hcheck', rfl, hactive'⟩ | rfl)
    · refine ⟨id', check', ?_, rfl, hactive'⟩
      rw [hchecks, if_neg]
      · exact hcheck'
      · rintro rfl
        exact hfree (ExtTreeMap.mem_iff_isSome_getElem?.mpr (by simp [hcheck']))
    · exact ⟨id, _, by rw [hchecks, if_pos rfl], rfl, rfl⟩

/-- A new check has a number that is not in use. -/
theorem Settled.create (h : Settled held σ) {sequenceContainer : SequenceContainer}
    (simple : Bool) (key : ValidKey) (session : ClientSession)
    (hget : σ.sequenceContainer.get = some (id, sequenceContainer)) :
  Settled held (σ.insertCheck simple key session id sequenceContainer)
  := by
  obtain ⟨hfree, -, hallocated⟩ := SequenceContainer.get_eq_some hget
  rw [h.allocated] at hfree
  have hchecks := getElem?_insertCheck hfree simple key session sequenceContainer
  constructor
  · intro id'
    rw [ExtTreeMap.mem_iff_isSome_getElem?, hchecks]
    change sequenceContainer.Allocated id' ↔ _
    rw [hallocated, h.allocated, ExtTreeMap.mem_iff_isSome_getElem?]
    by_cases hid : id = id'
    · simp [hid]
    · simp [hid, Ne.symm hid]
  · intro id' check' hcheck'
    change check'.number < σ.created + 1
    rw [hchecks] at hcheck'
    split at hcheck'
    · obtain rfl := Option.some.inj hcheck'
      exact Nat.lt_succ_self _
    · exact Nat.lt_succ_of_lt (h.number_lt id' check' hcheck')
  · intro id₁ id₂ check₁ check₂ h₁ h₂ heq
    rw [hchecks] at h₁ h₂
    split at h₁
    · obtain rfl := Option.some.inj h₁
      split at h₂
      · rename_i heq₁ heq₂
        exact heq₁.symm.trans heq₂
      · exact absurd heq.symm (Nat.ne_of_lt (h.number_lt id₂ check₂ h₂))
    · split at h₂
      · obtain rfl := Option.some.inj h₂
        exact absurd heq (Nat.ne_of_lt (h.number_lt id₁ check₁ h₁))
      · exact h.number_inj id₁ id₂ check₁ check₂ h₁ h₂ heq
  · exact h.nodup
  · intro n
    rw [awaits_insertCheck hfree]
    change n ∈ σ.called ++ held ↔ n < σ.created + 1 ∧ _
    rw [h.mem_called]
    constructor
    · rintro ⟨hlt, hno⟩
      refine ⟨Nat.lt_succ_of_lt hlt, ?_⟩
      rintro (hyes | rfl)
      · exact hno hyes
      · exact Nat.lt_irrefl _ hlt
    · rintro ⟨hlt, hno⟩
      rw [not_or] at hno
      exact ⟨Nat.lt_of_le_of_ne (Nat.le_of_lt_succ hlt) hno.2, hno.1⟩

/-- After a new connection no check is lost. -/
theorem Settled.renew (h : Settled held σ) (s : SocketClient) (k : Connection) :
  Settled held (prepareRequestsToSend { σ with socketClient := s, connection := some k })
  := by
  obtain ⟨sequenceContainer, checks, heq, hallocated, hchecks⟩ :=
    prepareRequestsToSend_eq { σ with socketClient := s, connection := some k }
  rw [heq]
  have hkept : ∀ (id : UInt16) check, checks[id]? = some check →
      σ.checks[id]? = some check ∧ check.cancelled = false := by
    intro id check hcheck
    exact mem_active.mp ((hchecks id check).mp hcheck)
  constructor
  · intro id
    change sequenceContainer.Allocated id ↔ id ∈ checks
    rw [hallocated]
    change σ.sequenceContainer.Allocated id ∧ (∀ check, σ.checks[id]? = some check → _) ↔ _
    rw [h.allocated, ExtTreeMap.mem_iff_isSome_getElem?, ExtTreeMap.mem_iff_isSome_getElem?,
      Option.isSome_iff_exists, Option.isSome_iff_exists]
    constructor
    · rintro ⟨⟨check, hcheck⟩, hactive⟩
      exact ⟨check, (hchecks id check).mpr (mem_active.mpr ⟨hcheck, hactive check hcheck⟩)⟩
    · rintro ⟨check, hcheck⟩
      obtain ⟨hcheck, hactive⟩ := hkept id check hcheck
      refine ⟨⟨check, hcheck⟩, ?_⟩
      intro check' hcheck'
      obtain rfl : check = check' := Option.some.inj (hcheck.symm.trans hcheck')
      exact hactive
  · intro id check hcheck
    exact h.number_lt id check (hkept id check hcheck).1
  · intro id₁ id₂ check₁ check₂ h₁ h₂
    exact h.number_inj id₁ id₂ check₁ check₂ (hkept id₁ check₁ h₁).1 (hkept id₂ check₂ h₂).1
  · exact h.nodup
  · intro n
    change n ∈ σ.called ++ held ↔ n < σ.created ∧ ¬ ∃ (id : UInt16) (check : CheckData),
      checks[id]? = some check ∧ check.number = n ∧ check.cancelled = false
    rw [h.mem_called, Awaits]
    have hsame : (∃ (id : UInt16) (check : CheckData),
        checks[id]? = some check ∧ check.number = n ∧ check.cancelled = false) ↔
          ∃ (id : UInt16) (check : CheckData),
            σ.checks[id]? = some check ∧ check.number = n ∧ check.cancelled = false := by
      constructor
      · rintro ⟨id, check, hcheck, hn⟩
        exact ⟨id, check, (hkept id check hcheck).1, hn⟩
      · rintro ⟨id, check, hcheck, hn⟩
        exact ⟨id, check, (hchecks id check).mpr (mem_active.mpr ⟨hcheck, hn.2⟩), hn⟩
    rw [hsame]

/-- After the callbacks of all checks that wait for them have been called, all checks that have
been created are accounted for. -/
theorem Settled.callAll (h : Settled held σ) (cause : CallCause) :
  ((σ.callAll cause).called ++ held).Nodup ∧
    ∀ n, n ∈ (σ.callAll cause).called ++ held ↔ n < σ.created
  := by
  have hcalled : (σ.callAll cause).called = σ.called ++ σ.activeNumbers := by
    simp [callAll_eq, called, activeNumbers, Function.comp_def]
  have hperm : ((σ.callAll cause).called ++ held).Perm (σ.activeNumbers ++ (σ.called ++ held)) := by
    rw [hcalled, List.append_assoc]
    exact List.perm_append_comm_assoc _ _ _
  constructor
  · rw [hperm.nodup_iff, List.nodup_append]
    refine ⟨h.nodup_activeNumbers, h.nodup, ?_⟩
    rintro n hn m hm rfl
    exact ((h.mem_called n).mp hm).2 (mem_activeNumbers.mp hn)
  · intro n
    rw [hperm.mem_iff, List.mem_append, mem_activeNumbers, h.mem_called]
    constructor
    · rintro (⟨id, check, hcheck, rfl, -⟩ | ⟨hlt, -⟩)
      · exact h.number_lt id check hcheck
      · exact hlt
    · intro hlt
      by_cases hn : σ.Awaits n
      · exact Or.inl hn
      · exact Or.inr ⟨hlt, hn⟩

/-- Without a service all checks get their callback. -/
theorem Settled.refuse (h : Settled held σ) (s : SocketClient) :
  Settled held (onServiceNotAvailable { σ with socketClient := s, connection := none })
  := by
  obtain ⟨hnodup, hmem⟩ := h.callAll .CYNARA_CALL_CAUSE_SERVICE_NOT_AVAILABLE
  have hcalled : (onServiceNotAvailable { σ with socketClient := s, connection := none }).called =
      (σ.callAll .CYNARA_CALL_CAUSE_SERVICE_NOT_AVAILABLE).called := by
    simp only [onServiceNotAvailable, callAll_eq]
    rfl
  have hcreated : (onServiceNotAvailable { σ with socketClient := s, connection := none }).created =
      σ.created := by
    simp [onServiceNotAvailable, callAll_eq]
  have hchecks : ∀ id : UInt16,
      (onServiceNotAvailable { σ with socketClient := s, connection := none }).checks[id]?
        = none := by
    intro id
    simp [onServiceNotAvailable]
  constructor
  · intro id
    rw [ExtTreeMap.mem_iff_isSome_getElem?, hchecks]
    simpa [onServiceNotAvailable] using
      SequenceContainer.not_allocated_clear (c := σ.sequenceContainer) id
  · intro id check hcheck
    rw [hchecks] at hcheck
    cases hcheck
  · intro id₁ id₂ check₁ check₂ h₁
    rw [hchecks] at h₁
    cases h₁
  · rw [hcalled]
    exact hnodup
  · intro n
    rw [hcalled, hmem, hcreated, iff_self_and]
    rintro - ⟨id, check, hcheck, -⟩
    rw [hchecks] at hcheck
    cases hcheck

/-! ### The requests of a connection -/

theorem isCheckRequest_of_isMonitorRequest {r : Request} (h : isMonitorRequest r) :
  isCheckRequest r = false
  := by
  cases r with
  | monitorEntriesPut entries n => rfl
  | monitorEntryPut entry n => rfl
  | cancel n => cases h
  | check key n => cases h
  | simpleCheck key n => cases h

theorem Exact.quiet (h : Exact σ) (hquiet : Quiet σ σ') :
  Exact σ'
  := by
  obtain ⟨⟨hchecks, -, hconnection, hopened, rs, hrequests, hrs⟩, hcreated, -, hprogress⟩ := hquiet
  have hnone : rs.filter isCheckRequest = [] := by
    rw [List.filter_eq_nil_iff]
    intro r hr
    simp [isCheckRequest_of_isMonitorRequest (hrs r hr)]
  constructor
  · rw [hconnection, hopened]
    rintro (ho | hp)
    · exact h.linked (Or.inl ho)
    · exact h.linked (Or.inr (hprogress hp))
  · rw [hconnection, hrequests, List.filter_append, hnone, List.append_nil]
    exact h.requests
  · rw [hconnection]
    exact h.nodup
  · rw [hconnection, hcreated]
    exact h.number_lt
  · rw [hconnection, active, hchecks]
    exact h.pending

theorem Exact.create (h : Exact σ) (simple : Bool) (key : ValidKey) (session : ClientSession)
    (id : UInt16) (sequenceContainer : SequenceContainer) :
  Exact (σ.insertCheck simple key session id sequenceContainer)
  := by
  have hconnection : ∀ k' ∈ (σ.insertCheck simple key session id sequenceContainer).connection,
      ∃ k ∈ σ.connection, k'.checks
        = k.checks ++ [(id, ⟨key, session, simple, false, σ.created⟩)] := by
    intro k' hk'
    obtain ⟨k, hk, rfl⟩ := Option.map_eq_some_iff.mp hk'
    exact ⟨k, hk, by simp [Connection.checks, Connection.create]⟩
  constructor
  · intro hopen
    have hsome := h.linked hopen
    simpa [insertCheck, onStatusChange, appendRequest] using hsome
  · intro k' hk'
    obtain ⟨k, hk, heq⟩ := hconnection k' hk'
    have hrequests : (σ.insertCheck simple key session id sequenceContainer).socketClient.requests =
        σ.socketClient.requests ++
          [CheckData.request id ⟨key, session, simple, false, σ.created⟩] :=
      requests_appendRequest _ _
    rw [hrequests, List.filter_append, h.requests k hk, heq, List.map_append]
    simp [isCheckRequest_request]
  · intro k' hk'
    obtain ⟨k, hk, heq⟩ := hconnection k' hk'
    rw [heq, List.map_append, List.nodup_append]
    refine ⟨h.nodup k hk, List.nodup_singleton _, ?_⟩
    rintro n hn m hm rfl
    obtain ⟨check, hcheck, rfl⟩ := List.mem_map.mp hn
    obtain heq : check.2.number = σ.created := List.mem_singleton.mp hm
    exact Nat.ne_of_lt (h.number_lt k hk check hcheck) heq
  · intro k' hk' check hcheck
    obtain ⟨k, hk, heq⟩ := hconnection k' hk'
    change check.2.number < σ.created + 1
    rw [heq, List.mem_append, List.mem_singleton] at hcheck
    rcases hcheck with hcheck | rfl
    · exact Nat.lt_succ_of_lt (h.number_lt k hk check hcheck)
    · exact Nat.lt_succ_self _
  · rintro k' hk' ⟨id', check⟩ hmem
    obtain ⟨k, hk, heq⟩ := hconnection k' hk'
    obtain ⟨hcheck, hactive⟩ := mem_active.mp hmem
    rw [heq, List.mem_append, List.mem_singleton]
    simp only [insertCheck, onStatusChange, appendRequest,
      ExtTreeMap.getElem?_insertIfNew] at hcheck
    split at hcheck
    · rename_i hid
      obtain rfl : id = id' := by simpa using hid.1
      right
      rw [← Option.some.inj hcheck]
    · left
      exact h.pending k hk (id', check) (mem_active.mpr ⟨hcheck, hactive⟩)

theorem Exact.cancel (h : Exact σ) :
  Exact (σ.cancelCheck id check)
  := by
  have hrequests : (σ.cancelCheck id check).socketClient.requests =
      σ.socketClient.requests ++ [.cancel id] := requests_appendRequest _ σ
  refine ⟨h.linked, ?_, h.nodup, h.number_lt, ?_⟩
  · intro k hk
    rw [hrequests, List.filter_append, h.requests k hk]
    exact List.append_nil _
  · rintro k hk ⟨id', check'⟩ hcheck
    obtain ⟨hcheck, hactive⟩ := mem_active.mp hcheck
    apply h.pending k hk (id', check')
    rw [mem_active]
    simp only [cancelCheck, call, appendRequest, ExtTreeMap.getElem?_insert] at hcheck
    split at hcheck
    · obtain rfl := Option.some.inj hcheck
      cases hactive
    · exact ⟨hcheck, hactive⟩

theorem Exact.releaseRequest (h : Exact σ) (id : UInt16) :
  Exact (σ.releaseRequest id)
  := by
  refine ⟨h.linked, h.requests, h.nodup, h.number_lt, ?_⟩
  rintro k hk ⟨id', check'⟩ hcheck
  obtain ⟨hcheck, hactive⟩ := mem_active.mp hcheck
  apply h.pending k hk (id', check')
  rw [getElem?_releaseRequest] at hcheck
  split at hcheck
  · cases hcheck
  · exact mem_active.mpr ⟨hcheck, hactive⟩

/-- A new connection gets the requests of all checks that have not been cancelled. -/
theorem Settled.exact_renew (h : Settled held σ) {s : SocketClient} (hs : s.requests = []) :
  Exact (prepareRequestsToSend
    { σ with socketClient := s, connection := some ⟨σ.active, []⟩ })
  := by
  obtain ⟨sequenceContainer, checks, heq, -, hchecks⟩ :=
    prepareRequestsToSend_eq { σ with socketClient := s, connection := some ⟨σ.active, []⟩ }
  rw [heq]
  have hactive : active { σ with socketClient := s, connection := some ⟨σ.active, []⟩ } =
      σ.active := rfl
  constructor
  · intro _
    rfl
  · rintro k hk
    obtain rfl : (⟨σ.active, []⟩ : Connection) = k := Option.some.inj hk
    have hempty : s.wire ++ s.sendQueue ++ s.writeQueue = [] := hs
    simp only [SocketClient.requests, Connection.checks, List.append_nil, hactive]
    rw [← List.append_assoc, hempty, List.nil_append, List.filter_eq_self]
    intro r hr
    obtain ⟨check, -, rfl⟩ := List.mem_map.mp hr
    exact isCheckRequest_request _ _
  · rintro k hk
    obtain rfl : (⟨σ.active, []⟩ : Connection) = k := Option.some.inj hk
    rw [Connection.checks, List.append_nil]
    exact h.nodup_activeNumbers
  · rintro k hk ⟨id, check⟩ hcheck
    obtain rfl : (⟨σ.active, []⟩ : Connection) = k := Option.some.inj hk
    rw [Connection.checks, List.append_nil] at hcheck
    exact h.number_lt id check (mem_active.mp hcheck).1
  · rintro k hk ⟨id, check⟩ hcheck
    obtain rfl : (⟨σ.active, []⟩ : Connection) = k := Option.some.inj hk
    rw [Connection.checks, List.append_nil]
    exact (hchecks id check).mp (mem_active.mp hcheck).1

/-- Nothing is required of a client that has no connection. -/
theorem exact_of_not_connected (hopened : σ.socketClient.opened = false)
    (hprogress : σ.socketClient.connectionInProgress = false) (hnone : σ.connection = none) :
  Exact σ
  := by
  constructor
  · simp [hopened, hprogress]
  all_goals simp [hnone]

/-! ### Steps -/

theorem Settled.act (h : Settled held σ) (hact : Act held σ held' σ') :
  Settled held' σ'
  := by
  cases hact with
  | quiet hquiet => exact h.quiet hquiet
  | create simple key session _ hget => exact h.create simple key session hget
  | cancel _ hcheck hactive => exact h.cancel hcheck hactive
  | answer id check result => exact h.answer id result

theorem Exact.act (h : Exact σ) (hact : Act held σ held' σ') :
  Exact σ'
  := by
  cases hact with
  | quiet hquiet => exact h.quiet hquiet
  | create simple key session _ _ => exact h.create simple key session _ _
  | cancel _ _ _ => exact h.cancel
  | answer id check result => exact ⟨h.linked, h.requests, h.nodup, h.number_lt, h.pending⟩

/-- All checks have been refused, and there is no connection. -/
theorem Settled.keep_refuse (h : Settled held σ) {s : SocketClient} (hopened : s.opened = false)
    (hprogress : s.connectionInProgress = false) :
  Settled held (onServiceNotAvailable { σ with socketClient := s, connection := none }) ∧
    Exact (onServiceNotAvailable { σ with socketClient := s, connection := none })
  := by
  refine ⟨h.refuse s, ?_⟩
  rw [onServiceNotAvailable, callAll_eq]
  exact exact_of_not_connected hopened hprogress rfl

theorem Settled.keep_connect (h : Settled held σ) (attempt : Attempt)
    (hprogress : σ.socketClient.connectionInProgress = false) :
  Settled held (σ.connect attempt).2 ∧ Exact (σ.connect attempt).2
  := by
  have hrenew : ∀ s : SocketClient, s.requests = [] →
      Settled held (prepareRequestsToSend
        { σ with socketClient := s, connection := some ⟨σ.active, []⟩ }).onStatusChange ∧
      Exact (prepareRequestsToSend
        { σ with socketClient := s, connection := some ⟨σ.active, []⟩ }).onStatusChange :=
    fun s hs => ⟨(h.renew s _).quiet (quiet_onStatusChange _),
      (h.exact_renew hs).quiet (quiet_onStatusChange _)⟩
  cases attempt with
  | succeeded => exact hrenew _ rfl
  | inProgress => exact hrenew _ rfl
  | failed => exact h.keep_refuse rfl hprogress
  | thrown =>
      exact ⟨⟨h.allocated, h.number_lt, h.number_inj, h.nodup, h.mem_called⟩,
        exact_of_not_connected rfl hprogress rfl⟩

/-- Whatever the client does, its checks are accounted for and its requests are those of its checks.
-/
theorem Does.keep {ops : List ConnectionOp} (h : Does ops held σ held' σ')
    (hsettled : Settled held σ) (hexact : Exact σ) :
  Settled held' σ' ∧ Exact σ'
  := by
  induction h with
  | refl => exact ⟨hsettled, hexact⟩
  | act _ hact ih =>
      obtain ⟨hsettled₁, hexact₁⟩ := ih hsettled hexact
      exact ⟨hsettled₁.act hact, hexact₁.act hact⟩
  | connect attempt _ hprogress ih =>
      obtain ⟨hsettled₁, -⟩ := ih hsettled hexact
      exact (hsettled₁.quiet (quiet_onDisconnected _)).keep_connect attempt hprogress
  | fail _ hopened hprogress ih => exact (ih hsettled hexact).1.keep_refuse hopened hprogress

/-- A check is released. -/
theorem Settled.release (h : Settled held σ) (hcheck : σ.checks[id]? = some check) :
  Settled (if check.cancelled then held else check.number :: held) (σ.releaseRequest id)
  := by
  cases hcancelled : check.cancelled with
  | true => exact h.discard hcheck hcancelled
  | false => exact h.hold hcheck hcancelled

end Logic

end ClientAsync

end Cynara
