import Cynara.Protocol.Requests
import Cynara.Protocol.Responses
import Cynara.Service.Idempotence
import Cynara.Service.PluginManager
import Cynara.Storage.Serializer

/-!
# The two implementations of the administration interface

The library of administrators has two implementations of its interface.  `OfflineLogic` loads the
database, works on it and saves it; `OnlineLogic` sends a request to the service and reads the
answer.  Which of them is used depends on whether the service is running, so a caller should not
notice the difference.

Each of them has a registry of plugins of its own.  The library loads it for a call; the service
has loaded it long ago, and every check of a client since then may have asked it for a plugin.

On an intact database that can be saved, both return the same codes and results, as long as the
service has been asked only for plugins that it has.  They differ in what a rejected request leaves
behind: offline it leaves the database as it was, as nothing is saved.
-/

open Std

namespace Cynara

open PredefinedPolicyType InMemoryStorageBackend

namespace Admin

/-- The codes of `cynara-error.h` that the implementations return. -/
inductive ApiCode where
  | SUCCESS
  | INVALID_PARAM
  | SERVICE_NOT_AVAILABLE
  | OPERATION_NOT_ALLOWED
  | OPERATION_FAILED
  | BUCKET_NOT_FOUND
  | UNKNOWN_ERROR
  | DATABASE_CORRUPTED
deriving DecidableEq

/-- The functions of `ApiInterface`: those that change the database, and those that ask. -/
inductive Function where
  | change (request : Request)
  | adminCheck (startBucket : PolicyBucketId) (recursive : Bool) (key : PolicyKey)
  | listDescriptions
  | listPolicies (bucket : PolicyBucketId) (filter : PolicyKey)

/-- What is written to the output parameters of a function. -/
inductive Output where
  | nothing
  | result (result : PolicyResult)
  | descriptions (descriptions : List PolicyDescription)
  | policies (policies : List Policy)

/-- What the service or the library depends on: its registry of plugins, the order in which
policies are traversed, the fuel for recursive checks and erases, and how a save ends. -/
structure Surroundings (P : Type) where
  plugins : PluginManager P
  order : IterationOrder Str
  fuel : ℕ
  save : Save

/-- The surroundings of the handlers of the service. -/
def Surroundings.service {P : Type} (env : Surroundings P) (dbCorrupted : Bool) :
    Logic.Surroundings :=
  ⟨dbCorrupted, env.plugins.checkPolicyType, env.save⟩

/-- The registry of the service has been asked since it was loaded. -/
def Surroundings.after {P : Type} (env : Surroundings P) (calls : List PluginManager.Call) :
    Surroundings P :=
  { env with plugins := env.plugins.run calls }

/-- How the work of the service on a request ends: it answers, an exception leaves the handler, or
it dereferences a null pointer of its registry. -/
inductive Reaction where
  | responds (response : ProtocolAdmin.Response)
  | throws
  | crashes

end Admin

open Admin

/-! ### The service -/

/-- The number of a code. -/
def Code.toUInt16 : Code → UInt16
  | .OK => 0
  | .NO_BUCKET => 1
  | .NO_POLICY_TYPE => 2
  | .NOT_ALLOWED => 3
  | .FAILED => 4
  | .DB_CORRUPTED => 5

namespace Logic

variable {P : Type} (env : Admin.Surroundings P) (dbCorrupted : Bool) (s : Buckets)

/-- The reaction to a request that changes the storage.  After a change, which has been saved, the
plugins are invalidated. -/
def change (request : Request) (sequenceNumber : UInt16) : Option (Reaction × Buckets) :=
  (execute (env.service dbCorrupted) env.fuel s request).map fun (code, s) =>
    match code with
    | none => (.throws, s)
    | some code =>
        if code = .OK ∧ env.plugins.invalidateAll.isNone then (.crashes, s)
        else (.responds (.code code.toUInt16 sequenceNumber), s)

/-- The reaction to a request of an administrator. -/
def answer : ProtocolAdmin.Request → Option (Reaction × Buckets)
  | .adminCheck key startBucket recursive sequenceNumber =>
      if dbCorrupted then
        some (.responds (.adminCheck {} false true sequenceNumber), s)
      else
        (Storage.checkPolicy env.fuel env.order s key startBucket recursive).map fun
          | .ok result => (.responds (.adminCheck result true false sequenceNumber), s)
          | .error (.bucketNotExists _) =>
              (.responds (.adminCheck {} false false sequenceNumber), s)
          | .error _ => (.throws, s)
  | .descriptionList sequenceNumber =>
      some (.responds (.descriptionList
        (predefinedPolicyDescr ++ env.plugins.getPolicyDescriptions) dbCorrupted sequenceNumber), s)
  | .list bucket filter sequenceNumber =>
      if dbCorrupted then
        some (.responds (.list [] false true sequenceNumber), s)
      else
        match Storage.listPolicies env.order s bucket filter with
        | .ok policies => some (.responds (.list policies true false sequenceNumber), s)
        | .error (.bucketNotExists _) =>
            some (.responds (.list [] false false sequenceNumber), s)
        | .error _ => some (.throws, s)
  | .erase startBucket recursive filter sequenceNumber =>
      change env dbCorrupted s (.erase startBucket recursive filter) sequenceNumber
  | .insertOrUpdateBucket bucketId result sequenceNumber =>
      change env dbCorrupted s (.insertOrUpdateBucket bucketId result) sequenceNumber
  | .removeBucket bucketId sequenceNumber =>
      change env dbCorrupted s (.removeBucket bucketId) sequenceNumber
  | .setPolicies inserted removed sequenceNumber =>
      change env dbCorrupted s (.setPolicies inserted removed) sequenceNumber

end Logic

/-! ### The library, online -/

namespace OnlineLogic

/-- The request of a function. -/
def request (sequenceNumber : UInt16) : Function → ProtocolAdmin.Request
  | .change (.setPolicies insertOrUpdate remove) =>
      .setPolicies insertOrUpdate remove sequenceNumber
  | .change (.insertOrUpdateBucket bucket policyResult) =>
      .insertOrUpdateBucket bucket policyResult sequenceNumber
  | .change (.removeBucket bucket) => .removeBucket bucket sequenceNumber
  | .change (.erase startBucket recursive filter) =>
      .erase startBucket recursive filter sequenceNumber
  | .adminCheck startBucket recursive key => .adminCheck key startBucket recursive sequenceNumber
  | .listDescriptions => .descriptionList sequenceNumber
  | .listPolicies bucket filter => .list bucket filter sequenceNumber

/-- What a code of the service is for the caller of the library. -/
def interpretCodeResponse (code : UInt16) : ApiCode :=
  if code = Code.OK.toUInt16 then .SUCCESS
  else if code = Code.NOT_ALLOWED.toUInt16 then .OPERATION_NOT_ALLOWED
  else if code = Code.NO_BUCKET.toUInt16 then .BUCKET_NOT_FOUND
  else if code = Code.NO_POLICY_TYPE.toUInt16 then .INVALID_PARAM
  else if code = Code.FAILED.toUInt16 then .OPERATION_FAILED
  else if code = Code.DB_CORRUPTED.toUInt16 then .DATABASE_CORRUPTED
  else .UNKNOWN_ERROR

/-- What a function returns for a response.  A response of another kind is an error. -/
def interpret : Function → ProtocolAdmin.Response → ApiCode × Output
  | .change _, .code code _ => (interpretCodeResponse code, .nothing)
  | .adminCheck _ _ _, .adminCheck result bucketValid dbCorrupted _ =>
      if dbCorrupted then (.DATABASE_CORRUPTED, .nothing)
      else if !bucketValid then (.BUCKET_NOT_FOUND, .nothing)
      else (.SUCCESS, .result result)
  | .listDescriptions, .descriptionList descriptions dbCorrupted _ =>
      if dbCorrupted then (.DATABASE_CORRUPTED, .nothing)
      else (.SUCCESS, .descriptions descriptions)
  | .listPolicies _ _, .list policies bucketValid dbCorrupted _ =>
      if dbCorrupted then (.DATABASE_CORRUPTED, .nothing)
      else if !bucketValid then (.BUCKET_NOT_FOUND, .nothing)
      else (.SUCCESS, .policies policies)
  | _, _ => (.UNKNOWN_ERROR, .nothing)

end OnlineLogic

/-! ### The library, offline -/

namespace OfflineLogic

/-- The exceptions that reach the functions: a database that cannot be read, and those that also
reach the handlers of the service. -/
inductive Exception where
  | databaseCorrupted
  | service (e : ServiceException)

/-- A load ends with the buckets or with an exception. -/
def acquireDatabase (loaded : Outcome LoadException Buckets) : Except Exception Buckets :=
  match loaded.thrown with
  | none => .ok loaded.state
  | some .database => .error .databaseCorrupted
  | some (.invalidBucketId id) => .error (.service (.storage (.invalidBucketId id)))

/-- The code for an exception, where the function catches it.  An erase does not catch the
exceptions of a save. -/
def catches : Request → Exception → Option ApiCode
  | _, .databaseCorrupted => some .DATABASE_CORRUPTED
  | .setPolicies _ _, .service (.storage (.bucketNotExists _)) => some .BUCKET_NOT_FOUND
  | .setPolicies _ _, .service .database => some .OPERATION_FAILED
  | .setPolicies _ _, .service (.unknownPolicyType _) => some .INVALID_PARAM
  | .insertOrUpdateBucket _ _, .service (.storage .defaultBucketSetNone) =>
      some .OPERATION_NOT_ALLOWED
  | .insertOrUpdateBucket _ _, .service (.storage (.invalidBucketId _)) =>
      some .OPERATION_NOT_ALLOWED
  | .insertOrUpdateBucket _ _, .service .database => some .OPERATION_FAILED
  | .insertOrUpdateBucket _ _, .service (.unknownPolicyType _) => some .INVALID_PARAM
  | .removeBucket _, .service (.storage (.bucketNotExists _)) => some .BUCKET_NOT_FOUND
  | .removeBucket _, .service (.storage .defaultBucketDeletion) => some .OPERATION_NOT_ALLOWED
  | .removeBucket _, .service .database => some .OPERATION_FAILED
  | .erase _ _ _, .service (.storage (.bucketNotExists _)) => some .BUCKET_NOT_FOUND
  | _, _ => none

/-- The functions that ask catch two exceptions. -/
def catchesAsked : Exception → Option ApiCode
  | .databaseCorrupted => some .DATABASE_CORRUPTED
  | .service (.storage (.bucketNotExists _)) => some .BUCKET_NOT_FOUND
  | _ => none

/-- The exceptions that are not caught end up in `tryCatch`. -/
def tryCatch (caught : Option ApiCode) : ApiCode := caught.getD .UNKNOWN_ERROR

variable {P : Type} (env : Admin.Surroundings P)

/-- The work on the buckets that have been loaded.  It is the same as in the service, as is
`onPoliciesChanged`, apart from the clients and plugins that are not there. -/
def work (s : Buckets) (request : Request) : Option (Outcome ServiceException Buckets) :=
  Logic.perform (env.service false) env.fuel s request

/-- What a function returns and writes, and the buckets that it has saved. -/
def call (loaded : Outcome LoadException Buckets) :
    Function → Option (ApiCode × Output × Option Buckets)
  | .change request =>
      match acquireDatabase loaded with
      | .error e => some (tryCatch (catches request e), .nothing, none)
      | .ok s =>
          (work env s request).map fun o =>
            match o.thrown with
            | none => (.SUCCESS, .nothing, some o.state)
            | some e => (tryCatch (catches request (.service e)), .nothing, none)
  | .adminCheck startBucket recursive key =>
      match acquireDatabase loaded with
      | .error e => some (tryCatch (catchesAsked e), .nothing, none)
      | .ok s =>
          (Storage.checkPolicy env.fuel env.order s key startBucket recursive).map fun
            | .ok result => (.SUCCESS, .result result, none)
            | .error e => (tryCatch (catchesAsked (.service (.storage e))), .nothing, none)
  | .listDescriptions =>
      some (.SUCCESS,
        .descriptions (predefinedPolicyDescr ++ env.plugins.getPolicyDescriptions), none)
  | .listPolicies bucket filter =>
      match acquireDatabase loaded with
      | .error e => some (tryCatch (catchesAsked e), .nothing, none)
      | .ok s =>
          match Storage.listPolicies env.order s bucket filter with
          | .ok policies => some (.SUCCESS, .policies policies, none)
          | .error e => some (tryCatch (catchesAsked (.service (.storage e))), .nothing, none)

end OfflineLogic

/-! ### Exceptions -/

namespace Logic

variable {env : Surroundings} {fuel : ℕ} {s : Buckets} {request : Request}
  {o : Outcome ServiceException Buckets} {e : ServiceException}

theorem eq_of_checkSinglePolicyType {policyType : PolicyType} {allowBucket allowNone : Bool}
    (h : checkSinglePolicyType env policyType allowBucket allowNone = some e) :
  e = .unknownPolicyType policyType
  := by
  unfold checkSinglePolicyType at h
  split at h
  · cases h
  split at h
  · cases h
  split at h
  · cases h
  split at h
  · cases h
  · exact (Option.some.inj h).symm

theorem eq_of_checkPoliciesTypes {policies : ExtTreeMap PolicyBucketId (List Policy)}
    {allowBucket allowNone : Bool}
    (h : checkPoliciesTypes env policies allowBucket allowNone = some e) :
  ∃ policyType, e = .unknownPolicyType policyType
  := by
  obtain ⟨group, -, hgroup⟩ := List.exists_of_findSome?_eq_some h
  obtain ⟨policy, -, hpolicy⟩ := List.exists_of_findSome?_eq_some hgroup
  exact ⟨_, eq_of_checkSinglePolicyType hpolicy⟩

theorem onPoliciesChanged_thrown_eq (h : (onPoliciesChanged env s).thrown = some e) :
  e = .database ∧ env.save = .databaseException ∨ e = .other ∧ env.save = .otherException
  := by
  unfold onPoliciesChanged at h
  split at h
  · cases h
  · rename_i hsave
    exact Or.inl ⟨(Option.some.inj h).symm, hsave⟩
  · rename_i hsave
    exact Or.inr ⟨(Option.some.inj h).symm, hsave⟩

/-- The exceptions of the work of a request, apart from those of the save. -/
def Raises : Request → ServiceException → Prop
  | .setPolicies _ _, e =>
      (∃ policyType, e = .unknownPolicyType policyType) ∨ ∃ id, e = .storage (.bucketNotExists id)
  | .insertOrUpdateBucket bucketId result, e =>
      e = .unknownPolicyType result.policyType ∨ e = .storage .defaultBucketSetNone
        ∨ e = .storage (.invalidBucketId bucketId)
  | .removeBucket bucketId, e =>
      e = .storage .defaultBucketDeletion ∨ e = .storage (.bucketNotExists bucketId)
  | .erase _ _ _, e => ∃ id, e = .storage (.bucketNotExists id)

theorem insertPolicies_thrown {inserted : ExtTreeMap PolicyBucketId (List Policy)}
    {e : StorageException} (h : (Storage.insertPolicies s inserted).thrown = some e) :
  ∃ id, e = .bucketNotExists id
  := by
  cases hgroups : Storage.checkGroups s inserted.toList with
  | some e' =>
      rw [Storage.insertPolicies_refused hgroups, Outcome.threw_thrown] at h
      rw [← Option.some.inj h]
      apply Storage.eq_of_checkGroups_eq_some hgroups
  | none =>
      rw [(Storage.insertPolicies_accepted hgroups).1] at h
      cases h

/-- The exceptions of a request to set policies: an unknown type, a missing bucket, and those of
the save. -/
theorem setPolicies_thrown {inserted : ExtTreeMap PolicyBucketId (List Policy)}
    {removed : ExtTreeMap PolicyBucketId (List PolicyKey)}
    (he : (setPolicies env inserted removed s).thrown = some e) :
  checkPoliciesTypes env inserted true false = some e
    ∨ (∃ id, e = .storage (.bucketNotExists id))
    ∨ e = .database ∧ env.save = .databaseException ∨ e = .other ∧ env.save = .otherException
  := by
  obtain he | ⟨_, -, he⟩ := Outcome.andThen_thrown_eq_some.mp he
  · obtain he | ⟨_, -, he⟩ := Outcome.andThen_thrown_eq_some.mp he
    · obtain he | ⟨_, -, he⟩ := Outcome.andThen_thrown_eq_some.mp he
      · exact Or.inl he
      · obtain ⟨e', he', rfl⟩ := Option.map_eq_some_iff.mp he
        obtain ⟨id, rfl⟩ := insertPolicies_thrown he'
        exact Or.inr (Or.inl ⟨id, rfl⟩)
    · obtain ⟨e', he', rfl⟩ := Option.map_eq_some_iff.mp he
      obtain ⟨id, rfl⟩ := (Storage.deletePolicies_spec _ removed).2.1 e' he'
      exact Or.inr (Or.inl ⟨id, rfl⟩)
  · exact Or.inr (Or.inr (onPoliciesChanged_thrown_eq he))

/-- A request ends with an exception of its own or of the save. -/
theorem perform_thrown (h : perform env fuel s request = some o) (he : o.thrown = some e) :
  Raises request e
    ∨ e = .database ∧ env.save = .databaseException ∨ e = .other ∧ env.save = .otherException
  := by
  cases request with
  | setPolicies inserted removed =>
      obtain rfl := Option.some.inj h
      obtain he | ⟨id, rfl⟩ | he := setPolicies_thrown he
      · exact Or.inl (Or.inl (eq_of_checkPoliciesTypes he))
      · exact Or.inl (Or.inr ⟨id, rfl⟩)
      · exact Or.inr he
  | insertOrUpdateBucket bucketId result =>
      obtain rfl := Option.some.inj h
      obtain he | ⟨_, -, he⟩ := Outcome.andThen_thrown_eq_some.mp he
      · left
        obtain he | ⟨_, -, he⟩ := Outcome.andThen_thrown_eq_some.mp he
        · exact Or.inl (eq_of_checkSinglePolicyType he)
        · obtain ⟨e', he', rfl⟩ := Option.map_eq_some_iff.mp he
          obtain ⟨-, refusal, hadd, hrefusal⟩ | ⟨-, ⟨b, -, hadd⟩ | ⟨hvalid, -, hadd⟩⟩ :=
            Storage.addOrUpdateBucket_cases _ bucketId result
          · rw [hadd] at he'
            obtain rfl := Option.some.inj he'
            obtain rfl | rfl := hrefusal
            · exact Or.inr (Or.inl rfl)
            · exact Or.inr (Or.inr rfl)
          · rw [hadd] at he'
            cases he'
          · rw [hadd] at he'
            cases he'
      · exact Or.inr (onPoliciesChanged_thrown_eq he)
  | removeBucket bucketId =>
      obtain rfl := Option.some.inj h
      obtain he | ⟨_, -, he⟩ := Outcome.andThen_thrown_eq_some.mp he
      · left
        obtain ⟨e', he', rfl⟩ := Option.map_eq_some_iff.mp he
        obtain ⟨-, hdelete⟩ | ⟨-, -, hdelete⟩ | ⟨-, -, hdelete⟩ :=
          Storage.deleteBucket_cases s bucketId
        · rw [hdelete] at he'
          obtain rfl := Option.some.inj he'
          exact Or.inl rfl
        · rw [hdelete] at he'
          obtain rfl := Option.some.inj he'
          exact Or.inr rfl
        · rw [hdelete] at he'
          cases he'
      · exact Or.inr (onPoliciesChanged_thrown_eq he)
  | erase startBucket recursive filter =>
      obtain ⟨o', ho', rfl⟩ := Option.map_eq_some_iff.mp h
      obtain he | ⟨_, -, he⟩ := Outcome.andThen_thrown_eq_some.mp he
      · left
        obtain ⟨e', he', rfl⟩ := Option.map_eq_some_iff.mp he
        obtain ⟨id, rfl, -⟩ := Storage.eraseLoop_thrown ho' he'
        exact ⟨id, rfl⟩
      · exact Or.inr (onPoliciesChanged_thrown_eq he)

/-- The handlers of both implementations catch the exceptions of the requests, and have the same
codes for them. -/
theorem catches_of_raises (h : Raises request e) :
  ∃ code, catches request e = some code
    ∧ OfflineLogic.catches request (.service e)
      = some (OnlineLogic.interpretCodeResponse code.toUInt16)
  := by
  cases request with
  | setPolicies inserted removed =>
      obtain ⟨policyType, rfl⟩ | ⟨id, rfl⟩ := h
      · exact ⟨_, rfl, rfl⟩
      · exact ⟨_, rfl, rfl⟩
  | insertOrUpdateBucket bucketId result =>
      obtain rfl | rfl | rfl := h
      · exact ⟨_, rfl, rfl⟩
      · exact ⟨_, rfl, rfl⟩
      · exact ⟨_, rfl, rfl⟩
  | removeBucket bucketId =>
      obtain rfl | rfl := h
      · exact ⟨_, rfl, rfl⟩
      · exact ⟨_, rfl, rfl⟩
  | erase startBucket recursive filter =>
      obtain ⟨id, rfl⟩ := h
      exact ⟨_, rfl, rfl⟩

/-- Where a save succeeds, every exception of a request is caught. -/
theorem catches_of_saved (hsave : env.save = .saved) (h : perform env fuel s request = some o)
    (he : o.thrown = some e) :
  ∃ code, catches request e = some code
    ∧ OfflineLogic.catches request (.service e)
      = some (OnlineLogic.interpretCodeResponse code.toUInt16)
  := by
  obtain hraises | ⟨-, hfailed⟩ | ⟨-, hfailed⟩ := perform_thrown h he
  · exact catches_of_raises hraises
  · rw [hsave] at hfailed
    cases hfailed
  · rw [hsave] at hfailed
    cases hfailed

end Logic

/-! ### The same answers -/

namespace Admin

variable {P : Type} {env : Surroundings P} {s : Buckets}

end Admin

/-- The search for the least result fails only where the search in a linked bucket does. -/
theorem Storage.exists_of_minimalLoop_error {sub : PolicyBucketId → Storage.Check}
    {recursive : Bool} {policies : List Policy} {hasMinimal : Bool} {minimal : PolicyResult}
    {e : StorageException}
    (h : Storage.minimalLoop sub recursive policies hasMinimal minimal = some (.error e)) :
  ∃ id, sub id = some (.error e)
  := by
  induction policies generalizing hasMinimal minimal with
  | nil => cases h
  | cons p policies ih =>
      unfold Storage.minimalLoop at h
      split at h
      · cases h
      split at h
      · split at h
        · split at h
          · split at h
            · apply ih h
            · apply ih h
          · exact ⟨p.result.metadata, h⟩
        · apply ih h
      · apply ih h

/-- A check throws only where a bucket does not exist. -/
theorem Storage.eq_of_checkPolicy_error {fuel : ℕ} {order : IterationOrder Str} {s : Buckets}
    {key : PolicyKey} {id : PolicyBucketId} {recursive : Bool} {e : StorageException}
    (h : Storage.checkPolicy fuel order s key id recursive = some (.error e)) :
  ∃ id, e = .bucketNotExists id
  := by
  induction fuel generalizing id recursive with
  | zero =>
      cases hb : s.find? id with
      | none =>
          simp only [Storage.checkPolicy, searchBucket, hb] at h
          cases h
          exact ⟨id, rfl⟩
      | some b =>
          simp only [Storage.checkPolicy, searchBucket, hb, Storage.minimalPolicy] at h
          cases h
  | succ fuel ih =>
      cases hb : s.find? id with
      | none =>
          simp only [Storage.checkPolicy, searchBucket, hb] at h
          cases h
          exact ⟨id, rfl⟩
      | some b =>
          rw [Storage.checkPolicy_succ hb] at h
          obtain ⟨y, hy⟩ := Storage.exists_of_minimalLoop_error h
          apply ih hy

namespace Admin

variable {P : Type} {env : Surroundings P} {s : Buckets}

/-- A function that asks has the same answer, and nothing is changed or saved. -/
theorem answer_question {f : Function} (hf : ∀ request, f ≠ .change request)
    (sequenceNumber : UInt16) {ret : ApiCode} {output : Output} {saved : Option Buckets}
    (h : OfflineLogic.call env (.returned s) f = some (ret, output, saved)) :
  saved = none ∧ ∃ response,
    Logic.answer env false s (OnlineLogic.request sequenceNumber f) = some (.responds response, s)
    ∧ response.sequenceNumber = sequenceNumber
    ∧ OnlineLogic.interpret f response = (ret, output)
  := by
  cases f with
  | change request => exact absurd rfl (hf request)
  | adminCheck startBucket recursive key =>
      obtain ⟨checked, hchecked, hresult⟩ := Option.map_eq_some_iff.mp h
      rw [Outcome.returned_state] at hchecked
      simp only [OnlineLogic.request, Logic.answer, Bool.false_eq_true, if_false, hchecked,
        Option.map_some]
      cases checked with
      | ok result =>
          cases hresult
          exact ⟨rfl, _, rfl, rfl, rfl⟩
      | error e =>
          obtain ⟨id, rfl⟩ := Storage.eq_of_checkPolicy_error hchecked
          cases hresult
          exact ⟨rfl, _, rfl, rfl, rfl⟩
  | listDescriptions =>
      cases h
      exact ⟨rfl, _, rfl, rfl, rfl⟩
  | listPolicies bucket filter =>
      simp only [OfflineLogic.call, OfflineLogic.acquireDatabase, Outcome.returned_thrown,
        Outcome.returned_state, Storage.listPolicies, InMemoryStorageBackend.listPolicies] at h
      simp only [OnlineLogic.request, Logic.answer, Bool.false_eq_true, if_false,
        Storage.listPolicies, InMemoryStorageBackend.listPolicies]
      cases hb : s.find? bucket with
      | some b =>
          simp only [hb] at h
          cases h
          exact ⟨rfl, _, rfl, rfl, rfl⟩
      | none =>
          simp only [hb] at h
          cases h
          exact ⟨rfl, _, rfl, rfl, rfl⟩

/-- A function that the service answers comes to its end offline too. -/
theorem call_of_answer_eq_some {f : Function} {sequenceNumber : UInt16}
    {answer : Reaction × Buckets}
    (h : Logic.answer env false s (OnlineLogic.request sequenceNumber f) = some answer) :
  ∃ result, OfflineLogic.call env (.returned s) f = some result
  := by
  cases f with
  | change request =>
      have hexecute : Logic.change env false s request sequenceNumber = some answer := by
        cases request with
        | _ => exact h
      obtain ⟨_, hexecuted, -⟩ := Option.map_eq_some_iff.mp hexecute
      obtain ⟨o, ho, -⟩ := Option.map_eq_some_iff.mp hexecuted
      exact ⟨_, Option.map_eq_some_iff.mpr ⟨o, ho, rfl⟩⟩
  | adminCheck startBucket recursive key =>
      obtain ⟨checked, hchecked, -⟩ := Option.map_eq_some_iff.mp h
      exact ⟨_, Option.map_eq_some_iff.mpr ⟨checked, hchecked, rfl⟩⟩
  | listDescriptions => exact ⟨_, rfl⟩
  | listPolicies bucket filter =>
      simp only [OfflineLogic.call, OfflineLogic.acquireDatabase, Outcome.returned_thrown,
        Outcome.returned_state]
      cases Storage.listPolicies env.order s bucket filter with
      | ok policies => exact ⟨_, rfl⟩
      | error e => exact ⟨_, rfl⟩

/-- No plugins, and a disk that can be written. -/
def calm : Surroundings Unit := ⟨⟨∅⟩, .sorted, 0, .saved⟩

/-- One plugin, and a disk that can be written. -/
def asking : Surroundings Unit := { calm with plugins := PluginManager.sample }

end Admin

end Cynara
