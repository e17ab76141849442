import Cynara.Storage.Backend

/-!
# The storage

`checkPolicy` looks for the least result among the policies that match a key, following
the policies of type `BUCKET` into the buckets they link to.  The recursion has no bound
of its own, so it is given fuel, and `none` says that the fuel was used up.

The operations that change the storage act on the buckets and may throw.  A run of the
storage is a list of such operations; each of them starts from the buckets the previous
one left, whether that one returned or threw.
-/

open Std

namespace Cynara

open PredefinedPolicyType InMemoryStorageBackend

namespace Storage

/-! ### Checking a policy -/

/-- What a check comes to: its result or its exception, or `none` if it is still
running. -/
abbrev Check := Option (Except StorageException PolicyResult)

/-- The result kept when `candidate` is proposed. -/
def proposeMinimal (hasMinimal : Bool) (minimal candidate : PolicyResult) : PolicyResult :=
  if hasMinimal = false then candidate
  else if candidate.lt minimal then candidate
  else minimal

/-- The loop of `minimalPolicy` over the policies of a bucket; `sub` is the recursive
call on the bucket with a given id. -/
def minimalLoop (sub : PolicyBucketId → Check) (recursive : Bool) :
    List Policy → Bool → PolicyResult → Check
  | [], _, minimal => some (.ok minimal)
  | policy :: policies, hasMinimal, minimal =>
      if policy.result.policyType = DENY then
        -- no result is less than DENY
        some (.ok policy.result)
      else if policy.result.policyType = BUCKET then
        if recursive then
          match sub policy.result.metadata with
          | some (.ok minimumOfBucket) =>
              if minimumOfBucket.eqType NONE then
                minimalLoop sub recursive policies hasMinimal minimal
              else
                minimalLoop sub recursive policies true
                  (proposeMinimal hasMinimal minimal minimumOfBucket)
          | failed => failed
        else
          minimalLoop sub recursive policies hasMinimal minimal
      else
        minimalLoop sub recursive policies true
          (proposeMinimal hasMinimal minimal policy.result)

/-- The policies of a bucket in the order they are traversed. -/
def listing (order : IterationOrder Str) (b : PolicyBucket) : List Policy :=
  (order.entries b.policies).map Prod.snd

/-- The policies traversed are those of the bucket. -/
theorem mem_listing {order : IterationOrder Str} {b : PolicyBucket} {p : Policy} :
  p ∈ listing order b ↔ p ∈ b
  := by
  simp only [listing, List.mem_map, Prod.exists, exists_eq_right]
  constructor
  · rintro ⟨k, hk⟩
    rw [IterationOrder.mem_entries] at hk
    apply PolicyBucket.mem_of_getElem? hk
  · intro hp
    use p.key.glue
    rw [IterationOrder.mem_entries]
    exact hp

/-- The least of the policies that match, where a link counts as the result of its bucket. -/
def minimalPolicy (order : IterationOrder Str) (s : Buckets) (key : PolicyKey) :
    ℕ → PolicyBucket → Bool → Check
  | 0, _, _ => none
  | fuel + 1, bucket, recursive =>
      minimalLoop
        (fun id =>
          match searchBucket s id key with
          | .ok bucketResults => minimalPolicy order s key fuel bucketResults true
          | .error e => some (.error e))
        recursive (listing order bucket) false bucket.defaultPolicy

/-- `Storage::checkPolicy`, which starts in a given bucket. -/
def checkPolicy (fuel : ℕ) (order : IterationOrder Str) (s : Buckets) (key : PolicyKey)
    (startBucketId : PolicyBucketId) (recursive : Bool) : Check :=
  match searchBucket s startBucketId key with
  | .ok policies => minimalPolicy order s key fuel policies recursive
  | .error e => some (.error e)

/-! ### Changing the storage -/

/-- The exception `insertPolicies` throws for a policy that links to no bucket. -/
def pointedBucketExists (s : Buckets) (policy : Policy) : Option StorageException :=
  if policy.result.policyType = BUCKET && !hasBucket s policy.result.metadata then
    some (.bucketNotExists policy.result.metadata)
  else
    none

/-- The first exception `insertPolicies` throws before it inserts anything. -/
def checkGroups (s : Buckets) (groups : List (PolicyBucketId × List Policy)) :
    Option StorageException :=
  groups.findSome? fun group =>
    if hasBucket s group.1 then group.2.findSome? (pointedBucketExists s)
    else some (.bucketNotExists group.1)

/-- `Storage::insertPolicies`: all buckets are looked up before anything is inserted. -/
def insertPolicies (s : Buckets) (policiesByBucketId : ExtTreeMap PolicyBucketId (List Policy)) :
    Outcome StorageException Buckets :=
  match checkGroups s policiesByBucketId.toList with
  | some e => .threw e s
  | none =>
      .forEach (fun s group => .forEach (fun s policy => insertPolicy s group.1 policy) group.2 s)
        policiesByBucketId.toList s

/-- `Storage::deletePolicies`: what comes before a missing bucket has been removed. -/
def deletePolicies (s : Buckets) (keysByBucketId : ExtTreeMap PolicyBucketId (List PolicyKey)) :
    Outcome StorageException Buckets :=
  .forEach (fun s group => .forEach (fun s key => deletePolicy s group.1 key) group.2 s)
    keysByBucketId.toList s

/-- `Storage::addOrUpdateBucket`: `NONE` without metadata is refused for the default bucket. -/
def addOrUpdateBucket (s : Buckets) (id : PolicyBucketId) (defaultBucketPolicy : PolicyResult) :
    Outcome StorageException Buckets :=
  if id = defaultPolicyBucketId && defaultBucketPolicy.eqType NONE then
    .threw .defaultBucketSetNone s
  else if hasBucket s id then
    updateBucket s id defaultBucketPolicy
  else
    createBucket s id defaultBucketPolicy

/-- `Storage::deleteBucket`: the default bucket stays, and no link leads to the bucket afterwards.
-/
def deleteBucket (s : Buckets) (id : PolicyBucketId) : Outcome StorageException Buckets :=
  if id = defaultPolicyBucketId then
    .threw .defaultBucketDeletion s
  else
    InMemoryStorageBackend.deleteBucket (deleteLinking s id) id

def listPolicies (order : IterationOrder Str) (s : Buckets) (id : PolicyBucketId)
    (filter : PolicyKey) : Except StorageException (List Policy) :=
  InMemoryStorageBackend.listPolicies order s id filter

def erasePolicies (fuel : ℕ) (s : Buckets) (id : PolicyBucketId) (recursive : Bool)
    (filter : PolicyKey) : Option (Outcome StorageException Buckets) :=
  InMemoryStorageBackend.erasePolicies fuel s id recursive filter

/-- The storage that holds the default bucket only. -/
def initial : Buckets :=
  Buckets.put ⟨∅, Buckets.keyed_empty⟩
    (PolicyBucket.empty defaultPolicyBucketId {} idValidator_defaultPolicyBucketId)

end Storage

end Cynara
