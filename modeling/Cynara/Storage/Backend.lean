import Cynara.Library.Outcome
import Cynara.Types.Bucket

/-!
# The in-memory backend of the storage

The backend holds the buckets by their ids.  An operation that throws leaves behind what
it did before.  The loop of `erasePolicies` takes buckets from a work list until it is
empty; it keeps no record of the buckets it has been to, so it is given fuel, and `none`
says that it is still running when the fuel is used up.
-/

open Std

namespace Cynara

open PredefinedPolicyType

/-- The exceptions of the storage. -/
inductive StorageException where
  | bucketNotExists (id : PolicyBucketId)
  | defaultBucketDeletion
  | defaultBucketSetNone
  | invalidBucketId (id : PolicyBucketId)
deriving DecidableEq

/-- The buckets of a storage, each under its own id. -/
structure Buckets where
  map : ExtTreeMap PolicyBucketId PolicyBucket
  keyed : ∀ (id : PolicyBucketId) (b : PolicyBucket), map[id]? = some b → b.id = id
deriving DecidableEq

namespace Buckets

theorem keyed_empty (id : PolicyBucketId) (b : PolicyBucket)
    (h : (∅ : ExtTreeMap PolicyBucketId PolicyBucket)[id]? = some b) :
  b.id = id
  := by
  simp at h

/-- The bucket with a given id. -/
def find? (s : Buckets) (id : PolicyBucketId) : Option PolicyBucket := s.map[id]?

/-- Put a bucket under its id. -/
def put (s : Buckets) (b : PolicyBucket) : Buckets where
  map := s.map.insert b.id b
  keyed id c h := by
    rw [ExtTreeMap.getElem?_insert] at h
    split at h
    · simp_all
    · apply s.keyed id c h

/-- Remove the bucket with a given id. -/
def remove (s : Buckets) (id : PolicyBucketId) : Buckets where
  map := s.map.erase id
  keyed id c h := by
    rw [ExtTreeMap.getElem?_erase] at h
    split at h
    · contradiction
    · apply s.keyed id c h

/-- Delete the policies that satisfy a predicate from every bucket. -/
def deletePolicyIf (s : Buckets) (predicate : Policy → Bool) : Buckets where
  map := s.map.map fun _ b => b.deletePolicyIf predicate
  keyed id c h := by
    rw [ExtTreeMap.getElem?_map, Option.map_eq_some_iff] at h
    obtain ⟨b, hb, rfl⟩ := h
    apply s.keyed id b hb

theorem id_of_find? {s : Buckets} {id : PolicyBucketId} {b : PolicyBucket}
    (h : s.find? id = some b) :
  b.id = id
  := s.keyed id b h

@[ext]
theorem ext {s t : Buckets} (h : ∀ id, s.find? id = t.find? id) :
  s = t
  := by
  obtain ⟨m, hm⟩ := s
  obtain ⟨n, hn⟩ := t
  obtain rfl : m = n := ExtTreeMap.ext_getElem? h
  rfl

@[simp]
theorem find?_put (s : Buckets) (b : PolicyBucket) (id : PolicyBucketId) :
  (s.put b).find? id = if b.id = id then some b else s.find? id
  := by
  simp [find?, put, ExtTreeMap.getElem?_insert]

theorem find?_put_self (s : Buckets) (b : PolicyBucket) :
  (s.put b).find? b.id = some b
  := by
  rw [find?_put, if_pos rfl]

@[simp]
theorem find?_remove (s : Buckets) (id id' : PolicyBucketId) :
  (s.remove id).find? id' = if id = id' then none else s.find? id'
  := by
  simp [find?, remove, ExtTreeMap.getElem?_erase]

@[simp]
theorem find?_deletePolicyIf (s : Buckets) (predicate : Policy → Bool) (id : PolicyBucketId) :
  (s.deletePolicyIf predicate).find? id = (s.find? id).map fun b => b.deletePolicyIf predicate
  := by
  simp [find?, deletePolicyIf, ExtTreeMap.getElem?_map]

end Buckets

/-! ### Operations of the backend -/

namespace InMemoryStorageBackend

/-- There is a bucket with this name. -/
def hasBucket (s : Buckets) (id : PolicyBucketId) : Bool :=
  (s.find? id).isSome

/-- The bucket with a given id, filtered by a key. -/
def searchBucket (s : Buckets) (id : PolicyBucketId) (key : PolicyKey) :
    Except StorageException PolicyBucket :=
  match s.find? id with
  | some b => .ok (b.filtered key)
  | none => .error (.bucketNotExists id)

/-- Change the bucket with a given id by `f`, which throws if there is none. -/
def atBucket (s : Buckets) (id : PolicyBucketId) (f : PolicyBucket → PolicyBucket) :
    Outcome StorageException Buckets :=
  match s.find? id with
  | some b => .returned (s.put (f b))
  | none => .threw (.bucketNotExists id) s

/-- A policy replaces the one with the same key. -/
def insertPolicy (s : Buckets) (id : PolicyBucketId) (policy : Policy) :
    Outcome StorageException Buckets :=
  atBucket s id fun b => b.insertPolicy policy

/-- The default policy of a bucket is replaced. -/
def updateBucket (s : Buckets) (id : PolicyBucketId) (defaultPolicy : PolicyResult) :
    Outcome StorageException Buckets :=
  atBucket s id fun b => b.setDefaultPolicy defaultPolicy

/-- The policy with this key is removed, if there is one. -/
def deletePolicy (s : Buckets) (id : PolicyBucketId) (key : PolicyKey) :
    Outcome StorageException Buckets :=
  atBucket s id fun b => b.deletePolicy key

/-- The constructor of the new bucket rejects an invalid id; a bucket that exists
already is not replaced. -/
def createBucket (s : Buckets) (id : PolicyBucketId) (defaultPolicy : PolicyResult) :
    Outcome StorageException Buckets :=
  if h : idValidator id = true then
    .returned (if hasBucket s id then s else s.put (PolicyBucket.empty id defaultPolicy h))
  else
    .threw (.invalidBucketId id) s

/-- A bucket is removed with its policies. -/
def deleteBucket (s : Buckets) (id : PolicyBucketId) : Outcome StorageException Buckets :=
  match s.find? id with
  | some _ => .returned (s.remove id)
  | none => .threw (.bucketNotExists id) s

/-- A policy is of type `BUCKET` and its metadata is the given id. -/
def bucketIdMatches (id : PolicyBucketId) (policy : Policy) : Bool :=
  policy.result.policyType == BUCKET && policy.result.metadata == id

/-- All links to a bucket are removed. -/
def deleteLinking (s : Buckets) (id : PolicyBucketId) : Buckets :=
  s.deletePolicyIf (bucketIdMatches id)

/-- The policies of a bucket that match the filter. -/
def listPolicies (order : IterationOrder Str) (s : Buckets) (id : PolicyBucketId)
    (filter : PolicyKey) : Except StorageException (List Policy) :=
  match s.find? id with
  | some b => .ok (b.listPolicies order filter)
  | none => .error (.bucketNotExists id)

/-- The loop of `erasePolicies` with the work list `ids`. -/
def eraseLoop (recursive : Bool) (filter : PolicyKey) :
    ℕ → ExtTreeSet PolicyBucketId → Buckets → Option (Outcome StorageException Buckets)
  | 0, _, _ => none
  | fuel + 1, ids, s =>
      match ids.min? with
      | none => some (.returned s)
      | some id =>
          match s.find? id with
          | none => some (.threw (.bucketNotExists id) s)
          | some b =>
              let rest := ids.erase id
              eraseLoop recursive filter fuel
                (if recursive then rest ∪ b.getSubBuckets else rest)
                (s.put (b.deletePolicyIf fun p => p.key.matchFilter filter))

/-- The policies that match the filter are erased, along the links too if this is wanted. -/
def erasePolicies (fuel : ℕ) (s : Buckets) (id : PolicyBucketId) (recursive : Bool)
    (filter : PolicyKey) : Option (Outcome StorageException Buckets) :=
  eraseLoop recursive filter fuel (ExtTreeSet.ofList [id]) s

end InMemoryStorageBackend

end Cynara
