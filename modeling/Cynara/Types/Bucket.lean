import Cynara.Library.Maps
import Cynara.Types.Policy

/-!
# Buckets of policies

A bucket has an id, a default policy and policies stored under their glued keys.  The
bytes of an id are letters, digits and id separators; `strchr` also finds the
terminating zero of the separators, so the byte `0` is one of them.

The sections follow the operations of a bucket: the policies a key is filtered to are
those whose keys cover it, and the other operations are described by their effect on
a lookup.
-/

open Std

namespace Cynara

open PolicyKeyHelpers PredefinedPolicyType

/-- `std::isalnum` in the C locale. -/
def isalnum (c : UInt8) : Bool :=
  (48 ≤ c && c ≤ 57) || (65 ≤ c && c ≤ 90) || (97 ≤ c && c ≤ 122)

/-- `strchr("-_", c) != nullptr`. -/
def isIdSeparator (c : UInt8) : Bool :=
  c == 45 || c == 95 || c == 0

/-- The ids that `idValidator` does not reject. -/
def idValidator (id : PolicyBucketId) : Bool :=
  id.all fun c => isalnum c || isIdSeparator c

theorem idValidator_defaultPolicyBucketId :
  idValidator defaultPolicyBucketId = true
  := rfl

/-- A bucket.  Its policies are stored under their glued keys. -/
structure PolicyBucket where
  policies : ExtTreeMap Str Policy
  defaultPolicy : PolicyResult
  id : PolicyBucketId
  glued : ∀ (k : Str) (p : Policy), policies[k]? = some p → k = p.key.glue
  valid : idValidator id = true
deriving DecidableEq

namespace PolicyBucket

/-- The bucket with no policies. -/
def empty (id : PolicyBucketId) (defaultPolicy : PolicyResult) (valid : idValidator id = true) :
    PolicyBucket where
  policies := ∅
  defaultPolicy := defaultPolicy
  id := id
  glued := by simp
  valid := valid

/-- Buckets with the same contents are equal. -/
theorem ext_getElem? {b c : PolicyBucket} (hid : b.id = c.id)
    (hdefault : b.defaultPolicy = c.defaultPolicy)
    (hpolicies : ∀ k : Str, b.policies[k]? = c.policies[k]?) :
  b = c
  := by
  obtain ⟨_, _, _, _, _⟩ := b
  obtain ⟨_, _, _, _, _⟩ := c
  obtain rfl := ExtTreeMap.ext_getElem? hpolicies
  obtain rfl := hid
  obtain rfl := hdefault
  rfl

/-- A policy is in a bucket. -/
instance : Membership Policy PolicyBucket where
  mem b p := b.policies[p.key.glue]? = some p

instance (p : Policy) (b : PolicyBucket) : Decidable (p ∈ b) :=
  inferInstanceAs (Decidable (b.policies[p.key.glue]? = some p))

theorem mem_def {p : Policy} {b : PolicyBucket} :
  p ∈ b ↔ b.policies[p.key.glue]? = some p
  := Iff.rfl

/-- The policies of a bucket are the values of its map. -/
theorem mem_of_getElem? {b : PolicyBucket} {k : Str} {p : Policy} (h : b.policies[k]? = some p) :
  p ∈ b
  := by
  rw [mem_def, ← b.glued k p h, h]

/-- What is to hold of every policy of a bucket is checked on the list of its policies. -/
instance decidableForallPolicy (b : PolicyBucket) (P : Policy → Prop) [DecidablePred P] :
    Decidable (∀ p ∈ b, P p) :=
  decidable_of_iff (∀ e ∈ b.policies.toList, P e.2) <| by
    simp only [Prod.forall, ExtTreeMap.mem_toList_iff_getElem?_eq_some]
    constructor
    · intro h p hp
      exact h _ p hp
    · intro h k p hp
      exact h p (mem_of_getElem? hp)

/-! ### Filtering by a key -/

/-- The suffix of the id of a filtered bucket. -/
def filteredSuffix : Str := Str.ofString "_filtered"

/-- The bucket of the policies found under the variants of a key, with the same default
policy. -/
def filtered (b : PolicyBucket) (key : PolicyKey) : PolicyBucket where
  policies := b.policies.restrict (keyVariants key)
  defaultPolicy := b.defaultPolicy
  id := b.id ++ filteredSuffix
  glued k p h := by
    rw [ExtTreeMap.getElem?_restrict] at h
    split at h
    · apply b.glued k p h
    · contradiction
  valid := by
    have hsuffix : idValidator filteredSuffix = true := by decide
    simp only [idValidator, List.all_append, Bool.and_eq_true]
    exact ⟨b.valid, hsuffix⟩

/-- A bucket is filtered to the policies whose keys cover the given key. -/
theorem mem_filtered {b : PolicyBucket} {key : PolicyKey} {p : Policy} :
  p ∈ b.filtered key ↔ p ∈ b ∧ p.key.Covers key
  := by
  rw [mem_def, mem_def, ← glue_mem_keyVariants]
  simp only [filtered, ExtTreeMap.getElem?_restrict]
  split <;> simp_all

/-! ### Inserting and deleting policies -/

/-- Store a policy under its glued key. -/
def insertPolicy (b : PolicyBucket) (policy : Policy) : PolicyBucket where
  policies := b.policies.insert policy.key.glue policy
  defaultPolicy := b.defaultPolicy
  id := b.id
  glued k p h := by
    rw [ExtTreeMap.getElem?_insert] at h
    split at h
    · simp_all
    · apply b.glued k p h
  valid := b.valid

/-- Delete the policy stored under a glued key. -/
def deletePolicy (b : PolicyBucket) (key : PolicyKey) : PolicyBucket where
  policies := b.policies.erase key.glue
  defaultPolicy := b.defaultPolicy
  id := b.id
  glued k p h := by
    rw [ExtTreeMap.getElem?_erase] at h
    split at h
    · contradiction
    · apply b.glued k p h
  valid := b.valid

/-- Delete the policies that satisfy a predicate. -/
def deletePolicyIf (b : PolicyBucket) (predicate : Policy → Bool) : PolicyBucket where
  policies := b.policies.filter fun _ p => !predicate p
  defaultPolicy := b.defaultPolicy
  id := b.id
  glued k p h := by
    rw [ExtTreeMap.getElem?_filter'] at h
    apply b.glued k p
    exact (Option.filter_eq_some_iff.mp h).1
  valid := b.valid

/-- Replace the default policy. -/
def setDefaultPolicy (b : PolicyBucket) (defaultPolicy : PolicyResult) : PolicyBucket :=
  { b with defaultPolicy := defaultPolicy }

theorem mem_insertPolicy {b : PolicyBucket} {policy p : Policy} :
  p ∈ b.insertPolicy policy ↔ p = policy ∨ p ∈ b ∧ p.key ≠ policy.key
  := by
  rw [mem_def, mem_def]
  simp only [insertPolicy, ExtTreeMap.getElem?_insert, Std.compare_eq_iff_eq]
  split
  · rename_i h
    have hkey := PolicyKey.glue_injective h
    simp [hkey, eq_comm]
  · rename_i h
    have hkey : p.key ≠ policy.key := fun heq => h (by rw [heq])
    have hne : p ≠ policy := fun heq => hkey (by rw [heq])
    simp [hkey, hne]

theorem mem_deletePolicy {b : PolicyBucket} {key : PolicyKey} {p : Policy} :
  p ∈ b.deletePolicy key ↔ p ∈ b ∧ p.key ≠ key
  := by
  rw [mem_def, mem_def]
  simp only [deletePolicy, ExtTreeMap.getElem?_erase, Std.compare_eq_iff_eq]
  split
  · rename_i h
    simp [PolicyKey.glue_injective h]
  · rename_i h
    have hkey : p.key ≠ key := fun heq => h (by rw [heq])
    simp [hkey]

theorem mem_deletePolicyIf {b : PolicyBucket} {predicate : Policy → Bool} {p : Policy} :
  p ∈ b.deletePolicyIf predicate ↔ p ∈ b ∧ predicate p = false
  := by
  rw [mem_def, mem_def]
  simp [deletePolicyIf, Option.filter_eq_some_iff]

/-- The policies whose keys match a filter, in the order they are traversed. -/
def listPolicies (order : IterationOrder Str) (b : PolicyBucket) (filter : PolicyKey) :
    List Policy :=
  ((order.entries b.policies).map Prod.snd).filter fun p => p.key.matchFilter filter

/-! ### Links -/

/-- The ids of the buckets a bucket links to. -/
def getSubBuckets (b : PolicyBucket) : ExtTreeSet PolicyBucketId :=
  ExtTreeSet.ofList
    ((b.policies.toList.filter fun e => e.2.result.policyType == BUCKET).map
      fun e => e.2.result.metadata)

theorem mem_getSubBuckets {b : PolicyBucket} {id : PolicyBucketId} :
  id ∈ b.getSubBuckets
    ↔ ∃ p ∈ b, p.result.policyType = BUCKET ∧ p.result.metadata = id
  := by
  simp only [getSubBuckets, ExtTreeSet.mem_ofList, List.contains_eq_mem, List.mem_map,
    List.mem_filter, beq_iff_eq, decide_eq_true_eq, Prod.exists,
    ExtTreeMap.mem_toList_iff_getElem?_eq_some]
  constructor
  · rintro ⟨k, p, ⟨hp, htype⟩, hid⟩
    use p, mem_of_getElem? hp
  · rintro ⟨p, hp, htype, hid⟩
    use p.key.glue, p, ⟨hp, htype⟩

end PolicyBucket

end Cynara
