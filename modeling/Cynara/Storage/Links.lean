import Cynara.Library.Relations
import Cynara.Storage.Storage

/-!
# Links between buckets

A bucket links to the buckets named by its policies of type `BUCKET`.  The buckets are
finitely many, so where the links have no cycle, following them is well founded.
-/

open Std

namespace Cynara

open PredefinedPolicyType

namespace Buckets

/-- The bucket `x` exists and has a policy of type `BUCKET` that names `y`. -/
def Link (s : Buckets) (x y : PolicyBucketId) : Prop :=
  ∃ b, s.find? x = some b ∧ y ∈ b.getSubBuckets

/-- Every policy of type `BUCKET` names an existing bucket. -/
def NoDangling (s : Buckets) : Prop :=
  ∀ x y, s.Link x y → ∃ b, s.find? y = some b

/-- The links between the buckets have no cycle. -/
def Acyclic (s : Buckets) : Prop :=
  Relation.Acyclic s.Link

theorem link_of_mem {s : Buckets} {x : PolicyBucketId} {b : PolicyBucket} {p : Policy}
    (hb : s.find? x = some b) (hp : p ∈ b) (htype : p.result.policyType = BUCKET) :
  s.Link x p.result.metadata
  := by
  use b, hb
  rw [PolicyBucket.mem_getSubBuckets]
  use p, hp, htype

/-- The ids of the buckets. -/
def ids (s : Buckets) : Finset PolicyBucketId := s.map.keys.toFinset

theorem mem_ids {s : Buckets} {id : PolicyBucketId} :
  id ∈ s.ids ↔ ∃ b, s.find? id = some b
  := by
  simp only [ids, List.mem_toFinset, ExtTreeMap.mem_keys, find?,
    ExtTreeMap.mem_iff_isSome_getElem?, Option.isSome_iff_exists]

/-- Following links that have no cycle is well founded. -/
theorem Acyclic.wellFounded_link {s : Buckets} (h : s.Acyclic) :
  WellFounded (Function.swap s.Link)
  := by
  apply Relation.Acyclic.wellFounded h s.ids
  rintro x y ⟨b, hb, -⟩
  exact mem_ids.mpr ⟨b, hb⟩

/-! ### Deciding properties of the links -/

/-- What is to hold of every bucket is checked on the list of the buckets. -/
instance decidableForallBucket (s : Buckets) (P : PolicyBucketId → PolicyBucket → Prop)
    [∀ id b, Decidable (P id b)] : Decidable (∀ id b, s.find? id = some b → P id b) :=
  decidable_of_iff (∀ e ∈ s.map.toList, P e.1 e.2) <| by
    simp only [Prod.forall, ExtTreeMap.mem_toList_iff_getElem?_eq_some, find?]

instance (s : Buckets) (x y : PolicyBucketId) : Decidable (s.Link x y) :=
  decidable_of_iff ((s.find? x).any fun b => y ∈ b.getSubBuckets) <| by
    simp [Link, Option.any_eq_true]

theorem noDangling_iff {s : Buckets} :
  s.NoDangling ↔ ∀ x b, s.find? x = some b →
    ∀ p ∈ b, p.result.policyType = BUCKET → (s.find? p.result.metadata).isSome
  := by
  simp only [Option.isSome_iff_exists]
  constructor
  · intro h x b hb p hp htype
    apply h x _ (link_of_mem hb hp htype)
  · rintro h x y ⟨b, hb, hy⟩
    obtain ⟨p, hp, htype, rfl⟩ := PolicyBucket.mem_getSubBuckets.mp hy
    apply h x b hb p hp htype

instance (s : Buckets) : Decidable s.NoDangling :=
  decidable_of_iff _ noDangling_iff.symm

/-- Links that lower a rank have no cycle. -/
theorem acyclic_of_rank {s : Buckets} (rank : PolicyBucketId → ℕ)
    (h : ∀ x b, s.find? x = some b →
      ∀ p ∈ b, p.result.policyType = BUCKET → rank p.result.metadata < rank x) :
  s.Acyclic
  := by
  apply Relation.Acyclic.of_rank rank
  rintro x y ⟨b, hb, hy⟩
  obtain ⟨p, hp, htype, rfl⟩ := PolicyBucket.mem_getSubBuckets.mp hy
  apply h x b hb p hp htype

end Buckets

end Cynara
