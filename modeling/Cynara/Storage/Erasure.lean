import Cynara.Storage.Consistency

/-!
# What an erase leaves

An erase that returns has treated the bucket it started in or, if it is recursive, all the buckets
that are reached from there over the links that there were at the start.  A bucket may be treated
more than once, and a link is deleted if it matches the filter; but the links of a bucket are
followed before its policies are deleted for the first time, so that no bucket is missed.

The buckets that have been treated keep the policies that do not match the filter, and the other
buckets keep all.
-/

open Std

namespace Cynara

open PredefinedPolicyType InMemoryStorageBackend

/-- Each policy is listed once. -/
theorem PolicyBucket.nodup_entries (order : IterationOrder Str) (b : PolicyBucket) :
  ((order.entries b.policies).map Prod.snd).Nodup
  := by
  have hentries : (order.entries b.policies).Nodup := by
    apply (order.perm b.policies).nodup_iff.mpr
    apply b.policies.distinct_keys_toList.imp
    rintro e _ hne rfl
    exact hne Std.ReflCmp.compare_self
  apply List.Nodup.map_on _ hentries
  rintro ⟨k, p⟩ hk ⟨k', p'⟩ hk' heq
  obtain rfl : p = p' := heq
  rw [b.glued k p ((order.mem_entries _ _ _).mp hk),
    b.glued k' p ((order.mem_entries _ _ _).mp hk')]

/-- To delete the same policies again deletes nothing. -/
theorem PolicyBucket.deletePolicyIf_deletePolicyIf (b : PolicyBucket)
    (predicate : Policy → Bool) :
  (b.deletePolicyIf predicate).deletePolicyIf predicate = b.deletePolicyIf predicate
  := by
  apply PolicyBucket.ext_getElem?
  · rfl
  · rfl
  intro k
  simp [PolicyBucket.deletePolicyIf, Option.filter_filter]

/-- A listing after policies have been deleted is the listing before, without these policies. -/
theorem PolicyBucket.listPolicies_perm {b b' : PolicyBucket} {predicate : Policy → Bool}
    (h : ∀ p, p ∈ b' ↔ p ∈ b ∧ predicate p = false) (order order' : IterationOrder Str)
    (filter : PolicyKey) :
  (b'.listPolicies order' filter).Perm
    ((b.listPolicies order filter).filter fun p => !predicate p)
  := by
  have hmem : ∀ (order : IterationOrder Str) (b : PolicyBucket) p,
      p ∈ (order.entries b.policies).map Prod.snd ↔ p ∈ b := fun _ _ _ => Storage.mem_listing
  rw [List.perm_ext_iff_of_nodup]
  · intro p
    simp only [PolicyBucket.listPolicies, List.mem_filter, hmem, h, Bool.not_eq_true']
    tauto
  · exact (PolicyBucket.nodup_entries order' b').filter _
  · exact ((PolicyBucket.nodup_entries order b).filter _).filter _

namespace Storage

variable {s : Buckets} {recursive : Bool} {filter : PolicyKey} {fuel : ℕ}
  {ids : ExtTreeSet PolicyBucketId} {o : Outcome StorageException Buckets}

/-- The buckets that the loop treats, in their order. -/
def treated (recursive : Bool) (filter : PolicyKey) :
    ℕ → ExtTreeSet PolicyBucketId → Buckets → List PolicyBucketId
  | 0, _, _ => []
  | fuel + 1, ids, s =>
      match ids.min? with
      | none => []
      | some id =>
          match s.find? id with
          | none => []
          | some b =>
              id :: treated recursive filter fuel (nextIds recursive ids id b) (eraseAt filter s b)

theorem treated_succ {id : PolicyBucketId} {b : PolicyBucket} (hmin : ids.min? = some id)
    (hb : s.find? id = some b) :
  treated recursive filter (fuel + 1) ids s =
    id :: treated recursive filter fuel (nextIds recursive ids id b) (eraseAt filter s b)
  := by
  simp only [treated, hmin, hb]

theorem treated_of_empty (hempty : ∀ x, x ∉ ids) :
  treated recursive filter (fuel + 1) ids s = []
  := by
  cases hmin : ids.min? with
  | none => simp only [treated, hmin]
  | some id => exact absurd (ExtTreeSet.min?_mem hmin) (hempty id)

/-- The loop treats the buckets that are reached over the links that there are at its start. -/
theorem mem_treated (h : eraseLoop recursive filter fuel ids s = some o) (ho : o.thrown = none)
    {x : PolicyBucketId} :
  x ∈ treated recursive filter fuel ids s ↔ Reach s recursive ids x
  := by
  induction fuel generalizing ids s with
  | zero => contradiction
  | succ fuel ih =>
      obtain ⟨hempty, rfl⟩ | ⟨id, hmin, hb, rfl⟩ | ⟨id, b, hmin, hb, h⟩ := eraseLoop_cases h
      · rw [treated_of_empty hempty]
        simp [not_reach_of_empty hempty x]
      · contradiction
      · rw [treated_succ hmin hb, List.mem_cons, ih h]
        have hid : id ∈ ids := ExtTreeSet.min?_mem hmin
        constructor
        · rintro (rfl | hx)
          · exact .of_mem hid
          · exact hx.of_nextIds filter hid hb
        · exact fun hx => hx.nextIds filter hb

theorem find?_eraseAt {id : PolicyBucketId} {b : PolicyBucket} (hb : s.find? id = some b)
    (x : PolicyBucketId) :
  (eraseAt filter s b).find? x =
    if id = x then (s.find? x).map fun b => b.deletePolicyIf fun p => p.key.matchFilter filter
    else s.find? x
  := by
  have hid : b.id = id := Buckets.id_of_find? hb
  rw [eraseAt, Buckets.find?_put,
    show (b.deletePolicyIf fun p => p.key.matchFilter filter).id = id from hid]
  split
  · rename_i heq
    rw [← heq, hb, Option.map_some]
  · rfl

/-- The buckets that are left.  To treat a bucket again deletes nothing more. -/
theorem find?_eraseLoop (h : eraseLoop recursive filter fuel ids s = some o)
    (ho : o.thrown = none) (x : PolicyBucketId) :
  o.state.find? x =
    if x ∈ treated recursive filter fuel ids s then
      (s.find? x).map fun b => b.deletePolicyIf fun p => p.key.matchFilter filter
    else s.find? x
  := by
  induction fuel generalizing ids s with
  | zero => contradiction
  | succ fuel ih =>
      obtain ⟨hempty, rfl⟩ | ⟨id, hmin, hb, rfl⟩ | ⟨id, b, hmin, hb, h⟩ := eraseLoop_cases h
      · simp [treated_of_empty hempty]
      · contradiction
      · rw [treated_succ hmin hb, ih h, find?_eraseAt hb]
        by_cases hx : id = x
        · subst hx
          simp [Function.comp_def, PolicyBucket.deletePolicyIf_deletePolicyIf]
        · simp [hx, Ne.symm hx]

/-! ### Erasing -/

/-- An erase that starts at an existing bucket, where no link is dangling, treats the bucket it
starts at or all that are reached from there before it.  They keep the policies that do not match
the filter, and everything else stays as it was. -/
theorem erasePolicies_erases (hs : s.NoDangling) {id : PolicyBucketId}
    (hid : hasBucket s id = true)
    (h : erasePolicies fuel s id recursive filter = some o) :
  let R := treated recursive filter fuel (ExtTreeSet.ofList [id]) s
  o.thrown = none
    ∧ (∀ x, x ∈ R ↔ if recursive then Relation.ReflTransGen s.Link id x else x = id)
    ∧ (∀ x ∈ R, ∃ b b', s.find? x = some b ∧ o.state.find? x = some b'
      ∧ ∀ p, p ∈ b' ↔ p ∈ b ∧ p.key.matchFilter filter = false)
    ∧ (∀ x ∉ R, o.state.find? x = s.find? x)
    ∧ (∀ x, o.state.default? x = s.default? x)
    ∧ ∀ x ∈ R, ∀ (g : PolicyKey) (order order' : IterationOrder Str), ∃ before after,
      listPolicies order s x g = .ok before ∧ listPolicies order' o.state x g = .ok after
        ∧ after.Perm (before.filter fun p => !p.key.matchFilter filter)
  := by
  intro R
  have ho := erasePolicies_returned hs hid h
  have hreach : ∀ x, x ∈ R ↔ if recursive then Relation.ReflTransGen s.Link id x else x = id := by
    intro x
    rw [mem_treated h ho]
    cases recursive with
    | false => simp [Reach, @eq_comm _ x id]
    | true => simp [Reach]
  -- the treated buckets exist, since what is reached over the links does
  have hbucket : ∀ x ∈ R, ∃ b, s.find? x = some b
      ∧ o.state.find? x = some (b.deletePolicyIf fun p => p.key.matchFilter filter) := by
    intro x hx
    have hexists : InMemoryStorageBackend.hasBucket s x = true := by
      apply ((mem_treated h ho).mp hx).hasBucket hs
      intro y hy
      obtain rfl : id = y := by simpa using hy
      exact hid
    obtain ⟨b, hb⟩ := hasBucket_iff.mp hexists
    use b, hb
    rw [find?_eraseLoop h ho, if_pos hx, hb, Option.map_some]
  refine ⟨ho, hreach, ?_, ?_, (eraseLoop_within h).1, ?_⟩
  · intro x hx
    obtain ⟨b, hb, hb'⟩ := hbucket x hx
    refine ⟨b, _, hb, hb', fun p => ?_⟩
    exact PolicyBucket.mem_deletePolicyIf
  · intro x hx
    rw [find?_eraseLoop h ho, if_neg hx]
  · intro x hx g order order'
    obtain ⟨b, hb, hb'⟩ := hbucket x hx
    let b' := b.deletePolicyIf fun p => p.key.matchFilter filter
    refine ⟨b.listPolicies order g, b'.listPolicies order' g, ?_, ?_, ?_⟩
    · rw [listPolicies, InMemoryStorageBackend.listPolicies, hb]
    · rw [listPolicies, InMemoryStorageBackend.listPolicies, hb']
    · apply PolicyBucket.listPolicies_perm
      intro p
      exact PolicyBucket.mem_deletePolicyIf

/-- The default bucket and a second one that link to each other. -/
def circular : Buckets :=
  let target : PolicyBucketId := Str.ofString "target"
  forwarding.put ((PolicyBucket.empty target ⟨ALLOW, []⟩ idValidator_target).insertPolicy
    ⟨⟨[], [], PolicyKeyFeature.wildcardValue⟩, ⟨BUCKET, defaultPolicyBucketId⟩⟩)

/-- The second bucket is treated though the link to it is erased first. -/
theorem erasePolicies_erases_circular :
  let all : PolicyKey :=
    ⟨PolicyKeyFeature.wildcardValue, PolicyKeyFeature.wildcardValue, PolicyKeyFeature.anyValue⟩
  ∃ o, erasePolicies 4 circular defaultPolicyBucketId true all = some o
    ∧ o.thrown = none
    ∧ (∀ x, x ∈ treated true all 4 (ExtTreeSet.ofList [defaultPolicyBucketId]) circular ↔
      Relation.ReflTransGen circular.Link defaultPolicyBucketId x)
    ∧ ∀ x, o.state.default? x = circular.default? x
  := by
  intro all
  have hreturns : (erasePolicies 4 circular defaultPolicyBucketId true all).isSome = true := by
    simp only [erasePolicies, InMemoryStorageBackend.erasePolicies, eraseLoop,
      ExtTreeSet.min?_eq_head?_toList]
    decide +kernel
  obtain ⟨o, ho⟩ := Option.isSome_iff_exists.mp hreturns
  have hs : circular.NoDangling := by decide +kernel
  obtain ⟨hreturned, hreach, -, -, hdefault, -⟩ := erasePolicies_erases hs (by decide +kernel) ho
  exact ⟨o, ho, hreturned, hreach, hdefault⟩

end Storage

end Cynara
