import Cynara.Storage.Links

/-!
# What the operations do to the entries of a storage

A storage is determined by the default policies of its buckets and by the policy that
each of them holds for each key, `lookup`.  Every operation is described by what it does
to these: the inserted policies replace those with the same keys, the deleted keys lose
their policies, up to the first bucket that does not exist.
-/

open Std

namespace Cynara

open PredefinedPolicyType InMemoryStorageBackend

/-! ### Entries -/

namespace Buckets

/-- The policy that a bucket holds for a key. -/
def lookup (s : Buckets) (id : PolicyBucketId) (key : PolicyKey) : Option Policy :=
  (s.find? id).bind fun b => b.policies[key.glue]?

/-- The default policy of a bucket. -/
def default? (s : Buckets) (id : PolicyBucketId) : Option PolicyResult :=
  (s.find? id).map PolicyBucket.defaultPolicy

theorem lookup_eq_some {s : Buckets} {id : PolicyBucketId} {key : PolicyKey} {p : Policy} :
  s.lookup id key = some p ↔ ∃ b, s.find? id = some b ∧ p ∈ b ∧ p.key = key
  := by
  simp only [lookup, Option.bind_eq_some_iff]
  constructor
  · rintro ⟨b, hb, hp⟩
    have hkey := PolicyKey.glue_injective (b.glued _ _ hp)
    use b, hb, PolicyBucket.mem_of_getElem? hp, hkey.symm
  · rintro ⟨b, hb, hp, rfl⟩
    use b, hb, hp

theorem key_of_lookup {s : Buckets} {id : PolicyBucketId} {key : PolicyKey} {p : Policy}
    (h : s.lookup id key = some p) :
  p.key = key
  := by
  obtain ⟨_, _, _, hkey⟩ := lookup_eq_some.mp h
  exact hkey

/-- The links of a storage are its policies of type `BUCKET`. -/
theorem link_iff_lookup {s : Buckets} {x y : PolicyBucketId} :
  s.Link x y ↔ ∃ key p, s.lookup x key = some p
    ∧ p.result.policyType = BUCKET ∧ p.result.metadata = y
  := by
  constructor
  · rintro ⟨b, hb, hy⟩
    obtain ⟨p, hp, htype, rfl⟩ := PolicyBucket.mem_getSubBuckets.mp hy
    use p.key, p, lookup_eq_some.mpr ⟨b, hb, hp, rfl⟩
  · rintro ⟨key, p, hp, htype, rfl⟩
    obtain ⟨b, hb, hp, -⟩ := lookup_eq_some.mp hp
    apply link_of_mem hb hp htype

/-- A bucket exists exactly when it has a default policy. -/
theorem hasBucket_eq_default? (s : Buckets) (id : PolicyBucketId) :
  hasBucket s id = (s.default? id).isSome
  := by
  simp [hasBucket, default?]

/-- Storages with the same default policies and the same entries are equal. -/
theorem ext_lookup {s t : Buckets} (hdefault : ∀ id, s.default? id = t.default? id)
    (hlookup : ∀ id key, s.lookup id key = t.lookup id key) :
  s = t
  := by
  ext id : 1
  have hd := hdefault id
  cases hs : s.find? id with
  | none =>
      simp only [default?, hs, Option.map_none] at hd
      exact (Option.map_eq_none_iff.mp hd.symm).symm
  | some b =>
      simp only [default?, hs, Option.map_some] at hd
      obtain ⟨c, hc, hbc⟩ := Option.map_eq_some_iff.mp hd.symm
      have hentry : ∀ p, p ∈ b ↔ p ∈ c := by
        intro p
        have hl := hlookup id p.key
        simp only [lookup, hs, hc, Option.bind_some] at hl
        rw [PolicyBucket.mem_def, PolicyBucket.mem_def, hl]
      have hpolicies : ∀ k : Str, b.policies[k]? = c.policies[k]? := by
        intro k
        ext p
        constructor
        · intro hp
          rw [b.glued k p hp]
          exact (hentry p).mp (PolicyBucket.mem_of_getElem? hp)
        · intro hp
          rw [c.glued k p hp]
          exact (hentry p).mpr (PolicyBucket.mem_of_getElem? hp)
      have hid : b.id = c.id := (id_of_find? hs).trans (id_of_find? hc).symm
      rw [PolicyBucket.ext_getElem? hid hbc.symm hpolicies, hc]

@[simp]
theorem default?_put (s : Buckets) (b : PolicyBucket) (id : PolicyBucketId) :
  (s.put b).default? id = if b.id = id then some b.defaultPolicy else s.default? id
  := by
  simp only [default?, find?_put]
  split <;> rfl

@[simp]
theorem lookup_put (s : Buckets) (b : PolicyBucket) (id : PolicyBucketId) (key : PolicyKey) :
  (s.put b).lookup id key = if b.id = id then b.policies[key.glue]? else s.lookup id key
  := by
  simp only [lookup, find?_put]
  split <;> rfl

/-- Two storages have the same buckets with the same default policies. -/
def SameBuckets (s t : Buckets) : Prop := ∀ id, s.default? id = t.default? id

theorem SameBuckets.refl (s : Buckets) : s.SameBuckets s := fun _ => rfl

theorem SameBuckets.trans {s t u : Buckets} (h : s.SameBuckets t) (h' : t.SameBuckets u) :
  s.SameBuckets u
  := fun id => (h id).trans (h' id)

theorem SameBuckets.hasBucket_eq {s t : Buckets} (h : s.SameBuckets t) (id : PolicyBucketId) :
  hasBucket s id = hasBucket t id
  := by
  rw [hasBucket_eq_default?, hasBucket_eq_default?, h id]

/-- Every entry of `s` is one of `t`. -/
def Within (s t : Buckets) : Prop :=
  ∀ id key p, s.lookup id key = some p → t.lookup id key = some p

theorem Within.refl (s : Buckets) : s.Within s := fun _ _ _ h => h

theorem Within.trans {s t u : Buckets} (h : s.Within t) (h' : t.Within u) :
  s.Within u
  := fun id key p hp => h' id key p (h id key p hp)

theorem Within.link {s t : Buckets} (h : s.Within t) {x y : PolicyBucketId}
    (hxy : s.Link x y) :
  t.Link x y
  := by
  obtain ⟨key, p, hp, htype, rfl⟩ := link_iff_lookup.mp hxy
  apply link_iff_lookup.mpr
  use key, p, h x key p hp

/-- Losing entries makes no cycle. -/
theorem Within.acyclic {s t : Buckets} (h : s.Within t) (ht : t.Acyclic) :
  s.Acyclic
  := Relation.Acyclic.mono ht fun _ _ => h.link

/-- Losing entries leaves no link dangling, as long as no bucket is lost. -/
theorem Within.noDangling {s t : Buckets} (h : s.Within t) (ht : t.NoDangling)
    (hbuckets : ∀ id, hasBucket t id = true → hasBucket s id = true) :
  s.NoDangling
  := by
  intro x y hxy
  obtain ⟨b, hb⟩ := ht x y (h.link hxy)
  apply Option.isSome_iff_exists.mp
  apply hbuckets
  rw [hasBucket, hb]
  rfl

end Buckets

/-! ### Single operations -/

namespace InMemoryStorageBackend

variable {s : Buckets} {id : PolicyBucketId}

theorem hasBucket_iff : hasBucket s id = true ↔ ∃ b, s.find? id = some b := by
  rw [hasBucket, Option.isSome_iff_exists]

/-- An operation on a bucket that keeps its id and its default policy changes no other
bucket. -/
theorem atBucket_of_hasBucket (h : hasBucket s id = true) (f : PolicyBucket → PolicyBucket)
    (hid : ∀ b, (f b).id = b.id) (hdefault : ∀ b, (f b).defaultPolicy = b.defaultPolicy) :
  (atBucket s id f).thrown = none ∧ (atBucket s id f).state.SameBuckets s
    ∧ ∀ id' key, (atBucket s id f).state.lookup id' key
        = if id = id' then (s.find? id).bind fun b => (f b).policies[key.glue]?
          else s.lookup id' key
  := by
  obtain ⟨b, hb⟩ := hasBucket_iff.mp h
  have hfid : (f b).id = id := (hid b).trans (Buckets.id_of_find? hb)
  simp only [atBucket, hb, Outcome.returned_thrown, Outcome.returned_state, true_and]
  constructor
  · intro id'
    rw [Buckets.default?_put, hfid, hdefault]
    split
    · rename_i heq
      rw [← heq, Buckets.default?, hb, Option.map_some]
    · rfl
  · intro id' key
    rw [Buckets.lookup_put, hfid, Option.bind_some]

theorem atBucket_of_not_hasBucket (h : hasBucket s id = false)
    (f : PolicyBucket → PolicyBucket) :
  atBucket s id f = .threw (.bucketNotExists id) s
  := by
  have hnone : s.find? id = none := by simpa [hasBucket] using h
  simp only [atBucket, hnone]

/-- A policy is inserted, and nothing else changes. -/
theorem insertPolicy_spec (h : hasBucket s id = true) (policy : Policy) :
  (insertPolicy s id policy).thrown = none ∧ (insertPolicy s id policy).state.SameBuckets s
    ∧ ∀ id' key, (insertPolicy s id policy).state.lookup id' key
        = if id = id' ∧ policy.key = key then some policy else s.lookup id' key
  := by
  obtain ⟨hthrown, hsame, hlookup⟩ :=
    atBucket_of_hasBucket h (fun b => b.insertPolicy policy) (fun _ => rfl) (fun _ => rfl)
  refine ⟨hthrown, hsame, fun id' key => ?_⟩
  rw [insertPolicy, hlookup]
  obtain ⟨b, hb⟩ := hasBucket_iff.mp h
  by_cases hid : id = id'
  · subst hid
    simp only [hb, Option.bind_some, PolicyBucket.insertPolicy, ExtTreeMap.getElem?_insert,
      Std.compare_eq_iff_eq, true_and, ↓reduceIte, PolicyKey.glue_injective.eq_iff,
      Buckets.lookup]
  · simp [hid]

/-- A policy is removed, and nothing else changes. -/
theorem deletePolicy_spec (h : hasBucket s id = true) (key : PolicyKey) :
  (deletePolicy s id key).thrown = none ∧ (deletePolicy s id key).state.SameBuckets s
    ∧ ∀ id' key', (deletePolicy s id key).state.lookup id' key'
        = if id = id' ∧ key = key' then none else s.lookup id' key'
  := by
  obtain ⟨hthrown, hsame, hlookup⟩ :=
    atBucket_of_hasBucket h (fun b => b.deletePolicy key) (fun _ => rfl) (fun _ => rfl)
  refine ⟨hthrown, hsame, fun id' key' => ?_⟩
  rw [deletePolicy, hlookup]
  obtain ⟨b, hb⟩ := hasBucket_iff.mp h
  by_cases hid : id = id'
  · subst hid
    simp only [hb, Option.bind_some, PolicyBucket.deletePolicy, ExtTreeMap.getElem?_erase,
      Std.compare_eq_iff_eq, true_and, ↓reduceIte, PolicyKey.glue_injective.eq_iff,
      Buckets.lookup]
  · simp [hid]

/-- Deleting the policies of a bucket that satisfy a predicate. -/
theorem lookup_put_deletePolicyIf {b : PolicyBucket} (hb : s.find? id = some b)
    (predicate : Policy → Bool) (id' : PolicyBucketId) (key : PolicyKey) :
  (s.put (b.deletePolicyIf predicate)).lookup id' key
    = if id = id' then (s.lookup id' key).filter fun p => !predicate p else s.lookup id' key
  := by
  have hid : b.id = id := Buckets.id_of_find? hb
  rw [Buckets.lookup_put, show (b.deletePolicyIf predicate).id = id from hid]
  split
  · rename_i heq
    subst heq
    simp [PolicyBucket.deletePolicyIf, Buckets.lookup, hb]
  · rfl

theorem sameBuckets_put_deletePolicyIf {b : PolicyBucket} (hb : s.find? id = some b)
    (predicate : Policy → Bool) :
  (s.put (b.deletePolicyIf predicate)).SameBuckets s
  := by
  have hid : b.id = id := Buckets.id_of_find? hb
  intro id'
  rw [Buckets.default?_put, show (b.deletePolicyIf predicate).id = id from hid]
  split
  · rename_i heq
    rw [← heq, Buckets.default?, hb]
    rfl
  · rfl

end InMemoryStorageBackend

/-! ### Grouped operations -/

namespace Storage

/-- The elements of a request that are grouped by bucket, each with its bucket, in the
order in which they are treated. -/
def entries {α : Type} (groups : ExtTreeMap PolicyBucketId (List α)) :
    List (PolicyBucketId × α) :=
  groups.toList.flatMap fun group => group.2.map fun a => (group.1, a)

/-- The policy that a request inserts for a key: of several ones the last. -/
def inserted (es : List (PolicyBucketId × Policy)) (id : PolicyBucketId) (key : PolicyKey) :
    Option Policy :=
  (es.reverse.find? fun e => e.1 == id && e.2.key == key).map Prod.snd

/-- The part of the keys to delete that is treated: up to the first one in a bucket that
does not exist. -/
def deletable (s : Buckets) (es : List (PolicyBucketId × PolicyKey)) :
    List (PolicyBucketId × PolicyKey) :=
  es.takeWhile fun e => hasBucket s e.1

theorem forEach_groups {α : Type}
    (f : Buckets → PolicyBucketId → α → Outcome StorageException Buckets)
    (groups : ExtTreeMap PolicyBucketId (List α)) (s : Buckets) :
  Outcome.forEach (fun s (group : PolicyBucketId × List α) =>
      .forEach (fun s a => f s group.1 a) group.2 s) groups.toList s
    = Outcome.forEach (fun s (e : PolicyBucketId × α) => f s e.1 e.2) (entries groups) s
  := by
  rw [entries, ← Outcome.forEach_flatMap]
  simp only [Outcome.forEach_map]

theorem inserted_append (es : List (PolicyBucketId × Policy)) (id id' : PolicyBucketId)
    (p : Policy) (key : PolicyKey) :
  inserted ((id, p) :: es) id' key
    = (inserted es id' key).or (if id = id' ∧ p.key = key then some p else none)
  := by
  simp only [inserted, List.reverse_cons, List.find?_append, Option.map_or]
  congr 1
  by_cases h : id = id' ∧ p.key = key
  · simp [h]
  · rw [if_neg h]
    have hne : (id == id' && p.key == key) = false := by simpa using h
    simp [hne]

/-- Inserting policies into existing buckets replaces the policies with the same keys. -/
theorem forEach_insertPolicy {s : Buckets} {es : List (PolicyBucketId × Policy)}
    (h : ∀ e ∈ es, hasBucket s e.1 = true) :
  let o := Outcome.forEach (fun s (e : PolicyBucketId × Policy) => insertPolicy s e.1 e.2) es s
  o.thrown = none ∧ o.state.SameBuckets s
    ∧ ∀ id key, o.state.lookup id key = (inserted es id key).or (s.lookup id key)
  := by
  induction es generalizing s with
  | nil => exact ⟨rfl, .refl s, fun _ _ => rfl⟩
  | cons e es ih =>
      obtain ⟨id, p⟩ := e
      obtain ⟨hthrown, hsame, hlookup⟩ := insertPolicy_spec (h (id, p) List.mem_cons_self) p
      simp only [Outcome.forEach, Outcome.andThen, hthrown]
      have hrest : ∀ e ∈ es, hasBucket (insertPolicy s id p).state e.1 = true := by
        intro e he
        rw [hsame.hasBucket_eq]
        apply h e (List.mem_cons_of_mem _ he)
      obtain ⟨hthrown', hsame', hlookup'⟩ := ih hrest
      refine ⟨hthrown', hsame'.trans hsame, fun id' key => ?_⟩
      rw [hlookup', hlookup, inserted_append, Option.or_assoc]
      congr 1
      split <;> rfl

/-- Deleting keys stops at the first bucket that does not exist. -/
theorem forEach_deletePolicy (s : Buckets) (es : List (PolicyBucketId × PolicyKey)) :
  let o := Outcome.forEach (fun s (e : PolicyBucketId × PolicyKey) => deletePolicy s e.1 e.2) es s
  (o.thrown = none ↔ ∀ e ∈ es, hasBucket s e.1 = true)
    ∧ (∀ e, o.thrown = some e → ∃ id, e = .bucketNotExists id) ∧ o.state.SameBuckets s
    ∧ ∀ id key, o.state.lookup id key
        = if (id, key) ∈ deletable s es then none else s.lookup id key
  := by
  induction es generalizing s with
  | nil => simp [Outcome.forEach, deletable, Buckets.SameBuckets.refl]
  | cons e es ih =>
      obtain ⟨id, key⟩ := e
      by_cases hid : hasBucket s id = true
      · obtain ⟨hthrown, hsame, hlookup⟩ := deletePolicy_spec hid key
        simp only [Outcome.forEach, Outcome.andThen, hthrown]
        obtain ⟨hthrown', hbucket, hsame', hlookup'⟩ := ih (deletePolicy s id key).state
        have hdel : deletable (deletePolicy s id key).state es = deletable s es := by
          simp only [deletable, hsame.hasBucket_eq]
        refine ⟨?_, hbucket, hsame'.trans hsame, fun id' key' => ?_⟩
        · rw [hthrown']
          simp [hsame.hasBucket_eq, hid]
        · rw [hlookup', hdel, hlookup]
          have hcons : deletable s ((id, key) :: es) = (id, key) :: deletable s es := by
            simp [deletable, hid]
          rw [hcons]
          by_cases heq : id = id' ∧ key = key'
          · obtain ⟨rfl, rfl⟩ := heq
            simp
          · rw [if_neg heq]
            have hmem : (id', key') ∈ (id, key) :: deletable s es
                ↔ (id', key') ∈ deletable s es := by
              simp only [List.mem_cons, Prod.mk.injEq, or_iff_right_iff_imp]
              rintro ⟨rfl, rfl⟩
              exact absurd ⟨rfl, rfl⟩ heq
            simp only [hmem]
      · have hid : hasBucket s id = false := by simpa using hid
        have hcons : deletable s ((id, key) :: es) = [] := by simp [deletable, hid]
        simp [Outcome.forEach, deletePolicy, atBucket_of_not_hasBucket hid, hcons, hid,
          Buckets.SameBuckets.refl]

/-! ### The operations of the storage -/

variable {s : Buckets}

/-- Every group of a request is for an existing bucket, and every policy of type `BUCKET`
in it links to an existing one. -/
theorem checkGroups_eq_none {groups : List (PolicyBucketId × List Policy)} :
  checkGroups s groups = none
    ↔ ∀ group ∈ groups, hasBucket s group.1 = true
        ∧ ∀ p ∈ group.2, p.result.policyType = BUCKET → hasBucket s p.result.metadata = true
  := by
  simp only [checkGroups, List.findSome?_eq_none_iff]
  constructor
  · intro h group hgroup
    have hg := h group hgroup
    split at hg
    · rename_i hbucket
      refine ⟨hbucket, fun p hp htype => ?_⟩
      have hpointed := List.findSome?_eq_none_iff.mp hg p hp
      simpa [pointedBucketExists, htype] using hpointed
    · contradiction
  · intro h group hgroup
    obtain ⟨hbucket, hlinks⟩ := h group hgroup
    rw [if_pos hbucket, List.findSome?_eq_none_iff]
    intro p hp
    by_cases htype : p.result.policyType = BUCKET
    · simp [pointedBucketExists, hlinks p hp htype]
    · simp [pointedBucketExists, htype]

/-- The only exception of `insertPolicies` is a bucket that does not exist. -/
theorem eq_of_checkGroups_eq_some {groups : List (PolicyBucketId × List Policy)}
    {e : StorageException} (h : checkGroups s groups = some e) :
  ∃ id, e = .bucketNotExists id
  := by
  obtain ⟨group, -, hg⟩ := List.exists_of_findSome?_eq_some h
  split at hg
  · obtain ⟨p, -, hp⟩ := List.exists_of_findSome?_eq_some hg
    unfold pointedBucketExists at hp
    split at hp
    · exact ⟨_, (Option.some.inj hp).symm⟩
    · contradiction
  · exact ⟨_, (Option.some.inj hg).symm⟩

theorem mem_entries {α : Type} {groups : ExtTreeMap PolicyBucketId (List α)}
    {e : PolicyBucketId × α} :
  e ∈ entries groups ↔ ∃ group ∈ groups.toList, group.1 = e.1 ∧ e.2 ∈ group.2
  := by
  obtain ⟨id, a⟩ := e
  simp only [entries, List.mem_flatMap, List.mem_map, Prod.mk.injEq]
  constructor
  · rintro ⟨group, hgroup, a', ha', rfl, rfl⟩
    use group, hgroup
  · rintro ⟨group, hgroup, rfl, ha⟩
    use group, hgroup, a

/-- A policy a request inserts is among its policies. -/
theorem mem_of_inserted {es : List (PolicyBucketId × Policy)} {id : PolicyBucketId}
    {key : PolicyKey} {p : Policy} (h : inserted es id key = some p) :
  (id, p) ∈ es ∧ p.key = key
  := by
  obtain ⟨e, he, rfl⟩ := Option.map_eq_some_iff.mp h
  have hmem := List.mem_of_find?_eq_some he
  have hkey := List.find?_some he
  simp only [Bool.and_eq_true, beq_iff_eq] at hkey
  obtain ⟨rfl, hkey⟩ := hkey
  exact ⟨List.mem_reverse.mp hmem, hkey⟩

theorem insertPolicies_refused {groups : ExtTreeMap PolicyBucketId (List Policy)}
    {e : StorageException} (h : checkGroups s groups.toList = some e) :
  insertPolicies s groups = .threw e s
  := by
  simp only [insertPolicies, h]

theorem insertPolicies_accepted {groups : ExtTreeMap PolicyBucketId (List Policy)}
    (h : checkGroups s groups.toList = none) :
  (insertPolicies s groups).thrown = none ∧ (insertPolicies s groups).state.SameBuckets s
    ∧ ∀ id key, (insertPolicies s groups).state.lookup id key
        = (inserted (entries groups) id key).or (s.lookup id key)
  := by
  have heq : insertPolicies s groups
      = Outcome.forEach (fun s (e : PolicyBucketId × Policy) => insertPolicy s e.1 e.2)
          (entries groups) s := by
    simp only [insertPolicies, h]
    exact forEach_groups insertPolicy groups s
  rw [heq]
  apply forEach_insertPolicy
  intro e he
  obtain ⟨group, hgroup, hid, -⟩ := mem_entries.mp he
  rw [← hid]
  exact (checkGroups_eq_none.mp h group hgroup).1

/-- Policies are removed up to the first missing bucket. -/
theorem deletePolicies_spec (s : Buckets)
    (groups : ExtTreeMap PolicyBucketId (List PolicyKey)) :
  ((deletePolicies s groups).thrown = none ↔ ∀ e ∈ entries groups, hasBucket s e.1 = true)
    ∧ (∀ e, (deletePolicies s groups).thrown = some e → ∃ id, e = .bucketNotExists id)
    ∧ (deletePolicies s groups).state.SameBuckets s
    ∧ ∀ id key, (deletePolicies s groups).state.lookup id key
        = if (id, key) ∈ deletable s (entries groups) then none else s.lookup id key
  := by
  have heq : deletePolicies s groups
      = Outcome.forEach (fun s (e : PolicyBucketId × PolicyKey) => deletePolicy s e.1 e.2)
          (entries groups) s := forEach_groups deletePolicy groups s
  rw [heq]
  apply forEach_deletePolicy

theorem deletePolicies_within (s : Buckets)
    (groups : ExtTreeMap PolicyBucketId (List PolicyKey)) :
  (deletePolicies s groups).state.Within s
  := by
  intro id key p hp
  rw [(deletePolicies_spec s groups).2.2.2] at hp
  split at hp
  · contradiction
  · exact hp

theorem lookup_deleteLinking (s : Buckets) (id id' : PolicyBucketId) (key : PolicyKey) :
  (deleteLinking s id).lookup id' key
    = (s.lookup id' key).filter fun p => !bucketIdMatches id p
  := by
  rw [deleteLinking, Buckets.lookup, Buckets.find?_deletePolicyIf, Buckets.lookup]
  cases s.find? id' with
  | none => rfl
  | some b => simp [PolicyBucket.deletePolicyIf]

theorem sameBuckets_deleteLinking (s : Buckets) (id : PolicyBucketId) :
  (deleteLinking s id).SameBuckets s
  := by
  intro id'
  rw [deleteLinking, Buckets.default?, Buckets.find?_deletePolicyIf, Buckets.default?]
  cases s.find? id' with
  | none => rfl
  | some b => rfl

theorem deleteLinking_within (s : Buckets) (id : PolicyBucketId) :
  (deleteLinking s id).Within s
  := by
  intro id' key p hp
  rw [lookup_deleteLinking] at hp
  exact (Option.filter_eq_some_iff.mp hp).1

/-- No policy links to a bucket any more. -/
theorem not_link_deleteLinking (s : Buckets) (id x : PolicyBucketId) :
  ¬ (deleteLinking s id).Link x id
  := by
  intro h
  obtain ⟨key, p, hp, htype, hid⟩ := Buckets.link_iff_lookup.mp h
  rw [lookup_deleteLinking] at hp
  have hmatches := (Option.filter_eq_some_iff.mp hp).2
  simp [bucketIdMatches, htype, hid] at hmatches

theorem lookup_remove (s : Buckets) (id id' : PolicyBucketId) (key : PolicyKey) :
  (s.remove id).lookup id' key = if id = id' then none else s.lookup id' key
  := by
  simp only [Buckets.lookup, Buckets.find?_remove]
  split <;> rfl

theorem remove_within (s : Buckets) (id : PolicyBucketId) :
  (s.remove id).Within s
  := by
  intro id' key p hp
  rw [lookup_remove] at hp
  split at hp
  · contradiction
  · exact hp

/-- Deleting a bucket: it is refused for the default bucket; otherwise the policies that
link to the bucket go first, and then the bucket, if there is one. -/
theorem deleteBucket_cases (s : Buckets) (id : PolicyBucketId) :
  id = defaultPolicyBucketId ∧ deleteBucket s id = .threw .defaultBucketDeletion s
    ∨ id ≠ defaultPolicyBucketId ∧ hasBucket s id = false
      ∧ deleteBucket s id = .threw (.bucketNotExists id) (deleteLinking s id)
    ∨ id ≠ defaultPolicyBucketId ∧ hasBucket s id = true
      ∧ deleteBucket s id = .returned ((deleteLinking s id).remove id)
  := by
  by_cases hid : id = defaultPolicyBucketId
  · left
    exact ⟨hid, by rw [deleteBucket, if_pos hid]⟩
  · right
    have heq : deleteBucket s id = InMemoryStorageBackend.deleteBucket (deleteLinking s id) id := by
      rw [deleteBucket, if_neg hid]
    have hsame := (sameBuckets_deleteLinking s id).hasBucket_eq id
    rw [heq, InMemoryStorageBackend.deleteBucket]
    cases hb : (deleteLinking s id).find? id with
    | none =>
        left
        refine ⟨hid, ?_, rfl⟩
        rw [← hsame, hasBucket, hb]
        rfl
    | some b =>
        right
        refine ⟨hid, ?_, rfl⟩
        rw [← hsame, hasBucket, hb]
        rfl

theorem deleteBucket_within (s : Buckets) (id : PolicyBucketId) :
  (deleteBucket s id).state.Within s
  := by
  obtain ⟨-, h⟩ | ⟨-, -, h⟩ | ⟨-, -, h⟩ := deleteBucket_cases s id
  · rw [h]
    apply Buckets.Within.refl
  · rw [h]
    apply deleteLinking_within
  · rw [h]
    exact (remove_within _ id).trans (deleteLinking_within s id)

/-- No link leads to a bucket that has been removed. -/
theorem deleteBucket_noDangling (h : s.NoDangling) (id : PolicyBucketId) :
  (deleteBucket s id).state.NoDangling
  := by
  have hlinking : (deleteLinking s id).NoDangling := by
    apply (deleteLinking_within s id).noDangling h
    intro id' hid'
    rw [(sameBuckets_deleteLinking s id).hasBucket_eq]
    exact hid'
  obtain ⟨-, heq⟩ | ⟨-, -, heq⟩ | ⟨-, -, heq⟩ := deleteBucket_cases s id
  · rw [heq]
    exact h
  · rw [heq]
    exact hlinking
  · rw [heq]
    intro x y hxy
    -- a link that is left leads to another bucket
    have hlink : (deleteLinking s id).Link x y := (remove_within _ id).link hxy
    have hne : id ≠ y := by
      rintro rfl
      exact not_link_deleteLinking s id x hlink
    obtain ⟨b, hb⟩ := hlinking x y hlink
    use b
    rw [Outcome.returned_state, Buckets.find?_remove, if_neg hne, hb]

/-- Adding or updating a bucket is refused for the default bucket with `NONE` and for a
new bucket with an invalid id. -/
def bucketRefused (s : Buckets) (id : PolicyBucketId) (d : PolicyResult) : Bool :=
  id = defaultPolicyBucketId && d.eqType NONE || !hasBucket s id && !idValidator id

/-- Adding or updating a bucket: it is refused, or the default policy of an existing bucket
is replaced, or a bucket with no policies is added. -/
theorem addOrUpdateBucket_cases (s : Buckets) (id : PolicyBucketId) (d : PolicyResult) :
  bucketRefused s id d = true
      ∧ (∃ e, addOrUpdateBucket s id d = .threw e s
        ∧ (e = .defaultBucketSetNone ∨ e = .invalidBucketId id))
    ∨ bucketRefused s id d = false
      ∧ ((∃ b, s.find? id = some b
          ∧ addOrUpdateBucket s id d = .returned (s.put (b.setDefaultPolicy d)))
        ∨ ∃ h : idValidator id = true, hasBucket s id = false
          ∧ addOrUpdateBucket s id d = .returned (s.put (PolicyBucket.empty id d h)))
  := by
  by_cases hnone : (id = defaultPolicyBucketId && d.eqType NONE) = true
  · left
    refine ⟨by simp only [bucketRefused, hnone, Bool.true_or], .defaultBucketSetNone, ?_,
      Or.inl rfl⟩
    rw [addOrUpdateBucket, if_pos hnone]
  have hnone' : (id = defaultPolicyBucketId && d.eqType NONE) = false := by simpa using hnone
  cases hid : hasBucket s id with
  | true =>
      right
      obtain ⟨b, hb⟩ := hasBucket_iff.mp hid
      refine ⟨by simp [bucketRefused, hnone', hid], Or.inl ⟨b, hb, ?_⟩⟩
      simp only [addOrUpdateBucket, hnone', hid, updateBucket, atBucket, hb, Bool.false_eq_true,
        ↓reduceIte]
  | false =>
      by_cases hvalid : idValidator id = true
      · right
        refine ⟨by simp [bucketRefused, hnone', hid, hvalid], Or.inr ⟨hvalid, rfl, ?_⟩⟩
        simp [addOrUpdateBucket, hnone', hid, createBucket, hvalid]
      · left
        refine ⟨by simp [bucketRefused, hid, hvalid], .invalidBucketId id, ?_, Or.inr rfl⟩
        simp [addOrUpdateBucket, hnone', hid, createBucket, hvalid]

theorem addOrUpdateBucket_within (s : Buckets) (id : PolicyBucketId) (d : PolicyResult) :
  (addOrUpdateBucket s id d).state.Within s
  := by
  obtain ⟨-, e, h, -⟩ | ⟨-, ⟨b, hb, h⟩ | ⟨hid, hb, h⟩⟩ := addOrUpdateBucket_cases s id d
  · rw [h]
    apply Buckets.Within.refl
  · rw [h]
    intro id' key p hp
    rw [Outcome.returned_state, Buckets.lookup_put] at hp
    split at hp
    · rename_i heq
      obtain rfl : id = id' := (Buckets.id_of_find? hb).symm.trans heq
      rw [Buckets.lookup, hb, Option.bind_some]
      exact hp
    · exact hp
  · rw [h]
    intro id' key p hp
    rw [Outcome.returned_state, Buckets.lookup_put] at hp
    split at hp
    · simp [PolicyBucket.empty] at hp
    · exact hp

theorem addOrUpdateBucket_hasBucket (s : Buckets) (id : PolicyBucketId) (d : PolicyResult)
    {id' : PolicyBucketId} (hid' : hasBucket s id' = true) :
  hasBucket (addOrUpdateBucket s id d).state id' = true
  := by
  obtain ⟨-, e, h, -⟩ | ⟨-, ⟨b, hb, h⟩ | ⟨hid, hb, h⟩⟩ := addOrUpdateBucket_cases s id d
  · rw [h]
    exact hid'
  · rw [h, Outcome.returned_state, hasBucket, Buckets.find?_put]
    split
    · rfl
    · exact hid'
  · rw [h, Outcome.returned_state, hasBucket, Buckets.find?_put]
    split
    · rfl
    · exact hid'

/-- The links after an insertion: those of the policies inserted and of the policies that
are not replaced. -/
def LinkAfter (s : Buckets) (groups : ExtTreeMap PolicyBucketId (List Policy))
    (x y : PolicyBucketId) : Prop :=
  ∃ key p, (inserted (entries groups) x key).or (s.lookup x key) = some p
    ∧ p.result.policyType = BUCKET ∧ p.result.metadata = y

theorem link_insertPolicies {groups : ExtTreeMap PolicyBucketId (List Policy)}
    (h : checkGroups s groups.toList = none) :
  (insertPolicies s groups).state.Link = LinkAfter s groups
  := by
  funext x y
  rw [eq_iff_iff, Buckets.link_iff_lookup]
  simp only [(insertPolicies_accepted h).2.2]
  rfl

/-- The links inserted lead to existing buckets. -/
theorem insertPolicies_noDangling (h : s.NoDangling)
    (groups : ExtTreeMap PolicyBucketId (List Policy)) :
  (insertPolicies s groups).state.NoDangling
  := by
  cases hcheck : checkGroups s groups.toList with
  | some e =>
      rw [insertPolicies_refused hcheck]
      exact h
  | none =>
      obtain ⟨-, hsame, -⟩ := insertPolicies_accepted hcheck
      intro x y hxy
      apply hasBucket_iff.mp
      rw [hsame.hasBucket_eq]
      rw [link_insertPolicies hcheck] at hxy
      obtain ⟨key, p, hp, htype, rfl⟩ := hxy
      obtain hp | ⟨-, hp⟩ := Option.or_eq_some_iff.mp hp
      · obtain ⟨hmem, -⟩ := mem_of_inserted hp
        obtain ⟨group, hgroup, -, hp⟩ := mem_entries.mp hmem
        apply (checkGroups_eq_none.mp hcheck group hgroup).2 p hp htype
      · apply hasBucket_iff.mpr
        apply h x
        apply Buckets.link_iff_lookup.mpr
        use key, p

end Storage

end Cynara
