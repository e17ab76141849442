import Cynara.Storage.Effects

/-!
# Erasing policies

An erase takes buckets from a work list, in the order of their ids, deletes the policies
that match its filter, and puts the buckets they link to in the list.  An erase that
returns has been to all the buckets that can be reached from where it started; one that
throws has come to a bucket that does not exist.
-/

open Std

namespace Cynara

open PredefinedPolicyType InMemoryStorageBackend

namespace Storage

variable {s : Buckets} {recursive : Bool} {filter : PolicyKey}

/-! ### The loop of an erase -/

/-- The buckets left when the policies of one bucket that match a filter are deleted. -/
def eraseAt (filter : PolicyKey) (s : Buckets) (b : PolicyBucket) : Buckets :=
  s.put (b.deletePolicyIf fun p => p.key.matchFilter filter)

/-- The work list after a bucket has been taken from it. -/
def nextIds (recursive : Bool) (ids : ExtTreeSet PolicyBucketId) (id : PolicyBucketId)
    (b : PolicyBucket) : ExtTreeSet PolicyBucketId :=
  if recursive then ids.erase id ∪ b.getSubBuckets else ids.erase id

theorem mem_nextIds {ids : ExtTreeSet PolicyBucketId} {id y : PolicyBucketId}
    {b : PolicyBucket} :
  y ∈ nextIds recursive ids id b
    ↔ y ≠ id ∧ y ∈ ids ∨ recursive = true ∧ y ∈ b.getSubBuckets
  := by
  have herase : y ∈ ids.erase id ↔ y ≠ id ∧ y ∈ ids := by
    simp only [ExtTreeSet.mem_erase, ne_eq, Std.compare_eq_iff_eq, @eq_comm _ y id]
  cases recursive with
  | false => simp [nextIds, herase]
  | true => simp [nextIds, herase]

theorem eraseLoop_succ (fuel : ℕ) (ids : ExtTreeSet PolicyBucketId) :
  eraseLoop recursive filter (fuel + 1) ids s
    = match ids.min? with
      | none => some (.returned s)
      | some id =>
          match s.find? id with
          | none => some (.threw (.bucketNotExists id) s)
          | some b =>
              eraseLoop recursive filter fuel (nextIds recursive ids id b) (eraseAt filter s b)
  := rfl

theorem eraseAt_within (filter : PolicyKey) {id : PolicyBucketId} {b : PolicyBucket}
    (hb : s.find? id = some b) :
  (eraseAt filter s b).Within s
  := by
  intro id' key p hp
  rw [eraseAt, lookup_put_deletePolicyIf hb] at hp
  split at hp
  · exact (Option.filter_eq_some_iff.mp hp).1
  · exact hp

theorem eraseAt_sameBuckets (filter : PolicyKey) {id : PolicyBucketId} {b : PolicyBucket}
    (hb : s.find? id = some b) :
  (eraseAt filter s b).SameBuckets s
  := sameBuckets_put_deletePolicyIf hb _

/-- The turns of the loop: it returns when the work list is empty, throws at a bucket that
does not exist, and goes on otherwise. -/
theorem eraseLoop_cases {fuel : ℕ} {ids : ExtTreeSet PolicyBucketId}
    {o : Outcome StorageException Buckets}
    (h : eraseLoop recursive filter (fuel + 1) ids s = some o) :
  (∀ x, x ∉ ids) ∧ o = .returned s
    ∨ (∃ id, ids.min? = some id ∧ s.find? id = none ∧ o = .threw (.bucketNotExists id) s)
    ∨ ∃ id b, ids.min? = some id ∧ s.find? id = some b
      ∧ eraseLoop recursive filter fuel (nextIds recursive ids id b) (eraseAt filter s b) = some o
  := by
  rw [eraseLoop_succ] at h
  cases hmin : ids.min? with
  | none =>
      left
      simp only [hmin, Option.some.injEq] at h
      refine ⟨fun x => ?_, h.symm⟩
      rw [ExtTreeSet.min?_eq_none_iff.mp hmin]
      simp
  | some id =>
      right
      simp only [hmin] at h
      cases hb : s.find? id with
      | none =>
          left
          simp only [hb, Option.some.injEq] at h
          use id, rfl, hb, h.symm
      | some b =>
          right
          simp only [hb] at h
          use id, b, rfl, hb, h

/-- An erase keeps the buckets and adds no entry. -/
theorem eraseLoop_within {fuel : ℕ} {ids : ExtTreeSet PolicyBucketId}
    {o : Outcome StorageException Buckets}
    (h : eraseLoop recursive filter fuel ids s = some o) :
  o.state.SameBuckets s ∧ o.state.Within s
  := by
  induction fuel generalizing ids s with
  | zero => contradiction
  | succ fuel ih =>
      obtain ⟨-, rfl⟩ | ⟨id, -, -, rfl⟩ | ⟨id, b, -, hb, h⟩ := eraseLoop_cases h
      · exact ⟨.refl s, .refl s⟩
      · exact ⟨.refl s, .refl s⟩
      · obtain ⟨hsame, hwithin⟩ := ih h
        exact ⟨hsame.trans (eraseAt_sameBuckets filter hb),
          hwithin.trans (eraseAt_within filter hb)⟩

/-- A filter that matches no policy erases nothing. -/
theorem eraseAt_eq_self {id : PolicyBucketId} {b : PolicyBucket} (hb : s.find? id = some b)
    (hfilter : ∀ p ∈ b, p.key.matchFilter filter = false) :
  eraseAt filter s b = s
  := by
  apply Buckets.ext_lookup
  · apply eraseAt_sameBuckets filter hb
  · intro id' key
    rw [eraseAt, lookup_put_deletePolicyIf hb]
    split
    · rename_i heq
      subst heq
      cases hp : s.lookup id key with
      | none => rfl
      | some p =>
          obtain ⟨c, hc, hp, -⟩ := Buckets.lookup_eq_some.mp hp
          obtain rfl := Option.some.inj (hb.symm.trans hc)
          simp [hfilter p hp]
    · rfl

/-! ### The buckets an erase comes to -/

/-- The buckets that can be reached from a work list. -/
def Reach (s : Buckets) (recursive : Bool) (ids : ExtTreeSet PolicyBucketId)
    (x : PolicyBucketId) : Prop :=
  if recursive then ∃ y ∈ ids, Relation.ReflTransGen s.Link y x else x ∈ ids

theorem Reach.of_mem {ids : ExtTreeSet PolicyBucketId} {x : PolicyBucketId} (h : x ∈ ids) :
  Reach s recursive ids x
  := by
  cases recursive with
  | false => exact h
  | true => exact ⟨x, h, .refl⟩

/-- Fewer entries reach no more buckets. -/
theorem Reach.of_within {t : Buckets} {ids : ExtTreeSet PolicyBucketId} {x : PolicyBucketId}
    (h : Reach s recursive ids x) (hwithin : s.Within t) :
  Reach t recursive ids x
  := by
  cases recursive with
  | false => exact h
  | true =>
      obtain ⟨y, hy, hyx⟩ := h
      exact ⟨y, hy, Relation.ReflTransGen.mono (fun _ _ => hwithin.link) y x hyx⟩

/-- What is reached after a bucket has been taken from the work list was reached before. -/
theorem Reach.of_nextIds (filter : PolicyKey) {ids : ExtTreeSet PolicyBucketId}
    {id x : PolicyBucketId} {b : PolicyBucket} (hid : id ∈ ids) (hb : s.find? id = some b)
    (h : Reach (eraseAt filter s b) recursive (nextIds recursive ids id b) x) :
  Reach s recursive ids x
  := by
  replace h := h.of_within (eraseAt_within filter hb)
  cases recursive with
  | false =>
      obtain ⟨-, hx⟩ | ⟨hrec, -⟩ := mem_nextIds.mp h
      · exact hx
      · contradiction
  | true =>
      obtain ⟨y, hy, hyx⟩ := h
      obtain ⟨-, hy⟩ | ⟨-, hy⟩ := mem_nextIds.mp hy
      · exact ⟨y, hy, hyx⟩
      · exact ⟨id, hid, .head ⟨b, hb, hy⟩ hyx⟩

/-- Deleting policies of one bucket keeps the links of the others. -/
theorem link_eraseAt {id x y : PolicyBucketId} {b : PolicyBucket} (hb : s.find? id = some b)
    (hx : x ≠ id) (h : s.Link x y) :
  (eraseAt filter s b).Link x y
  := by
  obtain ⟨key, p, hp, htype, rfl⟩ := Buckets.link_iff_lookup.mp h
  apply Buckets.link_iff_lookup.mpr
  use key, p
  rw [eraseAt, lookup_put_deletePolicyIf hb, if_neg (Ne.symm hx)]
  exact ⟨hp, htype, rfl⟩

/-- What was reached is the bucket taken from the work list or is still reached. -/
theorem Reach.nextIds (filter : PolicyKey) {ids : ExtTreeSet PolicyBucketId}
    {id x : PolicyBucketId} {b : PolicyBucket} (hb : s.find? id = some b)
    (h : Reach s recursive ids x) :
  x = id ∨ Reach (eraseAt filter s b) recursive (nextIds recursive ids id b) x
  := by
  cases recursive with
  | false =>
      by_cases hx : x = id
      · exact Or.inl hx
      · right
        exact mem_nextIds.mpr (Or.inl ⟨hx, h⟩)
  | true =>
      obtain ⟨y, hy, hyx⟩ := h
      induction hyx with
      | refl =>
          by_cases hyid : y = id
          · exact Or.inl hyid
          · right
            exact .of_mem (mem_nextIds.mpr (Or.inl ⟨hyid, hy⟩))
      | @tail u x _ hux ih =>
          right
          by_cases hu : u = id
          · subst hu
            obtain ⟨c, hc, hx⟩ := hux
            obtain rfl := Option.some.inj (hb.symm.trans hc)
            exact .of_mem (mem_nextIds.mpr (Or.inr ⟨rfl, hx⟩))
          · obtain heq | ⟨z, hz, hzu⟩ := ih
            · exact absurd heq hu
            · exact ⟨z, hz, hzu.tail (link_eraseAt hb hu hux)⟩

/-- The policies of a bucket that match the filter of an erase. -/
def Matches (filter : PolicyKey) (b : PolicyBucket) : Prop :=
  ∃ p ∈ b, p.key.matchFilter filter = true

theorem not_matches_iff {b : PolicyBucket} :
  ¬ Matches filter b ↔ ∀ p ∈ b, p.key.matchFilter filter = false
  := by
  simp [Matches]

/-- An erase throws only at a bucket that it reaches and that does not exist. -/
theorem eraseLoop_thrown {fuel : ℕ} {ids : ExtTreeSet PolicyBucketId}
    {o : Outcome StorageException Buckets} {e : StorageException}
    (h : eraseLoop recursive filter fuel ids s = some o) (he : o.thrown = some e) :
  ∃ id, e = .bucketNotExists id ∧ Reach s recursive ids id ∧ s.find? id = none
  := by
  induction fuel generalizing ids s with
  | zero => contradiction
  | succ fuel ih =>
      obtain ⟨-, rfl⟩ | ⟨id, hmin, hb, rfl⟩ | ⟨id, b, hmin, hb, h⟩ := eraseLoop_cases h
      · contradiction
      · obtain rfl := Option.some.inj he
        use id, rfl, .of_mem (ExtTreeSet.min?_mem hmin)
      · obtain ⟨id', he, hreach, hnone⟩ := ih h
        use id', he, hreach.of_nextIds filter (ExtTreeSet.min?_mem hmin) hb
        have hsame := (eraseAt_sameBuckets filter hb).hasBucket_eq id'
        simpa [hasBucket, hnone] using hsame.symm

/-- From an empty work list nothing is reached. -/
theorem not_reach_of_empty {ids : ExtTreeSet PolicyBucketId} (hempty : ∀ x, x ∉ ids)
    (x : PolicyBucketId) :
  ¬ Reach s recursive ids x
  := by
  intro hx
  cases recursive with
  | false => exact hempty x hx
  | true =>
      obtain ⟨y, hy, -⟩ := hx
      exact hempty y hy

/-- An erase that returns has been to all the buckets that it reaches: they exist, and
their policies that match the filter are gone. -/
theorem eraseLoop_returned {fuel : ℕ} {ids : ExtTreeSet PolicyBucketId}
    {o : Outcome StorageException Buckets}
    (h : eraseLoop recursive filter fuel ids s = some o) (ho : o.thrown = none)
    {x : PolicyBucketId} (hx : Reach s recursive ids x) :
  hasBucket s x = true
    ∧ ∀ key, key.matchFilter filter = true → o.state.lookup x key = none
  := by
  induction fuel generalizing ids s with
  | zero => contradiction
  | succ fuel ih =>
      obtain ⟨hempty, rfl⟩ | ⟨id, hmin, hb, rfl⟩ | ⟨id, b, hmin, hb, h⟩ := eraseLoop_cases h
      · exact absurd hx (not_reach_of_empty hempty x)
      · contradiction
      · obtain rfl | hx := hx.nextIds filter hb
        · refine ⟨hasBucket_iff.mpr ⟨b, hb⟩, fun key hkey => ?_⟩
          have herased : (eraseAt filter s b).lookup x key = none := by
            rw [eraseAt, lookup_put_deletePolicyIf hb, if_pos rfl, Option.filter_eq_none_iff]
            intro p hp
            rw [Buckets.key_of_lookup hp, hkey]
            simp
          rw [Option.eq_none_iff_forall_ne_some]
          intro p hp
          have hp := (eraseLoop_within h).2 x key p hp
          rw [herased] at hp
          contradiction
        · obtain ⟨hbucket, herased⟩ := ih h hx
          rw [(eraseAt_sameBuckets filter hb).hasBucket_eq] at hbucket
          exact ⟨hbucket, herased⟩

/-- An erase that reaches no bucket with a matching policy changes nothing. -/
theorem eraseLoop_unchanged {fuel : ℕ} {ids : ExtTreeSet PolicyBucketId}
    {o : Outcome StorageException Buckets}
    (h : eraseLoop recursive filter fuel ids s = some o)
    (hquiet : ∀ x b, Reach s recursive ids x → s.find? x = some b → ¬ Matches filter b) :
  o.state = s
  := by
  induction fuel generalizing ids with
  | zero => contradiction
  | succ fuel ih =>
      obtain ⟨-, rfl⟩ | ⟨id, hmin, hb, rfl⟩ | ⟨id, b, hmin, hb, h⟩ := eraseLoop_cases h
      · rfl
      · rfl
      · have hid : id ∈ ids := ExtTreeSet.min?_mem hmin
        have hself : eraseAt filter s b = s :=
          eraseAt_eq_self hb (not_matches_iff.mp (hquiet id b (.of_mem hid) hb))
        rw [hself] at h
        apply ih h
        intro x c hx hc
        apply hquiet x c _ hc
        apply Reach.of_nextIds filter hid hb
        rw [hself]
        exact hx

/-- An erase comes to a bucket that does not exist before it comes to one with a policy that
matches.  While nothing matches the buckets stay as they are, so this depends only on the
buckets at the start. -/
inductive StopsQuietly (s : Buckets) (recursive : Bool) (filter : PolicyKey) :
    ExtTreeSet PolicyBucketId → Prop where
  | missing {ids : ExtTreeSet PolicyBucketId} {id : PolicyBucketId} (hmin : ids.min? = some id)
      (hb : s.find? id = none) : StopsQuietly s recursive filter ids
  | visit {ids : ExtTreeSet PolicyBucketId} {id : PolicyBucketId} {b : PolicyBucket}
      (hmin : ids.min? = some id) (hb : s.find? id = some b) (quiet : ¬ Matches filter b)
      (rest : StopsQuietly s recursive filter (nextIds recursive ids id b)) :
      StopsQuietly s recursive filter ids

/-- An erase that stops quietly reaches a bucket that does not exist. -/
theorem StopsQuietly.reach {ids : ExtTreeSet PolicyBucketId}
    (h : StopsQuietly s recursive filter ids) :
  ∃ x, Reach s recursive ids x ∧ hasBucket s x = false
  := by
  induction h with
  | missing hmin hb =>
      refine ⟨_, .of_mem (ExtTreeSet.min?_mem hmin), ?_⟩
      rw [hasBucket, hb]
      rfl
  | visit hmin hb quiet _ ih =>
      obtain ⟨x, hx, hnone⟩ := ih
      refine ⟨x, ?_, hnone⟩
      apply Reach.of_nextIds filter (ExtTreeSet.min?_mem hmin) hb
      rw [eraseAt_eq_self hb (not_matches_iff.mp quiet)]
      exact hx

/-- An erase that throws leaves the buckets as they were exactly when it stops quietly. -/
theorem eraseLoop_thrown_unchanged {fuel : ℕ} {ids : ExtTreeSet PolicyBucketId}
    {o : Outcome StorageException Buckets}
    (h : eraseLoop recursive filter fuel ids s = some o) (ho : o.thrown ≠ none) :
  o.state = s ↔ StopsQuietly s recursive filter ids
  := by
  induction fuel generalizing ids with
  | zero => contradiction
  | succ fuel ih =>
      obtain ⟨-, rfl⟩ | ⟨id, hmin, hb, rfl⟩ | ⟨id, b, hmin, hb, h⟩ := eraseLoop_cases h
      · contradiction
      · exact iff_of_true rfl (.missing hmin hb)
      · by_cases hmatch : Matches filter b
        · -- the policy that matches is gone for good
          obtain ⟨p, hp, hfilter⟩ := hmatch
          have hlookup : s.lookup id p.key = some p := Buckets.lookup_eq_some.mpr ⟨b, hb, hp, rfl⟩
          apply iff_of_false
          · intro hstate
            rw [← hstate] at hlookup
            have herased := (eraseLoop_within h).2 id p.key p hlookup
            rw [eraseAt, lookup_put_deletePolicyIf hb, if_pos rfl, Option.filter_eq_some_iff]
              at herased
            simp [hfilter] at herased
          · intro hstops
            cases hstops with
            | missing hmin' hnone =>
                obtain rfl := Option.some.inj (hmin.symm.trans hmin')
                rw [hb] at hnone
                contradiction
            | visit hmin' hb' quiet _ =>
                obtain rfl := Option.some.inj (hmin.symm.trans hmin')
                obtain rfl := Option.some.inj (hb.symm.trans hb')
                exact quiet ⟨p, hp, hfilter⟩
        · rw [eraseAt_eq_self hb (not_matches_iff.mp hmatch)] at h
          rw [ih h]
          constructor
          · intro hstops
            exact .visit hmin hb hmatch hstops
          · intro hstops
            cases hstops with
            | missing hmin' hnone =>
                obtain rfl := Option.some.inj (hmin.symm.trans hmin')
                rw [hb] at hnone
                contradiction
            | visit hmin' hb' quiet rest =>
                obtain rfl := Option.some.inj (hmin.symm.trans hmin')
                obtain rfl := Option.some.inj (hb.symm.trans hb')
                exact rest

/-- An erase that returns leaves the buckets as they were exactly when it reaches no policy
that matches. -/
theorem eraseLoop_returned_unchanged {fuel : ℕ} {ids : ExtTreeSet PolicyBucketId}
    {o : Outcome StorageException Buckets}
    (h : eraseLoop recursive filter fuel ids s = some o) (ho : o.thrown = none) :
  o.state = s ↔ ∀ x b, Reach s recursive ids x → s.find? x = some b → ¬ Matches filter b
  := by
  constructor
  · rintro hstate x b hx hb ⟨p, hp, hfilter⟩
    have hlookup : s.lookup x p.key = some p := Buckets.lookup_eq_some.mpr ⟨b, hb, hp, rfl⟩
    have herased := (eraseLoop_returned h ho hx).2 p.key hfilter
    rw [hstate, hlookup] at herased
    contradiction
  · apply eraseLoop_unchanged h

end Storage

end Cynara
