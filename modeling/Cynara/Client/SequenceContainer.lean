import Cynara.Library.Bitmap

/-!
# Sequence numbers of the asynchronous client

The sequence numbers that are free are kept as a bitmap of 2048 words of 32 bits.  A new
sequence number is the least free one.

In every run the bitmap stands for the set of the numbers that have been given and not been
released, and the operations are those of an allocator on this set.
-/

namespace Cynara

/-- The words of the bitmap.  A bit is set if its number is free. -/
structure SequenceContainer where
  sequenceVector : List (BitVec 32)
  length_eq : sequenceVector.length = 2048

namespace SequenceContainer

/-- All numbers are free. -/
def new : SequenceContainer := ⟨List.replicate 2048 (BitVec.allOnes 32), List.length_replicate⟩

/-- The index of the first word that has a bit set and the position of this bit give the
number. -/
def get (c : SequenceContainer) : Option (UInt16 × SequenceContainer) :=
  match h : Bitmap.takeFirst 0 c.sequenceVector with
  | some (sequenceNumber, sequenceVector) =>
      some (UInt16.ofNat sequenceNumber,
        ⟨sequenceVector, (Bitmap.length_takeFirst h).trans c.length_eq⟩)
  | none => none

/-- Whether the number had been taken, and the numbers with this one free. -/
def release (sequenceNumber : UInt16) (c : SequenceContainer) : Bool × SequenceContainer :=
  let index := sequenceNumber.toNat / 32
  let pos := sequenceNumber.toNat % 32
  let word := c.sequenceVector.getD index 0
  let i := word ||| Bitmap.mask pos
  if i = word then (false, c)
  else (true, ⟨c.sequenceVector.set index i, List.length_set.trans c.length_eq⟩)

/-- No number is in use. -/
def clear (_ : SequenceContainer) : SequenceContainer := new

/-- The number has been taken and not been released. -/
def Allocated (c : SequenceContainer) (n : UInt16) : Prop :=
  Bitmap.test c.sequenceVector n.toNat = false

variable {c c' : SequenceContainer} {n m : UInt16}

theorem not_allocated_new (n : UInt16) :
  ¬ new.Allocated n
  := by
  rw [Allocated, Bool.not_eq_false]
  apply Bitmap.test_replicate
  exact n.toNat_lt

theorem lt_of_test {k : ℕ} (h : Bitmap.test c.sequenceVector k) :
  k < 2 ^ 16
  := by
  have hlt := Bitmap.lt_of_test h
  rw [c.length_eq] at hlt
  exact hlt

/-- The number that is given is the least free one, and it is taken. -/
theorem get_eq_some (h : c.get = some (n, c')) :
  ¬ c.Allocated n ∧ (∀ m < n, c.Allocated m) ∧ ∀ m, c'.Allocated m ↔ m = n ∨ c.Allocated m
  := by
  unfold get at h
  split at h
  · rename_i k words htake
    obtain ⟨rfl, rfl⟩ := Prod.mk.inj (Option.some.inj h)
    obtain ⟨k', hk', hfree, hbefore, hothers⟩ := Bitmap.takeFirst_eq_some htake
    obtain rfl : k = k' := by omega
    have hk : (UInt16.ofNat k).toNat = k := UInt16.toNat_ofNat_of_lt' (lt_of_test hfree)
    refine ⟨?_, ?_, ?_⟩
    · simp [Allocated, hk, hfree]
    · intro m hm
      apply hbefore
      rw [UInt16.lt_iff_toNat_lt, hk] at hm
      exact hm
    · intro m
      rw [Allocated, Allocated, hothers, ← UInt16.toNat_inj, hk]
      simp only [ne_eq, decide_not, Bool.and_eq_false_imp, Bool.not_eq_false', decide_eq_true_eq]
      by_cases hm : m.toNat = k
      · simp [hm]
      · simp [hm]
  · cases h

/-- There is no number if all have been taken. -/
theorem get_eq_none :
  c.get = none ↔ ∀ n, c.Allocated n
  := by
  have hnone : c.get = none ↔ Bitmap.takeFirst 0 c.sequenceVector = none := by
    unfold get
    split
    · rename_i htake
      simp [htake]
    · rename_i htake
      simp [htake]
  rw [hnone, Bitmap.takeFirst_eq_none]
  constructor
  · intro h n
    exact h n.toNat
  · intro h k
    by_contra hfree
    rw [Bool.not_eq_false] at hfree
    have hk := h (UInt16.ofNat k)
    rw [Allocated, UInt16.toNat_ofNat_of_lt' (lt_of_test hfree), hfree] at hk
    cases hk

theorem sequenceVector_release (n : UInt16) (c : SequenceContainer) :
  (c.release n).2.sequenceVector = Bitmap.set c.sequenceVector n.toNat
  := by
  change (ite _ _ _ : Bool × SequenceContainer).2.sequenceVector = _
  split
  · rename_i hsame
    exact (Bitmap.set_eq_self hsame).symm
  · rfl

/-- A number that is released is free, and no other number is. -/
theorem allocated_release :
  (c.release n).2.Allocated m ↔ m ≠ n ∧ c.Allocated m
  := by
  have hlt : n.toNat < c.sequenceVector.length * 32 := by
    rw [c.length_eq]
    exact n.toNat_lt
  rw [Allocated, sequenceVector_release, Bitmap.test_set hlt, Allocated, ne_eq, ← UInt16.toNat_inj]
  simp [and_comm]

/-- Whether a number had been taken is what `release` returns. -/
theorem release_fst :
  (c.release n).1 = true ↔ c.Allocated n
  := by
  have hset : c.sequenceVector.getD (n.toNat / 32) 0 ||| Bitmap.mask (n.toNat % 32) =
      c.sequenceVector.getD (n.toNat / 32) 0 ↔ Bitmap.test c.sequenceVector n.toNat = true :=
    Bitmap.or_mask_eq_self (Nat.mod_lt _ (by decide))
  change (ite _ _ _ : Bool × SequenceContainer).1 = true ↔ _
  rw [Allocated, ← Bool.not_eq_true, ← hset]
  split
  · rename_i hsame
    exact iff_of_false Bool.false_ne_true (not_not_intro hsame)
  · rename_i hchanged
    exact iff_of_true rfl hchanged

theorem not_allocated_clear (n : UInt16) :
  ¬ c.clear.Allocated n
  := not_allocated_new n

/-! ### Runs -/

inductive Operation where
  | get
  | release (sequenceNumber : UInt16)
  | clear

/-- What an operation returns. -/
inductive Answer where
  | number (sequenceNumber : Option UInt16)
  | released (wasTaken : Bool)
  | cleared

/-- The answer of an operation, and the container after it. -/
def perform (c : SequenceContainer) : Operation → Answer × SequenceContainer
  | .get =>
      match c.get with
      | some (sequenceNumber, c') => (.number (some sequenceNumber), c')
      | none => (.number none, c)
  | .release sequenceNumber =>
      let (wasTaken, c') := c.release sequenceNumber
      (.released wasTaken, c')
  | .clear => (.cleared, c.clear)

/-- The operations of an allocator on the set of the numbers that are in use. -/
inductive Allocates (used : Set UInt16) : Operation → Answer → Set UInt16 → Prop
  | take {n : UInt16} : n ∉ used → (∀ m < n, m ∈ used) →
      Allocates used .get (.number (some n)) (insert n used)
  | exhausted : (∀ n, n ∈ used) → Allocates used .get (.number none) used
  | release {n : UInt16} : n ∈ used → Allocates used (.release n) (.released true) (used \ {n})
  | refuse {n : UInt16} : n ∉ used → Allocates used (.release n) (.released false) used
  | clear : Allocates used .clear .cleared ∅

/-- The set that the bitmap stands for. -/
def inUse (c : SequenceContainer) : Set UInt16 := { n | c.Allocated n }

/-- Every operation is one of the allocator. -/
theorem allocates_perform (c : SequenceContainer) (op : Operation) :
  Allocates c.inUse op (c.perform op).1 (c.perform op).2.inUse
  := by
  cases op with
  | get =>
      simp only [perform]
      cases hget : c.get with
      | none => exact .exhausted (get_eq_none.mp hget)
      | some taken =>
          obtain ⟨n, c'⟩ := taken
          obtain ⟨hfree, hleast, hothers⟩ := get_eq_some hget
          have hinUse : c'.inUse = insert n c.inUse := Set.ext hothers
          rw [hinUse]
          exact .take hfree hleast
  | release n =>
      have hinUse : (c.release n).2.inUse = c.inUse \ {n} := by
        ext m
        exact allocated_release.trans and_comm
      change Allocates c.inUse (.release n) (.released (c.release n).1) (c.release n).2.inUse
      rw [hinUse]
      by_cases hmem : c.Allocated n
      · rw [release_fst.mpr hmem]
        exact .release hmem
      · have hfst : (c.release n).1 = false := Bool.eq_false_iff.mpr (mt release_fst.mp hmem)
        have hsame : c.inUse \ {n} = c.inUse := Set.sdiff_singleton_eq_self hmem
        rw [hfst, hsame]
        exact .refuse hmem
  | clear =>
      have hinUse : c.clear.inUse = ∅ := Set.eq_empty_iff_forall_notMem.mpr not_allocated_clear
      change Allocates c.inUse .clear .cleared c.clear.inUse
      rw [hinUse]
      exact .clear

/-- The numbers that have been given and not been released, told from the answers alone. -/
def note (used : List UInt16) : Operation → Answer → List UInt16
  | .get, .number (some n) => n :: used
  | .release n, _ => used.erase n
  | .clear, _ => []
  | _, _ => used

/-- The container and the numbers that have been given. -/
structure Tracked where
  container : SequenceContainer := .new
  used : List UInt16 := []

/-- The operation, together with the numbers that are in use. -/
def Tracked.step (t : Tracked) (op : Operation) : Tracked :=
  ⟨(t.container.perform op).2, note t.used op (t.container.perform op).1⟩

/-- The numbers in use are those that have been given, each once. -/
structure Tracked.Sound (t : Tracked) : Prop where
  nodup : t.used.Nodup
  inUse_eq : ∀ n, n ∈ t.container.inUse ↔ n ∈ t.used

/-- The numbers in use are those given out and not released. -/
theorem Tracked.Sound.step {t : Tracked} (h : t.Sound) (op : Operation) :
  (t.step op).Sound
  := by
  have hset : t.container.inUse = { n | n ∈ t.used } := Set.ext h.inUse_eq
  have hperform := allocates_perform t.container op
  rw [hset] at hperform
  simp only [Tracked.step]
  generalize t.container.perform op = performed at hperform
  obtain ⟨answer, c'⟩ := performed
  suffices hnote : (note t.used op answer).Nodup ∧
      ∀ n, n ∈ c'.inUse ↔ n ∈ note t.used op answer from ⟨hnote.1, hnote.2⟩
  generalize c'.inUse = used' at hperform
  cases hperform with
  | take hfree _ => exact ⟨List.nodup_cons.mpr ⟨hfree, h.nodup⟩, fun n => List.mem_cons.symm⟩
  | exhausted _ => exact ⟨h.nodup, fun n => Iff.rfl⟩
  | release _ =>
      refine ⟨h.nodup.erase _, fun n => ?_⟩
      change _ ↔ n ∈ t.used.erase _
      rw [h.nodup.mem_erase_iff]
      exact and_comm
  | refuse hfree =>
      change (t.used.erase _).Nodup ∧ ∀ n, n ∈ t.used ↔ n ∈ t.used.erase _
      rw [List.erase_of_not_mem hfree]
      exact ⟨h.nodup, fun n => Iff.rfl⟩
  | clear => exact ⟨List.nodup_nil, fun n => iff_of_false (Set.notMem_empty n) List.not_mem_nil⟩

/-- For every sequence of operations, the numbers that have been given and not been released are
pairwise distinct, they are the ones in use, and the next operation is one of the allocator: a
number that is given is the least that is not in use, there is none exactly if all are in use, a
number is released exactly if it is in use, and `clear` releases all. -/
theorem allocates_of_run (ops : List Operation) (op : Operation) :
  let t := ops.foldl Tracked.step {}
  t.used.Nodup ∧ t.container.inUse = { n | n ∈ t.used } ∧
    Allocates t.container.inUse op (t.container.perform op).1 (t.container.perform op).2.inUse
  := by
  have hsound : (ops.foldl Tracked.step {}).Sound := by
    apply List.foldlRecOn
    · exact ⟨List.nodup_nil, fun n => iff_of_false (not_allocated_new n) List.not_mem_nil⟩
    · intro t ht op _
      exact ht.step op
  exact ⟨hsound.nodup, Set.ext hsound.inUse_eq, allocates_perform _ op⟩

end SequenceContainer

end Cynara
