import Mathlib.Data.List.Basic
import Mathlib.Order.Basic
import Mathlib.Tactic.Ring

/-!
# Bitmaps

A set of numbers as a list of words: number `n` is the bit `n % w` of the word `n / w`.  The
least number of the set is found by looking for the first word that is not zero, and for the
first bit in it.
-/

namespace Bitmap

variable {w : ℕ}

/-- The position of the first bit that is set, counted from one, and zero if there is none. -/
def ffs (word : BitVec w) : ℕ :=
  match (List.range w).find? (word.getLsbD ·) with
  | some i => i + 1
  | none => 0

/-- The word in which only one bit is set. -/
def mask (i : ℕ) : BitVec w := 1#w <<< i

/-- The number `n` is in the set. -/
def test (words : List (BitVec w)) (n : ℕ) : Bool := (words.getD (n / w) 0#w).getLsbD (n % w)

/-- The least number of the set and the set without it; the given index is the one of the first
word. -/
def takeFirst : ℕ → List (BitVec w) → Option (ℕ × List (BitVec w))
  | _, [] => none
  | index, word :: words =>
      if ffs word ≠ 0 then
        some (index * w + ffs word - 1, (word ^^^ mask (ffs word - 1)) :: words)
      else (takeFirst (index + 1) words).map fun r => (r.1, word :: r.2)

/-! ### Words -/

theorem getLsbD_mask {i j : ℕ} (hi : i < w) :
  (mask i : BitVec w).getLsbD j = decide (j = i)
  := by
  simp only [mask, BitVec.getLsbD_shiftLeft, BitVec.getLsbD_one]
  by_cases h : j = i
  · subst h
    simp [hi, Nat.zero_lt_of_lt hi]
  · simp only [h, decide_false, Bool.and_eq_false_imp, Bool.and_eq_true, decide_eq_true_eq,
      Bool.not_eq_true', decide_eq_false_iff_not, not_lt]
    omega

/-- Setting a bit changes nothing if it is set already. -/
theorem or_mask_eq_self {word : BitVec w} {i : ℕ} (hi : i < w) :
  word ||| mask i = word ↔ word.getLsbD i = true
  := by
  constructor
  · intro h
    rw [← h, BitVec.getLsbD_or, getLsbD_mask hi, decide_eq_true rfl, Bool.or_true]
  · intro h
    apply BitVec.eq_of_getLsbD_eq
    intro j _
    rw [BitVec.getLsbD_or, getLsbD_mask hi]
    by_cases hj : j = i
    · subst hj
      rw [h, Bool.true_or]
    · rw [decide_eq_false hj, Bool.or_false]

theorem ffs_eq_zero {word : BitVec w} :
  ffs word = 0 ↔ ∀ i < w, word.getLsbD i = false
  := by
  unfold ffs
  cases h : (List.range w).find? (word.getLsbD ·) with
  | none => simpa using h
  | some i =>
      have hbit := List.find?_some h
      have hmem := List.mem_of_find?_eq_some h
      simp only [Nat.add_eq_zero_iff, one_ne_zero, and_false, false_iff, not_forall]
      exact ⟨i, List.mem_range.mp hmem, by simp [hbit]⟩

/-- The first bit that is set. -/
theorem ffs_spec {word : BitVec w} (h : ffs word ≠ 0) :
  ffs word - 1 < w ∧ word.getLsbD (ffs word - 1) ∧ ∀ j < ffs word - 1, word.getLsbD j = false
  := by
  unfold ffs at h ⊢
  cases hfind : (List.range w).find? (word.getLsbD ·) with
  | none => simp [hfind] at h
  | some i =>
      rw [List.find?_range_eq_some] at hfind
      obtain ⟨hbit, hmem, hbefore⟩ := hfind
      refine ⟨List.mem_range.mp hmem, hbit, ?_⟩
      simpa using hbefore

/-! ### Sets -/

theorem test_cons (word : BitVec w) (words : List (BitVec w)) (n : ℕ) :
  test (word :: words) n = if n < w then word.getLsbD n else test words (n - w)
  := by
  unfold test
  split
  · rename_i h
    rw [Nat.div_eq_of_lt h, Nat.mod_eq_of_lt h, List.getD_cons_zero]
  · rename_i h
    cases w with
    | zero => simp [BitVec.of_length_zero]
    | succ w =>
        have hle := not_lt.mp h
        rw [Nat.div_eq_sub_div (Nat.succ_pos w) hle, List.getD_cons_succ,
          Nat.mod_eq_sub_mod hle]

/-- The set of the numbers below a bound. -/
theorem test_replicate {k n : ℕ} (h : n < k * w) :
  test (List.replicate k (BitVec.allOnes w)) n
  := by
  have hw : 0 < w := Nat.pos_of_lt_mul_left h
  have hindex : n / w < k := Nat.div_lt_of_lt_mul (by rwa [Nat.mul_comm])
  simp [test, List.getD_eq_getElem?_getD, hindex, Nat.mod_lt n hw]

theorem lt_of_test {words : List (BitVec w)} {n : ℕ} (h : test words n) :
  n < words.length * w
  := by
  apply Nat.lt_mul_of_div_lt
  · by_contra hge
    have hnone : words[n / w]? = none := List.getElem?_eq_none (not_lt.mp hge)
    simp [test, List.getD_eq_getElem?_getD, hnone] at h
  · apply Nat.pos_of_ne_zero
    rintro rfl
    simp [test, BitVec.of_length_zero] at h

theorem length_takeFirst {index n : ℕ} {words words' : List (BitVec w)}
    (h : takeFirst index words = some (n, words')) :
  words'.length = words.length
  := by
  induction words generalizing index words' with
  | nil => cases h
  | cons word words ih =>
      unfold takeFirst at h
      split at h
      · obtain ⟨-, rfl⟩ := Prod.mk.inj (Option.some.inj h)
        rfl
      · obtain ⟨⟨m, rest⟩, hrest, heq⟩ := Option.map_eq_some_iff.mp h
        cases heq
        rw [List.length_cons, List.length_cons, ih hrest]

theorem takeFirst_eq_none {index : ℕ} {words : List (BitVec w)} :
  takeFirst index words = none ↔ ∀ n, test words n = false
  := by
  induction words generalizing index with
  | nil => simp [takeFirst, test]
  | cons word words ih =>
      have hsplit : (∀ n, test (word :: words) n = false) ↔
          (∀ i < w, word.getLsbD i = false) ∧ ∀ n, test words n = false := by
        constructor
        · intro h
          constructor
          · intro i hi
            simpa [test_cons, hi] using h i
          · intro n
            simpa [test_cons] using h (n + w)
        · rintro ⟨hword, hwords⟩ n
          rw [test_cons]
          split
          · exact hword n ‹_›
          · exact hwords _
      rw [hsplit, ← ffs_eq_zero, ← @ih (index + 1), takeFirst]
      by_cases hffs : ffs word = 0
      · simp [hffs]
      · simp [hffs]

/-- What is taken is the least number of the set, and the rest stays. -/
theorem takeFirst_eq_some {index n : ℕ} {words words' : List (BitVec w)}
    (h : takeFirst index words = some (n, words')) :
  ∃ k, n = index * w + k ∧ test words k ∧ (∀ j < k, test words j = false)
    ∧ ∀ m, test words' m = (test words m && decide (m ≠ k))
  := by
  induction words generalizing index words' with
  | nil => cases h
  | cons word words ih =>
      unfold takeFirst at h
      split at h
      · rename_i hffs
        obtain ⟨rfl, rfl⟩ := Prod.mk.inj (Option.some.inj h)
        obtain ⟨hlt, hbit, hbefore⟩ := ffs_spec hffs
        refine ⟨ffs word - 1, by omega, by simpa [test_cons, hlt] using hbit, ?_, ?_⟩
        · intro j hj
          rw [test_cons, if_pos (hj.trans hlt)]
          exact hbefore j hj
        · intro m
          rw [test_cons, test_cons]
          split
          · rw [BitVec.getLsbD_xor, getLsbD_mask hlt]
            by_cases hm : m = ffs word - 1
            · subst hm
              simp [hbit]
            · simp [hm]
          · have hm : m ≠ ffs word - 1 := by omega
            simp [hm]
      · rename_i hffs
        obtain ⟨⟨m, rest⟩, hrest, heq⟩ := Option.map_eq_some_iff.mp h
        cases heq
        obtain ⟨k, rfl, hk, hbefore, hothers⟩ := ih hrest
        have hword := ffs_eq_zero.mp (not_not.mp hffs)
        refine ⟨w + k, by ring, by simpa [test_cons] using hk, ?_, ?_⟩
        · intro j hj
          rw [test_cons]
          split
          · exact hword j ‹_›
          · exact hbefore _ (by omega)
        · intro m
          rw [test_cons, test_cons]
          split
          · simp [hword m ‹_›]
          · rw [hothers]
            congr 2
            apply propext
            omega

/-- The set with another number. -/
def set (words : List (BitVec w)) (n : ℕ) : List (BitVec w) :=
  words.set (n / w) (words.getD (n / w) 0#w ||| mask (n % w))

/-- Nothing changes if the bit of the number is set already. -/
theorem set_eq_self {words : List (BitVec w)} {n : ℕ}
    (h : words.getD (n / w) 0#w ||| mask (n % w) = words.getD (n / w) 0#w) :
  set words n = words
  := by
  rw [set, h, List.getD_eq_getElem?_getD]
  by_cases hindex : n / w < words.length
  · rw [List.getElem?_eq_getElem hindex, Option.getD_some, List.set_getElem_self]
  · rw [List.set_eq_of_length_le (not_lt.mp hindex)]

theorem test_set {words : List (BitVec w)} {n : ℕ} (h : n < words.length * w) (m : ℕ) :
  test (set words n) m = (test words m || decide (m = n))
  := by
  have hw : 0 < w := Nat.pos_of_lt_mul_left h
  have hindex : n / w < words.length := Nat.div_lt_of_lt_mul (by rwa [Nat.mul_comm])
  unfold test set
  by_cases hdiv : m / w = n / w
  · rw [hdiv, List.getD_eq_getElem?_getD, List.getElem?_set_self hindex, Option.getD_some,
      BitVec.getLsbD_or, getLsbD_mask (Nat.mod_lt _ hw)]
    congr 2
    apply propext
    constructor
    · intro hmod
      rw [← Nat.div_add_mod m w, ← Nat.div_add_mod n w, hdiv, hmod]
    · rintro rfl
      rfl
  · have hne : m ≠ n := by
      rintro rfl
      exact hdiv rfl
    rw [List.getD_eq_getElem?_getD, List.getElem?_set_ne (Ne.symm hdiv),
      ← List.getD_eq_getElem?_getD]
    simp [hne]

end Bitmap
