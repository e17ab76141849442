import Mathlib

/-!
# Byte strings

`Str` is the type of strings of bytes.  A number is printed in a base by `numeral` and
read back by `readNumeral`; a numeral consists of digits only.  Fields are joined by
separators: where a separator occurs in neither of two fields, the text before it and
the field after it are determined by their concatenation.
-/

/-- A string of bytes. -/
abbrev Str := List UInt8

namespace Str

/-- The bytes of an ASCII literal. -/
def ofString (s : String) : Str :=
  s.toList.map fun c => UInt8.ofNat c.toNat

/-- The ASCII code of a decimal or hexadecimal digit, in upper case. -/
def digit (d : ℕ) : UInt8 :=
  if d < 10 then UInt8.ofNat (48 + d) else UInt8.ofNat (55 + d)

/-- The value of a decimal or hexadecimal digit, of either case. -/
def digitValue (c : UInt8) : Option ℕ :=
  if 48 ≤ c ∧ c ≤ 57 then some (c.toNat - 48)
  else if 65 ≤ c ∧ c ≤ 70 then some (c.toNat - 55)
  else if 97 ≤ c ∧ c ≤ 102 then some (c.toNat - 87)
  else none

/-- The numeral of `n` in base `b`, most significant digit first, in upper case. -/
def numeral (b n : ℕ) : Str :=
  if n = 0 then [digit 0] else (Nat.digits b n).reverse.map digit

/-- The number a text of digits denotes in base `b`. -/
def readNumeral (b : ℕ) (s : Str) : ℕ :=
  s.foldl (fun n c => b * n + (digitValue c).getD 0) 0

/-- The decimal numeral of `n`. -/
def decimal (n : ℕ) : Str := numeral 10 n

/-! ### Numerals -/

theorem digitValue_digit {d : ℕ} (h : d < 16) :
  digitValue (digit d) = some d
  := by
  revert d
  decide

/-- Every byte of a numeral is a digit of its base. -/
theorem mem_numeral {b n : ℕ} (hb : 1 < b) {c : UInt8} (h : c ∈ numeral b n) :
  ∃ d < b, c = digit d
  := by
  unfold numeral at h
  split at h
  · use 0, by omega
    simpa using h
  · simp only [List.map_reverse, List.mem_reverse, List.mem_map] at h
    obtain ⟨d, hd, rfl⟩ := h
    use d, Nat.digits_lt_base hb hd

/-- A byte that is no digit does not occur in a numeral. -/
theorem notMem_numeral {b n : ℕ} (hb : 1 < b) (hb' : b ≤ 16) {c : UInt8}
    (hc : digitValue c = none) :
  c ∉ numeral b n
  := by
  intro h
  obtain ⟨d, hd, rfl⟩ := mem_numeral hb h
  rw [digitValue_digit (by omega)] at hc
  contradiction

theorem numeral_ne_nil (b n : ℕ) :
  numeral b n ≠ []
  := by
  unfold numeral
  split
  · simp
  · simpa using Nat.digits_ne_nil_iff_ne_zero.mpr ‹_›

private theorem readNumeral_map_digit {b : ℕ} (hb' : b ≤ 16) (ds : List ℕ)
    (h : ∀ d ∈ ds, d < b) :
  readNumeral b (ds.reverse.map digit) = Nat.ofDigits b ds
  := by
  induction ds with
  | nil => rfl
  | cons d ds ih =>
      have hd : digitValue (digit d) = some d := by
        apply digitValue_digit
        exact lt_of_lt_of_le (h d List.mem_cons_self) hb'
      have ih := ih fun e he => h e (List.mem_cons_of_mem d he)
      unfold readNumeral at ih
      simp only [readNumeral, List.reverse_cons, List.map_append, List.map_cons, List.map_nil,
        List.foldl_append, List.foldl_cons, List.foldl_nil, ih, hd, Option.getD_some,
        Nat.ofDigits_cons]
      simp [add_comm]

/-- A numeral is read back as the number it prints. -/
theorem readNumeral_numeral {b : ℕ} (hb : 1 < b) (hb' : b ≤ 16) (n : ℕ) :
  readNumeral b (numeral b n) = n
  := by
  unfold numeral
  split
  · subst_vars
    simp [readNumeral, digitValue_digit]
  · rw [readNumeral_map_digit hb']
    · apply Nat.ofDigits_digits
    · intro d hd
      apply Nat.digits_lt_base hb hd

theorem decimal_injective : Function.Injective decimal := by
  intro m n h
  rw [← readNumeral_numeral (b := 10) (by omega) (by omega) m,
    ← readNumeral_numeral (b := 10) (by omega) (by omega) n]
  exact congrArg (readNumeral 10) h

/-! ### Separators -/

/-- Fields before a separator that occurs in neither are determined by the text. -/
theorem append_sep_inj_left {α : Type*} {sep : α} {a b x y : List α} (ha : sep ∉ a)
    (hb : sep ∉ b) (h : a ++ sep :: x = b ++ sep :: y) :
  a = b ∧ x = y
  := by
  induction a generalizing b with
  | nil =>
      cases b with
      | nil => simpa using h
      | cons c b =>
          simp only [List.nil_append, List.cons_append, List.cons.injEq] at h
          obtain ⟨rfl, -⟩ := h
          simp at hb
  | cons c a ih =>
      cases b with
      | nil =>
          simp only [List.cons_append, List.nil_append, List.cons.injEq] at h
          obtain ⟨rfl, -⟩ := h
          simp at ha
      | cons d b =>
          simp only [List.mem_cons, not_or] at ha hb
          simp only [List.cons_append, List.cons.injEq] at h
          obtain ⟨rfl, h⟩ := h
          obtain ⟨rfl, rfl⟩ := ih ha.2 hb.2 h
          exact ⟨rfl, rfl⟩

/-- Fields after a separator that occurs in neither are determined by the text. -/
theorem append_sep_inj_right {α : Type*} {sep : α} {a b x y : List α} (ha : sep ∉ a)
    (hb : sep ∉ b) (h : x ++ sep :: a = y ++ sep :: b) :
  x = y ∧ a = b
  := by
  have hrev : a.reverse ++ sep :: x.reverse = b.reverse ++ sep :: y.reverse := by
    simpa using congrArg List.reverse h
  obtain ⟨ha', hx'⟩ := append_sep_inj_left (by simpa using ha) (by simpa using hb) hrev
  exact ⟨List.reverse_injective hx', List.reverse_injective ha'⟩

end Str
