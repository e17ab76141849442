import Cynara.Library.Numerals

/-!
# Integers in the notation of C

A number in the notation of C is a sign, which may be missing, and digits.  They are hexadecimal
after `0x`, octal if the first one is a zero, and decimal otherwise.  `stoi0` follows `std::stoi`
with base 0: it skips white space and reads such a number from the front of a text, which need not
end there.

`Denotes` says that a whole text is a number, and `Integer.split` gives the parts of a text as
`stoi0` finds them; a text is a number exactly if there is neither white space before nor anything
after the digits.
-/

namespace Str

/-- `std::tolower` in the C locale. -/
def tolower (c : UInt8) : UInt8 := if 65 ≤ c ∧ c ≤ 90 then c + 32 else c

/-- The digits of a base. -/
def isDigit (b : ℕ) (c : UInt8) : Bool := (digitValue c).any (· < b)

/-- The base of a number and its digits, with what follows them. -/
def takeBase (s : Str) : ℕ × Str :=
  if dropHexPrefix s ≠ s then (16, dropHexPrefix s)
  else if s.head? = some 48 then (8, s)
  else (10, s)

/-- The number at the front of a text and the text after it, if there is one. -/
def strtol0 (s : Str) : Option (ℤ × Str) :=
  let (negative, s) := takeSign (s.dropWhile isspace)
  let (b, s) := takeBase s
  let digits := s.takeWhile (isDigit b)
  if digits.isEmpty then none
  else
    let n : ℤ := readNumeral b digits
    some (if negative then -n else n, s.dropWhile (isDigit b))

/-- `std::stoi` with base 0; `none` stands for its exceptions. -/
def stoi0 (s : Str) : Option (ℤ × Str) :=
  match strtol0 s with
  | some (n, rest) => if -2 ^ 31 ≤ n ∧ n < 2 ^ 31 then some (n, rest) else none
  | none => none

/-! ### The parts of a text -/

/-- The parts of a text that starts with a number, and the base of its digits. -/
structure Integer where
  spaces : Str
  sign : Str
  base : Str
  radix : ℕ
  digits : Str
  rest : Str
deriving DecidableEq

namespace Integer

/-- The parts of a text, as `strtol` with base 0 finds them. -/
def split (text : Str) : Integer :=
  let signed := text.dropWhile isspace
  let unsigned := (takeSign signed).2
  let number := takeBase unsigned
  { spaces := text.takeWhile isspace
    sign := before signed unsigned
    base := before unsigned number.2
    radix := number.1
    digits := number.2.takeWhile (isDigit number.1)
    rest := number.2.dropWhile (isDigit number.1) }

/-- The number that is written. -/
def value (x : Integer) : ℤ :=
  if x.sign = [45] then -(readNumeral x.radix x.digits : ℤ) else readNumeral x.radix x.digits

/-- The values of an `int`. -/
def InRange (x : Integer) : Prop := -2 ^ 31 ≤ x.value ∧ x.value < 2 ^ 31

instance (x : Integer) : Decidable x.InRange :=
  inferInstanceAs (Decidable (_ ∧ _))

end Integer

/-- The sign is what is taken off a text. -/
theorem takeSign_cases (s : Str) :
  takeSign s = (false, s) ∧ s.head? ≠ some 45 ∧ s.head? ≠ some 43
    ∨ (∃ t, s = 43 :: t ∧ takeSign s = (false, t)) ∨ ∃ t, s = 45 :: t ∧ takeSign s = (true, t)
  := by
  cases s with
  | nil => exact Or.inl ⟨rfl, by simp, by simp⟩
  | cons c s =>
      by_cases hminus : c = 45
      · refine Or.inr (Or.inr ⟨s, by rw [hminus], ?_⟩)
        simp [takeSign, hminus]
      · by_cases hplus : c = 43
        · refine Or.inr (Or.inl ⟨s, by rw [hplus], ?_⟩)
          simp [takeSign, hplus]
        · refine Or.inl ⟨?_, by simpa using hminus, by simpa using hplus⟩
          simp [takeSign, hminus, hplus]

theorem before_cons (c : UInt8) (s : Str) :
  before (c :: s) s = [c]
  := before_of_append [c] s

theorem takeBase_suffix (s : Str) :
  (takeBase s).2 <:+ s
  := by
  unfold takeBase
  split
  · exact dropHexPrefix_suffix s
  · split
    · exact List.suffix_refl s
    · exact List.suffix_refl s

namespace Integer

theorem split_append (text : Str) :
  let x := split text
  x.spaces ++ (x.sign ++ (x.base ++ (x.digits ++ x.rest))) = text
  := by
  simp only [split]
  rw [List.takeWhile_append_dropWhile, before_append (takeBase_suffix _),
    before_append (takeSign_suffix _), List.takeWhile_append_dropWhile]

/-- The sign of a number, as `strtol` finds it. -/
theorem sign_split (text : Str) :
  ((split text).sign = [] ∨ (split text).sign = [43] ∨ (split text).sign = [45])
    ∧ ((takeSign (text.dropWhile isspace)).1 = true ↔ (split text).sign = [45])
  := by
  simp only [split]
  generalize text.dropWhile isspace = signed
  obtain ⟨h, -⟩ | ⟨t, rfl, h⟩ | ⟨t, rfl, h⟩ := takeSign_cases signed
  · simp [h, before_self]
  · simp [h, before_cons]
  · simp [h, before_cons]

/-- What `stoi` reads from a text. -/
theorem stoi0_eq (text : Str) :
  stoi0 text = if (split text).digits ≠ [] ∧ (split text).InRange
    then some ((split text).value, (split text).rest) else none
  := by
  have hvalue : (if (takeSign (text.dropWhile isspace)).1 = true
      then -(readNumeral (split text).radix (split text).digits : ℤ)
      else readNumeral (split text).radix (split text).digits) = (split text).value := by
    simp only [value, (sign_split text).2]
  have hstrtol : strtol0 text = if (split text).digits = [] then none
      else some ((split text).value, (split text).rest) := by
    rw [← hvalue]
    simp only [strtol0, split, List.isEmpty_iff]
    congr
  rw [stoi0, hstrtol]
  by_cases hdigits : (split text).digits = []
  · simp [hdigits]
  · simp [hdigits, InRange]

end Integer

/-! ### Whole texts -/

/-- The ways in which the base of a number is given. -/
def IsBase (base : Str) (radix : ℕ) (digits : Str) : Prop :=
  radix = 16 ∧ (base = [48, 120] ∨ base = [48, 88])
    ∨ radix = 8 ∧ base = [] ∧ digits.head? = some 48
    ∨ radix = 10 ∧ base = [] ∧ digits.head? ≠ some 48

/-- A text is a number. -/
def Denotes (text : Str) (n : ℤ) : Prop :=
  ∃ sign base radix digits, text = sign ++ (base ++ digits)
    ∧ (sign = [] ∨ sign = [43] ∨ sign = [45]) ∧ IsBase base radix digits
    ∧ digits ≠ [] ∧ (∀ c ∈ digits, isDigit radix c = true)
    ∧ n = if sign = [45] then -(readNumeral radix digits : ℤ) else readNumeral radix digits

theorem isxdigit_of_isDigit {b : ℕ} {c : UInt8} (h : isDigit b c = true) :
  isxdigit c = true
  := by
  obtain ⟨d, hd, -⟩ := (Option.any_eq_true _ _).mp h
  rw [isxdigit, hd, Option.isSome_some]

/-- The digits of a number follow its base. -/
theorem takeBase_of_isBase {base digits : Str} {radix : ℕ} (hbase : IsBase base radix digits)
    (hne : digits ≠ []) (hdigits : ∀ c ∈ digits, isDigit radix c = true) :
  takeBase (base ++ digits) = (radix, digits)
  := by
  have hxdigits : ∀ c ∈ digits, isxdigit c = true := fun c hc => isxdigit_of_isDigit (hdigits c hc)
  have hdrop : dropHexPrefix (base ++ digits) = digits := by
    have hstrict : base = [] ∨ base = [48, 120] ∨ base = [48, 88] := by
      obtain ⟨-, h⟩ | ⟨-, h, -⟩ | ⟨-, h, -⟩ := hbase
      · exact Or.inr h
      · exact Or.inl h
      · exact Or.inl h
    have happend : dropHexPrefix (base ++ (digits ++ [])) = digits ++ [] :=
      Numeral.dropHexPrefix_strict hstrict hne hxdigits (by simp)
    rwa [List.append_nil] at happend
  obtain ⟨rfl, h⟩ | ⟨rfl, rfl, hhead⟩ | ⟨rfl, rfl, hhead⟩ := hbase
  · have hbase : base ≠ [] := by
      rintro rfl
      simp at h
    rw [takeBase, if_pos, hdrop]
    simpa [hdrop] using Ne.symm hbase
  · rw [List.nil_append] at hdrop ⊢
    rw [takeBase, if_neg (not_not.mpr hdrop), if_pos hhead]
  · rw [List.nil_append] at hdrop ⊢
    rw [takeBase, if_neg (not_not.mpr hdrop), if_neg hhead]

/-- The base that is found in a text. -/
theorem isBase_takeBase (s : Str) :
  IsBase (before s (takeBase s).2) (takeBase s).1
    ((takeBase s).2.takeWhile (isDigit (takeBase s).1))
  := by
  have hzero : isDigit 8 48 = true := by decide
  unfold takeBase
  split
  · rename_i hprefixed
    refine Or.inl ⟨rfl, ?_⟩
    obtain hnone | hbase := before_dropHexPrefix s
    · have happend := before_append (dropHexPrefix_suffix s)
      rw [hnone, List.nil_append] at happend
      contradiction
    · exact hbase
  · split
    · rename_i hhead
      refine Or.inr (Or.inl ⟨rfl, before_self s, ?_⟩)
      simp [List.head?_takeWhile, hhead, hzero]
    · rename_i hhead
      refine Or.inr (Or.inr ⟨rfl, before_self s, ?_⟩)
      rw [List.head?_takeWhile]
      intro hfilter
      exact hhead (Option.filter_eq_some_iff.mp hfilter).1

namespace Integer

/-- The parts of a number are found in it. -/
theorem split_of_parts {sign base digits : Str} {radix : ℕ}
    (hsign : sign = [] ∨ sign = [43] ∨ sign = [45]) (hbase : IsBase base radix digits)
    (hne : digits ≠ []) (hdigits : ∀ c ∈ digits, isDigit radix c = true) :
  split (sign ++ (base ++ digits)) = ⟨[], sign, base, radix, digits, []⟩
  := by
  -- the digits and the base start with a digit, which is neither white space nor a sign
  obtain ⟨d, text, htext, hd⟩ : ∃ d text, base ++ digits = d :: text ∧ isxdigit d = true := by
    obtain ⟨d, digits, rfl⟩ := List.exists_cons_of_ne_nil hne
    obtain ⟨-, rfl | rfl⟩ | ⟨-, rfl, -⟩ | ⟨-, rfl, -⟩ := hbase
    · exact ⟨48, _, rfl, by decide⟩
    · exact ⟨48, _, rfl, by decide⟩
    · exact ⟨d, digits, rfl, isxdigit_of_isDigit (hdigits d List.mem_cons_self)⟩
    · exact ⟨d, digits, rfl, isxdigit_of_isDigit (hdigits d List.mem_cons_self)⟩
  obtain ⟨hspace, hminus, hplus⟩ := Numeral.not_isspace_of_isxdigit hd
  have hfront : ∀ c ∈ (sign ++ (base ++ digits)).head?, isspace c = false := by
    obtain rfl | rfl | rfl := hsign
    · simpa [htext] using hspace
    · simp only [List.singleton_append, List.head?_cons, Option.mem_def, Option.some.injEq,
        forall_eq']
      decide
    · simp only [List.singleton_append, List.head?_cons, Option.mem_def, Option.some.injEq,
        forall_eq']
      decide
  have hsigned : takeSign (sign ++ (base ++ digits)) = (decide (sign = [45]), base ++ digits) := by
    obtain rfl | rfl | rfl := hsign
    · simp [htext, takeSign, hminus, hplus]
    · simp [takeSign]
    · simp [takeSign]
  obtain ⟨htakeSpaces, hdropSpaces⟩ :=
    takeWhile_dropWhile_append (p := isspace) (s := []) (by simp) hfront
  obtain ⟨htake, hdrop⟩ :=
    takeWhile_dropWhile_append hdigits (show ∀ c ∈ ([] : Str).head?, _ from by simp)
  rw [List.nil_append] at htakeSpaces hdropSpaces
  rw [List.append_nil] at htake hdrop
  simp only [split, htakeSpaces, hdropSpaces, hsigned, takeBase_of_isBase hbase hne hdigits, htake,
    hdrop, before_of_append]

/-- A text is a number exactly if it has the parts of one and nothing else. -/
theorem denotes_iff {text : Str} {n : ℤ} :
  Denotes text n ↔ (split text).spaces = [] ∧ (split text).rest = [] ∧ (split text).digits ≠ []
    ∧ (split text).value = n
  := by
  constructor
  · rintro ⟨sign, base, radix, digits, rfl, hsign, hbase, hne, hdigits, rfl⟩
    rw [split_of_parts hsign hbase hne hdigits]
    exact ⟨rfl, rfl, hne, rfl⟩
  · rintro ⟨hspaces, hrest, hne, rfl⟩
    have happend := split_append text
    simp only [hspaces, hrest, List.nil_append, List.append_nil] at happend
    refine ⟨_, _, _, _, happend.symm, (sign_split text).1, isBase_takeBase _, hne, ?_, rfl⟩
    intro c hc
    exact List.mem_takeWhile_imp hc

end Integer

/-! ### Letters -/

theorem digitValue_tolower (c : UInt8) :
  digitValue (tolower c) = digitValue c
  := by
  have hall : ∀ n < 256, digitValue (tolower (UInt8.ofNat n)) = digitValue (UInt8.ofNat n) := by
    decide +kernel
  have hc := hall c.toNat c.toNat_lt
  rwa [UInt8.ofNat_toNat] at hc

/-- The bytes with a given lower case. -/
theorem tolower_eq_iff (c : UInt8) :
  (tolower c = 43 ↔ c = 43) ∧ (tolower c = 45 ↔ c = 45) ∧ (tolower c = 48 ↔ c = 48)
    ∧ (tolower c = 120 ↔ c = 120 ∨ c = 88) ∧ tolower c ≠ 88
  := by
  have hall : ∀ n < 256, (tolower (UInt8.ofNat n) = 43 ↔ UInt8.ofNat n = 43)
      ∧ (tolower (UInt8.ofNat n) = 45 ↔ UInt8.ofNat n = 45)
      ∧ (tolower (UInt8.ofNat n) = 48 ↔ UInt8.ofNat n = 48)
      ∧ (tolower (UInt8.ofNat n) = 120 ↔ UInt8.ofNat n = 120 ∨ UInt8.ofNat n = 88)
      ∧ tolower (UInt8.ofNat n) ≠ 88 := by
    decide +kernel
  have hc := hall c.toNat c.toNat_lt
  rwa [UInt8.ofNat_toNat] at hc

theorem readNumeral_map_tolower (b : ℕ) (s : Str) :
  readNumeral b (s.map tolower) = readNumeral b s
  := by
  simp only [readNumeral, List.foldl_map, digitValue_tolower]

theorem isDigit_tolower (b : ℕ) (c : UInt8) :
  isDigit b (tolower c) = isDigit b c
  := by
  rw [isDigit, digitValue_tolower, isDigit]

theorem head?_map_tolower (s : Str) :
  (s.map tolower).head? = some 48 ↔ s.head? = some 48
  := by
  cases s with
  | nil => rfl
  | cons c s => simp [(tolower_eq_iff c).2.2.1]

theorem isBase_map_tolower {base digits : Str} {radix : ℕ} :
  IsBase (base.map tolower) radix (digits.map tolower) ↔ IsBase base radix digits
  := by
  have hprefix : base.map tolower = [48, 120] ∨ base.map tolower = [48, 88]
      ↔ base = [48, 120] ∨ base = [48, 88] := by
    simp only [List.map_eq_cons_iff, List.map_eq_nil_iff]
    constructor
    · rintro (⟨z, s, rfl, hz, x, t, rfl, hx, rfl⟩ | ⟨z, s, rfl, -, x, t, rfl, hx, rfl⟩)
      · obtain rfl := (tolower_eq_iff z).2.2.1.mp hz
        obtain rfl | rfl := (tolower_eq_iff x).2.2.2.1.mp hx
        · exact Or.inl rfl
        · exact Or.inr rfl
      · exact absurd hx (tolower_eq_iff x).2.2.2.2
    · rintro (rfl | rfl)
      · exact Or.inl ⟨48, _, rfl, by decide, 120, _, rfl, by decide, rfl⟩
      · exact Or.inl ⟨48, _, rfl, by decide, 88, _, rfl, by decide, rfl⟩
  simp only [IsBase, hprefix, List.map_eq_nil_iff, ne_eq, head?_map_tolower]

theorem sign_map_tolower (sign : Str) :
  (sign.map tolower = [] ∨ sign.map tolower = [43] ∨ sign.map tolower = [45]
      ↔ sign = [] ∨ sign = [43] ∨ sign = [45])
    ∧ (sign.map tolower = [45] ↔ sign = [45])
  := by
  cases sign with
  | nil => simp
  | cons c sign => simp [(tolower_eq_iff c).1, (tolower_eq_iff c).2.1]

/-- A number may be written in upper and lower case. -/
theorem denotes_map_tolower {text : Str} {n : ℤ} :
  Denotes (text.map tolower) n ↔ Denotes text n
  := by
  constructor
  · rintro ⟨_, _, radix, _, htext, hsign, hbase, hne, hdigits, rfl⟩
    obtain ⟨sign, rest, rfl, rfl, hrest⟩ := List.map_eq_append_iff.mp htext
    obtain ⟨base, digits, rfl, rfl, rfl⟩ := List.map_eq_append_iff.mp hrest
    refine ⟨sign, base, radix, digits, rfl, (sign_map_tolower sign).1.mp hsign,
      isBase_map_tolower.mp hbase, by simpa using hne, fun c hc => ?_, ?_⟩
    · rw [← isDigit_tolower]
      exact hdigits _ (List.mem_map_of_mem hc)
    · simp only [(sign_map_tolower sign).2, readNumeral_map_tolower]
  · rintro ⟨sign, base, radix, digits, rfl, hsign, hbase, hne, hdigits, rfl⟩
    refine ⟨sign.map tolower, base.map tolower, radix, digits.map tolower, by simp,
      (sign_map_tolower sign).1.mpr hsign, isBase_map_tolower.mpr hbase, by simpa using hne,
      fun c hc => ?_, ?_⟩
    · obtain ⟨d, hd, rfl⟩ := List.mem_map.mp hc
      rw [isDigit_tolower]
      exact hdigits d hd
    · simp only [(sign_map_tolower sign).2, readNumeral_map_tolower]

theorem map_tolower_map_tolower (s : Str) :
  (s.map tolower).map tolower = s.map tolower
  := by
  have hall : ∀ n < 256, tolower (tolower (UInt8.ofNat n)) = tolower (UInt8.ofNat n) := by
    decide +kernel
  rw [List.map_map]
  apply List.map_congr_left
  intro c _
  have hc := hall c.toNat c.toNat_lt
  rwa [UInt8.ofNat_toNat] at hc

/-! ### Decimal numbers -/

/-- The bytes of a decimal number are digits, which have no case. -/
theorem of_mem_decimal {n : ℕ} {c : UInt8} (h : c ∈ decimal n) :
  isDigit 10 c = true ∧ tolower c = c
  := by
  have hall : ∀ d < 10, isDigit 10 (digit d) = true ∧ tolower (digit d) = digit d := by decide
  obtain ⟨d, hd, rfl⟩ := mem_numeral (by omega) h
  exact hall d hd

theorem map_tolower_decimal (n : ℕ) :
  (decimal n).map tolower = decimal n
  := by
  conv_rhs => rw [← List.map_id (decimal n)]
  exact List.map_congr_left fun c hc => (of_mem_decimal hc).2

/-- A decimal number other than zero does not start with a zero. -/
theorem head?_decimal {n : ℕ} (h : n ≠ 0) :
  (decimal n).head? ≠ some 48
  := by
  have hall : ∀ d < 10, d ≠ 0 → some (digit d) ≠ some 48 := by decide
  have hne : Nat.digits 10 n ≠ [] := Nat.digits_ne_nil_iff_ne_zero.mpr h
  have hlast := Nat.getLast_digit_ne_zero 10 h
  have hlt := Nat.digits_lt_base (by omega) (List.getLast_mem hne)
  rw [decimal, numeral, if_neg h, List.head?_map, List.head?_reverse,
    List.getLast?_eq_some_getLast hne, Option.map_some]
  exact hall _ hlt hlast

/-- A decimal number is read back. -/
theorem stoi0_decimal {n : ℕ} (hn : n < 2 ^ 31) :
  stoi0 (decimal n) = some ((n : ℤ), [])
  := by
  obtain ⟨radix, hbase, hdigits, hread⟩ : ∃ radix, IsBase [] radix (decimal n)
      ∧ (∀ c ∈ decimal n, isDigit radix c = true) ∧ readNumeral radix (decimal n) = n := by
    by_cases hzero : n = 0
    · subst hzero
      have hdecimal : decimal 0 = [48] := rfl
      rw [hdecimal]
      exact ⟨8, Or.inr (Or.inl ⟨rfl, rfl, rfl⟩), by decide +kernel, by decide +kernel⟩
    · exact ⟨10, Or.inr (Or.inr ⟨rfl, rfl, head?_decimal hzero⟩),
        fun c hc => (of_mem_decimal hc).1, readNumeral_numeral (by omega) (by omega) n⟩
  have hsplit := Integer.split_of_parts (Or.inl rfl) hbase (numeral_ne_nil 10 n) hdigits
  rw [List.nil_append, List.nil_append] at hsplit
  have hvalue : (Integer.split (decimal n)).value = n := by
    rw [hsplit, Integer.value, if_neg (by simp), hread]
  have hrange : (Integer.split (decimal n)).InRange := by
    rw [Integer.InRange, hvalue]
    omega
  have hdigits : (Integer.split (decimal n)).digits ≠ [] := by
    rw [hsplit]
    exact numeral_ne_nil 10 n
  rw [Integer.stoi0_eq, if_pos ⟨hdigits, hrange⟩, hvalue, hsplit]

end Str
