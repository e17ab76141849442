import Cynara.Library.Records

/-!
# The parts of a number

A text that starts with a number in base 16 is made up of white space, a sign, the prefix `0x`,
digits and the rest, where all but the digits may be missing.  A text is a number in a strict sense
if there is neither white space nor a sign.
-/

namespace Str

/-- The parts of a text that starts with a number. -/
structure Numeral where
  spaces : Str
  sign : Str
  base : Str
  digits : Str
  rest : Str
deriving DecidableEq

/-- The text in front of one of its suffixes. -/
def before (s t : Str) : Str := s.take (s.length - t.length)

theorem before_append {s t : Str} (h : t <:+ s) :
  before s t ++ t = s
  := (List.suffix_iff_eq_append.mp h)

theorem before_of_append (s t : Str) :
  before (s ++ t) t = s
  := by
  simp [before]

theorem before_self (s : Str) :
  before s s = []
  := by
  simp [before]

/-- The prefix that is dropped from a number. -/
theorem before_dropHexPrefix (s : Str) :
  before s (dropHexPrefix s) = [] ∨ before s (dropHexPrefix s) = [48, 120]
    ∨ before s (dropHexPrefix s) = [48, 88]
  := by
  unfold dropHexPrefix
  split
  · rename_i z x d s
    split
    · rename_i hprefixed
      obtain ⟨rfl, rfl | rfl, -⟩ := hprefixed
      · exact Or.inr (Or.inl (before_of_append [48, 120] (d :: s)))
      · exact Or.inr (Or.inr (before_of_append [48, 88] (d :: s)))
    · exact Or.inl (before_self _)
  · exact Or.inl (before_self _)

namespace Numeral

/-- The parts of a text, as `strtol` finds them. -/
def split (text : Str) : Numeral :=
  let signed := text.dropWhile isspace
  let unsigned := (takeSign signed).2
  let number := dropHexPrefix unsigned
  { spaces := text.takeWhile isspace
    sign := before signed unsigned
    base := before unsigned number
    digits := number.takeWhile isxdigit
    rest := number.dropWhile isxdigit }

/-- The value without its sign. -/
def magnitude (x : Numeral) : ℕ := readNumeral 16 x.digits

theorem split_append (text : Str) :
  let x := split text
  x.spaces ++ (x.sign ++ (x.base ++ (x.digits ++ x.rest))) = text
  := by
  simp only [split]
  rw [List.takeWhile_append_dropWhile, before_append (dropHexPrefix_suffix _),
    before_append (takeSign_suffix _), List.takeWhile_append_dropWhile]

theorem takeSign_of_before {s : Str} (h : before s (takeSign s).2 = []) :
  takeSign s = (false, s)
  := by
  have hsame : (takeSign s).2 = s := by
    have happend := before_append (takeSign_suffix s)
    rwa [h, List.nil_append] at happend
  cases s with
  | nil => rfl
  | cons c s =>
      simp only [takeSign] at hsame ⊢
      by_cases hminus : c = 45
      · simp [hminus] at hsame
      · by_cases hplus : c = 43
        · simp [hplus] at hsame
        · simp [hminus, hplus]

/-- The prefix of a number. -/
theorem base_split (text : Str) :
  (split text).base = [] ∨ (split text).base = [48, 120] ∨ (split text).base = [48, 88]
  := before_dropHexPrefix _

/-- What `stoi` reads from a text, in terms of its parts. -/
theorem stoi16_eq_some {text rest : Str} {n : ℤ} (h : stoi16 text = some (n, rest)) :
  (split text).digits ≠ [] ∧ rest = (split text).rest ∧
    n = if (takeSign (text.dropWhile isspace)).1 then -((split text).magnitude : ℤ)
      else (split text).magnitude
  := by
  unfold stoi16 at h
  split at h
  · rename_i n' rest' hstrtol
    split at h
    · cases h
      unfold strtol16 at hstrtol
      dsimp only at hstrtol
      split at hstrtol
      · contradiction
      · rename_i hdigits
        cases hstrtol
        exact ⟨fun hempty => hdigits (List.isEmpty_iff.mpr hempty), rfl, rfl⟩
    · contradiction
  · contradiction

/-! ### Strict numbers -/

theorem not_isspace_of_isxdigit {c : UInt8} (h : isxdigit c = true) :
  isspace c = false ∧ c ≠ 45 ∧ c ≠ 43
  := by
  have hlow : 48 ≤ c := by
    by_contra hlow
    simp only [isxdigit, digitValue] at h
    split at h
    · rename_i hc
      exact hlow hc.1
    · split at h
      · rename_i hc
        exact hlow (UInt8.le_trans (by decide) hc.1)
      · split at h
        · rename_i hc
          exact hlow (UInt8.le_trans (by decide) hc.1)
        · contradiction
  refine ⟨?_, ?_, ?_⟩
  · rw [Bool.eq_false_iff]
    intro hspace
    have hspace : c = 32 ∨ 9 ≤ c ∧ c ≤ 13 := by simpa [isspace] using hspace
    rcases hspace with rfl | ⟨-, hc⟩
    · exact absurd hlow (by decide)
    · exact absurd (UInt8.le_trans hlow hc) (by decide)
  · rintro rfl
    exact absurd hlow (by decide)
  · rintro rfl
    exact absurd hlow (by decide)

theorem dropHexPrefix_strict {base digits rest : Str}
    (hbase : base = [] ∨ base = [48, 120] ∨ base = [48, 88]) (hne : digits ≠ [])
    (hdigits : ∀ c ∈ digits, isxdigit c = true)
    (hrest : ∀ c ∈ rest.head?, isxdigit c = false ∧ c ≠ 120 ∧ c ≠ 88) :
  dropHexPrefix (base ++ (digits ++ rest)) = digits ++ rest
  := by
  obtain ⟨d, digits, rfl⟩ := List.exists_cons_of_ne_nil hne
  have hd := hdigits d List.mem_cons_self
  rcases hbase with rfl | rfl | rfl
  · have hx : isxdigit 120 = false ∧ isxdigit 88 = false := by decide
    cases hsecond : digits ++ rest with
    | nil => simp [dropHexPrefix, hsecond]
    | cons x tail =>
        -- the second byte is a digit or follows the number
        have hne : ¬ (x = 120 ∨ x = 88) := by
          cases digits with
          | nil =>
              rw [List.nil_append] at hsecond
              have hx := hrest x (by rw [hsecond]; rfl)
              exact not_or_intro hx.2.1 hx.2.2
          | cons d' digits =>
              obtain ⟨rfl, -⟩ := List.cons.inj hsecond
              have hd' := hdigits d' (by simp)
              rintro (rfl | rfl)
              · simp [hx.1] at hd'
              · simp [hx.2] at hd'
        rw [List.nil_append, List.cons_append, hsecond]
        cases tail with
        | nil => rfl
        | cons _ _ => simp [dropHexPrefix, hne]
  · simp [dropHexPrefix, hd]
  · simp [dropHexPrefix, hd]

/-- The parts of a number without white space and sign. -/
theorem split_strict {base digits rest : Str}
    (hbase : base = [] ∨ base = [48, 120] ∨ base = [48, 88]) (hne : digits ≠ [])
    (hdigits : ∀ c ∈ digits, isxdigit c = true)
    (hrest : ∀ c ∈ rest.head?, isxdigit c = false ∧ c ≠ 120 ∧ c ≠ 88) :
  split (base ++ (digits ++ rest)) = ⟨[], [], base, digits, rest⟩
  := by
  obtain ⟨d, text, htext, hd⟩ :
      ∃ d text, base ++ (digits ++ rest) = d :: text ∧ isxdigit d = true := by
    obtain ⟨d, digits, rfl⟩ := List.exists_cons_of_ne_nil hne
    rcases hbase with rfl | rfl | rfl
    · exact ⟨d, digits ++ rest, rfl, hdigits d List.mem_cons_self⟩
    · exact ⟨48, _, rfl, by decide⟩
    · exact ⟨48, _, rfl, by decide⟩
  obtain ⟨hspace, hminus, hplus⟩ := not_isspace_of_isxdigit hd
  have hdropSpaces : (base ++ (digits ++ rest)).dropWhile isspace = base ++ (digits ++ rest) := by
    rw [htext, List.dropWhile_cons_of_neg (by simp [hspace])]
  have htakeSpaces : (base ++ (digits ++ rest)).takeWhile isspace = [] := by
    rw [htext, List.takeWhile_cons_of_neg (by simp [hspace])]
  have hsign : takeSign (base ++ (digits ++ rest)) = (false, base ++ (digits ++ rest)) := by
    rw [htext]
    simp [takeSign, hminus, hplus]
  obtain ⟨htake, hdrop⟩ := takeWhile_dropWhile_append hdigits fun c hc => (hrest c hc).1
  simp only [split, hdropSpaces, htakeSpaces, hsign, dropHexPrefix_strict hbase hne hdigits hrest,
    htake, hdrop, before_of_append]
  simp [before]

end Numeral

end Str
