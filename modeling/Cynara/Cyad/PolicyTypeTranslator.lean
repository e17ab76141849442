import Cynara.Library.Integers
import Cynara.Types.Policy

/-!
# Names of policy types

The administration tool takes a policy type as a text, which is the name of one of the types that
the service describes, one of the words `none` and `bucket`, or a number.  The number is read by
`std::stoi` and truncated to sixteen bits.  So a text is also accepted if there is white space
before the number or something after it, and a number that is negative or too large is taken for
another type.
-/

namespace Cynara

open PredefinedPolicyType Str

/-- The translator has the described types with their names in lower case. -/
structure PolicyTypeTranslator where
  descs : List (ℤ × Str) := []

namespace PolicyTypeTranslator

/-- The names of the two types that no plugin describes. -/
def BUCKET_LITERAL : Str := ofString "bucket"
def NONE_LITERAL : Str := ofString "none"

/-- The names that the library gives to the types, in lower case. -/
def setDescriptions (t : PolicyTypeTranslator) (descs : List PolicyDescription) :
    PolicyTypeTranslator :=
  ⟨t.descs ++ descs.map fun desc => ((desc.type.toNat : ℤ), desc.name.map tolower)⟩

/-- The conversion of an `int` to a policy type. -/
def narrow (n : ℤ) : PolicyType := UInt16.ofNat (n % 2 ^ 16).toNat

/-- The type that a text stands for; `none` stands for a `PolicyParsingException`. -/
def translate (t : PolicyTypeTranslator) (rawPolicy : Str) : Option PolicyType :=
  let policy := rawPolicy.map tolower
  match t.descs.find? fun desc => desc.2 = policy with
  | some desc => some (narrow desc.1)
  | none =>
      if policy = NONE_LITERAL then some NONE
      else if policy = BUCKET_LITERAL then some BUCKET
      else (stoi0 policy).map fun (n, _) => narrow n

/-- `std::to_string`. -/
def toString (n : ℤ) : Str := if n < 0 then 45 :: decimal n.natAbs else decimal n.natAbs

/-- The name of a type, or its number if it has none. -/
def humanize (t : PolicyTypeTranslator) (policy : ℤ) : Str :=
  match t.descs.find? fun desc => desc.1 = policy with
  | some desc => desc.2
  | none =>
      if policy = NONE.toNat then NONE_LITERAL
      else if policy = BUCKET.toNat then BUCKET_LITERAL
      else toString policy

/-! ### The types that a text may stand for -/

/-- A described type has a name, in upper or lower case. -/
def Named (descs : List PolicyDescription) (text : Str) (type : PolicyType) : Prop :=
  ∃ desc ∈ descs, desc.name.map tolower = text.map tolower ∧ desc.type = type

/-- A text is refused, or it is the name of the type that it is translated to, or the word or the
number of it. -/
def StandsFor (descs : List PolicyDescription) (text : Str) : Option PolicyType → Prop
  | none => True
  | some type =>
      Named descs text type
        ∨ text.map tolower = NONE_LITERAL ∧ type = NONE
        ∨ text.map tolower = BUCKET_LITERAL ∧ type = BUCKET
        ∨ Denotes text type.toNat

/-- A text does not start with a number that an `int` may have, or it is a number of at most sixteen
bits without a minus sign, and nothing else. -/
def IsPlain (x : Integer) : Prop :=
  x.digits = [] ∨ ¬ x.InRange ∨ x.spaces = [] ∧ x.rest = [] ∧ 0 ≤ x.value ∧ x.value ≤ 0xFFFF

instance (x : Integer) : Decidable (IsPlain x) :=
  inferInstanceAs (Decidable (_ ∨ _))

theorem narrow_natCast (type : PolicyType) :
  narrow type.toNat = type
  := by
  have hlt := type.toNat_lt
  have hmod : ((type.toNat : ℤ) % 2 ^ 16).toNat = type.toNat := by omega
  rw [narrow, hmod, UInt16.ofNat_toNat]

theorem toNat_narrow {n : ℤ} (h : 0 ≤ n) (h' : n ≤ 0xFFFF) :
  ((narrow n).toNat : ℤ) = n
  := by
  have hmod : (n % 2 ^ 16).toNat = n.toNat := by omega
  rw [narrow, hmod, UInt16.toNat_ofNat_of_lt']
  · omega
  · change n.toNat < 2 ^ 16
    omega

/-- What is read from a text is the number that the text is, exactly if the text is plain. -/
theorem denotes_iff_isPlain {text rest : Str} {n : ℤ}
    (h : stoi0 (text.map tolower) = some (n, rest)) :
  Denotes text (narrow n).toNat ↔ IsPlain (Integer.split (text.map tolower))
  := by
  rw [Integer.stoi0_eq] at h
  obtain ⟨⟨hdigits, hrange⟩, heq⟩ := Option.ite_none_right_eq_some.mp h
  obtain ⟨rfl, rfl⟩ := Prod.mk.inj (Option.some.inj heq)
  rw [← denotes_map_tolower, Integer.denotes_iff]
  constructor
  · rintro ⟨hspaces, hrest, -, hvalue⟩
    have hlt := (narrow (Integer.split (text.map tolower)).value).toNat_lt
    exact Or.inr (Or.inr ⟨hspaces, hrest, by omega, by omega⟩)
  · rintro (hnone | hout | ⟨hspaces, hrest, hlow, hhigh⟩)
    · contradiction
    · contradiction
    · exact ⟨hspaces, hrest, hdigits, (toNat_narrow hlow hhigh).symm⟩

/-- The description that is found for a text. -/
theorem find?_setDescriptions (descs : List PolicyDescription) (policy : Str) :
  (setDescriptions {} descs).descs.find? (fun desc => desc.2 = policy)
    = (descs.find? fun desc => desc.name.map tolower = policy).map
      fun desc => ((desc.type.toNat : ℤ), desc.name.map tolower)
  := by
  simp only [setDescriptions, List.nil_append, List.find?_map]
  rfl

theorem find?_eq_none_iff {descs : List PolicyDescription} {text : Str} :
  descs.find? (fun desc => desc.name.map tolower = text.map tolower) = none
    ↔ ¬ ∃ type, Named descs text type
  := by
  simp [Named]

/-- A text that is neither a name nor a word. -/
theorem standsFor_translate_of_not_named {descs : List PolicyDescription} {text : Str}
    (hnamed : ¬ ∃ type, Named descs text type) (hnone : text.map tolower ≠ NONE_LITERAL)
    (hbucket : text.map tolower ≠ BUCKET_LITERAL) :
  StandsFor descs text ((setDescriptions {} descs).translate text)
    ↔ IsPlain (Integer.split (text.map tolower))
  := by
  have htranslate : (setDescriptions {} descs).translate text
      = (stoi0 (text.map tolower)).map fun (n, _) => narrow n := by
    simp only [translate, find?_setDescriptions, find?_eq_none_iff.mpr hnamed, Option.map_none,
      if_neg hnone, if_neg hbucket]
  rw [htranslate]
  cases hstoi : stoi0 (text.map tolower) with
  | none =>
      rw [Integer.stoi0_eq, ite_eq_right_iff] at hstoi
      refine iff_of_true trivial ?_
      by_cases hdigits : (Integer.split (text.map tolower)).digits = []
      · exact Or.inl hdigits
      · exact Or.inr (Or.inl fun hrange => absurd (hstoi ⟨hdigits, hrange⟩) (by simp))
  | some read =>
      obtain ⟨n, rest⟩ := read
      rw [← denotes_iff_isPlain hstoi, Option.map_some, StandsFor]
      have hnot : ¬ Named descs text (narrow n) := fun h => hnamed ⟨_, h⟩
      simp only [hnot, hnone, hbucket, false_and, false_or]

/-- A text is translated to what it stands for exactly if it is a name of a type or a word, or is
plain. -/
theorem standsFor_translate_iff (descs : List PolicyDescription) (text : Str) :
  StandsFor descs text ((setDescriptions {} descs).translate text)
    ↔ (∃ type, Named descs text type) ∨ text.map tolower = NONE_LITERAL
      ∨ text.map tolower = BUCKET_LITERAL ∨ IsPlain (Integer.split (text.map tolower))
  := by
  cases hfind : descs.find? fun desc => desc.name.map tolower = text.map tolower with
  | some desc =>
      have hname := List.find?_some hfind
      have hnamed : Named descs text desc.type :=
        ⟨desc, List.mem_of_find?_eq_some hfind, of_decide_eq_true hname, rfl⟩
      refine iff_of_true ?_ (Or.inl ⟨_, hnamed⟩)
      simp only [translate, find?_setDescriptions, hfind, Option.map_some, narrow_natCast]
      exact Or.inl hnamed
  | none =>
      have hnamed := find?_eq_none_iff.mp hfind
      by_cases hnone : text.map tolower = NONE_LITERAL
      · refine iff_of_true ?_ (Or.inr (Or.inl hnone))
        simp only [translate, find?_setDescriptions, hfind, Option.map_none, if_pos hnone]
        exact Or.inr (Or.inl ⟨hnone, rfl⟩)
      · by_cases hbucket : text.map tolower = BUCKET_LITERAL
        · refine iff_of_true ?_ (Or.inr (Or.inr (Or.inl hbucket)))
          simp only [translate, find?_setDescriptions, hfind, Option.map_none, if_neg hnone,
            if_pos hbucket]
          exact Or.inr (Or.inr (Or.inl ⟨hbucket, rfl⟩))
        · rw [standsFor_translate_of_not_named hnamed hnone hbucket]
          simp only [hnamed, hnone, hbucket, false_or]

/-- A text is translated to the type `ALLOW`, which it does not stand for. -/
def TranslatedAsAllow (text : Str) : Prop :=
  (setDescriptions {} predefinedPolicyDescr).translate text = some ALLOW
    ∧ ¬ StandsFor predefinedPolicyDescr text (some ALLOW)

/-- A negative number, one that is too large, and one with something after it. -/
theorem translated_as_allow :
  TranslatedAsAllow (ofString "-1") ∧ TranslatedAsAllow (ofString "131071")
    ∧ TranslatedAsAllow (ofString "65535x")
  := by
  have hall : ∀ text ∈ [ofString "-1", ofString "131071", ofString "65535x"],
      (setDescriptions {} predefinedPolicyDescr).translate text = some ALLOW
        ∧ (∀ desc ∈ predefinedPolicyDescr, desc.name.map tolower ≠ text.map tolower)
        ∧ text.map tolower ≠ NONE_LITERAL ∧ text.map tolower ≠ BUCKET_LITERAL
        ∧ ¬ IsPlain (Integer.split (text.map tolower)) := by
    decide +kernel
  have htranslated : ∀ text ∈ [ofString "-1", ofString "131071", ofString "65535x"],
      TranslatedAsAllow text := by
    intro text htext
    obtain ⟨htranslate, hnames, hnone, hbucket, hplain⟩ := hall text htext
    have hnamed : ¬ ∃ type, Named predefinedPolicyDescr text type := by
      rintro ⟨type, desc, hdesc, hname, -⟩
      exact hnames desc hdesc hname
    have hiff := standsFor_translate_of_not_named hnamed hnone hbucket
    rw [htranslate] at hiff
    exact ⟨htranslate, fun hstands => hplain (hiff.mp hstands)⟩
  exact ⟨htranslated _ (by simp), htranslated _ (by simp), htranslated _ (by simp)⟩

/-! ### Names that are read back -/

/-- The lower-cased names of the described types differ, and none of them may be taken for a word
or a number. -/
structure Unambiguous (descs : List PolicyDescription) : Prop where
  nodup : (descs.map fun desc => desc.name.map tolower).Nodup
  ne_none : ∀ desc ∈ descs, desc.name.map tolower ≠ NONE_LITERAL
  ne_bucket : ∀ desc ∈ descs, desc.name.map tolower ≠ BUCKET_LITERAL
  not_number : ∀ desc ∈ descs, ∀ c ∈ desc.name.head?, isDigit 10 c = false

theorem translate_name {descs : List PolicyDescription} (h : Unambiguous descs)
    {desc : PolicyDescription} (hdesc : desc ∈ descs) :
  (setDescriptions {} descs).translate (desc.name.map tolower) = some desc.type
  := by
  have hfound : descs.find? (fun d => d.name.map tolower = desc.name.map tolower) = some desc := by
    cases hfind : descs.find? fun d => d.name.map tolower = desc.name.map tolower with
    | none =>
        have hnone := List.find?_eq_none.mp hfind desc hdesc
        simp at hnone
    | some found =>
        have hname := List.find?_some hfind
        have hmem := List.mem_of_find?_eq_some hfind
        rw [List.inj_on_of_nodup_map h.nodup hmem hdesc (of_decide_eq_true hname)]
  simp only [translate, map_tolower_map_tolower, find?_setDescriptions, hfound, Option.map_some,
    narrow_natCast]

/-- A text that is not a name is translated without the descriptions. -/
theorem translate_of_not_named {descs : List PolicyDescription} {text : Str}
    (h : ∀ desc ∈ descs, desc.name.map tolower ≠ text.map tolower) :
  (setDescriptions {} descs).translate text
    = if text.map tolower = NONE_LITERAL then some NONE
      else if text.map tolower = BUCKET_LITERAL then some BUCKET
      else (stoi0 (text.map tolower)).map fun (n, _) => narrow n
  := by
  have hfind : descs.find? (fun desc => desc.name.map tolower = text.map tolower) = none := by
    rw [List.find?_eq_none]
    intro desc hdesc
    simpa using h desc hdesc
  simp only [translate, find?_setDescriptions, hfind, Option.map_none]

/-- A decimal number is neither a name nor a word. -/
theorem translate_decimal {descs : List PolicyDescription} (h : Unambiguous descs)
    (type : PolicyType) :
  (setDescriptions {} descs).translate (decimal type.toNat) = some type
  := by
  have hlt := type.toNat_lt
  have hdigit : ∀ c ∈ (decimal type.toNat).head?, isDigit 10 c = true :=
    fun c hc => (of_mem_decimal (List.mem_of_head? hc)).1
  have hne : ∀ text : Str, (∀ c ∈ text.head?, isDigit 10 c = false) →
      text ≠ decimal type.toNat := by
    rintro text htext rfl
    obtain ⟨c, hc⟩ := Option.isSome_iff_exists.mp
      (List.isSome_head?.mpr (numeral_ne_nil 10 type.toNat))
    exact absurd (hdigit c hc) (by simp [htext c hc])
  have hnames : ∀ desc ∈ descs,
      desc.name.map tolower ≠ (decimal type.toNat).map tolower := by
    intro desc hdesc
    rw [map_tolower_decimal]
    apply hne
    intro c hc
    rw [List.head?_map] at hc
    obtain ⟨c, hhead, rfl⟩ := Option.map_eq_some_iff.mp hc
    exact (isDigit_tolower 10 c).trans (h.not_number desc hdesc c hhead)
  rw [translate_of_not_named hnames, map_tolower_decimal, if_neg (hne _ (by decide +kernel)).symm,
    if_neg (hne _ (by decide +kernel)).symm, stoi0_decimal (by omega), Option.map_some]
  exact congrArg some (narrow_natCast type)

/-- A type is printed by its name, by its word or by its number. -/
theorem humanize_cases (descs : List PolicyDescription) (type : PolicyType) :
  let text := (setDescriptions {} descs).humanize type.toNat
  (∃ desc ∈ descs, desc.type = type ∧ text = desc.name.map tolower)
    ∨ type = NONE ∧ text = NONE_LITERAL ∨ type = BUCKET ∧ text = BUCKET_LITERAL
    ∨ text = decimal type.toNat
  := by
  cases hfind : (setDescriptions {} descs).descs.find? fun desc => desc.1 = (type.toNat : ℤ) with
  | some found =>
      have htype := List.find?_some hfind
      obtain ⟨desc, hdesc, rfl⟩ := List.mem_map.mp (List.mem_of_find?_eq_some hfind)
      have heq := UInt16.toNat_inj.mp (Int.ofNat_inj.mp (of_decide_eq_true htype))
      exact Or.inl ⟨desc, hdesc, heq, by simp only [humanize, hfind]⟩
  | none =>
      simp only [humanize, hfind]
      split_ifs with hnone hbucket
      · exact Or.inr (Or.inl ⟨UInt16.toNat_inj.mp (Int.ofNat_inj.mp hnone), rfl⟩)
      · exact Or.inr (Or.inr (Or.inl ⟨UInt16.toNat_inj.mp (Int.ofNat_inj.mp hbucket), rfl⟩))
      · exact Or.inr (Or.inr (Or.inr rfl))

/-- What is printed for a type is translated back to it. -/
theorem translate_humanize {descs : List PolicyDescription} (h : Unambiguous descs)
    (type : PolicyType) :
  (setDescriptions {} descs).translate ((setDescriptions {} descs).humanize type.toNat) = some type
  := by
  obtain ⟨desc, hdesc, rfl, htext⟩ | ⟨rfl, htext⟩ | ⟨rfl, htext⟩ | htext :=
    humanize_cases descs type
  · rw [htext]
    exact translate_name h hdesc
  · rw [htext, translate_of_not_named h.ne_none]
    rfl
  · rw [htext, translate_of_not_named h.ne_bucket]
    rfl
  · rw [htext]
    exact translate_decimal h type

/-- A byte other than a letter and a digit is printed for a type only if a name contains it. -/
theorem notMem_humanize {descs : List PolicyDescription} {sep : UInt8}
    (hdescs : ∀ desc ∈ descs, sep ∉ desc.name.map tolower) (hnone : sep ∉ NONE_LITERAL)
    (hbucket : sep ∉ BUCKET_LITERAL) (hdigit : isDigit 10 sep = false) (type : PolicyType) :
  sep ∉ (setDescriptions {} descs).humanize type.toNat
  := by
  obtain ⟨desc, hdesc, -, htext⟩ | ⟨-, htext⟩ | ⟨-, htext⟩ | htext := humanize_cases descs type
  · rw [htext]
    exact hdescs desc hdesc
  · rw [htext]
    exact hnone
  · rw [htext]
    exact hbucket
  · rw [htext]
    intro hmem
    exact absurd (of_mem_decimal hmem).1 (by simp [hdigit])

end PolicyTypeTranslator

end Cynara
