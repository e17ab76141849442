import Cynara.Library.Strings

/-!
# Text records

A text is read line by line with `lines`, as by repeated calls of `std::getline`: the text
after the last separator is a line only if it is not empty.  A field is cut off a line at
the first separator by `cut`.  A number is read from the front of a text by `stoi16`, which
follows `std::stoi` with base 16: it skips white space, takes a sign and the prefix `0x`,
and reads digits as long as there are any.
-/

namespace Str

/-! ### Lines and fields -/

/-- The lines of a text. -/
def lines (sep : UInt8) : Str → List Str
  | [] => []
  | c :: cs =>
      if c = sep then [] :: lines sep cs
      else
        match lines sep cs with
        | [] => [[c]]
        | l :: ls => (c :: l) :: ls

theorem lines_append_sep {sep : UInt8} {l : Str} (h : sep ∉ l) (rest : Str) :
  lines sep (l ++ sep :: rest) = l :: lines sep rest
  := by
  induction l with
  | nil => simp [lines]
  | cons c l ih =>
      simp only [List.mem_cons, not_or] at h
      simp only [List.cons_append, lines, Ne.symm h.1, ↓reduceIte, ih h.2]

/-- Records that do not contain the separator are the first lines of a text. -/
theorem lines_flatMap_append {α : Type} {sep : UInt8} (f : α → Str) (as : List α)
    (h : ∀ a ∈ as, sep ∉ f a) (rest : Str) :
  lines sep ((as.flatMap fun a => f a ++ [sep]) ++ rest) = as.map f ++ lines sep rest
  := by
  induction as with
  | nil => rfl
  | cons a as ih =>
      rw [List.flatMap_cons, List.append_assoc, List.append_assoc, List.singleton_append,
        lines_append_sep (h a List.mem_cons_self),
        ih fun b hb => h b (List.mem_cons_of_mem a hb), List.map_cons, List.cons_append]

/-- Records that do not contain the separator are the lines of their text. -/
theorem lines_flatMap {α : Type} {sep : UInt8} (f : α → Str) (as : List α)
    (h : ∀ a ∈ as, sep ∉ f a) :
  lines sep (as.flatMap fun a => f a ++ [sep]) = as.map f
  := by
  have hlines := lines_flatMap_append f as h []
  rw [List.append_nil] at hlines
  rw [hlines, lines, List.append_nil]

/-- A text without the separator is a line, unless it is empty. -/
theorem lines_of_notMem {sep : UInt8} {l : Str} (h : sep ∉ l) :
  lines sep l = if l = [] then [] else [l]
  := by
  induction l with
  | nil => rfl
  | cons c l ih =>
      rw [List.mem_cons, not_or] at h
      rw [lines, if_neg (Ne.symm h.1), ih h.2]
      split
      · rename_i heq
        split at heq
        · rename_i hl
          simp [hl]
        · contradiction
      · rename_i heq
        split at heq
        · contradiction
        · obtain ⟨rfl, rfl⟩ := List.cons.inj heq
          rfl

/-- The lines of the first part of the records are first parts of records. -/
theorem mem_lines_take {α : Type} {sep : UInt8} (f : α → Str) (as : List α)
    (h : ∀ a ∈ as, sep ∉ f a) (k : ℕ) {line : Str}
    (hline : line ∈ lines sep ((as.flatMap fun a => f a ++ [sep]).take k)) :
  ∃ a ∈ as, line <+: f a
  := by
  induction as generalizing k with
  | nil => simp [lines] at hline
  | cons a as ih =>
      have ha : sep ∉ f a := h a List.mem_cons_self
      rw [List.flatMap_cons, List.append_assoc, List.singleton_append] at hline
      obtain hk | hk := Nat.lt_or_ge (f a).length k
      · obtain ⟨j, rfl⟩ := Nat.exists_eq_add_of_lt hk
        rw [Nat.add_assoc, List.take_length_add_append, List.take_succ_cons,
          lines_append_sep ha] at hline
        obtain rfl | hline := List.mem_cons.mp hline
        · exact ⟨a, List.mem_cons_self, List.prefix_rfl⟩
        · obtain ⟨b, hb, hline⟩ := ih (fun b hb => h b (List.mem_cons_of_mem a hb)) j hline
          exact ⟨b, List.mem_cons_of_mem a hb, hline⟩
      · have hfirst := List.take_prefix k (f a)
        rw [List.take_append_of_le_length hk,
          lines_of_notMem fun hmem => ha (hfirst.subset hmem)] at hline
        split at hline
        · contradiction
        · obtain rfl := List.mem_singleton.mp hline
          exact ⟨a, List.mem_cons_self, hfirst⟩

theorem notMem_of_mem_lines {sep : UInt8} {text line : Str} (h : line ∈ lines sep text) :
  sep ∉ line
  := by
  induction text generalizing line with
  | nil => contradiction
  | cons c text ih =>
      unfold lines at h
      split at h
      · obtain rfl | h := List.mem_cons.mp h
        · apply List.not_mem_nil
        · apply ih h
      · rename_i hc
        split at h
        · obtain rfl := List.mem_singleton.mp h
          simpa using Ne.symm hc
        · rename_i l ls hls
          rw [hls] at ih
          obtain rfl | h := List.mem_cons.mp h
          · rw [List.mem_cons, not_or]
            exact ⟨Ne.symm hc, ih List.mem_cons_self⟩
          · apply ih (List.mem_cons_of_mem l h)

/-- The first line of a text that is not empty. -/
theorem head?_lines_cons {sep : UInt8} (c : UInt8) (cs : Str) :
  (lines sep (c :: cs)).head? = some ((c :: cs).takeWhile (· != sep))
  := by
  induction cs generalizing c with
  | nil =>
      by_cases hc : c = sep
      · simp [lines, hc]
      · simp [lines, hc]
  | cons c' cs ih =>
      have ih := ih c'
      rw [lines]
      split
      · rename_i hc
        simp [hc]
      · rename_i hc
        rw [List.takeWhile_cons_of_pos (by simpa using hc)]
        split
        · rename_i hnil
          rw [hnil] at ih
          contradiction
        · rename_i l ls hlines
          rw [hlines, List.head?_cons] at ih
          rw [List.head?_cons, Option.some.inj ih]

/-- Splitting a text at the separators gives its lines, and possibly an empty text after the last
one. -/
theorem splitOn_eq_lines (sep : UInt8) (text : Str) :
  text.splitOn sep = lines sep text ∨ text.splitOn sep = lines sep text ++ [[]]
  := by
  induction text with
  | nil => exact Or.inr rfl
  | cons c cs ih =>
      rw [List.splitOn, List.splitOnP_cons_eq_if_modifyHead, lines]
      rw [List.splitOn] at ih
      by_cases hc : c = sep
      · simp only [hc, beq_self_eq_true, ↓reduceIte]
        obtain ih | ih := ih
        · simp [ih]
        · simp [ih]
      · simp only [hc, beq_iff_eq, ↓reduceIte]
        cases hlines : lines sep cs with
        | nil =>
            rw [hlines] at ih
            obtain ih | ih := ih
            · exact absurd ih (List.splitOnP_ne_nil _ _)
            · simp [ih]
        | cons l ls =>
            rw [hlines] at ih
            obtain ih | ih := ih
            · simp [ih]
            · simp [ih]

/-- The text before the first separator and the text after it. -/
def cut (sep : UInt8) : Str → Option (Str × Str)
  | [] => none
  | c :: cs =>
      if c = sep then some ([], cs)
      else (cut sep cs).map fun (a, b) => (c :: a, b)

theorem cut_append_sep {sep : UInt8} {a : Str} (h : sep ∉ a) (rest : Str) :
  cut sep (a ++ sep :: rest) = some (a, rest)
  := by
  induction a with
  | nil => simp [cut]
  | cons c a ih =>
      simp only [List.mem_cons, not_or] at h
      simp only [List.cons_append, cut, Ne.symm h.1, ↓reduceIte, ih h.2, Option.map_some]

/-- A field that is cut off is followed by the separator and does not contain it. -/
theorem cut_eq_some {sep : UInt8} {text a b : Str} (h : cut sep text = some (a, b)) :
  text = a ++ sep :: b ∧ sep ∉ a
  := by
  induction text generalizing a with
  | nil => contradiction
  | cons c text ih =>
      unfold cut at h
      split at h
      · rename_i hc
        obtain ⟨rfl, rfl⟩ := Prod.mk.inj (Option.some.inj h)
        rw [hc]
        exact ⟨rfl, List.not_mem_nil⟩
      · rename_i hc
        obtain ⟨⟨a', b'⟩, hcut, heq⟩ := Option.map_eq_some_iff.mp h
        obtain ⟨rfl, rfl⟩ := Prod.mk.inj heq
        obtain ⟨rfl, ha'⟩ := ih hcut
        rw [List.mem_cons, not_or]
        exact ⟨rfl, Ne.symm hc, ha'⟩

/-! ### Numbers -/

/-- The characters that are skipped before a number. -/
def isspace (c : UInt8) : Bool := c == 32 || 9 ≤ c && c ≤ 13

/-- The characters that may be digits of a number in base 16. -/
def isxdigit (c : UInt8) : Bool := (digitValue c).isSome

/-- The sign of a number and the text after it. -/
def takeSign : Str → Bool × Str
  | c :: s => if c = 45 then (true, s) else if c = 43 then (false, s) else (false, c :: s)
  | [] => (false, [])

/-- The text after the prefix `0x`, which counts as one only if a digit follows. -/
def dropHexPrefix : Str → Str
  | z :: x :: d :: s =>
      if z = 48 ∧ (x = 120 ∨ x = 88) ∧ isxdigit d then d :: s else z :: x :: d :: s
  | s => s

/-- The number at the front of a text in base 16 and the text after it, if there is
one. -/
def strtol16 (s : Str) : Option (ℤ × Str) :=
  let (negative, s) := takeSign (s.dropWhile isspace)
  let s := dropHexPrefix s
  let digits := s.takeWhile isxdigit
  if digits.isEmpty then none
  else
    let n : ℤ := readNumeral 16 digits
    some (if negative then -n else n, s.dropWhile isxdigit)

/-- `std::stoi` with base 16; `none` stands for its exceptions. -/
def stoi16 (s : Str) : Option (ℤ × Str) :=
  match strtol16 s with
  | some (n, rest) => if -2 ^ 31 ≤ n ∧ n < 2 ^ 31 then some (n, rest) else none
  | none => none

theorem dropHexPrefix_suffix (s : Str) :
  dropHexPrefix s <:+ s
  := by
  unfold dropHexPrefix
  split
  · rename_i z x d s
    split
    · exact ⟨[z, x], rfl⟩
    · apply List.suffix_refl
  · apply List.suffix_refl

theorem takeSign_suffix (s : Str) :
  (takeSign s).2 <:+ s
  := by
  unfold takeSign
  split
  · split
    · apply List.suffix_cons
    · split
      · apply List.suffix_cons
      · apply List.suffix_refl
  · apply List.suffix_refl

/-- The text after a number is the end of the text. -/
theorem stoi16_suffix {s rest : Str} {n : ℤ} (h : stoi16 s = some (n, rest)) :
  rest <:+ s
  := by
  have hrest : rest = (dropHexPrefix (takeSign (s.dropWhile isspace)).2).dropWhile isxdigit := by
    unfold stoi16 strtol16 at h
    dsimp only at h
    split at h
    · rename_i hstrtol
      split at hstrtol
      · contradiction
      · split at h
        · obtain ⟨-, rfl⟩ := Prod.mk.inj (Option.some.inj h)
          exact (Prod.mk.inj (Option.some.inj hstrtol)).2.symm
        · contradiction
    · contradiction
  rw [hrest]
  apply (List.dropWhile_suffix _).trans
  apply (dropHexPrefix_suffix _).trans
  apply (takeSign_suffix _).trans
  apply List.dropWhile_suffix

theorem isxdigit_of_mem_numeral {n : ℕ} {c : UInt8} (h : c ∈ numeral 16 n) :
  isxdigit c = true
  := by
  obtain ⟨d, hd, rfl⟩ := mem_numeral (by omega) h
  rw [isxdigit, digitValue_digit hd]
  rfl

/-- The part of a text that is read while a test holds, and the rest. -/
theorem takeWhile_dropWhile_append {p : UInt8 → Bool} {s rest : Str} (hs : ∀ c ∈ s, p c = true)
    (hrest : ∀ c ∈ rest.head?, p c = false) :
  (s ++ rest).takeWhile p = s ∧ (s ++ rest).dropWhile p = rest
  := by
  rw [List.takeWhile_append_of_pos hs, List.dropWhile_append_of_pos hs]
  cases rest with
  | nil => simp
  | cons c rest => simp [hrest c rfl]

/-- A hexadecimal numeral with its prefix is read back up to the first byte that is no
digit. -/
theorem stoi16_numeral {n : ℕ} (hn : n < 2 ^ 31) {rest : Str}
    (hrest : ∀ c ∈ rest.head?, isxdigit c = false) :
  stoi16 (ofString "0x" ++ numeral 16 n ++ rest) = some ((n : ℤ), rest)
  := by
  obtain ⟨d, ds, hds⟩ := List.exists_cons_of_ne_nil (numeral_ne_nil 16 n)
  have hdigit : ∀ c ∈ d :: ds, isxdigit c = true := fun c hc =>
    isxdigit_of_mem_numeral (by rw [hds]; exact hc)
  obtain ⟨htake, hdrop⟩ := takeWhile_dropWhile_append hdigit hrest
  have hstrtol : strtol16 (ofString "0x" ++ numeral 16 n ++ rest) = some ((n : ℤ), rest) := by
    have hfront : (ofString "0x" ++ numeral 16 n ++ rest) = 48 :: 120 :: d :: (ds ++ rest) := by
      rw [hds]
      rfl
    have hspace : (48 :: 120 :: d :: (ds ++ rest)).dropWhile isspace
        = 48 :: 120 :: d :: (ds ++ rest) := by
      rw [List.dropWhile_cons_of_neg (by decide)]
    have hdigits : dropHexPrefix (48 :: 120 :: d :: (ds ++ rest)) = d :: ds ++ rest := by
      simp [dropHexPrefix, hdigit d List.mem_cons_self]
    rw [hfront, strtol16, hspace]
    have hsign : takeSign (48 :: 120 :: d :: (ds ++ rest))
        = (false, 48 :: 120 :: d :: (ds ++ rest)) := by
      simp [takeSign]
    simp only [hsign, hdigits, htake, hdrop, List.isEmpty_cons, Bool.false_eq_true, ↓reduceIte]
    rw [← hds, readNumeral_numeral (by omega) (by omega)]
  rw [stoi16, hstrtol]
  have hrange : -2 ^ 31 ≤ (n : ℤ) ∧ (n : ℤ) < 2 ^ 31 := by omega
  simp only [hrange, and_self, ↓reduceIte]

/-! ### Lists of records -/

/-- Records that are written and parsed again. -/
theorem mapM_map_of_inverse {α β : Type} {f : α → β} {g : β → Option α} {as : List α}
    (h : ∀ a ∈ as, g (f a) = some a) :
  (as.map f).mapM g = some as
  := by
  induction as with
  | nil => rfl
  | cons a as ih =>
      simp [h a List.mem_cons_self, ih fun b hb => h b (List.mem_cons_of_mem a hb)]

/-- If a list of records is parsed, each of them is. -/
theorem forall₂_of_mapM {α β : Type} {f : α → Option β} {as : List α} {bs : List β}
    (h : as.mapM f = some bs) :
  List.Forall₂ (fun a b => f a = some b) as bs
  := by
  induction as generalizing bs with
  | nil =>
      cases h
      exact .nil
  | cons a as ih =>
      rw [List.mapM_cons] at h
      obtain ⟨b, hb, h⟩ := Option.bind_eq_some_iff.mp h
      obtain ⟨bs', hbs, heq⟩ := Option.bind_eq_some_iff.mp h
      cases heq
      exact .cons hb (ih hbs)

theorem exists_of_mem_mapM {α β : Type} {f : α → Option β} {as : List α} {bs : List β}
    (h : as.mapM f = some bs) {b : β} (hb : b ∈ bs) :
  ∃ a ∈ as, f a = some b
  := by
  have hparsed := forall₂_of_mapM h
  clear h
  induction hparsed with
  | nil => cases hb
  | cons hab _ ih =>
      obtain rfl | hb := List.mem_cons.mp hb
      · exact ⟨_, List.mem_cons_self, hab⟩
      · obtain ⟨a', ha', hfa'⟩ := ih hb
        exact ⟨a', List.mem_cons_of_mem _ ha', hfa'⟩

end Str
