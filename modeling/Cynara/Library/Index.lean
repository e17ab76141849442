import Cynara.Library.Maps

/-!
# Indexes

Some of the elements of a type have a key.  An index has for each key the list of the elements with
this key.  An index is kept up to date when an element gets a key, when it loses its key, and when
the elements of several keys are given another one.
-/

open Std

namespace Index

variable {ι κ : Type} [Ord κ] [TransOrd κ] {key : ι → Option κ} {index : ExtTreeMap κ (List ι)}
  {i : ι} {k : κ}

/-- Each element with a key is in the list of this key, once, and is in no other list. -/
structure Indexes (key : ι → Option κ) (index : ExtTreeMap κ (List ι)) : Prop where
  mem : ∀ (k : κ) (i : ι), i ∈ index.getD k [] ↔ key i = some k
  nodup : ∀ k : κ, (index.getD k []).Nodup

theorem Indexes.empty :
  Indexes (fun _ : ι => none) (∅ : ExtTreeMap κ (List ι))
  := by
  constructor
  · simp
  · simp

/-- Keys without elements do not matter. -/
theorem Indexes.congr (h : Indexes key index) {index' : ExtTreeMap κ (List ι)}
    (hgetD : ∀ k, index'.getD k [] = index.getD k []) :
  Indexes key index'
  := by
  constructor
  · intro k i
    rw [hgetD, h.mem]
  · intro k
    rw [hgetD]
    exact h.nodup k

variable [LawfulEqOrd κ]

/-- An element without a key gets one. -/
theorem Indexes.add [DecidableEq ι] [DecidableEq κ] (h : Indexes key index) (hi : key i = none)
    (k : κ) :
  Indexes (Function.update key i (some k)) (index.insert k (index.getD k [] ++ [i]))
  := by
  have hnotMem : ∀ k : κ, i ∉ index.getD k [] := by
    intro k hmem
    rw [h.mem, hi] at hmem
    contradiction
  constructor
  · intro k' i'
    simp only [ExtTreeMap.getD_insert, Std.compare_eq_iff_eq, Function.update_apply]
    obtain rfl | hk := eq_or_ne k k'
    · rw [if_pos rfl, List.mem_append, List.mem_singleton, h.mem]
      split
      · simp_all
      · simp_all
    · rw [if_neg hk, h.mem]
      split
      · simp_all
      · rfl
  · intro k'
    rw [ExtTreeMap.getD_insert]
    split
    · apply List.nodup_append_comm.mp
      exact List.nodup_cons.mpr ⟨hnotMem k, h.nodup k⟩
    · apply h.nodup

/-! ### Removal -/

section

variable [DecidableEq ι] [DecidableEq κ]

/-- An element is taken out of the list of a key; the only element of a list is taken out with the
list. -/
def takeOut (index : ExtTreeMap κ (List ι)) (k : κ) (i : ι) : ExtTreeMap κ (List ι) :=
  if (index.getD k []).length = 1 then index.erase k
  else index.insert k ((index.getD k []).erase i)

theorem getD_takeOut (hi : i ∈ index.getD k []) (k' : κ) :
  (takeOut index k i).getD k' [] = if k = k' then (index.getD k []).erase i else index.getD k' []
  := by
  unfold takeOut
  split
  · rename_i hlength
    obtain ⟨i', hi'⟩ := List.length_eq_one_iff.mp hlength
    rw [hi', List.mem_singleton] at hi
    simp only [ExtTreeMap.getD_erase, Std.compare_eq_iff_eq, hi', hi, List.erase_cons_head]
  · simp only [ExtTreeMap.getD_insert, Std.compare_eq_iff_eq]

/-- An element loses its key. -/
theorem Indexes.remove (h : Indexes key index) (hi : key i = some k) :
  Indexes (Function.update key i none) (takeOut index k i)
  := by
  have hmem : i ∈ index.getD k [] := (h.mem k i).mpr hi
  constructor
  · intro k' i'
    rw [getD_takeOut hmem, Function.update_apply]
    split
    · rename_i hk
      obtain rfl := hk
      rw [(h.nodup k).mem_erase_iff, h.mem]
      split
      · simp_all
      · simp_all
    · rename_i hk
      rw [h.mem]
      split
      · simp_all
      · rfl
  · intro k'
    rw [getD_takeOut hmem]
    split
    · exact (h.nodup k).erase i
    · apply h.nodup

end

/-! ### Elements of several keys -/

/-- The lists of the keys that meet a condition. -/
def select (index : ExtTreeMap κ (List ι)) (p : κ → Bool) : List (κ × List ι) :=
  index.toList.filter fun entry => p entry.1

theorem mem_select {p : κ → Bool} {is : List ι} :
  (k, is) ∈ select index p ↔ index[k]? = some is ∧ p k = true
  := by
  rw [select, List.mem_filter, ExtTreeMap.mem_toList_iff_getElem?_eq_some]

theorem Indexes.mem_flatMap_select (h : Indexes key index) {p : κ → Bool} :
  i ∈ (select index p).flatMap Prod.snd ↔ ∃ k, key i = some k ∧ p k = true
  := by
  rw [List.mem_flatMap]
  constructor
  · rintro ⟨⟨k, is⟩, hselect, hi⟩
    obtain ⟨his, hp⟩ := mem_select.mp hselect
    refine ⟨k, ?_, hp⟩
    rw [← h.mem, ExtTreeMap.getD_eq_getD_getElem?, his]
    exact hi
  · rintro ⟨k, hk, hp⟩
    rw [← h.mem, ExtTreeMap.getD_eq_getD_getElem?] at hk
    cases his : index[k]? with
    | none =>
        rw [his] at hk
        contradiction
    | some is =>
        rw [his] at hk
        exact ⟨(k, is), mem_select.mpr ⟨his, hp⟩, hk⟩

theorem Indexes.nodup_flatMap_select (h : Indexes key index) (p : κ → Bool) :
  ((select index p).flatMap Prod.snd).Nodup
  := by
  have hlist : ∀ entry ∈ select index p, entry.2 = index.getD entry.1 [] := by
    rintro ⟨k, is⟩ hentry
    rw [ExtTreeMap.getD_eq_getD_getElem?, (mem_select.mp hentry).1]
    rfl
  rw [List.nodup_flatMap]
  constructor
  · intro entry hentry
    rw [hlist entry hentry]
    exact h.nodup entry.1
  · refine (List.Pairwise.filter _ ExtTreeMap.distinct_keys_toList).imp_of_mem ?_
    intro entry entry' hentry hentry' hne i hi hi'
    rw [hlist entry hentry, h.mem] at hi
    rw [hlist entry' hentry', h.mem, hi] at hi'
    exact hne (Std.compare_eq_iff_eq.mpr (Option.some.inj hi'))

variable [DecidableEq κ]

/-- The lists of some keys are removed. -/
theorem getD_foldl_erase (entries : List (κ × List ι)) (index : ExtTreeMap κ (List ι)) (k : κ) :
  (entries.foldl (fun index entry => index.erase entry.1) index).getD k []
    = if k ∈ entries.map Prod.fst then [] else index.getD k []
  := by
  induction entries generalizing index with
  | nil => simp
  | cons entry entries ih =>
      rw [List.foldl_cons, ih, ExtTreeMap.getD_erase]
      by_cases hk : entry.1 = k
      · simp [hk]
      · simp only [List.map_cons, List.mem_cons, Std.compare_eq_iff_eq, hk, Ne.symm hk, false_or,
          if_false]

omit [DecidableEq κ] in
theorem mem_foldl_erase (entries : List (κ × List ι)) (index : ExtTreeMap κ (List ι)) (k : κ) :
  k ∈ entries.foldl (fun index entry => index.erase entry.1) index
    ↔ k ∈ index ∧ ∀ entry ∈ entries, entry.1 ≠ k
  := by
  induction entries generalizing index with
  | nil => simp
  | cons entry entries ih =>
      rw [List.foldl_cons, ih, ExtTreeMap.mem_erase, ne_eq, Std.compare_eq_iff_eq,
        List.forall_mem_cons]
      tauto

/-- If the lists of the keys that meet a condition are removed, there are no elements left at these
keys. -/
theorem getD_foldl_erase_select (index : ExtTreeMap κ (List ι)) (p : κ → Bool)
    {index' : ExtTreeMap κ (List ι)}
    (hindex' : ∀ k, p k = true → k ∉ index → index'.getD k [] = []) (k : κ) :
  ((select index p).foldl (fun index entry => index.erase entry.1) index').getD k []
    = if p k = true then [] else index'.getD k []
  := by
  have hmem : k ∈ (select index p).map Prod.fst ↔ k ∈ index ∧ p k = true := by
    simp only [List.mem_map, Prod.exists, exists_and_right, exists_eq_right, mem_select,
      ExtTreeMap.mem_iff_isSome_getElem?, Option.isSome_iff_exists]
  rw [getD_foldl_erase]
  by_cases hp : p k = true
  · by_cases hk : k ∈ index
    · simp [hmem, hp, hk]
    · simp [hmem, hp, hk, hindex' k hp hk]
  · simp [hmem, hp]

/-- The elements of the keys that meet a condition are given another key, which does not meet it. -/
theorem Indexes.gather [DecidableEq ι] (h : Indexes key index) {p : κ → Bool} (hk : p k = false)
    {key' : ι → Option κ} {index' : ExtTreeMap κ (List ι)}
    (hkey : ∀ i, key' i = if i ∈ (select index p).flatMap Prod.snd then some k else key i)
    (hindex : ∀ k', index'.getD k' [] = if p k' = true then []
      else if k' = k then index.getD k [] ++ (select index p).flatMap Prod.snd
      else index.getD k' []) :
  Indexes key' index'
  := by
  have hselect : ∀ i, key' i = if ∃ k', key i = some k' ∧ p k' = true then some k else key i := by
    intro i
    simp only [hkey, h.mem_flatMap_select]
  constructor
  · intro k' i
    rw [hindex, hselect]
    by_cases hp : p k' = true
    · rw [if_pos hp]
      simp only [List.not_mem_nil, false_iff]
      split
      · rintro heq
        rw [Option.some.inj heq] at hk
        simp [hp] at hk
      · rename_i hnot
        exact fun heq => hnot ⟨k', heq, hp⟩
    · rw [if_neg hp]
      by_cases heq : k' = k
      · subst heq
        rw [if_pos rfl, List.mem_append, h.mem, h.mem_flatMap_select]
        split
        · rename_i hmoved
          simp [hmoved]
        · rename_i hnot
          simp [hnot]
      · rw [if_neg heq, h.mem]
        split
        · rename_i hmoved
          obtain ⟨k₁, hk₁, hp₁⟩ := hmoved
          rw [hk₁]
          constructor
          · intro h'
            rw [Option.some.inj h'] at hp₁
            exact absurd hp₁ hp
          · intro h'
            exact absurd (Option.some.inj h').symm heq
        · rfl
  · intro k'
    rw [hindex]
    split
    · exact List.nodup_nil
    · split
      · refine List.nodup_append.mpr ⟨h.nodup k, h.nodup_flatMap_select p, ?_⟩
        intro i hi i' hi' heq
        subst heq
        obtain ⟨k₁, hk₁, hp₁⟩ := h.mem_flatMap_select.mp hi'
        rw [h.mem, hk₁] at hi
        rw [Option.some.inj hi, hk] at hp₁
        contradiction
      · exact h.nodup k'

end Index
