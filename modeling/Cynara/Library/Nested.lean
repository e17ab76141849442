import Mathlib

/-!
# Maps of maps

A value is found under two keys.  The map under the first key is made when the first value is
put there, and dropped when the last one is removed.
-/

open Std

/-- A map of maps. -/
abbrev Nested (κ ι α : Type) [Ord κ] [Ord ι] := ExtTreeMap κ (ExtTreeMap ι α)

namespace Nested

variable {κ ι α : Type} [Ord κ] [TransOrd κ] [Ord ι] [TransOrd ι]

/-- The value under two keys. -/
def find (k : κ) (i : ι) (m : Nested κ ι α) : Option α :=
  match m[k]? with
  | none => none
  | some inner => inner[i]?

/-- The values under the first key. -/
def inner (k : κ) (m : Nested κ ι α) : ExtTreeMap ι α := (m[k]?).getD ∅

/-- A value takes the place of the one that is there. -/
def put (k : κ) (i : ι) (a : α) (m : Nested κ ι α) : Nested κ ι α :=
  m.insert k ((inner k m).insert i a)

/-- The value at two keys is removed, and an inner map that becomes empty with it. -/
def remove (k : κ) (i : ι) (m : Nested κ ι α) : Nested κ ι α :=
  match m[k]? with
  | none => m
  | some inner =>
      let inner := inner.erase i
      if inner.isEmpty then m.erase k else m.insert k inner

/-- The values under the first key, in the order of the second. -/
def values (k : κ) (m : Nested κ ι α) : List α := (inner k m).toList.map Prod.snd

/-- The first value for which a condition holds. -/
def search (p : α → Bool) (m : Nested κ ι α) : Option α :=
  m.toList.findSome? fun entry => (entry.2.toList.find? fun entry => p entry.2).map Prod.snd

variable {m : Nested κ ι α} {k k' : κ} {i i' : ι} {a : α} {p : α → Bool}

theorem find_eq :
  find k i m = (inner k m)[i]?
  := by
  unfold find inner
  cases m[k]? with
  | none => simp
  | some inner => rfl

@[simp]
theorem find_empty :
  find k i (∅ : Nested κ ι α) = none
  := by
  simp [find]

theorem mem_of_find (h : find k i m = some a) :
  k ∈ m
  := by
  unfold find at h
  split at h
  · cases h
  · rename_i map hmap
    exact ExtTreeMap.mem_iff_isSome_getElem?.mpr (by simp [hmap])

/-! ### Keys that can be compared -/

section

variable [LawfulEqOrd κ]

theorem mem_put :
  k' ∈ put k i a m ↔ k = k' ∨ k' ∈ m
  := by
  rw [put, ExtTreeMap.mem_insert]
  simp

theorem mem_of_mem_remove (h : k' ∈ remove k i m) :
  k' ∈ m
  := by
  unfold remove at h
  split at h
  · exact h
  · rename_i map hmap
    simp only at h
    split at h
    · exact ExtTreeMap.mem_of_mem_erase h
    · rw [ExtTreeMap.mem_insert] at h
      rcases h with hk | hmem
      · obtain rfl : k = k' := by simpa using hk
        exact ExtTreeMap.mem_iff_isSome_getElem?.mpr (by simp [hmap])
      · exact hmem

section

variable [DecidableEq κ]

theorem inner_remove :
  inner k' (remove k i m) = if k = k' then (inner k' m).erase i else inner k' m
  := by
  unfold inner remove
  split
  · rename_i hnone
    split
    · rename_i hk
      simp [← hk, hnone]
    · rfl
  · rename_i map hmap
    by_cases hk : k = k'
    · subst hk
      rw [if_pos rfl, hmap, Option.getD_some]
      simp only
      split
      · rename_i hempty
        simp [ExtTreeMap.isEmpty_iff.mp hempty]
      · simp
    · rw [if_neg hk]
      simp only
      split
      · rw [ExtTreeMap.getElem?_erase, if_neg (by simpa using hk)]
      · rw [ExtTreeMap.getElem?_insert, if_neg (by simpa using hk)]

theorem find_erase :
  find k' i' (m.erase k) = if k = k' then none else find k' i' m
  := by
  rw [find_eq, find_eq]
  by_cases hk : k = k'
  · simp [inner, hk]
  · simp [inner, ExtTreeMap.getElem?_erase, hk]

variable [LawfulEqOrd ι] [DecidableEq ι]

theorem find_put :
  find k' i' (put k i a m) = if k = k' ∧ i = i' then some a else find k' i' m
  := by
  rw [find_eq, find_eq]
  by_cases hk : k = k'
  · subst hk
    simp [inner, put, ExtTreeMap.getElem?_insert]
  · simp [inner, put, ExtTreeMap.getElem?_insert, hk]

theorem find_remove :
  find k' i' (remove k i m) = if k = k' ∧ i = i' then none else find k' i' m
  := by
  rw [find_eq, find_eq, inner_remove]
  by_cases hk : k = k'
  · simp [hk, ExtTreeMap.getElem?_erase]
  · simp [hk]

end

end

/-! ### The values -/

section

variable [LawfulEqOrd ι]

theorem mem_values :
  a ∈ values k m ↔ ∃ i, find k i m = some a
  := by
  simp [values, find_eq, ExtTreeMap.mem_toList_iff_getElem?_eq_some]

variable [LawfulEqOrd κ]

theorem search_eq_some (h : search p m = some a) :
  p a = true ∧ ∃ k i, find k i m = some a
  := by
  obtain ⟨⟨k, inner⟩, hmem, hfind⟩ := List.exists_of_findSome?_eq_some h
  obtain ⟨⟨i, b⟩, hentry, rfl⟩ := Option.map_eq_some_iff.mp hfind
  refine ⟨by simpa using List.find?_some hentry, k, i, ?_⟩
  have hk := ExtTreeMap.mem_toList_iff_getElem?_eq_some.mp hmem
  have hi := ExtTreeMap.mem_toList_iff_getElem?_eq_some.mp (List.mem_of_find?_eq_some hentry)
  simp only [find, hk]
  exact hi

theorem search_eq_none :
  search p m = none ↔ ∀ k i a, find k i m = some a → p a = false
  := by
  simp only [search, List.findSome?_eq_none_iff, Option.map_eq_none_iff, List.find?_eq_none,
    Prod.forall, ExtTreeMap.mem_toList_iff_getElem?_eq_some, Bool.not_eq_true]
  constructor
  · intro h k i a hfind
    unfold find at hfind
    split at hfind
    · cases hfind
    · rename_i inner hk
      exact h k inner hk i a hfind
  · intro h k inner hk i a hi
    apply h k i a
    simp only [find, hk]
    exact hi

end

end Nested
