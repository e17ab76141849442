import Mathlib

/-!
# Finite maps

A map is a `Std.ExtTreeMap`: maps with the same entries are equal.  An ordered container
is traversed in the order of its keys, that is along `toList`.  A hash table is
traversed in an order that depends on its history; `IterationOrder` is any choice of
orders, and a traversal is modelled by one chosen arbitrarily.
-/

open Std

variable {α β : Type} [Ord α] [TransOrd α] [LawfulEqOrd α]

/-- An order of traversal: for every map a list of its entries. -/
structure IterationOrder (α : Type) [Ord α] [TransOrd α] where
  entries : {β : Type} → ExtTreeMap α β → List (α × β)
  perm : ∀ {β : Type} (m : ExtTreeMap α β), (entries m).Perm m.toList

namespace IterationOrder

/-- Traversal in the order of the keys. -/
def sorted : IterationOrder α where
  entries m := m.toList
  perm _ := List.Perm.refl _

/-- An entry is met in a traversal exactly when it is in the map. -/
theorem mem_entries (order : IterationOrder α) (m : ExtTreeMap α β) (k : α) (v : β) :
  (k, v) ∈ order.entries m ↔ m[k]? = some v
  := by
  rw [(order.perm m).mem_iff, ExtTreeMap.mem_toList_iff_getElem?_eq_some]

end IterationOrder

namespace Std.ExtTreeMap

variable [DecidableEq α]

/-- The entries of `m` at the keys of a list. -/
def restrict (m : ExtTreeMap α β) (ks : List α) : ExtTreeMap α β :=
  ks.foldl (fun r k => match m[k]? with | some v => r.insert k v | none => r) ∅

private theorem getElem?_foldl_restrict (m : ExtTreeMap α β) (ks : List α) (k : α)
    (r : ExtTreeMap α β) :
  (ks.foldl (fun r k => match m[k]? with | some v => r.insert k v | none => r) r)[k]?
    = if k ∈ ks then m[k]?.or r[k]? else r[k]?
  := by
  induction ks generalizing r with
  | nil => simp
  | cons k' ks ih =>
      rw [List.foldl_cons, ih]
      by_cases h : k' = k
      · subst h
        cases hk : m[k']? <;> simp
      · have hr : (match m[k']? with | some v => r.insert k' v | none => r)[k]? = r[k]? := by
          cases m[k']? <;> simp [getElem?_insert, h]
        simp [hr, Ne.symm h]

@[simp]
theorem getElem?_restrict (m : ExtTreeMap α β) (ks : List α) (k : α) :
  (m.restrict ks)[k]? = if k ∈ ks then m[k]? else none
  := by
  rw [restrict, getElem?_foldl_restrict]
  simp

theorem ncard_setOf_mem (m : ExtTreeMap α β) :
  {k | k ∈ m}.ncard = m.size
  := by
  classical
  have hkeys : {k | k ∈ m} = (m.keys.toFinset : Set α) := by
    ext k
    simp
  rw [hkeys, Set.ncard_coe_finset, List.toFinset_card_of_nodup nodup_keys, length_keys]

/-- There is at most one entry for a key. -/
theorem filter_toList (m : ExtTreeMap α β) (k : α) :
  m.toList.filter (fun e => e.1 = k) = m[k]?.toList.map (k, ·)
  := by
  cases hk : m[k]? with
  | none =>
      rw [Option.toList_none, List.map_nil, List.filter_eq_nil_iff]
      rintro ⟨k', v⟩ hmem
      rw [mem_toList_iff_getElem?_eq_some] at hmem
      simp only [decide_eq_true_eq]
      rintro rfl
      rw [hk] at hmem
      contradiction
  | some v =>
      have hmem : (k, v) ∈ m.toList := mem_toList_iff_getElem?_eq_some.mpr hk
      have hdistinct : m.toList.Pairwise fun e e' => e.1 ≠ e'.1 := by
        have h := nodup_keys (t := m)
        rw [← map_fst_toList_eq_keys] at h
        exact List.pairwise_map.mp h
      obtain ⟨before, after, hsplit⟩ := List.append_of_mem hmem
      rw [hsplit, List.pairwise_append, List.pairwise_cons] at hdistinct
      obtain ⟨-, ⟨hafter, -⟩, hbefore⟩ := hdistinct
      have hb : before.filter (fun e => e.1 = k) = [] := by
        rw [List.filter_eq_nil_iff]
        intro e he
        simpa using hbefore e he (k, v) List.mem_cons_self
      have ha : after.filter (fun e => e.1 = k) = [] := by
        rw [List.filter_eq_nil_iff]
        intro e he
        simpa [eq_comm] using hafter e he
      simp [hsplit, hb, ha]

/-! ### Maps of lists -/

variable {γ : Type}

/-- Append a value to the list at a key. -/
def pushBack (m : ExtTreeMap α (List γ)) (k : α) (v : γ) : ExtTreeMap α (List γ) :=
  m.insert k (m.getD k [] ++ [v])

/-- Append the values of a group to the list at its key, one after the other. -/
def pushAll (m : ExtTreeMap α (List γ)) (group : α × List γ) : ExtTreeMap α (List γ) :=
  group.2.foldl (fun m v => m.pushBack group.1 v) m

/-- The map of groups that are read one after the other. -/
def collect (groups : List (α × List γ)) : ExtTreeMap α (List γ) := groups.foldl pushAll ∅

/-- A group that is not empty is appended as a whole. -/
theorem pushAll_of_ne_nil (m : ExtTreeMap α (List γ)) (k : α) {vs : List γ} (hvs : vs ≠ []) :
  m.pushAll (k, vs) = m.insert k (m.getD k [] ++ vs)
  := by
  simp only [pushAll]
  induction vs using List.reverseRecOn with
  | nil => contradiction
  | append_singleton vs v ih =>
      rw [List.foldl_append]
      rcases vs.eq_nil_or_concat with rfl | ⟨vs', v', rfl⟩
      · rfl
      · rw [ih (by simp)]
        apply ext_getElem?
        intro k'
        by_cases hk : k = k'
        · simp [pushBack, hk]
        · simp [pushBack, getElem?_insert, hk]

omit [LawfulEqOrd α] [DecidableEq α] in
@[simp]
theorem pushAll_nil (m : ExtTreeMap α (List γ)) (k : α) :
  m.pushAll (k, []) = m
  := rfl

omit [LawfulEqOrd α] [DecidableEq α] in
theorem collect_append_singleton (groups : List (α × List γ)) (group : α × List γ) :
  collect (groups ++ [group]) = (collect groups).pushAll group
  := by
  rw [collect, List.foldl_append, ← collect]
  rfl

private theorem getElem?_foldl_pushAll (groups : List (α × List γ)) (m : ExtTreeMap α (List γ))
    (hkeys : (groups.map Prod.fst).Nodup) (hnew : ∀ group ∈ groups, group.1 ∉ m)
    (hgroups : ∀ group ∈ groups, group.2 ≠ []) (k : α) (vs : List γ) :
  (groups.foldl pushAll m)[k]? = some vs ↔ m[k]? = some vs ∨ (k, vs) ∈ groups
  := by
  induction groups generalizing m with
  | nil => simp
  | cons group groups ih =>
      obtain ⟨k', vs'⟩ := group
      have hk' : k' ∉ m := hnew _ List.mem_cons_self
      rw [List.map_cons, List.nodup_cons] at hkeys
      have hpush : m.pushAll (k', vs') = m.insert k' vs' := by
        rw [pushAll_of_ne_nil m k' (hgroups _ List.mem_cons_self), getD_eq_fallback hk']
        rfl
      rw [List.foldl_cons, hpush, ih _ hkeys.2, getElem?_insert, List.mem_cons]
      · by_cases hk : k' = k
        · obtain rfl := hk
          have hnone : m[k']? = none := getElem?_eq_none hk'
          simp [hnone, eq_comm]
        · simp [hk, Ne.symm hk]
      · intro group hgroup
        have hne : k' ≠ group.1 := by
          rintro rfl
          exact hkeys.1 (List.mem_map.mpr ⟨group, hgroup, rfl⟩)
        simp [mem_insert, hne, hnew group (List.mem_cons_of_mem _ hgroup)]
      · intro group hgroup
        exact hgroups group (List.mem_cons_of_mem _ hgroup)

/-- A map whose lists are not empty is collected from its entries. -/
theorem collect_toList (m : ExtTreeMap α (List γ)) (hm : ∀ (k : α) vs, m[k]? = some vs → vs ≠ []) :
  collect m.toList = m
  := by
  apply ext_getElem?
  intro k
  apply Option.ext
  intro vs
  rw [collect, getElem?_foldl_pushAll, mem_toList_iff_getElem?_eq_some]
  · simp
  · rw [map_fst_toList_eq_keys]
    exact nodup_keys
  · simp
  · intro group hgroup
    exact hm group.1 group.2 (mem_toList_iff_getElem?_eq_some.mp hgroup)

/-- The lists of a collected map are not empty. -/
theorem ne_nil_of_collect (groups : List (α × List γ)) {k : α} {vs : List γ}
    (h : (collect groups)[k]? = some vs) :
  vs ≠ []
  := by
  induction groups using List.reverseRecOn generalizing k vs with
  | nil => simp [collect] at h
  | append_singleton groups group ih =>
      obtain ⟨k', vs'⟩ := group
      rw [collect_append_singleton] at h
      by_cases hvs' : vs' = []
      · rw [hvs', pushAll_nil] at h
        exact ih h
      · rw [pushAll_of_ne_nil _ k' hvs', getElem?_insert] at h
        split at h
        · obtain rfl := Option.some.inj h
          simp [hvs']
        · exact ih h

/-- There are not more keys than groups.  If there are as many, the lists are the groups. -/
theorem mem_of_collect (groups : List (α × List γ)) :
  (collect groups).size ≤ groups.length
    ∧ ((collect groups).size = groups.length →
        ∀ (k : α) vs, (collect groups)[k]? = some vs → (k, vs) ∈ groups)
  := by
  induction groups using List.reverseRecOn with
  | nil => simp [collect]
  | append_singleton groups group ih =>
      obtain ⟨k', vs'⟩ := group
      obtain ⟨hle, hexact⟩ := ih
      rw [collect_append_singleton, List.length_append, List.length_singleton]
      by_cases hvs' : vs' = []
      · rw [hvs', pushAll_nil]
        constructor
        · omega
        · omega
      · rw [pushAll_of_ne_nil _ k' hvs', size_insert]
        split
        · constructor
          · omega
          · omega
        · rename_i hk'
          constructor
          · omega
          · intro hsize k vs h
            rw [getElem?_insert] at h
            split at h
            · rename_i hk
              obtain rfl := Std.LawfulEqOrd.eq_of_compare hk
              rw [getD_eq_fallback hk'] at h
              simp [← Option.some.inj h]
            · exact List.mem_append_left _ (hexact (by omega) k vs h)

end Std.ExtTreeMap
