import Mathlib.Data.List.Nodup
import Mathlib.Data.List.Perm.Basic
import Mathlib.Order.Basic

/-!
# Linked lists with iterators

A list of values whose elements have addresses.  An iterator is the address of an element; it
stays valid when other elements are added, removed or moved, and an operation that is given
the address of an element that is no longer there has no result.
-/

/-- A linked list: its elements with their addresses, and the next free address. -/
structure NodeList (α : Type) where
  nodes : List (ℕ × α)
  next : ℕ
  nodup : (nodes.map Prod.fst).Nodup
  lt_next : ∀ node ∈ nodes, node.1 < next

namespace NodeList

variable {α : Type} {l : NodeList α} {i : ℕ} {a : α}

def empty : NodeList α := ⟨[], 0, List.nodup_nil, fun _ h => by cases h⟩

/-- The values in the order of the list. -/
def values (l : NodeList α) : List α := l.nodes.map Prod.snd

/-- Add a value at the front, with the free address. -/
def pushFront (l : NodeList α) (a : α) : NodeList α where
  nodes := (l.next, a) :: l.nodes
  next := l.next + 1
  nodup := by
    rw [List.map_cons, List.nodup_cons]
    refine ⟨fun h => ?_, l.nodup⟩
    obtain ⟨node, hnode, heq⟩ := List.mem_map.mp h
    exact Nat.ne_of_lt (l.lt_next node hnode) heq
  lt_next := by
    rw [List.forall_mem_cons]
    exact ⟨Nat.lt_succ_self _, fun node hnode => Nat.lt_succ_of_lt (l.lt_next node hnode)⟩

/-- The list without the element at an address. -/
def without (l : NodeList α) (i : ℕ) : NodeList α where
  nodes := l.nodes.filter fun node => node.1 ≠ i
  next := l.next
  nodup := l.nodup.sublist (List.filter_sublist.map Prod.fst)
  lt_next node hnode := l.lt_next node (List.mem_filter.mp hnode).1

/-- The list with the element at an address moved to the front. -/
def toFront (l : NodeList α) (i : ℕ) : NodeList α where
  nodes := l.nodes.filter (fun node => node.1 = i) ++ l.nodes.filter fun node => ¬ node.1 = i
  next := l.next
  nodup := by
    have hperm := List.filter_append_perm (fun node : ℕ × α => decide (node.1 = i)) l.nodes
    simp only [← decide_not] at hperm
    exact (hperm.map Prod.fst).nodup_iff.mpr l.nodup
  lt_next node hnode := by
    apply l.lt_next
    simp only [List.mem_append, List.mem_filter] at hnode
    rcases hnode with hnode | hnode
    · exact hnode.1
    · exact hnode.1

/-- Remove the element at an address. -/
def erase (l : NodeList α) (i : ℕ) : Option (NodeList α) :=
  if i ∈ l.nodes.map Prod.fst then some (l.without i) else none

/-- Move an element to the front; it keeps its address. -/
def spliceFront (l : NodeList α) (i : ℕ) : Option (NodeList α) :=
  if i ∈ l.nodes.map Prod.fst then some (l.toFront i) else none

/-- Remove the last element and return its value. -/
def popBack (l : NodeList α) : Option (α × NodeList α) :=
  l.nodes.getLast?.map fun node => (node.2, l.without node.1)

/-- The address of the first element. -/
def front? (l : NodeList α) : Option ℕ := l.nodes.head?.map Prod.fst

/-! ### Elements -/

/-- There is one element at an address. -/
theorem eq_of_mem {b : α} (ha : (i, a) ∈ l.nodes) (hb : (i, b) ∈ l.nodes) :
  a = b
  := by
  have heq := List.inj_on_of_nodup_map l.nodup ha hb rfl
  exact (Prod.mk.inj heq).2

theorem mem_values :
  a ∈ l.values ↔ ∃ i, (i, a) ∈ l.nodes
  := by
  simp [values]

theorem mem_pushFront {node : ℕ × α} :
  node ∈ (l.pushFront a).nodes ↔ node = (l.next, a) ∨ node ∈ l.nodes
  := List.mem_cons

theorem mem_without {node : ℕ × α} :
  node ∈ (l.without i).nodes ↔ node ∈ l.nodes ∧ node.1 ≠ i
  := by
  simp [without]

theorem erase_of_mem (h : (i, a) ∈ l.nodes) :
  l.erase i = some (l.without i)
  := if_pos (List.mem_map.mpr ⟨_, h, rfl⟩)

theorem spliceFront_of_mem (h : (i, a) ∈ l.nodes) :
  l.spliceFront i = some (l.toFront i)
  := if_pos (List.mem_map.mpr ⟨_, h, rfl⟩)

/-- The elements with an address are the element that is there. -/
theorem filter_eq (h : (i, a) ∈ l.nodes) :
  l.nodes.filter (fun node => node.1 = i) = [(i, a)]
  := by
  have hnodup : (l.nodes.filter fun node => node.1 = i).Nodup := (l.nodup.of_map _).filter _
  apply List.perm_singleton.mp
  apply (List.perm_ext_iff_of_nodup hnodup (List.nodup_singleton _)).mpr
  rintro ⟨j, b⟩
  simp only [List.mem_filter, decide_eq_true_eq, List.mem_singleton, Prod.mk.injEq]
  constructor
  · rintro ⟨hmem, rfl⟩
    exact ⟨rfl, eq_of_mem hmem h⟩
  · rintro ⟨rfl, rfl⟩
    exact ⟨h, rfl⟩

theorem nodes_toFront (h : (i, a) ∈ l.nodes) :
  (l.toFront i).nodes = (i, a) :: (l.without i).nodes
  := by
  change l.nodes.filter (fun node => node.1 = i) ++ (l.without i).nodes = _
  rw [filter_eq h, List.singleton_append]

theorem mem_toFront (h : (i, a) ∈ l.nodes) {node : ℕ × α} :
  node ∈ (l.toFront i).nodes ↔ node ∈ l.nodes
  := by
  rw [nodes_toFront h, List.mem_cons, mem_without]
  by_cases hnode : node.1 = i
  · constructor
    · rintro (rfl | hmem)
      · exact h
      · exact hmem.1
    · intro hmem
      obtain ⟨j, b⟩ := node
      obtain rfl : j = i := hnode
      rw [eq_of_mem hmem h]
      exact Or.inl rfl
  · simp only [ne_eq, hnode, not_false_eq_true, and_true, or_iff_right_iff_imp]
    rintro rfl
    contradiction

theorem front?_toFront (h : (i, a) ∈ l.nodes) :
  (l.toFront i).front? = some i
  := by
  rw [front?, nodes_toFront h]
  rfl

/-- The last element. -/
theorem popBack_of_ne_nil (h : l.nodes ≠ []) :
  ∃ i a, l.popBack = some (a, l.without i) ∧ l.nodes = (l.without i).nodes ++ [(i, a)]
  := by
  obtain ⟨rest, ⟨i, a⟩, hnodes⟩ := l.nodes.eq_nil_or_concat.resolve_left h
  rw [List.concat_eq_append] at hnodes
  have hnodup := l.nodup
  rw [hnodes, List.map_append, List.nodup_append] at hnodup
  have hrest : (l.without i).nodes = rest := by
    change l.nodes.filter (fun node => node.1 ≠ i) = rest
    rw [hnodes, List.filter_append]
    simp only [ne_eq, decide_not, decide_true, Bool.not_true, Bool.false_eq_true,
      not_false_eq_true, List.filter_cons_of_neg, List.filter_nil, List.append_nil,
      List.filter_eq_self]
    intro node hnode
    have hne := hnodup.2.2 node.1 (List.mem_map_of_mem hnode) i (by simp)
    simp [hne]
  refine ⟨i, a, ?_, by rw [hrest, hnodes]⟩
  rw [popBack, hnodes, List.getLast?_concat]
  rfl

end NodeList
