import Mathlib

/-!
# Well-founded traversals

A relation whose sources lie in a finite set and that has no cycle is well founded when
read backwards.  A work list over such a relation is exhausted: an element is taken from
the list and replaced by some of its successors.
-/

namespace Relation

variable {α : Type*} {r : α → α → Prop}

/-- No element leads back to itself. -/
def Acyclic (r : α → α → Prop) : Prop :=
  ∀ x, ¬ TransGen r x x

/-- A relation contained in an acyclic one is acyclic. -/
theorem Acyclic.mono {r' : α → α → Prop} (h : Acyclic r) (hle : ∀ x y, r' x y → r x y) :
  Acyclic r'
  := by
  intro x hx
  apply h x
  apply TransGen.mono hle x x hx

/-- A relation that lowers a rank is acyclic. -/
theorem Acyclic.of_rank (rank : α → ℕ) (h : ∀ x y, r x y → rank y < rank x) :
  Acyclic r
  := by
  have hrank : ∀ x y, TransGen r x y → rank y < rank x := by
    intro x y hxy
    induction hxy with
    | single hxy => apply h _ _ hxy
    | tail _ hyz ih => apply lt_trans (h _ _ hyz) ih
  intro x hx
  apply lt_irrefl _ (hrank x x hx)

/-- An acyclic relation with sources in a finite set is well founded when read
backwards. -/
theorem Acyclic.wellFounded (h : Acyclic r) (S : Finset α) (hS : ∀ x y, r x y → x ∈ S) :
  WellFounded (Function.swap r)
  := by
  let t : S → S → Prop := fun a b => TransGen r b a
  have : IsTrans S t := ⟨fun _ _ _ hab hbc => hbc.trans hab⟩
  have : Std.Irrefl t := ⟨fun a => h a⟩
  have hwf : WellFounded t := Finite.wellFounded_of_trans_of_irrefl t
  have houtside : ∀ x, x ∉ S → Acc (Function.swap r) x := by
    intro x hx
    constructor
    intro y hxy
    exact absurd (hS x y hxy) hx
  have hinside : ∀ a : S, Acc (Function.swap r) a := by
    intro a
    induction a using hwf.induction with
    | _ a ih =>
        constructor
        intro y hay
        by_cases hy : y ∈ S
        · apply ih ⟨y, hy⟩
          exact TransGen.single (show r a y from hay)
        · apply houtside y hy
  constructor
  intro x
  by_cases hx : x ∈ S
  · apply hinside ⟨x, hx⟩
  · apply houtside x hx

variable [DecidableEq α]

/-- The step of a work list: an element is replaced by elements below it. -/
def WorkStep (r : α → α → Prop) (new old : Finset α) : Prop :=
  ∃ a ∈ old, ∃ successors : Finset α,
    (∀ b ∈ successors, r b a) ∧ new = old.erase a ∪ successors

/-- A work list over a well-founded relation is exhausted. -/
theorem WorkStep.wellFounded (h : WellFounded r) :
  WellFounded (WorkStep r)
  := by
  have hcut : WellFounded (InvImage (CutExpand r) (Finset.val : Finset α → Multiset α)) :=
    InvImage.wf _ h.cutExpand
  apply Subrelation.wf _ hcut
  rintro new old ⟨a, ha, successors, hbelow, rfl⟩
  -- the successors that are already in the list do not count twice
  use (successors \ old.erase a).val, a
  constructor
  · intro b hb
    apply hbelow
    exact (Finset.mem_sdiff.mp (Finset.mem_val.mp hb)).1
  · rw [← Finset.union_sdiff_self_eq_union,
      ← Finset.disjUnion_eq_union _ _ Finset.disjoint_sdiff, Finset.disjUnion_val,
      Finset.erase_val, add_right_comm, add_comm (old.val.erase a), Multiset.singleton_add,
      Multiset.cons_erase (Finset.mem_val.mpr ha)]

end Relation
