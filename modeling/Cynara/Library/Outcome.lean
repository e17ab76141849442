import Mathlib

/-!
# Operations that may throw

An operation on a state may throw an exception, and what it did to the state before it
threw stays done.  `Outcome ε σ` is what such an operation ends with.  Operations are
run one after the other by `andThen` and over a list by `forEach`; both stop at the first
exception.
-/

/-- What an operation ends with: the state it leaves and the exception it threw. -/
structure Outcome (ε σ : Type) where
  state : σ
  thrown : Option ε
deriving DecidableEq

namespace Outcome

variable {ε σ α : Type}

/-- The operation returned. -/
def returned (s : σ) : Outcome ε σ := ⟨s, none⟩

/-- The operation threw `e` and left the state `s`. -/
def threw (e : ε) (s : σ) : Outcome ε σ := ⟨s, some e⟩

@[simp]
theorem returned_state (s : σ) :
  (returned s : Outcome ε σ).state = s
  := rfl

@[simp]
theorem returned_thrown (s : σ) :
  (returned s : Outcome ε σ).thrown = none
  := rfl

@[simp]
theorem threw_state (e : ε) (s : σ) :
  (threw e s).state = s
  := rfl

@[simp]
theorem threw_thrown (e : ε) (s : σ) :
  (threw e s).thrown = some e
  := rfl

/-- Run `f` on the state left by an operation, unless the operation threw. -/
def andThen (o : Outcome ε σ) (f : σ → Outcome ε σ) : Outcome ε σ :=
  match o.thrown with
  | none => f o.state
  | some _ => o

/-- Run an operation for the elements of a list in turn. -/
def forEach (f : σ → α → Outcome ε σ) : List α → σ → Outcome ε σ
  | [], s => returned s
  | a :: as, s => (f s a).andThen (forEach f as)

/-- Throw an exception if there is one. -/
def raise (e? : Option ε) (s : σ) : Outcome ε σ := ⟨s, e?⟩

/-- The same outcome with another exception. -/
def mapThrown {ε' : Type} (o : Outcome ε σ) (f : ε → ε') : Outcome ε' σ :=
  ⟨o.state, o.thrown.map f⟩

@[simp]
theorem raise_state (e? : Option ε) (s : σ) :
  (raise e? s).state = s
  := rfl

@[simp]
theorem mapThrown_state {ε' : Type} (o : Outcome ε σ) (f : ε → ε') :
  (o.mapThrown f).state = o.state
  := rfl

@[simp]
theorem mapThrown_thrown {ε' : Type} (o : Outcome ε σ) (f : ε → ε') :
  (o.mapThrown f).thrown = o.thrown.map f
  := rfl

@[simp]
theorem andThen_returned (s : σ) (f : σ → Outcome ε σ) :
  (returned s).andThen f = f s
  := rfl

@[simp]
theorem andThen_threw (e : ε) (s : σ) (f : σ → Outcome ε σ) :
  (threw e s).andThen f = threw e s
  := rfl

theorem andThen_of_thrown {o : Outcome ε σ} {e : ε} (h : o.thrown = some e)
    (f : σ → Outcome ε σ) :
  o.andThen f = o
  := by
  simp only [andThen, h]

theorem andThen_of_returned {o : Outcome ε σ} (h : o.thrown = none) (f : σ → Outcome ε σ) :
  o.andThen f = f o.state
  := by
  simp only [andThen, h]

theorem andThen_thrown_eq_some {o : Outcome ε σ} {f : σ → Outcome ε σ} {e : ε} :
  (o.andThen f).thrown = some e
    ↔ o.thrown = some e ∨ ∃ s, o = .returned s ∧ (f s).thrown = some e
  := by
  obtain ⟨s, thrown⟩ := o
  cases thrown with
  | none =>
      constructor
      · intro h
        exact Or.inr ⟨s, rfl, h⟩
      · rintro (h | ⟨s', hs', h⟩)
        · cases h
        · cases hs'
          exact h
  | some e' =>
      constructor
      · exact Or.inl
      · rintro (h | ⟨s', hs', h⟩)
        · exact h
        · cases hs'

theorem andThen_thrown_eq_none {o : Outcome ε σ} {f : σ → Outcome ε σ} :
  (o.andThen f).thrown = none ↔ o.thrown = none ∧ (f o.state).thrown = none
  := by
  cases h : o.thrown with
  | none => simp [andThen_of_returned h]
  | some e => simp [andThen_of_thrown h, h]

/-- What holds of the state after both operations, if the first keeps it and the second
keeps it. -/
theorem andThen_state {P : σ → Prop} {o : Outcome ε σ} {f : σ → Outcome ε σ}
    (ho : P o.state) (hf : ∀ s, P s → P (f s).state) :
  P (o.andThen f).state
  := by
  unfold andThen
  split
  · apply hf _ ho
  · apply ho

/-- A property that every single operation keeps is kept by running them over a list,
also when one of them throws. -/
theorem forEach_state {P : σ → Prop} {f : σ → α → Outcome ε σ} {as : List α} {s : σ}
    (hs : P s) (hf : ∀ s, ∀ a ∈ as, P s → P (f s a).state) :
  P (forEach f as s).state
  := by
  induction as generalizing s with
  | nil => exact hs
  | cons a as ih =>
      apply andThen_state
      · apply hf s a List.mem_cons_self hs
      · intro s hs
        apply ih hs
        intro s b hb
        apply hf s b (List.mem_cons_of_mem a hb)

/-- Where nothing throws, no element does. -/
theorem exists_returned_of_forEach {f : σ → α → Outcome ε σ} {as : List α} {s : σ}
    (h : (forEach f as s).thrown = none) {a : α} (ha : a ∈ as) :
  ∃ s, (f s a).thrown = none
  := by
  induction as generalizing s with
  | nil => contradiction
  | cons b as ih =>
      obtain ⟨hb, has⟩ := andThen_thrown_eq_none.mp h
      obtain rfl | ha := List.mem_cons.mp ha
      · exact ⟨s, hb⟩
      · exact ih has ha

theorem andThen_assoc (o : Outcome ε σ) (f g : σ → Outcome ε σ) :
  (o.andThen f).andThen g = o.andThen fun s => (f s).andThen g
  := by
  cases h : o.thrown with
  | none => simp only [andThen, h]
  | some e => simp only [andThen, h]

theorem forEach_append (f : σ → α → Outcome ε σ) (as bs : List α) (s : σ) :
  forEach f (as ++ bs) s = (forEach f as s).andThen (forEach f bs)
  := by
  induction as generalizing s with
  | nil => rfl
  | cons a as ih =>
      have hrest : forEach f (as ++ bs) = fun s => (forEach f as s).andThen (forEach f bs) := by
        funext s
        apply ih
      simp only [List.cons_append, forEach, andThen_assoc, hrest]

/-- A loop inside a loop is one loop over all the elements. -/
theorem forEach_flatMap {β : Type} (f : σ → β → Outcome ε σ) (h : α → List β) (as : List α)
    (s : σ) :
  forEach (fun s a => forEach f (h a) s) as s = forEach f (as.flatMap h) s
  := by
  induction as generalizing s with
  | nil => rfl
  | cons a as ih =>
      have hrest : forEach (fun s a => forEach f (h a) s) as = forEach f (as.flatMap h) := by
        funext s
        apply ih
      rw [List.flatMap_cons, forEach_append, forEach, hrest]

theorem forEach_map {β : Type} (f : σ → β → Outcome ε σ) (h : α → β) (as : List α) (s : σ) :
  forEach f (as.map h) s = forEach (fun s a => f s (h a)) as s
  := by
  induction as generalizing s with
  | nil => rfl
  | cons a as ih =>
      have hrest : forEach f (as.map h) = forEach (fun s a => f s (h a)) as := by
        funext s
        apply ih
      rw [List.map_cons, forEach, forEach, hrest]

end Outcome
