import Mathlib.Data.List.Induction

/-!
# Runs

A system is given by what an event does in a state.  An event that cannot happen in a state
leads nowhere.  What holds at the start and is kept by every event holds in every state that is
reached.

If every event leads somewhere, and what holds after an event is decided by the event and by what
held before, then what holds after a list of events was made to hold by one of them and has not
been ended by a later one.
-/

namespace Runs

variable {σ ε : Type} {step : σ → ε → Option σ} {Meets : σ → ε → Prop} {s₀ s : σ}

/-- The states that are reached from a state by events that meet a condition. -/
inductive Reaches (step : σ → ε → Option σ) (Meets : σ → ε → Prop) (s₀ : σ) : σ → Prop
  | start : Reaches step Meets s₀ s₀
  | next {s s' : σ} {e : ε} : Reaches step Meets s₀ s → Meets s e → step s e = some s' →
      Reaches step Meets s₀ s'

/-- The rule for invariants. -/
theorem Reaches.invariant {P : σ → Prop} (h : Reaches step Meets s₀ s) (hstart : P s₀)
    (hstep : ∀ s e s', P s → Meets s e → step s e = some s' → P s') :
  P s
  := by
  induction h with
  | start => exact hstart
  | next _ hmeets hnext ih => exact hstep _ _ _ ih hmeets hnext

theorem Reaches.trans {s' : σ} (h : Reaches step Meets s₀ s) (h' : Reaches step Meets s s') :
  Reaches step Meets s₀ s'
  := by
  induction h' with
  | start => exact h
  | next _ hmeets hnext ih => exact .next ih hmeets hnext

/-- A sequence of events, if each of them can happen and meets the condition. -/
def run (step : σ → ε → Option σ) (meets : σ → ε → Bool) : List ε → σ → Option σ
  | [], s => some s
  | e :: events, s => if meets s e then (step s e).bind (run step meets events) else none

theorem Reaches.run {meets : σ → ε → Bool} {events : List ε} {s' : σ}
    (hmeets : ∀ s e, meets s e = true → Meets s e) (h : Reaches step Meets s₀ s)
    (hrun : Runs.run step meets events s = some s') :
  Reaches step Meets s₀ s'
  := by
  induction events generalizing s with
  | nil =>
      obtain rfl : s = s' := Option.some.inj hrun
      exact h
  | cons e events ih =>
      unfold Runs.run at hrun
      split at hrun
      · rename_i hmeet
        obtain ⟨s₁, hstep, hrest⟩ := Option.bind_eq_some_iff.mp hrun
        exact ih (.next h (hmeets _ _ hmeet) hstep) hrest
      · cases hrun

/-- The rule for bounds: where some of the events make a number smaller, some make it larger by one
and the others do not make it larger, the number bounds how many more of the first there are. -/
theorem countP_add_le_of_run {meets : σ → ε → Bool} {P : σ → Prop} {costs gains : ε → Bool}
    {μ : σ → ℕ} {events : List ε} {s' : σ} (hs : P s)
    (hstep : ∀ s e s', P s → meets s e = true → step s e = some s' →
      P s' ∧ μ s' + (if costs e then 1 else 0) ≤ μ s + (if gains e then 1 else 0))
    (hrun : Runs.run step meets events s = some s') :
  events.countP costs + μ s' ≤ μ s + events.countP gains
  := by
  induction events generalizing s with
  | nil =>
      obtain rfl : s = s' := Option.some.inj hrun
      simp
  | cons e events ih =>
      unfold Runs.run at hrun
      split at hrun
      · rename_i hmeet
        obtain ⟨s₁, hnext, hrest⟩ := Option.bind_eq_some_iff.mp hrun
        obtain ⟨hs₁, hle⟩ := hstep s e s₁ hs hmeet hnext
        have hcount := ih hs₁ hrest
        rw [List.countP_cons, List.countP_cons]
        omega
      · cases hrun

/-! ### What made a property hold -/

section

variable {α : Type} {l : List α} {a b : α}

theorem getElem?_append_singleton {i : ℕ} :
  (l ++ [a])[i]? = some b ↔ l[i]? = some b ∨ i = l.length ∧ a = b
  := by
  rw [List.getElem?_append]
  split
  · rename_i hi
    simp [Nat.ne_of_lt hi]
  · rename_i hi
    rw [List.getElem?_eq_none (Nat.le_of_not_lt hi), List.getElem?_singleton]
    constructor
    · intro h
      obtain ⟨hzero, h⟩ := Option.ite_none_right_eq_some.mp h
      exact Or.inr ⟨by omega, Option.some.inj h⟩
    · rintro (h | ⟨rfl, rfl⟩)
      · cases h
      · simp

end

section Since

variable (next : σ → ε → σ) (s₀ : σ) (Makes Overrides : ε → Prop) (Ends : σ → ε → Prop)

/-- One of the events makes a property hold, no later one overrides it, and neither this one nor a
later one ends it. -/
def Since (events : List ε) : Prop :=
  ∃ i e, events[i]? = some e ∧ Makes e ∧ (∀ j e, i < j → events[j]? = some e → ¬ Overrides e) ∧
    ∀ j e, i ≤ j → events[j]? = some e → ¬ Ends ((events.take j).foldl next s₀) e

variable {next s₀ Makes Overrides Ends}

theorem since_append_iff {events : List ε} {e : ε} :
  Since next s₀ Makes Overrides Ends (events ++ [e])
    ↔ ¬ Ends (events.foldl next s₀) e
      ∧ (Makes e ∨ ¬ Overrides e ∧ Since next s₀ Makes Overrides Ends events)
  := by
  have hlast : (events ++ [e])[events.length]? = some e := by simp
  have hlt : ∀ {j e'}, events[j]? = some e' → j < events.length := fun h =>
    (List.getElem?_eq_some_iff.mp h).1
  have htake : ∀ {j}, j ≤ events.length → (events ++ [e]).take j = events.take j := fun h =>
    List.take_append_of_le_length h
  have hall : (events ++ [e]).take events.length = events := by
    rw [htake (Nat.le_refl _), List.take_length]
  constructor
  · rintro ⟨i, e', hi, hmakes, hlatest, hkept⟩
    obtain hi | ⟨rfl, rfl⟩ := getElem?_append_singleton.mp hi
    · constructor
      · have hends := hkept events.length e (Nat.le_of_lt (hlt hi)) hlast
        rwa [hall] at hends
      · refine Or.inr ⟨hlatest events.length e (hlt hi) hlast, i, e', hi, hmakes, ?_, ?_⟩
        · intro j e'' hj he
          exact hlatest j e'' hj (getElem?_append_singleton.mpr (Or.inl he))
        · intro j e'' hj he
          rw [← htake (Nat.le_of_lt (hlt he))]
          exact hkept j e'' hj (getElem?_append_singleton.mpr (Or.inl he))
    · have hends := hkept events.length e (Nat.le_refl _) hlast
      rw [hall] at hends
      exact ⟨hends, Or.inl hmakes⟩
  · rintro ⟨hends, hmakes | ⟨hnot, i, e', hi, hmakes, hlatest, hkept⟩⟩
    · refine ⟨events.length, e, hlast, hmakes, ?_, ?_⟩
      · intro j e' hj he
        obtain he | ⟨rfl, -⟩ := getElem?_append_singleton.mp he
        · exact absurd (hlt he) (by omega)
        · exact absurd hj (Nat.lt_irrefl _)
      · intro j e' hj he
        obtain he | ⟨rfl, rfl⟩ := getElem?_append_singleton.mp he
        · exact absurd (hlt he) (by omega)
        · rwa [hall]
    · refine ⟨i, e', getElem?_append_singleton.mpr (Or.inl hi), hmakes, ?_, ?_⟩
      · intro j e'' hj he
        obtain he | ⟨rfl, rfl⟩ := getElem?_append_singleton.mp he
        · exact hlatest j e'' hj he
        · exact hnot
      · intro j e'' hj he
        obtain he | ⟨rfl, rfl⟩ := getElem?_append_singleton.mp he
        · rw [htake (Nat.le_of_lt (hlt he))]
          exact hkept j e'' hj he
        · rwa [hall]

/-- The rule for properties that events make hold and end. -/
theorem since_iff {P : σ → Prop} (hstart : ¬ P s₀)
    (hnext : ∀ s e, P (next s e) ↔ ¬ Ends s e ∧ (Makes e ∨ ¬ Overrides e ∧ P s))
    (events : List ε) :
  Since next s₀ Makes Overrides Ends events ↔ P (events.foldl next s₀)
  := by
  induction events using List.reverseRecOn with
  | nil => simp [Since, hstart]
  | append_singleton events e ih =>
      rw [since_append_iff, ih, List.foldl_append, List.foldl_cons, List.foldl_nil, hnext]

end Since

end Runs
