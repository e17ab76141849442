import Mathlib.Logic.Basic

/-!
# Refinement

An implementation performs operations on a state.  Each operation has an answer; an operation that
is not defined has none.  It refines a specification, in which every operation is defined, if the
answers are the same.  For this it is enough that a relation between the states is kept by each
operation, and that related states give the same answers.
-/

namespace Refinement

variable {σ τ ο α : Type}

/-- The answers of some operations and the last state, if all of them are defined. -/
def run (step : σ → ο → Option (α × σ)) : List ο → σ → Option (List α × σ)
  | [], s => some ([], s)
  | o :: ops, s =>
      (step s o).bind fun (a, s) => (run step ops s).map fun (as, s) => (a :: as, s)

/-- The answers and the last state that are specified. -/
def runSpec (spec : τ → ο → α × τ) : List ο → τ → List α × τ
  | [], t => ([], t)
  | o :: ops, t =>
      let (a, t) := spec t o
      let (as, t) := runSpec spec ops t
      (a :: as, t)

/-- One operation: it is defined, its answer is the one specified, and the states stay related. -/
def Refines (step : σ → ο → Option (α × σ)) (spec : τ → ο → α × τ) (R : σ → τ → Prop) : Prop :=
  ∀ s t o, R s t → ∃ s', step s o = some ((spec t o).1, s') ∧ R s' (spec t o).2

/-- The rule for runs. -/
theorem Refines.run {step : σ → ο → Option (α × σ)} {spec : τ → ο → α × τ} {R : σ → τ → Prop}
    (h : Refines step spec R) (ops : List ο) {s : σ} {t : τ} (hst : R s t) :
  ∃ s', Refinement.run step ops s = some ((runSpec spec ops t).1, s')
    ∧ R s' (runSpec spec ops t).2
  := by
  induction ops generalizing s t with
  | nil => exact ⟨s, rfl, hst⟩
  | cons o ops ih =>
      obtain ⟨s₁, hstep, hst₁⟩ := h s t o hst
      obtain ⟨s', hrun, hst'⟩ := ih hst₁
      refine ⟨s', ?_, hst'⟩
      simp [Refinement.run, runSpec, hstep, hrun]

end Refinement
