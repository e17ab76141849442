import Mathlib

/-!
# Programs that may be cut short

A program is a list of instructions that change a disk one after the other.  An instruction
may fail, and it may put further instructions in front of those that are left.  The program
may be cut short between any two instructions, so what matters is not only what holds at
its end but also what holds at every point before.

`Safe` says that no instruction fails, that a condition for recovery holds at every point,
and that a postcondition holds at the end.  It is an inductive predicate, so a safe program
comes to its end.
-/

namespace Crash

variable {Disk Instruction : Type*}

section

variable (exec : Instruction → Disk → Option (Disk × List Instruction))

/-- A program is safe on a disk: before each instruction `allowed` holds of it, at every point
`recoverable` holds of the disk, and at the end `post` does. -/
inductive Safe (allowed : Instruction → Disk → Prop) (recoverable post : Disk → Prop) :
    List Instruction → Disk → Prop where
  | done {d : Disk} (hrec : recoverable d) (hpost : post d) :
      Safe allowed recoverable post [] d
  | step {i : Instruction} {rest more : List Instruction} {d d' : Disk}
      (hrec : recoverable d) (hallowed : allowed i d) (hexec : exec i d = some (d', more))
      (hrest : Safe allowed recoverable post (more ++ rest) d') :
      Safe allowed recoverable post (i :: rest) d

/-- A program comes to its end, where `post` holds. -/
abbrev Ends (post : Disk → Prop) : List Instruction → Disk → Prop :=
  Safe exec (fun _ _ => True) (fun _ => True) post

/-- A program that is executed to its end. -/
inductive Completes : List Instruction → Disk → Disk → Prop where
  | done (d : Disk) : Completes [] d d
  | step {i : Instruction} {rest more : List Instruction} {d d' d'' : Disk}
      (hexec : exec i d = some (d', more)) (hrest : Completes (more ++ rest) d' d'') :
      Completes (i :: rest) d d''

/-- A program that is executed up to its end or up to the first instruction that fails; the flag
tells whether it came to its end. -/
inductive Attempts : List Instruction → Disk → Disk → Bool → Prop where
  | done (d : Disk) : Attempts [] d d true
  | step {i : Instruction} {rest more : List Instruction} {d d' d'' : Disk} {completed : Bool}
      (hexec : exec i d = some (d', more)) (hrest : Attempts (more ++ rest) d' d'' completed) :
      Attempts (i :: rest) d d'' completed
  | fails {i : Instruction} {rest : List Instruction} {d : Disk} (hexec : exec i d = none) :
      Attempts (i :: rest) d d false

end

variable {exec : Instruction → Disk → Option (Disk × List Instruction)}
  {allowed : Instruction → Disk → Prop} {recoverable post mid : Disk → Prop}
  {p q : List Instruction} {d : Disk}

namespace Safe

theorem recoverable_start (h : Safe exec allowed recoverable post p d) :
  recoverable d
  := by
  cases h with
  | done hrec _ => exact hrec
  | step hrec _ _ _ => exact hrec

/-- A safe program comes to its end, where the postcondition holds. -/
theorem completes (h : Safe exec allowed recoverable post p d) :
  ∃ d', Completes exec p d d' ∧ recoverable d' ∧ post d'
  := by
  induction h with
  | done hrec hpost => exact ⟨_, .done _, hrec, hpost⟩
  | step _ _ hexec _ ih =>
      obtain ⟨d', hcompletes, h⟩ := ih
      exact ⟨d', .step hexec hcompletes, h⟩

/-- Two programs one after the other. -/
theorem append (hp : Safe exec allowed recoverable mid p d)
    (hq : ∀ d, recoverable d → mid d → Safe exec allowed recoverable post q d) :
  Safe exec allowed recoverable post (p ++ q) d
  := by
  induction hp with
  | done hrec hmid => exact hq _ hrec hmid
  | step hrec hallowed hexec _ ih =>
      rw [List.cons_append]
      apply step hrec hallowed hexec
      rw [← List.append_assoc]
      exact ih

/-- A single instruction. -/
theorem single {i : Instruction} {d' : Disk} (hrec : recoverable d) (hallowed : allowed i d)
    (hexec : exec i d = some (d', [])) (hrec' : recoverable d') (hpost : post d') :
  Safe exec allowed recoverable post [i] d
  := step hrec hallowed hexec (done hrec' hpost)

theorem mono {recoverable' post' : Disk → Prop}
    (h : Safe exec allowed recoverable post p d) (hrec : ∀ d, recoverable d → recoverable' d)
    (hpost : ∀ d, recoverable d → post d → post' d) :
  Safe exec allowed recoverable' post' p d
  := by
  induction h with
  | done hr hp => exact done (hrec _ hr) (hpost _ hr hp)
  | step hr hallowed hexec _ ih => exact step (hrec _ hr) hallowed hexec ih

/-- A program for the elements of a list in turn, with an invariant that depends on the
elements that have been treated. -/
theorem flatMap_split {α : Type*} (invariant : List α → Disk → Prop) {f : α → List Instruction}
    {as : List α} (hinv : ∀ done d, invariant done d → recoverable d)
    (hstep : ∀ done a rest, as = done ++ a :: rest → ∀ d, invariant done d →
      Safe exec allowed recoverable (invariant (done ++ [a])) (f a) d)
    (hd : invariant [] d) :
  Safe exec allowed recoverable (invariant as) (as.flatMap f) d
  := by
  suffices hgen : ∀ rest done, as = done ++ rest → ∀ d, invariant done d →
      Safe exec allowed recoverable (invariant as) (rest.flatMap f) d by
    exact hgen as [] rfl d hd
  intro rest
  induction rest with
  | nil =>
      intro done has d hd
      rw [has, List.append_nil]
      exact .done (hinv done d hd) hd
  | cons a rest ih =>
      intro done has d hd
      rw [List.flatMap_cons]
      apply append (hstep done a rest has d hd)
      intro d' _ hd'
      exact ih (done ++ [a]) (has.trans (List.append_cons done a rest)) d' hd'

/-- A step that is the same whatever has been treated before. -/
theorem flatMap {α : Type*} (invariant : List α → Disk → Prop) {f : α → List Instruction}
    {as : List α} (hinv : ∀ done d, invariant done d → recoverable d)
    (hstep : ∀ done, ∀ a ∈ as, ∀ d, invariant done d →
      Safe exec allowed recoverable (invariant (done ++ [a])) (f a) d)
    (hd : invariant [] d) :
  Safe exec allowed recoverable (invariant as) (as.flatMap f) d
  := by
  apply flatMap_split invariant hinv _ hd
  intro done a rest has
  exact hstep done a (has ▸ List.mem_append_right done List.mem_cons_self)

/-- A safe program comes to its end. -/
theorem ends (h : Safe exec allowed recoverable post p d) :
  Ends exec post p d
  := by
  induction h with
  | done _ hpost => exact done trivial hpost
  | step _ _ hexec _ ih => exact step trivial trivial hexec ih

/-- What a safe program that is executed to its end leaves. -/
theorem post_of_completes (h : Safe exec allowed recoverable post p d) {d' : Disk}
    (hcompletes : Completes exec p d d') :
  post d'
  := by
  induction h with
  | done _ hpost =>
      cases hcompletes with
      | done => exact hpost
  | step _ _ hexec _ ih =>
      cases hcompletes with
      | step hexec' hrest =>
          obtain ⟨rfl, rfl⟩ := Prod.mk.inj (Option.some.inj (hexec.symm.trans hexec'))
          exact ih hrest

end Safe

namespace Completes

/-- Two programs one after the other that are executed to their end. -/
theorem of_append {d' : Disk} (h : Completes exec (p ++ q) d d') :
  ∃ mid, Completes exec p d mid ∧ Completes exec q mid d'
  := by
  generalize hr : p ++ q = r at h
  induction h generalizing p with
  | done d =>
      obtain ⟨rfl, rfl⟩ := List.append_eq_nil_iff.mp hr
      exact ⟨d, .done d, .done d⟩
  | @step i rest more d d₁ d' hexec hrest ih =>
      cases p with
      | nil =>
          obtain rfl : q = i :: rest := hr
          exact ⟨d, .done d, .step hexec hrest⟩
      | cons j p =>
          obtain ⟨rfl, rfl⟩ := List.cons.inj hr
          obtain ⟨mid, hp, hq⟩ := ih (List.append_assoc more p q)
          exact ⟨mid, .step hexec hp, hq⟩

/-- A system that executes a program step by step gets past it. -/
theorem reaches {S : Type*} {step : S → S → Prop} (state : List Instruction → Disk → S)
    (hstep : ∀ {i rest more d d'}, exec i d = some (d', more) →
      step (state (i :: rest) d) (state (more ++ rest) d'))
    {d' : Disk} (h : Completes exec p d d') (rest : List Instruction) :
  Relation.ReflTransGen step (state (p ++ rest) d) (state rest d')
  := by
  induction h with
  | done d => exact .refl
  | step hexec _ ih =>
      rw [List.append_assoc] at ih
      exact .head (hstep hexec) ih

theorem attempts {d' : Disk} (h : Completes exec p d d') :
  Attempts exec p d d' true
  := by
  induction h with
  | done d => exact .done d
  | step hexec _ ih => exact .step hexec ih

end Completes

namespace Attempts

/-- A program whose instructions add no others can be attempted. -/
theorem exists_of_simple
    (hp : ∀ i ∈ p, ∀ d d' more, exec i d = some (d', more) → more = []) (d : Disk) :
  ∃ d' completed, Attempts exec p d d' completed
  := by
  induction p generalizing d with
  | nil => exact ⟨d, true, .done d⟩
  | cons i p ih =>
      cases hexec : exec i d with
      | none => exact ⟨d, false, .fails hexec⟩
      | some result =>
          obtain ⟨d₁, more⟩ := result
          obtain rfl := hp i List.mem_cons_self d d₁ more hexec
          obtain ⟨d', completed, h⟩ := ih (fun j hj => hp j (List.mem_cons_of_mem i hj)) d₁
          exact ⟨d', completed, .step hexec h⟩

/-- The disk at the end and the flag are determined. -/
theorem unique {d₁ d₂ : Disk} {b₁ b₂ : Bool} (h₁ : Attempts exec p d d₁ b₁)
    (h₂ : Attempts exec p d d₂ b₂) :
  d₁ = d₂ ∧ b₁ = b₂
  := by
  induction h₁ with
  | done =>
      cases h₂ with
      | done => exact ⟨rfl, rfl⟩
  | step hexec _ ih =>
      cases h₂ with
      | step hexec' hrest =>
          obtain ⟨rfl, rfl⟩ := Prod.mk.inj (Option.some.inj (hexec.symm.trans hexec'))
          exact ih hrest
      | fails hexec' => simp [hexec] at hexec'
  | fails hexec =>
      cases h₂ with
      | step hexec' _ => simp [hexec] at hexec'
      | fails _ => exact ⟨rfl, rfl⟩

/-- An invariant of the instructions. -/
theorem invariant {P : Disk → Prop} {d' : Disk} {completed : Bool}
    (hstep : ∀ i ∈ p, ∀ d d' more, P d → exec i d = some (d', more) → P d' ∧ more = [])
    (hd : P d) (h : Attempts exec p d d' completed) :
  P d'
  := by
  induction h with
  | done | fails _ => exact hd
  | step hexec _ ih =>
      obtain ⟨hd', rfl⟩ := hstep _ List.mem_cons_self _ _ _ hd hexec
      exact ih (fun i hi => hstep i (List.mem_cons_of_mem _ hi)) hd'

/-- An invariant of the instructions up to one that fails where it holds. -/
theorem of_blocked {P : Disk → Prop} {i : Instruction} {d' : Disk} {completed : Bool}
    (hstep : ∀ j ∈ p, ∀ d d' more, P d → exec j d = some (d', more) → P d' ∧ more = [])
    (hblocked : ∀ d, P d → exec i d = none) (hd : P d)
    (h : Attempts exec (p ++ i :: q) d d' completed) :
  P d' ∧ completed = false
  := by
  induction p generalizing d with
  | nil =>
      cases h with
      | step hexec _ => simp [hblocked d hd] at hexec
      | fails _ => exact ⟨hd, rfl⟩
  | cons j p ih =>
      cases h with
      | step hexec hrest =>
          obtain ⟨hd', rfl⟩ := hstep j List.mem_cons_self _ _ _ hd hexec
          exact ih (fun k hk => hstep k (List.mem_cons_of_mem j hk)) hd' hrest
      | fails _ => exact ⟨hd, rfl⟩

end Attempts

/-- Execute a program with at most a given number of instructions. -/
def run (exec : Instruction → Disk → Option (Disk × List Instruction)) :
    ℕ → List Instruction → Disk → Option Disk
  | _, [], d => some d
  | 0, _ :: _, _ => none
  | fuel + 1, i :: rest, d =>
      (exec i d).bind fun (d', more) => run exec fuel (more ++ rest) d'

theorem completes_of_run {fuel : ℕ} {d' : Disk} (h : run exec fuel p d = some d') :
  Completes exec p d d'
  := by
  induction fuel generalizing p d with
  | zero =>
      cases p with
      | nil =>
          obtain rfl := Option.some.inj h
          exact .done d
      | cons i p => contradiction
  | succ fuel ih =>
      cases p with
      | nil =>
          obtain rfl := Option.some.inj h
          exact .done d
      | cons i p =>
          obtain ⟨⟨d₁, more⟩, hexec, hrun⟩ := Option.bind_eq_some_iff.mp h
          exact .step hexec (ih hrun)

end Crash
