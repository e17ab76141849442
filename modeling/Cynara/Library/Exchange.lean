import Mathlib.Data.Nat.Notation
import Mathlib.Logic.Relation

/-!
# Exchanges over two queues

One party asks a question and may cancel it.  The other party answers the question at once,
discards it, or holds it.  A question that is held is answered later, or dropped; when it is
cancelled, the cancellation is acknowledged, and the question is still held for some time, but
it is not answered any more.  After an answer or an acknowledgement the first party may ask
again, while cancellations of the last question may still be under way, and while it may still
be held.

Questions and cancellations are carried by one queue, answers and acknowledgements by another.
The first party may give up both queues and start again with new ones, which the other party does
not hold any question for.
The invariant `Valid` says that a reply on its way is for the question that has been asked last,
and that it is an acknowledgement only if this question has been cancelled.
-/

namespace Exchange

/-- What one side may ask. -/
inductive Ask where
  | request
  | cancel
deriving DecidableEq

/-- What the other side may reply. -/
inductive Reply where
  | answer
  | cancelled
deriving DecidableEq

/-- A question that waits for a reply, or one that is held, comes with whether it has been
cancelled. -/
structure State where
  asked : Option Bool
  forward : List Ask
  held : Option Bool
  back : List Reply

/-- What the two parties do.  When the first one gives up the queues, it may ask again over new
ones. -/
inductive Step : State → State → Prop
  | ask {s : State} : s.asked = none →
      Step s { s with asked := some false, forward := s.forward ++ [.request] }
  | cancel {s : State} : s.asked = some false →
      Step s { s with asked := some true, forward := s.forward ++ [.cancel] }
  | receive {s : State} {reply : Reply} {back : List Reply} : s.back = reply :: back →
      Step s { s with asked := none, back := back }
  | answer {s : State} {forward : List Ask} : s.forward = .request :: forward →
      Step s { s with forward := forward, back := s.back ++ [.answer] }
  | discard {s : State} {forward : List Ask} : s.forward = .request :: forward →
      Step s { s with forward := forward }
  | hold {s : State} {forward : List Ask} : s.forward = .request :: forward → s.held = none →
      Step s { s with forward := forward, held := some false }
  | acknowledge {s : State} {forward : List Ask} : s.forward = .cancel :: forward →
      s.held = some false →
      Step s { s with forward := forward, held := some true, back := s.back ++ [.cancelled] }
  | ignore {s : State} {forward : List Ask} : s.forward = .cancel :: forward →
      s.held ≠ some false → Step s { s with forward := forward }
  | settle {s : State} : s.held = some false →
      Step s { s with held := none, back := s.back ++ [.answer] }
  | drop {s : State} : Step s { s with held := none }
  | abandon {s : State} : Step s { s with held := some true }
  /-- what has come back is still there, but nothing is under way any more -/
  | cut {s : State} : Step s { s with forward := [], held := none }
  | reset {s : State} : Step s ⟨none, [], none, []⟩
  | renew {s : State} : Step s ⟨some false, [.request], none, []⟩

/-- Several steps, one after the other. -/
abbrev Steps := Relation.ReflTransGen Step

/-- The cancellation of a question that has been cancelled. -/
def cancellation (cancelled : Bool) : List Ask := if cancelled then [.cancel] else []

/-- What can be under way for the question, and where it is held if it is. -/
inductive Valid : State → Prop
  | free (late : Bool) {held : Option Bool} : held ≠ some false →
      Valid ⟨none, cancellation late, held, []⟩
  /-- the question is under way, maybe after a cancellation of the one before it -/
  | asked (late cancelled : Bool) {held : Option Bool} : held ≠ some false →
      Valid ⟨some cancelled, cancellation late ++ .request :: cancellation cancelled, held, []⟩
  | held (cancelled : Bool) :
      Valid ⟨some cancelled, cancellation cancelled, some false, []⟩
  /-- the question has been answered or dropped -/
  | passed (late cancelled : Bool) {held : Option Bool} {back : List Reply} :
      held ≠ some false → (late → cancelled) → back = [] ∨ back = [.answer] →
      Valid ⟨some cancelled, cancellation late, held, back⟩
  | acknowledged {held : Option Bool} : held ≠ some false →
      Valid ⟨some true, [], held, [.cancelled]⟩

variable {s s' : State} {asked : Option Bool} {forward : List Ask} {held : Option Bool}
  {back : List Reply}

/-- Nothing is on its way back while the question is held. -/
theorem Valid.of_held (h : Valid ⟨asked, forward, some false, back⟩) :
  ∃ cancelled, asked = some cancelled ∧ forward = cancellation cancelled ∧ back = []
  := by
  generalize hs : (⟨asked, forward, some false, back⟩ : State) = s at h
  cases h with
  | free late hheld => simp_all
  | asked late cancelled hheld => simp_all
  | held cancelled =>
      cases hs
      exact ⟨cancelled, rfl, rfl, rfl⟩
  | passed late cancelled hheld hlate hback => simp_all
  | acknowledged hheld => simp_all

/-- The question is neither held nor answered while it is under way. -/
theorem Valid.of_request (h : Valid ⟨asked, .request :: forward, held, back⟩) :
  ∃ cancelled, asked = some cancelled ∧ forward = cancellation cancelled ∧
    held ≠ some false ∧ back = []
  := by
  generalize hs : (⟨asked, .request :: forward, held, back⟩ : State) = s at h
  have hcancellation : ∀ late : Bool, cancellation late ≠ .request :: forward := by
    intro late
    cases late with
    | false => simp [cancellation]
    | true => simp [cancellation]
  cases h with
  | free late hheld =>
      simp only [State.mk.injEq] at hs
      exact absurd hs.2.1.symm (hcancellation late)
  | asked late cancelled hheld =>
      cases late with
      | false =>
          cases hs
          exact ⟨cancelled, rfl, rfl, hheld, rfl⟩
      | true => simp [cancellation] at hs
  | held cancelled =>
      simp only [State.mk.injEq] at hs
      exact absurd hs.2.1.symm (hcancellation cancelled)
  | passed late cancelled hheld hlate hback =>
      simp only [State.mk.injEq] at hs
      exact absurd hs.2.1.symm (hcancellation late)
  | acknowledged hheld => simp at hs

/-- A reply on its way is for a question that has been asked, and no other reply follows it. -/
theorem Valid.of_reply {reply : Reply} (h : Valid ⟨asked, forward, held, reply :: back⟩) :
  ∃ late cancelled, asked = some cancelled ∧ forward = cancellation late ∧ held ≠ some false ∧
    back = [] ∧ (reply = .cancelled → cancelled = true)
  := by
  generalize hs : (⟨asked, forward, held, reply :: back⟩ : State) = s at h
  cases h with
  | free late hheld => simp at hs
  | asked late cancelled hheld => simp at hs
  | held cancelled => simp at hs
  | passed late cancelled hheld hlate hback =>
      simp only [State.mk.injEq] at hs
      obtain ⟨rfl, rfl, rfl, rfl⟩ := hs
      refine ⟨late, cancelled, rfl, rfl, hheld, ?_⟩
      simp_all
  | acknowledged hheld =>
      simp only [State.mk.injEq, List.cons.injEq] at hs
      obtain ⟨rfl, rfl, rfl, rfl, rfl⟩ := hs
      exact ⟨false, true, rfl, rfl, hheld, rfl, fun _ => rfl⟩

theorem Valid.ask (h : Valid ⟨none, forward, held, back⟩) :
  Valid ⟨some false, forward ++ [.request], held, back⟩
  := by
  cases h with
  | free late hheld => exact .asked late false hheld

theorem Valid.cancel (h : Valid ⟨some false, forward, held, back⟩) :
  Valid ⟨some true, forward ++ [.cancel], held, back⟩
  := by
  generalize hs : (⟨some false, forward, held, back⟩ : State) = s at h
  cases h with
  | free late hheld => cases hs
  | asked late cancelled hheld =>
      cases hs
      rw [List.append_assoc]
      exact .asked late true hheld
  | held cancelled =>
      cases hs
      exact .held true
  | passed late cancelled hheld hlate hback =>
      cases hs
      cases late with
      | true => cases hlate rfl
      | false => exact .passed true true hheld id hback
  | acknowledged hheld => cases hs

theorem Valid.receive {reply : Reply} (h : Valid ⟨asked, forward, held, reply :: back⟩) :
  Valid ⟨none, forward, held, back⟩
  := by
  obtain ⟨late, cancelled, rfl, rfl, hheld, rfl, -⟩ := h.of_reply
  exact .free late hheld

/-- What happens to a question that is not held and that is not under way any more. -/
theorem Valid.pass (h : Valid ⟨asked, .request :: forward, held, back⟩) :
  Valid ⟨asked, forward, held, back⟩ ∧ Valid ⟨asked, forward, held, back ++ [.answer]⟩
  := by
  obtain ⟨cancelled, rfl, rfl, hheld, rfl⟩ := h.of_request
  exact ⟨.passed cancelled cancelled hheld id (Or.inl rfl),
    .passed cancelled cancelled hheld id (Or.inr rfl)⟩

theorem Valid.hold (h : Valid ⟨asked, .request :: forward, none, back⟩) :
  Valid ⟨asked, forward, some false, back⟩
  := by
  obtain ⟨cancelled, rfl, rfl, -, rfl⟩ := h.of_request
  exact .held cancelled

theorem Valid.acknowledge (h : Valid ⟨asked, .cancel :: forward, some false, back⟩) :
  Valid ⟨asked, forward, some true, back ++ [.cancelled]⟩
  := by
  obtain ⟨cancelled, rfl, hforward, rfl⟩ := h.of_held
  cases cancelled with
  | false => cases hforward
  | true =>
      cases hforward
      exact .acknowledged (by simp)

theorem Valid.ignore (h : Valid ⟨asked, .cancel :: forward, held, back⟩)
    (hheld : held ≠ some false) :
  Valid ⟨asked, forward, held, back⟩
  := by
  generalize hs : (⟨asked, .cancel :: forward, held, back⟩ : State) = s at h
  cases h with
  | free late _ =>
      cases late with
      | false => cases hs
      | true =>
          cases hs
          exact .free false hheld
  | asked late cancelled _ =>
      cases late with
      | false => cases hs
      | true =>
          cases hs
          exact .asked false cancelled hheld
  | held cancelled =>
      simp only [State.mk.injEq] at hs
      exact absurd hs.2.2.1 hheld
  | passed late cancelled _ _ hback =>
      cases late with
      | false => cases hs
      | true =>
          cases hs
          exact .passed false cancelled hheld nofun hback
  | acknowledged _ => cases hs

/-- What happens to a question that is not held any more, or not to be answered any more. -/
theorem Valid.release {held' : Option Bool} (h : Valid ⟨asked, forward, held, back⟩)
    (hheld' : held' ≠ some false) :
  Valid ⟨asked, forward, held', back⟩
  := by
  generalize hs : (⟨asked, forward, held, back⟩ : State) = s at h
  cases h with
  | free late _ =>
      cases hs
      exact .free late hheld'
  | asked late cancelled _ =>
      cases hs
      exact .asked late cancelled hheld'
  | held cancelled =>
      cases hs
      exact .passed cancelled cancelled hheld' id (Or.inl rfl)
  | passed late cancelled _ hlate hback =>
      cases hs
      exact .passed late cancelled hheld' hlate hback
  | acknowledged _ =>
      cases hs
      exact .acknowledged hheld'

theorem Valid.settle (h : Valid ⟨asked, forward, some false, back⟩) :
  Valid ⟨asked, forward, none, back ++ [.answer]⟩
  := by
  obtain ⟨cancelled, rfl, rfl, rfl⟩ := h.of_held
  exact .passed cancelled cancelled (by simp) id (Or.inr rfl)

theorem Valid.cut (h : Valid ⟨asked, forward, held, back⟩) :
  Valid ⟨asked, [], none, back⟩
  := by
  generalize hs : (⟨asked, forward, held, back⟩ : State) = s at h
  cases h with
  | free late _ =>
      cases hs
      exact .free false (by simp)
  | asked late cancelled _ =>
      cases hs
      exact .passed false cancelled (by simp) nofun (Or.inl rfl)
  | held cancelled =>
      cases hs
      exact .passed false cancelled (by simp) nofun (Or.inl rfl)
  | passed late cancelled _ _ hback =>
      cases hs
      exact .passed false cancelled (by simp) nofun hback
  | acknowledged _ =>
      cases hs
      exact .acknowledged (by simp)

theorem Valid.step (h : Valid s) (hstep : Step s s') :
  Valid s'
  := by
  obtain ⟨asked, forward, held, back⟩ := s
  cases hstep with
  | ask hasked =>
      cases hasked
      exact h.ask
  | cancel hasked =>
      cases hasked
      exact h.cancel
  | receive hback =>
      cases hback
      exact h.receive
  | answer hforward =>
      cases hforward
      exact h.pass.2
  | discard hforward =>
      cases hforward
      exact h.pass.1
  | hold hforward hheld =>
      cases hforward
      cases hheld
      exact h.hold
  | acknowledge hforward hheld =>
      cases hforward
      cases hheld
      exact h.acknowledge
  | ignore hforward hheld =>
      cases hforward
      exact h.ignore hheld
  | settle hheld =>
      cases hheld
      exact h.settle
  | drop => exact h.release (by simp)
  | abandon => exact h.release (by simp)
  | cut => exact h.cut
  | reset => exact .free false (by simp)
  | renew => exact .asked false false (by simp)

theorem Valid.steps (h : Valid s) (hsteps : Steps s s') :
  Valid s'
  := by
  induction hsteps with
  | refl => exact h
  | tail _ hstep ih => exact ih.step hstep

end Exchange
