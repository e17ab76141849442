import Cynara.Library.Decoder

/-!
# Layouts of byte strings

A layout says how many bytes a value occupies, without saying what the value is: a fixed
number of bytes, a length followed by as many bytes, or a number of elements followed by the
elements.  A decoder follows a layout if it takes the bytes of the layout, and throws if there
are no such bytes.
-/

open Str

/-- A description of the bytes of a value. -/
inductive Layout where
  /-- a fixed number of bytes -/
  | skip (k : ℕ)
  /-- a length of so many bytes that does not exceed a limit, and as many bytes -/
  | sized (width limit : ℕ)
  /-- a number of so many bytes, and as many elements -/
  | repeated (width : ℕ) (element : Layout)
  | seq (first second : Layout)

namespace Layout

/-- What is left after the first bytes, if there are enough. -/
def dropFirst (k : ℕ) (bytes : Str) : Option Str :=
  if bytes.length < k then none else some (bytes.drop k)

/-- Repeat a step that may fail. -/
def iterate (step : Str → Option Str) : ℕ → Str → Option Str
  | 0, bytes => some bytes
  | n + 1, bytes => (step bytes).bind (iterate step n)

/-- What follows the bytes of the layout, if there are such bytes. -/
def rest : Layout → Str → Option Str
  | skip k, bytes => dropFirst k bytes
  | sized width limit, bytes =>
      (dropFirst width bytes).bind fun more =>
        if fromLittleEndian (bytes.take width) > limit then none
        else dropFirst (fromLittleEndian (bytes.take width)) more
  | repeated width element, bytes =>
      (dropFirst width bytes).bind
        (iterate (rest element) (fromLittleEndian (bytes.take width)))
  | seq first second, bytes => (rest first bytes).bind (rest second)

theorem length_le_of_dropFirst {k : ℕ} {bytes more : Str} (h : dropFirst k bytes = some more) :
  more.length ≤ bytes.length
  := by
  unfold dropFirst at h
  split at h
  · contradiction
  · obtain rfl := Option.some.inj h
    rw [List.length_drop]
    apply Nat.sub_le

theorem length_le_of_iterate {step : Str → Option Str}
    (hstep : ∀ bytes more, step bytes = some more → more.length ≤ bytes.length) {n : ℕ}
    {bytes more : Str} (h : iterate step n bytes = some more) :
  more.length ≤ bytes.length
  := by
  induction n generalizing bytes with
  | zero =>
      obtain rfl := Option.some.inj h
      apply Nat.le_refl
  | succ n ih =>
      obtain ⟨between, hfirst, hothers⟩ := Option.bind_eq_some_iff.mp h
      apply (ih hothers).trans (hstep bytes between hfirst)

/-- A layout takes bytes from the front. -/
theorem length_le_of_rest {layout : Layout} {bytes more : Str} (h : layout.rest bytes = some more) :
  more.length ≤ bytes.length
  := by
  induction layout generalizing bytes more with
  | skip k => apply length_le_of_dropFirst h
  | sized width limit =>
      obtain ⟨between, hfirst, hmore⟩ := Option.bind_eq_some_iff.mp h
      split at hmore
      · contradiction
      · apply (length_le_of_dropFirst hmore).trans (length_le_of_dropFirst hfirst)
  | repeated width element ih =>
      obtain ⟨between, hfirst, hmore⟩ := Option.bind_eq_some_iff.mp h
      apply (length_le_of_iterate (fun _ _ => ih) hmore).trans (length_le_of_dropFirst hfirst)
  | seq first second ihfirst ihsecond =>
      obtain ⟨between, hfirst, hmore⟩ := Option.bind_eq_some_iff.mp h
      apply (ihsecond hmore).trans (ihfirst hfirst)

end Layout

/-! ### Decoders that follow a layout -/

namespace Decoder

open Layout

variable {ε α β : Type} {d : Decoder ε α} {layout layout' : Layout}

/-- What a decoder leaves, if it does not throw. -/
def remaining (d : Decoder ε α) (bytes : Str) : Option Str :=
  match d.apply bytes with
  | (.ok _, rest) => some rest
  | (.error _, _) => none

/-- A decoder takes the bytes of a layout. -/
def Follows (d : Decoder ε α) (layout : Layout) : Prop :=
  ∀ bytes, d.remaining bytes = layout.rest bytes

theorem remaining_bind {f : α → Decoder ε β} {bytes : Str} {g : Str → Option Str}
    (hf : ∀ a more, d.apply bytes = (.ok a, more) → (f a).remaining more = g more) :
  (d >>= f).remaining bytes = (d.remaining bytes).bind g
  := by
  simp only [remaining, apply_bind] at hf ⊢
  cases h : d.apply bytes with
  | mk result more =>
      cases result with
      | ok a => exact hf a more h
      | error e => rfl

theorem Follows.bind {f : α → Decoder ε β} (hd : d.Follows layout)
    (hf : ∀ a, (f a).Follows layout') :
  (d >>= f).Follows (layout.seq layout')
  := by
  intro bytes
  rw [remaining_bind fun a more _ => hf a more, hd]
  rfl

theorem Follows.map (f : α → β) (hd : d.Follows layout) :
  (d >>= fun a => Pure.pure (f a)).Follows layout
  := by
  intro bytes
  rw [remaining_bind (g := some) fun a more _ => rfl, hd, Option.bind_fun_some]

theorem follows_pure (a : α) :
  (pure a : Decoder ε α).Follows (.skip 0)
  := fun _ => rfl

theorem follows_take (e : ε) (k : ℕ) :
  (take e k).Follows (.skip k)
  := by
  intro bytes
  rw [remaining, apply_take, rest, dropFirst]
  split_ifs
  · rfl
  · rfl

theorem remaining_times (hd : d.Follows layout) (n : ℕ) (bytes : Str) :
  (d.times n).remaining bytes = iterate layout.rest n bytes
  := by
  induction n generalizing bytes with
  | zero => rfl
  | succ n ih =>
      rw [times, remaining_bind (g := iterate layout.rest n), hd, iterate]
      intro a more _
      rw [remaining_bind (g := some) fun as more' _ => rfl, ih, Option.bind_fun_some]

end Decoder
