import Mathlib.Control.Monad.Basic
import Mathlib.Data.Nat.ModEq
import Cynara.Library.Strings

/-!
# Decoders of byte strings

A number is written as a fixed number of bytes, the lowest first.  A message is written piece
by piece, and each piece may be refused.  A decoder takes values from the front of a byte
string; if it throws, the bytes it has taken are gone.

A decoder `Inverts` an encoding if it takes exactly the bytes of the encoding, whatever
follows them, and returns the value that was encoded.
-/

namespace Str

/-! ### Numbers -/

/-- The lowest `k` bytes of a number, the lowest first. -/
def littleEndian : ℕ → ℕ → Str
  | 0, _ => []
  | k + 1, n => UInt8.ofNat n :: littleEndian k (n / 256)

/-- The number with the given bytes. -/
def fromLittleEndian : Str → ℕ
  | [] => 0
  | b :: bytes => b.toNat + 256 * fromLittleEndian bytes

@[simp]
theorem length_littleEndian (k n : ℕ) :
  (littleEndian k n).length = k
  := by
  induction k generalizing n with
  | zero => rfl
  | succ k ih => rw [littleEndian, List.length_cons, ih]

/-- The bytes that are not written are lost. -/
theorem fromLittleEndian_littleEndian (k n : ℕ) :
  fromLittleEndian (littleEndian k n) = n % 256 ^ k
  := by
  induction k generalizing n with
  | zero => rw [pow_zero, Nat.mod_one, littleEndian, fromLittleEndian]
  | succ k ih =>
      rw [littleEndian, fromLittleEndian, ih, UInt8.toNat_ofNat', pow_succ' 256 k, Nat.mod_mul]

theorem fromLittleEndian_lt (bytes : Str) :
  fromLittleEndian bytes < 256 ^ bytes.length
  := by
  induction bytes with
  | nil => exact Nat.one_pos
  | cons b bytes ih =>
      have hb : b.toNat < 256 := b.toNat_lt
      rw [fromLittleEndian, List.length_cons, pow_succ]
      omega

/-! ### Encodings -/

variable {ε : Type}

/-- Pieces that are written one after the other, until one of them is refused. -/
def concat (pieces : List (Except ε Str)) : Except ε Str :=
  pieces.foldr (fun piece rest => do return (← piece) ++ (← rest)) (.ok [])

theorem concat_cons_eq_ok {piece : Except ε Str} {pieces : List (Except ε Str)} {bytes : Str} :
  concat (piece :: pieces) = .ok bytes
    ↔ ∃ first rest, piece = .ok first ∧ concat pieces = .ok rest ∧ bytes = first ++ rest
  := by
  rw [concat, List.foldr_cons, ← concat]
  cases piece with
  | error e => simp [bind, Except.bind]
  | ok first =>
      cases concat pieces with
      | error e => simp [bind, Except.bind]
      | ok rest => simp [bind, Except.bind, pure, Except.pure, eq_comm]

@[simp]
theorem concat_nil :
  concat ([] : List (Except ε Str)) = pure []
  := rfl

theorem concat_cons (piece : Except ε Str) (pieces : List (Except ε Str)) :
  concat (piece :: pieces) = do return (← piece) ++ (← concat pieces)
  := rfl

/-- Pieces that are written together come before those that follow. -/
theorem concat_concat_cons (pieces pieces' : List (Except ε Str)) :
  concat (concat pieces :: pieces') = concat (pieces ++ pieces')
  := by
  induction pieces with
  | nil => simp [concat_cons]
  | cons piece pieces ih =>
      rw [List.cons_append, concat_cons piece (pieces ++ pieces'), ← ih]
      simp only [concat_cons, bind_assoc, pure_bind, List.append_assoc]

/-- Values that are each written in pieces. -/
theorem concat_map_concat {α : Type} (encode : α → List (Except ε Str)) (as : List α) :
  concat (as.map fun a => concat (encode a)) = concat (as.flatMap encode)
  := by
  induction as with
  | nil => rfl
  | cons a as ih =>
      rw [List.map_cons, List.flatMap_cons, ← concat_concat_cons (encode a), concat_cons, ih,
        concat_cons]

/-- Bytes that are written one by one. -/
theorem concat_map_singleton (bytes : Str) :
  concat (bytes.map fun b => (.ok [b] : Except ε Str)) = .ok bytes
  := by
  induction bytes with
  | nil => rfl
  | cons b bytes ih =>
      rw [List.map_cons, concat_cons, ih]
      rfl

end Str

/-! ### Decoders -/

/-- A decoder takes a value from the front of a byte string, or throws. -/
abbrev Decoder (ε α : Type) := ExceptT ε (StateM Str) α

namespace Decoder

variable {ε α β : Type}

/-- What a decoder does to a byte string. -/
def apply (d : Decoder ε α) (bytes : Str) : Except ε α × Str := (d.run).run bytes

/-- Take a number of bytes, or throw if there are not enough. -/
def take (e : ε) (k : ℕ) : Decoder ε Str := do
  let bytes ← get
  if bytes.length < k then throw e
  set (bytes.drop k)
  return bytes.take k

/-- Take a number of values. -/
def times (d : Decoder ε α) : ℕ → Decoder ε (List α)
  | 0 => return []
  | n + 1 => do return (← d) :: (← times d n)

/-- A decoder takes the given bytes, whatever follows them, and returns a value. -/
def Reads (d : Decoder ε α) (bytes : Str) (a : α) : Prop :=
  ∀ rest, d.apply (bytes ++ rest) = (.ok a, rest)

/-- A decoder takes what an encoding has written, and returns a value. -/
def Inverts (d : Decoder ε α) (encoding : Except ε Str) (a : α) : Prop :=
  ∀ bytes, encoding = .ok bytes → d.Reads bytes a

@[simp]
theorem apply_pure (a : α) (bytes : Str) :
  (pure a : Decoder ε α).apply bytes = (.ok a, bytes)
  := rfl

theorem apply_bind (d : Decoder ε α) (f : α → Decoder ε β) (bytes : Str) :
  (d >>= f).apply bytes = match d.apply bytes with
    | (.ok a, rest) => (f a).apply rest
    | (.error e, rest) => (.error e, rest)
  := by
  simp only [apply, ExceptT.run_bind, StateT.run_bind]
  cases (d.run).run bytes with
  | mk result rest =>
      cases result with
      | ok a => rfl
      | error e => rfl

/-- A value is returned by two decoders in a row. -/
theorem apply_bind_eq_ok {d : Decoder ε α} {f : α → Decoder ε β} {bytes rest : Str} {b : β} :
  (d >>= f).apply bytes = (.ok b, rest)
    ↔ ∃ a between, d.apply bytes = (.ok a, between) ∧ (f a).apply between = (.ok b, rest)
  := by
  rw [apply_bind]
  cases d.apply bytes with
  | mk result between =>
      cases result with
      | ok a => simp
      | error e => simp

theorem apply_take (e : ε) (k : ℕ) (bytes : Str) :
  (take e k).apply bytes
    = if bytes.length < k then (.error e, bytes) else (.ok (bytes.take k), bytes.drop k)
  := by
  simp only [take]
  rw [apply_bind]
  change (if bytes.length < k then throw e else _ : Decoder ε Str).apply bytes = _
  split
  · rfl
  · rfl

theorem Reads.bind {d : Decoder ε α} {f : α → Decoder ε β} {bytes bytes' : Str} {a : α} {b : β}
    (hd : d.Reads bytes a) (hf : (f a).Reads bytes' b) :
  (d >>= f).Reads (bytes ++ bytes') b
  := by
  intro rest
  rw [List.append_assoc, apply_bind, hd]
  apply hf

theorem reads_take (e : ε) (bytes : Str) :
  (take e bytes.length).Reads bytes bytes
  := by
  intro rest
  rw [apply_take, if_neg (by simp), List.take_left, List.drop_left]

/-! ### Decoders that invert encodings -/

theorem Inverts.pure (a : α) :
  (pure a : Decoder ε α).Inverts (Str.concat []) a
  := by
  intro bytes hbytes rest
  obtain rfl := Except.ok.inj hbytes
  rfl

/-- A function is applied to the decoded value. -/
theorem Inverts.map {d : Decoder ε α} {encoding : Except ε Str} {a : α} (f : α → β)
    (hd : d.Inverts encoding a) :
  (d >>= fun a => Pure.pure (f a)).Inverts encoding (f a)
  := by
  intro bytes hbytes rest
  rw [apply_bind, hd bytes hbytes]
  rfl

/-- A decoder for the first piece is followed by one for the other pieces. -/
theorem Inverts.bind {d : Decoder ε α} {f : α → Decoder ε β} {piece : Except ε Str}
    {pieces : List (Except ε Str)} {a : α} {b : β}
    (hd : d.Inverts piece a) (hf : (f a).Inverts (Str.concat pieces) b) :
  (d >>= f).Inverts (Str.concat (piece :: pieces)) b
  := by
  intro bytes hbytes
  obtain ⟨first, rest, hfirst, hrest, rfl⟩ := Str.concat_cons_eq_ok.mp hbytes
  apply Reads.bind (hd first hfirst) (hf rest hrest)

/-- A decoder for the first pieces is followed by one for the other pieces. -/
theorem Inverts.append {d : Decoder ε α} {f : α → Decoder ε β}
    {pieces pieces' : List (Except ε Str)} {a : α} {b : β} (hd : d.Inverts (Str.concat pieces) a)
    (hf : (f a).Inverts (Str.concat pieces') b) :
  (d >>= f).Inverts (Str.concat (pieces ++ pieces')) b
  := by
  rw [← Str.concat_concat_cons]
  apply Inverts.bind hd hf

/-- As many values are taken as were written. -/
theorem inverts_times {d : Decoder ε α} {encode : α → Except ε Str} (as : List α)
    (h : ∀ a ∈ as, d.Inverts (encode a) a) :
  (d.times as.length).Inverts (Str.concat (as.map encode)) as
  := by
  induction as with
  | nil => apply Inverts.pure
  | cons a as ih =>
      intro bytes hbytes
      obtain ⟨first, rest, hfirst, hrest, rfl⟩ := Str.concat_cons_eq_ok.mp hbytes
      apply Reads.bind (h a List.mem_cons_self first hfirst)
      rw [← List.append_nil rest]
      apply Reads.bind (ih (fun b hb => h b (List.mem_cons_of_mem _ hb)) rest hrest)
      intro more
      rfl

/-! ### What decoders return -/

/-- Whatever a decoder returns has a property. -/
def Returns (d : Decoder ε α) (P : α → Prop) : Prop :=
  ∀ bytes a rest, d.apply bytes = (.ok a, rest) → P a

theorem Returns.pure {P : α → Prop} {a : α} (h : P a) :
  (pure a : Decoder ε α).Returns P
  := by
  rintro bytes _ rest ⟨⟩
  exact h

theorem Returns.throw (e : ε) {P : α → Prop} :
  (throw e : Decoder ε α).Returns P
  := by
  rintro bytes a rest ⟨⟩

theorem Returns.bind {d : Decoder ε α} {f : α → Decoder ε β} {P : α → Prop} {Q : β → Prop}
    (hd : d.Returns P) (hf : ∀ a, P a → (f a).Returns Q) :
  (d >>= f).Returns Q
  := by
  intro bytes b rest h
  obtain ⟨a, between, hfirst, hrest⟩ := apply_bind_eq_ok.mp h
  exact hf a (hd bytes a between hfirst) between b rest hrest

theorem returns_true (d : Decoder ε α) :
  d.Returns fun _ => True
  := fun _ _ _ _ => trivial

theorem Returns.seq {d : Decoder ε α} {f : α → Decoder ε β} {Q : β → Prop}
    (hf : ∀ a, (f a).Returns Q) :
  (d >>= f).Returns Q
  := Returns.bind (returns_true d) fun a _ => hf a

theorem Returns.times {d : Decoder ε α} {P : α → Prop} (hd : d.Returns P) (n : ℕ) :
  (d.times n).Returns fun as => ∀ a ∈ as, P a
  := by
  induction n with
  | zero =>
      apply Returns.pure
      simp
  | succ n ih =>
      refine Returns.bind hd fun a ha => Returns.bind ih fun as has => ?_
      apply Returns.pure
      exact List.forall_mem_cons.mpr ⟨ha, has⟩

theorem Returns.and {d : Decoder ε α} {P Q : α → Prop} (hP : d.Returns P) (hQ : d.Returns Q) :
  d.Returns fun a => P a ∧ Q a
  := fun bytes a rest h => ⟨hP bytes a rest h, hQ bytes a rest h⟩

/-- A list of values has the length that was asked for. -/
theorem returns_times (d : Decoder ε α) (n : ℕ) :
  (d.times n).Returns fun as => as.length = n
  := by
  induction n with
  | zero =>
      apply Returns.pure
      rfl
  | succ n ih =>
      refine Returns.seq fun a => Returns.bind ih fun as has => ?_
      apply Returns.pure
      rw [List.length_cons, has]

end Decoder
