import Cynara.Library.Layout
import Cynara.Protocol.Messages

/-!
# Lengths of frames

The header of a frame gives its length.  The receiver waits until there are enough bytes for
that length, but then it decodes the body with whatever is in the queue, and does not compare
the bytes it has taken with the length.  Also a length that is smaller than the header is not
refused: the length of the body is computed with unsigned numbers, and the receiver waits for
a body that is too long to ever arrive.

What the body of a request occupies is described by layouts, which do not refer to the
decoders.  The lengths are respected as long as the frames of the stream give the lengths that
their bodies occupy.
-/

namespace Cynara

open Str Decoder Layout ProtocolDeserialization ProtocolFrameHeader ProtocolFrameSerializer

/-! ### Layouts of fields -/

theorem follows_nat (k : ℕ) :
  (deserializeNat k).Follows (.skip k)
  := by
  apply Follows.map
  apply follows_take

theorem follows_uint8 :
  deserializeUInt8.Follows (.skip 1)
  := by
  apply Follows.map
  apply follows_nat

theorem follows_uint16 :
  deserializeUInt16.Follows (.skip 2)
  := by
  apply Follows.map
  apply follows_nat

theorem follows_int64 :
  deserializeInt64.Follows (.skip 8)
  := by
  apply Follows.map
  apply Follows.map
  apply follows_nat

theorem follows_bool :
  deserializeBool.Follows (.skip 1)
  := by
  apply Follows.map
  apply follows_uint8

/-- The number that is read. -/
theorem eq_of_apply_deserializeNat {k n : ℕ} {bytes more : Str}
    (h : (deserializeNat k).apply bytes = (.ok n, more)) :
  n = fromLittleEndian (bytes.take k) ∧ n < 256 ^ k
  := by
  obtain ⟨taken, between, htake, hpure⟩ := apply_bind_eq_ok.mp h
  rw [apply_take] at htake
  split at htake
  · simp at htake
  · rename_i hlength
    simp only [Prod.mk.injEq, Except.ok.injEq] at htake
    simp only [apply_pure, Prod.mk.injEq, Except.ok.injEq] at hpure
    obtain ⟨rfl, -⟩ := htake
    obtain ⟨rfl, -⟩ := hpure
    refine ⟨rfl, ?_⟩
    have hbound := fromLittleEndian_lt (bytes.take k)
    rwa [List.length_take, min_eq_left (not_lt.mp hlength)] at hbound

theorem follows_string :
  deserializeString.Follows (.sized 4 maxIdLength)
  := by
  intro bytes
  rw [deserializeString, remaining_bind (g := fun more =>
      if fromLittleEndian (bytes.take 4) > maxIdLength then none
      else dropFirst (fromLittleEndian (bytes.take 4)) more), follows_nat]
  · rfl
  · intro length more hlength
    rw [← (eq_of_apply_deserializeNat hlength).1]
    split
    · rfl
    · apply follows_take

/-- Elements are read after their number. -/
theorem Follows.repeated {α β : Type} {d : Decoder ProtocolException α} {element layout : Layout}
    {f : List α → Decoder ProtocolException β} (hd : d.Follows element)
    (hf : ∀ as, (f as).Follows layout) :
  (do let count ← deserializeUInt16; let as ← d.times count.toNat; f as).Follows
    ((Layout.repeated 2 element).seq layout)
  := by
  intro bytes
  rw [remaining_bind (g := fun more =>
      (iterate element.rest (fromLittleEndian (bytes.take 2)) more).bind layout.rest),
    follows_uint16]
  · simp only [rest, Option.bind_assoc]
  · intro count more hcount
    have hcount : count.toNat = fromLittleEndian (bytes.take 2) := by
      obtain ⟨n, between, hn, hpure⟩ := apply_bind_eq_ok.mp hcount
      obtain ⟨hvalue, hbound⟩ := eq_of_apply_deserializeNat hn
      simp only [apply_pure, Prod.mk.injEq, Except.ok.injEq] at hpure
      have hsmall : n < 2 ^ 16 := lt_of_lt_of_eq hbound (by norm_num)
      rw [← hpure.1, UInt16.toNat_ofNat', Nat.mod_eq_of_lt hsmall, hvalue]
    rw [hcount, remaining_bind fun as more' _ => hf as more', remaining_times hd]

/-! ### Layouts of requests -/

/-- The bytes of a text: its length comes first. -/
def stringLayout : Layout := .sized 4 maxIdLength

/-- The bytes of a key: three texts. -/
def keyLayout : Layout := stringLayout.seq (stringLayout.seq stringLayout)

theorem follows_key :
  ProtocolClient.deserializeKey.Follows keyLayout
  := by
  apply Follows.bind follows_string
  intro clientId
  apply Follows.bind follows_string
  intro userId
  apply Follows.map _ follows_string

/-- What follows a body whose first byte tells the layout of the others. -/
def bodyRest (layout : UInt8 → Option Layout) : Str → Option Str
  | [] => none
  | opCode :: bytes => (layout opCode).bind fun layout => layout.rest bytes

theorem length_le_of_bodyRest {layout : UInt8 → Option Layout} {bytes more : Str}
    (h : bodyRest layout bytes = some more) :
  more.length ≤ bytes.length
  := by
  cases bytes with
  | nil => contradiction
  | cons opCode bytes =>
      obtain ⟨layout, -, hrest⟩ := Option.bind_eq_some_iff.mp h
      apply (length_le_of_rest hrest).trans (Nat.le_succ _)

/-- A decoder that switches on the first byte. -/
theorem remaining_switch {α : Type} {f : UInt8 → Decoder ProtocolException α}
    {layout : UInt8 → Option Layout}
    (hf : ∀ opCode bytes, (f opCode).remaining bytes
      = (layout opCode).bind fun layout => layout.rest bytes) (bytes : Str) :
  (deserializeUInt8 >>= f).remaining bytes = bodyRest layout bytes
  := by
  cases bytes with
  | nil => rfl
  | cons opCode bytes =>
      have hread : deserializeUInt8.apply (opCode :: bytes) = (.ok opCode, bytes) :=
        inverts_uint8 opCode _ rfl bytes
      rw [remaining, apply_bind, hread]
      apply hf

/-- The layout of the bodies of the messages of a codec. -/
structure BodyLayout (c : Codec) where
  layout : UInt8 → Option Layout
  follows : ∀ sequenceNumber bytes,
    (c.deserialize sequenceNumber).remaining bytes = bodyRest layout bytes

/-- The number of bytes of a body. -/
def BodyLayout.occupied {c : Codec} (b : BodyLayout c) (bytes : Str) : Option ℕ :=
  (bodyRest b.layout bytes).map fun more => bytes.length - more.length

namespace ProtocolClient

/-- The bytes of an entry: a key and three numbers. -/
def entryLayout : Layout := keyLayout.seq ((Layout.skip 8).seq ((Layout.skip 8).seq (.skip 8)))

theorem follows_entry :
  deserializeEntry.Follows entryLayout
  := by
  apply Follows.bind follows_key
  intro key
  apply Follows.bind follows_int64
  intro result
  apply Follows.bind follows_int64
  intro tv_sec
  apply Follows.map _ follows_int64

/-- What follows the first byte of a request. -/
def requestLayout (opCode : UInt8) : Option Layout :=
  if opCode = OpCheckPolicyRequest then some keyLayout
  else if opCode = OpCancelRequest then some (.skip 0)
  else if opCode = OpSimpleCheckPolicyRequest then some keyLayout
  else if opCode = OpMonitorEntriesPutRequest then
    some ((Layout.repeated 2 entryLayout).seq (.skip 0))
  else if opCode = OpMonitorEntryPutRequest then some entryLayout
  else none

/-- Where the requests of clients end. -/
def bodyLayout : BodyLayout requests where
  layout := requestLayout
  follows sequenceNumber := by
    apply remaining_switch
    intro opCode bytes
    unfold requestLayout
    split_ifs
    · apply Follows.map _ follows_key
    · apply follows_pure
    · apply Follows.map _ follows_key
    · apply Follows.repeated follows_entry
      intro entries
      apply follows_pure
    · apply Follows.map _ follows_entry
    · rfl

end ProtocolClient

namespace ProtocolAdmin

open ProtocolClient (deserializeKey)

/-- The bytes of a policy: a key, its type and its metadata. -/
def policyLayout : Layout :=
  stringLayout.seq (stringLayout.seq (stringLayout.seq ((Layout.skip 2).seq stringLayout)))

theorem follows_policy :
  deserializePolicy.Follows policyLayout
  := by
  apply Follows.bind follows_string
  intro client
  apply Follows.bind follows_string
  intro user
  apply Follows.bind follows_string
  intro privilege
  apply Follows.bind follows_uint16
  intro policyType
  apply Follows.map _ follows_string

/-- The bytes of groups: for each the name of its bucket, a number and as many elements. -/
def groupsLayout (element : Layout) : Layout :=
  (Layout.repeated 2 (stringLayout.seq ((Layout.repeated 2 element).seq (.skip 0)))).seq (.skip 0)

theorem follows_groups {α : Type} {d : Decoder ProtocolException α} {element : Layout}
    (hd : d.Follows element) :
  (deserializeGroups d).Follows (groupsLayout element)
  := by
  have hgroup : (deserializeGroup d).Follows
      (stringLayout.seq ((Layout.repeated 2 element).seq (.skip 0))) := by
    apply Follows.bind follows_string
    intro id
    apply Follows.repeated hd
    intro elements
    apply follows_pure
  apply Follows.repeated hgroup
  intro groups
  apply follows_pure

/-- What follows the first byte of a request. -/
def requestLayout (opCode : UInt8) : Option Layout :=
  if opCode = OpAdminCheckRequest then some (keyLayout.seq (stringLayout.seq (.skip 1)))
  else if opCode = OpDescriptionListRequest then some (.skip 0)
  else if opCode = OpEraseRequest then some (stringLayout.seq ((Layout.skip 1).seq keyLayout))
  else if opCode = OpInsertOrUpdateBucket then
    some (stringLayout.seq ((Layout.skip 2).seq stringLayout))
  else if opCode = OpListRequest then some (stringLayout.seq keyLayout)
  else if opCode = OpRemoveBucket then some stringLayout
  else if opCode = OpSetPolicies then
    some ((groupsLayout policyLayout).seq (groupsLayout keyLayout))
  else none

/-- Where the requests of administrators end. -/
def bodyLayout : BodyLayout requests where
  layout := requestLayout
  follows sequenceNumber := by
    apply remaining_switch
    intro opCode bytes
    unfold requestLayout
    split_ifs
    · apply Follows.bind follows_key
      intro key
      apply Follows.bind follows_string
      intro startBucket
      apply Follows.map _ follows_bool
    · apply follows_pure
    · apply Follows.bind follows_string
      intro startBucket
      apply Follows.bind follows_bool
      intro recursive
      apply Follows.map _ follows_key
    · apply Follows.bind follows_string
      intro policyBucketId
      apply Follows.bind follows_uint16
      intro policyType
      apply Follows.map _ follows_string
    · apply Follows.bind follows_string
      intro bucketId
      apply Follows.map _ follows_key
    · apply Follows.map _ follows_string
    · apply Follows.bind (follows_groups follows_policy)
      intro inserted
      apply Follows.map _ (follows_groups follows_key)
    · rfl

end ProtocolAdmin

/-! ### Streams of frames -/

namespace Receiver

variable {α : Type}

/-- The states of a receiver that gets a stream in fragments and tries to extract messages,
until an exception is thrown.  The number counts the bytes that have been taken from the
current frame. -/
inductive Run (decode : UInt16 → Decoder ProtocolException α) : ℕ → Receiver → Prop where
  | start : Run decode 0 {}
  | receive {taken : ℕ} {r : Receiver} (bytes : Str) : Run decode taken r →
      Run decode taken (r.append bytes)
  | wait {taken : ℕ} {r r' : Receiver} : Run decode taken r → r.extract decode = (.ok none, r') →
      Run decode (taken + (r.queue.length - r'.queue.length)) r'
  | message {taken : ℕ} {r r' : Receiver} {a : α} : Run decode taken r →
      r.extract decode = (.ok (some a), r') → Run decode 0 r'

/-- Between two calls, the header of the current frame has been taken or no byte of it. -/
theorem Run.taken_eq {decode : UInt16 → Decoder ProtocolException α} {taken : ℕ} {r : Receiver}
    (h : Run decode taken r) :
  r.header.bodyComplete = false
    ∧ taken = if r.header.headerComplete then frameHeaderLength else 0
  := by
  induction h with
  | start => exact ⟨rfl, rfl⟩
  | receive bytes _ ih => exact ih
  | @wait taken r r' _ hextract ih =>
      obtain ⟨hbody, htaken⟩ := ih
      have hstep := extraction decode hbody
      rw [hextract] at hstep
      cases hstep with
      | short _ hheader =>
          rw [Nat.sub_self, Nat.add_zero]
          exact ⟨hbody, htaken⟩
      | waiting hdeclares _ =>
          refine ⟨hdeclares.bodyComplete, ?_⟩
          rw [if_pos hdeclares.headerComplete, ← hdeclares.length, htaken, Nat.add_sub_cancel]
          split
          · rfl
          · apply Nat.zero_add
  | @message taken r r' a _ hextract ih =>
      have hstep := extraction decode ih.1
      rw [hextract] at hstep
      cases hstep with
      | decoded _ _ _ => exact ⟨rfl, rfl⟩

end Receiver

namespace BodyLayout

open Receiver

variable {c : Codec} (b : BodyLayout c)

/-- A message that is extracted has taken as many bytes as its header says, and a frame whose
length is smaller than the header or different from what its body occupies is refused. -/
structure Framed (taken : ℕ) (r : Receiver) : Prop where
  consumed : ∀ message r', r.extract c.deserialize = (.ok (some message), r') →
    taken + (r.queue.length - r'.queue.length) = r'.header.frameLength.toNat
  rejected : ∀ frameLength body, r.declared = some (frameLength, body) →
    (frameLength.toNat < frameHeaderLength
      ∨ ∃ k, b.occupied body = some k ∧ frameLength.toNat ≠ frameHeaderLength + k) →
    ∃ e, (r.extract c.deserialize).1 = .error e

/-- The length in the header is what the frame occupies.  A length that is smaller than the
header is taken for a body of almost `2 ^ 64` bytes, and the condition is not satisfied unless
there are as many bytes in the queue. -/
def Truthful (r : Receiver) : Prop :=
  ∀ frameLength body, r.declared = some (frameLength, body) →
    (∀ k, b.occupied body = some k → frameLength.toNat = frameHeaderLength + k)
      ∧ (frameLength.toNat < frameHeaderLength →
          ProtocolFrameHeader.bodyLength { frameLength := frameLength } ≤ body.length)

variable {b}

/-- What the decoder leaves, and what the layout says about the body. -/
theorem occupied_of_apply {sequenceNumber : UInt16} {body rest : Str} {message : c.Message}
    (happly : (c.deserialize sequenceNumber).apply body = (.ok message, rest)) :
  b.occupied body = some (body.length - rest.length) ∧ rest.length ≤ body.length
  := by
  have hrest := b.follows sequenceNumber body
  rw [remaining, happly] at hrest
  exact ⟨by rw [occupied, ← hrest]; rfl, length_le_of_bodyRest hrest.symm⟩

/-- A body that is refused has no end. -/
theorem occupied_of_throw {sequenceNumber : UInt16} {body rest : Str} {e : ProtocolException}
    (happly : (c.deserialize sequenceNumber).apply body = (.error e, rest)) :
  b.occupied body = none
  := by
  have hrest := b.follows sequenceNumber body
  rw [remaining, happly] at hrest
  rw [occupied, ← hrest]
  rfl

theorem truthful_of_none {r : Receiver} (h : r.declared = none) :
  b.Truthful r
  := by
  intro frameLength body hdeclared
  rw [h] at hdeclared
  contradiction

theorem truthful_iff {r : Receiver} {h : ProtocolFrameHeader} {body : Str}
    (hr : r.Declares h body) :
  b.Truthful r ↔ (∀ k, b.occupied body = some k → h.frameLength.toNat = frameHeaderLength + k)
    ∧ (h.frameLength.toNat < frameHeaderLength → h.bodyLength ≤ body.length)
  := by
  constructor
  · intro htruthful
    exact htruthful _ _ hr.declared
  · intro h frameLength body' hdeclared
    rw [hr.declared] at hdeclared
    obtain ⟨rfl, rfl⟩ := Prod.mk.inj (Option.some.inj hdeclared)
    exact h

theorem framed_of_none {taken : ℕ} {r : Receiver} (h : r.declared = none)
    (hextract : ∀ message, (r.extract c.deserialize).1 ≠ .ok (some message)) :
  b.Framed taken r
  := by
  constructor
  · intro message r' hmessage
    exact absurd (congrArg Prod.fst hmessage) (hextract message)
  · intro frameLength body hdeclared
    rw [h] at hdeclared
    contradiction

/-- A frame that is not refused. -/
theorem framed_iff {taken : ℕ} {r : Receiver} {h : ProtocolFrameHeader} {body : Str}
    (hr : r.Declares h body) (hextract : ∀ e, (r.extract c.deserialize).1 ≠ .error e) :
  b.Framed taken r ↔ (∀ message r', r.extract c.deserialize = (.ok (some message), r') →
      taken + (r.queue.length - r'.queue.length) = r'.header.frameLength.toNat)
    ∧ frameHeaderLength ≤ h.frameLength.toNat
    ∧ ∀ k, b.occupied body = some k → h.frameLength.toNat = frameHeaderLength + k
  := by
  constructor
  · intro hframed
    have hrejected := fun hwrong => hframed.rejected _ _ hr.declared hwrong
    refine ⟨hframed.consumed, ?_, ?_⟩
    · by_contra hshort
      obtain ⟨e, he⟩ := hrejected (Or.inl (not_le.mp hshort))
      exact hextract e he
    · intro k hk
      by_contra hdifferent
      obtain ⟨e, he⟩ := hrejected (Or.inr ⟨k, hk, hdifferent⟩)
      exact hextract e he
  · rintro ⟨hconsumed, hlong, hoccupied⟩
    refine ⟨hconsumed, ?_⟩
    intro frameLength body' hdeclared hwrong
    rw [hr.declared] at hdeclared
    obtain ⟨rfl, rfl⟩ := Prod.mk.inj (Option.some.inj hdeclared)
    rcases hwrong with hshort | ⟨k, hk, hdifferent⟩
    · exact absurd hlong (not_le.mpr hshort)
    · exact absurd (hoccupied k hk) hdifferent

/-- A call respects the length of the frame exactly when the length is truthful. -/
theorem framed_iff_truthful {taken : ℕ} {r : Receiver} (hrun : Run c.deserialize taken r) :
  b.Framed taken r ↔ b.Truthful r
  := by
  obtain ⟨hbody, htaken⟩ := hrun.taken_eq
  have hstep := extraction c.deserialize hbody
  generalize hresult : r.extract c.deserialize = result at hstep
  cases hstep with
  | short hnone hheader =>
      apply iff_of_true (framed_of_none hnone _) (truthful_of_none hnone)
      simp [hresult]
  | refused hnone _ =>
      apply iff_of_true (framed_of_none hnone _) (truthful_of_none hnone)
      simp [hresult]
  | waiting hdeclares hwait =>
      rw [framed_iff hdeclares (by simp [hresult]), truthful_iff hdeclares]
      constructor
      · rintro ⟨-, hlong, hoccupied⟩
        exact ⟨hoccupied, fun hshort => absurd hlong (not_le.mpr hshort)⟩
      · rintro ⟨hoccupied, hshort⟩
        refine ⟨by simp [hresult], ?_, hoccupied⟩
        by_contra hlong
        exact absurd (hshort (not_le.mp hlong)) (not_le.mpr hwait)
  | @decoded h body rest message hdeclares hready happly =>
      obtain ⟨hoccupied, hle⟩ := b.occupied_of_apply happly
      rw [framed_iff hdeclares (by simp [hresult]), truthful_iff hdeclares]
      have hlength := hdeclares.length
      constructor
      · rintro ⟨-, -, hequal⟩
        exact ⟨hequal, fun _ => hready⟩
      · rintro ⟨hequal, -⟩
        have hframe := hequal _ hoccupied
        refine ⟨?_, by omega, hequal⟩
        intro message' r' hextract
        obtain rfl := congrArg Prod.snd (hresult.symm.trans hextract)
        change taken + (r.queue.length - rest.length) = h.frameLength.toNat
        rw [hframe, htaken, ← hlength]
        split <;> omega
  | thrown hdeclares hready happly =>
      apply iff_of_true
      · refine ⟨by simp [hresult], fun _ _ _ _ => ?_⟩
        exact ⟨_, by rw [hresult]⟩
      · rw [truthful_iff hdeclares, occupied_of_throw happly]
        exact ⟨by simp, fun _ => hready⟩

end BodyLayout

/-! ### Requests that the service receives -/

open Receiver

/-- In every state of a receiver of requests of clients or administrators, the next call
respects the length of the frame exactly when the length is truthful. -/
theorem requests_framed_iff (taken : ℕ) (r : Receiver) :
  (Run ProtocolClient.requests.deserialize taken r →
      (ProtocolClient.bodyLayout.Framed taken r ↔ ProtocolClient.bodyLayout.Truthful r))
    ∧ (Run ProtocolAdmin.requests.deserialize taken r →
      (ProtocolAdmin.bodyLayout.Framed taken r ↔ ProtocolAdmin.bodyLayout.Truthful r))
  := by
  constructor
  · apply BodyLayout.framed_iff_truthful
  · apply BodyLayout.framed_iff_truthful

/-- A receiver that has got a header with the given length, and more bytes. -/
def gotFrame (frameLength : ℕ) (body : Str) : Receiver :=
  append {} (signature ++ littleEndian 4 frameLength ++ littleEndian 2 1 ++ body)

/-- A cancellation with the right length. -/
theorem framed_cancel :
  Run ProtocolClient.requests.deserialize 0 (gotFrame 11 [2])
    ∧ ProtocolClient.bodyLayout.Framed 0 (gotFrame 11 [2])
  := by
  have hrun : Run ProtocolClient.requests.deserialize 0 (gotFrame 11 [2]) := .receive _ .start
  refine ⟨hrun, ((requests_framed_iff 0 _).1 hrun).mpr ?_⟩
  intro frameLength body hdeclared
  obtain ⟨rfl, rfl⟩ : frameLength = 11 ∧ body = [2] := by
    have h : (gotFrame 11 [2]).declared = some (11, [2]) := rfl
    rw [h] at hdeclared
    simp_all
  constructor
  · intro k hk
    obtain rfl : 1 = k := Option.some.inj hk
    rfl
  · intro hshort
    contradiction

/-- A cancellation with the length 0 is waited for.  A check with the length 11 takes 12 bytes
that follow its frame. -/
theorem not_framed :
  (Run ProtocolClient.requests.deserialize 0 (gotFrame 0 [2])
      ∧ ((gotFrame 0 [2]).extract ProtocolClient.requests.deserialize).1 = .ok none
      ∧ ¬ ProtocolClient.bodyLayout.Framed 0 (gotFrame 0 [2]))
    ∧ Run ProtocolClient.requests.deserialize 0 (gotFrame 11 (List.replicate 13 0))
      ∧ ((gotFrame 11 (List.replicate 13 0)).extract ProtocolClient.requests.deserialize).1
        = .ok (some (.check ⟨[], [], []⟩ 1))
      ∧ ¬ ProtocolClient.bodyLayout.Framed 0 (gotFrame 11 (List.replicate 13 0))
  := by
  refine ⟨⟨.receive _ .start, rfl, fun h => ?_⟩, .receive _ .start, rfl, fun h => ?_⟩
  · obtain ⟨e, he⟩ := h.rejected 0 [2] rfl (Or.inl (by decide))
    cases he
  · have hconsumed := h.consumed _ _ rfl
    cases hconsumed

end Cynara
