import Cynara.Protocol.Frame

/-!
# Messages of a protocol

The body of a frame consists of fields.  A codec gives the messages that a protocol sends in
one direction, the fields of each message, and the two functions of the source that write and
read it.  A message is decoded to itself if its lists are `Counted` by the 16 bits that are
written for their lengths.

A receiver gets the bytes of several frames in fragments, and after each fragment extracts
messages until there are none left.  `receiveAll_frames` says that it gets the messages that
were sent, whatever the fragments are.
-/

namespace Cynara

open Str Decoder ProtocolSerialization ProtocolFrameHeader ProtocolFrameSerializer

/-! ### Fields of messages -/

/-- A field of a message. -/
inductive Field where
  | uint8 (value : UInt8)
  | uint16 (value : UInt16)
  | int32 (value : Int32)
  | uint64 (value : UInt64)
  | int64 (value : Int64)
  | bool (value : Bool)
  | string (str : Str)
  | vector (vec : Str)

namespace Field

def serialize : Field → Except ProtocolException Str
  | uint8 value => serializeUInt8 value
  | uint16 value => serializeUInt16 value
  | int32 value => serializeInt32 value
  | uint64 value => serializeUInt64 value
  | int64 value => serializeInt64 value
  | bool value => serializeBool value
  | string str => serializeString str
  | vector vec => serializeVector vec

/-- The limits on the lengths of strings and vectors. -/
def Short : Field → Prop
  | string str => str.length ≤ maxIdLength
  | vector vec => vec.length ≤ maxVectorSize
  | _ => True

/-- The number of bytes of a field. -/
def size : Field → ℕ
  | uint8 _ => 1
  | uint16 _ => 2
  | int32 _ => 4
  | uint64 _ => 8
  | int64 _ => 8
  | bool _ => 1
  | string str => 4 + str.length
  | vector vec => 4 + vec.length

/-- A short text is written with its length. -/
theorem serialize_of_short {field : Field} (h : field.Short) :
  ∃ bytes, field.serialize = .ok bytes ∧ bytes.length = field.size
  := by
  cases field with
  | uint8 value => exact ⟨_, rfl, rfl⟩
  | uint16 value => exact ⟨_, rfl, rfl⟩
  | int32 value => exact ⟨_, rfl, rfl⟩
  | uint64 value => exact ⟨_, rfl, rfl⟩
  | int64 value => exact ⟨_, rfl, rfl⟩
  | bool value => exact ⟨_, rfl, rfl⟩
  | string str =>
      use littleEndian 4 str.length ++ str
      simp [serialize, serializeString, not_lt.mpr h, size]
  | vector vec =>
      use littleEndian 4 vec.length ++ vec
      simp [serialize, serializeVector, not_lt.mpr h, size]

/-- A text that is too long is refused. -/
theorem serialize_of_not_short {field : Field} (h : ¬ field.Short) :
  field.serialize = .error .identifierTooLong
  := by
  cases field with
  | string str => exact if_pos (not_le.mp h)
  | vector vec => exact if_pos (not_le.mp h)
  | _ => exact absurd trivial h

/-- The bytes of several fields. -/
def serializeAll (fields : List Field) : Except ProtocolException Str :=
  concat (fields.map serialize)

theorem serializeAll_of_short {fields : List Field} (h : ∀ field ∈ fields, field.Short) :
  ∃ bytes, serializeAll fields = .ok bytes ∧ bytes.length = (fields.map size).sum
  := by
  induction fields with
  | nil => exact ⟨[], rfl, rfl⟩
  | cons field fields ih =>
      obtain ⟨first, hfirst, hfirstLength⟩ := serialize_of_short (h field List.mem_cons_self)
      obtain ⟨rest, hrest, hrestLength⟩ := ih fun field hfield =>
        h field (List.mem_cons_of_mem _ hfield)
      refine ⟨first ++ rest, concat_cons_eq_ok.mpr ⟨first, rest, hfirst, hrest, rfl⟩, ?_⟩
      rw [List.length_append, hfirstLength, hrestLength, List.map_cons, List.sum_cons]

theorem serializeAll_of_not_short {fields : List Field} (h : ¬ ∀ field ∈ fields, field.Short) :
  serializeAll fields = .error .identifierTooLong
  := by
  induction fields with
  | nil => simp at h
  | cons field fields ih =>
      rw [List.forall_mem_cons, not_and_or] at h
      rw [serializeAll, List.map_cons, concat_cons]
      by_cases hfield : field.Short
      · obtain ⟨first, hfirst, -⟩ := serialize_of_short hfield
        rw [hfirst, ← serializeAll, ih (h.resolve_left (not_not.mpr hfield))]
        rfl
      · rw [serialize_of_not_short hfield]
        rfl

/-- A field is written before others. -/
theorem concat_cons_eq_serializeAll (field : Field) {fields : List Field}
    {pieces : List (Except ProtocolException Str)} (h : concat pieces = serializeAll fields) :
  concat (field.serialize :: pieces) = serializeAll (field :: fields)
  := by
  rw [concat_cons, h]
  rfl

/-- Elements are written before other fields. -/
theorem concat_elements_eq_serializeAll {α : Type} {encode : α → Except ProtocolException Str}
    {elementFields : α → List Field} (hencode : ∀ a, encode a = serializeAll (elementFields a))
    (as : List α) {fields : List Field} {pieces : List (Except ProtocolException Str)}
    (h : concat pieces = serializeAll fields) :
  concat (concat (as.map encode) :: pieces) = serializeAll (as.flatMap elementFields ++ fields)
  := by
  have hencode : encode = fun a => concat ((elementFields a).map serialize) := funext hencode
  rw [hencode, concat_map_concat, concat_cons, h, serializeAll, serializeAll, ← concat_cons,
    concat_concat_cons, List.map_append, List.map_flatMap]

end Field

/-! ### Codecs -/

/-- The messages that are sent in one direction, their fields, and how their bodies are
written and read. -/
structure Codec where
  Message : Type
  sequenceNumber : Message → UInt16
  fields : Message → List Field
  serialize : Message → Except ProtocolException Str
  deserialize : UInt16 → Decoder ProtocolException Message
  /-- the lists of a message are decoded as they were written -/
  Counted : Message → Prop
  serialize_eq : ∀ message, serialize message = Field.serializeAll (fields message)
  inverts : ∀ message, Counted message →
    (deserialize (sequenceNumber message)).Inverts (serialize message) message
  counted : ∀ message body rest, serialize message = .ok body →
    (deserialize (sequenceNumber message)).apply body = (.ok message, rest) → Counted message

namespace Codec

variable (c : Codec)

/-- The number of bytes of the body of a message. -/
def size (message : c.Message) : ℕ := ((c.fields message).map Field.size).sum

/-- No string and no vector of the message is too long. -/
def Short (message : c.Message) : Prop := ∀ field ∈ c.fields message, field.Short

/-- The frame of a message. -/
def frame (message : c.Message) : Except ProtocolException Str := do
  return finishSerialization (c.sequenceNumber message) (← c.serialize message)

/-- The frames of several messages, one after the other. -/
def frames (messages : List c.Message) : Except ProtocolException Str :=
  concat (messages.map c.frame)

variable {c} {message : c.Message}

theorem serialize_of_short (h : c.Short message) :
  ∃ body, c.serialize message = .ok body ∧ body.length = c.size message
  := by
  rw [c.serialize_eq]
  apply Field.serializeAll_of_short h

/-- A message with a text that is too long is not written. -/
theorem frame_of_not_short (h : ¬ c.Short message) :
  c.frame message = .error .identifierTooLong
  := by
  rw [frame, c.serialize_eq, Field.serializeAll_of_not_short h]
  rfl

theorem frame_eq_ok {body : Str} (h : c.serialize message = .ok body) :
  c.frame message = .ok (finishSerialization (c.sequenceNumber message) body)
  := by
  rw [frame, h]
  rfl

end Codec

/-! ### Single frames -/

/-- The length that is written in the header is 32 bits of the length of the frame.  The
receiver decodes a body of the given size if it is not shorter than the header says. -/
def Announced (size : ℕ) : Prop :=
  bodyLength { frameLength := UInt32.ofNat (frameHeaderLength + size) } ≤ size

theorem announced_iff (sequenceNumber : UInt16) (body : Str) :
  Announced body.length ↔ (Receiver.headerOf sequenceNumber body).bodyLength ≤ body.length
  := by
  simp only [Announced, Receiver.headerOf, bodyLength]

/-- A frame is decoded to its message exactly when the lists are counted and the length is
announced. -/
theorem Codec.extract_frame_iff {c : Codec} {message : c.Message} {body : Str}
    (hbody : c.serialize message = .ok body) :
  (∃ r, (({} : Receiver).append (finishSerialization (c.sequenceNumber message) body)).extract
      c.deserialize = (.ok (some message), r))
    ↔ c.Counted message ∧ Announced body.length
  := by
  have hheader :
      (({} : Receiver).append (finishSerialization (c.sequenceNumber message) body)).extract
      c.deserialize = Receiver.extract c.deserialize
        ⟨Receiver.headerOf (c.sequenceNumber message) body, body⟩ := by
    rw [← Receiver.extract_header c.deserialize (h := {}) rfl rfl]
    rfl
  rw [hheader, announced_iff (c.sequenceNumber message)]
  by_cases hannounced : (Receiver.headerOf (c.sequenceNumber message) body).bodyLength ≤ body.length
  · rw [Receiver.extract_ready c.deserialize rfl hannounced]
    constructor
    · rintro ⟨r, hextract⟩
      refine ⟨?_, hannounced⟩
      split at hextract
      · rename_i rest happly
        simp only [Prod.mk.injEq, Except.ok.injEq, Option.some.injEq] at hextract
        obtain ⟨rfl, -⟩ := hextract
        exact c.counted _ body rest hbody happly
      · simp at hextract
    · rintro ⟨hcounted, -⟩
      have hread := c.inverts message hcounted body hbody []
      rw [List.append_nil] at hread
      have happly : (c.deserialize
          (Receiver.headerOf (c.sequenceNumber message) body).sequenceNumber).apply body
            = (.ok message, []) := hread
      rw [happly]
      exact ⟨_, rfl⟩
  · rw [Receiver.extract_waiting c.deserialize
      (r := ⟨Receiver.headerOf (c.sequenceNumber message) body, body⟩) rfl rfl
      (not_le.mp hannounced)]
    simp [hannounced]

/-! ### Extraction of messages -/

/-- What is extracted: messages, and then an exception if one is thrown. -/
structure Extracted (α : Type) where
  messages : List α
  thrown : Option ProtocolException
  receiver : Receiver

namespace Receiver

variable {α : Type}

/-- Messages are extracted until there are none left or an exception is thrown.  There is no
result if the fuel is used up before. -/
def extractAll (decode : UInt16 → Decoder ProtocolException α) :
    ℕ → Receiver → Option (Extracted α)
  | 0, _ => none
  | fuel + 1, r =>
      match r.extract decode with
      | (.ok none, r) => some ⟨[], none, r⟩
      | (.ok (some message), r) =>
          (extractAll decode fuel r).map fun e => { e with messages := message :: e.messages }
      | (.error e, r) => some ⟨[], some e, r⟩

/-- Messages are extracted after each fragment, until an exception is thrown. -/
def receiveAll (decode : UInt16 → Decoder ProtocolException α) (fuel : ℕ) :
    Receiver → List Str → Option (Extracted α)
  | r, [] => some ⟨[], none, r⟩
  | r, fragment :: fragments => do
      let first ← extractAll decode fuel (r.append fragment)
      if first.thrown.isSome then return first
      let others ← receiveAll decode fuel first.receiver fragments
      return { others with messages := first.messages ++ others.messages }

end Receiver

namespace Codec

open Receiver

variable {c : Codec}

/-- Strings, vectors and lists are within their limits, and the length of the frame can be
written with 32 bits. -/
structure Fits (c : Codec) (message : c.Message) : Prop where
  short : c.Short message
  counted : c.Counted message
  frame : frameHeaderLength + c.size message < 2 ^ 32

/-- The receiver expects messages; some bytes of the first one have been received. -/
def Expects (c : Codec) : List c.Message → Str → Receiver → Prop
  | [], received, r => received = [] ∧ r.Idle
  | message :: _, received, r => ∃ body missing,
      c.serialize message = .ok body ∧ missing ≠ []
        ∧ received ++ missing = finishSerialization (c.sequenceNumber message) body
        ∧ r.Awaits (c.sequenceNumber message) body received

/-- A receiver that has decoded all it has got expects any messages. -/
theorem expects_of_idle {messages : List c.Message} (hfits : ∀ message ∈ messages, c.Fits message)
    {r : Receiver} (hr : r.Idle) :
  c.Expects messages [] r
  := by
  cases messages with
  | nil => exact ⟨rfl, hr⟩
  | cons message messages =>
      obtain ⟨body, hbody, -⟩ := serialize_of_short (hfits message List.mem_cons_self).short
      refine ⟨body, _, hbody, ?_, List.nil_append _, hr.awaits _ _⟩
      apply List.ne_nil_of_length_pos
      simp [finishSerialization, frameHeaderLength]

/-- The frames of messages that fit are written. -/
theorem exists_frames {messages : List c.Message} (hfits : ∀ message ∈ messages, c.Fits message) :
  ∃ stream, c.frames messages = .ok stream
  := by
  induction messages with
  | nil => exact ⟨[], rfl⟩
  | cons message messages ih =>
      rw [List.forall_mem_cons] at hfits
      obtain ⟨body, hbody, -⟩ := serialize_of_short hfits.1.short
      obtain ⟨stream, hstream⟩ := ih hfits.2
      exact ⟨_, concat_cons_eq_ok.mpr ⟨_, stream, frame_eq_ok hbody, hstream, rfl⟩⟩

/-- One attempt to extract a message after a fragment.  The first message that is expected is
extracted if its frame is complete; otherwise nothing is, and the receiver goes on waiting. -/
theorem extract_expects {messages : List c.Message} (hfits : ∀ message ∈ messages, c.Fits message)
    {received bytes later : Str} {r : Receiver} (hr : c.Expects messages received r)
    (hstream : c.frames messages = .ok (received ++ bytes ++ later)) :
  (∃ r', (r.append bytes).extract c.deserialize = (.ok none, r')
      ∧ c.Expects messages (received ++ bytes) r')
    ∨ ∃ (message : c.Message) (rest : List c.Message) (queue : Str) (r' : Receiver),
      messages = message :: rest
      ∧ (r.append bytes).extract c.deserialize = (.ok (some message), r'.append queue) ∧ r'.Idle
      ∧ c.frames rest = .ok (queue ++ later)
  := by
  cases messages with
  | nil =>
      obtain ⟨rfl, hidle⟩ := hr
      have hnil := Except.ok.inj hstream
      rw [List.nil_append, eq_comm, List.append_eq_nil_iff] at hnil
      obtain ⟨rfl, rfl⟩ := hnil
      have happend : r.append [] = r := by rw [append, List.append_nil]
      refine Or.inl ⟨r, ?_, rfl, hidle⟩
      rw [happend]
      apply extract_short _ hidle.headerComplete
      rw [hidle.queue]
      decide
  | cons message messages =>
      obtain ⟨body, -, hbody, -, -, hawaits⟩ := hr
      have hfits := hfits message List.mem_cons_self
      obtain ⟨first, stream, hfirst, hothers, hstream⟩ := concat_cons_eq_ok.mp hstream
      rw [frame_eq_ok hbody] at hfirst
      obtain rfl := Except.ok.inj hfirst
      have hlength : frameHeaderLength + body.length < 2 ^ 32 := by
        obtain ⟨body', hbody', hsize⟩ := serialize_of_short hfits.short
        obtain rfl := Except.ok.inj (hbody.symm.trans hbody')
        rw [hsize]
        exact hfits.frame
      by_cases hcomplete : ∃ queue,
          received ++ bytes = finishSerialization (c.sequenceNumber message) body ++ queue
      · right
        obtain ⟨queue, hqueue⟩ := hcomplete
        obtain ⟨r', hextract, hheader, hbodyComplete, hrest⟩ := extract_complete hawaits hlength
          (c.inverts message hfits.counted body hbody) hqueue
        refine ⟨message, messages, queue, ⟨r'.header, []⟩, rfl, ?_,
          ⟨hheader, hbodyComplete, rfl⟩, ?_⟩
        · rw [hextract, append, List.nil_append, ← hrest]
        · rw [hqueue, List.append_assoc] at hstream
          rw [List.append_cancel_left hstream]
          exact hothers
      · left
        obtain ⟨missing, hmissing, -⟩ | ⟨queue, hqueue, -⟩ := List.append_eq_append_iff.mp hstream
        · have hne : missing ≠ [] := by
            rintro rfl
            exact hcomplete ⟨[], by rw [hmissing, List.append_nil, List.append_nil]⟩
          obtain ⟨r', hextract, hawaits'⟩ :=
            extract_partial c.deserialize hawaits hlength hne hmissing.symm
          exact ⟨r', hextract, body, missing, hbody, hne, hmissing.symm, hawaits'⟩
        · exact absurd ⟨queue, hqueue⟩ hcomplete

/-- After a fragment the messages whose frames are complete are extracted, and the receiver
expects the others. -/
theorem extractAll_expects {messages : List c.Message}
    (hfits : ∀ message ∈ messages, c.Fits message)
    {received bytes later stream : Str} {r : Receiver} (hr : c.Expects messages received r)
    (hstream : c.frames messages = .ok stream) (hbytes : received ++ bytes ++ later = stream)
    {fuel : ℕ} (hfuel : messages.length < fuel) :
  ∃ done rest received' stream' r', messages = done ++ rest
    ∧ extractAll c.deserialize fuel (r.append bytes) = some ⟨done, none, r'⟩
    ∧ c.Expects rest received' r' ∧ c.frames rest = .ok stream' ∧ received' ++ later = stream'
  := by
  obtain ⟨fuel, rfl⟩ := Nat.exists_eq_add_one_of_ne_zero (Nat.ne_zero_of_lt hfuel)
  subst hbytes
  induction messages generalizing received bytes r fuel with
  | nil =>
      obtain ⟨r', hextract, hexpects⟩ | ⟨_, _, _, _, hcons, -⟩ := extract_expects hfits hr hstream
      · refine ⟨[], [], received ++ bytes, _, r', rfl, ?_, hexpects, hstream, rfl⟩
        rw [extractAll, hextract]
      · cases hcons
  | cons message messages ih =>
      obtain ⟨r', hextract, hexpects⟩ | ⟨_, _, queue, r', hcons, hextract, hidle, hothers⟩ :=
        extract_expects hfits hr hstream
      · refine ⟨[], message :: messages, received ++ bytes, _, r', rfl, ?_, hexpects, hstream, rfl⟩
        rw [extractAll, hextract]
      · obtain ⟨rfl, rfl⟩ := List.cons.inj hcons
        rw [List.forall_mem_cons] at hfits
        obtain ⟨fuel, rfl⟩ := Nat.exists_eq_add_one_of_ne_zero
          (Nat.ne_zero_of_lt (Nat.lt_of_succ_lt_succ hfuel))
        obtain ⟨done, rest, received', stream', r'', rfl, hall, hexpects⟩ :=
          ih hfits.2 (expects_of_idle hfits.2 hidle) fuel (Nat.lt_of_succ_lt_succ hfuel) hothers
        refine ⟨message :: done, rest, received', stream', r'', rfl, ?_, hexpects⟩
        rw [extractAll, hextract]
        simp only
        rw [hall]
        rfl

/-- When all bytes have been received, no message is missing. -/
theorem Expects.eq_nil {messages : List c.Message} {received : Str} {r : Receiver}
    (hr : c.Expects messages received r) (hstream : c.frames messages = .ok received) :
  messages = [] ∧ r.Idle
  := by
  cases messages with
  | nil => exact ⟨rfl, hr.2⟩
  | cons message messages =>
      obtain ⟨body, missing, hbody, hmissing, hframe, -⟩ := hr
      obtain ⟨first, stream, hfirst, -, rfl⟩ := concat_cons_eq_ok.mp hstream
      rw [frame_eq_ok hbody] at hfirst
      obtain rfl := Except.ok.inj hfirst
      have hlength := congrArg List.length hframe
      have hpos := List.length_pos_iff.mpr hmissing
      simp only [List.length_append] at hlength
      omega

/-- The messages that the receiver expects are received, in any fragments. -/
theorem receiveAll_expects {messages : List c.Message}
    (hfits : ∀ message ∈ messages, c.Fits message)
    {received stream : Str} {r : Receiver} (hr : c.Expects messages received r)
    (hstream : c.frames messages = .ok stream) {fragments : List Str}
    (hfragments : received ++ fragments.flatten = stream)
    {fuel : ℕ} (hfuel : messages.length < fuel) :
  ∃ r', receiveAll c.deserialize fuel r fragments = some ⟨messages, none, r'⟩ ∧ r'.Idle
  := by
  induction fragments generalizing messages received stream r with
  | nil =>
      rw [List.flatten_nil, List.append_nil] at hfragments
      obtain ⟨rfl, hidle⟩ := hr.eq_nil (hfragments ▸ hstream)
      exact ⟨r, rfl, hidle⟩
  | cons fragment fragments ih =>
      rw [List.flatten_cons, ← List.append_assoc] at hfragments
      obtain ⟨done, rest, received', stream', r', rfl, hall, hexpects, hstream', hlater⟩ :=
        extractAll_expects hfits hr hstream hfragments hfuel
      rw [List.length_append] at hfuel
      obtain ⟨r'', hothers, hidle⟩ := ih
        (fun message hmessage => hfits message (List.mem_append_right _ hmessage)) hexpects hstream'
        hlater (lt_of_le_of_lt (Nat.le_add_left _ _) hfuel)
      refine ⟨r'', ?_, hidle⟩
      rw [receiveAll, hall]
      simp only [Option.bind_eq_bind, Option.bind_some, Option.isSome_none, Bool.false_eq_true,
        ↓reduceIte, hothers]
      rfl

end Codec

end Cynara
