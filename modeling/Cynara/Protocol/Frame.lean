import Cynara.Library.Decoder

/-!
# Frames of the protocol

A message is sent as a frame: a header with a signature, the length of the frame and a
sequence number, and a body of fields.  The receiver collects bytes in a queue.  Once there
are enough of them it takes the header, and once there are as many as the header says, it
decodes the body.

The bytes of a frame may arrive in any pieces.  `Receiver.Awaits` describes a receiver that
has got a part of a frame, and `extract_partial` and `extract_complete` say what it does when
more bytes come.
-/

namespace Cynara

open Str Decoder

/-- `InvalidProtocolException` with its reasons, and `OutOfDataException`. -/
inductive ProtocolException where
  | invalidSignature
  | wrongOpCode
  | identifierTooLong
  | outOfData
deriving DecidableEq

/-- `CYNARA_MAX_ID_LENGTH`. -/
def maxIdLength : ℕ := 4096

/-- `CYNARA_MAX_VECTOR_SIZE`. -/
def maxVectorSize : ℕ := 4096

/-! ### Fields -/

namespace ProtocolSerialization

def serializeUInt8 (value : UInt8) : Except ProtocolException Str := .ok [value]

def serializeUInt16 (value : UInt16) : Except ProtocolException Str :=
  .ok (littleEndian 2 value.toNat)

def serializeUInt32 (value : UInt32) : Except ProtocolException Str :=
  .ok (littleEndian 4 value.toNat)

def serializeInt32 (value : Int32) : Except ProtocolException Str :=
  serializeUInt32 value.toUInt32

def serializeUInt64 (value : UInt64) : Except ProtocolException Str :=
  .ok (littleEndian 8 value.toNat)

def serializeInt64 (value : Int64) : Except ProtocolException Str :=
  serializeUInt64 value.toUInt64

def serializeBool (value : Bool) : Except ProtocolException Str :=
  serializeUInt8 (if value then 1 else 0)

/-- The length and the text; longer texts than identifiers are refused. -/
def serializeString (str : Str) : Except ProtocolException Str :=
  if str.length > maxIdLength then .error .identifierTooLong
  else .ok (littleEndian 4 str.length ++ str)

/-- A vector of bytes. -/
def serializeVector (vec : Str) : Except ProtocolException Str :=
  if vec.length > maxVectorSize then .error .identifierTooLong
  else .ok (littleEndian 4 vec.length ++ vec)

end ProtocolSerialization

namespace ProtocolDeserialization

/-- A number of `k` bytes. -/
def deserializeNat (k : ℕ) : Decoder ProtocolException ℕ := do
  return fromLittleEndian (← take .outOfData k)

def deserializeUInt8 : Decoder ProtocolException UInt8 := do
  return UInt8.ofNat (← deserializeNat 1)

def deserializeUInt16 : Decoder ProtocolException UInt16 := do
  return UInt16.ofNat (← deserializeNat 2)

def deserializeUInt32 : Decoder ProtocolException UInt32 := do
  return UInt32.ofNat (← deserializeNat 4)

def deserializeInt32 : Decoder ProtocolException Int32 := do
  return Int32.ofUInt32 (← deserializeUInt32)

def deserializeUInt64 : Decoder ProtocolException UInt64 := do
  return UInt64.ofNat (← deserializeNat 8)

def deserializeInt64 : Decoder ProtocolException Int64 := do
  return Int64.ofUInt64 (← deserializeUInt64)

/-- Every byte but 0 is true. -/
def deserializeBool : Decoder ProtocolException Bool := do
  return (← deserializeUInt8) != 0

/-- A text; the length is checked before anything is taken. -/
def deserializeString : Decoder ProtocolException Str := do
  let length ← deserializeNat 4
  if length > maxIdLength then throw .identifierTooLong
  take .outOfData length

/-- The bytes of a vector are taken one by one. -/
def deserializeVector : Decoder ProtocolException Str := do
  let length ← deserializeNat 4
  if length > maxVectorSize then throw .identifierTooLong
  deserializeUInt8.times length

end ProtocolDeserialization

open ProtocolSerialization ProtocolDeserialization

/-- A number is read modulo what fits into its bytes. -/
theorem reads_deserializeNat (k n : ℕ) :
  (deserializeNat k).Reads (littleEndian k n) (n % 256 ^ k)
  := by
  intro rest
  have htake := reads_take (ε := ProtocolException) .outOfData (littleEndian k n) rest
  rw [length_littleEndian] at htake
  rw [deserializeNat, apply_bind, htake]
  simp only [fromLittleEndian_littleEndian, apply_pure]

/-- A value that is computed from a number. -/
theorem inverts_of_nat {α : Type} (k n : ℕ) (f : ℕ → α) {a : α} (ha : f (n % 256 ^ k) = a) :
  (do return f (← deserializeNat k)).Inverts (.ok (littleEndian k n)) a
  := by
  intro bytes hbytes rest
  obtain rfl := Except.ok.inj hbytes
  rw [apply_bind, reads_deserializeNat]
  simp only [ha, apply_pure]

theorem inverts_uint8 (value : UInt8) :
  deserializeUInt8.Inverts (serializeUInt8 value) value
  := by
  have h := inverts_of_nat 1 value.toNat UInt8.ofNat (a := value) (by simp)
  rw [littleEndian, UInt8.ofNat_toNat] at h
  exact h

theorem inverts_uint16 (value : UInt16) :
  deserializeUInt16.Inverts (serializeUInt16 value) value
  := inverts_of_nat _ _ UInt16.ofNat (by simp)

theorem inverts_uint32 (value : UInt32) :
  deserializeUInt32.Inverts (serializeUInt32 value) value
  := inverts_of_nat _ _ UInt32.ofNat (by simp)

theorem inverts_int32 (value : Int32) :
  deserializeInt32.Inverts (serializeInt32 value) value
  := by
  intro bytes hbytes rest
  rw [deserializeInt32, apply_bind, inverts_uint32 value.toUInt32 bytes hbytes]
  rfl

theorem inverts_uint64 (value : UInt64) :
  deserializeUInt64.Inverts (serializeUInt64 value) value
  := inverts_of_nat _ _ UInt64.ofNat (by simp)

theorem inverts_int64 (value : Int64) :
  deserializeInt64.Inverts (serializeInt64 value) value
  := by
  intro bytes hbytes rest
  rw [deserializeInt64, apply_bind, inverts_uint64 value.toUInt64 bytes hbytes]
  rfl

theorem inverts_bool (value : Bool) :
  deserializeBool.Inverts (serializeBool value) value
  := by
  intro bytes hbytes rest
  rw [deserializeBool, apply_bind, inverts_uint8 _ bytes hbytes]
  cases value with
  | false => rfl
  | true => rfl

theorem inverts_string (str : Str) :
  deserializeString.Inverts (serializeString str) str
  := by
  intro bytes hbytes
  unfold serializeString at hbytes
  split at hbytes
  · contradiction
  · rename_i hlength
    obtain rfl := Except.ok.inj hbytes
    have hread := reads_deserializeNat 4 str.length
    rw [Nat.mod_eq_of_lt (lt_of_le_of_lt (not_lt.mp hlength) (by decide))] at hread
    apply Reads.bind hread
    simp only [hlength, ↓reduceIte]
    apply reads_take

theorem inverts_vector (vec : Str) :
  deserializeVector.Inverts (serializeVector vec) vec
  := by
  intro bytes hbytes
  unfold serializeVector at hbytes
  split at hbytes
  · contradiction
  · rename_i hlength
    obtain rfl := Except.ok.inj hbytes
    have hread := reads_deserializeNat 4 vec.length
    rw [Nat.mod_eq_of_lt (lt_of_le_of_lt (not_lt.mp hlength) (by decide))] at hread
    apply Reads.bind hread
    simp only [hlength, ↓reduceIte]
    apply inverts_times vec (fun value _ => inverts_uint8 value)
    apply concat_map_singleton

/-! ### Frames -/

/-- The header of the frame that is being received, and how much of the frame has arrived. -/
structure ProtocolFrameHeader where
  frameLength : UInt32 := 0
  sequenceNumber : UInt16 := 0
  headerComplete : Bool := false
  bodyComplete : Bool := false
deriving DecidableEq

namespace ProtocolFrameHeader

/-- The first bytes of each frame. -/
def signature : Str := ofString "CPv1"

/-- The length of a header: the signature, a length and a sequence number. -/
def frameHeaderLength : ℕ := 10

/-- A message can be read. -/
def isFrameComplete (h : ProtocolFrameHeader) : Bool := h.headerComplete && h.bodyComplete

/-- The next frame is awaited. -/
def resetState (h : ProtocolFrameHeader) : ProtocolFrameHeader :=
  { h with headerComplete := false, bodyComplete := false }

/-- The length of the body, which is computed with 64 bits and may wrap around. -/
def bodyLength (h : ProtocolFrameHeader) : ℕ :=
  (h.frameLength.toUInt64 - UInt64.ofNat frameHeaderLength).toNat

end ProtocolFrameHeader

namespace ProtocolFrameSerializer

open ProtocolFrameHeader

/-- The bytes of the header.  It counts its own bytes too; the length has 32 bits. -/
def headerContent (sequenceNumber : UInt16) (body : Str) : Str :=
  signature ++ littleEndian 4 (frameHeaderLength + body.length)
    ++ littleEndian 2 sequenceNumber.toNat

/-- A frame: the header and the body. -/
def finishSerialization (sequenceNumber : UInt16) (body : Str) : Str :=
  headerContent sequenceNumber body ++ body

/-- The body is complete when as many bytes have arrived as the header tells. -/
def checkBody (h : ProtocolFrameHeader) : Decoder ProtocolException ProtocolFrameHeader := do
  if h.bodyLength ≤ (← get).length then return { h with bodyComplete := true }
  return h

/-- The header is taken from the queue once, as soon as it has arrived. -/
def deserializeHeader (h : ProtocolFrameHeader) :
    Decoder ProtocolException ProtocolFrameHeader := do
  if h.headerComplete then
    checkBody h
  else if (← get).length < frameHeaderLength then
    return h
  else
    let received ← take .outOfData signature.length
    if received ≠ signature then throw .invalidSignature
    let frameLength ← deserializeUInt32
    let sequenceNumber ← deserializeUInt16
    checkBody
      { h with
        frameLength := frameLength
        sequenceNumber := sequenceNumber
        headerComplete := true }

end ProtocolFrameSerializer

/-! ### Receiving messages -/

/-- The state of a receiver: the header of the frame it is waiting for and the bytes it has
not decoded yet. -/
structure Receiver where
  header : ProtocolFrameHeader := {}
  queue : Str := []
deriving DecidableEq

namespace Receiver

open ProtocolFrameHeader ProtocolFrameSerializer

variable {α : Type}

/-- Bytes arrive. -/
def append (r : Receiver) (bytes : Str) : Receiver := { r with queue := r.queue ++ bytes }

/-- `extractRequestFromBuffer` and `extractResponseFromBuffer` for the messages that `decode`
takes from the body of a frame with a given sequence number. -/
def extract (decode : UInt16 → Decoder ProtocolException α) (r : Receiver) :
    Except ProtocolException (Option α) × Receiver :=
  match (deserializeHeader r.header).apply r.queue with
  | (.error e, queue) => (.error e, { r with queue := queue })
  | (.ok header, queue) =>
      if header.isFrameComplete then
        match (decode header.sequenceNumber).apply queue with
        | (.ok message, queue) => (.ok (some message), ⟨header.resetState, queue⟩)
        | (.error e, queue) => (.error e, ⟨header.resetState, queue⟩)
      else
        (.ok none, ⟨header, queue⟩)

/-- The receiver has decoded all the frames it has got a part of. -/
structure Idle (r : Receiver) : Prop where
  headerComplete : r.header.headerComplete = false
  bodyComplete : r.header.bodyComplete = false
  queue : r.queue = []

/-! ### Frames that arrive in pieces -/

/-- The header of a frame with the given body, when its bytes have been taken. -/
def headerOf (sequenceNumber : UInt16) (body : Str) : ProtocolFrameHeader where
  frameLength := UInt32.ofNat (frameHeaderLength + body.length)
  sequenceNumber := sequenceNumber
  headerComplete := true

theorem bodyLength_headerOf (sequenceNumber : UInt16) {body : Str}
    (hbody : frameHeaderLength + body.length < 2 ^ 32) :
  (headerOf sequenceNumber body).bodyLength = body.length
  := by
  have hlength : (headerOf sequenceNumber body).frameLength.toUInt64.toNat
      = frameHeaderLength + body.length := by
    rw [UInt32.toNat_toUInt64, headerOf, UInt32.toNat_ofNat', Nat.mod_eq_of_lt hbody]
  have hle : UInt64.ofNat frameHeaderLength
      ≤ (headerOf sequenceNumber body).frameLength.toUInt64 := by
    rw [UInt64.le_iff_toNat_le, hlength]
    exact Nat.le_add_right _ _
  rw [bodyLength, UInt64.toNat_sub_of_le _ _ hle, hlength]
  exact Nat.add_sub_cancel_left frameHeaderLength body.length

@[simp]
theorem length_headerContent (sequenceNumber : UInt16) (body : Str) :
  (headerContent sequenceNumber body).length = frameHeaderLength
  := by
  simp [headerContent, signature, ofString, frameHeaderLength]

theorem apply_checkBody (h : ProtocolFrameHeader) (queue : Str) :
  (checkBody h).apply queue
    = (.ok (if h.bodyLength ≤ queue.length then { h with bodyComplete := true } else h), queue)
  := by
  rw [checkBody, apply_bind]
  change (if h.bodyLength ≤ queue.length then _ else _ : Decoder _ _).apply queue = _
  split
  · rfl
  · rfl

/-- With fewer bytes than a header has, the receiver waits. -/
theorem extract_short (decode : UInt16 → Decoder ProtocolException α) {r : Receiver}
    (hheader : r.header.headerComplete = false) (hqueue : r.queue.length < frameHeaderLength) :
  r.extract decode = (.ok none, r)
  := by
  have happly : (deserializeHeader r.header).apply r.queue = (.ok r.header, r.queue) := by
    rw [deserializeHeader, if_neg (by simp [hheader]), apply_bind]
    change (if r.queue.length < frameHeaderLength then _ else _ : Decoder _ _).apply r.queue = _
    rw [if_pos hqueue]
    rfl
  have hcomplete : r.header.isFrameComplete = false := by simp [isFrameComplete, hheader]
  simp only [extract, happly, hcomplete, Bool.false_eq_true, ↓reduceIte]

/-- With a header that is complete, the receiver waits for the body. -/
theorem extract_waiting (decode : UInt16 → Decoder ProtocolException α) {r : Receiver}
    (hheader : r.header.headerComplete = true) (hbody : r.header.bodyComplete = false)
    (hqueue : r.queue.length < r.header.bodyLength) :
  r.extract decode = (.ok none, r)
  := by
  have happly : (deserializeHeader r.header).apply r.queue = (.ok r.header, r.queue) := by
    rw [deserializeHeader, if_pos hheader, apply_checkBody, if_neg (not_le.mpr hqueue)]
  have hcomplete : r.header.isFrameComplete = false := by simp [isFrameComplete, hbody]
  simp only [extract, happly, hcomplete, Bool.false_eq_true, ↓reduceIte]

/-- With a header that is complete and enough bytes, the receiver decodes the body. -/
theorem extract_ready (decode : UInt16 → Decoder ProtocolException α) {h : ProtocolFrameHeader}
    {queue : Str} (hheader : h.headerComplete = true) (hqueue : h.bodyLength ≤ queue.length) :
  extract decode ⟨h, queue⟩ = match (decode h.sequenceNumber).apply queue with
    | (.ok message, rest) => (.ok (some message), ⟨h.resetState, rest⟩)
    | (.error e, rest) => (.error e, ⟨h.resetState, rest⟩)
  := by
  have happly : (deserializeHeader h).apply queue
      = (.ok { h with bodyComplete := true }, queue) := by
    rw [deserializeHeader, if_pos hheader, apply_checkBody, if_pos hqueue]
  have hcomplete : { h with bodyComplete := true }.isFrameComplete = true := by
    simp [isFrameComplete, hheader]
  simp only [extract, happly, hcomplete, ↓reduceIte]
  rfl

/-- The header in the first bytes of a queue, when they have been taken. -/
def readHeader (queue : Str) : ProtocolFrameHeader where
  frameLength := UInt32.ofNat (fromLittleEndian ((queue.drop 4).take 4))
  sequenceNumber := UInt16.ofNat (fromLittleEndian ((queue.drop 8).take 2))
  headerComplete := true

theorem apply_deserializeHeader {h : ProtocolFrameHeader} (hheader : h.headerComplete = false)
    (hbody : h.bodyComplete = false) {queue : Str} (hqueue : frameHeaderLength ≤ queue.length) :
  (deserializeHeader h).apply queue
    = if queue.take signature.length = signature then
        (checkBody (readHeader queue)).apply (queue.drop frameHeaderLength)
      else (.error .invalidSignature, queue.drop signature.length)
  := by
  have hlength : 10 ≤ queue.length := hqueue
  have hsignature : signature.length = 4 := rfl
  rw [deserializeHeader, if_neg (by simp [hheader]), apply_bind]
  change (if queue.length < frameHeaderLength then _ else _ : Decoder _ _).apply queue = _
  rw [if_neg (not_lt.mpr hqueue), apply_bind, apply_take, hsignature, if_neg (by omega)]
  simp only [ne_eq, ite_not]
  split
  · have htake : ∀ k bytes, k ≤ bytes.length → (deserializeNat k).apply bytes
        = (.ok (fromLittleEndian (bytes.take k)), bytes.drop k) := by
      intro k bytes hk
      rw [deserializeNat, apply_bind, apply_take, if_neg (not_lt.mpr hk)]
      rfl
    rw [apply_bind, deserializeUInt32, apply_bind, htake 4 _ (by rw [List.length_drop]; omega)]
    simp only [apply_pure, deserializeUInt16]
    rw [apply_bind, apply_bind, htake 2 _ (by simp only [List.length_drop]; omega)]
    simp only [apply_pure, List.drop_drop, readHeader, hbody]
    rfl
  · rfl

/-- Taking the header is the same as having taken it before. -/
theorem extract_readHeader (decode : UInt16 → Decoder ProtocolException α)
    {h : ProtocolFrameHeader} (hheader : h.headerComplete = false)
    (hbody : h.bodyComplete = false) {queue : Str} (hqueue : frameHeaderLength ≤ queue.length)
    (hsignature : queue.take signature.length = signature) :
  extract decode ⟨h, queue⟩ = extract decode ⟨readHeader queue, queue.drop frameHeaderLength⟩
  := by
  have hcomplete : (deserializeHeader (readHeader queue)).apply (queue.drop frameHeaderLength)
      = (checkBody (readHeader queue)).apply (queue.drop frameHeaderLength) := by
    rw [deserializeHeader, if_pos (by rfl)]
  simp only [extract, apply_deserializeHeader hheader hbody hqueue, if_pos hsignature, hcomplete,
    apply_checkBody]

theorem readHeader_headerContent (sequenceNumber : UInt16) (body queue : Str) :
  readHeader (headerContent sequenceNumber body ++ queue) = headerOf sequenceNumber body
  := by
  have hframe : ((headerContent sequenceNumber body ++ queue).drop 4).take 4
      = littleEndian 4 (frameHeaderLength + body.length) := rfl
  have hnumber : ((headerContent sequenceNumber body ++ queue).drop 8).take 2
      = littleEndian 2 sequenceNumber.toNat := rfl
  have hmod : UInt32.ofNat ((frameHeaderLength + body.length) % 256 ^ 4)
      = UInt32.ofNat (frameHeaderLength + body.length) := by
    apply UInt32.toNat.inj
    simp
  rw [readHeader, headerOf, hframe, hnumber, fromLittleEndian_littleEndian,
    fromLittleEndian_littleEndian, hmod]
  simp

/-- Taking the bytes of a header is the same as having taken them before. -/
theorem extract_header (decode : UInt16 → Decoder ProtocolException α) {h : ProtocolFrameHeader}
    (hheader : h.headerComplete = false) (hbodyComplete : h.bodyComplete = false)
    (sequenceNumber : UInt16) (body queue : Str) :
  extract decode ⟨h, headerContent sequenceNumber body ++ queue⟩
    = extract decode ⟨headerOf sequenceNumber body, queue⟩
  := by
  rw [extract_readHeader decode hheader hbodyComplete (by simp) (by rfl),
    readHeader_headerContent, List.drop_left' (length_headerContent sequenceNumber body)]

/-! ### What a receiver can do -/

/-- The length that the header of the current frame gives, and the bytes that have been
received after the header, if the header has been received. -/
def declared (r : Receiver) : Option (UInt32 × Str) :=
  if r.header.headerComplete then some (r.header.frameLength, r.queue)
  else if r.queue.length < frameHeaderLength then none
  else if r.queue.take signature.length = signature then
    some ((readHeader r.queue).frameLength, r.queue.drop frameHeaderLength)
  else none

/-- The header of the current frame has been received. -/
structure Declares (r : Receiver) (h : ProtocolFrameHeader) (body : Str) : Prop where
  declared : r.declared = some (h.frameLength, body)
  headerComplete : h.headerComplete = true
  bodyComplete : h.bodyComplete = false
  length : (if r.header.headerComplete then 0 else frameHeaderLength) + body.length
    = r.queue.length

/-- What `extract` can do when the body of the current frame has not been decoded. -/
inductive Extraction (decode : UInt16 → Decoder ProtocolException α) (r : Receiver) :
    Except ProtocolException (Option α) × Receiver → Prop where
  /-- the header is not there yet -/
  | short : r.declared = none → r.header.headerComplete = false → Extraction decode r (.ok none, r)
  /-- the signature is wrong -/
  | refused : r.declared = none → frameHeaderLength ≤ r.queue.length →
      Extraction decode r
        (.error .invalidSignature, ⟨r.header, r.queue.drop signature.length⟩)
  /-- the body is not there yet -/
  | waiting {h : ProtocolFrameHeader} {body : Str} : r.Declares h body →
      body.length < h.bodyLength → Extraction decode r (.ok none, ⟨h, body⟩)
  | decoded {h : ProtocolFrameHeader} {body rest : Str} {a : α} : r.Declares h body →
      h.bodyLength ≤ body.length → (decode h.sequenceNumber).apply body = (.ok a, rest) →
      Extraction decode r (.ok (some a), ⟨h.resetState, rest⟩)
  | thrown {h : ProtocolFrameHeader} {body rest : Str} {e : ProtocolException} : r.Declares h body →
      h.bodyLength ≤ body.length → (decode h.sequenceNumber).apply body = (.error e, rest) →
      Extraction decode r (.error e, ⟨h.resetState, rest⟩)

/-- When the header has been received, it does not matter whether it has been taken. -/
theorem Declares.extraction (decode : UInt16 → Decoder ProtocolException α) {r : Receiver}
    {h : ProtocolFrameHeader} {body : Str} (hr : r.Declares h body) :
  Extraction decode r (extract decode ⟨h, body⟩)
  := by
  by_cases hready : h.bodyLength ≤ body.length
  · rw [extract_ready decode hr.headerComplete hready]
    split
    · rename_i happly
      apply Extraction.decoded hr hready happly
    · rename_i happly
      apply Extraction.thrown hr hready happly
  · rw [extract_waiting decode (r := ⟨h, body⟩) hr.headerComplete hr.bodyComplete
      (not_le.mp hready)]
    apply Extraction.waiting hr (not_le.mp hready)

/-- What one extraction may come to. -/
theorem extraction (decode : UInt16 → Decoder ProtocolException α) {r : Receiver}
    (hbody : r.header.bodyComplete = false) :
  Extraction decode r (r.extract decode)
  := by
  obtain ⟨header, queue⟩ := r
  cases hheader : header.headerComplete with
  | true =>
      apply Declares.extraction decode
      exact ⟨by simp [declared, hheader], hheader, hbody, by simp [hheader]⟩
  | false =>
      by_cases hshort : queue.length < frameHeaderLength
      · rw [extract_short decode hheader hshort]
        apply Extraction.short
        · simp [declared, hheader, hshort]
        · exact hheader
      · have hlong := not_lt.mp hshort
        by_cases hsignature : queue.take signature.length = signature
        · rw [extract_readHeader decode hheader hbody hlong hsignature]
          apply Declares.extraction decode
          refine ⟨by simp [declared, hheader, hshort, hsignature], rfl, rfl, ?_⟩
          rw [List.length_drop, if_neg (by simp [hheader])]
          exact Nat.add_sub_of_le hlong
        · simp only [extract, apply_deserializeHeader hheader hbody hlong, if_neg hsignature]
          apply Extraction.refused _ hlong
          simp [declared, hheader, hshort, hsignature]

/-! ### Partial frames -/

/-- The receiver has got a part of a frame with the given body, and has taken the header if
there were enough bytes. -/
def Awaits (sequenceNumber : UInt16) (body received : Str) (r : Receiver) : Prop :=
  if received.length < frameHeaderLength then
    r.header.headerComplete = false ∧ r.header.bodyComplete = false ∧ r.queue = received
  else
    r = ⟨headerOf sequenceNumber body, received.drop frameHeaderLength⟩

theorem Idle.awaits {r : Receiver} (h : r.Idle) (sequenceNumber : UInt16) (body : Str) :
  r.Awaits sequenceNumber body []
  := ⟨h.headerComplete, h.bodyComplete, h.queue⟩

variable {decode : UInt16 → Decoder ProtocolException α} {sequenceNumber : UInt16}
  {body received bytes : Str} {r : Receiver}

/-- Once the header has arrived, it does not matter in which pieces it came. -/
theorem extract_append (decode : UInt16 → Decoder ProtocolException α)
    (hr : r.Awaits sequenceNumber body received) {queue : Str}
    (hbytes : received ++ bytes = headerContent sequenceNumber body ++ queue) :
  (r.append bytes).extract decode = extract decode ⟨headerOf sequenceNumber body, queue⟩
  := by
  unfold Awaits at hr
  split at hr
  · obtain ⟨hheader, hbodyComplete, hqueue⟩ := hr
    rw [append, hqueue, hbytes, extract_header decode hheader hbodyComplete]
  · rename_i hlong
    rw [not_lt] at hlong
    have hdrop := congrArg (List.drop frameHeaderLength) hbytes
    rw [List.drop_append_of_le_length hlong,
      List.drop_left' (length_headerContent sequenceNumber body)] at hdrop
    rw [hr, append, hdrop]

/-- When a part of the frame is still missing, the receiver waits for it. -/
theorem extract_partial (decode : UInt16 → Decoder ProtocolException α)
    (hr : r.Awaits sequenceNumber body received)
    (hbody : frameHeaderLength + body.length < 2 ^ 32) {missing : Str} (hmissing : missing ≠ [])
    (hbytes : received ++ bytes ++ missing = finishSerialization sequenceNumber body) :
  ∃ r', (r.append bytes).extract decode = (.ok none, r')
    ∧ r'.Awaits sequenceNumber body (received ++ bytes)
  := by
  by_cases hshort : (received ++ bytes).length < frameHeaderLength
  · have hreceived : received.length < frameHeaderLength :=
      lt_of_le_of_lt (List.length_append ▸ Nat.le_add_right _ _) hshort
    rw [Awaits, if_pos hreceived] at hr
    obtain ⟨hheader, hbodyComplete, hqueue⟩ := hr
    have hqueue' : (r.append bytes).queue = received ++ bytes := by rw [append, hqueue]
    refine ⟨r.append bytes, ?_, ?_⟩
    · apply extract_short decode (r := r.append bytes) hheader
      rw [hqueue']
      exact hshort
    · rw [Awaits, if_pos hshort]
      exact ⟨hheader, hbodyComplete, hqueue'⟩
  · obtain ⟨queue, hqueue⟩ : headerContent sequenceNumber body <+: received ++ bytes := by
      have hheader : headerContent sequenceNumber body
          <+: finishSerialization sequenceNumber body := List.prefix_append _ _
      have hreceived : received ++ bytes <+: finishSerialization sequenceNumber body :=
        ⟨missing, hbytes⟩
      apply List.prefix_of_prefix_length_le hheader hreceived
      rw [length_headerContent]
      exact not_lt.mp hshort
    have hlt : queue.length < body.length := by
      have hlength := congrArg List.length hbytes
      have hpos := List.length_pos_iff.mpr hmissing
      rw [← hqueue, finishSerialization] at hlength
      simp only [List.length_append] at hlength
      omega
    refine ⟨⟨headerOf sequenceNumber body, queue⟩, ?_, ?_⟩
    · rw [extract_append decode hr hqueue.symm]
      apply extract_waiting decode rfl rfl
      rw [bodyLength_headerOf sequenceNumber hbody]
      exact hlt
    · rw [Awaits, if_neg hshort, ← hqueue,
        List.drop_left' (length_headerContent sequenceNumber body)]

/-- When the whole frame has arrived, the receiver decodes its message. -/
theorem extract_complete (hr : r.Awaits sequenceNumber body received)
    (hbody : frameHeaderLength + body.length < 2 ^ 32) {rest : Str} {message : α}
    (hdecode : (decode sequenceNumber).Reads body message)
    (hbytes : received ++ bytes = finishSerialization sequenceNumber body ++ rest) :
  ∃ r', (r.append bytes).extract decode = (.ok (some message), r')
    ∧ r'.header.headerComplete = false ∧ r'.header.bodyComplete = false ∧ r'.queue = rest
  := by
  rw [finishSerialization, List.append_assoc] at hbytes
  refine ⟨⟨(headerOf sequenceNumber body).resetState, rest⟩, ?_, rfl, rfl, rfl⟩
  have hlength : (headerOf sequenceNumber body).bodyLength ≤ (body ++ rest).length := by
    rw [bodyLength_headerOf sequenceNumber hbody, List.length_append]
    exact Nat.le_add_right _ _
  have hread : (decode (headerOf sequenceNumber body).sequenceNumber).apply (body ++ rest)
      = (.ok message, rest) := hdecode rest
  rw [extract_append decode hr hbytes, extract_ready decode rfl hlength, hread]

end Receiver

end Cynara
