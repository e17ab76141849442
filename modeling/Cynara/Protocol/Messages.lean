import Cynara.Protocol.Requests

/-!
# The protocols

There are four protocols: of clients, of administrators, of agents and of those who get the
entries of the monitor.  Each has requests and responses.  The same is proved about all of
them: the messages of a stream are received as they were sent, however the stream is cut, and
a single message that is not refused is decoded to itself exactly when its lists and its
length are counted.
-/

namespace Cynara

open Std Str Decoder ProtocolSerialization ProtocolDeserialization ProtocolFrameSerializer

/-! ### Responses to clients and administrators -/

namespace ProtocolClient

/-- The fields of a response. -/
def responseFields : Response → List Field
  | .cancel _ => [.uint8 OpCancelResponse]
  | .check result _ =>
      [.uint8 OpCheckPolicyResponse, .uint16 result.policyType, .string result.metadata]
  | .simpleCheck retValue result _ =>
      [.uint8 OpSimpleCheckPolicyResponse, .int32 retValue, .uint16 result.policyType,
        .string result.metadata]

def responseCodec : Codec where
  Message := Response
  sequenceNumber := Response.sequenceNumber
  fields := responseFields
  serialize := serialize
  deserialize := deserialize
  Counted _ := True
  serialize_eq response := by
    cases response with
    | cancel sequenceNumber => rfl
    | check result sequenceNumber => rfl
    | simpleCheck retValue result sequenceNumber => rfl
  inverts response _ := inverts_deserialize response
  counted _ _ _ _ _ := trivial

end ProtocolClient

namespace ProtocolAdmin

def descriptionFields (desc : PolicyDescription) : List Field :=
  [.uint16 desc.type, .string desc.name]

/-- The fields of a response. -/
def responseFields : Response → List Field
  | .adminCheck result bucketValid dbCorrupted _ =>
      [.uint8 OpAdminCheckPolicyResponse, .uint16 result.policyType, .string result.metadata,
        .bool bucketValid, .bool dbCorrupted]
  | .code code _ => [.uint8 OpCodeResponse, .uint16 code]
  | .descriptionList descriptions dbCorrupted _ =>
      .uint8 OpDescriptionListResponse :: .uint16 (UInt16.ofNat descriptions.length)
        :: (descriptions.flatMap descriptionFields ++ [.bool dbCorrupted])
  | .list policies bucketValid dbCorrupted _ =>
      .uint8 OpListResponse :: .uint16 (UInt16.ofNat policies.length)
        :: (policies.flatMap policyFields ++ [.bool bucketValid, .bool dbCorrupted])

theorem serialize_eq (response : Response) :
  serialize response = Field.serializeAll (responseFields response)
  := by
  have hdescription : ∀ desc, serializeDescription desc
      = Field.serializeAll (descriptionFields desc) := fun _ => rfl
  have hpolicy : ∀ policy, serializePolicy policy = Field.serializeAll (policyFields policy) :=
    fun _ => rfl
  cases response with
  | adminCheck result bucketValid dbCorrupted sequenceNumber => rfl
  | code code sequenceNumber => rfl
  | descriptionList descriptions dbCorrupted sequenceNumber =>
      apply Field.concat_cons_eq_serializeAll (.uint8 _)
      apply Field.concat_cons_eq_serializeAll (.uint16 _)
      apply Field.concat_elements_eq_serializeAll hdescription
      rfl
  | list policies bucketValid dbCorrupted sequenceNumber =>
      apply Field.concat_cons_eq_serializeAll (.uint8 _)
      apply Field.concat_cons_eq_serializeAll (.uint16 _)
      apply Field.concat_elements_eq_serializeAll hpolicy
      rfl

theorem returns_deserialize (sequenceNumber : UInt16) :
  (deserialize sequenceNumber).Returns Fits
  := by
  apply Returns.seq
  intro opCode
  split_ifs
  · exact Returns.seq fun result => Returns.seq fun additionalInfo => Returns.seq fun bucketValid =>
      Returns.seq fun dbCorrupted => Returns.pure trivial
  · exact Returns.seq fun responseCode => Returns.pure trivial
  · exact Returns.seq (length_lt_of_counted fun descriptions hdescriptions =>
      Returns.seq fun dbCorrupted => Returns.pure hdescriptions)
  · exact Returns.seq (length_lt_of_counted fun policies hpolicies =>
      Returns.seq fun bucketValid => Returns.seq fun dbCorrupted => Returns.pure hpolicies)
  · exact Returns.throw _

def responseCodec : Codec where
  Message := Response
  sequenceNumber := Response.sequenceNumber
  fields := responseFields
  serialize := serialize
  deserialize := deserialize
  Counted := Fits
  serialize_eq := serialize_eq
  inverts := inverts_deserialize
  counted response body rest _ happly := returns_deserialize _ body response rest happly

end ProtocolAdmin

/-! ### Agents -/

namespace ProtocolAgent

/-- The requests of agents: they register, and answer what they have been asked. -/
inductive Request where
  | action (type : UInt8) (data : Str) (sequenceNumber : UInt16)
  | register (agentType : Str) (sequenceNumber : UInt16)
deriving DecidableEq

/-- The responses to agents, which are also the questions to them. -/
inductive Response where
  | action (type : UInt8) (data : Str) (sequenceNumber : UInt16)
  | register (code : UInt16) (sequenceNumber : UInt16)
deriving DecidableEq

def Request.sequenceNumber : Request → UInt16
  | action _ _ sequenceNumber => sequenceNumber
  | register _ sequenceNumber => sequenceNumber

def Response.sequenceNumber : Response → UInt16
  | action _ _ sequenceNumber => sequenceNumber
  | register _ sequenceNumber => sequenceNumber

/-- The codes of the messages, which are their first bytes. -/
def OpAgentRegisterRequest : UInt8 := 40
def OpAgentRegisterResponse : UInt8 := 41
def OpAgentActionRequest : UInt8 := 42
def OpAgentActionResponse : UInt8 := 43

/-- A request of an agent as it is written. -/
def serializeRequest : Request → Except ProtocolException Str
  | .action type data _ =>
      concat [serializeUInt8 OpAgentActionRequest, serializeUInt8 type, serializeVector data]
  | .register agentType _ =>
      concat [serializeUInt8 OpAgentRegisterRequest, serializeString agentType]

/-- A response to an agent as it is written. -/
def serializeResponse : Response → Except ProtocolException Str
  | .action type data _ =>
      concat [serializeUInt8 OpAgentActionResponse, serializeUInt8 type, serializeVector data]
  | .register code _ => concat [serializeUInt8 OpAgentRegisterResponse, serializeUInt16 code]

def deserializeActionRequest (sequenceNumber : UInt16) : Decoder ProtocolException Request := do
  let requestType ← deserializeUInt8
  let data ← deserializeVector
  return .action requestType data sequenceNumber

def deserializeRegisterRequest (sequenceNumber : UInt16) : Decoder ProtocolException Request := do
  let agentType ← deserializeString
  return .register agentType sequenceNumber

def deserializeRequest (sequenceNumber : UInt16) : Decoder ProtocolException Request := do
  let opCode ← deserializeUInt8
  if opCode = OpAgentActionRequest then deserializeActionRequest sequenceNumber
  else if opCode = OpAgentRegisterRequest then deserializeRegisterRequest sequenceNumber
  else throw .wrongOpCode

def deserializeActionResponse (sequenceNumber : UInt16) : Decoder ProtocolException Response := do
  let responseType ← deserializeUInt8
  let data ← deserializeVector
  return .action responseType data sequenceNumber

def deserializeRegisterResponse (sequenceNumber : UInt16) :
    Decoder ProtocolException Response := do
  let result ← deserializeUInt16
  return .register result sequenceNumber

def deserializeResponse (sequenceNumber : UInt16) : Decoder ProtocolException Response := do
  let opCode ← deserializeUInt8
  if opCode = OpAgentActionResponse then deserializeActionResponse sequenceNumber
  else if opCode = OpAgentRegisterResponse then deserializeRegisterResponse sequenceNumber
  else throw .wrongOpCode

/-- The fields of a request. -/
def requestFields : Request → List Field
  | .action type data _ => [.uint8 OpAgentActionRequest, .uint8 type, .vector data]
  | .register agentType _ => [.uint8 OpAgentRegisterRequest, .string agentType]

/-- The fields of a response. -/
def responseFields : Response → List Field
  | .action type data _ => [.uint8 OpAgentActionResponse, .uint8 type, .vector data]
  | .register code _ => [.uint8 OpAgentRegisterResponse, .uint16 code]

theorem inverts_deserializeRequest (request : Request) :
  (deserializeRequest request.sequenceNumber).Inverts (serializeRequest request) request
  := by
  cases request with
  | action type data sequenceNumber =>
      apply Inverts.bind (inverts_uint8 _)
      apply Inverts.bind (inverts_uint8 _)
      apply Inverts.bind (inverts_vector _)
      apply Inverts.pure
  | register agentType sequenceNumber =>
      apply Inverts.bind (inverts_uint8 _)
      apply Inverts.bind (inverts_string _)
      apply Inverts.pure

theorem inverts_deserializeResponse (response : Response) :
  (deserializeResponse response.sequenceNumber).Inverts (serializeResponse response) response
  := by
  cases response with
  | action type data sequenceNumber =>
      apply Inverts.bind (inverts_uint8 _)
      apply Inverts.bind (inverts_uint8 _)
      apply Inverts.bind (inverts_vector _)
      apply Inverts.pure
  | register code sequenceNumber =>
      apply Inverts.bind (inverts_uint8 _)
      apply Inverts.bind (inverts_uint16 _)
      apply Inverts.pure

def requests : Codec where
  Message := Request
  sequenceNumber := Request.sequenceNumber
  fields := requestFields
  serialize := serializeRequest
  deserialize := deserializeRequest
  Counted _ := True
  serialize_eq request := by
    cases request with
    | action type data sequenceNumber => rfl
    | register agentType sequenceNumber => rfl
  inverts request _ := inverts_deserializeRequest request
  counted _ _ _ _ _ := trivial

def responseCodec : Codec where
  Message := Response
  sequenceNumber := Response.sequenceNumber
  fields := responseFields
  serialize := serializeResponse
  deserialize := deserializeResponse
  Counted _ := True
  serialize_eq response := by
    cases response with
    | action type data sequenceNumber => rfl
    | register code sequenceNumber => rfl
  inverts response _ := inverts_deserializeResponse response
  counted _ _ _ _ _ := trivial

end ProtocolAgent

/-! ### Entries of the monitor -/

namespace ProtocolMonitorGet

open ProtocolClient (serializeEntry deserializeEntry entryFields inverts_entry serializeEntry_eq)

/-- The requests of monitors: for entries, and for what there is. -/
inductive Request where
  | getEntries (bufferSize : UInt64) (sequenceNumber : UInt16)
  | getFlush (sequenceNumber : UInt16)
deriving DecidableEq

/-- The entries for a monitor. -/
inductive Response where
  | getEntries (entries : List MonitorEntry) (sequenceNumber : UInt16)
deriving DecidableEq

def Request.sequenceNumber : Request → UInt16
  | getEntries _ sequenceNumber => sequenceNumber
  | getFlush sequenceNumber => sequenceNumber

def Response.sequenceNumber : Response → UInt16
  | getEntries _ sequenceNumber => sequenceNumber

/-- The codes of the messages, which are their first bytes. -/
def OpMonitorGetEntriesRequest : UInt8 := 50
def OpMonitorGetEntriesResponse : UInt8 := 51
def OpMonitorGetFlushRequest : UInt8 := 52

/-- A request of a monitor as it is written. -/
def serializeRequest : Request → Except ProtocolException Str
  | .getEntries bufferSize _ =>
      concat [serializeUInt8 OpMonitorGetEntriesRequest, serializeUInt64 bufferSize]
  | .getFlush _ => concat [serializeUInt8 OpMonitorGetFlushRequest]

/-- The number of entries is cast to 16 bits. -/
def serializeResponse : Response → Except ProtocolException Str
  | .getEntries entries _ =>
      concat [serializeUInt8 OpMonitorGetEntriesResponse,
        serializeUInt16 (UInt16.ofNat entries.length), concat (entries.map serializeEntry)]

def deserializeMonitorGetEntriesRequest (sequenceNumber : UInt16) :
    Decoder ProtocolException Request := do
  let bufferSize ← deserializeUInt64
  return .getEntries bufferSize sequenceNumber

def deserializeMonitorGetFlushRequest (sequenceNumber : UInt16) :
    Decoder ProtocolException Request :=
  return .getFlush sequenceNumber

def deserializeRequest (sequenceNumber : UInt16) : Decoder ProtocolException Request := do
  let opCode ← deserializeUInt8
  if opCode = OpMonitorGetEntriesRequest then deserializeMonitorGetEntriesRequest sequenceNumber
  else if opCode = OpMonitorGetFlushRequest then deserializeMonitorGetFlushRequest sequenceNumber
  else throw .wrongOpCode

def deserializeMonitorGetEntriesResponse (sequenceNumber : UInt16) :
    Decoder ProtocolException Response := do
  let entriesCount ← deserializeUInt16
  let entries ← deserializeEntry.times entriesCount.toNat
  return .getEntries entries sequenceNumber

def deserializeResponse (sequenceNumber : UInt16) : Decoder ProtocolException Response := do
  let opCode ← deserializeUInt8
  if opCode = OpMonitorGetEntriesResponse then deserializeMonitorGetEntriesResponse sequenceNumber
  else throw .wrongOpCode

/-- The fields of a request. -/
def requestFields : Request → List Field
  | .getEntries bufferSize _ => [.uint8 OpMonitorGetEntriesRequest, .uint64 bufferSize]
  | .getFlush _ => [.uint8 OpMonitorGetFlushRequest]

/-- The fields of a response. -/
def responseFields : Response → List Field
  | .getEntries entries _ =>
      .uint8 OpMonitorGetEntriesResponse :: .uint16 (UInt16.ofNat entries.length)
        :: (entries.flatMap entryFields ++ [])

/-- The entries are not more than their number can say. -/
def ResponseCounted : Response → Prop
  | .getEntries entries _ => entries.length < 2 ^ 16

def requests : Codec where
  Message := Request
  sequenceNumber := Request.sequenceNumber
  fields := requestFields
  serialize := serializeRequest
  deserialize := deserializeRequest
  Counted _ := True
  serialize_eq request := by
    cases request with
    | getEntries bufferSize sequenceNumber => rfl
    | getFlush sequenceNumber => rfl
  inverts request _ := by
    cases request with
    | getEntries bufferSize sequenceNumber =>
        apply Inverts.bind (inverts_uint8 _)
        apply Inverts.bind (inverts_uint64 _)
        apply Inverts.pure
    | getFlush sequenceNumber =>
        apply Inverts.bind (inverts_uint8 _)
        apply Inverts.pure
  counted _ _ _ _ _ := trivial

theorem returns_deserializeResponse (sequenceNumber : UInt16) :
  (deserializeResponse sequenceNumber).Returns ResponseCounted
  := by
  apply Returns.seq
  intro opCode
  split_ifs
  · exact Returns.seq (length_lt_of_counted fun entries hentries => Returns.pure hentries)
  · exact Returns.throw _

def responseCodec : Codec where
  Message := Response
  sequenceNumber := Response.sequenceNumber
  fields := responseFields
  serialize := serializeResponse
  deserialize := deserializeResponse
  Counted := ResponseCounted
  serialize_eq response := by
    cases response with
    | getEntries entries sequenceNumber =>
        apply Field.concat_cons_eq_serializeAll (.uint8 _)
        apply Field.concat_cons_eq_serializeAll (.uint16 _)
        apply Field.concat_elements_eq_serializeAll serializeEntry_eq
        rfl
  inverts response hcounted := by
    cases response with
    | getEntries entries sequenceNumber =>
        apply Inverts.bind (inverts_uint8 _)
        apply Inverts.bind (inverts_uint16 _)
        apply Inverts.bind (ProtocolAdmin.inverts_elements inverts_entry hcounted)
        apply Inverts.pure
  counted response body rest _ happly := returns_deserializeResponse _ body response rest happly

end ProtocolMonitorGet

/-! ### Streams of messages -/

/-- The classes of protocols. -/
inductive Protocol where
  | client
  | admin
  | agent
  | monitorGet
deriving DecidableEq

/-- The direction of messages. -/
inductive Direction where
  | request
  | response
deriving DecidableEq

/-- The codec of a protocol in a direction. -/
def Protocol.codec : Protocol → Direction → Codec
  | client, .request => ProtocolClient.requests
  | client, .response => ProtocolClient.responseCodec
  | admin, .request => ProtocolAdmin.requests
  | admin, .response => ProtocolAdmin.responseCodec
  | agent, .request => ProtocolAgent.requests
  | agent, .response => ProtocolAgent.responseCodec
  | monitorGet, .request => ProtocolMonitorGet.requests
  | monitorGet, .response => ProtocolMonitorGet.responseCodec

/-- Messages within their limits are written to a stream, and a new receiver that gets the
stream in any fragments extracts exactly these messages and has no bytes left. -/
theorem receiveAll_frames (protocol : Protocol) (direction : Direction)
    (messages : List (protocol.codec direction).Message)
    (hfits : ∀ message ∈ messages, (protocol.codec direction).Fits message) :
  ∃ stream, (protocol.codec direction).frames messages = .ok stream
    ∧ ∀ fragments : List Str, fragments.flatten = stream → ∀ fuel > messages.length,
        ∃ r, Receiver.receiveAll (protocol.codec direction).deserialize fuel {} fragments
          = some ⟨messages, none, r⟩ ∧ r.Idle
  := by
  obtain ⟨stream, hstream⟩ := Codec.exists_frames hfits
  refine ⟨stream, hstream, fun fragments hfragments fuel hfuel => ?_⟩
  have hidle : ({} : Receiver).Idle := ⟨rfl, rfl, rfl⟩
  apply Codec.receiveAll_expects hfits (Codec.expects_of_idle hfits hidle) hstream _ hfuel
  rw [List.nil_append, hfragments]

/-- A check and its cancellation. -/
def cancelled : List ProtocolClient.Request :=
  [.check ⟨ofString "app", ofString "user", ofString "camera"⟩ 1, .cancel 1]

/-- The two requests arrive, for example with a fragment for each byte. -/
theorem receiveAll_cancelled :
  ∃ stream, ProtocolClient.requests.frames cancelled = .ok stream
    ∧ ∀ fragments : List Str, fragments.flatten = stream → ∀ fuel > 2,
        ∃ r, Receiver.receiveAll ProtocolClient.deserializeRequest fuel {} fragments
          = some ⟨cancelled, none, r⟩ ∧ r.Idle
  := by
  have hcheck : ProtocolClient.requests.Fits
      (.check ⟨ofString "app", ofString "user", ofString "camera"⟩ 1) := by
    refine ⟨?_, trivial, by decide⟩
    simp [Codec.Short, ProtocolClient.requests, ProtocolClient.requestFields,
      ProtocolClient.keyFields, Field.Short, ofString, maxIdLength]
  have hcancel : ProtocolClient.requests.Fits (.cancel 1) := by
    refine ⟨?_, trivial, by decide⟩
    simp [Codec.Short, ProtocolClient.requests, ProtocolClient.requestFields, Field.Short]
  apply receiveAll_frames .client .request cancelled
  exact List.forall_mem_cons.mpr ⟨hcheck, List.forall_mem_singleton.mpr hcancel⟩

/-! ### Messages of any size -/

/-- A message is refused or its frame is decoded to it, exactly when one of its strings is too
long or its lists and its length are counted. -/
theorem frame_decoded_iff (protocol : Protocol) (direction : Direction)
    (message : (protocol.codec direction).Message) :
  ((protocol.codec direction).frame message = .error .identifierTooLong
      ∨ ∃ frame r, (protocol.codec direction).frame message = .ok frame
        ∧ (({} : Receiver).append frame).extract (protocol.codec direction).deserialize
          = (.ok (some message), r))
    ↔ ¬ (protocol.codec direction).Short message
      ∨ (protocol.codec direction).Counted message
        ∧ Announced ((protocol.codec direction).size message)
  := by
  by_cases hshort : (protocol.codec direction).Short message
  · obtain ⟨body, hbody, hsize⟩ := Codec.serialize_of_short hshort
    simp only [hshort, not_true_eq_false, false_or, Codec.frame_eq_ok hbody, reduceCtorEq,
      Except.ok.injEq]
    rw [← hsize, ← Codec.extract_frame_iff hbody]
    constructor
    · rintro ⟨frame, r, rfl, hextract⟩
      exact ⟨r, hextract⟩
    · rintro ⟨r, hextract⟩
      exact ⟨_, r, rfl, hextract⟩
  · simp [hshort, Codec.frame_of_not_short hshort]

/-- A change with no policies for the default bucket. -/
def emptyGroup : ProtocolAdmin.Request :=
  .setPolicies ((∅ : ExtTreeMap PolicyBucketId (List Policy)).insert defaultPolicyBucketId []) ∅ 1

/-- A response with more policies than 16 bits can count. -/
def manyPolicies : ProtocolAdmin.Response :=
  .list (List.replicate (2 ^ 16) ⟨⟨[], [], []⟩, {}⟩) true false 1

theorem short_manyPolicies :
  ProtocolAdmin.responseCodec.Short manyPolicies
  := by
  intro field hfield
  have hpolicy : ∀ field ∈ ProtocolAdmin.policyFields ⟨⟨[], [], []⟩, {}⟩, field.Short := by
    simp [ProtocolAdmin.policyFields, ProtocolClient.keyFields, Field.Short]
  rcases List.mem_cons.mp hfield with rfl | hfield
  · trivial
  rcases List.mem_cons.mp hfield with rfl | hfield
  · trivial
  rcases List.mem_append.mp hfield with hfield | hfield
  · obtain ⟨policy, hmem, hfield⟩ := List.mem_flatMap.mp hfield
    rw [List.eq_of_mem_replicate hmem] at hfield
    exact hpolicy field hfield
  · rcases List.mem_pair.mp hfield with rfl | rfl
    · trivial
    · trivial

/-- A group without policies is lost, and a list of 65536 policies is not decoded to itself. -/
theorem frame_not_decoded :
  (∃ frame, ProtocolAdmin.requests.frame emptyGroup = .ok frame
      ∧ ((({} : Receiver).append frame).extract ProtocolAdmin.requests.deserialize).1
        = .ok (some (.setPolicies ∅ ∅ 1)) ∧ emptyGroup ≠ .setPolicies ∅ ∅ 1)
    ∧ ∃ frame, ProtocolAdmin.responseCodec.frame manyPolicies = .ok frame
      ∧ ∀ r, (({} : Receiver).append frame).extract ProtocolAdmin.responseCodec.deserialize
        ≠ (.ok (some manyPolicies), r)
  := by
  constructor
  · refine ⟨finishSerialization 1 [22, 1, 0, 0, 0, 0, 0, 0, 0, 0, 0], ?_, ?_, ?_⟩
    · rfl
    · rfl
    · decide
  · obtain ⟨body, hbody, -⟩ := Codec.serialize_of_short short_manyPolicies
    refine ⟨_, Codec.frame_eq_ok hbody, fun r hextract => ?_⟩
    have hcounted := (Codec.extract_frame_iff hbody).mp ⟨r, hextract⟩
    have hlength : (List.replicate (2 ^ 16) (⟨⟨[], [], []⟩, {}⟩ : Policy)).length < 2 ^ 16 :=
      hcounted.1
    rw [List.length_replicate] at hlength
    exact lt_irrefl _ hlength

end Cynara
