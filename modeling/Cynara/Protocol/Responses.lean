import Cynara.Protocol.Frame
import Cynara.Types.Policy

/-!
# Responses of the service

The service answers clients and administrators with responses of several kinds; the first
field of the body tells them apart.  The lists in the responses to an administrator are
preceded by their lengths, which are written with 16 bits.  A response whose lists are not
longer than that is decoded to itself.
-/

namespace Cynara

open Str Decoder ProtocolSerialization ProtocolDeserialization ProtocolFrameHeader
  ProtocolFrameSerializer

/-! ### Responses to clients -/

namespace ProtocolClient

/-- The responses to clients. -/
inductive Response where
  | cancel (sequenceNumber : UInt16)
  | check (result : PolicyResult) (sequenceNumber : UInt16)
  | simpleCheck (retValue : Int32) (result : PolicyResult) (sequenceNumber : UInt16)
deriving DecidableEq

def Response.sequenceNumber : Response → UInt16
  | cancel sequenceNumber => sequenceNumber
  | check _ sequenceNumber => sequenceNumber
  | simpleCheck _ _ sequenceNumber => sequenceNumber

/-- The codes of the responses, which are their first bytes. -/
def OpCheckPolicyResponse : UInt8 := 1
def OpCancelResponse : UInt8 := 3
def OpSimpleCheckPolicyResponse : UInt8 := 5

/-- A response to a client as it is written. -/
def serialize : Response → Except ProtocolException Str
  | .cancel _ => concat [serializeUInt8 OpCancelResponse]
  | .check result _ =>
      concat [serializeUInt8 OpCheckPolicyResponse, serializeUInt16 result.policyType,
        serializeString result.metadata]
  | .simpleCheck retValue result _ =>
      concat [serializeUInt8 OpSimpleCheckPolicyResponse, serializeInt32 retValue,
        serializeUInt16 result.policyType, serializeString result.metadata]

def deserializeCancelResponse (sequenceNumber : UInt16) : Decoder ProtocolException Response :=
  return .cancel sequenceNumber

def deserializeCheckResponse (sequenceNumber : UInt16) : Decoder ProtocolException Response := do
  let result ← deserializeUInt16
  let additionalInfo ← deserializeString
  return .check ⟨result, additionalInfo⟩ sequenceNumber

def deserializeSimpleCheckResponse (sequenceNumber : UInt16) :
    Decoder ProtocolException Response := do
  let retValue ← deserializeInt32
  let result ← deserializeUInt16
  let additionalInfo ← deserializeString
  return .simpleCheck retValue ⟨result, additionalInfo⟩ sequenceNumber

def deserialize (sequenceNumber : UInt16) : Decoder ProtocolException Response := do
  let opCode ← deserializeUInt8
  if opCode = OpCheckPolicyResponse then deserializeCheckResponse sequenceNumber
  else if opCode = OpCancelResponse then deserializeCancelResponse sequenceNumber
  else if opCode = OpSimpleCheckPolicyResponse then deserializeSimpleCheckResponse sequenceNumber
  else throw .wrongOpCode

theorem inverts_deserialize (response : Response) :
  (deserialize response.sequenceNumber).Inverts (serialize response) response
  := by
  cases response with
  | cancel sequenceNumber =>
      apply Inverts.bind (inverts_uint8 _)
      apply Inverts.pure
  | check result sequenceNumber =>
      apply Inverts.bind (inverts_uint8 _)
      apply Inverts.bind (inverts_uint16 _)
      apply Inverts.bind (inverts_string _)
      apply Inverts.pure
  | simpleCheck retValue result sequenceNumber =>
      apply Inverts.bind (inverts_uint8 _)
      apply Inverts.bind (inverts_int32 _)
      apply Inverts.bind (inverts_uint16 _)
      apply Inverts.bind (inverts_string _)
      apply Inverts.pure

end ProtocolClient

/-! ### Responses to administrators -/

namespace ProtocolAdmin

/-- The responses to administrators. -/
inductive Response where
  | adminCheck (result : PolicyResult) (bucketValid dbCorrupted : Bool) (sequenceNumber : UInt16)
  | code (code : UInt16) (sequenceNumber : UInt16)
  | descriptionList (descriptions : List PolicyDescription) (dbCorrupted : Bool)
      (sequenceNumber : UInt16)
  | list (policies : List Policy) (bucketValid dbCorrupted : Bool) (sequenceNumber : UInt16)
deriving DecidableEq

def Response.sequenceNumber : Response → UInt16
  | adminCheck _ _ _ sequenceNumber => sequenceNumber
  | code _ sequenceNumber => sequenceNumber
  | descriptionList _ _ sequenceNumber => sequenceNumber
  | list _ _ _ sequenceNumber => sequenceNumber

/-- The codes of the responses, which are their first bytes. -/
def OpCodeResponse : UInt8 := 23
def OpListResponse : UInt8 := 26
def OpAdminCheckPolicyResponse : UInt8 := 27
def OpDescriptionListResponse : UInt8 := 30

def serializeDescription (desc : PolicyDescription) : Except ProtocolException Str :=
  concat [serializeUInt16 desc.type, serializeString desc.name]

/-- A policy is written as its key, its type and its metadata. -/
def serializePolicy (policy : Policy) : Except ProtocolException Str :=
  concat [serializeString policy.key.client, serializeString policy.key.user,
    serializeString policy.key.privilege, serializeUInt16 policy.result.policyType,
    serializeString policy.result.metadata]

/-- The lengths of the lists are cast to 16 bits. -/
def serialize : Response → Except ProtocolException Str
  | .adminCheck result bucketValid dbCorrupted _ =>
      concat [serializeUInt8 OpAdminCheckPolicyResponse, serializeUInt16 result.policyType,
        serializeString result.metadata, serializeBool bucketValid, serializeBool dbCorrupted]
  | .code code _ => concat [serializeUInt8 OpCodeResponse, serializeUInt16 code]
  | .descriptionList descriptions dbCorrupted _ =>
      concat [serializeUInt8 OpDescriptionListResponse,
        serializeUInt16 (UInt16.ofNat descriptions.length),
        concat (descriptions.map serializeDescription), serializeBool dbCorrupted]
  | .list policies bucketValid dbCorrupted _ =>
      concat [serializeUInt8 OpListResponse, serializeUInt16 (UInt16.ofNat policies.length),
        concat (policies.map serializePolicy), serializeBool bucketValid,
        serializeBool dbCorrupted]

def deserializeAdminCheckResponse (sequenceNumber : UInt16) :
    Decoder ProtocolException Response := do
  let result ← deserializeUInt16
  let additionalInfo ← deserializeString
  let bucketValid ← deserializeBool
  let dbCorrupted ← deserializeBool
  return .adminCheck ⟨result, additionalInfo⟩ bucketValid dbCorrupted sequenceNumber

def deserializeCodeResponse (sequenceNumber : UInt16) : Decoder ProtocolException Response := do
  let responseCode ← deserializeUInt16
  return .code responseCode sequenceNumber

def deserializeDescription : Decoder ProtocolException PolicyDescription := do
  let type ← deserializeUInt16
  let name ← deserializeString
  return ⟨type, name⟩

def deserializeDescriptionListResponse (sequenceNumber : UInt16) :
    Decoder ProtocolException Response := do
  let descriptionsCount ← deserializeUInt16
  let descriptions ← deserializeDescription.times descriptionsCount.toNat
  let dbCorrupted ← deserializeBool
  return .descriptionList descriptions dbCorrupted sequenceNumber

/-- A policy; its type is not checked here. -/
def deserializePolicy : Decoder ProtocolException Policy := do
  let client ← deserializeString
  let user ← deserializeString
  let privilege ← deserializeString
  let policyType ← deserializeUInt16
  let metadata ← deserializeString
  return ⟨⟨client, user, privilege⟩, ⟨policyType, metadata⟩⟩

def deserializeListResponse (sequenceNumber : UInt16) : Decoder ProtocolException Response := do
  let policiesCount ← deserializeUInt16
  let policies ← deserializePolicy.times policiesCount.toNat
  let bucketValid ← deserializeBool
  let dbCorrupted ← deserializeBool
  return .list policies bucketValid dbCorrupted sequenceNumber

def deserialize (sequenceNumber : UInt16) : Decoder ProtocolException Response := do
  let opCode ← deserializeUInt8
  if opCode = OpAdminCheckPolicyResponse then deserializeAdminCheckResponse sequenceNumber
  else if opCode = OpCodeResponse then deserializeCodeResponse sequenceNumber
  else if opCode = OpDescriptionListResponse then
    deserializeDescriptionListResponse sequenceNumber
  else if opCode = OpListResponse then deserializeListResponse sequenceNumber
  else throw .wrongOpCode

/-- The lists are not longer than their lengths can say. -/
def Fits : Response → Prop
  | .descriptionList descriptions _ _ => descriptions.length < 2 ^ 16
  | .list policies _ _ _ => policies.length < 2 ^ 16
  | _ => True

theorem inverts_description (desc : PolicyDescription) :
  deserializeDescription.Inverts (serializeDescription desc) desc
  := by
  apply Inverts.bind (inverts_uint16 _)
  apply Inverts.bind (inverts_string _)
  apply Inverts.pure

theorem inverts_policy (policy : Policy) :
  deserializePolicy.Inverts (serializePolicy policy) policy
  := by
  apply Inverts.bind (inverts_string _)
  apply Inverts.bind (inverts_string _)
  apply Inverts.bind (inverts_string _)
  apply Inverts.bind (inverts_uint16 _)
  apply Inverts.bind (inverts_string _)
  apply Inverts.pure

/-- As many elements are decoded as there are, if their number has 16 bits. -/
theorem inverts_elements {α : Type} {d : Decoder ProtocolException α}
    {encode : α → Except ProtocolException Str} (h : ∀ a, d.Inverts (encode a) a) {as : List α}
    (has : as.length < 2 ^ 16) :
  (d.times (UInt16.ofNat as.length).toNat).Inverts (concat (as.map encode)) as
  := by
  rw [UInt16.toNat_ofNat', Nat.mod_eq_of_lt has]
  apply inverts_times as
  intro a _
  apply h

/-- What is written is read, unless there are too many elements. -/
theorem inverts_deserialize (response : Response) (hfits : Fits response) :
  (deserialize response.sequenceNumber).Inverts (serialize response) response
  := by
  cases response with
  | adminCheck result bucketValid dbCorrupted sequenceNumber =>
      apply Inverts.bind (inverts_uint8 _)
      apply Inverts.bind (inverts_uint16 _)
      apply Inverts.bind (inverts_string _)
      apply Inverts.bind (inverts_bool _)
      apply Inverts.bind (inverts_bool _)
      apply Inverts.pure
  | code code sequenceNumber =>
      apply Inverts.bind (inverts_uint8 _)
      apply Inverts.bind (inverts_uint16 _)
      apply Inverts.pure
  | descriptionList descriptions dbCorrupted sequenceNumber =>
      apply Inverts.bind (inverts_uint8 _)
      apply Inverts.bind (inverts_uint16 _)
      apply Inverts.bind (inverts_elements inverts_description hfits)
      apply Inverts.bind (inverts_bool _)
      apply Inverts.pure
  | list policies bucketValid dbCorrupted sequenceNumber =>
      apply Inverts.bind (inverts_uint8 _)
      apply Inverts.bind (inverts_uint16 _)
      apply Inverts.bind (inverts_elements inverts_policy hfits)
      apply Inverts.bind (inverts_bool _)
      apply Inverts.bind (inverts_bool _)
      apply Inverts.pure

end ProtocolAdmin

end Cynara
