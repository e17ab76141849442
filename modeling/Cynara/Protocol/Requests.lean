import Cynara.Library.Maps
import Cynara.Protocol.Codec
import Cynara.Protocol.Responses

/-!
# Requests of clients and administrators

Clients send checks, cancellations of checks and entries of the monitor.  Administrators send
changes of buckets and policies, and questions about them.  The policies of a change are
grouped by buckets: a group is written with the id of its bucket, its length and its elements,
and the receiver appends each element it reads to the list of the bucket.

A list that has more elements than its length can say, or a group without elements, is not
read as it was written.
-/

namespace Cynara

open Std Str Decoder ProtocolSerialization ProtocolDeserialization

/-! ### Keys and entries -/

namespace ProtocolClient

/-- A key is written as three texts. -/
def serializeKey (key : PolicyKey) : List (Except ProtocolException Str) :=
  [serializeString key.client, serializeString key.user, serializeString key.privilege]

/-- A key, in the order in which it was written. -/
def deserializeKey : Decoder ProtocolException PolicyKey := do
  let clientId ← deserializeString
  let userId ← deserializeString
  let privilegeId ← deserializeString
  return ⟨clientId, userId, privilegeId⟩

def keyFields (key : PolicyKey) : List Field :=
  [.string key.client, .string key.user, .string key.privilege]

theorem inverts_key (key : PolicyKey) :
  deserializeKey.Inverts (concat (serializeKey key)) key
  := by
  apply Inverts.bind (inverts_string _)
  apply Inverts.bind (inverts_string _)
  apply Inverts.bind (inverts_string _)
  apply Inverts.pure

/-- The result and the time of an entry are cast to 64 bits. -/
def serializeEntry (entry : MonitorEntry) : Except ProtocolException Str :=
  concat (serializeKey entry.key ++ [serializeInt64 entry.result.toInt64,
    serializeInt64 entry.tv_sec, serializeInt64 entry.tv_nsec])

/-- An entry of the monitor; the result is written with eight bytes. -/
def deserializeEntry : Decoder ProtocolException MonitorEntry := do
  let key ← deserializeKey
  let result ← deserializeInt64
  let tv_sec ← deserializeInt64
  let tv_nsec ← deserializeInt64
  return ⟨key, result.toInt32, tv_sec, tv_nsec⟩

def entryFields (entry : MonitorEntry) : List Field :=
  keyFields entry.key ++ [.int64 entry.result.toInt64, .int64 entry.tv_sec, .int64 entry.tv_nsec]

theorem serializeEntry_eq (entry : MonitorEntry) :
  serializeEntry entry = Field.serializeAll (entryFields entry)
  := rfl

theorem inverts_entry (entry : MonitorEntry) :
  deserializeEntry.Inverts (serializeEntry entry) entry
  := by
  apply Inverts.append (inverts_key _)
  apply Inverts.bind (inverts_int64 _)
  apply Inverts.bind (inverts_int64 _)
  apply Inverts.bind (inverts_int64 _)
  rw [Int32.toInt32_toInt64]
  apply Inverts.pure

end ProtocolClient

/-- A list that has been read is not longer than its length can say. -/
theorem length_lt_of_counted {α β : Type} {d : Decoder ProtocolException α}
    {f : List α → Decoder ProtocolException β} {P : β → Prop}
    (hf : ∀ as : List α, as.length < 2 ^ 16 → (f as).Returns P) (count : UInt16) :
  (d.times count.toNat >>= f).Returns P
  := by
  refine Returns.bind (returns_times d count.toNat) fun as has => hf as ?_
  rw [has]
  exact count.toNat_lt

/-! ### Requests of clients -/

namespace ProtocolClient

/-- The requests of clients. -/
inductive Request where
  | cancel (sequenceNumber : UInt16)
  | check (key : PolicyKey) (sequenceNumber : UInt16)
  | simpleCheck (key : PolicyKey) (sequenceNumber : UInt16)
  | monitorEntriesPut (monitorEntries : List MonitorEntry) (sequenceNumber : UInt16)
  | monitorEntryPut (monitorEntry : MonitorEntry) (sequenceNumber : UInt16)
deriving DecidableEq

def Request.sequenceNumber : Request → UInt16
  | cancel sequenceNumber => sequenceNumber
  | check _ sequenceNumber => sequenceNumber
  | simpleCheck _ sequenceNumber => sequenceNumber
  | monitorEntriesPut _ sequenceNumber => sequenceNumber
  | monitorEntryPut _ sequenceNumber => sequenceNumber

/-- The codes of the requests, which are their first bytes. -/
def OpCheckPolicyRequest : UInt8 := 0
def OpCancelRequest : UInt8 := 2
def OpSimpleCheckPolicyRequest : UInt8 := 4
def OpMonitorEntriesPutRequest : UInt8 := 6
def OpMonitorEntryPutRequest : UInt8 := 7

/-- The number of entries is cast to 16 bits. -/
def serializeRequest : Request → Except ProtocolException Str
  | .cancel _ => concat [serializeUInt8 OpCancelRequest]
  | .check key _ => concat (serializeUInt8 OpCheckPolicyRequest :: serializeKey key)
  | .simpleCheck key _ => concat (serializeUInt8 OpSimpleCheckPolicyRequest :: serializeKey key)
  | .monitorEntriesPut entries _ =>
      concat [serializeUInt8 OpMonitorEntriesPutRequest,
        serializeUInt16 (UInt16.ofNat entries.length), concat (entries.map serializeEntry)]
  | .monitorEntryPut entry _ =>
      concat [serializeUInt8 OpMonitorEntryPutRequest, serializeEntry entry]

def deserializeCancelRequest (sequenceNumber : UInt16) : Decoder ProtocolException Request :=
  return .cancel sequenceNumber

def deserializeCheckRequest (sequenceNumber : UInt16) : Decoder ProtocolException Request := do
  let key ← deserializeKey
  return .check key sequenceNumber

def deserializeSimpleCheckRequest (sequenceNumber : UInt16) :
    Decoder ProtocolException Request := do
  let key ← deserializeKey
  return .simpleCheck key sequenceNumber

def deserializeMonitorEntriesPutRequest (sequenceNumber : UInt16) :
    Decoder ProtocolException Request := do
  let entriesCount ← deserializeUInt16
  let entries ← deserializeEntry.times entriesCount.toNat
  return .monitorEntriesPut entries sequenceNumber

def deserializeMonitorEntryPutRequest (sequenceNumber : UInt16) :
    Decoder ProtocolException Request := do
  let entry ← deserializeEntry
  return .monitorEntryPut entry sequenceNumber

def deserializeRequest (sequenceNumber : UInt16) : Decoder ProtocolException Request := do
  let opCode ← deserializeUInt8
  if opCode = OpCheckPolicyRequest then deserializeCheckRequest sequenceNumber
  else if opCode = OpCancelRequest then deserializeCancelRequest sequenceNumber
  else if opCode = OpSimpleCheckPolicyRequest then deserializeSimpleCheckRequest sequenceNumber
  else if opCode = OpMonitorEntriesPutRequest then
    deserializeMonitorEntriesPutRequest sequenceNumber
  else if opCode = OpMonitorEntryPutRequest then deserializeMonitorEntryPutRequest sequenceNumber
  else throw .wrongOpCode

/-- The fields of a request. -/
def requestFields : Request → List Field
  | .cancel _ => [.uint8 OpCancelRequest]
  | .check key _ => .uint8 OpCheckPolicyRequest :: keyFields key
  | .simpleCheck key _ => .uint8 OpSimpleCheckPolicyRequest :: keyFields key
  | .monitorEntriesPut entries _ =>
      .uint8 OpMonitorEntriesPutRequest :: .uint16 (UInt16.ofNat entries.length)
        :: (entries.flatMap entryFields ++ [])
  | .monitorEntryPut entry _ => .uint8 OpMonitorEntryPutRequest :: entryFields entry

/-- The entries are not more than their number can say. -/
def RequestCounted : Request → Prop
  | .monitorEntriesPut entries _ => entries.length < 2 ^ 16
  | _ => True

theorem serializeRequest_eq (request : Request) :
  serializeRequest request = Field.serializeAll (requestFields request)
  := by
  cases request with
  | cancel sequenceNumber => rfl
  | check key sequenceNumber => rfl
  | simpleCheck key sequenceNumber => rfl
  | monitorEntriesPut entries sequenceNumber =>
      apply Field.concat_cons_eq_serializeAll (.uint8 _)
      apply Field.concat_cons_eq_serializeAll (.uint16 _)
      apply Field.concat_elements_eq_serializeAll serializeEntry_eq
      rfl
  | monitorEntryPut entry sequenceNumber =>
      apply Field.concat_cons_eq_serializeAll (.uint8 _)
      rw [serializeEntry, concat_concat_cons, List.append_nil]
      rfl

/-- What is written is read, unless there are too many entries. -/
theorem inverts_deserializeRequest (request : Request) (hcounted : RequestCounted request) :
  (deserializeRequest request.sequenceNumber).Inverts (serializeRequest request) request
  := by
  cases request with
  | cancel sequenceNumber =>
      apply Inverts.bind (inverts_uint8 _)
      apply Inverts.pure
  | check key sequenceNumber =>
      apply Inverts.bind (inverts_uint8 _)
      apply Inverts.map (fun key => Request.check key sequenceNumber) (inverts_key key)
  | simpleCheck key sequenceNumber =>
      apply Inverts.bind (inverts_uint8 _)
      apply Inverts.map (fun key => Request.simpleCheck key sequenceNumber) (inverts_key key)
  | monitorEntriesPut entries sequenceNumber =>
      apply Inverts.bind (inverts_uint8 _)
      apply Inverts.bind (inverts_uint16 _)
      apply Inverts.bind (ProtocolAdmin.inverts_elements inverts_entry hcounted)
      apply Inverts.pure
  | monitorEntryPut entry sequenceNumber =>
      apply Inverts.bind (inverts_uint8 _)
      apply Inverts.bind (inverts_entry _)
      apply Inverts.pure

theorem returns_deserializeRequest (sequenceNumber : UInt16) :
  (deserializeRequest sequenceNumber).Returns RequestCounted
  := by
  apply Returns.seq
  intro opCode
  split_ifs
  · exact Returns.seq fun key => Returns.pure trivial
  · exact Returns.pure trivial
  · exact Returns.seq fun key => Returns.pure trivial
  · exact Returns.seq (length_lt_of_counted fun entries hentries => Returns.pure hentries)
  · exact Returns.seq fun entry => Returns.pure trivial
  · exact Returns.throw _

/-- The requests of a client. -/
def requests : Codec where
  Message := Request
  sequenceNumber := Request.sequenceNumber
  fields := requestFields
  serialize := serializeRequest
  deserialize := deserializeRequest
  Counted := RequestCounted
  serialize_eq := serializeRequest_eq
  inverts := inverts_deserializeRequest
  counted request body rest _ happly := returns_deserializeRequest _ body request rest happly

end ProtocolClient

/-! ### Policies grouped by buckets -/

namespace ProtocolAdmin

variable {α : Type} {d : Decoder ProtocolException α} {encode : α → Except ProtocolException Str}

/-- A group: the id of a bucket, and elements whose number is cast to 16 bits. -/
def serializeGroup (encode : α → Except ProtocolException Str) (group : PolicyBucketId × List α) :
    Except ProtocolException Str :=
  concat [serializeString group.1, serializeUInt16 (UInt16.ofNat group.2.length),
    concat (group.2.map encode)]

/-- The groups of a map in the order of the ids; their number is cast to 16 bits. -/
def serializeGroups (encode : α → Except ProtocolException Str)
    (groups : ExtTreeMap PolicyBucketId (List α)) : List (Except ProtocolException Str) :=
  [serializeUInt16 (UInt16.ofNat groups.size), concat (groups.toList.map (serializeGroup encode))]

/-- The policies or keys for one bucket. -/
def deserializeGroup (element : Decoder ProtocolException α) :
    Decoder ProtocolException (PolicyBucketId × List α) := do
  let policyBucketId ← deserializeString
  let policyCount ← deserializeUInt16
  let policies ← element.times policyCount.toNat
  return (policyBucketId, policies)

/-- The elements of the groups are appended to the lists of their buckets. -/
def deserializeGroups (element : Decoder ProtocolException α) :
    Decoder ProtocolException (ExtTreeMap PolicyBucketId (List α)) := do
  let count ← deserializeUInt16
  let groups ← (deserializeGroup element).times count.toNat
  return .collect groups

def groupFields (elementFields : α → List Field) (group : PolicyBucketId × List α) : List Field :=
  .string group.1 :: .uint16 (UInt16.ofNat group.2.length) :: (group.2.flatMap elementFields ++ [])

def groupsFields (elementFields : α → List Field) (groups : ExtTreeMap PolicyBucketId (List α)) :
    List Field :=
  .uint16 (UInt16.ofNat groups.size) :: groups.toList.flatMap (groupFields elementFields)

/-- The groups and their elements are not more than their numbers can say, and no group is
empty. -/
structure GroupsCounted (groups : ExtTreeMap PolicyBucketId (List α)) : Prop where
  size : groups.size < 2 ^ 16
  length : ∀ (id : PolicyBucketId) elements, groups[id]? = some elements →
    elements.length < 2 ^ 16
  ne_nil : ∀ (id : PolicyBucketId) elements, groups[id]? = some elements → elements ≠ []

theorem serializeGroup_eq {elementFields : α → List Field}
    (hencode : ∀ a, encode a = Field.serializeAll (elementFields a))
    (group : PolicyBucketId × List α) :
  serializeGroup encode group = Field.serializeAll (groupFields elementFields group)
  := by
  apply Field.concat_cons_eq_serializeAll (.string _)
  apply Field.concat_cons_eq_serializeAll (.uint16 _)
  apply Field.concat_elements_eq_serializeAll hencode
  rfl

/-- Groups are written before other fields. -/
theorem serializeGroups_eq {elementFields : α → List Field}
    (hencode : ∀ a, encode a = Field.serializeAll (elementFields a))
    (groups : ExtTreeMap PolicyBucketId (List α)) {fields : List Field}
    {pieces : List (Except ProtocolException Str)} (h : concat pieces = Field.serializeAll fields) :
  concat (serializeGroups encode groups ++ pieces)
    = Field.serializeAll (groupsFields elementFields groups ++ fields)
  := by
  apply Field.concat_cons_eq_serializeAll (.uint16 _)
  apply Field.concat_elements_eq_serializeAll (serializeGroup_eq hencode) _ h

theorem inverts_group (h : ∀ a, d.Inverts (encode a) a) {group : PolicyBucketId × List α}
    (hgroup : group.2.length < 2 ^ 16) :
  (deserializeGroup d).Inverts (serializeGroup encode group) group
  := by
  apply Inverts.bind (inverts_string _)
  apply Inverts.bind (inverts_uint16 _)
  apply Inverts.bind (inverts_elements h hgroup)
  apply Inverts.pure

theorem inverts_groups (h : ∀ a, d.Inverts (encode a) a)
    {groups : ExtTreeMap PolicyBucketId (List α)} (hgroups : GroupsCounted groups) :
  (deserializeGroups d).Inverts (concat (serializeGroups encode groups)) groups
  := by
  have hcount : (UInt16.ofNat groups.size).toNat = groups.toList.length := by
    rw [UInt16.toNat_ofNat', Nat.mod_eq_of_lt hgroups.size, ExtTreeMap.length_toList]
  have htimes : ((deserializeGroup d).times groups.toList.length).Inverts
      (concat (groups.toList.map (serializeGroup encode))) groups.toList := by
    apply inverts_times
    intro group hgroup
    apply inverts_group h
    apply hgroups.length group.1 group.2
    exact ExtTreeMap.mem_toList_iff_getElem?_eq_some.mp hgroup
  apply Inverts.bind (inverts_uint16 _)
  rw [hcount]
  apply Inverts.bind htimes
  rw [ExtTreeMap.collect_toList groups hgroups.ne_nil]
  apply Inverts.pure

/-- Groups that are read as they were written are counted. -/
theorem groupsCounted_of_apply {groups : ExtTreeMap PolicyBucketId (List α)} {bytes more rest : Str}
    (hbytes : concat (serializeGroups encode groups) = .ok bytes)
    (happly : (deserializeGroups d).apply (bytes ++ more) = (.ok groups, rest)) :
  GroupsCounted groups
  := by
  obtain ⟨count, elements, hcount, -, rfl⟩ := concat_cons_eq_ok.mp hbytes
  have hreturns : (do
      let groups ← (deserializeGroup d).times (UInt16.ofNat groups.size).toNat
      return .collect groups : Decoder ProtocolException _).Returns
        fun groups' : ExtTreeMap PolicyBucketId (List α) => ∃ read,
          groups' = .collect read ∧ read.length = (UInt16.ofNat groups.size).toNat
            ∧ ∀ group ∈ read, group.2.length < 2 ^ 16 := by
    have hgroup : (deserializeGroup d).Returns fun group => group.2.length < 2 ^ 16 :=
      Returns.seq fun id => Returns.seq (length_lt_of_counted fun as has => Returns.pure has)
    refine Returns.bind ((returns_times _ _).and (hgroup.times _)) fun read hread => ?_
    exact Returns.pure ⟨read, rfl, hread⟩
  rw [deserializeGroups, List.append_assoc, apply_bind, inverts_uint16 _ _ hcount] at happly
  obtain ⟨read, hcollect, hread, hshort⟩ := hreturns _ _ _ happly
  obtain ⟨hle, hmem⟩ := ExtTreeMap.mem_of_collect read
  rw [← hcollect, hread, UInt16.toNat_ofNat'] at hle hmem
  have hsize : groups.size < 2 ^ 16 := hle.trans_lt (Nat.mod_lt _ (by norm_num))
  rw [Nat.mod_eq_of_lt hsize] at hmem
  constructor
  · exact hsize
  · intro id elements helements
    exact hshort _ (hmem rfl id elements helements)
  · intro id elements helements
    rw [hcollect] at helements
    exact ExtTreeMap.ne_nil_of_collect read helements

/-! ### Requests of administrators -/

/-- The requests of administrators. -/
inductive Request where
  | adminCheck (key : PolicyKey) (startBucket : PolicyBucketId) (recursive : Bool)
      (sequenceNumber : UInt16)
  | descriptionList (sequenceNumber : UInt16)
  | erase (startBucket : PolicyBucketId) (recursive : Bool) (filter : PolicyKey)
      (sequenceNumber : UInt16)
  | insertOrUpdateBucket (bucketId : PolicyBucketId) (result : PolicyResult)
      (sequenceNumber : UInt16)
  | list (bucket : PolicyBucketId) (filter : PolicyKey) (sequenceNumber : UInt16)
  | removeBucket (bucketId : PolicyBucketId) (sequenceNumber : UInt16)
  | setPolicies (policiesToBeInsertedOrUpdated : ExtTreeMap PolicyBucketId (List Policy))
      (policiesToBeRemoved : ExtTreeMap PolicyBucketId (List PolicyKey)) (sequenceNumber : UInt16)
deriving DecidableEq

def Request.sequenceNumber : Request → UInt16
  | adminCheck _ _ _ sequenceNumber => sequenceNumber
  | descriptionList sequenceNumber => sequenceNumber
  | erase _ _ _ sequenceNumber => sequenceNumber
  | insertOrUpdateBucket _ _ sequenceNumber => sequenceNumber
  | list _ _ sequenceNumber => sequenceNumber
  | removeBucket _ sequenceNumber => sequenceNumber
  | setPolicies _ _ sequenceNumber => sequenceNumber

/-- The codes of the requests, which are their first bytes. -/
def OpInsertOrUpdateBucket : UInt8 := 20
def OpRemoveBucket : UInt8 := 21
def OpSetPolicies : UInt8 := 22
def OpAdminCheckRequest : UInt8 := 24
def OpListRequest : UInt8 := 25
def OpEraseRequest : UInt8 := 28
def OpDescriptionListRequest : UInt8 := 29

open ProtocolClient (serializeKey deserializeKey keyFields inverts_key)

/-- A request of an administrator as it is written. -/
def serializeRequest : Request → Except ProtocolException Str
  | .adminCheck key startBucket recursive _ =>
      concat (serializeUInt8 OpAdminCheckRequest :: serializeKey key
        ++ [serializeString startBucket, serializeBool recursive])
  | .descriptionList _ => concat [serializeUInt8 OpDescriptionListRequest]
  | .erase startBucket recursive filter _ =>
      concat (serializeUInt8 OpEraseRequest :: serializeString startBucket
        :: serializeBool recursive :: serializeKey filter)
  | .insertOrUpdateBucket bucketId result _ =>
      concat [serializeUInt8 OpInsertOrUpdateBucket, serializeString bucketId,
        serializeUInt16 result.policyType, serializeString result.metadata]
  | .list bucket filter _ =>
      concat (serializeUInt8 OpListRequest :: serializeString bucket :: serializeKey filter)
  | .removeBucket bucketId _ => concat [serializeUInt8 OpRemoveBucket, serializeString bucketId]
  | .setPolicies inserted removed _ =>
      concat (serializeUInt8 OpSetPolicies :: (serializeGroups serializePolicy inserted
        ++ serializeGroups (fun key => concat (serializeKey key)) removed))

def deserializeAdminCheckRequest (sequenceNumber : UInt16) :
    Decoder ProtocolException Request := do
  let key ← deserializeKey
  let startBucket ← deserializeString
  let recursive ← deserializeBool
  return .adminCheck key startBucket recursive sequenceNumber

def deserializeDescriptionListRequest (sequenceNumber : UInt16) :
    Decoder ProtocolException Request :=
  return .descriptionList sequenceNumber

def deserializeEraseRequest (sequenceNumber : UInt16) : Decoder ProtocolException Request := do
  let startBucket ← deserializeString
  let recursive ← deserializeBool
  let filter ← deserializeKey
  return .erase startBucket recursive filter sequenceNumber

def deserializeInsertOrUpdateBucketRequest (sequenceNumber : UInt16) :
    Decoder ProtocolException Request := do
  let policyBucketId ← deserializeString
  let policyType ← deserializeUInt16
  let policyMetaData ← deserializeString
  return .insertOrUpdateBucket policyBucketId ⟨policyType, policyMetaData⟩ sequenceNumber

def deserializeListRequest (sequenceNumber : UInt16) : Decoder ProtocolException Request := do
  let bucketId ← deserializeString
  let filter ← deserializeKey
  return .list bucketId filter sequenceNumber

def deserializeRemoveBucketRequest (sequenceNumber : UInt16) :
    Decoder ProtocolException Request := do
  let policyBucketId ← deserializeString
  return .removeBucket policyBucketId sequenceNumber

/-- The policies to insert, and the keys of those to remove. -/
def deserializeSetPoliciesRequest (sequenceNumber : UInt16) :
    Decoder ProtocolException Request := do
  let toBeInsertedOrUpdatedPolicies ← deserializeGroups deserializePolicy
  let toBeRemovedPolicies ← deserializeGroups deserializeKey
  return .setPolicies toBeInsertedOrUpdatedPolicies toBeRemovedPolicies sequenceNumber

def deserializeRequest (sequenceNumber : UInt16) : Decoder ProtocolException Request := do
  let opCode ← deserializeUInt8
  if opCode = OpAdminCheckRequest then deserializeAdminCheckRequest sequenceNumber
  else if opCode = OpDescriptionListRequest then deserializeDescriptionListRequest sequenceNumber
  else if opCode = OpEraseRequest then deserializeEraseRequest sequenceNumber
  else if opCode = OpInsertOrUpdateBucket then
    deserializeInsertOrUpdateBucketRequest sequenceNumber
  else if opCode = OpListRequest then deserializeListRequest sequenceNumber
  else if opCode = OpRemoveBucket then deserializeRemoveBucketRequest sequenceNumber
  else if opCode = OpSetPolicies then deserializeSetPoliciesRequest sequenceNumber
  else throw .wrongOpCode

def policyFields (policy : Policy) : List Field :=
  keyFields policy.key ++ [.uint16 policy.result.policyType, .string policy.result.metadata]

/-- The fields of a request. -/
def requestFields : Request → List Field
  | .adminCheck key startBucket recursive _ =>
      .uint8 OpAdminCheckRequest :: keyFields key ++ [.string startBucket, .bool recursive]
  | .descriptionList _ => [.uint8 OpDescriptionListRequest]
  | .erase startBucket recursive filter _ =>
      .uint8 OpEraseRequest :: .string startBucket :: .bool recursive :: keyFields filter
  | .insertOrUpdateBucket bucketId result _ =>
      [.uint8 OpInsertOrUpdateBucket, .string bucketId, .uint16 result.policyType,
        .string result.metadata]
  | .list bucket filter _ => .uint8 OpListRequest :: .string bucket :: keyFields filter
  | .removeBucket bucketId _ => [.uint8 OpRemoveBucket, .string bucketId]
  | .setPolicies inserted removed _ =>
      .uint8 OpSetPolicies :: (groupsFields policyFields inserted
        ++ (groupsFields keyFields removed ++ []))

/-- The groups are counted. -/
def RequestCounted : Request → Prop
  | .setPolicies inserted removed _ => GroupsCounted inserted ∧ GroupsCounted removed
  | _ => True

theorem serializeRequest_eq (request : Request) :
  serializeRequest request = Field.serializeAll (requestFields request)
  := by
  cases request with
  | adminCheck key startBucket recursive sequenceNumber => rfl
  | descriptionList sequenceNumber => rfl
  | erase startBucket recursive filter sequenceNumber => rfl
  | insertOrUpdateBucket bucketId result sequenceNumber => rfl
  | list bucket filter sequenceNumber => rfl
  | removeBucket bucketId sequenceNumber => rfl
  | setPolicies inserted removed sequenceNumber =>
      have hpolicy : ∀ policy, serializePolicy policy = Field.serializeAll (policyFields policy) :=
        fun _ => rfl
      have hkey : ∀ key, concat (serializeKey key) = Field.serializeAll (keyFields key) :=
        fun _ => rfl
      apply Field.concat_cons_eq_serializeAll (.uint8 _)
      apply serializeGroups_eq hpolicy
      apply serializeGroups_eq hkey
      rfl

/-- What is written is read, unless there are too many policies. -/
theorem inverts_deserializeRequest (request : Request) (hcounted : RequestCounted request) :
  (deserializeRequest request.sequenceNumber).Inverts (serializeRequest request) request
  := by
  cases request with
  | adminCheck key startBucket recursive sequenceNumber =>
      apply Inverts.bind (inverts_uint8 _)
      apply Inverts.append (inverts_key key)
      apply Inverts.bind (inverts_string _)
      apply Inverts.bind (inverts_bool _)
      apply Inverts.pure
  | descriptionList sequenceNumber =>
      apply Inverts.bind (inverts_uint8 _)
      apply Inverts.pure
  | erase startBucket recursive filter sequenceNumber =>
      apply Inverts.bind (inverts_uint8 _)
      apply Inverts.bind (inverts_string _)
      apply Inverts.bind (inverts_bool _)
      apply Inverts.map (fun filter => Request.erase startBucket recursive filter sequenceNumber)
      apply inverts_key
  | insertOrUpdateBucket bucketId result sequenceNumber =>
      apply Inverts.bind (inverts_uint8 _)
      apply Inverts.bind (inverts_string _)
      apply Inverts.bind (inverts_uint16 _)
      apply Inverts.bind (inverts_string _)
      apply Inverts.pure
  | list bucket filter sequenceNumber =>
      apply Inverts.bind (inverts_uint8 _)
      apply Inverts.bind (inverts_string _)
      apply Inverts.map (fun filter => Request.list bucket filter sequenceNumber)
      apply inverts_key
  | removeBucket bucketId sequenceNumber =>
      apply Inverts.bind (inverts_uint8 _)
      apply Inverts.bind (inverts_string _)
      apply Inverts.pure
  | setPolicies inserted removed sequenceNumber =>
      apply Inverts.bind (inverts_uint8 _)
      apply Inverts.append (inverts_groups inverts_policy hcounted.1)
      apply Inverts.map (fun removed => Request.setPolicies inserted removed sequenceNumber)
      apply inverts_groups inverts_key hcounted.2

/-- Groups of policies that are read as they were written are counted. -/
theorem counted_of_deserializeRequest {inserted : ExtTreeMap PolicyBucketId (List Policy)}
    {removed : ExtTreeMap PolicyBucketId (List PolicyKey)} {sequenceNumber : UInt16}
    {body rest : Str}
    (hbody : serializeRequest (.setPolicies inserted removed sequenceNumber) = .ok body)
    (happly : (deserializeRequest sequenceNumber).apply body
      = (.ok (.setPolicies inserted removed sequenceNumber), rest)) :
  GroupsCounted inserted ∧ GroupsCounted removed
  := by
  obtain ⟨op, bytes, hop, hbytes, rfl⟩ := concat_cons_eq_ok.mp hbody
  rw [← concat_concat_cons] at hbytes
  obtain ⟨first, second, hfirst, hsecond, rfl⟩ := concat_cons_eq_ok.mp hbytes
  have hswitch : (deserializeRequest sequenceNumber).apply (op ++ (first ++ second))
      = (deserializeSetPoliciesRequest sequenceNumber).apply (first ++ second) := by
    rw [deserializeRequest, apply_bind, inverts_uint8 _ _ hop]
    rfl
  rw [hswitch] at happly
  obtain ⟨inserted', between, hinserted, happly⟩ := apply_bind_eq_ok.mp happly
  obtain ⟨removed', rest', hremoved, hreturn⟩ := apply_bind_eq_ok.mp happly
  obtain ⟨rfl, rfl⟩ : inserted' = inserted ∧ removed' = removed := by
    simpa using congrArg Prod.fst hreturn
  have hcounted := groupsCounted_of_apply hfirst hinserted
  rw [inverts_groups inverts_policy hcounted _ hfirst] at hinserted
  obtain rfl : second = between := congrArg Prod.snd hinserted
  rw [← List.append_nil second] at hremoved
  exact ⟨hcounted, groupsCounted_of_apply hsecond hremoved⟩

/-- The requests of an administrator. -/
def requests : Codec where
  Message := Request
  sequenceNumber := Request.sequenceNumber
  fields := requestFields
  serialize := serializeRequest
  deserialize := deserializeRequest
  Counted := RequestCounted
  serialize_eq := serializeRequest_eq
  inverts := inverts_deserializeRequest
  counted request body rest hbody happly := by
    cases request with
    | setPolicies inserted removed sequenceNumber =>
        exact counted_of_deserializeRequest hbody happly
    | _ => trivial

end ProtocolAdmin

end Cynara
