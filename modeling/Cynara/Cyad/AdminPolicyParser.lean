import Cynara.Storage.Database

/-!
# Policies of the administration tool

The administration tool gives policies to the library as an array of structures with C strings,
which ends with a null pointer.  `CynaraAdminPolicies` collects such an array.  A file with policies
has a line for each of them, with the bucket, the key, the type and the metadata, and the metadata
is the rest of the line.
-/

namespace Cynara

open StoragePath Str

/-- A C string, without the zero byte at its end. -/
abbrev CString := { s : Str // 0 ∉ s }

/-- `strdup(s.c_str())`. -/
def CString.ofStr (s : Str) : CString :=
  ⟨cString s, fun h => by simpa using List.mem_takeWhile_imp h⟩

theorem CString.ofStr_val (s : CString) :
  CString.ofStr s.val = s
  := by
  apply Subtype.ext
  exact cString_of_notMem s.property

/-- `cynara_admin_policy`; the pointer to the metadata may be null. -/
structure CynaraAdminPolicy where
  bucket : CString
  client : CString
  user : CString
  privilege : CString
  result : ℤ
  resultExtra : Option CString
deriving DecidableEq

namespace CynaraAdminPolicy

/-- The metadata, which are empty if there is no pointer to them. -/
def metadata (p : CynaraAdminPolicy) : Str := (p.resultExtra.map Subtype.val).getD []

/-- What a structure says about a policy: the bucket, the key, the type and the metadata. -/
def contents (p : CynaraAdminPolicy) : Str × PolicyKey × ℤ × Str :=
  (p.bucket.val, ⟨p.client.val, p.user.val, p.privilege.val⟩, p.result, p.metadata)

end CynaraAdminPolicy

/-- The exceptions of the administration tool. -/
inductive AdminException where
  | collectionIsSealed
  | collectionIsNotSealed
  | bucketRecordCorrupted (line : Str) (lineNumber : ℕ)
  | policyParsing
deriving DecidableEq

/-- The pointers of an array of policies; the null pointer is put at its end when it is sealed. -/
structure CynaraAdminPolicies where
  policies : List (Option CynaraAdminPolicy) := []
  isSealed : Bool := false
deriving DecidableEq

namespace CynaraAdminPolicies

/-- `CynaraAdminPolicies::add`, which throws once the collection has been sealed. -/
def add (c : CynaraAdminPolicies) (bucketId : PolicyBucketId) (policyResult : PolicyResult)
    (policyKey : PolicyKey) : Except AdminException CynaraAdminPolicies :=
  if c.isSealed then .error .collectionIsSealed
  else
    let policy : CynaraAdminPolicy :=
      { bucket := .ofStr bucketId
        client := .ofStr policyKey.client
        user := .ofStr policyKey.user
        privilege := .ofStr policyKey.privilege
        result := policyResult.policyType.toNat
        resultExtra :=
          if policyResult.metadata.isEmpty then none else some (.ofStr policyResult.metadata) }
    .ok { c with policies := c.policies ++ [some policy] }

/-- `seal`, which is a word of Lean. -/
def sealPolicies (c : CynaraAdminPolicies) : CynaraAdminPolicies :=
  { policies := c.policies ++ [none], isSealed := true }

/-- The policies up to the first null pointer. -/
def data (c : CynaraAdminPolicies) : Except AdminException (List CynaraAdminPolicy) :=
  if c.isSealed then .ok ((c.policies.takeWhile Option.isSome).reduceOption)
  else .error .collectionIsNotSealed

end CynaraAdminPolicies

namespace AdminPolicyParser

/-- The fields of a line; `none` stands for a corrupted record. -/
def fields (line : Str) : Option (PolicyBucketId × PolicyKey × Str × Str) :=
  match cut fieldSeparator line with
  | none => none
  | some (bucketId, rest) =>
      match BucketDeserializer.parseKey rest with
      | none => none
      | some (policyKey, rest) =>
          match cut fieldSeparator rest with
          | none => none
          | some (policyType, metadata) => some (bucketId, policyKey, policyType, metadata)

/-- The loop of `parse`. -/
def parseLines (translatePolicy : Str → Option PolicyType) :
    List Str → ℕ → CynaraAdminPolicies → Except AdminException CynaraAdminPolicies
  | [], _, policies => .ok policies
  | line :: input, lineNum, policies =>
      if line.isEmpty then .ok policies
      else
        match fields line with
        | none => .error (.bucketRecordCorrupted line lineNum)
        | some (bucketId, policyKey, rawType, metadata) =>
            match translatePolicy rawType with
            | none => .error .policyParsing
            | some policyType => do
                let policies ← policies.add bucketId ⟨policyType, metadata⟩ policyKey
                parseLines translatePolicy input (lineNum + 1) policies

/-- The policies of a text; the collection is sealed at the end. -/
def parse (input : Str) (translatePolicy : Str → Option PolicyType) :
    Except AdminException CynaraAdminPolicies :=
  (parseLines translatePolicy (lines recordSeparator input) 1 {}).map
    CynaraAdminPolicies.sealPolicies

end AdminPolicyParser

end Cynara
