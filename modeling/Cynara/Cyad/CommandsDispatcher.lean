import Cynara.Cyad.AdminPolicyParser
import Cynara.Cyad.PolicyTypeTranslator
import Cynara.Types.ErrorCodes

/-!
# Commands of the administration tool

A command is executed by a call of the library for administrators, and its result is printed.  The
list of the policies of a bucket is printed with a line for each of them, in the form that a file
with policies has.  The type of a policy is printed as a number, or by its name if the command asks
for it.

The list can be fed back to the tool, but the name of a type is printed as it is: if it contains a
separator, the line has a field too many.
-/

namespace Cynara

open StoragePath Str

/-- A policy result as it is given to the tool. -/
structure RawPolicyResult where
  policyType : Str
  metadata : Str

/-- The commands, apart from the one that prints the options of the tool.  A file is given by its
text. -/
inductive CyadCommand where
  | error (message : Str)
  | deleteBucket (bucketId : PolicyBucketId)
  | setBucket (bucketId : PolicyBucketId) (policyResult : RawPolicyResult)
  | setPolicy (bucketId : PolicyBucketId) (policyResult : RawPolicyResult) (policyKey : PolicyKey)
  | setPolicyBulk (input : Str)
  | erase (bucketId : PolicyBucketId) (recursive : Bool) (policyKey : PolicyKey)
  | check (bucketId : PolicyBucketId) (recursive : Bool) (policyKey : PolicyKey) (humanize : Bool)
  | listPolicies (bucketId : PolicyBucketId) (policyKey : PolicyKey) (humanize : Bool)
  | listPoliciesDesc

/-- The functions of the library that are called, with the state that they use. -/
structure AdminApiWrapper (σ : Type) where
  setPolicies : List CynaraAdminPolicy → σ → ℤ × σ
  setBucket : CString → ℤ → Option CString → σ → ℤ × σ
  erase : CString → Bool → CString → CString → CString → σ → ℤ × σ
  check : CString → Bool → CString → CString → CString → σ → ℤ × ℤ × Option CString
  listPolicies : CString → CString → CString → CString → σ → ℤ × List CynaraAdminPolicy
  strerror : ℤ → ℤ × CString

/-- The dispatcher, with the library it calls and the names of the policy types. -/
structure CommandsDispatcher (σ : Type) where
  adminApiWrapper : AdminApiWrapper σ
  policyTranslator : PolicyTypeTranslator

namespace CommandsDispatcher

/-- The policy type that tells the library to delete a policy. -/
def CYNARA_ADMIN_DELETE : ℤ := -1

/-- What a command returns and prints. -/
structure Output where
  ret : ℤ
  cout : Str := []
  cerr : Str := []

variable {σ : Type}

/-- A text and the end of its line. -/
def line (text : Str) : Str := text ++ [recordSeparator]

/-- The message for an error of the library, or for one that has no message. -/
def printAdminApiError (d : CommandsDispatcher σ) (errnum : ℤ) : Str :=
  let (ret, buf) := d.adminApiWrapper.strerror errnum
  ofString "Cynara: [" ++ PolicyTypeTranslator.toString errnum ++ ofString "] " ++
    line (if ret = CYNARA_API_SUCCESS then buf.val
      else if ret = CYNARA_API_INVALID_PARAM then ofString "Unknown error (sic!)"
      else if ret = CYNARA_API_BUFFER_TOO_SHORT then ofString "Error message too long"
      else ofString "Unknown error (sic! sic!)")

/-- The end of a command that calls the library, with what it prints if the call succeeds. -/
def finish (d : CommandsDispatcher σ) (ret : ℤ) (cout : Str) : Output :=
  if ret = CYNARA_API_SUCCESS then { ret := ret, cout := cout }
  else { ret := ret, cerr := d.printAdminApiError ret }

/-- A line of the input in a message, of which at most fifty characters are shown. -/
def slicedLine (text : Str) : Str :=
  text.take 50 ++ if text.length > 50 then ofString "..." else []

/-- The handlers of the exceptions; one that has no handler is thrown again. -/
def handle (s : σ) : AdminException → Except AdminException (Output × σ)
  | .bucketRecordCorrupted text lineNumber =>
      .ok ({ ret := CYNARA_API_INVALID_COMMANDLINE_PARAM
             cerr := ofString "Bucket record corrupted at line " ++ decimal lineNumber ++
               ofString ": <" ++ slicedLine text ++ ofString ">" }, s)
  | .policyParsing =>
      .ok ({ ret := CYNARA_API_INVALID_COMMANDLINE_PARAM
             cerr := line (ofString "Invalid policy") }, s)
  | ex => .error ex

/-- The type of a policy is printed. -/
def policyTypeString (t : PolicyTypeTranslator) (humanize : Bool) (result : ℤ) : Str :=
  if humanize then t.humanize result else PolicyTypeTranslator.toString result

/-- The line of a policy without its end. -/
def printPolicy (t : PolicyTypeTranslator) (humanize : Bool) (p : CynaraAdminPolicy) : Str :=
  p.bucket.val ++ fieldSeparator :: (p.client.val ++ fieldSeparator :: (p.user.val ++
    fieldSeparator :: (p.privilege.val ++ fieldSeparator ::
      (policyTypeString t humanize p.result ++ fieldSeparator :: p.metadata))))

/-- The policies are given to the library, if they have been read without an error. -/
def setPolicies (d : CommandsDispatcher σ) (policies : Except AdminException CynaraAdminPolicies)
    (s : σ) : Except AdminException (Output × σ) :=
  match policies.bind CynaraAdminPolicies.data with
  | .error ex => handle s ex
  | .ok policies =>
      let (ret, s) := d.adminApiWrapper.setPolicies policies s
      .ok (d.finish ret [], s)

/-- A command is executed; an error stands for an exception that nothing handles. -/
def execute (d : CommandsDispatcher σ) (command : CyadCommand) (s : σ) :
    Except AdminException (Output × σ) :=
  match command with
  | .error message =>
      .ok ({ ret := CYNARA_API_INVALID_COMMANDLINE_PARAM
             cerr := line (ofString "There was an error in command-line options:") ++
               line (message ++ ofString ", use '-h' or '--help' to print help message") }, s)
  | .deleteBucket bucketId =>
      let (ret, s) := d.adminApiWrapper.setBucket (.ofStr bucketId) CYNARA_ADMIN_DELETE none s
      .ok (d.finish ret [], s)
  | .setBucket bucketId policyResult =>
      let metadata :=
        if policyResult.metadata.isEmpty then none else some (.ofStr policyResult.metadata)
      match d.policyTranslator.translate policyResult.policyType with
      | none => handle s .policyParsing
      | some policyType =>
          let (ret, s) :=
            d.adminApiWrapper.setBucket (.ofStr bucketId) policyType.toNat metadata s
          .ok (d.finish ret [], s)
  | .setPolicy bucketId policyResult policyKey =>
      match d.policyTranslator.translate policyResult.policyType with
      | none => handle s .policyParsing
      | some policyType =>
          let policies : CynaraAdminPolicies := {}
          d.setPolicies ((policies.add bucketId ⟨policyType, policyResult.metadata⟩ policyKey).map
            CynaraAdminPolicies.sealPolicies) s
  | .setPolicyBulk input =>
      d.setPolicies (AdminPolicyParser.parse input d.policyTranslator.translate) s
  | .erase bucketId recursive key =>
      let (ret, s) := d.adminApiWrapper.erase (.ofStr bucketId) recursive (.ofStr key.client)
        (.ofStr key.user) (.ofStr key.privilege) s
      .ok (d.finish ret [], s)
  | .check bucketId recursive key humanize =>
      let (ret, result, resultExtra) := d.adminApiWrapper.check (.ofStr bucketId) recursive
        (.ofStr key.client) (.ofStr key.user) (.ofStr key.privilege) s
      .ok (d.finish ret (line (policyTypeString d.policyTranslator humanize result ++
        fieldSeparator :: (resultExtra.map Subtype.val).getD [])), s)
  | .listPolicies bucketId key humanize =>
      let (ret, policies) := d.adminApiWrapper.listPolicies (.ofStr bucketId) (.ofStr key.client)
        (.ofStr key.user) (.ofStr key.privilege) s
      .ok (d.finish ret (policies.flatMap fun p =>
        line (printPolicy d.policyTranslator humanize p)), s)
  | .listPoliciesDesc =>
      .ok ({ ret := CYNARA_API_SUCCESS
             cout := d.policyTranslator.descs.flatMap fun desc =>
               line (PolicyTypeTranslator.toString desc.1 ++ fieldSeparator :: desc.2) }, s)

/-! ### Lists that are fed back -/

/-- A text is parsed, and gives policies with the contents of those that are given, in order. -/
def ParsedAs (t : PolicyTypeTranslator) (text : Str) (policies : List CynaraAdminPolicy) : Prop :=
  ∃ parsed, (AdminPolicyParser.parse text t.translate).bind CynaraAdminPolicies.data = .ok parsed
    ∧ parsed.map CynaraAdminPolicy.contents = policies.map CynaraAdminPolicy.contents

end CommandsDispatcher

/-- A policy of some type, whose bucket and key contain no separator and whose metadata is one
line. -/
structure CynaraAdminPolicy.IsRecord (p : CynaraAdminPolicy) : Prop where
  type : ∃ type : PolicyType, p.result = type.toNat
  bucket : fieldSeparator ∉ p.bucket.val ∧ recordSeparator ∉ p.bucket.val
  client : fieldSeparator ∉ p.client.val ∧ recordSeparator ∉ p.client.val
  user : fieldSeparator ∉ p.user.val ∧ recordSeparator ∉ p.user.val
  privilege : fieldSeparator ∉ p.privilege.val ∧ recordSeparator ∉ p.privilege.val
  metadata : recordSeparator ∉ p.metadata

/-- The policy that a collection has after a policy has been added; empty metadata is a null
pointer there. -/
def CynaraAdminPolicy.added (p : CynaraAdminPolicy) : CynaraAdminPolicy :=
  { p with resultExtra := if p.metadata.isEmpty then none else some (.ofStr p.metadata) }

theorem CynaraAdminPolicy.contents_added (p : CynaraAdminPolicy) :
  p.added.contents = p.contents
  := by
  have hmetadata : p.added.metadata = p.metadata := by
    rcases p with ⟨bucket, client, user, privilege, result, extra⟩
    cases extra with
    | none => rfl
    | some extra =>
        by_cases hempty : extra.val.isEmpty
        · simp_all [added, metadata]
        · simp [added, metadata, hempty, CString.ofStr_val]
  simp only [contents, hmetadata]
  rfl

namespace CynaraAdminPolicies

theorem add_contents {c : CynaraAdminPolicies} (hc : c.isSealed = false) {p : CynaraAdminPolicy}
    {type : PolicyType} (htype : p.result = type.toNat) :
  c.add p.bucket.val ⟨type, p.metadata⟩ ⟨p.client.val, p.user.val, p.privilege.val⟩
    = .ok { c with policies := c.policies ++ [some p.added] }
  := by
  simp only [add, hc, Bool.false_eq_true, ↓reduceIte, CString.ofStr_val, CynaraAdminPolicy.added,
    htype]

/-- The null pointer at the end of a sealed collection is the first one. -/
theorem data_sealPolicies {c : CynaraAdminPolicies} {policies : List CynaraAdminPolicy}
    (hc : c.policies = policies.map some) :
  c.sealPolicies.data = .ok policies
  := by
  have htake : (c.policies ++ [none]).takeWhile Option.isSome = policies.map some := by
    rw [hc, List.takeWhile_append_of_pos (by simp)]
    simp
  simp only [data, sealPolicies, ↓reduceIte, htake]
  simp [List.reduceOption]

end CynaraAdminPolicies

namespace AdminPolicyParser

open CommandsDispatcher

theorem fields_printPolicy {t : PolicyTypeTranslator} {humanize : Bool} {p : CynaraAdminPolicy}
    (hp : p.IsRecord) (htype : fieldSeparator ∉ policyTypeString t humanize p.result) :
  fields (printPolicy t humanize p) = some (p.bucket.val,
    ⟨p.client.val, p.user.val, p.privilege.val⟩, policyTypeString t humanize p.result, p.metadata)
  := by
  simp only [fields, printPolicy, BucketDeserializer.parseKey, cut_append_sep hp.bucket.1,
    cut_append_sep hp.client.1, cut_append_sep hp.user.1, cut_append_sep hp.privilege.1,
    cut_append_sep htype]

/-- The printed lines add the policies that they have been printed for. -/
theorem parseLines_printPolicy {t : PolicyTypeTranslator} {humanize : Bool}
    {policies : List CynaraAdminPolicy} (hpolicies : ∀ p ∈ policies, p.IsRecord)
    (hsep : ∀ type : PolicyType, fieldSeparator ∉ policyTypeString t humanize type.toNat)
    (htranslate : ∀ type : PolicyType,
      t.translate (policyTypeString t humanize type.toNat) = some type)
    (lineNum : ℕ) {c : CynaraAdminPolicies} (hc : c.isSealed = false) :
  parseLines t.translate (policies.map (printPolicy t humanize)) lineNum c
    = .ok { c with policies := c.policies ++ policies.map fun p => some p.added }
  := by
  induction policies generalizing lineNum c with
  | nil => simp [parseLines]
  | cons p policies ih =>
      have hp := hpolicies p List.mem_cons_self
      obtain ⟨type, htype⟩ := hp.type
      have hfields := fields_printPolicy hp (htype ▸ hsep type)
      have hempty : (printPolicy t humanize p).isEmpty = false := by
        simp [printPolicy]
      rw [List.map_cons, parseLines]
      simp only [hempty, Bool.false_eq_true, ↓reduceIte, hfields, htype, htranslate type]
      rw [CynaraAdminPolicies.add_contents hc htype]
      have hadded : ({ c with policies := c.policies ++ [some p.added] } :
          CynaraAdminPolicies).isSealed = false := hc
      refine (ih (fun q hq => hpolicies q (List.mem_cons_of_mem p hq)) (lineNum + 1)
        hadded).trans ?_
      simp

end AdminPolicyParser

namespace CommandsDispatcher

theorem recordSeparator_notMem_printPolicy {t : PolicyTypeTranslator} {humanize : Bool}
    {p : CynaraAdminPolicy} (hp : p.IsRecord)
    (htype : recordSeparator ∉ policyTypeString t humanize p.result) :
  recordSeparator ∉ printPolicy t humanize p
  := by
  have hsep : recordSeparator ≠ fieldSeparator := by decide
  simp only [printPolicy, List.mem_append, List.mem_cons, hp.bucket.2, hp.client.2, hp.user.2,
    hp.privilege.2, hp.metadata, htype, hsep, or_self, not_false_eq_true]

/-- Names that contain no separator are printed without one. -/
theorem notMem_policyTypeString {descs : List PolicyDescription} {humanize : Bool} {sep : UInt8}
    (hnames : humanize = true → ∀ desc ∈ descs, sep ∉ desc.name.map tolower)
    (hsep : sep = fieldSeparator ∨ sep = recordSeparator) (type : PolicyType) :
  sep ∉ policyTypeString (PolicyTypeTranslator.setDescriptions {} descs) humanize type.toNat
  := by
  have hall : ∀ c ∈ [fieldSeparator, recordSeparator], c ∉ PolicyTypeTranslator.NONE_LITERAL
      ∧ c ∉ PolicyTypeTranslator.BUCKET_LITERAL ∧ isDigit 10 c = false := by
    decide +kernel
  obtain ⟨hnone, hbucket, hdigit⟩ := hall sep (by simpa using hsep)
  cases humanize with
  | true => exact PolicyTypeTranslator.notMem_humanize (hnames rfl) hnone hbucket hdigit type
  | false =>
      intro hmem
      exact absurd (of_mem_decimal hmem).1 (by simp [hdigit])

theorem translate_policyTypeString {descs : List PolicyDescription}
    (h : PolicyTypeTranslator.Unambiguous descs) (humanize : Bool) (type : PolicyType) :
  (PolicyTypeTranslator.setDescriptions {} descs).translate
    (policyTypeString (PolicyTypeTranslator.setDescriptions {} descs) humanize type.toNat)
      = some type
  := by
  cases humanize with
  | true => exact PolicyTypeTranslator.translate_humanize h type
  | false => exact PolicyTypeTranslator.translate_decimal h type

/-- Policies that are printed, as numbers or by names without separators, are parsed again. -/
theorem parsedAs_printPolicy {descs : List PolicyDescription} {humanize : Bool}
    {policies : List CynaraAdminPolicy} (hdescs : PolicyTypeTranslator.Unambiguous descs)
    (hnames : humanize = true → ∀ desc ∈ descs,
      fieldSeparator ∉ desc.name.map tolower ∧ recordSeparator ∉ desc.name.map tolower)
    (hpolicies : ∀ p ∈ policies, p.IsRecord) :
  let t := PolicyTypeTranslator.setDescriptions {} descs
  ParsedAs t (policies.flatMap fun p => line (printPolicy t humanize p)) policies
  := by
  intro t
  have hlines : lines recordSeparator (policies.flatMap fun p => line (printPolicy t humanize p))
      = policies.map (printPolicy t humanize) := by
    apply lines_flatMap
    intro p hp
    obtain ⟨type, htype⟩ := (hpolicies p hp).type
    apply recordSeparator_notMem_printPolicy (hpolicies p hp)
    rw [htype]
    exact notMem_policyTypeString (fun h desc hdesc => (hnames h desc hdesc).2) (Or.inr rfl) type
  have hparsed := AdminPolicyParser.parseLines_printPolicy hpolicies
    (notMem_policyTypeString (fun h desc hdesc => (hnames h desc hdesc).1) (Or.inl rfl))
    (translate_policyTypeString hdescs humanize) 1
    (show ({} : CynaraAdminPolicies).isSealed = false from rfl)
  refine ⟨policies.map CynaraAdminPolicy.added, ?_, ?_⟩
  · rw [AdminPolicyParser.parse, hlines, hparsed]
    exact CynaraAdminPolicies.data_sealPolicies (by simp)
  · rw [List.map_map]
    exact List.map_congr_left fun p _ => p.contents_added

/-- The policies that the library lists are printed so that they are parsed again, if no name that
may be printed contains a separator. -/
theorem parsedAs_listPolicies {σ : Type} (d : CommandsDispatcher σ)
    (descs : List PolicyDescription)
    (htranslator : d.policyTranslator = PolicyTypeTranslator.setDescriptions {} descs)
    (hdescs : PolicyTypeTranslator.Unambiguous descs)
    (bucketId : PolicyBucketId) (key : PolicyKey) (humanize : Bool)
    (hnames : humanize = true → ∀ desc ∈ descs,
      fieldSeparator ∉ desc.name.map tolower ∧ recordSeparator ∉ desc.name.map tolower)
    (s : σ) (policies : List CynaraAdminPolicy)
    (hlist : d.adminApiWrapper.listPolicies (.ofStr bucketId) (.ofStr key.client)
      (.ofStr key.user) (.ofStr key.privilege) s = (CYNARA_API_SUCCESS, policies))
    (hpolicies : ∀ p ∈ policies, p.IsRecord) :
  ∃ output, d.execute (.listPolicies bucketId key humanize) s = .ok (output, s)
    ∧ output.ret = CYNARA_API_SUCCESS ∧ ParsedAs d.policyTranslator output.cout policies
  := by
  refine ⟨⟨CYNARA_API_SUCCESS, policies.flatMap fun p =>
    line (printPolicy d.policyTranslator humanize p), []⟩, ?_, rfl, ?_⟩
  · simp only [execute, hlist, finish, ↓reduceIte]
  · rw [htranslator]
    exact parsedAs_printPolicy hdescs hnames hpolicies

/-- A library that lists the given policies, and does nothing else. -/
def listing (policies : List CynaraAdminPolicy) : AdminApiWrapper Unit where
  setPolicies _ s := (CYNARA_API_SUCCESS, s)
  setBucket _ _ _ s := (CYNARA_API_SUCCESS, s)
  erase _ _ _ _ _ s := (CYNARA_API_SUCCESS, s)
  check _ _ _ _ _ _ := (CYNARA_API_SUCCESS, 0, none)
  listPolicies _ _ _ _ _ := (CYNARA_API_SUCCESS, policies)
  strerror _ := (CYNARA_API_SUCCESS, .ofStr [])

/-- A policy of a bucket, for everyone. -/
def policyFor (bucket : String) (type : PolicyType) (metadata : Option String) :
    CynaraAdminPolicy where
  bucket := .ofStr (ofString bucket)
  client := .ofStr (ofString "*")
  user := .ofStr (ofString "*")
  privilege := .ofStr (ofString "*")
  result := type.toNat
  resultExtra := metadata.map fun text => .ofStr (ofString text)

theorem isRecord_policyFor {bucket : String} {metadata : Option String} (type : PolicyType)
    (hbucket : fieldSeparator ∉ cString (ofString bucket)
      ∧ recordSeparator ∉ cString (ofString bucket))
    (hmetadata : recordSeparator ∉ (policyFor bucket type metadata).metadata) :
  (policyFor bucket type metadata).IsRecord
  := by
  have hwildcard : fieldSeparator ∉ cString (ofString "*")
      ∧ recordSeparator ∉ cString (ofString "*") := by
    decide +kernel
  exact ⟨⟨type, rfl⟩, hbucket, hwildcard, hwildcard, hwildcard, hmetadata⟩

/-- A policy of a predefined type and one of a type without a name, whose metadata contains the
separator of fields. -/
theorem parsedAs_listPolicies_predefined :
  ∃ output, execute ⟨listing [policyFor "" 0xFFFF none, policyFor "main" 10 (some "a;b")],
      PolicyTypeTranslator.setDescriptions {} predefinedPolicyDescr⟩
      (.listPolicies [] ⟨[], [], []⟩ true) () = .ok (output, ())
    ∧ output.ret = CYNARA_API_SUCCESS
    ∧ ParsedAs (PolicyTypeTranslator.setDescriptions {} predefinedPolicyDescr) output.cout
      [policyFor "" 0xFFFF none, policyFor "main" 10 (some "a;b")]
  := by
  apply parsedAs_listPolicies ⟨_, _⟩ predefinedPolicyDescr rfl
  · exact ⟨by decide +kernel, by decide +kernel, by decide +kernel, by decide +kernel⟩
  · intro _
    decide +kernel
  · rfl
  · intro p hp
    obtain rfl | rfl := List.mem_pair.mp hp
    · exact isRecord_policyFor _ (by decide +kernel) (by decide +kernel)
    · exact isRecord_policyFor _ (by decide +kernel) (by decide +kernel)

/-- A type whose name contains the separator of fields. -/
def separatedDescr : List PolicyDescription := [⟨5, ofString "a;b"⟩]

/-- A policy of such a type is printed with a field too many, and its line is refused. -/
theorem not_parsedAs_separatedDescr :
  PolicyTypeTranslator.Unambiguous separatedDescr ∧ (policyFor "" 5 none).IsRecord
    ∧ ∃ output, execute ⟨listing [policyFor "" 5 none],
        PolicyTypeTranslator.setDescriptions {} separatedDescr⟩
        (.listPolicies [] ⟨[], [], []⟩ true) () = .ok (output, ())
      ∧ output.ret = CYNARA_API_SUCCESS
      ∧ ¬ ParsedAs (PolicyTypeTranslator.setDescriptions {} separatedDescr) output.cout
        [policyFor "" 5 none]
  := by
  refine ⟨⟨by decide +kernel, by decide +kernel, by decide +kernel, by decide +kernel⟩,
    isRecord_policyFor _ (by decide +kernel) (by decide +kernel), _, rfl, rfl, ?_⟩
  rintro ⟨parsed, hparsed, -⟩
  have hrefused : AdminPolicyParser.parse (ofString ";*;*;*;a;b;\n")
      (PolicyTypeTranslator.setDescriptions {} separatedDescr).translate
        = .error .policyParsing := by
    decide +kernel
  have hprinted : line (printPolicy (PolicyTypeTranslator.setDescriptions {} separatedDescr) true
      (policyFor "" 5 none)) = ofString ";*;*;*;a;b;\n" := by
    decide +kernel
  simp only [finish, listing, ↓reduceIte, List.flatMap_cons, List.flatMap_nil, List.append_nil,
    hprinted, hrefused] at hparsed
  contradiction

end CommandsDispatcher

end Cynara
