import Cynara.Library.Strings

/-!
# Policies

A policy gives a result to a key, the triple of a client, a user and a privilege.  The
result is a policy type together with metadata; the metadata of a policy of type
`BUCKET` is the id of the bucket it links to.

The policies of a bucket are stored under glued keys.  A glued key determines the key,
whatever bytes the features of the key contain, so a lookup of the eight variants of a
key finds exactly the policies whose features are each the feature of the key or the
wildcard.
-/

namespace Cynara

/-- The type of a policy, `uint16_t` in the source. -/
abbrev PolicyType := UInt16

namespace PredefinedPolicyType

/-- The policy types of the service itself. -/
def DENY : PolicyType := 0
def NONE : PolicyType := 1
def BUCKET : PolicyType := 0xFFFE
def ALLOW : PolicyType := 0xFFFF

@[simp]
theorem BUCKET_ne_DENY : BUCKET ≠ DENY := by decide

end PredefinedPolicyType

open PredefinedPolicyType

/-- The result of a policy. -/
structure PolicyResult where
  policyType : PolicyType := DENY
  metadata : Str := []
deriving DecidableEq, Inhabited

namespace PolicyResult

/-- `operator ==(const PolicyType &)`: a result equals a bare policy type only if it
carries no metadata. -/
def eqType (r : PolicyResult) (t : PolicyType) : Bool :=
  r.policyType == t && r.metadata.isEmpty

/-- `operator <`: results are compared by their types only. -/
def lt (r s : PolicyResult) : Bool :=
  r.policyType < s.policyType

end PolicyResult

/-- The id of a bucket. -/
abbrev PolicyBucketId := Str

/-- The id of the bucket every check starts in. -/
def defaultPolicyBucketId : PolicyBucketId := []

/-- A client, a user or a privilege. -/
abbrev PolicyKeyFeature := Str

namespace PolicyKeyFeature

/-- `CYNARA_ADMIN_WILDCARD`. -/
def wildcardValue : PolicyKeyFeature := Str.ofString "*"

/-- `CYNARA_ADMIN_ANY`. -/
def anyValue : PolicyKeyFeature := Str.ofString "#"

/-- The feature is the wildcard. -/
def isAny (f : PolicyKeyFeature) : Bool := f == anyValue

/-- A feature matches a filter that is `ANY` or is equal to it. -/
def matchFilter (f filter : PolicyKeyFeature) : Bool :=
  isAny filter || f == filter

end PolicyKeyFeature

/-- The key of a policy. -/
structure PolicyKey where
  client : PolicyKeyFeature
  user : PolicyKeyFeature
  privilege : PolicyKeyFeature
deriving DecidableEq

/-- A key matches a filter when each of its features does. -/
def PolicyKey.matchFilter (key filter : PolicyKey) : Bool :=
  PolicyKeyFeature.matchFilter key.client filter.client
    && PolicyKeyFeature.matchFilter key.user filter.user
    && PolicyKeyFeature.matchFilter key.privilege filter.privilege

/-- A policy. -/
structure Policy where
  key : PolicyKey
  result : PolicyResult
deriving DecidableEq

/-- A policy type and its name. -/
structure PolicyDescription where
  type : PolicyType
  name : Str
deriving DecidableEq

/-- The types that are always described. -/
def predefinedPolicyDescr : List PolicyDescription :=
  [⟨ALLOW, Str.ofString "Allow"⟩, ⟨DENY, Str.ofString "Deny"⟩]

/-- An entry of the monitor: a checked key, the result of the check and the time of it. -/
structure MonitorEntry where
  key : PolicyKey
  result : Int32
  tv_sec : Int64
  tv_nsec : Int64
deriving DecidableEq

/-! ### Glued keys -/

namespace PolicyKeyHelpers

/-- The separator of the fields of a glued key. -/
def sep : UInt8 := 59

/-- The features of a key and their lengths, separated by semicolons. -/
def glueKey (client user privilege : PolicyKeyFeature) : Str :=
  client ++ sep :: (user ++ sep :: (privilege ++ sep :: (Str.decimal client.length
    ++ sep :: (Str.decimal user.length ++ sep :: Str.decimal privilege.length))))

/-- The glued forms of the keys that differ from `key` in wildcard features only. -/
def keyVariants (key : PolicyKey) : List Str :=
  let w := PolicyKeyFeature.wildcardValue
  [glueKey key.client key.user key.privilege,
   glueKey w key.user key.privilege,
   glueKey key.client w key.privilege,
   glueKey key.client key.user w,
   glueKey w w key.privilege,
   glueKey w key.user w,
   glueKey key.client w w,
   glueKey w w w]

theorem sep_notMem_decimal (n : ℕ) :
  sep ∉ Str.decimal n
  := by
  apply Str.notMem_numeral (by omega) (by omega)
  decide

/-- A glued key determines its features, whatever bytes they contain: the lengths
follow the last three separators. -/
theorem glueKey_inj {c u p c' u' p' : PolicyKeyFeature}
    (h : glueKey c u p = glueKey c' u' p') :
  c = c' ∧ u = u' ∧ p = p'
  := by
  unfold glueKey at h
  have regroup : ∀ c u p l m n : Str,
      c ++ sep :: (u ++ sep :: (p ++ sep :: (l ++ sep :: (m ++ sep :: n))))
        = (((c ++ sep :: (u ++ sep :: p)) ++ sep :: l) ++ sep :: m) ++ sep :: n := by
    intro c u p l m n
    simp
  rw [regroup, regroup] at h
  obtain ⟨h₁, -⟩ := Str.append_sep_inj_right (sep_notMem_decimal _) (sep_notMem_decimal _) h
  obtain ⟨h₂, hu⟩ := Str.append_sep_inj_right (sep_notMem_decimal _) (sep_notMem_decimal _) h₁
  obtain ⟨h₃, hc⟩ := Str.append_sep_inj_right (sep_notMem_decimal _) (sep_notMem_decimal _) h₂
  obtain ⟨rfl, h₄⟩ := List.append_inj h₃ (Str.decimal_injective hc)
  obtain ⟨rfl, h₅⟩ := List.append_inj (List.cons.inj h₄).2 (Str.decimal_injective hu)
  exact ⟨rfl, rfl, (List.cons.inj h₅).2⟩

end PolicyKeyHelpers

open PolicyKeyHelpers

/-- The glued form of a key. -/
def PolicyKey.glue (key : PolicyKey) : Str :=
  glueKey key.client key.user key.privilege

theorem PolicyKey.glue_injective : Function.Injective PolicyKey.glue := by
  intro k l h
  obtain ⟨hc, hu, hp⟩ := glueKey_inj h
  cases k
  cases l
  simp_all

/-- A feature of a policy covers the feature of a key it is equal to, and the wildcard
covers every feature. -/
def PolicyKeyFeature.Covers (f g : PolicyKeyFeature) : Prop :=
  f = g ∨ f = wildcardValue

/-- The key of a policy covers a key when each of its features does. -/
def PolicyKey.Covers (k l : PolicyKey) : Prop :=
  PolicyKeyFeature.Covers k.client l.client
    ∧ PolicyKeyFeature.Covers k.user l.user
    ∧ PolicyKeyFeature.Covers k.privilege l.privilege

/-- The variants of a key are the glued forms of the keys that cover it. -/
theorem glue_mem_keyVariants (k l : PolicyKey) :
  k.glue ∈ keyVariants l ↔ k.Covers l
  := by
  have hglue : ∀ c u p, k.glue = glueKey c u p ↔ k.client = c ∧ k.user = u ∧ k.privilege = p := by
    intro c u p
    constructor
    · apply glueKey_inj
    · rintro ⟨rfl, rfl, rfl⟩
      rfl
  simp only [keyVariants, List.mem_cons, List.not_mem_nil, or_false, hglue, PolicyKey.Covers,
    PolicyKeyFeature.Covers]
  constructor
  · rintro (h | h | h | h | h | h | h | h) <;> simp [h]
  · rintro ⟨hc | hc, hu | hu, hp | hp⟩ <;> simp [hc, hu, hp]

end Cynara
