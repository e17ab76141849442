import Cynara.Library.Numerals
import Cynara.Storage.Serializer

/-!
# The type field of a record

The type of a policy is read from a record by `std::stoi` in base 16, truncated to sixteen bits, and
the byte after it is skipped, whichever it is.  So a record is accepted not only if its type is a
number of at most four digits that is followed by the separator or the end of the line, but also if
it is negative or too large, or is followed by something else, or comes after white space; and it
may be loaded with another type than it says.
-/

namespace Cynara

open InMemoryStorageBackend StorageDeserializer BucketDeserializer StoragePath Str Numeral

/-- A text is a complete number in base 16 with the value of a policy type, up to the separator or
the end. -/
def IsTypeField (text : Str) (policyType : PolicyType) : Prop :=
  ∃ base digits rest, text = base ++ (digits ++ rest)
    ∧ (base = [] ∨ base = [48, 120] ∨ base = [48, 88])
    ∧ digits ≠ [] ∧ (∀ c ∈ digits, isxdigit c = true)
    ∧ (rest = [] ∨ rest.head? = some fieldSeparator)
    ∧ readNumeral 16 digits = policyType.toNat

/-- There is neither white space nor a sign before a number, it has at most sixteen bits, and it is
followed by the separator or the end. -/
def Strict (x : Numeral) : Prop :=
  x.spaces = [] ∧ x.sign = [] ∧ x.magnitude ≤ 0xFFFF
    ∧ (x.rest = [] ∨ x.rest.head? = some fieldSeparator)

instance (x : Numeral) : Decidable (Strict x) :=
  inferInstanceAs (Decidable (x.spaces = [] ∧ x.sign = [] ∧ x.magnitude ≤ 0xFFFF
    ∧ (x.rest = [] ∨ x.rest.head? = some fieldSeparator)))

/-- A field that is accepted has the type that is loaded exactly if it is strict. -/
theorem isTypeField_iff {text : Str} {result : PolicyResult}
    (h : parseResult text = some result) :
  IsTypeField text result.policyType ↔ Strict (split text)
  := by
  obtain ⟨⟨policyType, rest⟩, hparse, rfl⟩ := Option.map_eq_some_iff.mp h
  obtain ⟨⟨n, rest⟩, hstoi, heq⟩ := Option.map_eq_some_iff.mp hparse
  cases heq
  obtain ⟨hdigits, -, hn⟩ := stoi16_eq_some hstoi
  constructor
  · rintro ⟨base, digits, rest, rfl, hbase, hne, hall, hend, hvalue⟩
    have hrest : ∀ c ∈ rest.head?, isxdigit c = false ∧ c ≠ 120 ∧ c ≠ 88 := by
      intro c hc
      rcases hend with rfl | hsep
      · cases hc
      · obtain rfl : fieldSeparator = c := Option.some.inj (hsep.symm.trans hc)
        decide
    rw [split_strict hbase hne hall hrest]
    refine ⟨rfl, rfl, ?_, hend⟩
    rw [magnitude, hvalue]
    exact Nat.le_of_lt_succ (UInt16.toNat_lt _)
  · rintro ⟨hspaces, hsign, hvalue, hend⟩
    have happend := split_append text
    simp only [hspaces, hsign, List.nil_append] at happend
    refine ⟨_, _, _, happend.symm, base_split text, hdigits, ?_, hend, ?_⟩
    · intro c hc
      exact List.mem_takeWhile_imp hc
    · rw [takeSign_of_before hsign] at hn
      have hmod : (n % 2 ^ 16).toNat = (split text).magnitude := by
        rw [hn]
        simp only [Bool.false_eq_true, ↓reduceIte]
        omega
      rw [hmod]
      change (split text).magnitude = _
      rw [UInt16.toNat_ofNat_of_lt' (Nat.lt_succ_of_le hvalue)]

/-! ### Records -/

theorem parsePolicy_eq_some {line : Str} {policy : Policy} (h : parsePolicy line = some policy) :
  ∃ text, parseKey line = some (policy.key, text) ∧ parseResult text = some policy.result
  := by
  unfold parsePolicy at h
  split at h
  · contradiction
  · rename_i key text hkey
    obtain ⟨result, hresult, rfl⟩ := Option.map_eq_some_iff.mp h
    exact ⟨text, hkey, hresult⟩

/-- A record of the index that is accepted: the bucket is created with the result of the record,
unless there is one already. -/
theorem initBucket_returned {s : Buckets} {line : Str} (h : (initBucket s line).thrown = none) :
  ∃ id text result, ∃ hid : idValidator id = true, parseBucketId line = some (id, text)
    ∧ parseResult text = some result
    ∧ initBucket s line =
      .returned (if hasBucket s id then s else s.put (PolicyBucket.empty id result hid))
  := by
  unfold initBucket at h ⊢
  split at h
  · contradiction
  rename_i id text hid
  split at h
  · contradiction
  rename_i result hresult
  split at h
  · rename_i hvalid
    refine ⟨id, text, result, hvalid, hid, hresult, ?_⟩
    rw [dif_pos hvalid]
  · contradiction

/-- The records of a file that is loaded.  A policy is loaded with the type that its record says
exactly if the type field is strict, and so is the default policy of a bucket. -/
theorem loaded_type_iff (text : Str) :
  (∀ policies, loadPolicies text = some policies →
    List.Forall₂ (fun line policy => ∃ field, parseKey line = some (policy.key, field)
      ∧ (IsTypeField field policy.result.policyType ↔ Strict (split field)))
      (records text) policies)
  ∧ ((initBuckets text).thrown = none →
    ∀ first line rest, records text = first ++ line :: rest →
      ∃ s id field result, ∃ hid : idValidator id = true,
        Outcome.forEach initBucket first ⟨∅, by simp⟩ = .returned s
        ∧ parseBucketId line = some (id, field)
        ∧ initBucket s line =
          .returned (if hasBucket s id then s else s.put (PolicyBucket.empty id result hid))
        ∧ (IsTypeField field result.policyType ↔ Strict (split field)))
  := by
  constructor
  · intro policies h
    apply (forall₂_of_mapM h).imp
    intro line policy hpolicy
    obtain ⟨field, hkey, hresult⟩ := parsePolicy_eq_some hpolicy
    exact ⟨field, hkey, isTypeField_iff hresult⟩
  · intro h first line rest hrecords
    rw [initBuckets, hrecords, Outcome.forEach_append] at h
    obtain ⟨hfirst, hline⟩ := Outcome.andThen_thrown_eq_none.mp h
    generalize hs : Outcome.forEach initBucket first ⟨∅, by simp⟩ = o at hfirst hline
    obtain ⟨s, thrown⟩ := o
    obtain rfl : thrown = none := hfirst
    obtain ⟨id, field, result, hid, hbucketId, hresult, heq⟩ :=
      initBucket_returned (Outcome.andThen_thrown_eq_none.mp hline).1
    exact ⟨s, id, field, result, hid, rfl, hbucketId, heq, isTypeField_iff hresult⟩

/-- A record with the type `ALLOW`, as it is written. -/
theorem loaded_type_allow :
  ∃ policy, loadPolicies (ofString ";;;0xFFFF;") = some [policy]
    ∧ IsTypeField (ofString "0xFFFF;") policy.result.policyType
  := by
  have hload : (loadPolicies (ofString ";;;0xFFFF;")) =
      some [⟨⟨[], [], []⟩, ⟨PredefinedPolicyType.ALLOW, []⟩⟩] := by decide +kernel
  refine ⟨_, hload, ?_⟩
  have hrecords : records (ofString ";;;0xFFFF;") = [ofString ";;;0xFFFF;"] := by decide +kernel
  have hall := (loaded_type_iff (ofString ";;;0xFFFF;")).1 _ hload
  rw [hrecords] at hall
  cases hall with
  | cons hpolicy _ =>
      obtain ⟨field, hkey, hiff⟩ := hpolicy
      have hfield : parseKey (ofString ";;;0xFFFF;") =
          some (⟨[], [], []⟩, ofString "0xFFFF;") := by decide +kernel
      obtain rfl : ofString "0xFFFF;" = field :=
        congrArg Prod.snd (Option.some.inj (hfield.symm.trans hkey))
      apply hiff.mpr
      decide +kernel

/-- A record with a given type field is loaded with the type `ALLOW`, which is not the number in the
field. -/
def LoadedAsAllow (field : Str) : Prop :=
  loadPolicies (ofString ";;;" ++ field)
      = some [⟨⟨[], [], []⟩, ⟨PredefinedPolicyType.ALLOW, []⟩⟩]
    ∧ ¬ IsTypeField field PredefinedPolicyType.ALLOW

/-- Records whose type is negative, or too large, or followed by other characters. -/
theorem loaded_type_other :
  LoadedAsAllow (ofString "-1") ∧ LoadedAsAllow (ofString "0x1FFFF")
    ∧ LoadedAsAllow (ofString "0xFFFF?")
  := by
  have hall : ∀ field ∈ [ofString "-1", ofString "0x1FFFF", ofString "0xFFFF?"],
      loadPolicies (ofString ";;;" ++ field) =
          some [⟨⟨[], [], []⟩, ⟨PredefinedPolicyType.ALLOW, []⟩⟩]
        ∧ parseResult field = some ⟨PredefinedPolicyType.ALLOW, []⟩
        ∧ ¬ Strict (split field) := by
    decide +kernel
  have hloaded : ∀ field ∈ [ofString "-1", ofString "0x1FFFF", ofString "0xFFFF?"],
      LoadedAsAllow field := by
    intro field hfield
    obtain ⟨hload, hresult, hstrict⟩ := hall field hfield
    exact ⟨hload, fun hnumber => hstrict ((isTypeField_iff hresult).mp hnumber)⟩
  exact ⟨hloaded _ (by simp), hloaded _ (by simp), hloaded _ (by simp)⟩

end Cynara
