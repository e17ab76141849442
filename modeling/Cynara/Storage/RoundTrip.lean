import Cynara.Storage.Database

/-!
# Reading the buckets that were written

The buckets are written as text and read again.  What is read never contains a separator
where a separator ends the text, so buckets with such texts are not read back.  All others
are, in whatever order the maps are traversed when they are written and when they are read.
-/

open Std

namespace Cynara

open InMemoryStorageBackend Str StoragePath StorageSerializer BucketDeserializer

namespace StorageDeserializer

/-- The buckets of the index with the policies of their files. -/
def load (order : IterationOrder Str) (index : Str) (openBucket : PolicyBucketId → Option Str) :
    Outcome LoadException Buckets :=
  (initBuckets index).andThen (loadBuckets order openBucket)

/-- The text that is written for the bucket with a given id. -/
def dumpedBucket (order : DumpOrder) (s : Buckets) (id : PolicyBucketId) : Option Str :=
  (s.find? id).map (dumpBucket (order.policies id))

/-! ### Texts that are read -/

theorem metadata_of_parseResult {text : Str} {result : PolicyResult}
    (h : parseResult text = some result) :
  result.metadata ⊆ text
  := by
  obtain ⟨⟨policyType, rest⟩, htype, rfl⟩ := Option.map_eq_some_iff.mp h
  obtain ⟨⟨n, rest'⟩, hstoi, heq⟩ := Option.map_eq_some_iff.mp htype
  obtain ⟨-, rfl⟩ := Prod.mk.inj heq
  have hsuffix := (stoi16_suffix hstoi).subset
  have hmetadata : parseMetadata rest' ⊆ rest' := by
    unfold parseMetadata
    split
    · apply List.nil_subset
    · apply List.drop_subset
  exact List.Subset.trans hmetadata hsuffix

/-- The texts of a policy that the separators do not cut. -/
def SeparatedPolicy (p : Policy) : Prop :=
  (∀ feature ∈ [p.key.client, p.key.user, p.key.privilege],
      fieldSeparator ∉ feature ∧ recordSeparator ∉ feature)
    ∧ recordSeparator ∉ p.result.metadata

theorem separatedPolicy_of_parsePolicy {line : Str} (hline : recordSeparator ∉ line)
    {p : Policy} (h : parsePolicy line = some p) :
  SeparatedPolicy p
  := by
  unfold parsePolicy at h
  split at h
  · contradiction
  · rename_i key rest hkey
    obtain ⟨result, hresult, rfl⟩ := Option.map_eq_some_iff.mp h
    unfold parseKey at hkey
    split at hkey
    · contradiction
    · rename_i client afterClient hclient
      split at hkey
      · contradiction
      · rename_i user afterUser huser
        split at hkey
        · contradiction
        · rename_i privilege afterPrivilege hprivilege
          obtain ⟨rfl, rfl⟩ := Prod.mk.inj (Option.some.inj hkey)
          obtain ⟨rfl, hfield₁⟩ := cut_eq_some hclient
          obtain ⟨rfl, hfield₂⟩ := cut_eq_some huser
          obtain ⟨rfl, hfield₃⟩ := cut_eq_some hprivilege
          simp only [List.mem_append, List.mem_cons, not_or] at hline
          obtain ⟨hrecord₁, -, hrecord₂, -, hrecord₃, -, hrest⟩ := hline
          simp only [SeparatedPolicy, List.mem_cons, List.not_mem_nil, or_false,
            forall_eq_or_imp, forall_eq]
          refine ⟨⟨⟨hfield₁, hrecord₁⟩, ⟨hfield₂, hrecord₂⟩, ⟨hfield₃, hrecord₃⟩⟩, ?_⟩
          exact fun hmem => hrest (metadata_of_parseResult hresult hmem)

theorem recordSeparator_notMem_of_mem_records {text line : Str} (h : line ∈ records text) :
  recordSeparator ∉ line
  := by
  apply notMem_of_mem_lines
  exact (List.takeWhile_subset _) h

/-- The policies of a file have no separators in their texts. -/
theorem separatedPolicy_of_loadPolicies {text : Str} {ps : List Policy}
    (h : loadPolicies text = some ps) :
  ∀ p ∈ ps, SeparatedPolicy p
  := by
  intro p hp
  obtain ⟨line, hline, hparse⟩ := exists_of_mem_mapM h hp
  apply separatedPolicy_of_parsePolicy _ hparse
  apply recordSeparator_notMem_of_mem_records hline

/-! ### Buckets that are read -/

theorem separated_iff {b : PolicyBucket} :
  Separated b ↔ recordSeparator ∉ b.defaultPolicy.metadata ∧ ∀ p ∈ b, SeparatedPolicy p
  := by
  constructor
  · intro h
    exact ⟨h.defaultMetadata, fun p hp => ⟨h.features p hp, h.metadata p hp⟩⟩
  · intro h
    exact ⟨fun p hp => (h.2 p hp).1, fun p hp => (h.2 p hp).2, h.1⟩

theorem separated_empty {id : PolicyBucketId} {result : PolicyResult}
    (hid : idValidator id = true) (h : recordSeparator ∉ result.metadata) :
  Separated (PolicyBucket.empty id result hid)
  := by
  rw [separated_iff]
  refine ⟨h, fun p hp => ?_⟩
  simp [PolicyBucket.mem_def, PolicyBucket.empty] at hp

theorem separated_foldl_insertPolicy {ps : List Policy} (hps : ∀ p ∈ ps, SeparatedPolicy p)
    {b : PolicyBucket} (hb : Separated b) :
  Separated (ps.foldl PolicyBucket.insertPolicy b)
  := by
  induction ps generalizing b with
  | nil => exact hb
  | cons p ps ih =>
      apply ih fun q hq => hps q (List.mem_cons_of_mem p hq)
      rw [separated_iff] at hb ⊢
      refine ⟨hb.1, fun q hq => ?_⟩
      obtain rfl | ⟨hq, -⟩ := PolicyBucket.mem_insertPolicy.mp hq
      · apply hps q List.mem_cons_self
      · apply hb.2 q hq

/-- No bucket has a text that the separators cut. -/
def AllSeparated (s : Buckets) : Prop :=
  ∀ id b, s.find? id = some b → Separated b

theorem AllSeparated.put {s : Buckets} {b : PolicyBucket} (hs : AllSeparated s)
    (hb : Separated b) :
  AllSeparated (s.put b)
  := by
  intro id c hc
  rw [Buckets.find?_put] at hc
  split at hc
  · obtain rfl := Option.some.inj hc
    apply hb
  · apply hs id c hc

theorem allSeparated_initBuckets (index : Str) :
  AllSeparated (initBuckets index).state
  := by
  apply Outcome.forEach_state
  · intro id b hb
    simp [Buckets.find?] at hb
  · intro s line hline hs
    have hrecord := recordSeparator_notMem_of_mem_records hline
    unfold initBucket
    split
    · exact hs
    · rename_i id rest hid
      split
      · exact hs
      · rename_i result hresult
        split
        · dsimp only [Outcome.returned_state]
          split
          · exact hs
          · apply hs.put
            apply separated_empty
            obtain ⟨rfl, -⟩ := cut_eq_some hid
            intro hmem
            apply hrecord
            apply List.mem_append_right
            exact List.mem_cons_of_mem _ (metadata_of_parseResult hresult hmem)
        · exact hs

/-- Whatever is loaded can be saved. -/
theorem allSeparated_loadBuckets (order : IterationOrder Str)
    (openBucket : PolicyBucketId → Option Str) {s : Buckets} (hs : AllSeparated s) :
  AllSeparated (loadBuckets order openBucket s).state
  := by
  apply Outcome.forEach_state hs
  intro t e he ht
  split
  · exact ht
  · rename_i policies hpolicies
    obtain ⟨text, -, hload⟩ := Option.bind_eq_some_iff.mp hpolicies
    apply ht.put
    apply separated_foldl_insertPolicy (separatedPolicy_of_loadPolicies hload)
    exact hs e.1 e.2 ((IterationOrder.mem_entries _ _ _ _).mp he)

/-- Buckets that are read have no separators in their texts, whatever the files are. -/
theorem allSeparated_load (order : IterationOrder Str) (index : Str)
    (openBucket : PolicyBucketId → Option Str) :
  AllSeparated (load order index openBucket).state
  := by
  apply Outcome.andThen_state (allSeparated_initBuckets index)
  intro s hs
  apply allSeparated_loadBuckets order openBucket hs

/-! ### The round trip -/

/-- The buckets that are read are those that were written exactly when no feature of a key
contains a separator and no metadata contains a newline. -/
theorem load_dump_eq_iff {s : Buckets} (hs : WellNamed s) (order : DumpOrder)
    (loadOrder : IterationOrder Str) :
  load loadOrder (dumpIndex order.buckets s) (dumpedBucket order s) = .returned s
    ↔ AllSeparated s
  := by
  constructor
  · intro h
    have hload := allSeparated_load loadOrder (dumpIndex order.buckets s) (dumpedBucket order s)
    rw [h] at hload
    exact hload
  · intro hseparated
    have hmetadata := fun id b hb => (hseparated id b hb).defaultMetadata
    obtain ⟨t, ht, hfind⟩ := initBuckets_dumpIndex hs hmetadata order.buckets
    rw [load, ht, Outcome.andThen_returned]
    apply loadBuckets_eq
    · intro id hnone
      exact Option.map_eq_none_iff.mp ((hfind id).symm.trans hnone)
    · intro id c hc
      obtain ⟨b, hb, rfl⟩ := Option.map_eq_some_iff.mp ((hfind id).symm.trans hc)
      use Storage.listing (order.policies id) b
      constructor
      · rw [dumpedBucket, hb, Option.map_some, Option.bind_some]
        apply (hseparated id b hb).loadPolicies
      · rw [foldl_insertPolicy_listing, hb]

/-- A bucket whose policies have an empty feature, a feature that looks like a number, and
metadata with semicolons. -/
def quoted : Buckets :=
  Storage.initial.put
    ((PolicyBucket.empty (ofString "b-1")
        ⟨PredefinedPolicyType.ALLOW, ofString "1;2"⟩ rfl).insertPolicy
      ⟨⟨[], ofString "0x1F", ofString "*"⟩, ⟨PredefinedPolicyType.BUCKET, ofString ";b"⟩⟩)

theorem load_dump_quoted :
  load .sorted (dumpIndex .sorted quoted) (dumpedBucket ⟨.sorted, fun _ => .sorted⟩ quoted)
    = .returned quoted
  := by
  have hnamed : WellNamed quoted := by
    rw [wellNamed_iff]
    decide
  have hseparated : AllSeparated quoted := by
    intro id b hb
    refine ⟨?_, ?_, ?_⟩
    · exact (show ∀ id b, quoted.find? id = some b → ∀ p ∈ b,
        ∀ feature ∈ [p.key.client, p.key.user, p.key.privilege],
          fieldSeparator ∉ feature ∧ recordSeparator ∉ feature by decide) id b hb
    · exact (show ∀ id b, quoted.find? id = some b → ∀ p ∈ b,
        recordSeparator ∉ p.result.metadata by decide) id b hb
    · exact (show ∀ id b, quoted.find? id = some b →
        recordSeparator ∉ b.defaultPolicy.metadata by decide) id b hb
  exact (load_dump_eq_iff hnamed ⟨.sorted, fun _ => .sorted⟩ .sorted).mpr hseparated

end StorageDeserializer

end Cynara
