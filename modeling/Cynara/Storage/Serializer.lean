import Cynara.Library.Records
import Cynara.Storage.Effects

/-!
# The text of the database

The index of the database has a record for each bucket, its id and its default policy, and
the file of a bucket has a record for each of its policies.  The fields of a record are
separated by semicolons and the records by newlines; a policy type is written in
hexadecimal.  The maps are written in the order in which they happen to be traversed.

Where no field contains a separator, the buckets that are read are those that were
written.
-/

open Std

namespace Cynara

open PredefinedPolicyType InMemoryStorageBackend Str

namespace StoragePath

/-- The names of the files, and the separators in them. -/
def indexFilename : Str := ofString "buckets"
def guardFilename : Str := ofString "guard"
def checksumFilename : Str := ofString "checksum"
def backupFilenameSuffix : Str := ofString "~"
def bucketFilenamePrefix : Str := ofString "_"
def fieldSeparator : UInt8 := 59
def recordSeparator : UInt8 := 10

end StoragePath

open StoragePath

/-! ### Writing -/

namespace StorageSerializer

/-- A type is written in base 16. -/
def dumpType (policyType : PolicyType) : Str :=
  ofString "0x" ++ numeral 16 policyType.toNat

/-- The type and the metadata of a result, the last two fields of every record. -/
def dumpResult (result : PolicyResult) : Str :=
  dumpType result.policyType ++ fieldSeparator :: result.metadata

/-- The record of a bucket in the index. -/
def dumpIndexRecord (b : PolicyBucket) : Str :=
  b.id ++ fieldSeparator :: dumpResult b.defaultPolicy

/-- The record of a policy in the file of its bucket. -/
def dumpPolicy (p : Policy) : Str :=
  p.key.client ++ fieldSeparator :: (p.key.user ++ fieldSeparator ::
    (p.key.privilege ++ fieldSeparator :: dumpResult p.result))

/-- The text of the index. -/
def dumpIndex (order : IterationOrder Str) (s : Buckets) : Str :=
  (order.entries s.map).flatMap fun e => dumpIndexRecord e.2 ++ [recordSeparator]

/-- The text of the file of a bucket. -/
def dumpBucket (order : IterationOrder Str) (b : PolicyBucket) : Str :=
  (Storage.listing order b).flatMap fun p => dumpPolicy p ++ [recordSeparator]

end StorageSerializer

/-! ### Reading -/

/-- The exceptions of reading the database: the `DatabaseException`s, and an id that the
constructor of a bucket rejects. -/
inductive LoadException where
  | database
  | invalidBucketId (id : PolicyBucketId)
deriving DecidableEq

namespace StorageDeserializer

/-- The name of a bucket, and the rest of its record. -/
def parseBucketId (line : Str) : Option (PolicyBucketId × Str) :=
  cut fieldSeparator line

/-- The number is truncated to the sixteen bits of a policy type. -/
def parsePolicyType (text : Str) : Option (PolicyType × Str) :=
  (stoi16 text).map fun (n, rest) => (UInt16.ofNat (n % 2 ^ 16).toNat, rest)

/-- The byte that ends the number is skipped, whichever it is. -/
def parseMetadata (text : Str) : Str :=
  if text.isEmpty then [] else text.drop 1

/-- The type and the metadata at the end of a record. -/
def parseResult (text : Str) : Option PolicyResult :=
  (parsePolicyType text).map fun (policyType, rest) => ⟨policyType, parseMetadata rest⟩

/-- The records of a text, up to the first empty line. -/
def records (text : Str) : List Str :=
  (lines recordSeparator text).takeWhile fun line => !line.isEmpty

/-- Add the bucket of a record of the index; the first record of an id counts. -/
def initBucket (s : Buckets) (line : Str) : Outcome LoadException Buckets :=
  match parseBucketId line with
  | none => .threw .database s
  | some (id, rest) =>
      match parseResult rest with
      | none => .threw .database s
      | some result =>
          if h : idValidator id = true then
            .returned (if hasBucket s id then s else s.put (PolicyBucket.empty id result h))
          else
            .threw (.invalidBucketId id) s

/-- The buckets of the index, which are still empty. -/
def initBuckets (text : Str) : Outcome LoadException Buckets :=
  .forEach initBucket (records text) ⟨∅, Buckets.keyed_empty⟩

end StorageDeserializer

namespace BucketDeserializer

open StorageDeserializer

/-- The three texts of a key, and the rest of the record. -/
def parseKey (line : Str) : Option (PolicyKey × Str) :=
  match cut fieldSeparator line with
  | none => none
  | some (client, rest) =>
      match cut fieldSeparator rest with
      | none => none
      | some (user, rest) =>
          match cut fieldSeparator rest with
          | none => none
          | some (privilege, rest) => some (⟨client, user, privilege⟩, rest)

def parsePolicy (line : Str) : Option Policy :=
  match parseKey line with
  | none => none
  | some (key, rest) => (parseResult rest).map fun result => ⟨key, result⟩

/-- The policies of the file of a bucket; `none` stands for a corrupted record. -/
def loadPolicies (text : Str) : Option (List Policy) :=
  (records text).mapM parsePolicy

end BucketDeserializer

namespace StorageDeserializer

/-- Read the file of every bucket; `openBucket` gives its text, or `none` if it cannot be
opened or does not match its checksum. -/
def loadBuckets (order : IterationOrder Str) (openBucket : PolicyBucketId → Option Str)
    (s : Buckets) : Outcome LoadException Buckets :=
  .forEach
    (fun s e =>
      match (openBucket e.1).bind BucketDeserializer.loadPolicies with
      | none => .threw .database s
      | some policies => .returned (s.put (policies.foldl PolicyBucket.insertPolicy e.2)))
    (order.entries s.map) s

end StorageDeserializer

/-! ### Reading what was written -/

namespace StorageDeserializer

open StorageSerializer

theorem parseResult_dumpResult (r : PolicyResult) :
  parseResult (dumpResult r) = some r
  := by
  have hn : r.policyType.toNat < 2 ^ 31 := by
    have := r.policyType.toNat_lt
    omega
  have hrest : ∀ c ∈ (fieldSeparator :: r.metadata).head?, isxdigit c = false := by
    simp only [List.head?_cons, Option.mem_def, Option.some.injEq, forall_eq']
    decide
  have htype : UInt16.ofNat (((r.policyType.toNat : ℤ) % 2 ^ 16).toNat) = r.policyType := by
    have hlt := r.policyType.toNat_lt
    have hmod : ((r.policyType.toNat : ℤ) % 2 ^ 16).toNat = r.policyType.toNat := by omega
    rw [hmod, UInt16.ofNat_toNat]
  rw [parseResult, parsePolicyType, dumpResult, dumpType, stoi16_numeral hn hrest]
  simp only [Option.map_some, htype]
  rfl

/-- The records of a text are those that were written, if none of them is empty or contains
the separator. -/
theorem records_flatMap {α : Type} (f : α → Str) (as : List α)
    (h : ∀ a ∈ as, recordSeparator ∉ f a ∧ f a ≠ []) :
  records (as.flatMap fun a => f a ++ [recordSeparator]) = as.map f
  := by
  rw [records, lines_flatMap f as fun a ha => (h a ha).1, List.takeWhile_eq_self_iff]
  intro line hline
  obtain ⟨a, ha, rfl⟩ := List.mem_map.mp hline
  simpa using (h a ha).2

/-- The bucket without its policies. -/
def blank (b : PolicyBucket) : PolicyBucket :=
  PolicyBucket.empty b.id b.defaultPolicy b.valid

theorem initBucket_dumpIndexRecord (s : Buckets) {b : PolicyBucket}
    (hid : fieldSeparator ∉ b.id) :
  initBucket s (dumpIndexRecord b)
    = .returned (if hasBucket s b.id then s else s.put (blank b))
  := by
  rw [initBucket, dumpIndexRecord, parseBucketId, cut_append_sep hid]
  simp only [parseResult_dumpResult, b.valid, ↓reduceDIte]
  rfl

/-- The buckets that are initialised from the records of a list of buckets: for every id the
first bucket of the list, without its policies. -/
theorem forEach_initBucket (bs : List PolicyBucket) (s : Buckets)
    (h : ∀ b ∈ bs, fieldSeparator ∉ b.id) :
  ∃ t, Outcome.forEach initBucket (bs.map dumpIndexRecord) s = .returned t
    ∧ ∀ id, t.find? id = (s.find? id).or ((bs.find? fun b => b.id == id).map blank)
  := by
  induction bs generalizing s with
  | nil =>
      use s, rfl
      simp
  | cons b bs ih =>
      obtain ⟨t, ht, hfind⟩ := ih (if hasBucket s b.id then s else s.put (blank b))
        fun c hc => h c (List.mem_cons_of_mem b hc)
      use t
      constructor
      · rw [List.map_cons, Outcome.forEach,
          initBucket_dumpIndexRecord s (h b List.mem_cons_self), Outcome.andThen_returned, ht]
      · intro id
        rw [hfind, List.find?_cons]
        by_cases hid : b.id = id
        · subst hid
          cases hs : s.find? b.id with
          | some c => simp [hasBucket, hs]
          | none =>
              have hblank : (blank b).id = b.id := rfl
              simp [hasBucket, hs, hblank]
        · have hblank : (blank b).id ≠ id := hid
          have hbeq : (b.id == id) = false := by simpa using hid
          rw [hbeq]
          congr 1
          split
          · rfl
          · rw [Buckets.find?_put, if_neg hblank]

/-- The first bucket of a traversal that has a given id. -/
theorem find?_entries (order : IterationOrder Str) (s : Buckets) (id : PolicyBucketId) :
  ((order.entries s.map).map Prod.snd).find? (fun b => b.id == id) = s.find? id
  := by
  have hmem : ∀ b, b ∈ (order.entries s.map).map Prod.snd ↔ s.find? b.id = some b := by
    intro b
    simp only [List.mem_map, Prod.exists, exists_eq_right, IterationOrder.mem_entries]
    constructor
    · rintro ⟨k, hk⟩
      rw [Buckets.find?, s.keyed k b hk, hk]
    · intro hb
      exact ⟨b.id, hb⟩
  cases hs : s.find? id with
  | none =>
      rw [List.find?_eq_none]
      intro b hb heq
      obtain rfl : b.id = id := by simpa using heq
      rw [(hmem b).mp hb] at hs
      contradiction
  | some b =>
      obtain rfl : b.id = id := Buckets.id_of_find? hs
      have hsome : (((order.entries s.map).map Prod.snd).find? fun c => c.id == b.id).isSome := by
        rw [List.find?_isSome]
        exact ⟨b, (hmem b).mpr hs, by simp⟩
      obtain ⟨c, hc⟩ := Option.isSome_iff_exists.mp hsome
      have hcid : c.id = b.id := by simpa using List.find?_some hc
      have hcmem := (hmem c).mp (List.mem_of_find?_eq_some hc)
      rw [hcid, hs] at hcmem
      rw [hc, Option.some.inj hcmem]

end StorageDeserializer

namespace BucketDeserializer

open StorageSerializer StorageDeserializer

/-- The features of a key do not contain the field separator. -/
def Separable (key : PolicyKey) : Prop :=
  fieldSeparator ∉ key.client ∧ fieldSeparator ∉ key.user ∧ fieldSeparator ∉ key.privilege

theorem parsePolicy_dumpPolicy {p : Policy} (h : Separable p.key) :
  parsePolicy (dumpPolicy p) = some p
  := by
  obtain ⟨hclient, huser, hprivilege⟩ := h
  simp only [parsePolicy, parseKey, dumpPolicy, cut_append_sep hclient, cut_append_sep huser,
    cut_append_sep hprivilege, parseResult_dumpResult, Option.map_some]

/-- No record of a policy contains the record separator. -/
theorem recordSeparator_notMem_dumpResult {r : PolicyResult} (h : recordSeparator ∉ r.metadata) :
  recordSeparator ∉ dumpResult r
  := by
  have hnumeral : recordSeparator ∉ numeral 16 r.policyType.toNat :=
    notMem_numeral (by omega) (by omega) (by decide)
  have hprefixed : recordSeparator ∉ ofString "0x" := by decide
  have hsep : recordSeparator ≠ fieldSeparator := by decide
  simp [dumpResult, dumpType, hnumeral, hprefixed, hsep, h]

/-- The policies of a bucket are read back. -/
theorem loadPolicies_dumpBucket (order : IterationOrder Str) {b : PolicyBucket}
    (h : ∀ p ∈ b, Separable p.key)
    (hrecord : ∀ p ∈ b, recordSeparator ∉ dumpPolicy p) :
  loadPolicies (dumpBucket order b) = some (Storage.listing order b)
  := by
  have hrecords : records (dumpBucket order b) = (Storage.listing order b).map dumpPolicy := by
    apply records_flatMap
    intro p hp
    refine ⟨hrecord p (Storage.mem_listing.mp hp), ?_⟩
    simp [dumpPolicy]
  have hall : ∀ p ∈ Storage.listing order b, parsePolicy (dumpPolicy p) = some p := fun p hp =>
    parsePolicy_dumpPolicy (h p (Storage.mem_listing.mp hp))
  rw [loadPolicies, hrecords]
  exact mapM_map_of_inverse hall

/-- The texts of a bucket that the separators do not cut: no feature of a key contains a
separator, and no metadata contains a newline. -/
structure Separated (b : PolicyBucket) : Prop where
  features : ∀ p ∈ b, ∀ feature ∈ [p.key.client, p.key.user, p.key.privilege],
    fieldSeparator ∉ feature ∧ recordSeparator ∉ feature
  metadata : ∀ p ∈ b, recordSeparator ∉ p.result.metadata
  defaultMetadata : recordSeparator ∉ b.defaultPolicy.metadata

/-- The policies of the file of a bucket are those that were written. -/
theorem Separated.loadPolicies {b : PolicyBucket} (hb : Separated b)
    (order : IterationOrder Str) :
  loadPolicies (dumpBucket order b) = some (Storage.listing order b)
  := by
  have hfeatures := hb.features
  simp only [List.mem_cons, List.not_mem_nil, or_false, forall_eq_or_imp, forall_eq] at hfeatures
  apply loadPolicies_dumpBucket
  · intro p hp
    obtain ⟨hclient, huser, hprivilege⟩ := hfeatures p hp
    exact ⟨hclient.1, huser.1, hprivilege.1⟩
  · intro p hp
    have hsep : recordSeparator ≠ fieldSeparator := by decide
    have hresult := recordSeparator_notMem_dumpResult (hb.metadata p hp)
    simp [dumpPolicy, hsep, hresult, hfeatures p hp]

/-- The policy found under a key after policies have been inserted: of several the last. -/
theorem getElem?_foldl_insertPolicy (ps : List Policy) (b : PolicyBucket) (k : Str) :
  (ps.foldl PolicyBucket.insertPolicy b).policies[k]?
    = (ps.reverse.find? fun p => p.key.glue == k).or b.policies[k]?
  := by
  induction ps generalizing b with
  | nil => simp
  | cons p ps ih =>
      rw [List.foldl_cons, ih, List.reverse_cons, List.find?_append, Option.or_assoc]
      congr 1
      simp only [PolicyBucket.insertPolicy, ExtTreeMap.getElem?_insert, Std.compare_eq_iff_eq]
      by_cases hk : p.key.glue = k
      · simp [hk]
      · simp [hk]

theorem foldl_insertPolicy_id (ps : List Policy) (b : PolicyBucket) :
  (ps.foldl PolicyBucket.insertPolicy b).id = b.id
    ∧ (ps.foldl PolicyBucket.insertPolicy b).defaultPolicy = b.defaultPolicy
  := by
  induction ps generalizing b with
  | nil => exact ⟨rfl, rfl⟩
  | cons p ps ih => exact ih (b.insertPolicy p)

/-- Inserting the policies of a bucket, in whatever order, into the bucket without them
gives it back. -/
theorem foldl_insertPolicy_listing (order : IterationOrder Str) (b : PolicyBucket) :
  (Storage.listing order b).foldl PolicyBucket.insertPolicy (blank b) = b
  := by
  obtain ⟨hid, hdefault⟩ := foldl_insertPolicy_id (Storage.listing order b) (blank b)
  apply PolicyBucket.ext_getElem? (c := b) hid hdefault
  intro k
  rw [getElem?_foldl_insertPolicy]
  have hblank : (blank b).policies[k]? = none := by simp [blank, PolicyBucket.empty]
  rw [hblank, Option.or_none]
  have hmem : ∀ p, p ∈ (Storage.listing order b).reverse ↔ b.policies[p.key.glue]? = some p := by
    intro p
    rw [List.mem_reverse, Storage.mem_listing, PolicyBucket.mem_def]
  cases hk : b.policies[k]? with
  | none =>
      rw [List.find?_eq_none]
      intro p hp heq
      obtain rfl : p.key.glue = k := by simpa using heq
      rw [(hmem p).mp hp] at hk
      contradiction
  | some p =>
      obtain rfl := b.glued k p hk
      have hsome : ((Storage.listing order b).reverse.find?
          fun q => q.key.glue == p.key.glue).isSome := by
        rw [List.find?_isSome]
        exact ⟨p, (hmem p).mpr hk, by simp⟩
      obtain ⟨q, hq⟩ := Option.isSome_iff_exists.mp hsome
      have hqkey : q.key.glue = p.key.glue := by simpa using List.find?_some hq
      have hqmem := (hmem q).mp (List.mem_of_find?_eq_some hq)
      rw [hqkey, hk] at hqmem
      rw [hq, Option.some.inj hqmem]

end BucketDeserializer

namespace StorageDeserializer

/-- Loading the files of the buckets of a traversal, where every file completes its bucket
to the one of `s`. -/
theorem forEach_loadBucket {s : Buckets} {openBucket : PolicyBucketId → Option Str}
    (es : List (PolicyBucketId × PolicyBucket))
    (h : ∀ e ∈ es, ∃ ps, (openBucket e.1).bind BucketDeserializer.loadPolicies = some ps
      ∧ s.find? e.1 = some (ps.foldl PolicyBucket.insertPolicy e.2)) (u : Buckets) :
  ∃ t, Outcome.forEach (fun s (e : PolicyBucketId × PolicyBucket) =>
        match (openBucket e.1).bind BucketDeserializer.loadPolicies with
        | none => .threw .database s
        | some policies => .returned (s.put (policies.foldl PolicyBucket.insertPolicy e.2)))
      es u = (.returned t : Outcome LoadException Buckets)
    ∧ ∀ id, t.find? id = if id ∈ es.map Prod.fst then s.find? id else u.find? id
  := by
  induction es generalizing u with
  | nil =>
      use u, rfl
      simp
  | cons e es ih =>
      obtain ⟨ps, hps, hfold⟩ := h e List.mem_cons_self
      obtain ⟨t, ht, hfind⟩ := ih (fun e' he' => h e' (List.mem_cons_of_mem e he'))
        (u.put (ps.foldl PolicyBucket.insertPolicy e.2))
      use t
      constructor
      · rw [Outcome.forEach, hps]
        dsimp only
        rw [Outcome.andThen_returned, ht]
      · intro id
        rw [hfind, List.map_cons]
        have hid := Buckets.id_of_find? hfold
        by_cases hmem : id ∈ es.map Prod.fst
        · rw [if_pos hmem, if_pos (List.mem_cons_of_mem _ hmem)]
        · rw [if_neg hmem, Buckets.find?_put, hid]
          by_cases heq : e.1 = id
          · subst heq
            rw [if_pos rfl, if_pos List.mem_cons_self, hfold]
          · rw [if_neg heq, if_neg]
            simp only [List.mem_cons, not_or]
            exact ⟨fun h => heq h.symm, hmem⟩

/-- The files of the buckets complete the buckets of the index, in whatever order they are
read. -/
theorem loadBuckets_eq {s t : Buckets} {openBucket : PolicyBucketId → Option Str}
    (order : IterationOrder Str) (hnone : ∀ id, t.find? id = none → s.find? id = none)
    (h : ∀ id c, t.find? id = some c → ∃ ps,
      (openBucket id).bind BucketDeserializer.loadPolicies = some ps
        ∧ s.find? id = some (ps.foldl PolicyBucket.insertPolicy c)) :
  loadBuckets order openBucket t = .returned s
  := by
  obtain ⟨u, hu, hfind⟩ := forEach_loadBucket (order.entries t.map)
    (fun e he => h e.1 e.2 ((IterationOrder.mem_entries _ _ _ _).mp he)) t
  rw [loadBuckets, hu]
  congr 1
  ext id : 1
  rw [hfind]
  split
  · rfl
  · rename_i hmem
    -- a bucket that is not traversed does not exist
    have ht : t.find? id = none := by
      rw [Option.eq_none_iff_forall_ne_some]
      intro c hc
      apply hmem
      exact List.mem_map.mpr ⟨(id, c), (IterationOrder.mem_entries _ _ _ _).mpr hc, rfl⟩
    rw [ht, hnone id ht]

end StorageDeserializer

end Cynara
