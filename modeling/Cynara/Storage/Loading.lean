import Cynara.Storage.CrashSafety

/-!
# Loading a damaged database

A load reads the checksums, the index and the files of the buckets.  Whatever is wrong with
them is a `DatabaseException`, which the load turns into `DatabaseCorruptedException` after it
has removed all buckets, with one exception: an id in the index that the constructor of a
bucket rejects is not a `DatabaseException`.  It leaves the load as it is, and the buckets of
the records before it stay in memory.

The files are arbitrary here.  There is no guard, and no call of the system fails.
-/

open Std

namespace Cynara

open InMemoryStorageBackend Str StoragePath StorageDeserializer Integrity

/-! ### The records of the index -/

namespace StorageDeserializer

/-- A record of the index of which the id, the type and the metadata can be told apart. -/
def parses (line : Str) : Bool :=
  ((parseBucketId line).bind fun (_, rest) => parseResult rest).isSome

/-- The records of the index have ids of buckets, up to the first that cannot be parsed. -/
def ValidIds (index : Str) : Prop :=
  ∀ line ∈ (records index).takeWhile parses, ∀ field ∈ parseBucketId line,
    idValidator field.1 = true

instance (index : Str) : Decidable (ValidIds index) := by
  unfold ValidIds
  infer_instance

/-- What a record of the index does. -/
theorem initBucket_cases (s : Buckets) (line : Str) :
  parses line = false ∧ initBucket s line = .threw .database s
    ∨ ∃ id rest, parses line = true ∧ parseBucketId line = some (id, rest)
      ∧ (idValidator id = true ∧ (∃ t, initBucket s line = .returned t)
        ∨ idValidator id = false ∧ initBucket s line = .threw (.invalidBucketId id) s)
  := by
  unfold initBucket parses
  cases hid : parseBucketId line with
  | none => exact Or.inl ⟨rfl, rfl⟩
  | some field =>
      obtain ⟨id, rest⟩ := field
      simp only [Option.bind_some]
      cases hresult : parseResult rest with
      | none => exact Or.inl ⟨rfl, rfl⟩
      | some result =>
          refine Or.inr ⟨id, rest, rfl, rfl, ?_⟩
          by_cases hvalid : idValidator id = true
          · exact Or.inl ⟨hvalid, _, dif_pos hvalid⟩
          · exact Or.inr ⟨by simpa using hvalid, dif_neg hvalid⟩

/-- The first record that is not accepted decides which exception is thrown. -/
theorem forEach_initBucket_thrown (ls : List Str) (s : Buckets) :
  (∀ id, (Outcome.forEach initBucket ls s).thrown ≠ some (.invalidBucketId id))
    ↔ ∀ line ∈ ls.takeWhile parses, ∀ field ∈ parseBucketId line, idValidator field.1 = true
  := by
  induction ls generalizing s with
  | nil => simp [Outcome.forEach]
  | cons line ls ih =>
      rw [Outcome.forEach, List.takeWhile_cons]
      obtain ⟨hparses, hinit⟩ | ⟨id, rest, hparses, hid, ⟨hvalid, t, hinit⟩ | ⟨hvalid, hinit⟩⟩ :=
        initBucket_cases s line
      · simp [hinit, hparses]
      · rw [hinit, Outcome.andThen_returned, ih t, if_pos hparses, List.forall_mem_cons]
        refine ⟨fun h => ⟨?_, h⟩, And.right⟩
        intro field hfield
        obtain rfl := Option.some.inj (hid.symm.trans hfield)
        exact hvalid
      · rw [hinit, Outcome.andThen_threw, if_pos hparses, List.forall_mem_cons]
        constructor
        · intro h
          exact absurd rfl (h id)
        · intro h
          rw [h.1 (id, rest) hid] at hvalid
          contradiction

theorem initBuckets_thrown (index : Str) :
  (∀ id, (initBuckets index).thrown ≠ some (.invalidBucketId id)) ↔ ValidIds index
  := forEach_initBucket_thrown (records index) ⟨∅, by simp⟩

/-- The files of the buckets throw `DatabaseException`s only. -/
theorem loadBuckets_thrown (order : IterationOrder Str)
    (openBucket : PolicyBucketId → Option Str) (s : Buckets) (id : PolicyBucketId) :
  (loadBuckets order openBucket s).thrown ≠ some (.invalidBucketId id)
  := by
  unfold loadBuckets
  generalize order.entries s.map = entries
  induction entries generalizing s with
  | nil => simp [Outcome.forEach]
  | cons e entries ih =>
      rw [Outcome.forEach]
      cases (openBucket e.1).bind BucketDeserializer.loadPolicies with
      | none => simp
      | some policies => exact ih _

end StorageDeserializer

/-! ### Loads -/

section

variable (digest : Str → Vector UInt8 16)

/-- A load in which no call of the system fails: the exception that leaves it, the buckets that
are in memory afterwards, and the disk. -/
inductive Loads (order dirOrder : IterationOrder Str) (disk : Disk) :
    Outcome LoadException Buckets → Disk → Prop where
  | threw {e : LoadException} {s : Buckets}
      (hread : readBuckets digest disk.dir.read order (backupGuardExists disk.dir) = .threw e s) :
      Loads order dirOrder disk (.threw e s) disk
  | returned {s : Buckets} {disk' : Disk}
      (hread : readBuckets digest disk.dir.read order (backupGuardExists disk.dir) = .returned s)
      (hcleanup : Crash.Completes exec
        (postLoadCleanup order dirOrder s (backupGuardExists disk.dir)) disk disk') :
      Loads order dirOrder disk (.returned s) disk'

/-- The load succeeded, or it threw `DatabaseCorruptedException` and left no buckets. -/
def Orderly (o : Outcome LoadException Buckets) : Prop :=
  o.thrown = none ∨ o.thrown = some .database ∧ o.state.map = ∅

/-- The index of the primary files, if it can be opened and has the recorded checksum. -/
def openIndex (read : Str → Option Str) : Option Str :=
  ((openFile digest read ∅ false checksumFilename).bind ChecksumValidator.load).bind fun sums =>
    openFile digest read sums false indexFilename

variable {digest}

/-- The only exception of reading that is no `DatabaseException`. -/
theorem readDatabase_thrown (read : Str → Option Str) (order : IterationOrder Str) :
  (∀ id, (readDatabase digest read order false).thrown ≠ some (.invalidBucketId id))
    ↔ ∀ index ∈ openIndex digest read, ValidIds index
  := by
  unfold readDatabase openIndex
  simp only [suffix, Bool.false_eq_true, ↓reduceIte, List.append_nil]
  cases (openFile digest read ∅ false checksumFilename).bind ChecksumValidator.load with
  | none => simp
  | some sums =>
      simp only [Option.bind_some]
      cases openFile digest read sums false indexFilename with
      | none => simp
      | some index =>
          simp only [Option.mem_def, Option.some.injEq, forall_eq']
          rw [← initBuckets_thrown]
          cases hinit : (initBuckets index).thrown with
          | none =>
              rw [Outcome.andThen_of_returned hinit]
              simp [loadBuckets_thrown]
          | some e => rw [Outcome.andThen_of_thrown hinit, hinit]

/-- A load ends with a database exception or not at all, if the names in the index are valid. -/
theorem readBuckets_orderly_iff (read : Str → Option Str) (order : IterationOrder Str) :
  Orderly (readBuckets digest read order false) ↔ ∀ index ∈ openIndex digest read, ValidIds index
  := by
  rw [← readDatabase_thrown read order]
  unfold readBuckets Orderly
  simp only
  split
  · rename_i h
    simp [h]
  · rename_i e hne h
    cases e with
    | database => exact absurd rfl hne
    | invalidBucketId id => simp [h]
  · rename_i h
    simp [h]

/-- Removing files does not fail. -/
theorem completes_deleteHardLinks (names : List Str) (disk : Disk) :
  ∃ disk', Crash.Completes exec (names.map .deleteHardLink) disk disk'
  := by
  induction names generalizing disk with
  | nil => exact ⟨disk, .done disk⟩
  | cons name names ih =>
      obtain ⟨disk', h⟩ := ih ⟨disk.dir.unlink name, disk.committed⟩
      exact ⟨disk', .step rfl h⟩

/-- A load without a guard comes to its end. -/
theorem exists_loads (digest : Str → Vector UInt8 16) {disk : Disk}
    (hguard : backupGuardExists disk.dir = false) (order dirOrder : IterationOrder Str) :
  ∃ disk', Loads digest order dirOrder disk (readBuckets digest disk.dir.read order false) disk'
  := by
  generalize hread : readBuckets digest disk.dir.read order false = o
  obtain ⟨s, _ | e⟩ := o
  · obtain ⟨disk', hcompletes⟩ := completes_deleteHardLinks
      (((dirOrder.entries disk.dir.names).map Prod.fst).filter (isNonIndexed s)) disk
    refine ⟨disk', .returned (hguard ▸ hread) ?_⟩
    rw [hguard]
    exact .step rfl (by simpa using hcompletes)
  · exact ⟨disk, .threw (hguard ▸ hread)⟩

/-- What a load leaves is what reading the files gives. -/
theorem Loads.outcome_eq {order dirOrder : IterationOrder Str} {disk disk' : Disk}
    {o : Outcome LoadException Buckets} (h : Loads digest order dirOrder disk o disk') :
  o = readBuckets digest disk.dir.read order (backupGuardExists disk.dir)
  := by
  cases h with
  | threw hread => exact hread.symm
  | returned hread _ => exact hread.symm

/-- A load of arbitrary files succeeds, or throws `DatabaseCorruptedException` and leaves no
buckets, exactly if the ids in an index with the recorded checksum are ids of buckets. -/
theorem load_orderly_iff (digest : Str → Vector UInt8 16) (order dirOrder : IterationOrder Str)
    (disk : Disk) (hguard : backupGuardExists disk.dir = false) :
  (∃ o disk', Loads digest order dirOrder disk o disk' ∧ Orderly o)
    ↔ ∀ index ∈ openIndex digest disk.dir.read, ValidIds index
  := by
  rw [← readBuckets_orderly_iff disk.dir.read order]
  constructor
  · rintro ⟨o, disk', hloads, horderly⟩
    rw [hloads.outcome_eq, hguard] at horderly
    exact horderly
  · intro horderly
    obtain ⟨disk', hloads⟩ := exists_loads digest hguard order dirOrder
    exact ⟨_, disk', hloads, horderly⟩

end

/-! ### An id that is rejected -/

/-- The new database is loaded. -/
theorem load_orderly_installed :
  ∃ o disk', Loads installedDigest .sorted .sorted ⟨installed, Storage.initial⟩ o disk' ∧ Orderly o
  := by
  apply (load_orderly_iff installedDigest .sorted .sorted ⟨installed, Storage.initial⟩
    (by decide)).mpr
  decide

/-- An index whose second id has an exclamation mark. -/
def damagedIndex : Str := ofString "a;0x0;\nb!;0x0;\n"

/-- The digest of this index. -/
def damagedDigest (_ : Str) : Vector UInt8 16 :=
  #v[0x2c, 0xd8, 0x2e, 0x61, 0x63, 0x88, 0x6b, 0x87, 0x24, 0xf1, 0x68, 0x9c, 0x83, 0xee, 0x2b, 0xbd]

/-- The files with this index and its checksum. -/
def damaged : Directory :=
  [(indexFilename, damagedIndex),
    (checksumFilename,
      ChecksumValidator.dumpRecord damagedDigest (indexFilename, damagedIndex)
        ++ [recordSeparator])].foldl
    (fun d file => (d.create file.1).setContents d.next file.2) .empty

/-- `InvalidBucketIdException` leaves the load, and the bucket of the first record stays. -/
theorem load_damaged :
  backupGuardExists damaged = false
    ∧ (∃ o disk', Loads damagedDigest .sorted .sorted ⟨damaged, Storage.initial⟩ o disk'
      ∧ o.thrown = some (.invalidBucketId (ofString "b!"))
      ∧ hasBucket o.state (ofString "a") = true)
    ∧ ¬ ∃ o disk', Loads damagedDigest .sorted .sorted ⟨damaged, Storage.initial⟩ o disk'
      ∧ Orderly o
  := by
  have hguard : backupGuardExists damaged = false := by decide
  refine ⟨hguard, ?_, ?_⟩
  · obtain ⟨disk', hloads⟩ := exists_loads damagedDigest
      (show backupGuardExists (Disk.mk damaged Storage.initial).dir = false from hguard)
      .sorted .sorted
    exact ⟨_, disk', hloads, by decide, by decide⟩
  · rintro ⟨o, disk', hloads, horderly⟩
    rw [hloads.outcome_eq] at horderly
    obtain hnone | ⟨hthrown, -⟩ := horderly
    · revert hnone
      decide
    · revert hthrown
      decide

end Cynara
