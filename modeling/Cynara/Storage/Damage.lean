import Cynara.Storage.ChecksumStream
import Cynara.Storage.CutWrites

/-!
# Damaged files

The files that a save writes match the checksums it writes, under the names of the backup and under
the primary names.  If one of them is damaged afterwards, or if its checksum is lost, then the
checksum does not match when the file is opened, and the load ends with
`DatabaseCorruptedException`.

But not every file need be opened.  The buckets are those that the index lists, and metadata are
written into the index as they are.  Where the metadata of a default policy contain an empty line,
the index ends there for the reader, and the files of the buckets that come after it are not opened.
-/

open Std

namespace Cynara

open InMemoryStorageBackend Str StoragePath StorageSerializer StorageDeserializer

variable (digest : Str → Vector UInt8 16)

/-! ### Paths -/

/-- The checksums by the names of the files. -/
abbrev Checksums := ExtTreeMap Str Str

namespace ChecksumValidator

/-- What follows the last slash of a path. -/
def basename (path : Str) : Str := (path.reverse.takeWhile fun c => c != 47).reverse

/-- The checksums are in one of these two files. -/
def isChecksumPath (dbPath pathname : Str) : Bool :=
  pathname == dbPath ++ checksumFilename
    || pathname == dbPath ++ checksumFilename ++ backupFilenameSuffix

/-- The comparison with the checksum of a file that is given by its path. -/
def comparePath (dbPath : Str) (sums : Checksums) (pathname : Str) (isBackupValid : Bool)
    (data : Str) : Bool :=
  isChecksumPath dbPath pathname ||
    let filename := basename (cString pathname)
    let filename :=
      if isBackupValid && filename.getLast? == some 126 then filename.dropLast else filename
    sums[filename]?.getD [] == generate digest data

theorem basename_append {directory name : Str} (hname : 47 ∉ name) :
  basename (directory ++ 47 :: name) = name
  := by
  have hall : ∀ c ∈ name.reverse, (c != 47) = true := by
    intro c hc
    simp only [bne_iff_ne, ne_eq]
    rintro rfl
    exact hname (List.mem_reverse.mp hc)
  have hreverse : (directory ++ 47 :: name).reverse = name.reverse ++ 47 :: directory.reverse := by
    simp
  rw [basename, hreverse, (takeWhile_dropWhile_append hall (by simp)).1, List.reverse_reverse]

/-- Only the name of the file in its directory matters. -/
theorem comparePath_eq {directory name : Str} (hdirectory : 0 ∉ directory) (hname : 47 ∉ name)
    (sums : Checksums) (isBackupValid : Bool) (data : Str) :
  comparePath digest (directory ++ [47]) sums (directory ++ 47 :: name) isBackupValid data
    = compare digest sums name isBackupValid data
  := by
  have hindex : isChecksumPath (directory ++ [47]) (directory ++ 47 :: name)
      = isChecksumIndex name := by
    rw [Bool.eq_iff_iff]
    simp [isChecksumPath, isChecksumIndex]
  have hcut : 47 ∉ cString name := fun hmem => hname (List.takeWhile_subset _ hmem)
  have hpath : cString (directory ++ 47 :: name) = directory ++ 47 :: cString name := by
    rw [cString_append, if_neg hdirectory, cString, List.takeWhile_cons_of_pos (by decide)]
    rfl
  rw [comparePath, hindex, hpath, basename_append hcut]
  rfl

end ChecksumValidator

/-! ### Damage -/

/-- The content of a file is replaced, or its record is removed from the checksum file. -/
inductive Damage where
  | content (data : Str)
  | record

/-- The text of the checksum file without the record of a file. -/
def checksumsWithout (order : DumpOrder) (s : Buckets) (base : Str) : Str :=
  ((dumpDatabase digest order s).1.filter fun f => f.1 != base).flatMap fun f =>
    ChecksumValidator.dumpRecord digest f ++ [recordSeparator]

/-- The files after the damage. -/
def afterDamage (order : DumpOrder) (s : Buckets) (isBackupValid : Bool) (read : Str → Option Str)
    (base : Str) : Damage → Str → Option Str
  | .content data => Function.update read (base ++ suffix isBackupValid) (some data)
  | .record =>
      Function.update read (checksumFilename ++ suffix isBackupValid)
        (some (checksumsWithout digest order s base))

/-- The new content of a file has another digest than the text that was written. -/
def Damage.Alters (text : Str) : Damage → Prop
  | .content data => digest data ≠ digest text
  | .record => True

/-- The damaged file is the one that is opened, or its record is the one that is looked up, when a
file is opened. -/
def Damage.Concerns (isBackupValid : Bool) (base filename : Str) : Damage → Prop
  | .content _ => cString filename = base ++ suffix isBackupValid
  | .record => ChecksumValidator.recordedName filename isBackupValid = base

/-- The files that were written are there, under the names of the backup or the primary ones. -/
def Written (order : DumpOrder) (s : Buckets) (isBackupValid : Bool) (read : Str → Option Str) :
    Prop :=
  ∀ f ∈ (dumpDatabase digest order s).1 ++ [(checksumFilename, (dumpDatabase digest order s).2)],
    read (f.1 ++ suffix isBackupValid) = some f.2

variable {digest}

/-! ### Checksums tell digests apart -/

theorem flatMap_lowerDigit_injective :
  Function.Injective fun bytes : List UInt8 => bytes.flatMap fun e =>
    [ChecksumValidator.lowerDigit (e.toNat / 16), ChecksumValidator.lowerDigit (e.toNat % 16)]
  := by
  have hdigit : ∀ d < 16, ∀ d' < 16,
      ChecksumValidator.lowerDigit d = ChecksumValidator.lowerDigit d' → d = d' := by decide
  intro bytes bytes' h
  induction bytes generalizing bytes' with
  | nil =>
      cases bytes' with
      | nil => rfl
      | cons e' bytes' => simp at h
  | cons e bytes ih =>
      cases bytes' with
      | nil => simp at h
      | cons e' bytes' =>
          simp only [List.flatMap_cons, List.cons_append, List.nil_append, List.cons.injEq] at h
          obtain ⟨hhigh, hlow, hrest⟩ := h
          have hlt := e.toNat_lt
          have hlt' := e'.toNat_lt
          have hdiv := hdigit _ (by omega) _ (by omega) hhigh
          have hmod := hdigit _ (by omega) _ (by omega) hlow
          rw [ih hrest, UInt8.toNat_inj.mp (by omega : e.toNat = e'.toNat)]

theorem generate_ne {data text : Str} (h : digest data ≠ digest text) :
  ChecksumValidator.generate digest data ≠ ChecksumValidator.generate digest text
  := by
  intro heq
  apply h
  apply Vector.toList_inj.mp
  exact flatMap_lowerDigit_injective heq

/-! ### The checksums that are loaded -/

section

variable {s : Buckets} {order : DumpOrder} {f : Str × Str}

theorem fileOf_of_mem_dumpDatabase (hf : f ∈ (dumpDatabase digest order s).1) :
  FileOf s f.1
  := by
  rw [dumpDatabase_eq] at hf
  exact fileOf_of_mem_summed hf

/-- A file is the index or the file of a bucket. -/
theorem ne_checksumFilename_of_mem (hf : f ∈ (dumpDatabase digest order s).1) :
  f.1 ≠ checksumFilename
  := by
  rw [dumpDatabase_eq] at hf
  obtain hf | hf := List.mem_append.mp hf
  · obtain ⟨e, -, rfl⟩ := List.mem_map.mp hf
    intro h
    have hhead := congrArg List.head? h
    simp [bucketFilename, bucketFilenamePrefix, checksumFilename, ofString] at hhead
  · obtain rfl := List.mem_singleton.mp hf
    change indexFilename ≠ checksumFilename
    decide

/-- There is one file of each name. -/
theorem find?_of_mem_dumpDatabase (hf : f ∈ (dumpDatabase digest order s).1) :
  (dumpDatabase digest order s).1.find? (fun g => g.1 == f.1) = some f
  := by
  rw [dumpDatabase_eq] at hf ⊢
  obtain hf | hf := List.mem_append.mp hf
  · obtain ⟨e, he, rfl⟩ := List.mem_map.mp hf
    rw [List.find?_append,
      find?_bucketFiles order ((IterationOrder.mem_entries _ _ _ _).mp he : s.find? e.1 = _)]
    rfl
  · obtain rfl := List.mem_singleton.mp hf
    rw [List.find?_append, find?_bucketFiles_indexFilename]
    simp

variable (digest) in
/-- The checksums of the files that were written, and those without the record of one of them. -/
theorem load_checksums (hs : WellNamed s) (order : DumpOrder) (base : Str) :
  ∃ sums sums' : Checksums,
    ChecksumValidator.load (dumpDatabase digest order s).2 = some sums
    ∧ (∀ f ∈ (dumpDatabase digest order s).1,
        sums[f.1]? = some (ChecksumValidator.generate digest f.2))
    ∧ ChecksumValidator.load (checksumsWithout digest order s base) = some sums'
    ∧ sums'[base]? = none ∧ ∀ k, k ≠ base → sums'[k]? = sums[k]?
  := by
  have hfiles : ∀ f ∈ (dumpDatabase digest order s).1, FileOf s f.1 := fun f =>
    fileOf_of_mem_dumpDatabase
  obtain ⟨sums, hload, hsums⟩ := load_dumpRecords digest hs hfiles
  obtain ⟨sums', hload', hsums'⟩ := load_dumpRecords digest hs
    fun f (hf : f ∈ (dumpDatabase digest order s).1.filter fun f => f.1 != base) =>
      hfiles f (List.mem_of_mem_filter hf)
  refine ⟨sums, sums', ?_, ?_, hload', ?_, ?_⟩
  · rw [← hload]
    simp only [dumpDatabase_eq, dumpChecksums]
  · intro f hf
    rw [hsums, find?_of_mem_dumpDatabase hf]
    rfl
  · rw [hsums', List.find?_filter, List.find?_eq_none.mpr]
    · rfl
    · intro f _
      simp
  · intro k hk
    rw [hsums', hsums, List.find?_filter]
    congr 2
    funext f
    by_cases hf : f.1 = k
    · simp [hf, hk]
    · simp [hf]

end

/-! ### Opening a file -/

theorem recordedName_congr {filename filename' : Str} (h : cString filename = cString filename')
    (isBackupValid : Bool) :
  ChecksumValidator.recordedName filename isBackupValid
    = ChecksumValidator.recordedName filename' isBackupValid
  := by
  simp only [ChecksumValidator.recordedName, h]

/-- A file that has another checksum than the recorded one is not opened. -/
theorem openFile_eq_none {read : Str → Option Str} {sums : Checksums} {isBackupValid : Bool}
    {filename : Str} (hindex : ChecksumValidator.isChecksumIndex filename = false)
    (hsum : ∀ data ∈ read (cString filename),
      sums[ChecksumValidator.recordedName filename isBackupValid]?.getD []
        ≠ ChecksumValidator.generate digest data) :
  openFile digest read sums isBackupValid filename = none
  := by
  rw [openFile, Option.filter_eq_none_iff]
  intro data hdata
  simpa [ChecksumValidator.compare, hindex] using hsum data hdata

variable (digest) in
/-- What a load sees after the damage: the file that the damage concerns cannot be opened, and
every other one is opened as before. -/
structure Sees (order : DumpOrder) (s : Buckets) (isBackupValid : Bool) (read : Str → Option Str)
    (base : Str) (damage : Damage) (sums sums' : Checksums) : Prop where
  load : (openFile digest (afterDamage digest order s isBackupValid read base damage) ∅
    isBackupValid (checksumFilename ++ suffix isBackupValid)).bind ChecksumValidator.load
      = some sums'
  concerned : ∀ filename, ChecksumValidator.isChecksumIndex filename = false →
    damage.Concerns isBackupValid base filename →
      openFile digest (afterDamage digest order s isBackupValid read base damage) sums'
        isBackupValid filename = none
  other : ∀ filename, ChecksumValidator.isChecksumIndex filename = false →
    cString filename ≠ checksumFilename ++ suffix isBackupValid →
    ¬ damage.Concerns isBackupValid base filename →
      openFile digest (afterDamage digest order s isBackupValid read base damage) sums'
          isBackupValid filename
        = openFile digest read sums isBackupValid filename

section

variable {s : Buckets} {order : DumpOrder} {isBackupValid : Bool} {read : Str → Option Str}
variable {f : Str × Str} {damage : Damage}

theorem openFile_checksums (hs : WellNamed s) {text : Str}
    (htext : read (checksumFilename ++ suffix isBackupValid) = some text) :
  openFile digest read ∅ isBackupValid (checksumFilename ++ suffix isBackupValid) = some text
  := openFile_eq hs (Or.inl rfl) htext (Or.inl rfl)

/-- The checksums of the files are loaded, before and after the damage. -/
theorem Written.sees (hread : Written digest order s isBackupValid read) (hs : WellNamed s)
    (hf : f ∈ (dumpDatabase digest order s).1) (halters : damage.Alters digest f.2) :
  ∃ sums sums' : Checksums,
    (openFile digest read ∅ isBackupValid (checksumFilename ++ suffix isBackupValid)).bind
        ChecksumValidator.load = some sums
    ∧ (∀ g ∈ (dumpDatabase digest order s).1,
        sums[g.1]? = some (ChecksumValidator.generate digest g.2))
    ∧ Sees digest order s isBackupValid read f.1 damage sums sums'
  := by
  obtain ⟨sums, sums', hload, hsums, hload', hnone, hsame⟩ := load_checksums digest hs order f.1
  have hfile := fileOf_of_mem_dumpDatabase hf
  have hchecksums : read (checksumFilename ++ suffix isBackupValid)
      = some (dumpDatabase digest order s).2 :=
    hread (checksumFilename, (dumpDatabase digest order s).2) (by simp)
  have hbefore : openFile digest read ∅ isBackupValid (checksumFilename ++ suffix isBackupValid)
      = some (dumpDatabase digest order s).2 := openFile_checksums hs hchecksums
  refine ⟨sums, ?_⟩
  cases damage with
  | content data =>
      have hne : checksumFilename ++ suffix isBackupValid ≠ f.1 ++ suffix isBackupValid := fun h =>
        ne_checksumFilename_of_mem hf (List.append_cancel_right h).symm
      refine ⟨sums, by rw [hbefore, Option.bind_some, hload], hsums, ?_, ?_, ?_⟩
      · have hafter : afterDamage digest order s isBackupValid read f.1 (.content data)
            (checksumFilename ++ suffix isBackupValid) = some (dumpDatabase digest order s).2 :=
          (Function.update_of_ne hne ..).trans hchecksums
        rw [openFile_checksums hs hafter, Option.bind_some, hload]
      · intro filename hindex hconcerns
        have hname : cString filename = cString (f.1 ++ suffix isBackupValid) :=
          hconcerns.trans (cString_append_suffix hs hfile isBackupValid).symm
        apply openFile_eq_none hindex
        intro data' hdata'
        obtain rfl : data = data' := by
          rw [show cString filename = _ from hconcerns] at hdata'
          simpa [afterDamage] using hdata'
        rw [recordedName_congr hname, recordedName_append_suffix hs hfile, hsums f hf]
        exact (generate_ne halters).symm
      · intro filename _ _ hconcerns
        have hsame : afterDamage digest order s isBackupValid read f.1 (.content data)
            (cString filename) = read (cString filename) :=
          Function.update_of_ne hconcerns ..
        rw [openFile, openFile, hsame]
  | record =>
      refine ⟨sums', by rw [hbefore, Option.bind_some, hload], hsums, ?_, ?_, ?_⟩
      · have hafter : afterDamage digest order s isBackupValid read f.1 .record
            (checksumFilename ++ suffix isBackupValid)
              = some (checksumsWithout digest order s f.1) := Function.update_self ..
        rw [openFile_checksums hs hafter, Option.bind_some, hload']
      · intro filename hindex hconcerns
        apply openFile_eq_none hindex
        intro data _
        rw [show ChecksumValidator.recordedName filename isBackupValid = f.1 from hconcerns, hnone]
        exact (generate_ne_nil data).symm
      · intro filename hindex hne hconcerns
        have hsum := hsame _ hconcerns
        have hread' : afterDamage digest order s isBackupValid read f.1 .record (cString filename)
            = read (cString filename) :=
          Function.update_of_ne hne ..
        rw [openFile, openFile, hread']
        unfold ChecksumValidator.compare
        rw [hsum]

end

/-! ### Loading -/

/-- The files of the buckets are not read if that of one bucket cannot be opened or parsed. -/
theorem loadBuckets_thrown_iff (loadOrder : IterationOrder Str)
    (openBucket : PolicyBucketId → Option Str) (t : Buckets) :
  (loadBuckets loadOrder openBucket t).thrown = some .database
    ↔ ∃ id, hasBucket t id = true
      ∧ (openBucket id).bind BucketDeserializer.loadPolicies = none
  := by
  have hmem : (∃ id, hasBucket t id = true
        ∧ (openBucket id).bind BucketDeserializer.loadPolicies = none)
      ↔ ∃ e ∈ loadOrder.entries t.map,
        (openBucket e.1).bind BucketDeserializer.loadPolicies = none := by
    constructor
    · rintro ⟨id, hid, hnone⟩
      obtain ⟨b, hb⟩ := Option.isSome_iff_exists.mp hid
      exact ⟨(id, b), (IterationOrder.mem_entries _ _ _ _).mpr hb, hnone⟩
    · rintro ⟨e, he, hnone⟩
      have hfind : t.find? e.1 = some e.2 := (IterationOrder.mem_entries _ _ _ _).mp he
      exact ⟨e.1, by simp [hasBucket, hfind], hnone⟩
  rw [hmem]
  unfold loadBuckets
  clear hmem
  generalize loadOrder.entries t.map = entries
  induction entries generalizing t with
  | nil => simp [Outcome.forEach]
  | cons e entries ih =>
      rw [Outcome.forEach, List.exists_mem_cons_iff]
      cases hload : (openBucket e.1).bind BucketDeserializer.loadPolicies with
      | none => exact iff_of_true rfl (Or.inl rfl)
      | some policies =>
          simp only [reduceCtorEq, false_or]
          exact ih _

theorem readBuckets_eq_threw_iff {read : Str → Option Str} {loadOrder : IterationOrder Str}
    {isBackupValid : Bool} :
  readBuckets digest read loadOrder isBackupValid = .threw .database ⟨∅, by simp⟩
    ↔ (readDatabase digest read loadOrder isBackupValid).thrown = some .database
  := by
  unfold readBuckets
  constructor
  · intro h
    have hthrown := congrArg Outcome.thrown h
    dsimp only at hthrown
    split at hthrown
    · assumption
    · rename_i hne hsome
      rw [hsome]
      exact hthrown
    · cases hthrown
  · intro h
    simp only [h]

section

variable {s : Buckets} {order : DumpOrder} {isBackupValid : Bool} {read : Str → Option Str}
variable {f : Str × Str} {damage : Damage}

/-- The name of a bucket's file is not one of the checksum file. -/
theorem isChecksumIndex_bucketFilename (id : PolicyBucketId) (isBackupValid : Bool) :
  ChecksumValidator.isChecksumIndex (bucketFilename id ++ suffix isBackupValid) = false
    ∧ cString (bucketFilename id ++ suffix isBackupValid)
      ≠ checksumFilename ++ suffix isBackupValid
  := by
  constructor
  · simp [ChecksumValidator.isChecksumIndex, bucketFilename, bucketFilenamePrefix,
      checksumFilename, ofString]
  · intro h
    have hhead := congrArg List.head? h
    simp [bucketFilename, bucketFilenamePrefix, checksumFilename, ofString, cString] at hhead

theorem isChecksumIndex_indexFilename (isBackupValid : Bool) :
  ChecksumValidator.isChecksumIndex (indexFilename ++ suffix isBackupValid) = false
    ∧ cString (indexFilename ++ suffix isBackupValid) ≠ checksumFilename ++ suffix isBackupValid
  := by
  cases isBackupValid <;> decide

/-- The damage of a file concerns the name of this file, and no name of another one. -/
theorem concerns_iff (hs : WellNamed s) {base base' : Str} (hbase : FileOf s base') :
  damage.Concerns isBackupValid base (base' ++ suffix isBackupValid) ↔ base' = base
  := by
  cases damage with
  | content data =>
      rw [Damage.Concerns, cString_append_suffix hs hbase]
      exact ⟨List.append_cancel_right, fun h => by rw [h]⟩
  | record => rw [Damage.Concerns, recordedName_append_suffix hs hbase]

/-- Which buckets are read is decided by the index as it was written. -/
theorem readDatabase_written (hread : Written digest order s isBackupValid read)
    (hs : WellNamed s) (loadOrder : IterationOrder Str)
    (hf : f ∈ (dumpDatabase digest order s).1) (halters : damage.Alters digest f.2) :
  (readDatabase digest (afterDamage digest order s isBackupValid read f.1 damage) loadOrder
      isBackupValid).thrown = some .database
    ↔ f.1 = indexFilename
      ∨ (readDatabase digest read loadOrder isBackupValid).thrown = some .database
      ∨ ∃ t id, initBuckets (dumpIndex order.buckets s) = .returned t ∧ hasBucket t id = true
        ∧ damage.Concerns isBackupValid f.1 (bucketFilename id ++ suffix isBackupValid)
  := by
  obtain ⟨sums, sums', hload, hsums, hsees⟩ := hread.sees hs hf halters
  obtain ⟨hnot, hne⟩ := isChecksumIndex_indexFilename isBackupValid
  have hindexOf : FileOf s indexFilename := Or.inr (Or.inl rfl)
  have hmem : (indexFilename, dumpIndex order.buckets s) ∈ (dumpDatabase digest order s).1 := by
    simp [dumpDatabase_eq]
  have hindex : openFile digest read sums isBackupValid (indexFilename ++ suffix isBackupValid)
      = some (dumpIndex order.buckets s) := by
    apply openFile_eq hs hindexOf
    · exact hread _ (List.mem_append_left _ hmem)
    · exact Or.inr (by rw [hsums _ hmem]; rfl)
  by_cases hbase : f.1 = indexFilename
  · have hnone := hsees.concerned _ hnot ((concerns_iff hs hindexOf).mpr hbase.symm)
    apply iff_of_true _ (Or.inl hbase)
    simp only [readDatabase, hsees.load, hnone, Outcome.threw_thrown]
  · have hsame := hsees.other _ hnot hne
      (fun hconcerns => hbase ((concerns_iff hs hindexOf).mp hconcerns).symm)
    rw [hindex] at hsame
    simp only [readDatabase, hload, hsees.load, hindex, hsame, Outcome.andThen_thrown_eq_some,
      loadBuckets_thrown_iff, hbase, false_or]
    -- a bucket that is listed is read unless its file is missing, damaged or unreadable
    have hopen : ∀ id, (openFile digest (afterDamage digest order s isBackupValid read f.1 damage)
          sums' isBackupValid (bucketFilename id ++ suffix isBackupValid)).bind
            BucketDeserializer.loadPolicies = none
        ↔ (openFile digest read sums isBackupValid
            (bucketFilename id ++ suffix isBackupValid)).bind BucketDeserializer.loadPolicies = none
          ∨ damage.Concerns isBackupValid f.1 (bucketFilename id ++ suffix isBackupValid) := by
      intro id
      obtain ⟨hnot, hne⟩ := isChecksumIndex_bucketFilename id isBackupValid
      by_cases hconcerns : damage.Concerns isBackupValid f.1
          (bucketFilename id ++ suffix isBackupValid)
      · simp [hsees.concerned _ hnot hconcerns, hconcerns]
      · simp [hsees.other _ hnot hne hconcerns, hconcerns]
    simp only [hopen]
    constructor
    · rintro (hinit | ⟨t, hinit, id, hid, hnone | hconcerns⟩)
      · exact Or.inl (Or.inl hinit)
      · exact Or.inl (Or.inr ⟨t, hinit, id, hid, hnone⟩)
      · exact Or.inr ⟨t, id, hinit, hid, hconcerns⟩
    · rintro ((hinit | ⟨t, hinit, id, hid, hnone⟩) | ⟨t, id, hinit, hid, hconcerns⟩)
      · exact Or.inl hinit
      · exact Or.inr ⟨t, hinit, id, hid, Or.inl hnone⟩
      · exact Or.inr ⟨t, hinit, id, hid, Or.inr hconcerns⟩

/-- A primary name does not end as the names of the backup do. -/
theorem recordedName_of_fileOf (hs : WellNamed s) {base : Str} (hbase : FileOf s base)
    (isBackupValid : Bool) :
  ChecksumValidator.recordedName base isBackupValid = base
  := by
  have hlast : (base.getLast? == some 126) = false := by
    rw [beq_eq_false_iff_ne]
    intro h
    exact hbase.notMem hs (by decide) (List.mem_of_getLast? h)
  rw [ChecksumValidator.recordedName, cString_of_notMem (hbase.notMem hs (by decide)), hlast,
    Bool.and_false]
  rfl

variable (digest) in
/-- The files that are written match the checksums that are written. -/
theorem comparePath_written {directory : Str} (hdirectory : 0 ∉ directory) (hs : WellNamed s)
    (order : DumpOrder) :
  ∃ sums : Checksums,
    ChecksumValidator.load (dumpDatabase digest order s).2 = some sums
    ∧ ∀ f ∈ (dumpDatabase digest order s).1
        ++ [(checksumFilename, (dumpDatabase digest order s).2)],
      ChecksumValidator.comparePath digest (directory ++ [47]) sums
          (directory ++ 47 :: (f.1 ++ backupFilenameSuffix)) true f.2 = true
        ∧ ∀ isBackupValid, ChecksumValidator.comparePath digest (directory ++ [47]) sums
          (directory ++ 47 :: f.1) isBackupValid f.2 = true
  := by
  obtain ⟨sums, -, hload, hsums, -⟩ := load_checksums digest hs order []
  refine ⟨sums, hload, ?_⟩
  intro f hf
  have hfile : FileOf s f.1 := by
    obtain hf | hf := List.mem_append.mp hf
    · exact fileOf_of_mem_dumpDatabase hf
    · obtain rfl := List.mem_singleton.mp hf
      exact Or.inl rfl
  have hslash : 47 ∉ f.1 := hfile.notMem hs (by decide)
  have hslash' : 47 ∉ f.1 ++ backupFilenameSuffix := by
    rw [List.mem_append, not_or]
    exact ⟨hslash, by decide⟩
  have hbackup : ChecksumValidator.recordedName (f.1 ++ backupFilenameSuffix) true = f.1 :=
    recordedName_append_suffix hs hfile true
  rw [ChecksumValidator.comparePath_eq digest hdirectory hslash', ChecksumValidator.compare,
    hbackup]
  simp only [ChecksumValidator.comparePath_eq digest hdirectory hslash, ChecksumValidator.compare,
    recordedName_of_fileOf hs hfile]
  obtain hf | hf := List.mem_append.mp hf
  · simp [hsums f hf]
  · obtain rfl := List.mem_singleton.mp hf
    simp [ChecksumValidator.isChecksumIndex]

/-- If no metadata of a default policy contain a newline, the index lists all buckets. -/
theorem exists_concerned (hs : WellNamed s)
    (hmetadata : ∀ id b, s.find? id = some b → recordSeparator ∉ b.defaultPolicy.metadata)
    (hf : f ∈ (dumpDatabase digest order s).1) :
  f.1 = indexFilename
    ∨ ∃ t id, initBuckets (dumpIndex order.buckets s) = .returned t ∧ hasBucket t id = true
      ∧ damage.Concerns isBackupValid f.1 (bucketFilename id ++ suffix isBackupValid)
  := by
  rw [dumpDatabase_eq] at hf
  obtain hf | hf := List.mem_append.mp hf
  · obtain ⟨e, he, rfl⟩ := List.mem_map.mp hf
    have hfind : s.find? e.1 = some e.2 := (IterationOrder.mem_entries _ _ _ _).mp he
    obtain ⟨t, ht, htfind⟩ := initBuckets_dumpIndex hs hmetadata order.buckets
    refine Or.inr ⟨t, e.1, ht, ?_, ?_⟩
    · simp [hasBucket, htfind, hfind]
    · exact (concerns_iff hs (Or.inr (Or.inr ⟨e.1, e.2, hfind, rfl⟩))).mpr rfl
  · obtain rfl := List.mem_singleton.mp hf
    exact Or.inl rfl

end

/-- The files that are written match their checksums, under both names.  The damage of a file is
noticed exactly if it is the index, if the files were not readable before, or if a bucket that the
index lists is read from the damaged file.  It is always noticed if no metadata of a default policy
contain a newline. -/
theorem damage_noticed_iff (digest : Str → Vector UInt8 16) (directory : Str)
    (hdirectory : 0 ∉ directory) {s : Buckets} (hs : WellNamed s) (order : DumpOrder)
    (loadOrder : IterationOrder Str) (isBackupValid : Bool) (read : Str → Option Str)
    (hread : Written digest order s isBackupValid read) :
  (∃ sums : Checksums,
    ChecksumValidator.load (dumpDatabase digest order s).2 = some sums
    ∧ ∀ f ∈ (dumpDatabase digest order s).1
        ++ [(checksumFilename, (dumpDatabase digest order s).2)],
      ChecksumValidator.comparePath digest (directory ++ [47]) sums
          (directory ++ 47 :: (f.1 ++ backupFilenameSuffix)) true f.2 = true
        ∧ ∀ isBackupValid, ChecksumValidator.comparePath digest (directory ++ [47]) sums
          (directory ++ 47 :: f.1) isBackupValid f.2 = true)
  ∧ (∀ f ∈ (dumpDatabase digest order s).1, ∀ damage : Damage, damage.Alters digest f.2 →
    (readBuckets digest (afterDamage digest order s isBackupValid read f.1 damage) loadOrder
        isBackupValid = .threw .database ⟨∅, by simp⟩
      ↔ f.1 = indexFilename
        ∨ (readDatabase digest read loadOrder isBackupValid).thrown = some .database
        ∨ ∃ t id, initBuckets (dumpIndex order.buckets s) = .returned t ∧ hasBucket t id = true
          ∧ damage.Concerns isBackupValid f.1 (bucketFilename id ++ suffix isBackupValid)))
  ∧ ((∀ id b, s.find? id = some b → recordSeparator ∉ b.defaultPolicy.metadata) →
    ∀ f ∈ (dumpDatabase digest order s).1, ∀ damage : Damage, damage.Alters digest f.2 →
      readBuckets digest (afterDamage digest order s isBackupValid read f.1 damage) loadOrder
        isBackupValid = .threw .database ⟨∅, by simp⟩)
  := by
  refine ⟨comparePath_written digest hdirectory hs order, ?_, ?_⟩
  · intro f hf damage halters
    rw [readBuckets_eq_threw_iff]
    exact readDatabase_written hread hs loadOrder hf halters
  · intro hmetadata f hf damage halters
    rw [readBuckets_eq_threw_iff, readDatabase_written hread hs loadOrder hf halters]
    exact (exists_concerned hs hmetadata hf).imp_right Or.inr

/-- The files that a save writes, under the primary names. -/
def savedFiles (s : Buckets) (name : Str) : Option Str :=
  let written := dumpDatabase installedDigest ⟨.sorted, fun _ => .sorted⟩ s
  ((written.1 ++ [(checksumFilename, written.2)]).find? fun f => f.1 == name).map Prod.snd

/-- A byte is written to the file of the default bucket. -/
theorem damage_noticed_initial :
  readBuckets installedDigest
      (afterDamage installedDigest ⟨.sorted, fun _ => .sorted⟩ Storage.initial false
        (savedFiles Storage.initial) (bucketFilename []) (.content [120]))
      .sorted false
    = .threw .database ⟨∅, by simp⟩
  := by
  have hread : Written installedDigest ⟨.sorted, fun _ => .sorted⟩ Storage.initial false
      (savedFiles Storage.initial) := by
    unfold Written
    decide +kernel
  have hmetadata : ∀ id b, Storage.initial.find? id = some b →
      recordSeparator ∉ b.defaultPolicy.metadata := by decide
  exact (damage_noticed_iff installedDigest [] (by simp) storable_initial.wellNamed _ .sorted false
    _ hread).2.2 hmetadata (bucketFilename [], []) (by decide +kernel) _
    (by unfold Damage.Alters; decide)

/-- The metadata of the default bucket are a newline, so that the index has an empty line before
the record of the other bucket. -/
def hidden : Buckets :=
  (Storage.initial.put (PolicyBucket.empty defaultPolicyBucketId ⟨PredefinedPolicyType.DENY, [10]⟩
    idValidator_defaultPolicyBucketId)).put (PolicyBucket.empty (ofString "a") {} rfl)

/-- A byte is written to the file of the bucket after the empty line.  The load succeeds. -/
theorem damage_unnoticed :
  WellNamed hidden ∧
    Written installedDigest ⟨.sorted, fun _ => .sorted⟩ hidden false (savedFiles hidden) ∧
    (bucketFilename (ofString "a"), []) ∈
      (dumpDatabase installedDigest ⟨.sorted, fun _ => .sorted⟩ hidden).1 ∧
    installedDigest [120] ≠ installedDigest [] ∧
    (readBuckets installedDigest
      (afterDamage installedDigest ⟨.sorted, fun _ => .sorted⟩ hidden false (savedFiles hidden)
        (bucketFilename (ofString "a")) (.content [120]))
      .sorted false).thrown = none
  := by
  refine ⟨?_, ?_, ?_, ?_, ?_⟩
  · rw [wellNamed_iff]
    decide
  · unfold Written
    decide +kernel
  · decide +kernel
  · decide
  · decide +kernel

end Cynara
