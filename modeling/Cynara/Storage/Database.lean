import Cynara.Storage.Serializer

/-!
# The files of the database

The database consists of the index, a file for each bucket, and a file with the checksums
of all the others.  There may be two sets of these files, the primary ones and, under names
with a suffix, the backup.  `readDatabase` reads one of the two sets; `dumpedFiles` are the
files that a save writes.

`Holds` says of the files under the plain names, in whatever set they are, that they are a
consistent database of some buckets.  This is the case of the files that are written, and
where it is the case the buckets are read.

The digest of the checksums is an arbitrary function.
-/

open Std

namespace Cynara

open InMemoryStorageBackend Str StoragePath StorageSerializer StorageDeserializer

variable (digest : Str → Vector UInt8 16)

/-- The text of a string up to its first zero byte, as the system calls see it. -/
def cString (s : Str) : Str := s.takeWhile fun c => c != 0

/-- A zero byte in the first part ends the text. -/
theorem cString_append (s t : Str) :
  cString (s ++ t) = if 0 ∈ s then cString s else s ++ cString t
  := by
  induction s with
  | nil => simp
  | cons c s ih =>
      by_cases hc : c = 0
      · simp [cString, hc]
      · have hcons : ∀ u, cString (c :: u) = c :: cString u := by
          intro u
          simp [cString, hc]
        rw [List.cons_append, hcons, hcons, ih]
        simp only [List.mem_cons, Ne.symm hc, false_or]
        split
        · rfl
        · rfl

/-! ### Checksums -/

namespace ChecksumValidator

/-- A hexadecimal digit in lower case. -/
def lowerDigit (d : ℕ) : UInt8 :=
  if d < 10 then UInt8.ofNat (48 + d) else UInt8.ofNat (87 + d)

/-- The digest of some data, two hexadecimal digits for each byte. -/
def generate (data : Str) : Str :=
  (digest data).toList.flatMap fun e => [lowerDigit (e.toNat / 16), lowerDigit (e.toNat % 16)]

/-- The file name and the checksum of a record, neither of which may be empty. -/
def parseRecord (line : Str) : Option (Str × Str) :=
  match cut fieldSeparator line with
  | none => none
  | some (filename, checksum) =>
      if filename.isEmpty || checksum.isEmpty then none else some (filename, checksum)

/-- The checksums of a text; the first record of a file name counts, and `none` stands for a
corrupted record. -/
def load (text : Str) : Option (ExtTreeMap Str Str) :=
  (lines recordSeparator text).foldlM
    (fun sums line => (parseRecord line).map fun record => sums.insertIfNew record.1 record.2) ∅

/-- The name under which the checksum of a file is recorded. -/
def recordedName (filename : Str) (isBackupValid : Bool) : Str :=
  let filename := cString filename
  if isBackupValid && filename.getLast? == some 126 then filename.dropLast else filename

/-- The file of the checksums itself, which has no checksum. -/
def isChecksumIndex (filename : Str) : Bool :=
  filename == checksumFilename || filename == checksumFilename ++ backupFilenameSuffix

/-- The checksum of a file is the one that is recorded for it; a file that is not recorded
has an empty one. -/
def compare (sums : ExtTreeMap Str Str) (filename : Str) (isBackupValid : Bool) (data : Str) :
    Bool :=
  isChecksumIndex filename
    || sums[recordedName filename isBackupValid]?.getD [] == generate digest data

/-- The record of a file. -/
def dumpRecord (file : Str × Str) : Str :=
  file.1 ++ fieldSeparator :: generate digest file.2

end ChecksumValidator

/-! ### Reading and writing the files -/

namespace InMemoryStorageBackend

/-- The name of the file of a bucket. -/
def bucketFilename (id : PolicyBucketId) : Str := bucketFilenamePrefix ++ id

/-- The suffix of the names of the backup. -/
def suffix (isBackupValid : Bool) : Str := if isBackupValid then backupFilenameSuffix else []

/-- The text of a file that can be opened and matches its checksum; `read` gives the contents
of the files by their names. -/
def openFile (read : Str → Option Str) (sums : ExtTreeMap Str Str) (isBackupValid : Bool)
    (filename : Str) : Option Str :=
  (read (cString filename)).filter (ChecksumValidator.compare digest sums filename isBackupValid)

/-- The files are read into the buckets. -/
def readDatabase (read : Str → Option Str) (order : IterationOrder Str) (isBackupValid : Bool) :
    Outcome LoadException Buckets :=
  let suffix := suffix isBackupValid
  match (openFile digest read ∅ isBackupValid (checksumFilename ++ suffix)).bind
      ChecksumValidator.load with
  | none => .threw .database ⟨∅, Buckets.keyed_empty⟩
  | some sums =>
      match openFile digest read sums isBackupValid (indexFilename ++ suffix) with
      | none => .threw .database ⟨∅, Buckets.keyed_empty⟩
      | some index =>
          (initBuckets index).andThen
            (loadBuckets order fun id =>
              openFile digest read sums isBackupValid (bucketFilename id ++ suffix))

/-- The reading part of `load`: a database that cannot be read leaves no buckets, and a
default bucket that is missing is created. -/
def readBuckets (read : Str → Option Str) (order : IterationOrder Str) (isBackupValid : Bool) :
    Outcome LoadException Buckets :=
  let o := readDatabase digest read order isBackupValid
  match o.thrown with
  | some .database => .threw .database ⟨∅, Buckets.keyed_empty⟩
  | some e => .threw e o.state
  | none =>
      .returned
        (if hasBucket o.state defaultPolicyBucketId then o.state
          else
            o.state.put
              (PolicyBucket.empty defaultPolicyBucketId {} idValidator_defaultPolicyBucketId))

/-- The orders in which a save traverses the buckets and the policies of each of them. -/
structure DumpOrder where
  buckets : IterationOrder Str
  policies : PolicyBucketId → IterationOrder Str

/-- The files of the buckets, by their plain names. -/
def bucketFiles (order : DumpOrder) (s : Buckets) : List (Str × Str) :=
  (order.buckets.entries s.map).map fun e =>
    (bucketFilename e.1, dumpBucket (order.policies e.1) e.2)

/-- The text of the checksum file: a record for each bucket, then one for the index. -/
def dumpChecksums (order : DumpOrder) (s : Buckets) : Str :=
  (bucketFiles order s ++ [(indexFilename, dumpIndex order.buckets s)]).flatMap fun file =>
    ChecksumValidator.dumpRecord digest file ++ [recordSeparator]

/-- All the files that a save writes, by their plain names. -/
def dumpedFiles (order : DumpOrder) (s : Buckets) : List (Str × Str) :=
  bucketFiles order s
    ++ [(indexFilename, dumpIndex order.buckets s),
      (checksumFilename, dumpChecksums digest order s)]

end InMemoryStorageBackend

/-! ### Consistent files -/

open InMemoryStorageBackend

/-- The ids of the buckets are made of letters, digits, hyphens and underscores. -/
def WellNamed (s : Buckets) : Prop :=
  ∀ id b, s.find? id = some b → ∀ c ∈ id, isalnum c = true ∨ c = 45 ∨ c = 95

/-- Buckets that can be saved: there is a default bucket, the ids are well formed, no
feature of a key contains a separator, and no metadata contains a newline. -/
structure Storable (s : Buckets) : Prop where
  hasDefault : hasBucket s defaultPolicyBucketId = true
  wellNamed : WellNamed s
  features : ∀ id b, s.find? id = some b → ∀ p ∈ b,
    ∀ feature ∈ [p.key.client, p.key.user, p.key.privilege],
      fieldSeparator ∉ feature ∧ recordSeparator ∉ feature
  metadata : ∀ id b, s.find? id = some b → ∀ p ∈ b, recordSeparator ∉ p.result.metadata
  defaultMetadata : ∀ id b, s.find? id = some b → recordSeparator ∉ b.defaultPolicy.metadata

/-- The files under the plain names are a consistent database of the buckets `s`: the index
lists the buckets, their files have the policies, and all have the recorded checksums. -/
def Holds (view : Str → Option Str) (s : Buckets) : Prop :=
  ∃ sums index t, (view checksumFilename).bind ChecksumValidator.load = some sums
    ∧ view indexFilename = some index
    ∧ sums[indexFilename]?.getD [] = ChecksumValidator.generate digest index
    ∧ initBuckets index = .returned t
    ∧ (∀ id, t.find? id = none → s.find? id = none)
    ∧ ∀ id c, t.find? id = some c → ∃ text ps, view (bucketFilename id) = some text
      ∧ sums[bucketFilename id]?.getD [] = ChecksumValidator.generate digest text
      ∧ BucketDeserializer.loadPolicies text = some ps
      ∧ s.find? id = some (ps.foldl PolicyBucket.insertPolicy c)

/-- The plain names of the files of a database. -/
def FileOf (s : Buckets) (base : Str) : Prop :=
  base = checksumFilename ∨ base = indexFilename
    ∨ ∃ id b, s.find? id = some b ∧ base = bucketFilename id

variable {digest}

/-- Only the files of the database count. -/
theorem Holds.congr {view view' : Str → Option Str} {s : Buckets} (h : Holds digest view s)
    (heq : ∀ base, FileOf s base → view base = view' base) :
  Holds digest view' s
  := by
  obtain ⟨sums, index, t, hsums, hindex, hsum, hinit, hnone, hbuckets⟩ := h
  refine ⟨sums, index, t, ?_, ?_, hsum, hinit, hnone, ?_⟩
  · rw [← heq _ (Or.inl rfl), hsums]
  · rw [← heq _ (Or.inr (Or.inl rfl)), hindex]
  · intro id c hc
    obtain ⟨text, ps, htext, hsum, hps, hs⟩ := hbuckets id c hc
    refine ⟨text, ps, ?_, hsum, hps, hs⟩
    rw [← heq _ (Or.inr (Or.inr ⟨id, _, hs, rfl⟩)), htext]

/-- The files of a consistent database are there. -/
theorem Holds.isSome {view : Str → Option Str} {s : Buckets} (h : Holds digest view s)
    {base : Str} (hbase : FileOf s base) :
  (view base).isSome
  := by
  obtain ⟨sums, index, t, hsums, hindex, -, -, hnone, hbuckets⟩ := h
  obtain rfl | rfl | ⟨id, b, hb, rfl⟩ := hbase
  · cases hview : view checksumFilename with
    | none => simp [hview] at hsums
    | some text => rfl
  · rw [hindex]
    rfl
  · cases ht : t.find? id with
    | none =>
        rw [hnone id ht] at hb
        contradiction
    | some c =>
        obtain ⟨text, ps, htext, -⟩ := hbuckets id c ht
        rw [htext]
        rfl

/-! ### Names -/

/-- The bytes of ids. -/
def isIdByte (c : UInt8) : Bool := isalnum c || c == 45 || c == 95

theorem wellNamed_iff {s : Buckets} :
  WellNamed s ↔ ∀ id b, s.find? id = some b → id.all isIdByte = true
  := by
  simp [WellNamed, isIdByte, or_assoc]

/-- The plain names are made of the bytes of ids. -/
theorem FileOf.all_isIdByte {s : Buckets} (hs : WellNamed s) {base : Str}
    (hbase : FileOf s base) :
  base.all isIdByte = true
  := by
  obtain rfl | rfl | ⟨id, b, hb, rfl⟩ := hbase
  · decide
  · decide
  · have hpre : bucketFilenamePrefix.all isIdByte = true := by decide
    rw [bucketFilename, List.all_append, hpre, Bool.true_and]
    exact wellNamed_iff.mp hs id b hb

/-- A byte that does not occur in ids does not occur in the plain names. -/
theorem FileOf.notMem {s : Buckets} (hs : WellNamed s) {base : Str} (hbase : FileOf s base)
    {c : UInt8} (hc : isIdByte c = false) :
  c ∉ base
  := by
  intro hmem
  rw [List.all_eq_true.mp (hbase.all_isIdByte hs) c hmem] at hc
  contradiction

theorem cString_of_notMem {n : Str} (h : 0 ∉ n) :
  cString n = n
  := by
  rw [cString, List.takeWhile_eq_self_iff]
  intro c hc
  simp only [bne_iff_ne, ne_eq]
  rintro rfl
  exact h hc

theorem cString_append_suffix {s : Buckets} (hs : WellNamed s) {base : Str}
    (hbase : FileOf s base) (isBackupValid : Bool) :
  cString (base ++ suffix isBackupValid) = base ++ suffix isBackupValid
  := by
  apply cString_of_notMem
  have hzero := hbase.notMem hs (c := 0) (by decide)
  cases isBackupValid with
  | false => simpa [suffix] using hzero
  | true =>
      simp only [suffix, ↓reduceIte, List.mem_append, hzero, false_or]
      decide

/-- A file is recorded under its plain name. -/
theorem recordedName_append_suffix {s : Buckets} (hs : WellNamed s) {base : Str}
    (hbase : FileOf s base) (isBackupValid : Bool) :
  ChecksumValidator.recordedName (base ++ suffix isBackupValid) isBackupValid = base
  := by
  rw [ChecksumValidator.recordedName, cString_append_suffix hs hbase]
  cases isBackupValid with
  | false => simp [suffix]
  | true =>
      have hsuffix : backupFilenameSuffix = [126] := by decide
      simp [suffix, hsuffix]

/-- The files of a consistent database are opened. -/
theorem openFile_eq {s : Buckets} (hs : WellNamed s) {base : Str} (hbase : FileOf s base)
    {read : Str → Option Str} {sums : ExtTreeMap Str Str} {isBackupValid : Bool} {text : Str}
    (htext : read (base ++ suffix isBackupValid) = some text)
    (hsum : base = checksumFilename
      ∨ sums[base]?.getD [] = ChecksumValidator.generate digest text) :
  openFile digest read sums isBackupValid (base ++ suffix isBackupValid) = some text
  := by
  rw [openFile, cString_append_suffix hs hbase, htext, Option.filter_some, if_pos]
  rw [ChecksumValidator.compare, recordedName_append_suffix hs hbase]
  obtain rfl | hsum := hsum
  · cases isBackupValid <;> simp [ChecksumValidator.isChecksumIndex, suffix]
  · simp [hsum]

/-- A consistent database is read, in whatever order. -/
theorem Holds.readDatabase {s : Buckets} (hs : WellNamed s) {read : Str → Option Str}
    {isBackupValid : Bool}
    (h : Holds digest (fun base => read (base ++ suffix isBackupValid)) s)
    (order : IterationOrder Str) :
  readDatabase digest read order isBackupValid = .returned s
  := by
  obtain ⟨sums, index, t, hsums, hindex, hsum, hinit, hnone, hbuckets⟩ := h
  obtain ⟨checksums, hchecksums, hload⟩ := Option.bind_eq_some_iff.mp hsums
  have hchecksumFile :
      openFile digest read ∅ isBackupValid (checksumFilename ++ suffix isBackupValid)
        = some checksums :=
    openFile_eq hs (Or.inl rfl) hchecksums (Or.inl rfl)
  have hindexFile := openFile_eq hs (Or.inr (Or.inl rfl)) hindex (Or.inr hsum)
  simp only [InMemoryStorageBackend.readDatabase, hchecksumFile, Option.bind_some, hload,
    hindexFile, hinit, Outcome.andThen_returned]
  apply loadBuckets_eq order hnone
  intro id c hc
  obtain ⟨text, ps, htext, hsum, hps, hfind⟩ := hbuckets id c hc
  use ps
  rw [openFile_eq hs (Or.inr (Or.inr ⟨id, _, hfind, rfl⟩)) htext (Or.inr hsum)]
  exact ⟨hps, hfind⟩

/-- A database that has been written is read back. -/
theorem Holds.readBuckets {s : Buckets} (hs : WellNamed s)
    (hdefault : hasBucket s defaultPolicyBucketId = true) {read : Str → Option Str}
    {isBackupValid : Bool}
    (h : Holds digest (fun base => read (base ++ suffix isBackupValid)) s)
    (order : IterationOrder Str) :
  readBuckets digest read order isBackupValid = .returned s
  := by
  simp only [InMemoryStorageBackend.readBuckets, h.readDatabase hs order, Outcome.returned_thrown,
    Outcome.returned_state, hdefault, ↓reduceIte]

/-! ### The files that are written -/

theorem fieldSeparator_notMem_base {s : Buckets} (hs : WellNamed s) {base : Str}
    (hbase : FileOf s base) :
  fieldSeparator ∉ base ∧ recordSeparator ∉ base
  := ⟨hbase.notMem hs (by decide), hbase.notMem hs (by decide)⟩

theorem generate_ne_nil (data : Str) :
  ChecksumValidator.generate digest data ≠ []
  := by
  have hlength : (ChecksumValidator.generate digest data).length = 32 := by
    simp [ChecksumValidator.generate]
  intro h
  rw [h] at hlength
  contradiction

theorem recordSeparator_notMem_generate (data : Str) :
  recordSeparator ∉ ChecksumValidator.generate digest data
  := by
  have hdigit : ∀ d < 16, ChecksumValidator.lowerDigit d ≠ recordSeparator := by decide
  simp only [ChecksumValidator.generate, List.mem_flatMap, List.mem_cons, List.not_mem_nil,
    or_false, not_exists, not_and, not_or]
  intro e _
  have := e.toNat_lt
  exact ⟨(hdigit _ (by omega)).symm, (hdigit _ (by omega)).symm⟩

/-- The checksums that are read are those that were written: for every name the first. -/
theorem foldlM_dumpRecord (digest : Str → Vector UInt8 16) (files : List (Str × Str))
    (sums : ExtTreeMap Str Str) (h : ∀ f ∈ files, fieldSeparator ∉ f.1 ∧ f.1 ≠ []) :
  ∃ sums', (files.map (ChecksumValidator.dumpRecord digest)).foldlM
      (fun (sums : ExtTreeMap Str Str) line =>
        (ChecksumValidator.parseRecord line).map fun record =>
          sums.insertIfNew record.1 record.2) sums = some sums'
    ∧ ∀ k : Str, sums'[k]? = sums[k]?.or
        ((files.find? fun f => f.1 == k).map fun f => ChecksumValidator.generate digest f.2)
  := by
  induction files generalizing sums with
  | nil =>
      use sums, rfl
      simp
  | cons f files ih =>
      obtain ⟨hsep, hne⟩ := h f List.mem_cons_self
      have hparse : ChecksumValidator.parseRecord (ChecksumValidator.dumpRecord digest f)
          = some (f.1, ChecksumValidator.generate digest f.2) := by
        rw [ChecksumValidator.parseRecord, ChecksumValidator.dumpRecord, cut_append_sep hsep]
        simp [hne, generate_ne_nil]
      obtain ⟨sums', hsums', hfind⟩ := ih
        (sums.insertIfNew f.1 (ChecksumValidator.generate digest f.2))
        fun g hg => h g (List.mem_cons_of_mem f hg)
      use sums'
      constructor
      · rw [List.map_cons, List.foldlM_cons, hparse]
        exact hsums'
      · intro k
        rw [hfind, List.find?_cons, ExtTreeMap.getElem?_insertIfNew]
        by_cases hk : f.1 = k
        · subst hk
          by_cases hmem : f.1 ∈ sums
          · simp [hmem]
          · simp [hmem]
        · have hbeq : (f.1 == k) = false := by simpa using hk
          simp [hk, hbeq]

/-- The files that are written have the plain names of the database. -/
theorem fileOf_of_mem_dumpedFiles {order : DumpOrder} {s : Buckets} {f : Str × Str}
    (hf : f ∈ dumpedFiles digest order s) :
  FileOf s f.1
  := by
  simp only [dumpedFiles, bucketFiles, List.mem_append, List.mem_map, List.mem_cons,
    List.not_mem_nil, or_false] at hf
  obtain ⟨e, he, rfl⟩ | rfl | rfl := hf
  · exact Or.inr (Or.inr ⟨e.1, e.2, (IterationOrder.mem_entries _ _ _ _).mp he, rfl⟩)
  · exact Or.inr (Or.inl rfl)
  · exact Or.inl rfl

theorem bucketFilename_injective : Function.Injective bucketFilename := by
  intro id id' h
  exact List.append_cancel_left h

theorem bucketFilename_ne_indexFilename (id : PolicyBucketId) :
  bucketFilename id ≠ indexFilename
  := by
  intro h
  have hhead := congrArg List.head? h
  simp [bucketFilename, bucketFilenamePrefix, indexFilename, ofString] at hhead

/-- The file of a bucket among the files that are written. -/
theorem find?_bucketFiles (order : DumpOrder) {s : Buckets} {id : PolicyBucketId}
    {b : PolicyBucket} (hb : s.find? id = some b) :
  (bucketFiles order s).find? (fun f => f.1 == bucketFilename id)
    = some (bucketFilename id, dumpBucket (order.policies id) b)
  := by
  have hmem : (bucketFilename id, dumpBucket (order.policies id) b) ∈ bucketFiles order s :=
    List.mem_map.mpr ⟨(id, b), (IterationOrder.mem_entries _ _ _ _).mpr hb, rfl⟩
  have hsome : ((bucketFiles order s).find? fun f => f.1 == bucketFilename id).isSome := by
    rw [List.find?_isSome]
    exact ⟨_, hmem, by simp⟩
  obtain ⟨f, hf⟩ := Option.isSome_iff_exists.mp hsome
  obtain ⟨⟨id', b'⟩, he, rfl⟩ := List.mem_map.mp (List.mem_of_find?_eq_some hf)
  have hname : bucketFilename id' = bucketFilename id := by simpa using List.find?_some hf
  obtain rfl := bucketFilename_injective hname
  have hb' := (IterationOrder.mem_entries _ _ _ _).mp he
  obtain rfl := Option.some.inj (hb.symm.trans hb')
  exact hf

/-- The checksums of a file with records for some files of the database: for every name the
first. -/
theorem load_dumpRecords (digest : Str → Vector UInt8 16) {s : Buckets} (hs : WellNamed s)
    {files : List (Str × Str)} (hfiles : ∀ f ∈ files, FileOf s f.1) :
  ∃ sums : ExtTreeMap Str Str,
    ChecksumValidator.load
        (files.flatMap fun f => ChecksumValidator.dumpRecord digest f ++ [recordSeparator])
      = some sums
    ∧ ∀ k : Str, sums[k]? = (files.find? fun f => f.1 == k).map fun f =>
        ChecksumValidator.generate digest f.2
  := by
  have hnonempty : ∀ f ∈ files, f.1 ≠ [] := by
    intro f hf
    obtain h | h | ⟨id, b, -, h⟩ := hfiles f hf
    · rw [h]
      decide
    · rw [h]
      decide
    · rw [h]
      exact List.cons_ne_nil _ _
  have hlines : lines recordSeparator
      (files.flatMap fun f => ChecksumValidator.dumpRecord digest f ++ [recordSeparator])
        = files.map (ChecksumValidator.dumpRecord digest) := by
    apply lines_flatMap
    intro f hf
    have hsep : recordSeparator ≠ fieldSeparator := by decide
    have hname := (fieldSeparator_notMem_base hs (hfiles f hf)).2
    simp [ChecksumValidator.dumpRecord, hsep, hname, recordSeparator_notMem_generate]
  obtain ⟨sums, hsums, hfind⟩ := foldlM_dumpRecord digest files ∅ fun f hf =>
    ⟨(fieldSeparator_notMem_base hs (hfiles f hf)).1, hnonempty f hf⟩
  refine ⟨sums, by rw [ChecksumValidator.load, hlines, hsums], ?_⟩
  intro k
  rw [hfind]
  simp

theorem fileOf_of_mem_summed {s : Buckets} {order : DumpOrder} {f : Str × Str}
    (hf : f ∈ bucketFiles order s ++ [(indexFilename, dumpIndex order.buckets s)]) :
  FileOf s f.1
  := by
  obtain hf | hf := List.mem_append.mp hf
  · obtain ⟨e, he, rfl⟩ := List.mem_map.mp hf
    exact Or.inr (Or.inr ⟨e.1, e.2, (IterationOrder.mem_entries _ _ _ _).mp he, rfl⟩)
  · obtain rfl := List.mem_singleton.mp hf
    exact Or.inr (Or.inl rfl)

theorem find?_bucketFiles_indexFilename (order : DumpOrder) (s : Buckets) :
  (bucketFiles order s).find? (fun f => f.1 == indexFilename) = none
  := by
  rw [List.find?_eq_none]
  intro f hf
  obtain ⟨e, -, rfl⟩ := List.mem_map.mp hf
  simpa using bucketFilename_ne_indexFilename e.1

/-- The checksum file that is written records the checksums of the other files. -/
theorem load_dumpChecksums (digest : Str → Vector UInt8 16) {s : Buckets} (hs : WellNamed s)
    (order : DumpOrder) :
  ∃ sums : ExtTreeMap Str Str,
    ChecksumValidator.load (dumpChecksums digest order s) = some sums
      ∧ sums[indexFilename]?
        = some (ChecksumValidator.generate digest (dumpIndex order.buckets s))
      ∧ ∀ id b, s.find? id = some b → sums[bucketFilename id]?
        = some (ChecksumValidator.generate digest (dumpBucket (order.policies id) b))
  := by
  obtain ⟨sums, hsums, hfind⟩ := load_dumpRecords digest hs
    fun _ (hf : _ ∈ bucketFiles order s ++ [_]) => fileOf_of_mem_summed hf
  refine ⟨sums, hsums, ?_, ?_⟩
  · rw [hfind, List.find?_append, find?_bucketFiles_indexFilename]
    simp
  · intro id b hb
    rw [hfind, List.find?_append, find?_bucketFiles order hb]
    simp

/-- The index that is written lists the buckets. -/
theorem initBuckets_dumpIndex {s : Buckets} (hs : WellNamed s)
    (hmetadata : ∀ id b, s.find? id = some b → recordSeparator ∉ b.defaultPolicy.metadata)
    (order : IterationOrder Str) :
  ∃ t, initBuckets (dumpIndex order s) = .returned t
    ∧ ∀ id, t.find? id = (s.find? id).map blank
  := by
  have hentry : ∀ b ∈ (order.entries s.map).map Prod.snd, s.find? b.id = some b := by
    intro b hb
    obtain ⟨⟨id, c⟩, he, rfl⟩ := List.mem_map.mp hb
    have hc : s.find? id = some c := (IterationOrder.mem_entries _ _ _ _).mp he
    rw [Buckets.id_of_find? hc, hc]
  have hid : ∀ b ∈ (order.entries s.map).map Prod.snd, ∀ c, isIdByte c = false → c ∉ b.id := by
    intro b hb c hc hmem
    have hfile : FileOf s (bucketFilename b.id) := Or.inr (Or.inr ⟨b.id, b, hentry b hb, rfl⟩)
    apply hfile.notMem hs hc
    exact List.mem_append_right _ hmem
  have hrecords : records (dumpIndex order s)
      = ((order.entries s.map).map Prod.snd).map dumpIndexRecord := by
    rw [dumpIndex, records_flatMap (fun e : PolicyBucketId × PolicyBucket => dumpIndexRecord e.2),
      List.map_map]
    · rfl
    · intro e he
      have hb := List.mem_map_of_mem (f := Prod.snd) he
      have hsep : recordSeparator ≠ fieldSeparator := by decide
      have hresult := BucketDeserializer.recordSeparator_notMem_dumpResult
        (hmetadata e.2.id e.2 (hentry e.2 hb))
      constructor
      · simp [dumpIndexRecord, hid e.2 hb recordSeparator (by decide), hsep, hresult]
      · simp [dumpIndexRecord]
  obtain ⟨t, ht, hfind⟩ := forEach_initBucket ((order.entries s.map).map Prod.snd) ⟨∅, by simp⟩
    fun b hb => hid b hb fieldSeparator (by decide)
  use t
  constructor
  · rw [initBuckets, hrecords, ht]
  · intro id
    rw [hfind, find?_entries]
    simp [Buckets.find?]

theorem Storable.separated {s : Buckets} (hs : Storable s) {id : PolicyBucketId}
    {b : PolicyBucket} (hb : s.find? id = some b) :
  BucketDeserializer.Separated b
  := ⟨hs.features id b hb, hs.metadata id b hb, hs.defaultMetadata id b hb⟩

/-- The files that are written are a consistent database; of the checksum file only the
checksums count. -/
theorem holds_of_checksums {s : Buckets} (hs : Storable s) (order : DumpOrder)
    {view : Str → Option Str}
    (hchecksums : (view checksumFilename).bind ChecksumValidator.load
      = ChecksumValidator.load (dumpChecksums digest order s))
    (hview : ∀ f ∈ bucketFiles order s ++ [(indexFilename, dumpIndex order.buckets s)],
      view f.1 = some f.2) :
  Holds digest view s
  := by
  obtain ⟨sums, hsums, hindexSum, hbucketSum⟩ :=
    load_dumpChecksums digest hs.wellNamed order
  obtain ⟨t, ht, hfind⟩ := initBuckets_dumpIndex hs.wellNamed hs.defaultMetadata order.buckets
  refine ⟨sums, dumpIndex order.buckets s, t, hchecksums.trans hsums, ?_, ?_, ht, ?_, ?_⟩
  · exact hview (indexFilename, dumpIndex order.buckets s) (by simp)
  · rw [hindexSum]
    rfl
  · intro id hnone
    exact Option.map_eq_none_iff.mp ((hfind id).symm.trans hnone)
  · intro id c hc
    obtain ⟨b, hb, rfl⟩ := Option.map_eq_some_iff.mp ((hfind id).symm.trans hc)
    have hmem : (bucketFilename id, dumpBucket (order.policies id) b) ∈ bucketFiles order s :=
      List.mem_map.mpr ⟨(id, b), (IterationOrder.mem_entries _ _ _ _).mpr hb, rfl⟩
    refine ⟨dumpBucket (order.policies id) b, Storage.listing (order.policies id) b, ?_, ?_, ?_, ?_⟩
    · exact hview _ (List.mem_append_left _ hmem)
    · rw [hbucketSum id b hb]
      rfl
    · apply (hs.separated hb).loadPolicies
    · rw [BucketDeserializer.foldl_insertPolicy_listing, hb]

/-- The files that are written are a consistent database. -/
theorem holds_dumpedFiles {s : Buckets} (hs : Storable s) (order : DumpOrder)
    {view : Str → Option Str} (hview : ∀ f ∈ dumpedFiles digest order s, view f.1 = some f.2) :
  Holds digest view s
  := by
  apply holds_of_checksums hs order
  · rw [hview (checksumFilename, dumpChecksums digest order s) (by simp [dumpedFiles])]
    rfl
  · intro f hf
    apply hview f
    simp only [dumpedFiles, List.mem_append, List.mem_cons, List.not_mem_nil, or_false] at hf ⊢
    exact hf.imp_right Or.inl

end Cynara
