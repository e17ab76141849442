import Cynara.Storage.Backup

/-!
# What a save does to the disk

A save writes the backup, creates the guard, replaces the primary files by links to the backup, and
removes the guard and the backup names.  Each stage has an invariant: `Drafting` while the backup is
written, `Linking` while the guard is there, and `Removing` afterwards.

They hold whatever texts are written, and for two kinds of disks, which differ in the names that are
no aliases of a backup name.  Where no name is one, nothing but the backup changes before the guard
is there.  After a save that failed before it had removed the backup, a backup name may well be an
alias of a primary file; then opening the backup truncates the primary file too, which is replaced
in the end.
-/

open Std

namespace Cynara

open InMemoryStorageBackend Str StoragePath StorageSerializer Integrity

/-! ### Names -/

/-- The name of the backup of a file. -/
def backupOf (base : Str) : Str := base ++ backupFilenameSuffix

theorem backupOf_injective : Function.Injective backupOf :=
  fun _ _ h => List.append_cancel_right h

theorem backupName_eq {s : Buckets} (hs : WellNamed s) {base : Str} (hbase : FileOf s base) :
  backupName base = backupOf base
  := cString_append_suffix hs hbase true

theorem cString_eq {s : Buckets} (hs : WellNamed s) {base : Str} (hbase : FileOf s base) :
  cString base = base
  := cString_of_notMem (hbase.notMem hs (by decide))

/-- No file of the primary database has the name of a backup. -/
theorem FileOf.ne_backupOf {s : Buckets} (hs : WellNamed s) {base : Str}
    (hbase : FileOf s base) (n : Str) :
  backupOf n ≠ base
  := by
  rintro rfl
  apply hbase.notMem hs (c := 126) (by decide)
  exact List.mem_append_right _ (by decide)

theorem backupOf_ne_guard (n : Str) :
  backupOf n ≠ guardFilename
  := by
  intro h
  have hlast := congrArg List.getLast? h
  rw [backupOf, show backupFilenameSuffix = [126] from by decide, List.getLast?_concat] at hlast
  revert hlast
  decide

theorem FileOf.ne_guard {s : Buckets} {base : Str} (hbase : FileOf s base) :
  guardFilename ≠ base
  := by
  obtain rfl | rfl | ⟨id, b, -, rfl⟩ := hbase
  · decide
  · decide
  · intro h
    have hhead := congrArg List.head? h
    revert hhead
    simp [bucketFilename, bucketFilenamePrefix, guardFilename, ofString]

theorem bucketFilename_ne_checksumFilename (id : PolicyBucketId) :
  bucketFilename id ≠ checksumFilename
  := by
  intro h
  have hhead := congrArg List.head? h
  revert hhead
  simp [bucketFilename, bucketFilenamePrefix, checksumFilename, ofString]

theorem mem_filenames {order : IterationOrder Str} {s : Buckets} {base : Str} :
  base ∈ filenames order s ↔ FileOf s base
  := by
  simp only [filenames, List.mem_append, List.mem_map, List.mem_cons, List.not_mem_nil, or_false,
    FileOf]
  constructor
  · rintro (⟨⟨id, b⟩, he, rfl⟩ | rfl | rfl)
    · exact Or.inr (Or.inr ⟨id, b, (IterationOrder.mem_entries _ _ _ _).mp he, rfl⟩)
    · exact Or.inr (Or.inl rfl)
    · exact Or.inl rfl
  · rintro (rfl | rfl | ⟨id, b, hb, rfl⟩)
    · exact Or.inr (Or.inr rfl)
    · exact Or.inr (Or.inl rfl)
    · exact Or.inl ⟨(id, b), (IterationOrder.mem_entries _ _ _ _).mpr hb, rfl⟩

/-! ### Saves with arbitrary texts -/

/-- The files of a database with the given texts. -/
def textFiles (files : List (Str × Str)) (index checksums : Str) : List (Str × Str) :=
  files ++ [(indexFilename, index), (checksumFilename, checksums)]

/-- The checksum file and the index are opened. -/
def openSpecialFiles : List Instruction :=
  [.openTruncate (backupName checksumFilename), .openTruncate (backupName indexFilename)]

/-- The file of a bucket is written. -/
def writeFile (file : Str × Str) : List Instruction :=
  [.openTruncate (backupName file.1), .write (backupName file.1) file.2]

/-- The streams of the index and of the checksum file are closed. -/
def closeSpecialFiles (index checksums : Str) : List Instruction :=
  [.write (backupName indexFilename) index, .write (backupName checksumFilename) checksums]

def createBackupGuard (s : Buckets) : List Instruction := [.createGuard s, .syncDirectory]

/-- The backup is written with the given texts. -/
def saveBackupTexts (files : List (Str × Str)) (index checksums : Str) : List Instruction :=
  openSpecialFiles ++ files.flatMap writeFile ++ closeSpecialFiles index checksums

/-- A save that writes the given texts. -/
def saveTexts (order : IterationOrder Str) (s : Buckets) (files : List (Str × Str))
    (index checksums : Str) : List Instruction :=
  saveBackupTexts files index checksums ++ syncDatabase order s true ++ createBackupGuard s
    ++ revalidatePrimaryDatabase order s

theorem save_eq_saveTexts (digest : Str → Vector UInt8 16) (order : DumpOrder) (s : Buckets) :
  InMemoryStorageBackend.save digest order s
    = saveTexts order.buckets s (bucketFiles order s) (dumpIndex order.buckets s)
        (dumpChecksums digest order s)
  := rfl

/-- There is one file for each bucket. -/
structure Covers (s : Buckets) (files : List (Str × Str)) : Prop where
  nodup : (files.map Prod.fst).Nodup
  mem : ∀ base, base ∈ files.map Prod.fst ↔ ∃ id b, s.find? id = some b ∧ base = bucketFilename id

theorem covers_bucketFiles (order : DumpOrder) (s : Buckets) :
  Covers s (bucketFiles order s)
  := by
  have hnames : (bucketFiles order s).map Prod.fst
      = ((order.buckets.entries s.map).map Prod.fst).map bucketFilename := by
    simp [bucketFiles, Function.comp_def]
  refine ⟨?_, fun base => ?_⟩ <;> rw [hnames]
  · apply List.Nodup.map bucketFilename_injective
    rw [((order.buckets.perm s.map).map Prod.fst).nodup_iff, ExtTreeMap.map_fst_toList_eq_keys]
    exact ExtTreeMap.nodup_keys
  · rw [List.map_map, List.mem_map]
    constructor
    · rintro ⟨⟨id, b⟩, he, rfl⟩
      exact ⟨id, b, (IterationOrder.mem_entries _ _ _ _).mp he, rfl⟩
    · rintro ⟨id, b, hb, rfl⟩
      exact ⟨(id, b), (IterationOrder.mem_entries _ _ _ _).mpr hb, rfl⟩

namespace Covers

variable {s : Buckets} {files : List (Str × Str)} {index checksums : Str}

theorem ne_index (h : Covers s files) {f : Str × Str} (hf : f ∈ files) :
  f.1 ≠ indexFilename ∧ f.1 ≠ checksumFilename
  := by
  obtain ⟨id, b, -, hname⟩ := (h.mem f.1).mp (List.mem_map_of_mem hf)
  rw [hname]
  exact ⟨bucketFilename_ne_indexFilename id, bucketFilename_ne_checksumFilename id⟩

/-- The files of the database are those that are written. -/
theorem fileOf_iff (h : Covers s files) (base : Str) :
  FileOf s base ↔ base ∈ (textFiles files index checksums).map Prod.fst
  := by
  rw [textFiles, List.map_append, List.mem_append, h.mem base]
  simp only [FileOf, List.map_cons, List.map_nil, List.mem_cons, List.not_mem_nil, or_false]
  constructor
  · rintro (h | h | h)
    · exact Or.inr (Or.inr h)
    · exact Or.inr (Or.inl h)
    · exact Or.inl h
  · rintro (h | h | h)
    · exact Or.inr (Or.inr h)
    · exact Or.inr (Or.inl h)
    · exact Or.inl h

theorem fileOf (h : Covers s files) {f : Str × Str} (hf : f ∈ textFiles files index checksums) :
  FileOf s f.1
  := (h.fileOf_iff f.1).mpr (List.mem_map_of_mem hf)

end Covers

/-! ### Writing the backup -/

/-- Of the names in `A` only backup names have changed since the disk was `d₀`. -/
structure Frame (A : Set Str) (d₀ d : Disk) : Prop where
  committed : d.committed = d₀.committed
  read : ∀ m ∈ A, (∀ n, backupOf n ≠ m) → d.dir.read m = d₀.dir.read m

/-- Only a backup file is truncated, and no other name in `A` refers to it. -/
def Allowed (A : Set Str) : Instruction → Disk → Prop
  | .openTruncate name, d => (∀ m ∈ A, d.dir.Apart name m) ∧ ∃ base, name = backupOf base
  | _, _ => True

/-- The programs that change backup names only. -/
abbrev Drafts (A : Set Str) (d₀ : Disk) (post : Disk → Prop) : List Instruction → Disk → Prop :=
  Crash.Safe exec (Allowed A) (Frame A d₀) post

/-- While the backup is written, some backup files are open and some are written; those that are
there satisfy `K`. -/
structure Drafting (A : Set Str) (K : Str → Prop) (d₀ : Disk) (opened : List Str)
    (written : List (Str × Str)) (d : Disk) : Prop extends Frame A d₀ d where
  apart : ∀ n, ∀ m ∈ A, d.dir.Apart (backupOf n) m
  opened : ∀ n ∈ opened, (d.dir.read (backupOf n)).isSome
  written : ∀ f ∈ written, d.dir.read (backupOf f.1) = some f.2
  backup : ∀ n, (d.dir.read (backupOf n)).isSome → K n

namespace Drafting

variable {A : Set Str} {K : Str → Prop} {d₀ d : Disk} {opened : List Str}
  {written : List (Str × Str)} {base : Str}

/-- A directory in which only one backup file has changed. -/
theorem of_read (h : Drafting A K d₀ opened written d) (hA : ∀ n, backupOf n ∈ A)
    (hbase : K base) (hnew : ∀ f ∈ written, f.1 ≠ base) {dir : Directory} {text : Str}
    (hapart : ∀ n, ∀ m ∈ A, dir.Apart (backupOf n) m)
    (hread : ∀ m ∈ A, dir.read m = if backupOf base = m then some text else d.dir.read m) :
  Drafting A K d₀ (base :: opened) written ⟨dir, d.committed⟩
  where
  committed := h.committed
  read m hmem hm := by
    rw [hread m hmem, if_neg (hm base)]
    exact h.read m hmem hm
  apart := hapart
  opened n hn := by
    rw [hread _ (hA n)]
    split
    · rfl
    · rename_i hne
      obtain rfl | hn := List.mem_cons.mp hn
      · exact absurd rfl hne
      · exact h.opened n hn
  written f hf := by
    rw [hread _ (hA f.1), if_neg fun heq => hnew f hf (backupOf_injective heq).symm]
    exact h.written f hf
  backup n hn := by
    rw [hread _ (hA n)] at hn
    split at hn
    · rename_i heq
      rw [← backupOf_injective heq]
      exact hbase
    · exact h.backup n hn

/-- A backup file is opened. -/
theorem openTruncate (h : Drafting A K d₀ opened written d) (hA : ∀ n, backupOf n ∈ A)
    (hbase : K base) (hnew : ∀ f ∈ written, f.1 ≠ base) :
  Drafting A K d₀ (base :: opened) written ⟨d.dir.openTruncate (backupOf base), d.committed⟩
  := by
  apply h.of_read hA hbase hnew
  · exact fun n m hm => (h.apart n m hm).openTruncate _
  · exact fun m hm => Directory.read_openTruncate (h.apart base m hm)

/-- The text of a backup file that is open is written. -/
theorem write (h : Drafting A K d₀ opened written d) (hA : ∀ n, backupOf n ∈ A)
    (hbase : K base) (hnew : ∀ f ∈ written, f.1 ≠ base) (hopened : base ∈ opened) (text : Str) :
  ∃ dir, d.dir.write (backupOf base) text = some dir
    ∧ Drafting A K d₀ opened (written ++ [(base, text)]) ⟨dir, d.committed⟩
  := by
  obtain ⟨dir, hwrite, hnames, hread⟩ := Directory.write_spec (h.opened base hopened) text
  have hread m (hm : m ∈ A) := hread m (h.apart base m hm)
  have hw := h.of_read hA hbase hnew (fun n m hm => (h.apart n m hm).of_names hnames) hread
  refine ⟨dir, hwrite, hw.toFrame, hw.apart, ?_, ?_, hw.backup⟩
  · intro n hn
    exact hw.opened n (List.mem_cons_of_mem base hn)
  · intro f hf
    obtain hf | hf := List.mem_append.mp hf
    · exact hw.written f hf
    · obtain rfl := List.mem_singleton.mp hf
      rw [hread _ (hA _), if_pos rfl]

end Drafting

section

variable {A : Set Str} {K : Str → Prop} {d₀ d : Disk} {s : Buckets} {opened : List Str}
  {written : List (Str × Str)}

/-- The text of a file that is open is written. -/
theorem safe_write (hA : ∀ n, backupOf n ∈ A) (hs : WellNamed s)
    (hK : ∀ base, FileOf s base → K base) {base : Str} (hbase : FileOf s base)
    (hopened : base ∈ opened) (hnew : ∀ f ∈ written, f.1 ≠ base) (text : Str)
    (h : Drafting A K d₀ opened written d) :
  Drafts A d₀ (Drafting A K d₀ opened (written ++ [(base, text)]))
    [.write (backupName base) text] d
  := by
  rw [backupName_eq hs hbase]
  obtain ⟨dir, hwrite, hw⟩ := h.write hA (hK base hbase) hnew hopened text
  exact .single h.toFrame trivial (by simp only [exec, hwrite]; rfl) hw.toFrame hw

/-- A file is opened and its text is written. -/
theorem safe_writeFile (hA : ∀ n, backupOf n ∈ A) (hs : WellNamed s)
    (hK : ∀ base, FileOf s base → K base) {file : Str × Str} (hfile : FileOf s file.1)
    (hnew : ∀ f ∈ written, f.1 ≠ file.1) (h : Drafting A K d₀ opened written d) :
  Drafts A d₀ (Drafting A K d₀ opened (written ++ [file])) (writeFile file) d
  := by
  have hopen := h.openTruncate hA (hK _ hfile) hnew
  rw [← backupName_eq hs hfile] at hopen
  apply Crash.Safe.step h.toFrame _ rfl
  · apply (safe_write hA hs hK hfile List.mem_cons_self hnew file.2 hopen).mono fun _ hr => hr
    intro d' _ hd'
    exact ⟨hd'.toFrame, hd'.apart, fun n hn => hd'.opened n (List.mem_cons_of_mem _ hn),
      hd'.written, hd'.backup⟩
  · rw [backupName_eq hs hfile]
    exact ⟨h.apart file.1, file.1, rfl⟩

/-- The backup is written. -/
theorem safe_saveBackup (hA : ∀ n, backupOf n ∈ A) (hs : WellNamed s)
    (hK : ∀ base, FileOf s base → K base) {files : List (Str × Str)} (hfiles : Covers s files)
    (index checksums : Str) (h : Drafting A K d₀ [] [] d) :
  Drafts A d₀
    (Drafting A K d₀ [indexFilename, checksumFilename] (textFiles files index checksums))
    (saveBackupTexts files index checksums) d
  := by
  have hchecksum : FileOf s checksumFilename := Or.inl rfl
  have hindex : FileOf s indexFilename := Or.inr (Or.inl rfl)
  -- the checksum file and the index are opened
  have hopen : Drafts A d₀ (Drafting A K d₀ [indexFilename, checksumFilename] [])
      openSpecialFiles d := by
    rw [openSpecialFiles, backupName_eq hs hchecksum, backupName_eq hs hindex]
    have h₁ := h.openTruncate hA (hK _ hchecksum) (by simp)
    have h₂ := h₁.openTruncate hA (hK _ hindex) (by simp)
    apply Crash.Safe.step h.toFrame ⟨h.apart checksumFilename, _, rfl⟩ rfl
    exact .single h₁.toFrame ⟨h₁.apart indexFilename, _, rfl⟩ rfl h₂.toFrame h₂
  -- the files of the buckets are written
  have hbuckets : ∀ d, Drafting A K d₀ [indexFilename, checksumFilename] [] d →
      Drafts A d₀ (Drafting A K d₀ [indexFilename, checksumFilename] files)
        (files.flatMap writeFile) d := by
    intro d hd
    apply Crash.Safe.flatMap_split (Drafting A K d₀ [indexFilename, checksumFilename])
      (fun _ _ hd => hd.toFrame) _ hd
    intro written file rest hsplit d hd
    have hmem : file ∈ textFiles files index checksums := by
      simp [textFiles, hsplit]
    apply safe_writeFile hA hs hK (hfiles.fileOf hmem) _ hd
    have hnodup := hfiles.nodup
    rw [hsplit, List.map_append, List.map_cons] at hnodup
    intro f hf heq
    exact List.disjoint_of_nodup_append hnodup (List.mem_map_of_mem hf) (heq ▸ List.mem_cons_self)
  apply (hopen.append fun d _ => hbuckets d).append
  -- the index and the checksum file are written
  intro d _ hd
  apply Crash.Safe.append
    (safe_write hA hs hK hindex (by simp) (fun f hf => (hfiles.ne_index hf).1) index hd)
  intro d _ hd
  rw [textFiles, List.append_cons]
  apply safe_write hA hs hK hchecksum (by simp) _ checksums hd
  intro f hf
  obtain hf | hf := List.mem_append.mp hf
  · exact (hfiles.ne_index hf).2
  · rw [List.mem_singleton.mp hf]
    show indexFilename ≠ checksumFilename
    decide

/-- The files of a database that are there are synced. -/
theorem safe_syncDatabase (hs : WellNamed s) (order : IterationOrder Str) (syncBackup : Bool)
    {P R : Disk → Prop} (hP : ∀ d, P d → R d)
    (hfiles : ∀ d, P d → ∀ base, FileOf s base → (d.dir.read (base ++ suffix syncBackup)).isSome)
    (h : P d) :
  Crash.Safe exec (Allowed A) R P (syncDatabase order s syncBackup) d
  := by
  have hfiles : Crash.Safe exec (Allowed A) R P ((filenames order s).flatMap fun base =>
      [.syncElement (cString (base ++ suffix syncBackup))]) d := by
    apply Crash.Safe.flatMap fun _ d => P d
    · exact fun _ d hd => hP d hd
    · intro _ base hbase d hd
      have hbase := mem_filenames.mp hbase
      apply Crash.Safe.single (hP d hd) trivial _ (hP d hd) hd
      rw [cString_append_suffix hs hbase]
      simp only [exec, hfiles d hd base hbase, ↓reduceIte]
    · exact h
  apply Crash.Safe.append hfiles
  intro d hrec hd
  exact Crash.Safe.single hrec trivial rfl hrec hd

end

/-! ### Replacing the primary files -/

/-- While the guard is there, the backup files have the given texts, some primary files are linked
to them, and the backup names that are there satisfy `K`. -/
structure Linking (s : Buckets) (texts : List (Str × Str)) (K : Str → Prop) (linked : List Str)
    (d : Disk) : Prop where
  committed : d.committed = s
  guard : (d.dir.read guardFilename).isSome
  copies : ∀ f ∈ texts, d.dir.read (backupOf f.1) = some f.2
  linked : ∀ f ∈ texts, f.1 ∈ linked → d.dir.read f.1 = some f.2
  backup : ∀ n, (d.dir.read (backupOf n)).isSome → K n

/-- When the guard has been removed, the primary files have the given texts. -/
structure Relinked (s : Buckets) (texts : List (Str × Str)) (d : Disk) : Prop where
  committed : d.committed = s
  noGuard : d.dir.read guardFilename = none
  primary : ∀ f ∈ texts, d.dir.read f.1 = some f.2

/-- Then the backup names are removed. -/
structure Removing (s : Buckets) (texts : List (Str × Str)) (K : Str → Prop) (removed : List Str)
    (d : Disk) : Prop extends Relinked s texts d where
  backup : ∀ n, (d.dir.read (backupOf n)).isSome → K n ∧ n ∉ removed

/-- The texts of a database can be read, from the backup or from the primary files. -/
def Replacing (s : Buckets) (texts : List (Str × Str)) (K : Str → Prop) (d : Disk) : Prop :=
  (∃ linked, Linking s texts K linked d) ∨ ∃ removed, Removing s texts K removed d

section

variable {A : Set Str} {K : Str → Prop} {s : Buckets} {texts : List (Str × Str)} {d : Disk}

theorem Linking.replacing {linked : List Str} (h : Linking s texts K linked d) :
  Replacing s texts K d
  := Or.inl ⟨linked, h⟩

theorem Removing.replacing {removed : List Str} (h : Removing s texts K removed d) :
  Replacing s texts K d
  := Or.inr ⟨removed, h⟩

/-- A directory in which only one primary file has changed. -/
theorem Linking.of_read {linked : List Str} {dir : Directory} {base : Str} {text : Option Str}
    (hs : WellNamed s) (h : Linking s texts K linked d) (hbase : FileOf s base)
    (hread : ∀ m, dir.read m = if base = m then text else d.dir.read m) :
  Linking s texts K (linked.filter fun n => n ≠ base) ⟨dir, d.committed⟩
  where
  committed := h.committed
  guard := by
    rw [hread, if_neg hbase.ne_guard.symm]
    exact h.guard
  copies f hf := by
    rw [hread, if_neg (hbase.ne_backupOf hs f.1).symm]
    exact h.copies f hf
  linked f hf hlinked := by
    obtain ⟨hlinked, hne⟩ := List.mem_filter.mp hlinked
    rw [hread, if_neg]
    · exact h.linked f hf hlinked
    · rintro rfl
      simp at hne
  backup n hn := by
    rw [hread, if_neg (hbase.ne_backupOf hs n).symm] at hn
    exact h.backup n hn

/-- A primary file is replaced by a link to the backup. -/
theorem safe_relink {linked : List Str} (hs : WellNamed s) {f : Str × Str} (hf : f ∈ texts)
    (hbase : FileOf s f.1) (h : Linking s texts K linked d) :
  Crash.Safe exec (Allowed A) (Replacing s texts K) (Linking s texts K (linked ++ [f.1]))
    [.deleteHardLink (cString f.1), .createHardLink (backupName f.1) (cString f.1)] d
  := by
  rw [cString_eq hs hbase, backupName_eq hs hbase]
  have h₁ := h.of_read hs hbase (Directory.read_unlink d.dir f.1)
  have hold := h₁.copies f hf
  have hnew : (d.dir.unlink f.1).read f.1 = none := by
    rw [Directory.read_unlink, if_pos rfl]
  obtain ⟨dir, hlink, hread⟩ := Directory.link_spec (Option.isSome_of_eq_some hold) hnew
  have h₂ := h₁.of_read hs hbase hread
  have hlinked : Linking s texts K (linked ++ [f.1]) ⟨dir, d.committed⟩ := by
    refine ⟨h₂.committed, h₂.guard, h₂.copies, ?_, h₂.backup⟩
    intro g hg hmem
    by_cases heq : f.1 = g.1
    · rw [hread, if_pos heq, congrArg backupOf heq]
      exact h₁.copies g hg
    · apply h₂.linked g hg
      simpa [Ne.symm heq] using hmem
  apply Crash.Safe.step h.replacing trivial rfl
  exact .single h₁.replacing trivial (by simp only [exec, hlink]; rfl) hlinked.replacing hlinked

/-- The guard is removed when all the primary files are linked to the backup. -/
theorem Linking.deleteGuard {linked : List Str} (hfiles : ∀ f ∈ texts, FileOf s f.1)
    (hall : ∀ f ∈ texts, f.1 ∈ linked) (h : Linking s texts K linked d) :
  Removing s texts K [] ⟨d.dir.unlink guardFilename, d.committed⟩
  where
  committed := h.committed
  noGuard := by rw [Directory.read_unlink, if_pos rfl]
  primary f hf := by
    rw [Directory.read_unlink, if_neg (hfiles f hf).ne_guard]
    exact h.linked f hf (hall f hf)
  backup n hn := by
    rw [Directory.read_unlink, if_neg (backupOf_ne_guard n).symm] at hn
    exact ⟨h.backup n hn, List.not_mem_nil⟩

/-- A name that is no file of the database is removed. -/
theorem Removing.unlink {removed : List Str} (h : Removing s texts K removed d) {n : Str}
    (hn : ∀ f ∈ texts, f.1 ≠ n) :
  Removing s texts K removed ⟨d.dir.unlink n, d.committed⟩
  where
  committed := h.committed
  noGuard := by
    rw [Directory.read_unlink]
    split
    · rfl
    · exact h.noGuard
  primary f hf := by
    rw [Directory.read_unlink, if_neg (hn f hf).symm]
    exact h.primary f hf
  backup m hm := by
    rw [Directory.read_unlink] at hm
    split at hm
    · contradiction
    · exact h.backup m hm

/-- The backup names are removed. -/
theorem safe_deleteBackupHardLinks (hs : WellNamed s) (hfiles : ∀ f ∈ texts, FileOf s f.1)
    (order : IterationOrder Str) (h : Removing s texts K [] d) :
  Crash.Safe exec (Allowed A) (Replacing s texts K) (Removing s texts K (filenames order s))
    (deleteBackupHardLinks order s) d
  := by
  apply Crash.Safe.flatMap (Removing s texts K) (fun _ _ hr => hr.replacing) _ h
  intro removed base hbase d hd
  rw [backupName_eq hs (mem_filenames.mp hbase)]
  have hd' := hd.unlink (n := backupOf base) fun f hf heq =>
    (hfiles f hf).ne_backupOf hs base heq.symm
  apply Crash.Safe.single hd.replacing trivial rfl hd'.replacing
  refine ⟨hd'.toRelinked, fun n hn => ?_⟩
  obtain ⟨hK, hmem⟩ := hd'.backup n hn
  refine ⟨hK, ?_⟩
  rw [List.mem_append, List.mem_singleton, not_or]
  refine ⟨hmem, ?_⟩
  rintro rfl
  rw [Directory.read_unlink, if_pos rfl] at hn
  contradiction

/-- With the guard in place, the primary files are replaced by the backup. -/
theorem safe_revalidatePrimaryDatabase (hs : WellNamed s)
    (hfiles : ∀ base, FileOf s base ↔ base ∈ texts.map Prod.fst) (order : IterationOrder Str)
    (h : Linking s texts K [] d) :
  Crash.Safe exec (Allowed A) (Replacing s texts K) (Removing s texts K (filenames order s))
    (revalidatePrimaryDatabase order s) d
  := by
  have hfileOf : ∀ f ∈ texts, FileOf s f.1 := fun f hf =>
    (hfiles f.1).mpr (List.mem_map_of_mem hf)
  have hmem : ∀ base ∈ filenames order s, ∃ f ∈ texts, f.1 = base := fun base hbase =>
    List.mem_map.mp ((hfiles base).mp (mem_filenames.mp hbase))
  have hall : ∀ f ∈ texts, f.1 ∈ filenames order s := fun f hf => mem_filenames.mpr (hfileOf f hf)
  have hlinks : Crash.Safe exec (Allowed A) (Replacing s texts K)
      (Linking s texts K (filenames order s)) (createPrimaryHardLinks order s) d := by
    apply Crash.Safe.flatMap (Linking s texts K) (fun _ _ hl => hl.replacing) _ h
    intro linked base hbase d hd
    obtain ⟨f, hf, rfl⟩ := hmem base hbase
    exact safe_relink hs hf (hfileOf f hf) hd
  have hsync : ∀ d, Linking s texts K (filenames order s) d →
      Crash.Safe exec (Allowed A) (Replacing s texts K) (Linking s texts K (filenames order s))
        (syncDatabase order s false) d := by
    intro d hd
    apply safe_syncDatabase hs order false (fun _ hl => hl.replacing) _ hd
    intro d hd base hbase
    obtain ⟨f, hf, rfl⟩ := hmem base (mem_filenames.mpr hbase)
    rw [suffix, if_neg (by decide), List.append_nil, hd.linked f hf (hall f hf)]
    rfl
  have hguard : ∀ d, Linking s texts K (filenames order s) d →
      Crash.Safe exec (Allowed A) (Replacing s texts K) (Removing s texts K [])
        [.deleteHardLink guardFilename, .syncDirectory] d := by
    intro d hd
    have hremoving := hd.deleteGuard hfileOf hall
    apply Crash.Safe.step hd.replacing trivial rfl
    exact .single hremoving.replacing trivial rfl hremoving.replacing hremoving
  exact ((hlinks.append fun d _ => hsync d).append fun d _ => hguard d).append
    fun d _ => safe_deleteBackupHardLinks hs hfileOf order

end

/-! ### The whole save -/

section

variable {A : Set Str} {K : Str → Prop} {d₀ d : Disk} {s : Buckets} {texts : List (Str × Str)}
  {R : Disk → Prop}

/-- The guard is created when the backup is written. -/
theorem safe_createGuard (hframe : ∀ d, Frame A d₀ d → R d)
    (hreplacing : ∀ d, Replacing s texts K d → R d) (hmem : guardFilename ∈ A)
    (hguard : d₀.dir.read guardFilename = none) {opened : List Str}
    (h : Drafting A K d₀ opened texts d) :
  Crash.Safe exec (Allowed A) R (Linking s texts K []) (createBackupGuard s) d
  := by
  have hread := Directory.read_create d.dir guardFilename
  have hlinking : Linking s texts K [] ⟨d.dir.create guardFilename, s⟩ := by
    refine ⟨rfl, ?_, ?_, by simp, ?_⟩
    · rw [hread, if_pos rfl]
      rfl
    · intro f hf
      rw [hread, if_neg (backupOf_ne_guard f.1).symm]
      exact h.written f hf
    · intro n hn
      rw [hread, if_neg (backupOf_ne_guard n).symm] at hn
      exact h.backup n hn
  have hexec : exec (.createGuard s) d = some (⟨d.dir.create guardFilename, s⟩, []) := by
    have hnone : d.dir.read guardFilename = none := by
      rw [h.read guardFilename hmem backupOf_ne_guard, hguard]
    simp only [exec, Directory.createExclusive_spec hnone, Option.map_some]
  have hrec := hreplacing _ hlinking.replacing
  apply Crash.Safe.step (hframe d h.toFrame) trivial hexec
  exact .single hrec trivial rfl hrec hlinking

/-- A save in which no call fails comes to its end, and the primary files are those that were
written.  Until the guard is there only backup names change, and from then on the texts can be
read. -/
theorem safe_saveTexts (hA : ∀ n, backupOf n ∈ A) (hmem : guardFilename ∈ A) (hs : WellNamed s)
    (hK : ∀ base, FileOf s base → K base) {files : List (Str × Str)} (hfiles : Covers s files)
    (order : IterationOrder Str) {index checksums : Str} (hframe : ∀ d, Frame A d₀ d → R d)
    (hreplacing : ∀ d, Replacing s (textFiles files index checksums) K d → R d)
    (hguard : d₀.dir.read guardFilename = none) (h : Drafting A K d₀ [] [] d₀) :
  Crash.Safe exec (Allowed A) R
    (Removing s (textFiles files index checksums) K (filenames order s))
    (saveTexts order s files index checksums) d₀
  := by
  have hbackup := (safe_saveBackup hA hs hK hfiles index checksums h).mono hframe fun _ _ hd => hd
  have hsync : ∀ d, Drafting A K d₀ [indexFilename, checksumFilename]
        (textFiles files index checksums) d →
      Crash.Safe exec (Allowed A) R (Drafting A K d₀ [indexFilename, checksumFilename]
        (textFiles files index checksums)) (syncDatabase order s true) d := by
    intro d hd
    apply safe_syncDatabase hs order true (fun d hd => hframe d hd.toFrame) _ hd
    intro d hd base hbase
    obtain ⟨f, hf, rfl⟩ := List.mem_map.mp ((hfiles.fileOf_iff base).mp hbase)
    exact Option.isSome_of_eq_some (hd.written f hf)
  have hcommit := (hbackup.append fun d _ => hsync d).append fun d _ =>
    safe_createGuard hframe hreplacing hmem hguard
  apply hcommit.append
  intro d _ hd
  exact (safe_revalidatePrimaryDatabase hs hfiles.fileOf_iff order hd).mono hreplacing
    fun _ _ hr => hr

end

/-! ### Saves after failures -/

/-- There is no guard, and distinct backup names have distinct inodes. -/
structure Ready (d : Disk) : Prop where
  noGuard : d.dir.read guardFilename = none
  apart : ∀ m n, d.dir.Apart (backupOf m) (backupOf n)

/-- The disk as a load leaves it is ready. -/
theorem ready_of_noBackup {d : Disk} (hguard : d.dir.read guardFilename = none)
    (hbackup : ∀ n, d.dir.read (backupOf n) = none) :
  Ready d
  := ⟨hguard, fun m _ => Directory.Unaliased.of_read_eq_none (hbackup m) _⟩

/-- A save on a disk that is ready comes to its end, and the primary files are those that were
written. -/
theorem ends_saveTexts {s : Buckets} (hs : WellNamed s) {files : List (Str × Str)}
    (hfiles : Covers s files) (order : IterationOrder Str) (index checksums : Str) {d : Disk}
    (h : Ready d) :
  Crash.Ends exec (Relinked s (textFiles files index checksums))
    (saveTexts order s files index checksums) d
  := by
  let A : Set Str := insert guardFilename (Set.range backupOf)
  have hdrafting : Drafting A (fun _ => True) d [] [] d := by
    refine ⟨⟨rfl, fun _ _ _ => rfl⟩, ?_, by simp, by simp, fun _ _ => trivial⟩
    rintro n m (rfl | ⟨k, rfl⟩)
    · intro i _ hi
      have hguard := h.noGuard
      rw [Directory.read, hi] at hguard
      contradiction
    · exact h.apart n k
  have hsave : Crash.Safe exec (Allowed A) (fun _ => True)
      (Removing s (textFiles files index checksums) (fun _ => True) (filenames order s))
      (saveTexts order s files index checksums) d := by
    apply safe_saveTexts (fun n => Or.inr ⟨n, rfl⟩) (Or.inl rfl) hs (fun _ _ => trivial) hfiles
      order (fun _ _ => trivial) (fun _ _ => trivial) h.noGuard hdrafting
  exact (hsave.mono (fun _ hr => hr) fun _ _ hr => hr.toRelinked).ends

end Cynara
