import Cynara.Storage.Database

/-!
# The paths of bucket files

The file of a bucket is opened under the path of the database, a prefix and the id of the bucket,
and under the same path with a suffix for the backup.  The system calls see a path up to its first
zero byte.  The constructor of a bucket accepts letters, digits and the bytes that `strchr` finds in
the string of separators, and `strchr` finds the zero byte at the end of the string.

So the paths of two buckets are different, and different from those of the other files, exactly if
there is no zero byte in the ids.
-/

namespace Cynara

open InMemoryStorageBackend Str StoragePath

/-- The path of the database; it has no zero byte. -/
abbrev DbPath := { path : Str // 0 ∉ path }

/-- The path under which a file is opened. -/
def pathOf (dbPath : DbPath) (filename : Str) : Str := cString (dbPath.val ++ filename)

/-- A file and its backup. -/
def pathsOf (dbPath : DbPath) (filename : Str) : List Str :=
  [pathOf dbPath filename, pathOf dbPath (filename ++ backupFilenameSuffix)]

/-- The paths of the files that belong to no bucket. -/
def commonPaths (dbPath : DbPath) : List Str :=
  [indexFilename, checksumFilename, guardFilename].flatMap (pathsOf dbPath)

variable {dbPath : DbPath} {id id' : PolicyBucketId}

theorem pathOf_eq (dbPath : DbPath) (filename : Str) :
  pathOf dbPath filename = dbPath.val ++ cString filename
  := by
  rw [pathOf, cString_append, if_neg dbPath.property]

theorem pathOf_eq_iff {filename filename' : Str} :
  pathOf dbPath filename = pathOf dbPath filename' ↔ cString filename = cString filename'
  := by
  rw [pathOf_eq, pathOf_eq, List.append_right_inj]

/-- A file whose name has a zero byte has the same path as its backup. -/
theorem not_nodup_pathsOf {filename : Str} (h : 0 ∈ filename) :
  ¬ (pathsOf dbPath filename).Nodup
  := by
  have hsame : cString filename = cString (filename ++ backupFilenameSuffix) := by
    rw [cString_append, if_pos h]
  simp [pathsOf, pathOf_eq_iff, hsame]

/-- An id that is accepted and has no zero byte is made of letters, digits, hyphens and
underscores, and so is the name of its file. -/
theorem isIdByte_of_mem_bucketFilename (hid : idValidator id = true) (hzero : 0 ∉ id) {c : UInt8}
    (hc : c ∈ bucketFilename id) :
  isIdByte c = true
  := by
  rw [bucketFilename, List.mem_append] at hc
  rcases hc with hc | hc
  · have hprefixed : bucketFilenamePrefix.all isIdByte = true := by decide
    exact List.all_eq_true.mp hprefixed c hc
  · have hvalid := List.all_eq_true.mp hid c hc
    have hne : c ≠ 0 := fun heq => hzero (heq ▸ hc)
    simpa [isIdSeparator, isIdByte, hne, or_assoc] using hvalid

theorem cString_bucketFilename (hid : idValidator id = true) (hzero : 0 ∉ id) :
  cString (bucketFilename id) = bucketFilename id ∧
    cString (bucketFilename id ++ backupFilenameSuffix) =
      bucketFilename id ++ backupFilenameSuffix
  := by
  have hnotMem : 0 ∉ bucketFilename id := fun hmem =>
    absurd (isIdByte_of_mem_bucketFilename hid hzero hmem) (by decide)
  have hsuffix : (0 : UInt8) ∉ backupFilenameSuffix := by decide
  refine ⟨cString_of_notMem hnotMem, cString_of_notMem ?_⟩
  rw [List.mem_append]
  exact not_or_intro hnotMem hsuffix

/-- The name of a bucket file is not that of a backup. -/
theorem bucketFilename_ne_backup (hid : idValidator id = true) (hzero : 0 ∉ id) (filename : Str) :
  bucketFilename id ≠ filename ++ backupFilenameSuffix
  := by
  intro heq
  have hmem : (126 : UInt8) ∈ bucketFilename id := by
    rw [heq]
    exact List.mem_append_right _ (by decide)
  exact absurd (isIdByte_of_mem_bucketFilename hid hzero hmem) (by decide)

/-- The paths of the files of a bucket. -/
def bucketPaths (dbPath : DbPath) (id : PolicyBucketId) : List Str :=
  pathsOf dbPath (bucketFilename id)

/-- The names of the other files, and those of their backups. -/
theorem mem_commonPaths {path : Str} (h : path ∈ commonPaths dbPath) :
  ∃ c rest, c ≠ 95 ∧ path = dbPath.val ++ c :: rest
  := by
  have hnames : ∀ name ∈ [indexFilename, checksumFilename, guardFilename],
      ∀ filename ∈ [name, name ++ backupFilenameSuffix],
        (cString filename).head?.any (· != 95) = true := by
    decide
  obtain ⟨name, hname, hpath⟩ := List.mem_flatMap.mp h
  obtain ⟨filename, hfilename, rfl⟩ :
      ∃ filename ∈ [name, name ++ backupFilenameSuffix], path = pathOf dbPath filename := by
    simpa [pathsOf] using hpath
  obtain ⟨c, hhead, hc⟩ := (Option.any_eq_true _ _).mp (hnames name hname filename hfilename)
  obtain ⟨rest, hrest⟩ := List.head?_eq_some_iff.mp hhead
  exact ⟨c, rest, by simpa using hc, by rw [pathOf_eq, hrest]⟩

/-- The name of a bucket file starts with a byte that no other name starts with. -/
theorem disjoint_commonPaths (hid : idValidator id = true) (hzero : 0 ∉ id) :
  ∀ path ∈ bucketPaths dbPath id, path ∉ commonPaths dbPath
  := by
  obtain ⟨hprimary, hbackup⟩ := cString_bucketFilename hid hzero
  intro path hpath hmem
  obtain ⟨c, rest, hc, rfl⟩ := mem_commonPaths hmem
  simp only [bucketPaths, pathsOf, pathOf_eq, hprimary, hbackup, List.mem_cons, List.not_mem_nil,
    or_false, List.append_right_inj] at hpath
  rcases hpath with h | h
  · exact hc (List.cons.inj h).1
  · exact hc (List.cons.inj h).1

/-- For two ids that the constructor of a bucket accepts, the paths of the files and of their
backups are pairwise distinct, and distinct from those of the other files, exactly if neither id
has a zero byte. -/
theorem bucketPaths_distinct_iff (dbPath : DbPath) (id id' : PolicyBucketId)
    (hid : idValidator id = true) (hid' : idValidator id' = true) (hne : id ≠ id') :
  ((bucketPaths dbPath id ++ bucketPaths dbPath id').Nodup ∧
      ∀ path ∈ bucketPaths dbPath id ++ bucketPaths dbPath id', path ∉ commonPaths dbPath) ↔
    0 ∉ id ∧ 0 ∉ id'
  := by
  have hzero : ∀ id : PolicyBucketId, 0 ∈ id → 0 ∈ bucketFilename id := fun id =>
    List.mem_append_right _
  constructor
  · rintro ⟨hnodup, -⟩
    rw [List.nodup_append] at hnodup
    exact ⟨fun hmem => not_nodup_pathsOf (hzero id hmem) hnodup.1,
      fun hmem => not_nodup_pathsOf (hzero id' hmem) hnodup.2.1⟩
  · rintro ⟨hfree, hfree'⟩
    obtain ⟨hprimary, hbackup⟩ := cString_bucketFilename hid hfree
    obtain ⟨hprimary', hbackup'⟩ := cString_bucketFilename hid' hfree'
    have hnames : bucketFilename id ≠ bucketFilename id' :=
      fun heq => hne (List.append_cancel_left heq)
    have hnames' : bucketFilename id ++ backupFilenameSuffix ≠
        bucketFilename id' ++ backupFilenameSuffix :=
      fun heq => hnames (List.append_cancel_right heq)
    have hkinds := bucketFilename_ne_backup hid hfree
    have hkinds' := bucketFilename_ne_backup hid' hfree'
    constructor
    · simp [bucketPaths, pathsOf, pathOf_eq_iff, hprimary, hbackup, hprimary', hbackup', hnames,
        hnames', hkinds, hkinds', Ne.symm (hkinds' _)]
    · rw [List.forall_mem_append]
      exact ⟨disjoint_commonPaths hid hfree, disjoint_commonPaths hid' hfree'⟩

/-- The path of the database that is built in, without the directories above it. -/
def dbDir : DbPath := ⟨ofString "db/", by decide⟩

/-- The files of the buckets `a` and `b`. -/
theorem bucketPaths_distinct_letters :
  (bucketPaths dbDir (ofString "a") ++ bucketPaths dbDir (ofString "b")).Nodup ∧
    ∀ path ∈ bucketPaths dbDir (ofString "a") ++ bucketPaths dbDir (ofString "b"),
      path ∉ commonPaths dbDir
  := (bucketPaths_distinct_iff dbDir (ofString "a") (ofString "b") (by decide) (by decide)
    (by decide)).mpr ⟨by decide, by decide⟩

/-- The backup of the bucket whose id is `a` and a zero byte is opened under the path of the primary
file of the bucket `a`. -/
theorem bucketPaths_collide :
  idValidator (ofString "a") = true ∧ idValidator (ofString "a" ++ [0]) = true ∧
    ofString "a" ≠ ofString "a" ++ [0] ∧
    pathOf dbDir (bucketFilename (ofString "a" ++ [0]) ++ backupFilenameSuffix) =
      pathOf dbDir (bucketFilename (ofString "a"))
  := by
  decide

end Cynara
