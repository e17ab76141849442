import Cynara.Library.Crash
import Cynara.Library.FileSystem
import Cynara.Storage.Database

/-!
# Loading and saving the database

A save writes the files under backup names, creates a guard file, replaces the primary files
by links to the backup, removes the guard and then the backup names.  A load reads the
backup if there is a guard, and the primary files otherwise; with a guard it goes on as the
save would have, and in the end it removes all the files that do not belong to the database.

The calls that change the directory are instructions, executed one at a time.  The process
may crash between any two of them.  A ghost field of the disk keeps the buckets of the last
save whose guard was created.
-/

open Std

namespace Cynara

open InMemoryStorageBackend Str StoragePath StorageSerializer

/-- The disk, with the buckets of the last save whose guard was created. -/
structure Disk where
  dir : Directory
  committed : Buckets

/-- The calls of the operating system. -/
inductive Instruction where
  | openTruncate (name : Str)
  | write (name text : Str)
  | syncElement (name : Str)
  | syncDirectory
  | createGuard (saved : Buckets)
  | createHardLink (oldName newName : Str)
  | deleteHardLink (name : Str)
  | deleteNonIndexedFiles (s : Buckets) (order : IterationOrder Str)

/-! ### Instructions -/

namespace Integrity

/-- The two names that each directory has. -/
def isSpecialDirectory (filename : Str) : Bool :=
  filename == ofString "." || filename == ofString ".."

/-- The files that are not buckets. -/
def isSpecialDatabaseEntry (filename : Str) : Bool :=
  filename == indexFilename || filename == checksumFilename

/-- The files that `deleteNonIndexedFiles` deletes. -/
def isNonIndexed (s : Buckets) (filename : Str) : Bool :=
  if isSpecialDirectory filename || isSpecialDatabaseEntry filename then false
  else if filename.length < bucketFilenamePrefix.length then true
  else if filename.take bucketFilenamePrefix.length != bucketFilenamePrefix then true
  else !hasBucket s (filename.drop bucketFilenamePrefix.length)

/-- A save has come to its guard, and not to its end. -/
def backupGuardExists (d : Directory) : Bool := (d.read guardFilename).isSome

/-- An instruction is executed; `none` stands for an exception.  Syncing changes nothing, and
a file that is not there is not an error for `deleteHardLink`. -/
def exec : Instruction → Disk → Option (Disk × List Instruction)
  | .openTruncate name, d => some (⟨d.dir.openTruncate name, d.committed⟩, [])
  | .write name text, d => (d.dir.write name text).map fun dir => (⟨dir, d.committed⟩, [])
  | .syncElement name, d => if (d.dir.read name).isSome then some (d, []) else none
  | .syncDirectory, d => some (d, [])
  | .createGuard saved, d =>
      (d.dir.createExclusive guardFilename).map fun dir => (⟨dir, saved⟩, [])
  | .createHardLink oldName newName, d =>
      (d.dir.link oldName newName).map fun dir => (⟨dir, d.committed⟩, [])
  | .deleteHardLink name, d => some (⟨d.dir.unlink name, d.committed⟩, [])
  | .deleteNonIndexedFiles s order, d =>
      let filenames := (order.entries d.dir.names).map Prod.fst
      some (d, (filenames.filter (isNonIndexed s)).map .deleteHardLink)

/-! ### Programs -/

/-- The plain names of the files of a database, in the order in which they are treated. -/
def filenames (order : IterationOrder Str) (s : Buckets) : List Str :=
  (order.entries s.map).map (fun e => bucketFilename e.1) ++ [indexFilename, checksumFilename]

/-- The name of the copy of a file. -/
def backupName (filename : Str) : Str := cString (filename ++ backupFilenameSuffix)

/-- All files are written to the disk. -/
def syncDatabase (order : IterationOrder Str) (s : Buckets) (syncBackup : Bool) :
    List Instruction :=
  (filenames order s).flatMap (fun filename =>
    [.syncElement (cString (filename ++ suffix syncBackup))]) ++ [.syncDirectory]

/-- The copies become the files of the database. -/
def createPrimaryHardLinks (order : IterationOrder Str) (s : Buckets) : List Instruction :=
  (filenames order s).flatMap fun filename =>
    [.deleteHardLink (cString filename), .createHardLink (backupName filename) (cString filename)]

/-- The names of the copies are removed. -/
def deleteBackupHardLinks (order : IterationOrder Str) (s : Buckets) : List Instruction :=
  (filenames order s).flatMap fun filename => [.deleteHardLink (backupName filename)]

/-- The database becomes what the copies are, and the guard is removed. -/
def revalidatePrimaryDatabase (order : IterationOrder Str) (s : Buckets) : List Instruction :=
  createPrimaryHardLinks order s ++ syncDatabase order s false
    ++ [.deleteHardLink guardFilename, .syncDirectory] ++ deleteBackupHardLinks order s

end Integrity

open Integrity

variable (digest : Str → Vector UInt8 16)

namespace InMemoryStorageBackend

/-- The checksum file and the index are opened first and written last, when their streams are
closed. -/
def saveBackup (order : DumpOrder) (s : Buckets) : List Instruction :=
  [.openTruncate (backupName checksumFilename), .openTruncate (backupName indexFilename)]
    ++ (bucketFiles order s).flatMap (fun file =>
      [.openTruncate (backupName file.1), .write (backupName file.1) file.2])
    ++ [.write (backupName indexFilename) (dumpIndex order.buckets s),
      .write (backupName checksumFilename) (dumpChecksums digest order s)]

/-- The copies are written first.  From the guard on they are the database. -/
def save (order : DumpOrder) (s : Buckets) : List Instruction :=
  saveBackup digest order s ++ syncDatabase order.buckets s true
    ++ [.createGuard s, .syncDirectory] ++ revalidatePrimaryDatabase order.buckets s

/-- What a load does after it has read the buckets. -/
def postLoadCleanup (order dirOrder : IterationOrder Str) (s : Buckets) (isBackupValid : Bool) :
    List Instruction :=
  (if isBackupValid then revalidatePrimaryDatabase order s else [])
    ++ [.deleteNonIndexedFiles s dirOrder]

end InMemoryStorageBackend

/-! ### The process and its crashes -/

/-- What the process is doing: it is not running, it waits with some buckets in memory, it
is in the middle of a load or a save, or one of these has failed. -/
inductive Process where
  | down
  | idle (s : Buckets)
  | loading (s : Buckets) (todo : List Instruction)
  | saving (s : Buckets) (todo : List Instruction)
  | failed

/-- The process and the disk. -/
structure System where
  process : Process
  disk : Disk

/-- A load reads the buckets, and goes on with the directory if it succeeds. -/
def startLoad (order dirOrder : IterationOrder Str) (disk : Disk) : Process :=
  let isBackupValid := backupGuardExists disk.dir
  let o := readBuckets digest disk.dir.read order isBackupValid
  match o.thrown with
  | none => .loading o.state (postLoadCleanup order dirOrder o.state isBackupValid)
  | some _ => .failed

/-- The steps of the system.  A load may start whenever no other operation is under way, a
save only when there are buckets in memory; a crash may come at any time. -/
inductive Step : System → System → Prop where
  | boot (order dirOrder : IterationOrder Str) (disk : Disk) :
      Step ⟨.down, disk⟩ ⟨startLoad digest order dirOrder disk, disk⟩
  | load (order dirOrder : IterationOrder Str) (s : Buckets) (disk : Disk) :
      Step ⟨.idle s, disk⟩ ⟨startLoad digest order dirOrder disk, disk⟩
  | save (order : DumpOrder) (s s' : Buckets) (disk : Disk) (storable : Storable s') :
      Step ⟨.idle s, disk⟩ ⟨.saving s' (InMemoryStorageBackend.save digest order s'), disk⟩
  | loadStep {s : Buckets} {i : Instruction} {rest more : List Instruction} {disk disk' : Disk}
      (hexec : exec i disk = some (disk', more)) :
      Step ⟨.loading s (i :: rest), disk⟩ ⟨.loading s (more ++ rest), disk'⟩
  | saveStep {s : Buckets} {i : Instruction} {rest more : List Instruction} {disk disk' : Disk}
      (hexec : exec i disk = some (disk', more)) :
      Step ⟨.saving s (i :: rest), disk⟩ ⟨.saving s (more ++ rest), disk'⟩
  | loadFails {s : Buckets} {i : Instruction} {rest : List Instruction} {disk : Disk}
      (hexec : exec i disk = none) : Step ⟨.loading s (i :: rest), disk⟩ ⟨.failed, disk⟩
  | saveFails {s : Buckets} {i : Instruction} {rest : List Instruction} {disk : Disk}
      (hexec : exec i disk = none) : Step ⟨.saving s (i :: rest), disk⟩ ⟨.failed, disk⟩
  | loaded (s : Buckets) (disk : Disk) : Step ⟨.loading s [], disk⟩ ⟨.idle s, disk⟩
  | saved (s : Buckets) (disk : Disk) : Step ⟨.saving s [], disk⟩ ⟨.idle s, disk⟩
  | crash (process : Process) (disk : Disk) : Step ⟨process, disk⟩ ⟨.down, disk⟩

end Cynara
