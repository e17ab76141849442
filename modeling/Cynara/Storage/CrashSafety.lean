import Cynara.Storage.Save

/-!
# Crash safety of the database

At every point of a run the disk is `Recoverable`: without a guard the primary files are a
consistent database of the buckets that were committed last, and with a guard the backup
files are.  Between two operations there are moreover no backup names, so a save starts
with new inodes and never truncates a file of the primary database.

While a save writes the backup, it changes backup names only; from the creation of its guard on, its
texts can be read.  A load without a guard removes the files that do not belong to the database, and
with one it first goes through the stages of a save that are left.
-/

open Std

namespace Cynara

open InMemoryStorageBackend Str StoragePath StorageSerializer Integrity

variable {digest : Str → Vector UInt8 16}

/-! ### The conditions on the disk -/

/-- Buckets that the database can hold: there is a default bucket and the ids are well
formed. -/
structure Sound (s : Buckets) : Prop where
  wellNamed : WellNamed s
  hasDefault : hasBucket s defaultPolicyBucketId = true

/-- The committed buckets can be read: from the primary files if there is no guard, and from
the backup if there is one. -/
structure Recoverable (digest : Str → Vector UInt8 16) (d : Disk) : Prop where
  sound : Sound d.committed
  holds : d.dir.read guardFilename = none ∧ Holds digest d.dir.read d.committed
    ∨ (d.dir.read guardFilename).isSome
      ∧ Holds digest (fun base => d.dir.read (backupOf base)) d.committed

/-- The disk between two operations: the primary files hold the committed buckets, and there
is neither a guard nor a backup. -/
structure Clean (digest : Str → Vector UInt8 16) (d : Disk) : Prop where
  sound : Sound d.committed
  noGuard : d.dir.read guardFilename = none
  holds : Holds digest d.dir.read d.committed
  noBackup : ∀ n, d.dir.read (backupOf n) = none

theorem Clean.recoverable {d : Disk} (h : Clean digest d) :
  Recoverable digest d
  := ⟨h.sound, Or.inl ⟨h.noGuard, h.holds⟩⟩

/-- The programs of the storage that keep the disk recoverable. -/
abbrev Safe (digest : Str → Vector UInt8 16) (post : Disk → Prop) :
    List Instruction → Disk → Prop :=
  Crash.Safe exec (Allowed Set.univ) (Recoverable digest) post

/-- As long as only backup names change, the disk stays recoverable. -/
theorem Clean.recoverable_of_frame {d₀ d : Disk} (h : Clean digest d₀)
    (hframe : Frame Set.univ d₀ d) :
  Recoverable digest d
  := by
  obtain ⟨hcommitted, hread⟩ := hframe
  refine ⟨hcommitted ▸ h.sound, Or.inl ⟨?_, ?_⟩⟩
  · rw [hread guardFilename trivial backupOf_ne_guard]
    exact h.noGuard
  · rw [hcommitted]
    apply h.holds.congr
    intro base hbase
    rw [hread base trivial (hbase.ne_backupOf h.sound.wellNamed)]

section

variable {s : Buckets} {K : Str → Prop} {texts : List (Str × Str)} {d : Disk}

/-- Whoever reads these texts reads a consistent database of the buckets. -/
def Describes (digest : Str → Vector UInt8 16) (s : Buckets) (texts : List (Str × Str)) : Prop :=
  ∀ view : Str → Option Str, (∀ f ∈ texts, view f.1 = some f.2) → Holds digest view s

/-- The disk is recoverable while the primary files are replaced. -/
theorem Replacing.recoverable (hs : Sound s) (htexts : Describes digest s texts)
    (h : Replacing s texts K d) :
  Recoverable digest d
  := by
  obtain ⟨linked, hlinking⟩ | ⟨removed, hremoving⟩ := h
  · obtain rfl := hlinking.committed
    exact ⟨hs, Or.inr ⟨hlinking.guard, htexts _ hlinking.copies⟩⟩
  · obtain rfl := hremoving.committed
    exact ⟨hs, Or.inl ⟨hremoving.noGuard, htexts _ hremoving.primary⟩⟩

/-- The texts of a consistent database. -/
theorem Holds.exists_texts {view : Str → Option Str} (h : Holds digest view s) :
  ∃ texts, (∀ base, FileOf s base ↔ base ∈ texts.map Prod.fst)
    ∧ (∀ f ∈ texts, view f.1 = some f.2) ∧ Describes digest s texts
  := by
  let texts := (filenames .sorted s).map fun base => (base, (view base).getD [])
  have hnames : texts.map Prod.fst = filenames .sorted s := by
    rw [List.map_map]
    exact List.map_id _
  have hview : ∀ f ∈ texts, view f.1 = some f.2 := by
    intro f hf
    obtain ⟨base, hbase, rfl⟩ := List.mem_map.mp hf
    obtain ⟨text, htext⟩ := Option.isSome_iff_exists.mp (h.isSome (mem_filenames.mp hbase))
    simp [htext]
  refine ⟨texts, ?_, hview, ?_⟩
  · intro base
    rw [hnames]
    exact mem_filenames.symm
  · intro view' hview'
    apply h.congr
    intro base hbase
    replace hbase : base ∈ filenames .sorted s := mem_filenames.mpr hbase
    rw [← hnames] at hbase
    obtain ⟨f, hf, rfl⟩ := List.mem_map.mp hbase
    rw [hview f hf, hview' f hf]

/-! ### Removing the other files -/

/-- The files of the database are not removed. -/
theorem not_fileOf_of_isNonIndexed {n : Str} (h : isNonIndexed s n = true) :
  ¬ FileOf s n
  := by
  rintro (rfl | rfl | ⟨id, b, hb, rfl⟩)
  · simp [isNonIndexed, isSpecialDatabaseEntry] at h
  · simp [isNonIndexed, isSpecialDatabaseEntry] at h
  · unfold isNonIndexed at h
    simp [bucketFilename, bucketFilenamePrefix, ofString, hasBucket, hb] at h

/-- The backup names are removed. -/
theorem isNonIndexed_backupOf (hs : WellNamed s) (n : Str) :
  isNonIndexed s (backupOf n) = true
  := by
  have hmem : (126 : UInt8) ∈ backupOf n := List.mem_append_right _ (by decide)
  have hne : ∀ m : Str, (126 : UInt8) ∉ m → (backupOf n == m) = false := by
    intro m hm
    rw [beq_eq_false_iff_ne]
    rintro rfl
    exact hm hmem
  unfold isNonIndexed
  rw [isSpecialDirectory, isSpecialDatabaseEntry, hne _ (by decide), hne _ (by decide),
    hne _ (by decide), hne _ (by decide)]
  simp only [Bool.or_self, Bool.false_eq_true, ↓reduceIte, ite_eq_left_iff]
  intro _ htake
  -- a bucket with the rest of the name as its id would have a file of this name
  rw [Bool.not_eq_true', ← Bool.not_eq_true]
  intro hbucket
  obtain ⟨b, hb⟩ := hasBucket_iff.mp hbucket
  have hfile : FileOf s (bucketFilename ((backupOf n).drop bucketFilenamePrefix.length)) :=
    Or.inr (Or.inr ⟨_, b, hb, rfl⟩)
  apply hfile.ne_backupOf hs n
  have htake : (backupOf n).take bucketFilenamePrefix.length = bucketFilenamePrefix := by
    simpa using htake
  have hsplit := List.take_append_drop bucketFilenamePrefix.length (backupOf n)
  rw [htake] at hsplit
  exact hsplit.symm

/-- The files that do not belong to the database are removed. -/
theorem safe_deleteNonIndexedFiles (hs : Sound s) (htexts : Describes digest s texts)
    (hfiles : ∀ f ∈ texts, FileOf s f.1) (dirOrder : IterationOrder Str) {removed : List Str}
    (h : Removing s texts K removed d) :
  Safe digest (Clean digest) [.deleteNonIndexedFiles s dirOrder] d
  := by
  let listed := (dirOrder.entries d.dir.names).map Prod.fst
  have hlisted : ∀ n, (d.dir.read n).isSome → n ∈ listed := by
    intro n hn
    rw [← Directory.mem_names_iff, ExtTreeMap.mem_iff_isSome_getElem?] at hn
    obtain ⟨i, hi⟩ := Option.isSome_iff_exists.mp hn
    exact List.mem_map.mpr ⟨(n, i), (IterationOrder.mem_entries _ _ _ _).mpr hi, rfl⟩
  have hrecoverable : ∀ d, Removing s texts K removed d → Recoverable digest d :=
    fun _ hd => hd.replacing.recoverable hs htexts
  let invariant (deleted : List Str) (d : Disk) : Prop :=
    Removing s texts K removed d ∧ ∀ n, (d.dir.read n).isSome → n ∈ listed ∧ n ∉ deleted
  have hloop : Safe digest (invariant (listed.filter (isNonIndexed s)))
      ((listed.filter (isNonIndexed s)).flatMap fun n => [.deleteHardLink n]) d := by
    apply Crash.Safe.flatMap invariant (fun _ _ hd => hrecoverable _ hd.1)
    · rintro deleted n hn d ⟨hd, hleft⟩
      have hother : ∀ f ∈ texts, f.1 ≠ n := by
        rintro f hf rfl
        exact not_fileOf_of_isNonIndexed (List.mem_filter.mp hn).2 (hfiles f hf)
      have hd' := hd.unlink hother
      apply Crash.Safe.single (hrecoverable _ hd) trivial rfl (hrecoverable _ hd')
      refine ⟨hd', fun m hm => ?_⟩
      rw [Directory.read_unlink] at hm
      split at hm
      · contradiction
      · rename_i hne
        obtain ⟨hlist, hmem⟩ := hleft m hm
        refine ⟨hlist, ?_⟩
        rw [List.mem_append, List.mem_singleton, not_or]
        exact ⟨hmem, fun heq => hne heq.symm⟩
    · exact ⟨h, fun n hn => ⟨hlisted n hn, by simp⟩⟩
  apply Crash.Safe.step (hrecoverable _ h) trivial rfl
  rw [List.append_nil, ← List.flatMap_singleton' (List.map _ _), List.flatMap_map]
  apply hloop.mono (fun _ hr => hr)
  rintro d' hrec ⟨hd, hleft⟩
  obtain rfl := hd.committed
  refine ⟨hs, hd.noGuard, htexts _ hd.primary, ?_⟩
  intro n
  rw [← Option.not_isSome_iff_eq_none]
  intro hn
  obtain ⟨hlist, hdeleted⟩ := hleft _ hn
  exact hdeleted (List.mem_filter.mpr ⟨hlist, isNonIndexed_backupOf hs.wellNamed n⟩)

/-! ### Saves and loads -/

theorem Storable.sound (hs : Storable s) :
  Sound s
  := ⟨hs.wellNamed, hs.hasDefault⟩

/-- A save on a disk without a guard and a backup commits the buckets and leaves the disk
clean.  Until the guard is there only backup names change, and from then on the disk is
recoverable. -/
theorem safe_save_of_noBackup {R : Disk → Prop} (hR : ∀ d, Recoverable digest d → R d)
    (hs : Storable s) (order : DumpOrder) {d₀ : Disk} (hframe : ∀ d, Frame Set.univ d₀ d → R d)
    (hguard : d₀.dir.read guardFilename = none)
    (hbackup : ∀ n, d₀.dir.read (backupOf n) = none) :
  Crash.Safe exec (Allowed Set.univ) R (fun d => d.committed = s ∧ Clean digest d)
    (InMemoryStorageBackend.save digest order s) d₀
  := by
  have htexts : Describes digest s (dumpedFiles digest order s) := fun _ hview =>
    holds_dumpedFiles hs order hview
  have hdrafting : Drafting Set.univ (FileOf s) d₀ [] [] d₀ := by
    refine ⟨⟨rfl, fun _ _ _ => rfl⟩, ?_, by simp, by simp, ?_⟩
    · exact fun n m _ => Directory.Unaliased.of_read_eq_none (hbackup n) m
    · intro n hn
      rw [hbackup n] at hn
      contradiction
  have hsave : Crash.Safe exec (Allowed Set.univ) R
      (Removing s (dumpedFiles digest order s) (FileOf s) (filenames order.buckets s))
      (InMemoryStorageBackend.save digest order s) d₀ := by
    apply safe_saveTexts (fun n => Set.mem_univ (backupOf n)) trivial hs.wellNamed
      (fun _ hbase => hbase) (covers_bucketFiles order s) order.buckets hframe _ hguard hdrafting
    exact fun d hd => hR d (hd.recoverable hs.sound htexts)
  apply hsave.mono (fun _ hr => hr)
  intro d' _ hd'
  obtain rfl := hd'.committed
  refine ⟨rfl, hs.sound, hd'.noGuard, htexts _ hd'.primary, fun n => ?_⟩
  rw [← Option.not_isSome_iff_eq_none]
  intro hn
  obtain ⟨hfile, hmem⟩ := hd'.backup n hn
  exact hmem (mem_filenames.mpr hfile)

/-- A save on a clean disk keeps it recoverable at every point and leaves it clean. -/
theorem safe_save (hs : Storable s) (order : DumpOrder) (h : Clean digest d) :
  Safe digest (Clean digest) (InMemoryStorageBackend.save digest order s) d
  := by
  have hframe : ∀ d', Frame Set.univ d d' → Recoverable digest d' := fun _ => h.recoverable_of_frame
  exact (safe_save_of_noBackup (fun _ hr => hr) hs order hframe h.noGuard h.noBackup).mono
    (fun _ hr => hr) fun _ _ hclean => hclean.2

/-- A load on a recoverable disk reads the committed buckets, keeps the disk recoverable at
every point and leaves it clean. -/
theorem safe_startLoad (order dirOrder : IterationOrder Str) (h : Recoverable digest d) :
  ∃ isBackupValid, startLoad digest order dirOrder d
      = .loading d.committed (postLoadCleanup order dirOrder d.committed isBackupValid)
    ∧ Safe digest (Clean digest) (postLoadCleanup order dirOrder d.committed isBackupValid) d
  := by
  obtain ⟨hs, ⟨hguard, hholds⟩ | ⟨hguard, hholds⟩⟩ := h
  · have hbackup : backupGuardExists d.dir = false := by rw [backupGuardExists, hguard]; rfl
    have hread : readBuckets digest d.dir.read order false = .returned d.committed :=
      Holds.readBuckets hs.wellNamed hs.hasDefault (by simpa [suffix] using hholds) order
    refine ⟨false, by simp only [startLoad, hbackup, hread]; rfl, ?_⟩
    obtain ⟨texts, hfiles, hview, htexts⟩ := hholds.exists_texts
    have hremoving : Removing d.committed texts (fun _ => True) [] d :=
      ⟨⟨rfl, hguard, hview⟩, by simp⟩
    exact safe_deleteNonIndexedFiles hs htexts
      (fun f hf => (hfiles f.1).mpr (List.mem_map_of_mem hf)) dirOrder hremoving
  · have hbackup : backupGuardExists d.dir = true := hguard
    have hread : readBuckets digest d.dir.read order true = .returned d.committed :=
      Holds.readBuckets hs.wellNamed hs.hasDefault hholds order
    refine ⟨true, by simp only [startLoad, hbackup, hread]; rfl, ?_⟩
    obtain ⟨texts, hfiles, hview, htexts⟩ := hholds.exists_texts
    have hlinking : Linking d.committed texts (fun _ => True) [] d :=
      ⟨rfl, hguard, hview, by simp, by simp⟩
    apply ((safe_revalidatePrimaryDatabase hs.wellNamed hfiles order hlinking).mono
      (fun _ hd => hd.recoverable hs htexts) fun _ _ hd => hd).append
    intro d _ hd
    exact safe_deleteNonIndexedFiles hs htexts
      (fun f hf => (hfiles f.1).mpr (List.mem_map_of_mem hf)) dirOrder hd

end

/-! ### Runs with crashes -/

/-- The instruction that changes which buckets are committed. -/
def commits : Instruction → Bool
  | .createGuard _ => true
  | _ => false

/-- The other instructions leave the committed buckets as they are. -/
theorem committed_exec {i : Instruction} {d d' : Disk} {more : List Instruction}
    (h : exec i d = some (d', more)) (hi : commits i = false) :
  d'.committed = d.committed ∧ ∀ j ∈ more, commits j = false
  := by
  cases i with
  | openTruncate name =>
      obtain ⟨rfl, rfl⟩ := Prod.mk.inj (Option.some.inj h)
      exact ⟨rfl, by simp⟩
  | write name text =>
      obtain ⟨dir, -, hd⟩ := Option.map_eq_some_iff.mp h
      obtain ⟨rfl, rfl⟩ := Prod.mk.inj hd
      exact ⟨rfl, by simp⟩
  | syncElement name =>
      simp only [exec] at h
      split at h
      · obtain ⟨rfl, rfl⟩ := Prod.mk.inj (Option.some.inj h)
        exact ⟨rfl, by simp⟩
      · contradiction
  | syncDirectory =>
      obtain ⟨rfl, rfl⟩ := Prod.mk.inj (Option.some.inj h)
      exact ⟨rfl, by simp⟩
  | createGuard saved => contradiction
  | createHardLink oldName newName =>
      obtain ⟨dir, -, hd⟩ := Option.map_eq_some_iff.mp h
      obtain ⟨rfl, rfl⟩ := Prod.mk.inj hd
      exact ⟨rfl, by simp⟩
  | deleteHardLink name =>
      obtain ⟨rfl, rfl⟩ := Prod.mk.inj (Option.some.inj h)
      exact ⟨rfl, by simp⟩
  | deleteNonIndexedFiles s order =>
      obtain ⟨rfl, rfl⟩ := Prod.mk.inj (Option.some.inj h)
      refine ⟨rfl, fun j hj => ?_⟩
      obtain ⟨n, -, rfl⟩ := List.mem_map.mp hj
      rfl

/-- A load commits nothing. -/
theorem commits_postLoadCleanup (order dirOrder : IterationOrder Str) (s : Buckets)
    (isBackupValid : Bool) :
  ∀ i ∈ postLoadCleanup order dirOrder s isBackupValid, commits i = false
  := by
  intro i hi
  cases isBackupValid with
  | false =>
      obtain rfl : i = .deleteNonIndexedFiles s dirOrder := by simpa [postLoadCleanup] using hi
      rfl
  | true =>
      simp only [postLoadCleanup, revalidatePrimaryDatabase, createPrimaryHardLinks, syncDatabase,
        deleteBackupHardLinks, ↓reduceIte, List.mem_append, List.mem_flatMap, List.mem_cons,
        List.not_mem_nil, or_false] at hi
      obtain ((((⟨n, -, rfl | rfl⟩ | ⟨n, -, rfl⟩ | rfl) | rfl | rfl) | ⟨n, -, rfl⟩) | rfl) := hi
      all_goals rfl

/-- The only instruction of a save that commits something is the one that creates the guard. -/
theorem save_split (digest : Str → Vector UInt8 16) (order : DumpOrder) (s : Buckets) :
  ∃ pre post, InMemoryStorageBackend.save digest order s = pre ++ .createGuard s :: post
    ∧ (∀ i ∈ pre, commits i = false) ∧ ∀ i ∈ post, commits i = false
  := by
  refine ⟨saveBackup digest order s ++ syncDatabase order.buckets s true,
    .syncDirectory :: revalidatePrimaryDatabase order.buckets s, ?_, ?_, ?_⟩
  · simp [InMemoryStorageBackend.save]
  · intro i hi
    simp only [saveBackup, syncDatabase, List.mem_append, List.mem_flatMap, List.mem_cons,
      List.not_mem_nil, or_false] at hi
    obtain (((rfl | rfl) | ⟨n, -, rfl | rfl⟩) | rfl | rfl) | ⟨n, -, rfl⟩ | rfl := hi
    all_goals rfl
  · intro i hi
    obtain rfl | hi := List.mem_cons.mp hi
    · rfl
    · apply commits_postLoadCleanup order.buckets order.buckets s true
      exact List.mem_append_left _ hi

/-- The invariant of the system. -/
def Invariant (digest : Str → Vector UInt8 16) (σ : System) : Prop :=
  match σ.process with
  | .down => Recoverable digest σ.disk
  | .idle _ => Clean digest σ.disk
  | .loading s todo => s = σ.disk.committed ∧ (∀ i ∈ todo, commits i = false)
      ∧ Safe digest (Clean digest) todo σ.disk
  | .saving _ todo => Safe digest (Clean digest) todo σ.disk
  | .failed => False

theorem Invariant.recoverable {σ : System} (h : Invariant digest σ) :
  Recoverable digest σ.disk
  := by
  obtain ⟨process, disk⟩ := σ
  cases process with
  | down => exact h
  | idle s => exact Clean.recoverable h
  | loading s todo => exact h.2.2.recoverable_start
  | saving s todo => exact Crash.Safe.recoverable_start h
  | failed => exact h.elim

/-- An instruction of a safe program does not fail, and the rest of the program is safe. -/
theorem safe_cons {post : Disk → Prop} {i : Instruction} {rest : List Instruction} {d : Disk}
    (h : Safe digest post (i :: rest) d) :
  ∃ d' more, exec i d = some (d', more) ∧ Safe digest post (more ++ rest) d'
  := by
  cases h with
  | step _ _ hexec hrest => exact ⟨_, _, hexec, hrest⟩

/-- A load of a recoverable disk keeps the invariant. -/
theorem Invariant.startLoad {d : Disk} (h : Recoverable digest d)
    (order dirOrder : IterationOrder Str) :
  Invariant digest ⟨startLoad digest order dirOrder d, d⟩
  := by
  obtain ⟨isBackupValid, hload, hsafe⟩ := safe_startLoad order dirOrder h
  rw [hload]
  exact ⟨rfl, commits_postLoadCleanup order dirOrder _ isBackupValid, hsafe⟩

/-- The steps of the system keep the invariant. -/
theorem Invariant.step {σ σ' : System} (h : Invariant digest σ) (hstep : Step digest σ σ') :
  Invariant digest σ'
  := by
  cases hstep with
  | boot order dirOrder disk => exact startLoad h order dirOrder
  | load order dirOrder s disk => exact startLoad h.recoverable order dirOrder
  | save order s s' disk storable => exact safe_save storable order h
  | loadStep hexec =>
      obtain ⟨hs, hcommits, hsafe⟩ := h
      obtain ⟨d', more, hexec', hrest⟩ := safe_cons hsafe
      obtain ⟨rfl, rfl⟩ := Prod.mk.inj (Option.some.inj (hexec'.symm.trans hexec))
      obtain ⟨hcommitted, hmore⟩ := committed_exec hexec (hcommits _ List.mem_cons_self)
      refine ⟨hs.trans hcommitted.symm, fun j hj => ?_, hrest⟩
      obtain hj | hj := List.mem_append.mp hj
      · exact hmore j hj
      · exact hcommits j (List.mem_cons_of_mem _ hj)
  | saveStep hexec =>
      obtain ⟨d', more, hexec', hrest⟩ := safe_cons h
      obtain ⟨rfl, rfl⟩ := Prod.mk.inj (Option.some.inj (hexec'.symm.trans hexec))
      exact hrest
  | loadFails hexec =>
      obtain ⟨d', more, hexec', -⟩ := safe_cons h.2.2
      rw [hexec] at hexec'
      contradiction
  | saveFails hexec =>
      obtain ⟨d', more, hexec', -⟩ := safe_cons h
      rw [hexec] at hexec'
      contradiction
  | loaded s disk =>
      cases h.2.2 with
      | done _ hclean => exact hclean
  | saved s disk =>
      cases h with
      | done _ hclean => exact hclean
  | crash process disk => exact h.recoverable

/-- What a run guarantees in each of its states: nothing has failed; a load that is under way
has read the buckets committed last, and runs to its end; and the file a save is about to
truncate is not one that a name other than a backup's refers to. -/
structure CrashSafe (σ : System) : Prop where
  notFailed : σ.process ≠ .failed
  load : ∀ s todo, σ.process = .loading s todo →
    s = σ.disk.committed ∧ ∃ d, Crash.Completes exec todo σ.disk d
  truncates : ∀ s name rest, σ.process = .saving s (.openTruncate name :: rest) →
    ∀ inode, σ.disk.dir.names[name]? = some inode →
    ∀ primary : Str, (∀ base, primary ≠ backupOf base) → σ.disk.dir.names[primary]? ≠ some inode

/-- The invariant makes a crash harmless. -/
theorem Invariant.crashSafe {σ : System} (h : Invariant digest σ) :
  CrashSafe σ
  := by
  obtain ⟨process, disk⟩ := σ
  constructor
  · rintro rfl
    exact h
  · rintro s todo rfl
    obtain ⟨hs, -, hsafe⟩ := h
    obtain ⟨d, hd, -⟩ := hsafe.completes
    exact ⟨hs, d, hd⟩
  · rintro s name rest rfl inode hname primary hprimary hinode
    cases h with
    | step _ hallowed _ _ =>
        obtain ⟨hunaliased, base, rfl⟩ := hallowed
        apply hprimary base
        exact hunaliased primary trivial inode hname hinode

/-- Along every run with saves, loads and crashes from a directory that holds a consistent
database, a load yields the buckets of the last save that created its guard file. -/
theorem crashSafe_of_steps {dir : Directory} {s : Buckets} (hsound : Sound s)
    (hguard : dir.read guardFilename = none) (hholds : Holds digest dir.read s) {σ : System}
    (hrun : Relation.ReflTransGen (Step digest) ⟨.down, ⟨dir, s⟩⟩ σ) :
  CrashSafe σ
  := by
  have hinvariant : Invariant digest σ := by
    induction hrun with
    | refl => exact ⟨hsound, Or.inl ⟨hguard, hholds⟩⟩
    | tail _ hstep ih => exact ih.step hstep
  exact hinvariant.crashSafe

/-- The MD5 sums of the texts of some small databases, and of their first parts. -/
def sampleSums : List (Str × Vector UInt8 16) :=
  [(ofString "",
      #v[0xd4, 0x1d, 0x8c, 0xd9, 0x8f, 0x00, 0xb2, 0x04, 0xe9, 0x80, 0x09, 0x98, 0xec, 0xf8,
        0x42, 0x7e]),
    (ofString ";",
      #v[0x9e, 0xec, 0xb7, 0xdb, 0x59, 0xd1, 0x6c, 0x80, 0x41, 0x7c, 0x72, 0xd1, 0xe1, 0xf4,
        0xfb, 0xf1]),
    (ofString ";0",
      #v[0x84, 0x55, 0x56, 0x1d, 0x90, 0x21, 0x38, 0x10, 0x12, 0xfa, 0x8f, 0x28, 0xd1, 0x4b,
        0xa3, 0xc0]),
    (ofString ";0x",
      #v[0x68, 0xfc, 0x5c, 0x32, 0xe9, 0x26, 0x18, 0x2d, 0x35, 0xe3, 0x0e, 0x48, 0xc8, 0x4f,
        0xd0, 0x6d]),
    (ofString ";0x0",
      #v[0xb2, 0xb0, 0xcc, 0x21, 0xc6, 0xd9, 0x82, 0xb2, 0xbc, 0xe2, 0xc9, 0x7b, 0xa5, 0x10,
        0xa1, 0xa8]),
    (ofString ";0x0;",
      #v[0x05, 0x94, 0x00, 0x1e, 0x97, 0x01, 0x9f, 0x28, 0x7f, 0x7a, 0xef, 0xc1, 0x29, 0x12,
        0x8d, 0xa4]),
    (ofString ";0x0;\n",
      #v[0x4f, 0x15, 0xa7, 0x35, 0x41, 0xbf, 0x5a, 0x52, 0xe2, 0x5e, 0xf4, 0xc2, 0xb9, 0x90,
        0xd2, 0x24]),
    (ofString ";0xFFFF;m\n",
      #v[0xca, 0xc2, 0x4d, 0x2d, 0x8b, 0xcb, 0x85, 0xa2, 0x31, 0x0b, 0x28, 0x2a, 0x86, 0x16,
        0xdd, 0x73]),
    (ofString ";0xFFFF;\nm\n",
      #v[0xe8, 0xa6, 0x87, 0xeb, 0x00, 0xb1, 0x71, 0x39, 0x7f, 0xe8, 0xd3, 0x14, 0xea, 0xe3,
        0xd6, 0x00]),
    (ofString ";0x0;\n\na;0x0;\n",
      #v[0xb9, 0xcf, 0x2b, 0x18, 0xc0, 0xfc, 0x13, 0x8e, 0x98, 0xcd, 0xba, 0xe4, 0x65, 0x74,
        0xfe, 0xc0]),
    (ofString "x",
      #v[0x9d, 0xd4, 0xe4, 0x61, 0x26, 0x8c, 0x80, 0x34, 0xf5, 0xc8, 0x56, 0x4e, 0x15, 0x5c,
        0x67, 0xa6])]

/-- MD5 on the sample texts. -/
def installedDigest (text : Str) : Vector UInt8 16 :=
  ((sampleSums.find? fun sum => sum.1 == text).map Prod.snd).getD (Vector.replicate 16 0)

/-- The files of a new database, which has the default bucket only. -/
def installedFiles : List (Str × Str) :=
  dumpedFiles installedDigest ⟨.sorted, fun _ => .sorted⟩ Storage.initial

/-- The directory of a new database. -/
def installed : Directory :=
  installedFiles.foldl (fun d file => (d.create file.1).setContents d.next file.2) .empty

theorem storable_initial :
  Storable Storage.initial
  := by
  constructor
  · decide
  · have hid : ∀ id b, Storage.initial.find? id = some b → id = [] := by decide
    intro id b hb c hc
    rw [hid id b hb] at hc
    contradiction
  · decide
  · decide
  · decide

theorem holds_installed :
  Holds installedDigest installed.read Storage.initial
  := by
  apply holds_dumpedFiles storable_initial
  exact show ∀ f ∈ installedFiles, installed.read f.1 = some f.2 by decide

theorem clean_installed :
  Clean installedDigest ⟨installed, Storage.initial⟩
  where
  sound := storable_initial.sound
  noGuard := by decide
  holds := holds_installed
  noBackup n := by
    have hlast : ∀ m ∈ installed.names.keys, m.getLast? ≠ some 126 := by decide
    rw [← Option.not_isSome_iff_eq_none, ← Directory.mem_names_iff, ← ExtTreeMap.mem_keys]
    intro hmem
    apply hlast _ hmem
    rw [backupOf, show backupFilenameSuffix = [126] from by decide, List.getLast?_concat]

/-- The buckets of a new database after the default policy has been changed. -/
def allowing : Buckets :=
  (Storage.addOrUpdateBucket Storage.initial defaultPolicyBucketId
    ⟨PredefinedPolicyType.ALLOW, ofString "m"⟩).state

theorem storable_allowing :
  Storable allowing
  := by
  constructor
  · decide
  · have hid : ∀ id b, allowing.find? id = some b → id = [] := by decide
    intro id b hb c hc
    rw [hid id b hb] at hc
    contradiction
  · decide
  · decide
  · decide

/-- On a new database the default policy is changed and saved.  The process crashes after the guard
has been created, and is started again: it loads the new buckets. -/
theorem crashSafe_installed :
  ∃ disk todo, Relation.ReflTransGen (Step installedDigest)
      ⟨.down, ⟨installed, Storage.initial⟩⟩ ⟨.loading allowing todo, disk⟩
    ∧ backupGuardExists disk.dir = true ∧ CrashSafe ⟨.loading allowing todo, disk⟩
  := by
  let order : DumpOrder := ⟨.sorted, fun _ => .sorted⟩
  obtain ⟨isBackupValid, hload, hsafe⟩ :=
    safe_startLoad .sorted .sorted clean_installed.recoverable
  obtain ⟨d₁, hcleaned, -, hclean⟩ := hsafe.completes
  obtain ⟨d, hsaved, -⟩ := (safe_save storable_allowing order hclean).completes
  obtain ⟨pre, post, hsplit, -⟩ := save_split installedDigest order allowing
  rw [hsplit] at hsaved
  obtain ⟨d₂, hpre, hpost⟩ := hsaved.of_append
  cases hpost with
  | @step _ _ more _ d₃ _ hexec hrest =>
      -- the run up to the crash
      have hboot : Step installedDigest _ _ := .boot .sorted .sorted ⟨installed, Storage.initial⟩
      rw [hload] at hboot
      have hcleanup : Relation.ReflTransGen (Step installedDigest) _ _ :=
        hcleaned.reaches (fun todo d => ⟨.loading Storage.initial todo, d⟩) .loadStep []
      rw [List.append_nil] at hcleanup
      have hsave : Step installedDigest _ _ :=
        .save order Storage.initial allowing d₁ storable_allowing
      rw [hsplit] at hsave
      have hwrite : Relation.ReflTransGen (Step installedDigest) _ _ :=
        hpre.reaches (fun todo d => ⟨.saving allowing todo, d⟩) .saveStep
          (.createGuard allowing :: post)
      have hrun := (((hcleanup.head hboot).tail (.loaded _ d₁)).tail hsave).trans hwrite
        |>.tail (.saveStep hexec) |>.tail (.crash _ d₃) |>.tail (.boot .sorted .sorted d₃)
      have hcrash := crashSafe_of_steps storable_initial.sound (by decide) holds_installed hrun
      obtain ⟨dir, hcreate, hdisk⟩ := Option.map_eq_some_iff.mp hexec
      obtain ⟨rfl, -⟩ := Prod.mk.inj hdisk
      have hguard : backupGuardExists dir = true := by
        unfold Directory.createExclusive at hcreate
        split at hcreate
        · contradiction
        · obtain rfl := Option.some.inj hcreate
          rw [backupGuardExists, Directory.read_create, if_pos rfl]
          rfl
      cases hprocess : startLoad installedDigest .sorted .sorted ⟨dir, allowing⟩ with
      | loading s todo =>
          rw [hprocess] at hrun hcrash
          obtain rfl : s = allowing := (hcrash.load s todo rfl).1
          exact ⟨_, todo, hrun, hguard, hcrash⟩
      | failed => exact absurd hprocess hcrash.notFailed
      | _ =>
          simp only [startLoad] at hprocess
          split at hprocess <;> cases hprocess

end Cynara
