import Cynara.Storage.Loading

/-!
# Saves that fail

A call of the system may fail in the middle of a save, which then throws.  What it has done so
far stays on the disk: backup files, primary files that are links to the backup already, or
the guard.  The next save in the same process starts from there.

The guard is created exclusively.  A save that fails between the creation and the removal of
the guard leaves it behind, and then no later save gets past its creation, until a load
removes it.  Everything else that a failed save may leave does no harm.
-/

open Std

namespace Cynara

open InMemoryStorageBackend Str StoragePath StorageSerializer Integrity

variable (digest : Str → Vector UInt8 16)

/-! ### Failing saves -/

/-- A save of some buckets in which a call may fail. -/
structure SaveAttempt where
  order : DumpOrder
  buckets : Buckets
  /-- How many calls have their effect; if these are not all, the save throws. -/
  calls : ℕ
  /-- What the streams that are still open write when they are destroyed, by the plain names. -/
  flushed : List (Str × Str)

/-- Whether the guard is there after an instruction, if no file of the database has its name. -/
def guardAfter (guard : Bool) : Instruction → Bool
  | .createGuard _ => true
  | .deleteHardLink name => guard && name != guardFilename
  | _ => guard

namespace SaveAttempt

/-- The calls that have their effect. -/
def effective (a : SaveAttempt) : List Instruction :=
  (InMemoryStorageBackend.save digest a.order a.buckets).take a.calls

/-- The guard is created, and the save fails before the guard is removed. -/
def leavesGuard (a : SaveAttempt) : Bool := (a.effective digest).foldl guardAfter false

/-- The streams are destroyed when the backup is written only in part. -/
def flush (a : SaveAttempt) (d : Disk) : Disk :=
  if a.calls < (saveBackup digest a.order a.buckets).length then
    ⟨a.flushed.foldl (fun dir file => (dir.write (backupName file.1) file.2).getD dir) d.dir,
      d.committed⟩
  else d

end SaveAttempt

/-- Some saves, one after the other, in one process. -/
inductive SaveAttempts : List SaveAttempt → Disk → Disk → Prop where
  | done (d : Disk) : SaveAttempts [] d d
  | step {a : SaveAttempt} {as : List SaveAttempt} {d d₁ d' : Disk} {completed : Bool}
      (hattempt : Crash.Attempts exec (a.effective digest) d d₁ completed)
      (hrest : SaveAttempts as (a.flush digest d₁) d') :
      SaveAttempts (a :: as) d d'

variable {digest}

/-! ### The instructions of a save -/

/-- An instruction by which a save changes the guard, if at all, in a way that `guardAfter`
describes, and which gives no inode a second backup name. -/
def Regular : Instruction → Prop
  | .openTruncate name => name ≠ guardFilename
  | .createHardLink _ newName => newName ≠ guardFilename ∧ ∀ n, newName ≠ backupOf n
  | .deleteNonIndexedFiles _ _ => False
  | _ => True

/-- What a regular instruction does to the names. -/
theorem exec_regular {i : Instruction} (hi : Regular i) {d d' : Disk} {more : List Instruction}
    (hexec : exec i d = some (d', more)) :
  backupGuardExists d'.dir = guardAfter (backupGuardExists d.dir) i
    ∧ ((∀ m n, d.dir.Apart (backupOf m) (backupOf n)) →
      ∀ m n, d'.dir.Apart (backupOf m) (backupOf n))
    ∧ more = []
  := by
  cases i with
  | openTruncate name =>
      obtain ⟨rfl, rfl⟩ := Prod.mk.inj (Option.some.inj hexec)
      refine ⟨?_, fun h m n => (h m n).openTruncate name, rfl⟩
      show backupGuardExists _ = backupGuardExists _
      rw [backupGuardExists, backupGuardExists, Bool.eq_iff_iff,
        Directory.isSome_read_openTruncate]
      exact or_iff_right hi
  | write name text =>
      obtain ⟨dir, hwrite, hd⟩ := Option.map_eq_some_iff.mp hexec
      obtain ⟨rfl, rfl⟩ := Prod.mk.inj hd
      have hnames := Directory.write_names hwrite
      exact ⟨Directory.isSome_read_of_names hnames _, fun h m n => (h m n).of_names hnames, rfl⟩
  | syncElement name =>
      simp only [exec] at hexec
      split at hexec
      · obtain ⟨rfl, rfl⟩ := Prod.mk.inj (Option.some.inj hexec)
        exact ⟨rfl, id, rfl⟩
      · contradiction
  | syncDirectory =>
      obtain ⟨rfl, rfl⟩ := Prod.mk.inj (Option.some.inj hexec)
      exact ⟨rfl, id, rfl⟩
  | createGuard saved =>
      obtain ⟨dir, hcreate, hd⟩ := Option.map_eq_some_iff.mp hexec
      obtain ⟨rfl, rfl⟩ := Prod.mk.inj hd
      simp only [Directory.createExclusive] at hcreate
      split at hcreate
      · contradiction
      · obtain rfl := Option.some.inj hcreate
        refine ⟨?_, fun h m n => (h m n).create _, rfl⟩
        rw [backupGuardExists, Directory.read_create, if_pos rfl]
        rfl
  | createHardLink oldName newName =>
      obtain ⟨dir, hlink, hd⟩ := Option.map_eq_some_iff.mp hexec
      obtain ⟨rfl, rfl⟩ := Prod.mk.inj hd
      refine ⟨?_, fun h m n => (h m n).link hlink (hi.2 m) (hi.2 n), rfl⟩
      obtain ⟨inode, hnames⟩ := Directory.link_names hlink
      simp only [guardAfter, backupGuardExists, Directory.read, Option.isSome_map, hnames,
        ExtTreeMap.getElem?_insert, Std.compare_eq_iff_eq, hi.1, ↓reduceIte]
  | deleteHardLink name =>
      obtain ⟨rfl, rfl⟩ := Prod.mk.inj (Option.some.inj hexec)
      refine ⟨?_, fun h m n => (h m n).unlink name, rfl⟩
      rw [guardAfter, backupGuardExists, Directory.read_unlink]
      by_cases hname : name = guardFilename
      · simp [hname]
      · simp [hname, backupGuardExists]
  | deleteNonIndexedFiles s order => exact hi.elim

/-- A regular program that is executed to its end. -/
theorem completes_regular {p : List Instruction} {d d' : Disk}
    (h : Crash.Completes exec p d d') (hp : ∀ i ∈ p, Regular i) :
  backupGuardExists d'.dir = p.foldl guardAfter (backupGuardExists d.dir)
    ∧ ((∀ m n, d.dir.Apart (backupOf m) (backupOf n)) →
      ∀ m n, d'.dir.Apart (backupOf m) (backupOf n))
  := by
  induction h with
  | done => exact ⟨rfl, id⟩
  | step hexec _ ih =>
      obtain ⟨hguard, hapart, rfl⟩ := exec_regular (hp _ List.mem_cons_self) hexec
      obtain ⟨hguard', hapart'⟩ := ih fun i hi => hp i (List.mem_cons_of_mem _ hi)
      rw [hguard', hguard]
      exact ⟨rfl, hapart' ∘ hapart⟩

/-- What a save does before it creates the guard. -/
def drafts (digest : Str → Vector UInt8 16) (order : DumpOrder) (s : Buckets) :
    List Instruction :=
  saveBackup digest order s ++ syncDatabase order.buckets s true

/-- The instructions of a save before and after its guard. -/
theorem save_eq_drafts (digest : Str → Vector UInt8 16) (order : DumpOrder) (s : Buckets) :
  InMemoryStorageBackend.save digest order s
    = drafts digest order s
      ++ .createGuard s :: .syncDirectory :: revalidatePrimaryDatabase order.buckets s
  := by
  rw [InMemoryStorageBackend.save, drafts]
  simp

section

variable {s : Buckets}

/-- Before the guard is created it is left alone. -/
theorem regular_drafts (hs : WellNamed s) (order : DumpOrder) :
  ∀ i ∈ drafts digest order s, Regular i ∧ ∀ guard, guardAfter guard i = guard
  := by
  have hopen : ∀ base, FileOf s base →
      Regular (.openTruncate (backupName base))
        ∧ ∀ guard, guardAfter guard (.openTruncate (backupName base)) = guard := by
    intro base hbase
    rw [backupName_eq hs hbase]
    exact ⟨backupOf_ne_guard base, fun _ => rfl⟩
  intro i hi
  simp only [drafts, saveBackup, syncDatabase, List.mem_append, List.mem_flatMap, List.mem_cons,
    List.not_mem_nil, or_false] at hi
  obtain ((((rfl | rfl) | ⟨file, hfile, rfl | rfl⟩) | rfl | rfl) | ⟨base, -, rfl⟩ | rfl) := hi
  · exact hopen _ (Or.inl rfl)
  · exact hopen _ (Or.inr (Or.inl rfl))
  · have hmem : file ∈ dumpedFiles digest order s := List.mem_append_left _ hfile
    exact hopen _ (fileOf_of_mem_dumpedFiles hmem)
  all_goals exact ⟨trivial, fun _ => rfl⟩

theorem regular_save (hs : WellNamed s) (order : DumpOrder) :
  ∀ i ∈ InMemoryStorageBackend.save digest order s, Regular i
  := by
  have hlink : ∀ base, FileOf s base →
      Regular (.createHardLink (backupName base) (cString base)) := by
    intro base hbase
    rw [cString_eq hs hbase]
    exact ⟨hbase.ne_guard.symm, fun n => (hbase.ne_backupOf hs n).symm⟩
  intro i hi
  rw [save_eq_drafts, List.mem_append] at hi
  obtain hi | hi := hi
  · exact (regular_drafts hs order i hi).1
  · simp only [revalidatePrimaryDatabase, createPrimaryHardLinks, syncDatabase,
      deleteBackupHardLinks, List.mem_append, List.mem_flatMap, List.mem_cons,
      List.not_mem_nil, or_false] at hi
    obtain rfl | rfl | ((⟨base, hbase, rfl | rfl⟩ | ⟨base, -, rfl⟩ | rfl) | rfl | rfl)
      | ⟨base, -, rfl⟩ := hi
    all_goals first | exact hlink base (mem_filenames.mp hbase) | trivial

end

/-! ### One failing save -/

/-- The streams change no names. -/
theorem SaveAttempt.flush_names (digest : Str → Vector UInt8 16) (a : SaveAttempt) (d : Disk) :
  (a.flush digest d).dir.names = d.dir.names
  := by
  unfold flush
  split
  · simp only
    generalize d.dir = dir
    induction a.flushed generalizing dir with
    | nil => rfl
    | cons file flushed ih =>
        rw [List.foldl_cons, ih]
        cases hwrite : dir.write (backupName file.1) file.2 with
        | none => rfl
        | some dir' => exact Directory.write_names hwrite
  · rfl

theorem SaveAttempt.backupGuardExists_flush (digest : Str → Vector UInt8 16) (a : SaveAttempt)
    (d : Disk) :
  backupGuardExists (a.flush digest d).dir = backupGuardExists d.dir
  := Directory.isSome_read_of_names (a.flush_names digest d) guardFilename

theorem ready_iff {d : Disk} :
  Ready d ↔ backupGuardExists d.dir = false ∧ ∀ m n, d.dir.Apart (backupOf m) (backupOf n)
  := by
  rw [backupGuardExists, ← Bool.not_eq_true, Option.not_isSome_iff_eq_none]
  exact ⟨fun h => ⟨h.noGuard, h.apart⟩, fun h => ⟨h.1, h.2⟩⟩

/-- A save on a disk that is ready leaves it ready, up to the guard. -/
theorem attempt_of_ready {a : SaveAttempt} (hs : WellNamed a.buckets) {d d₁ : Disk}
    {completed : Bool} (hready : Ready d)
    (hattempt : Crash.Attempts exec (a.effective digest) d d₁ completed) :
  backupGuardExists (a.flush digest d₁).dir = a.leavesGuard digest
    ∧ ∀ m n, (a.flush digest d₁).dir.Apart (backupOf m) (backupOf n)
  := by
  -- no call fails of its own, so the attempt is a part of a save that comes to its end
  obtain ⟨d', hcompletes, -⟩ := (ends_saveTexts hs (covers_bucketFiles a.order a.buckets)
    a.order.buckets (dumpIndex a.order.buckets a.buckets) (dumpChecksums digest a.order a.buckets)
    hready).completes
  rw [← save_eq_saveTexts, ← List.take_append_drop a.calls
    (InMemoryStorageBackend.save digest a.order a.buckets)] at hcompletes
  obtain ⟨mid, hmid, -⟩ := hcompletes.of_append
  obtain ⟨rfl, -⟩ := hattempt.unique hmid.attempts
  obtain ⟨hguard, hapart⟩ := completes_regular hmid fun i hi =>
    regular_save hs a.order i (List.mem_of_mem_take hi)
  rw [(ready_iff.mp hready).1] at hguard
  rw [a.backupGuardExists_flush]
  exact ⟨hguard, fun m n => (hapart hready.apart m n).of_names (a.flush_names digest d₁)⟩

/-- With a guard no save gets past the creation of the guard. -/
theorem attempts_of_guard {s : Buckets} (hs : WellNamed s) (order : DumpOrder)
    {rest : List Instruction} {d d₁ : Disk} {completed : Bool}
    (hguard : backupGuardExists d.dir = true)
    (hattempt : Crash.Attempts exec (drafts digest order s ++ .createGuard s :: rest) d d₁
      completed) :
  backupGuardExists d₁.dir = true ∧ completed = false
  := by
  apply hattempt.of_blocked (P := fun d => backupGuardExists d.dir = true) _ _ hguard
  · intro i hi d d' more hd hexec
    obtain ⟨hregular, hsame⟩ := regular_drafts hs order i hi
    obtain ⟨hguard', -, hmore⟩ := exec_regular hregular hexec
    exact ⟨by rw [hguard', hsame, hd], hmore⟩
  · intro d hd
    have hmem : guardFilename ∈ d.dir.names := Directory.mem_names_iff.mpr hd
    simp only [exec, Directory.createExclusive, hmem, ↓reduceIte, Option.map_none]

/-- A save on a disk with a guard leaves the guard. -/
theorem attempt_of_guard {a : SaveAttempt} (hs : WellNamed a.buckets) {d d₁ : Disk}
    {completed : Bool} (hguard : backupGuardExists d.dir = true)
    (hattempt : Crash.Attempts exec (a.effective digest) d d₁ completed) :
  backupGuardExists (a.flush digest d₁).dir = true
  := by
  rw [a.backupGuardExists_flush]
  rw [SaveAttempt.effective, save_eq_drafts, List.take_append] at hattempt
  cases hcalls : a.calls - (drafts digest a.order a.buckets).length with
  | zero =>
      rw [hcalls, List.take_zero, List.append_nil] at hattempt
      apply hattempt.invariant (P := fun d => backupGuardExists d.dir = true) _ hguard
      intro i hi d d' more hd hexec
      obtain ⟨hregular, hsame⟩ := regular_drafts hs a.order i (List.mem_of_mem_take hi)
      obtain ⟨hguard', -, hmore⟩ := exec_regular hregular hexec
      exact ⟨by rw [hguard', hsame, hd], hmore⟩
  | succ n =>
      rw [hcalls, List.take_of_length_le (by omega), List.take_succ_cons] at hattempt
      exact (attempts_of_guard hs a.order hguard hattempt).1

/-! ### Runs of failing saves -/

section

variable {attempts : List SaveAttempt} {d d' : Disk}

/-- A guard stays. -/
theorem SaveAttempts.guard (h : SaveAttempts digest attempts d d')
    (hs : ∀ a ∈ attempts, WellNamed a.buckets) (hguard : backupGuardExists d.dir = true) :
  backupGuardExists d'.dir = true
  := by
  induction h with
  | done => exact hguard
  | step hattempt _ ih =>
      apply ih fun a ha => hs a (List.mem_cons_of_mem _ ha)
      exact attempt_of_guard (hs _ List.mem_cons_self) hguard hattempt

/-- The disk after a run is ready, unless a save has left a guard. -/
theorem SaveAttempts.ready_or_guard (h : SaveAttempts digest attempts d d')
    (hs : ∀ a ∈ attempts, WellNamed a.buckets) (hready : Ready d) :
  (∀ a ∈ attempts, a.leavesGuard digest = false) ∧ Ready d'
    ∨ (∃ a ∈ attempts, a.leavesGuard digest = true) ∧ backupGuardExists d'.dir = true
  := by
  induction h with
  | done => exact Or.inl ⟨by simp, hready⟩
  | @step a as d d₁ d' completed hattempt hrest ih =>
      have hs' : ∀ a ∈ as, WellNamed a.buckets := fun a ha => hs a (List.mem_cons_of_mem _ ha)
      obtain ⟨hguard, hapart⟩ := attempt_of_ready (hs a List.mem_cons_self) hready hattempt
      cases hleaves : a.leavesGuard digest with
      | false =>
          obtain ⟨hall, hready'⟩ | ⟨⟨b, hb, hleaves'⟩, hguard'⟩ :=
            ih hs' (ready_iff.mpr ⟨hguard.trans hleaves, hapart⟩)
          · exact Or.inl ⟨List.forall_mem_cons.mpr ⟨hleaves, hall⟩, hready'⟩
          · exact Or.inr ⟨⟨b, List.mem_cons_of_mem a hb, hleaves'⟩, hguard'⟩
      | true =>
          refine Or.inr ⟨⟨a, List.mem_cons_self, hleaves⟩, ?_⟩
          exact hrest.guard hs' (hguard.trans hleaves)

end

/-- A save on a disk that is ready is loaded. -/
theorem save_of_ready {s : Buckets} (hs : Storable s) (order : DumpOrder) {d : Disk}
    (hready : Ready d) :
  ∃ d', Crash.Completes exec (InMemoryStorageBackend.save digest order s) d d'
    ∧ ∀ loadOrder dirOrder, ∃ d'', Loads digest loadOrder dirOrder d' (.returned s) d''
  := by
  obtain ⟨d', hcompletes, -, hrelinked⟩ := (ends_saveTexts hs.wellNamed (covers_bucketFiles order s)
    order.buckets (dumpIndex order.buckets s) (dumpChecksums digest order s) hready).completes
  refine ⟨d', hcompletes, fun loadOrder dirOrder => ?_⟩
  have hholds : Holds digest d'.dir.read s := holds_dumpedFiles hs order hrelinked.primary
  have hread : readBuckets digest d'.dir.read loadOrder false = .returned s :=
    Holds.readBuckets hs.wellNamed hs.hasDefault (by simpa [suffix] using hholds) loadOrder
  rw [← hread]
  exact exists_loads digest (by rw [backupGuardExists, hrelinked.noGuard]; rfl) loadOrder dirOrder

/-- With a guard no save comes to its end. -/
theorem not_completes_of_guard {s : Buckets} (hs : WellNamed s) (order : DumpOrder) {d : Disk}
    (hguard : backupGuardExists d.dir = true) (d' : Disk) :
  ¬ Crash.Completes exec (InMemoryStorageBackend.save digest order s) d d'
  := by
  intro hcompletes
  rw [save_eq_drafts] at hcompletes
  have hfalse := (attempts_of_guard hs order hguard hcompletes.attempts).2
  contradiction

/-- After any run of saves that may fail, a save in which no call fails comes to its end and is
loaded, exactly if none of the saves before left the guard behind. -/
theorem save_after_faults_iff (digest : Str → Vector UInt8 16) {d₀ d : Disk}
    (hguard : d₀.dir.read guardFilename = none)
    (hbackup : ∀ n, d₀.dir.read (backupOf n) = none) (attempts : List SaveAttempt)
    (hnamed : ∀ a ∈ attempts, WellNamed a.buckets)
    (hattempts : SaveAttempts digest attempts d₀ d) (order : DumpOrder) {s : Buckets}
    (hs : Storable s) :
  (∃ d', Crash.Completes exec (InMemoryStorageBackend.save digest order s) d d'
    ∧ ∀ loadOrder dirOrder, ∃ d'', Loads digest loadOrder dirOrder d' (.returned s) d'')
    ↔ ∀ a ∈ attempts, a.leavesGuard digest = false
  := by
  obtain ⟨hall, hready⟩ | ⟨⟨a, ha, hleaves⟩, hguard'⟩ :=
    hattempts.ready_or_guard hnamed (ready_of_noBackup hguard hbackup)
  · exact ⟨fun _ => hall, fun _ => save_of_ready hs order hready⟩
  · constructor
    · rintro ⟨d', hcompletes, -⟩
      exact absurd hcompletes (not_completes_of_guard hs.wellNamed order hguard' d')
    · intro hall
      rw [hall a ha] at hleaves
      contradiction

/-! ### The new database -/

/-- Every run of saves leads somewhere. -/
theorem exists_saveAttempts (digest : Str → Vector UInt8 16) (attempts : List SaveAttempt)
    (hs : ∀ a ∈ attempts, WellNamed a.buckets) (d : Disk) :
  ∃ d', SaveAttempts digest attempts d d'
  := by
  induction attempts generalizing d with
  | nil => exact ⟨d, .done d⟩
  | cons a as ih =>
      have hsimple : ∀ i ∈ a.effective digest, ∀ d d' more,
          exec i d = some (d', more) → more = [] :=
        fun i hi d d' more hexec => (exec_regular (regular_save (hs a List.mem_cons_self) a.order i
          (List.mem_of_mem_take hi)) hexec).2.2
      obtain ⟨d₁, completed, hattempt⟩ := Crash.Attempts.exists_of_simple hsimple d
      obtain ⟨d', hrest⟩ := ih (fun b hb => hs b (List.mem_cons_of_mem a hb)) (a.flush digest d₁)
      exact ⟨d', .step hattempt hrest⟩

/-- A save of the buckets of the new database with a number of calls that have their effect. -/
def installedAttempt (calls : ℕ) : SaveAttempt :=
  ⟨⟨.sorted, fun _ => .sorted⟩, Storage.initial, calls, [(indexFilename, ofString ";0x0")]⟩

/-- The file of the bucket cannot be opened in the first save.  In the second one the directory
cannot be synced after the guard has been removed, so the backup names stay as aliases of the
primary files. -/
theorem save_after_faults_installed :
  ∃ d, SaveAttempts installedDigest [installedAttempt 2, installedAttempt 23]
      ⟨installed, Storage.initial⟩ d
    ∧ ∃ d', Crash.Completes exec (InMemoryStorageBackend.save installedDigest
        ⟨.sorted, fun _ => .sorted⟩ Storage.initial) d d'
      ∧ ∀ loadOrder dirOrder,
        ∃ d'', Loads installedDigest loadOrder dirOrder d' (.returned Storage.initial) d''
  := by
  have hnamed : ∀ a ∈ [installedAttempt 2, installedAttempt 23], WellNamed a.buckets := by
    simp [installedAttempt, storable_initial.wellNamed]
  obtain ⟨d, hattempts⟩ := exists_saveAttempts installedDigest _ hnamed
    ⟨installed, Storage.initial⟩
  refine ⟨d, hattempts, ?_⟩
  apply (save_after_faults_iff installedDigest clean_installed.noGuard clean_installed.noBackup _
    hnamed hattempts _ storable_initial).mpr
  decide +kernel

/-- The new guard cannot be synced.  The save throws, and so does every save after it. -/
theorem not_save_after_guard_fault :
  ∃ d, SaveAttempts installedDigest [installedAttempt 11] ⟨installed, Storage.initial⟩ d
    ∧ ∀ order d', ¬ Crash.Completes exec
      (InMemoryStorageBackend.save installedDigest order Storage.initial) d d'
  := by
  have hnamed : ∀ a ∈ [installedAttempt 11], WellNamed a.buckets := by
    simp [installedAttempt, storable_initial.wellNamed]
  have hleaves : (installedAttempt 11).leavesGuard installedDigest = true := by decide +kernel
  obtain ⟨d, hattempts⟩ := exists_saveAttempts installedDigest _ hnamed
    ⟨installed, Storage.initial⟩
  refine ⟨d, hattempts, fun order d' => ?_⟩
  apply not_completes_of_guard storable_initial.wellNamed order
  obtain ⟨hall, -⟩ | ⟨-, hguard⟩ := hattempts.ready_or_guard hnamed
    (ready_of_noBackup clean_installed.noGuard clean_installed.noBackup)
  · rw [hall _ List.mem_cons_self] at hleaves
    contradiction
  · exact hguard

end Cynara
