import Cynara.Storage.Loading

/-!
# Streams that are cut short

A stream that cannot write any more, because the disk is full for example, only sets its
fail state, which a save never looks at.  So the save goes on: it syncs the files, creates
the guard and replaces the primary files by what has been written.  The checksums are
computed from copies in memory, so they are those of the whole texts.

A load that follows finds that the checksums do not agree, or that there are none, and the
buckets that were saved before are gone.  The only part that may be missing is the newline
at the end of the checksum file.
-/

open Std

namespace Cynara

open InMemoryStorageBackend Str StoragePath StorageSerializer StorageDeserializer Integrity

/-! ### Saves that are cut short -/

/-- What reaches the disk of a file; `cut` gives the number of its bytes by the plain name. -/
def cutFile (cut : Str → ℕ) (file : Str × Str) : Str × Str := (file.1, file.2.take (cut file.1))

/-- A save of which the streams are cut short. -/
def cutSave (digest : Str → Vector UInt8 16) (cut : Str → ℕ) (order : DumpOrder) (s : Buckets) :
    List Instruction :=
  saveTexts order.buckets s ((bucketFiles order s).map (cutFile cut))
    ((dumpIndex order.buckets s).take (cut indexFilename))
    ((dumpChecksums digest order s).take (cut checksumFilename))

/-- The files that have a checksum. -/
def summedFiles (order : DumpOrder) (s : Buckets) : List (Str × Str) :=
  bucketFiles order s ++ [(indexFilename, dumpIndex order.buckets s)]

/-- All the texts have been written, except perhaps the last newline of the checksums. -/
structure Complete (digest : Str → Vector UInt8 16) (cut : Str → ℕ) (order : DumpOrder)
    (s : Buckets) : Prop where
  files : ∀ f ∈ summedFiles order s, f.2.length ≤ cut f.1
  checksums : (dumpChecksums digest order s).length ≤ cut checksumFilename + 1

theorem Covers.cut {s : Buckets} {files : List (Str × Str)} (h : Covers s files)
    (cut : Str → ℕ) :
  Covers s (files.map (cutFile cut))
  := by
  have hnames : (files.map (cutFile cut)).map Prod.fst = files.map Prod.fst := by
    rw [List.map_map]
    rfl
  constructor <;> rw [hnames]
  · exact h.nodup
  · exact h.mem

section

variable {digest : Str → Vector UInt8 16}

/-- A save that is cut short comes to its end, and the primary files are what has been
written. -/
theorem cutSave_completes (digest : Str → Vector UInt8 16) {s : Buckets}
    (hs : WellNamed s) (cut : Str → ℕ) (order : DumpOrder)
    {d : Disk} (hd : Ready d) :
  ∃ d', Crash.Completes exec (cutSave digest cut order s) d d'
    ∧ backupGuardExists d'.dir = false
    ∧ (∀ f ∈ summedFiles order s, d'.dir.read f.1 = some (f.2.take (cut f.1)))
    ∧ d'.dir.read checksumFilename
      = some ((dumpChecksums digest order s).take (cut checksumFilename))
  := by
  obtain ⟨d', hcompletes, -, hrelinked⟩ := (ends_saveTexts hs ((covers_bucketFiles order s).cut cut)
    order.buckets ((dumpIndex order.buckets s).take (cut indexFilename))
    ((dumpChecksums digest order s).take (cut checksumFilename)) hd).completes
  refine ⟨d', hcompletes, by rw [backupGuardExists, hrelinked.noGuard]; rfl, ?_, ?_⟩
  · intro f hf
    apply hrelinked.primary (cutFile cut f)
    rw [textFiles, List.mem_append]
    obtain hf | hf := List.mem_append.mp hf
    · exact Or.inl (List.mem_map_of_mem hf)
    · obtain rfl := List.mem_singleton.mp hf
      exact Or.inr List.mem_cons_self
  · exact hrelinked.primary (checksumFilename, _) (by simp [textFiles])

/-! ### Reading the checksums -/

theorem length_generate (data : Str) :
  (ChecksumValidator.generate digest data).length = 32
  := by
  simp [ChecksumValidator.generate]

/-- A checksum that is recorded stands in a line. -/
theorem exists_line_of_load {text : Str} {sums : ExtTreeMap Str Str}
    (h : ChecksumValidator.load text = some sums) {name sum : Str}
    (hsum : sums[name]? = some sum) :
  ∃ line ∈ lines recordSeparator text, ChecksumValidator.parseRecord line = some (name, sum)
  := by
  suffices hgen : ∀ (ls : List Str) (start : ExtTreeMap Str Str),
      ls.foldlM (fun (sums : ExtTreeMap Str Str) line =>
        (ChecksumValidator.parseRecord line).map fun record =>
          sums.insertIfNew record.1 record.2) start = some sums →
      start[name]? = some sum
        ∨ ∃ line ∈ ls, ChecksumValidator.parseRecord line = some (name, sum) by
    obtain hstart | hline := hgen _ ∅ h
    · simp at hstart
    · exact hline
  intro ls
  induction ls with
  | nil =>
      intro start hstart
      obtain rfl : start = sums := Option.some.inj hstart
      exact Or.inl hsum
  | cons line ls ih =>
      intro start hfold
      rw [List.foldlM_cons] at hfold
      obtain ⟨next, hnext, hfold⟩ := Option.bind_eq_some_iff.mp hfold
      obtain ⟨⟨name', sum'⟩, hparse, rfl⟩ := Option.map_eq_some_iff.mp hnext
      obtain hstart | ⟨line', hmem, hline⟩ := ih _ hfold
      · rw [ExtTreeMap.getElem?_insertIfNew] at hstart
        split at hstart
        · rename_i hnew
          obtain rfl := Std.compare_eq_iff_eq.mp hnew.1
          obtain rfl := Option.some.inj hstart
          exact Or.inr ⟨line, List.mem_cons_self, hparse⟩
        · exact Or.inl hstart
      · exact Or.inr ⟨line', List.mem_cons_of_mem line hmem, hline⟩

/-- What the first part of a record is read as. -/
theorem parseRecord_of_firstPart {file : Str × Str} (hsep : fieldSeparator ∉ file.1) {line : Str}
    (hline : line <+: ChecksumValidator.dumpRecord digest file) {name sum : Str}
    (h : ChecksumValidator.parseRecord line = some (name, sum)) :
  name = file.1 ∧ line = file.1 ++ fieldSeparator :: sum
  := by
  unfold ChecksumValidator.parseRecord at h
  split at h
  · contradiction
  · rename_i name' sum' hcut
    split at h
    · contradiction
    · obtain ⟨rfl, rfl⟩ := Prod.mk.inj (Option.some.inj h)
      obtain ⟨rfl, hname⟩ := cut_eq_some hcut
      obtain ⟨rest, hrest⟩ := hline
      rw [List.append_assoc, List.cons_append] at hrest
      -- both sides are cut at the first separator
      have hboth := congrArg (Str.cut fieldSeparator) hrest
      rw [cut_append_sep hname, ChecksumValidator.dumpRecord, cut_append_sep hsep] at hboth
      obtain ⟨rfl, -⟩ := Prod.mk.inj (Option.some.inj hboth)
      exact ⟨rfl, rfl⟩

section

variable {s : Buckets} (hs : WellNamed s) (order : DumpOrder)

include hs

omit hs in
theorem mem_dumpedFiles_of_mem_summedFiles {f : Str × Str} (hf : f ∈ summedFiles order s) :
  f ∈ dumpedFiles digest order s
  := by
  simp only [summedFiles, dumpedFiles, List.mem_append, List.mem_cons, List.not_mem_nil,
    or_false] at hf ⊢
  exact hf.imp_right Or.inl

theorem notMem_of_mem_summedFiles (digest : Str → Vector UInt8 16) {f : Str × Str}
    (hf : f ∈ summedFiles order s) :
  fieldSeparator ∉ f.1 ∧ recordSeparator ∉ ChecksumValidator.dumpRecord digest f
  := by
  have hmem : f ∈ dumpedFiles digest order s := mem_dumpedFiles_of_mem_summedFiles order hf
  obtain ⟨hfield, hrecord⟩ := fieldSeparator_notMem_base hs (fileOf_of_mem_dumpedFiles hmem)
  have hsep : recordSeparator ≠ fieldSeparator := by decide
  refine ⟨hfield, ?_⟩
  simp [ChecksumValidator.dumpRecord, hsep, hrecord, recordSeparator_notMem_generate]

omit hs in
/-- The record of the index comes last. -/
theorem dumpChecksums_eq (digest : Str → Vector UInt8 16) :
  dumpChecksums digest order s
    = ((bucketFiles order s).flatMap fun file =>
        ChecksumValidator.dumpRecord digest file ++ [recordSeparator])
      ++ (ChecksumValidator.dumpRecord digest (indexFilename, dumpIndex order.buckets s)
        ++ [recordSeparator])
  := by
  simp only [dumpChecksums, List.flatMap_append, List.flatMap_cons, List.flatMap_nil,
    List.append_nil]

/-- If more than the last newline is missing, there is no whole checksum of the index. -/
theorem length_indexSum_lt {k : ℕ} (hk : k + 1 < (dumpChecksums digest order s).length)
    {sums : ExtTreeMap Str Str}
    (hsums : ChecksumValidator.load ((dumpChecksums digest order s).take k) = some sums) :
  (sums[indexFilename]?.getD []).length < 32
  := by
  cases hsum : sums[indexFilename]? with
  | none => simp
  | some sum =>
      rw [Option.getD_some]
      obtain ⟨line, hline, hparse⟩ := exists_line_of_load hsums hsum
      have hindex : (indexFilename, dumpIndex order.buckets s) ∈ summedFiles order s :=
        List.mem_append_right _ List.mem_cons_self
      have hsep : ∀ f ∈ bucketFiles order s,
          recordSeparator ∉ ChecksumValidator.dumpRecord digest f :=
        fun f hf => (notMem_of_mem_summedFiles hs order digest (List.mem_append_left _ hf)).2
      -- the record of a bucket is not one of the index
      have hbucket : ∀ f ∈ bucketFiles order s,
          ¬ line <+: ChecksumValidator.dumpRecord digest f := by
        intro f hf hfirst
        have hfield := (notMem_of_mem_summedFiles hs order digest
          (List.mem_append_left _ hf)).1
        have hname := (parseRecord_of_firstPart hfield hfirst hparse).1
        exact ((covers_bucketFiles order s).ne_index hf).1 hname.symm
      rw [dumpChecksums_eq] at hk hline
      obtain hshort | hlong := Nat.lt_or_ge k ((bucketFiles order s).flatMap fun file =>
        ChecksumValidator.dumpRecord digest file ++ [recordSeparator]).length
      · rw [List.take_append_of_le_length hshort.le] at hline
        obtain ⟨f, hf, hfirst⟩ := mem_lines_take _ _ hsep k hline
        exact absurd hfirst (hbucket f hf)
      · obtain ⟨j, rfl⟩ := Nat.exists_eq_add_of_le hlong
        have hj : j < (ChecksumValidator.dumpRecord digest
            (indexFilename, dumpIndex order.buckets s)).length := by
          rw [List.length_append, List.length_append, List.length_singleton] at hk
          omega
        have hfirst := List.take_prefix j
          (ChecksumValidator.dumpRecord digest (indexFilename, dumpIndex order.buckets s))
        obtain ⟨hfield, hrecord⟩ := notMem_of_mem_summedFiles hs order digest hindex
        rw [List.take_length_add_append, List.take_append_of_le_length hj.le,
          lines_flatMap_append _ _ hsep,
          lines_of_notMem fun hmem => hrecord (hfirst.subset hmem), List.mem_append] at hline
        obtain hline | hline := hline
        · obtain ⟨f, hf, rfl⟩ := List.mem_map.mp hline
          exact absurd List.prefix_rfl (hbucket f hf)
        · split at hline
          · contradiction
          · obtain rfl := List.mem_singleton.mp hline
            -- of the record of the index at least one byte is missing
            obtain ⟨-, hsplit⟩ := parseRecord_of_firstPart hfield hfirst hparse
            have hlength := congrArg List.length hsplit
            rw [ChecksumValidator.dumpRecord, List.length_append, List.length_cons,
              length_generate] at hj
            rw [List.length_take, List.length_append, List.length_cons,
              ChecksumValidator.dumpRecord, List.length_append, List.length_cons,
              length_generate] at hlength
            omega

/-- The last newline does not count. -/
theorem load_take_dumpChecksums {k : ℕ} (hk : (dumpChecksums digest order s).length ≤ k + 1) :
  ChecksumValidator.load ((dumpChecksums digest order s).take k)
    = ChecksumValidator.load (dumpChecksums digest order s)
  := by
  have hindex : (indexFilename, dumpIndex order.buckets s) ∈ summedFiles order s :=
    List.mem_append_right _ List.mem_cons_self
  have hrecord := (notMem_of_mem_summedFiles hs order digest hindex).2
  have hsep : ∀ f ∈ bucketFiles order s,
      recordSeparator ∉ ChecksumValidator.dumpRecord digest f :=
    fun f hf => (notMem_of_mem_summedFiles hs order digest (List.mem_append_left _ hf)).2
  have hne :
      ChecksumValidator.dumpRecord digest (indexFilename, dumpIndex order.buckets s) ≠ [] := by
    simp [ChecksumValidator.dumpRecord]
  obtain hpart | hall := Nat.lt_or_ge k (dumpChecksums digest order s).length
  · have htext := dumpChecksums_eq (s := s) order digest
    rw [← List.append_assoc] at htext
    have hlength := congrArg List.length htext
    rw [List.length_append, List.length_singleton] at hlength
    rw [ChecksumValidator.load, ChecksumValidator.load, htext,
      List.take_append_of_le_length (by omega), List.take_of_length_le (by omega),
      List.append_assoc, lines_flatMap_append _ _ hsep, lines_flatMap_append _ _ hsep,
      lines_append_sep hrecord, lines_of_notMem hrecord, if_neg hne, lines]
  · rw [List.take_of_length_le hall]

end

/-! ### Loads that succeed -/

/-- A file that is opened has the recorded checksum. -/
theorem sum_of_openFile {s : Buckets} (hs : WellNamed s) {base : Str} (hbase : FileOf s base)
    (hne : base ≠ checksumFilename) {read : Str → Option Str} {sums : ExtTreeMap Str Str}
    {text : Str} (h : openFile digest read sums false base = some text) :
  read base = some text ∧ sums[base]?.getD [] = ChecksumValidator.generate digest text
  := by
  have hrecorded : ChecksumValidator.recordedName base false = base := by
    simpa [suffix] using recordedName_append_suffix hs hbase false
  have hspecial : ChecksumValidator.isChecksumIndex base = false := by
    have hbackup : base ≠ checksumFilename ++ backupFilenameSuffix :=
      (hbase.ne_backupOf hs checksumFilename).symm
    simp [ChecksumValidator.isChecksumIndex, hne, hbackup]
  rw [openFile, cString_eq hs hbase, Option.filter_eq_some_iff] at h
  obtain ⟨hread, hcompare⟩ := h
  rw [ChecksumValidator.compare, hspecial, hrecorded, Bool.false_or, beq_iff_eq] at hcompare
  exact ⟨hread, hcompare⟩

/-- What a load that succeeds has found. -/
theorem exists_of_readBuckets {read : Str → Option Str} {order : IterationOrder Str}
    {t : Buckets} (h : readBuckets digest read order false = .returned t) :
  ∃ sums index, (read checksumFilename).bind ChecksumValidator.load = some sums
    ∧ openFile digest read sums false indexFilename = some index
    ∧ ∀ id c, (initBuckets index).state.find? id = some c →
      ∃ text, openFile digest read sums false (bucketFilename id) = some text
  := by
  have hdatabase : (readDatabase digest read order false).thrown = none := by
    unfold readBuckets at h
    simp only at h
    split at h
    · exact absurd (congrArg Outcome.thrown h) (by simp)
    · exact absurd (congrArg Outcome.thrown h) (by simp)
    · assumption
  have hchecksums : openFile digest read ∅ false checksumFilename = read checksumFilename := by
    rw [openFile, show cString checksumFilename = checksumFilename from by decide]
    cases read checksumFilename with
    | none => rfl
    | some text => simp [ChecksumValidator.compare, ChecksumValidator.isChecksumIndex]
  simp only [readDatabase, suffix, Bool.false_eq_true, ↓reduceIte, List.append_nil,
    hchecksums] at hdatabase
  split at hdatabase
  · contradiction
  · rename_i sums hsums
    split at hdatabase
    · contradiction
    · rename_i index hindex
      obtain ⟨-, hload⟩ := Outcome.andThen_thrown_eq_none.mp hdatabase
      refine ⟨sums, index, hsums, hindex, fun id c hc => ?_⟩
      obtain ⟨_, hbucket⟩ := Outcome.exists_returned_of_forEach hload
        ((IterationOrder.mem_entries order _ id c).mpr hc)
      simp only at hbucket
      split at hbucket
      · contradiction
      · rename_i policies hpolicies
        obtain ⟨text, htext, -⟩ := Option.bind_eq_some_iff.mp hpolicies
        exact ⟨text, htext⟩

/-- The checksums of the files tell them from their proper first parts. -/
def Distinguishes (digest : Str → Vector UInt8 16) (order : DumpOrder) (s : Buckets) : Prop :=
  ∀ f ∈ summedFiles order s, ∀ text, text <+: f.2 →
    ChecksumValidator.generate digest text = ChecksumValidator.generate digest f.2 → text = f.2

variable {s : Buckets} {order : DumpOrder} {cut : Str → ℕ} {read : Str → Option Str}
  {loadOrder : IterationOrder Str} {t : Buckets}

/-- A load of files that have been cut short succeeds only if the checksums are there. -/
theorem checksums_of_readBuckets (hs : WellNamed s)
    (hchecksums : read checksumFilename
      = some ((dumpChecksums digest order s).take (cut checksumFilename)))
    (h : readBuckets digest read loadOrder false = .returned t) :
  (dumpChecksums digest order s).length ≤ cut checksumFilename + 1
  := by
  obtain ⟨sums, index, hsums, hindex, -⟩ := exists_of_readBuckets h
  rw [hchecksums, Option.bind_some] at hsums
  have hsum := (sum_of_openFile hs (Or.inr (Or.inl rfl)) (by decide) hindex).2
  by_contra hcut
  have hlength := length_indexSum_lt hs order (by omega) hsums
  rw [hsum, length_generate] at hlength
  exact absurd hlength (lt_irrefl 32)

/-- A load of files that have been cut short succeeds only if nothing is missing. -/
theorem complete_of_readBuckets (hs : Storable s) (hdigest : Distinguishes digest order s)
    (hfiles : ∀ f ∈ summedFiles order s, read f.1 = some (f.2.take (cut f.1)))
    (hchecksums : read checksumFilename
      = some ((dumpChecksums digest order s).take (cut checksumFilename)))
    (h : readBuckets digest read loadOrder false = .returned t) :
  Complete digest cut order s
  := by
  have hlast := checksums_of_readBuckets hs.wellNamed hchecksums h
  obtain ⟨sums, index, hsums, hindex, hbuckets⟩ := exists_of_readBuckets h
  rw [hchecksums, Option.bind_some, load_take_dumpChecksums hs.wellNamed order hlast] at hsums
  obtain ⟨sums', hsums', hindexSum, hbucketSum⟩ := load_dumpChecksums digest hs.wellNamed order
  obtain rfl := Option.some.inj (hsums.symm.trans hsums')
  -- a file that is opened is complete, since it has the checksum of the whole text
  have hopened : ∀ f ∈ summedFiles order s,
      sums[f.1]? = some (ChecksumValidator.generate digest f.2) →
      ∀ text, openFile digest read sums false f.1 = some text →
        text = f.2 ∧ f.2.length ≤ cut f.1 := by
    intro f hf hsum text htext
    have hfile : f ∈ dumpedFiles digest order s := mem_dumpedFiles_of_mem_summedFiles order hf
    have hne : f.1 ≠ checksumFilename := by
      obtain hf | hf := List.mem_append.mp hf
      · exact ((covers_bucketFiles order s).ne_index hf).2
      · rw [List.mem_singleton.mp hf]
        show indexFilename ≠ checksumFilename
        decide
    obtain ⟨hread, hsum'⟩ :=
      sum_of_openFile hs.wellNamed (fileOf_of_mem_dumpedFiles hfile) hne htext
    obtain rfl := Option.some.inj ((hfiles f hf).symm.trans hread)
    rw [hsum, Option.getD_some] at hsum'
    have htake := hdigest f hf _ (List.take_prefix _ _) hsum'.symm
    exact ⟨htake, List.take_eq_self_iff _ |>.mp htake⟩
  have hindexFile : (indexFilename, dumpIndex order.buckets s) ∈ summedFiles order s :=
    List.mem_append_right _ List.mem_cons_self
  obtain ⟨rfl, hindexCut⟩ := hopened _ hindexFile hindexSum index hindex
  refine ⟨?_, hlast⟩
  intro f hf
  obtain hbucket | hbucket := List.mem_append.mp hf
  · obtain ⟨⟨id, b⟩, he, rfl⟩ := List.mem_map.mp hbucket
    have hb : s.find? id = some b := (IterationOrder.mem_entries _ _ _ _).mp he
    obtain ⟨u, hu, hfind⟩ := initBuckets_dumpIndex hs.wellNamed hs.defaultMetadata order.buckets
    rw [hu, Outcome.returned_state] at hbuckets
    obtain ⟨text, htext⟩ := hbuckets id (blank b) (by rw [hfind, hb, Option.map_some])
    exact (hopened _ hf (hbucketSum id b hb) text htext).2
  · obtain rfl := List.mem_singleton.mp hbucket
    exact hindexCut

/-- Where nothing is missing the load reads the buckets. -/
theorem readBuckets_of_complete (hs : Storable s)
    (hfiles : ∀ f ∈ summedFiles order s, read f.1 = some (f.2.take (cut f.1)))
    (hchecksums : read checksumFilename
      = some ((dumpChecksums digest order s).take (cut checksumFilename)))
    (h : Complete digest cut order s) :
  readBuckets digest read loadOrder false = .returned s
  := by
  have hholds : Holds digest read s := by
    apply holds_of_checksums hs order
    · rw [hchecksums, Option.bind_some, load_take_dumpChecksums hs.wellNamed order h.checksums]
    · intro f hf
      rw [hfiles f hf, List.take_of_length_le (h.files f hf)]
  exact Holds.readBuckets hs.wellNamed hs.hasDefault (by simpa [suffix] using hholds) loadOrder

/-- After a save whose streams may be cut short, a load yields the buckets that were saved, or
those saved before, exactly if everything has been written but perhaps the last newline of
the checksums. -/
theorem load_cutSave_iff (digest : Str → Vector UInt8 16) {s : Buckets} (hs : Storable s)
    (order : DumpOrder) (hdigest : Distinguishes digest order s) (cut : Str → ℕ) {d : Disk}
    (hd : Clean digest d) (loadOrder dirOrder : IterationOrder Str) :
  (∃ d' d'' t, Crash.Completes exec (cutSave digest cut order s) d d'
    ∧ Loads digest loadOrder dirOrder d' (.returned t) d''
    ∧ (t = s ∨ t = d.committed))
    ↔ Complete digest cut order s
  := by
  obtain ⟨d', hcompletes, hguard, hfiles, hchecksums⟩ := cutSave_completes digest hs.wellNamed
    cut order (ready_of_noBackup hd.noGuard hd.noBackup)
  constructor
  · rintro ⟨d₁, d'', t, hcompletes', hloads, -⟩
    obtain ⟨rfl, -⟩ := hcompletes'.attempts.unique hcompletes.attempts
    have hread := hloads.outcome_eq
    rw [hguard] at hread
    exact complete_of_readBuckets hs hdigest hfiles hchecksums hread.symm
  · intro hcomplete
    obtain ⟨d'', hloads⟩ := exists_loads digest hguard loadOrder dirOrder
    rw [readBuckets_of_complete hs hfiles hchecksums hcomplete] at hloads
    exact ⟨d', d'', s, hcompletes, hloads, Or.inl rfl⟩

end

/-! ### The new database -/

/-- MD5 tells the files of a new database from their first parts. -/
theorem distinguishes_initial :
  Distinguishes installedDigest ⟨.sorted, fun _ => .sorted⟩ Storage.initial
  := by
  have hinits : ∀ f ∈ summedFiles ⟨.sorted, fun _ => .sorted⟩ Storage.initial, ∀ text ∈ f.2.inits,
      ChecksumValidator.generate installedDigest text
          = ChecksumValidator.generate installedDigest f.2 →
        text = f.2 := by decide +kernel
  intro f hf text htext
  exact hinits f hf text (List.mem_inits text f.2 |>.mpr htext)

/-- The newline at the end of the checksum file is missing. -/
theorem load_cutSave_newline :
  ∃ d, Clean installedDigest d
    ∧ ∃ d' d'' t, Crash.Completes exec
        (cutSave installedDigest (fun name => if name = checksumFilename then 75 else 100)
          ⟨.sorted, fun _ => .sorted⟩ Storage.initial) d d'
      ∧ Loads installedDigest .sorted .sorted d' (.returned t) d''
      ∧ (t = Storage.initial ∨ t = d.committed)
  := by
  -- the disk after the first save
  have hsave : Crash.Safe exec (Allowed Set.univ) (fun _ => True)
      (fun d => d.committed = Storage.initial ∧ Clean installedDigest d)
      (InMemoryStorageBackend.save installedDigest ⟨.sorted, fun _ => .sorted⟩ Storage.initial)
      ⟨.empty, Storage.initial⟩ :=
    safe_save_of_noBackup (fun _ _ => trivial) storable_initial _ (fun _ _ => trivial) rfl
      fun _ => rfl
  obtain ⟨d, -, -, -, hclean⟩ := hsave.completes
  refine ⟨d, hclean, ?_⟩
  apply (load_cutSave_iff installedDigest storable_initial _ distinguishes_initial _ hclean .sorted
    .sorted).mpr
  constructor
  · decide +kernel
  · decide +kernel

/-- The disk is full, and nothing is written.  The load throws `DatabaseCorruptedException`. -/
theorem not_load_cutSave_fullDisk :
  ∃ d', Crash.Completes exec
      (cutSave installedDigest (fun _ => 0) ⟨.sorted, fun _ => .sorted⟩ Storage.initial)
      ⟨installed, Storage.initial⟩ d'
    ∧ ∀ loadOrder dirOrder,
      Loads installedDigest loadOrder dirOrder d' (.threw .database ⟨∅, by simp⟩) d'
      ∧ ∀ t d'', ¬ Loads installedDigest loadOrder dirOrder d' (.returned t) d''
  := by
  obtain ⟨d', hcompletes, hguard, hfiles, hchecksums⟩ := cutSave_completes installedDigest
    storable_initial.wellNamed (fun _ => 0) ⟨.sorted, fun _ => .sorted⟩
    (ready_of_noBackup clean_installed.noGuard clean_installed.noBackup)
  refine ⟨d', hcompletes, fun loadOrder dirOrder => ?_⟩
  have hread : readBuckets installedDigest d'.dir.read loadOrder (backupGuardExists d'.dir)
      = .threw .database ⟨∅, by simp⟩ := by
    have hindex : d'.dir.read indexFilename = some [] :=
      hfiles _ (List.mem_append_right _ List.mem_cons_self)
    have hempty : d'.dir.read checksumFilename = some [] := hchecksums
    have hname : cString indexFilename = indexFilename
      ∧ cString checksumFilename = checksumFilename := by decide
    have hcompare :
        ChecksumValidator.compare installedDigest ∅ indexFilename false [] = false
          ∧ ChecksumValidator.compare installedDigest ∅ checksumFilename false [] = true := by
      decide
    have hload : ChecksumValidator.load [] = some ∅ := rfl
    simp [hguard, readBuckets, readDatabase, openFile, suffix, hname, hindex, hempty, hcompare,
      Option.filter_some, hload]
  refine ⟨.threw hread, fun t d'' hloads => ?_⟩
  exact absurd (congrArg Outcome.thrown (hloads.outcome_eq.trans hread)) (by simp)

end Cynara
