import Cynara.Service.Admin
import Cynara.Storage.Consistency
import Cynara.Storage.CrashSafety
import Cynara.Storage.RoundTrip

/-!
# Restarting the service

After a request that is answered with `OK` the buckets in memory have been saved, and the
service reads them when it is started again.  The handlers of the requests do not look at
the texts of a request: a feature of a key or a piece of metadata may contain a separator of
the files, and an id may contain a zero byte, at which the name of the file of its bucket
ends.

As long as the requests have no such texts, the saved database is read again.
-/

open Std

namespace Cynara

open PredefinedPolicyType InMemoryStorageBackend Str StoragePath StorageDeserializer Integrity

/-! ### Buckets that can be saved -/

/-- Buckets can be saved, in terms of their default policies and entries. -/
theorem storable_of_lookup {s : Buckets} (hdefault : hasBucket s defaultPolicyBucketId = true)
    (hbuckets : ∀ id d, s.default? id = some d →
      id.all isIdByte = true ∧ recordSeparator ∉ d.metadata)
    (hentries : ∀ id key p, s.lookup id key = some p → SeparatedPolicy p) :
  Storable s
  := by
  have hbucket : ∀ id b, s.find? id = some b →
      id.all isIdByte = true ∧ recordSeparator ∉ b.defaultPolicy.metadata := by
    intro id b hb
    apply hbuckets
    rw [Buckets.default?, hb, Option.map_some]
  have hpolicy : ∀ id b, s.find? id = some b → ∀ p ∈ b, SeparatedPolicy p := by
    intro id b hb p hp
    exact hentries id p.key p (Buckets.lookup_eq_some.mpr ⟨b, hb, hp, rfl⟩)
  refine ⟨hdefault, ?_, fun id b hb p hp => (hpolicy id b hb p hp).1,
    fun id b hb p hp => (hpolicy id b hb p hp).2, fun id b hb => (hbucket id b hb).2⟩
  exact wellNamed_iff.mpr fun id b hb => (hbucket id b hb).1

namespace Storable

variable {s t : Buckets}

theorem of_default? (hs : Storable s) {id : PolicyBucketId} {d : PolicyResult}
    (h : s.default? id = some d) :
  id.all isIdByte = true ∧ recordSeparator ∉ d.metadata
  := by
  obtain ⟨b, hb, rfl⟩ := Option.map_eq_some_iff.mp h
  exact ⟨wellNamed_iff.mp hs.wellNamed id b hb, hs.defaultMetadata id b hb⟩

theorem of_lookup (hs : Storable s) {id : PolicyBucketId} {key : PolicyKey} {p : Policy}
    (h : s.lookup id key = some p) :
  SeparatedPolicy p
  := by
  obtain ⟨b, hb, hp, -⟩ := Buckets.lookup_eq_some.mp h
  exact ⟨hs.features id b hb p hp, hs.metadata id b hb p hp⟩

/-- Buckets and entries may be lost, except for the default bucket. -/
theorem mono (hs : Storable s) (hdefault : hasBucket t defaultPolicyBucketId = true)
    (hbuckets : ∀ id d, t.default? id = some d → s.default? id = some d) (hwithin : t.Within s) :
  Storable t
  := by
  apply storable_of_lookup hdefault
  · intro id d hd
    apply hs.of_default? (hbuckets id d hd)
  · intro id key p hp
    apply hs.of_lookup (hwithin id key p hp)

end Storable

/-- The texts of an operation that can be saved: its policies and its default policy have no
separators, and the id of its bucket has no zero byte. -/
def Storage.Operation.Separated : Storage.Operation → Prop
  | .insertPolicies groups => ∀ e ∈ Storage.entries groups, SeparatedPolicy e.2
  | .addOrUpdateBucket id d => 0 ∉ id ∧ recordSeparator ∉ d.metadata
  | _ => True

/-- An id without a zero byte that the constructor of a bucket accepts. -/
theorem all_isIdByte_of_idValidator {id : PolicyBucketId} (h : idValidator id = true)
    (hzero : 0 ∉ id) :
  id.all isIdByte = true
  := by
  rw [idValidator, List.all_eq_true] at h
  rw [List.all_eq_true]
  intro c hc
  have hne : c ≠ 0 := by
    rintro rfl
    exact hzero hc
  simpa [isIdSeparator, isIdByte, hne, or_assoc] using h c hc

/-- An operation whose texts can be saved leaves buckets that can be saved, however it
ends. -/
theorem Storage.Operation.perform_storable {op : Storage.Operation} {fuel : ℕ} {s : Buckets}
    {o : Outcome StorageException Buckets} (h : op.perform fuel s = some o)
    (hop : op.Separated) (hs : Storable s) :
  Storable o.state
  := by
  have hdefault := Storage.Operation.perform_hasDefault h hs.hasDefault
  cases op with
  | insertPolicies groups =>
      obtain rfl := Option.some.inj h
      cases hcheck : Storage.checkGroups s groups.toList with
      | some e =>
          rw [Storage.insertPolicies_refused hcheck]
          exact hs
      | none =>
          obtain ⟨-, hsame, hlookup⟩ := Storage.insertPolicies_accepted hcheck
          apply storable_of_lookup hdefault
          · intro id d hd
            rw [hsame id] at hd
            apply hs.of_default? hd
          · intro id key p hp
            rw [hlookup] at hp
            obtain hp | ⟨-, hp⟩ := Option.or_eq_some_iff.mp hp
            · apply hop (id, p) (Storage.mem_of_inserted hp).1
            · apply hs.of_lookup hp
  | deletePolicies groups =>
      obtain rfl := Option.some.inj h
      apply hs.mono hdefault
      · intro id d hd
        rw [← (Storage.deletePolicies_spec s groups).2.2.1 id]
        exact hd
      · apply Storage.deletePolicies_within
  | addOrUpdateBucket id d =>
      obtain rfl := Option.some.inj h
      apply storable_of_lookup hdefault
      · intro id' d' hd'
        obtain ⟨-, e, heq, -⟩ | ⟨-, ⟨b, hb, heq⟩ | ⟨hid, -, heq⟩⟩ :=
          Storage.addOrUpdateBucket_cases s id d
        · rw [heq] at hd'
          apply hs.of_default? hd'
        · have hname : (b.setDefaultPolicy d).id = id := Buckets.id_of_find? (b := b) hb
          have hold : s.default? id = some b.defaultPolicy := by
            rw [Buckets.default?, hb, Option.map_some]
          rw [heq, Outcome.returned_state, Buckets.default?_put, hname] at hd'
          split at hd'
          · rename_i heq'
            obtain rfl := heq'
            obtain rfl := Option.some.inj hd'
            exact ⟨(hs.of_default? hold).1, hop.2⟩
          · apply hs.of_default? hd'
        · rw [heq, Outcome.returned_state, Buckets.default?_put] at hd'
          split at hd'
          · rename_i heq'
            obtain rfl : id = id' := heq'
            obtain rfl := Option.some.inj hd'
            exact ⟨all_isIdByte_of_idValidator hid hop.1, hop.2⟩
          · apply hs.of_default? hd'
      · intro id' key p hp
        apply hs.of_lookup (Storage.addOrUpdateBucket_within s id d id' key p hp)
  | deleteBucket id =>
      obtain rfl := Option.some.inj h
      apply hs.mono hdefault
      · intro id' d hd
        have hlinking := Storage.sameBuckets_deleteLinking s id
        obtain ⟨-, heq⟩ | ⟨-, -, heq⟩ | ⟨-, -, heq⟩ := Storage.deleteBucket_cases s id
        · rw [heq] at hd
          exact hd
        · rw [heq, Outcome.threw_state, hlinking id'] at hd
          exact hd
        · rw [heq, Outcome.returned_state, Buckets.default?, Buckets.find?_remove] at hd
          split at hd
          · contradiction
          · rw [← hlinking id']
            exact hd
      · apply Storage.deleteBucket_within
  | erasePolicies id recursive filter =>
      obtain ⟨hsame, hwithin⟩ := Storage.eraseLoop_within h
      apply hs.mono hdefault _ hwithin
      intro id' d hd
      rw [← hsame id']
      exact hd

/-! ### Requests -/

/-- The texts of a request that can be saved. -/
def Request.Separated : Request → Prop
  | .setPolicies inserted _ => (Storage.Operation.insertPolicies inserted).Separated
  | .insertOrUpdateBucket bucketId result =>
      (Storage.Operation.addOrUpdateBucket bucketId result).Separated
  | _ => True

/-- A request whose texts can be saved leaves buckets that can be saved. -/
theorem Logic.perform_storable {env : Logic.Surroundings} {fuel : ℕ} {s : Buckets}
    {request : Request} {o : Outcome ServiceException Buckets}
    (h : Logic.perform env fuel s request = some o) (hrequest : request.Separated)
    (hs : Storable s) :
  Storable o.state
  := by
  have hsave : ∀ s, Storable s → Storable (Logic.onPoliciesChanged env s).state := by
    intro s hs
    rw [Logic.onPoliciesChanged_state]
    exact hs
  cases request with
  | setPolicies inserted removed =>
      obtain rfl := Option.some.inj h
      apply Outcome.andThen_state _ hsave
      apply Outcome.andThen_state
      · apply Outcome.andThen_state hs
        intro s hs
        have hinsert : (Storage.Operation.insertPolicies inserted).perform fuel s = some _ := rfl
        exact Storage.Operation.perform_storable hinsert hrequest hs
      · intro s hs
        have hdelete : (Storage.Operation.deletePolicies removed).perform fuel s = some _ := rfl
        exact Storage.Operation.perform_storable hdelete trivial hs
  | insertOrUpdateBucket bucketId result =>
      obtain rfl := Option.some.inj h
      apply Outcome.andThen_state _ hsave
      apply Outcome.andThen_state hs
      intro s hs
      have hadd : (Storage.Operation.addOrUpdateBucket bucketId result).perform fuel s = some _ :=
        rfl
      exact Storage.Operation.perform_storable hadd hrequest hs
  | removeBucket bucketId =>
      obtain rfl := Option.some.inj h
      apply Outcome.andThen_state _ hsave
      have hdelete : (Storage.Operation.deleteBucket bucketId).perform fuel s = some _ := rfl
      exact Storage.Operation.perform_storable hdelete trivial hs
  | erase startBucket recursive filter =>
      obtain ⟨o, ho, rfl⟩ := Option.map_eq_some_iff.mp h
      apply Outcome.andThen_state _ hsave
      have herase : (Storage.Operation.erasePolicies startBucket recursive filter).perform fuel s
          = some o := ho
      exact Storage.Operation.perform_storable herase trivial hs

/-- What can be saved can be saved after each request with proper texts. -/
theorem Logic.execute_storable {env : Logic.Surroundings} {fuel : ℕ} {s s' : Buckets}
    {request : Request} {code : Option Code}
    (h : Logic.execute env fuel s request = some (code, s')) (hrequest : request.Separated)
    (hs : Storable s) :
  Storable s'
  := by
  unfold Logic.execute at h
  split at h
  · obtain ⟨-, rfl⟩ := Prod.mk.inj (Option.some.inj h)
    exact hs
  · obtain ⟨o, ho, heq⟩ := Option.map_eq_some_iff.mp h
    have hstate : o.state = s' := by
      split at heq
      · exact (Prod.mk.inj heq).2
      · exact (Prod.mk.inj heq).2
    rw [← hstate]
    exact Logic.perform_storable ho hrequest hs

/-! ### Loading -/

variable {digest : Str → Vector UInt8 16}

/-- Buckets that are read from a database have no separators in their texts. -/
theorem allSeparated_readDatabase (read : Str → Option Str) (order : IterationOrder Str)
    (isBackupValid : Bool) :
  AllSeparated (readDatabase digest read order isBackupValid).state
  := by
  have hempty : AllSeparated ⟨∅, by simp⟩ := by
    intro id b hb
    simp [Buckets.find?] at hb
  unfold readDatabase
  dsimp only
  split
  · exact hempty
  · split
    · exact hempty
    · apply allSeparated_load

/-- The buckets that are read, with a default bucket. -/
theorem readBuckets_returned {read : Str → Option Str} {order : IterationOrder Str}
    {isBackupValid : Bool} (h : (readBuckets digest read order isBackupValid).thrown = none) :
  let t := (readDatabase digest read order isBackupValid).state
  (readBuckets digest read order isBackupValid).state
    = if hasBucket t defaultPolicyBucketId then t
      else t.put (PolicyBucket.empty defaultPolicyBucketId {} rfl)
  := by
  unfold readBuckets at h ⊢
  dsimp only at h ⊢
  split at h
  · contradiction
  · contradiction
  · rfl

theorem allSeparated_readBuckets {read : Str → Option Str} {order : IterationOrder Str}
    {isBackupValid : Bool} (h : (readBuckets digest read order isBackupValid).thrown = none) :
  AllSeparated (readBuckets digest read order isBackupValid).state
    ∧ hasBucket (readBuckets digest read order isBackupValid).state defaultPolicyBucketId = true
  := by
  have hseparated : AllSeparated (readDatabase digest read order isBackupValid).state :=
    allSeparated_readDatabase read order isBackupValid
  rw [readBuckets_returned h]
  split
  · rename_i hdefault
    exact ⟨hseparated, hdefault⟩
  · constructor
    · apply hseparated.put
      apply separated_empty
      exact List.not_mem_nil
    · apply hasBucket_iff.mpr
      exact ⟨_, Buckets.find?_put_self _ _⟩

/-- Buckets that are loaded can be saved if their ids are well formed. -/
theorem storable_of_startLoad {order dirOrder : IterationOrder Str} {disk : Disk} {s : Buckets}
    {todo : List Instruction}
    (h : startLoad digest order dirOrder disk = .loading s todo) (hs : WellNamed s) :
  Storable s ∧ ∃ isBackupValid, todo = postLoadCleanup order dirOrder s isBackupValid
  := by
  unfold startLoad at h
  dsimp only at h
  split at h
  · rename_i hthrown
    obtain ⟨hseparated, hdefault⟩ := allSeparated_readBuckets hthrown
    obtain ⟨rfl, rfl⟩ := Process.loading.inj h
    refine ⟨⟨hdefault, hs, ?_, ?_, ?_⟩, _, rfl⟩
    · exact fun id b hb => (hseparated id b hb).features
    · exact fun id b hb => (hseparated id b hb).metadata
    · exact fun id b hb => (hseparated id b hb).defaultMetadata
  · contradiction

/-- A list of names is removed. -/
theorem read_of_completes_deleteHardLink {names : List Str} {d d' : Disk}
    (h : Crash.Completes exec (names.map .deleteHardLink) d d') (m : Str) :
  d'.dir.read m = if m ∈ names then none else d.dir.read m
  := by
  induction names generalizing d with
  | nil =>
      cases h with
      | done => rfl
  | cons n names ih =>
      cases h with
      | step hexec hrest =>
          obtain ⟨rfl, rfl⟩ := Prod.mk.inj (Option.some.inj hexec)
          rw [ih hrest, Directory.read_unlink]
          by_cases hn : n = m
          · simp [hn]
          · simp [hn, Ne.symm hn]

/-- A load removes the guard and all backups. -/
theorem noBackup_of_completes {order dirOrder : IterationOrder Str} {isBackupValid : Bool}
    {s : Buckets} (hs : WellNamed s) {d d' : Disk}
    (h : Crash.Completes exec (postLoadCleanup order dirOrder s isBackupValid) d d') :
  d'.dir.read guardFilename = none ∧ ∀ n, d'.dir.read (backupOf n) = none
  := by
  obtain ⟨d, -, h⟩ := h.of_append
  have hnone : ∀ m, isNonIndexed s m = true → d'.dir.read m = none := by
    intro m hm
    cases h with
    | step hexec hrest =>
        obtain ⟨rfl, rfl⟩ := Prod.mk.inj (Option.some.inj hexec)
        rw [List.append_nil] at hrest
        rw [read_of_completes_deleteHardLink hrest]
        split
        · rfl
        · rename_i hmem
          rw [← Option.not_isSome_iff_eq_none, ← Directory.mem_names_iff,
            ExtTreeMap.mem_iff_isSome_getElem?]
          intro hsome
          obtain ⟨i, hi⟩ := Option.isSome_iff_exists.mp hsome
          apply hmem
          rw [List.mem_filter]
          refine ⟨?_, hm⟩
          exact List.mem_map.mpr ⟨(m, i), (IterationOrder.mem_entries _ _ _ _).mpr hi, rfl⟩
  constructor
  · apply hnone
    have hspecial : (isSpecialDirectory guardFilename || isSpecialDatabaseEntry guardFilename)
        = false := by decide
    have hlength : ¬ guardFilename.length < bucketFilenamePrefix.length := by decide
    have hfront : (guardFilename.take bucketFilenamePrefix.length != bucketFilenamePrefix)
        = true := by decide
    rw [isNonIndexed, hspecial, if_neg Bool.false_ne_true, if_neg hlength, hfront, if_pos rfl]
  · intro n
    apply hnone
    apply isNonIndexed_backupOf hs

/-! ### Runs of the service -/

/-- The service: its buckets, its disk, and whether the buckets have been saved since it was
started. -/
structure Service where
  buckets : Buckets
  disk : Disk
  saved : Bool

/-- The service is started on a database that can be loaded, and answers requests with
`OK`. -/
inductive Serves (digest : Str → Vector UInt8 16) (start : Buckets → Prop)
    (condition : Request → Prop) : Service → Prop where
  | start {order dirOrder : IterationOrder Str} {disk disk' : Disk} {s : Buckets}
      {todo : List Instruction}
      (loaded : startLoad digest order dirOrder disk = .loading s todo)
      (cleaned : Crash.Completes exec todo disk disk') (hstart : start s) :
      Serves digest start condition ⟨s, disk', false⟩
  | request {σ : Service} {env : Logic.Surroundings} {fuel : ℕ} {request : Request}
      {s : Buckets} {order : DumpOrder} {disk : Disk}
      (before : Serves digest start condition σ) (hcondition : condition request)
      (executed : Logic.execute env fuel σ.buckets request = some (some .OK, s))
      (saved : Crash.Completes exec (save digest order s) σ.disk disk) :
      Serves digest start condition ⟨s, disk, true⟩

/-- Between two requests the buckets can be saved, there is neither a guard nor a backup, and
after a save the disk holds the buckets. -/
theorem Serves.invariant {σ : Service} (h : Serves digest WellNamed Request.Separated σ) :
  Storable σ.buckets ∧ σ.disk.dir.read guardFilename = none
    ∧ (∀ n, σ.disk.dir.read (backupOf n) = none)
    ∧ (σ.saved = true → σ.disk.committed = σ.buckets ∧ Clean digest σ.disk)
  := by
  induction h with
  | start loaded cleaned hstart =>
      obtain ⟨hstorable, isBackupValid, rfl⟩ := storable_of_startLoad loaded hstart
      obtain ⟨hguard, hbackup⟩ := noBackup_of_completes hstart cleaned
      exact ⟨hstorable, hguard, hbackup, fun hsaved => absurd hsaved Bool.false_ne_true⟩
  | @request _ _ _ _ s order _ _ hcondition executed saved ih =>
      obtain ⟨hstorable, hguard, hbackup, -⟩ := ih
      have hstorable' : Storable s := Logic.execute_storable executed hcondition hstorable
      have hsafe : Crash.Safe exec (Allowed Set.univ) (fun _ => True)
          (fun d => d.committed = s ∧ Clean digest d) (save digest order s) _ :=
        safe_save_of_noBackup (fun _ _ => trivial) hstorable' order (fun _ _ => trivial) hguard
          hbackup
      obtain ⟨hcommitted, hclean⟩ := hsafe.post_of_completes saved
      exact ⟨hstorable', hclean.noGuard, hclean.noBackup, fun _ => ⟨hcommitted, hclean⟩⟩

/-- As long as the ids have no zero bytes and the texts of the requests no separators, the
database that was saved last is loaded again, and has the buckets that were saved. -/
theorem startLoad_of_serves {σ : Service} (h : Serves digest WellNamed Request.Separated σ)
    (hsaved : σ.saved = true) (order dirOrder : IterationOrder Str) :
  ∃ todo, startLoad digest order dirOrder σ.disk = .loading σ.buckets todo
  := by
  obtain ⟨-, -, -, hdisk⟩ := h.invariant
  obtain ⟨hcommitted, hclean⟩ := hdisk hsaved
  obtain ⟨isBackupValid, hload, -⟩ := safe_startLoad order dirOrder hclean.recoverable
  rw [hcommitted] at hload
  exact ⟨_, hload⟩

/-- The service on a new database, without plugins, where every save succeeds. -/
def plain : Logic.Surroundings := ⟨false, fun _ => false, .saved⟩

theorem startLoad_installed :
  startLoad installedDigest .sorted .sorted ⟨installed, Storage.initial⟩
    = .loading Storage.initial (postLoadCleanup .sorted .sorted Storage.initial false)
  := by
  have hguard : backupGuardExists installed = false := by decide
  have hholds : Holds installedDigest (fun base => installed.read (base ++ suffix false))
      Storage.initial := by
    simpa [suffix] using holds_installed
  have hread := hholds.readBuckets storable_initial.wellNamed storable_initial.hasDefault .sorted
  simp only [startLoad, hguard, hread]
  rfl

/-- The default policy is changed on a new database. -/
theorem startLoad_allowed :
  ∃ σ todo, Serves installedDigest WellNamed Request.Separated σ ∧ σ.saved = true
    ∧ σ.buckets.default? defaultPolicyBucketId = some ⟨ALLOW, ofString "m"⟩
    ∧ startLoad installedDigest .sorted .sorted σ.disk = .loading σ.buckets todo
  := by
  have hrecoverable : Recoverable installedDigest ⟨installed, Storage.initial⟩ :=
    ⟨storable_initial.sound, Or.inl ⟨by decide, holds_installed⟩⟩
  obtain ⟨isBackupValid, hload, hsafe⟩ := safe_startLoad .sorted .sorted hrecoverable
  obtain ⟨disk, hcleaned, -, hclean⟩ := hsafe.completes
  have hstart : Serves installedDigest WellNamed Request.Separated
      ⟨Storage.initial, disk, false⟩ :=
    .start hload hcleaned storable_initial.wellNamed
  let request : Request := .insertOrUpdateBucket defaultPolicyBucketId ⟨ALLOW, ofString "m"⟩
  let s := (Storage.addOrUpdateBucket Storage.initial defaultPolicyBucketId
    ⟨ALLOW, ofString "m"⟩).state
  have hrequest : request.Separated := ⟨List.not_mem_nil, by decide⟩
  have hexecuted : Logic.execute plain 0 Storage.initial request = some (some .OK, s) := by decide
  have hdefault : s.default? defaultPolicyBucketId = some ⟨ALLOW, ofString "m"⟩ := by decide
  have hstorable := Logic.execute_storable hexecuted hrequest storable_initial
  obtain ⟨disk', hsaved, -⟩ :=
    (safe_save hstorable ⟨.sorted, fun _ => .sorted⟩ hclean).completes
  have hserves := hstart.request hrequest hexecuted hsaved
  obtain ⟨todo, htodo⟩ := startLoad_of_serves hserves rfl .sorted .sorted
  exact ⟨_, todo, hserves, rfl, hdefault, htodo⟩

/-- With a newline in the metadata of the default policy, the part after it is read as a
record of its own, which has no separator. -/
theorem startLoad_newline :
  ∃ σ, Serves installedDigest (fun _ => True) (fun _ => True) σ ∧ σ.saved = true
    ∧ (readBuckets installedDigest σ.disk.dir.read .sorted
        (backupGuardExists σ.disk.dir)).thrown = some .database
    ∧ startLoad installedDigest .sorted .sorted σ.disk = .failed
  := by
  let request : Request :=
    .insertOrUpdateBucket defaultPolicyBucketId ⟨ALLOW, recordSeparator :: ofString "m"⟩
  let s := (Storage.addOrUpdateBucket Storage.initial defaultPolicyBucketId
    ⟨ALLOW, recordSeparator :: ofString "m"⟩).state
  have hexecuted : Logic.execute plain 0 Storage.initial request = some (some .OK, s) := by decide
  have hrun : (Crash.run exec 1 (postLoadCleanup .sorted .sorted Storage.initial false)
      ⟨installed, Storage.initial⟩).any (fun disk =>
        (Crash.run exec 40 (save installedDigest ⟨.sorted, fun _ => .sorted⟩ s) disk).any
          fun disk' => (readBuckets installedDigest disk'.dir.read .sorted
            (backupGuardExists disk'.dir)).thrown == some .database) = true := by
    decide +kernel
  obtain ⟨disk, hcleaned, hrun⟩ := (Option.any_eq_true _ _).mp hrun
  obtain ⟨disk', hsaved, hthrown⟩ := (Option.any_eq_true _ _).mp hrun
  have hstart : Serves installedDigest (fun _ => True) (fun _ => True)
      ⟨Storage.initial, disk, false⟩ :=
    .start startLoad_installed (Crash.completes_of_run hcleaned) trivial
  have hserves := hstart.request trivial hexecuted (Crash.completes_of_run hsaved)
  have hthrown := beq_iff_eq.mp hthrown
  refine ⟨_, hserves, rfl, hthrown, ?_⟩
  simp only [startLoad, hthrown]

end Cynara
