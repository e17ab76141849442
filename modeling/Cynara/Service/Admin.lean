import Cynara.Storage.Erase

/-!
# Requests of the administrator

The service changes its storage on four requests: to set policies, to insert or update a
bucket, to remove a bucket, and to erase policies.  Each of them is carried out on the
buckets in memory, then the buckets are saved and the clients disconnected.  An exception
on the way is turned into the code of the answer; what was done before it stays done.

A request that is answered with another code than `OK` should leave the buckets as they
were.  This is so exactly under the condition `Request.Harmless`.
-/

open Std

namespace Cynara

open PredefinedPolicyType InMemoryStorageBackend

/-- `CodeResponse::Code`. -/
inductive Code where
  | OK
  | NO_BUCKET
  | NO_POLICY_TYPE
  | NOT_ALLOWED
  | FAILED
  | DB_CORRUPTED
deriving DecidableEq

/-- The exceptions that reach the handlers of requests: those of the storage, the
`DatabaseException`s of a save, a policy type that nothing is registered for, and any
other. -/
inductive ServiceException where
  | storage (e : StorageException)
  | database
  | unknownPolicyType (policyType : PolicyType)
  | other
deriving DecidableEq

/-- How a save of the buckets to the database ends. -/
inductive Save where
  | saved
  | databaseException
  | otherException
deriving DecidableEq

/-- The requests that change the storage. -/
inductive Request where
  | setPolicies (policiesToBeInsertedOrUpdated : ExtTreeMap PolicyBucketId (List Policy))
      (policiesToBeRemoved : ExtTreeMap PolicyBucketId (List PolicyKey))
  | insertOrUpdateBucket (bucketId : PolicyBucketId) (result : PolicyResult)
  | removeBucket (bucketId : PolicyBucketId)
  | erase (startBucket : PolicyBucketId) (recursive : Bool) (filter : PolicyKey)

namespace Logic

/-- What the handlers of requests depend on: whether the database was found corrupted,
which policy types have a plugin, and how the next save ends. -/
structure Surroundings where
  dbCorrupted : Bool
  hasPlugin : PolicyType → Bool
  save : Save

variable (env : Surroundings)

/-! ### The handlers -/

/-- The exception for a policy type that is neither one of the allowed special types nor
predefined nor handled by a plugin. -/
def checkSinglePolicyType (policyType : PolicyType) (allowBucket allowNone : Bool) :
    Option ServiceException :=
  if allowBucket && policyType == BUCKET then none
  else if allowNone && policyType == NONE then none
  else if predefinedPolicyDescr.any fun descr => descr.type == policyType then none
  else if env.hasPlugin policyType then none
  else some (.unknownPolicyType policyType)

/-- The exception for the first policy whose type is not accepted, if there is one. -/
def checkPoliciesTypes (policies : ExtTreeMap PolicyBucketId (List Policy))
    (allowBucket allowNone : Bool) : Option ServiceException :=
  policies.toList.findSome? fun group =>
    group.2.findSome? fun policy =>
      checkSinglePolicyType env policy.result.policyType allowBucket allowNone

/-- The buckets are saved; the clients are then disconnected and the plugins
invalidated. -/
def onPoliciesChanged (s : Buckets) : Outcome ServiceException Buckets :=
  match env.save with
  | .saved => .returned s
  | .databaseException => .threw .database s
  | .otherException => .threw .other s

/-- The types are checked first; then policies are inserted, and then others removed. -/
def setPolicies (inserted : ExtTreeMap PolicyBucketId (List Policy))
    (removed : ExtTreeMap PolicyBucketId (List PolicyKey)) (s : Buckets) :
    Outcome ServiceException Buckets :=
  (Outcome.raise (checkPoliciesTypes env inserted true false) s)
    |>.andThen (fun s => (Storage.insertPolicies s inserted).mapThrown .storage)
    |>.andThen (fun s => (Storage.deletePolicies s removed).mapThrown .storage)
    |>.andThen (onPoliciesChanged env)

/-- A bucket may forward to another one, and may have no default policy. -/
def insertOrUpdateBucket (bucketId : PolicyBucketId) (result : PolicyResult) (s : Buckets) :
    Outcome ServiceException Buckets :=
  (Outcome.raise (checkSinglePolicyType env result.policyType true true) s)
    |>.andThen (fun s => (Storage.addOrUpdateBucket s bucketId result).mapThrown .storage)
    |>.andThen (onPoliciesChanged env)

/-- The bucket and all links to it are removed. -/
def removeBucket (bucketId : PolicyBucketId) (s : Buckets) : Outcome ServiceException Buckets :=
  ((Storage.deleteBucket s bucketId).mapThrown .storage).andThen (onPoliciesChanged env)

/-- The policies that match a filter are erased, in one bucket or along the links too. -/
def erase (fuel : ℕ) (startBucket : PolicyBucketId) (recursive : Bool) (filter : PolicyKey)
    (s : Buckets) : Option (Outcome ServiceException Buckets) :=
  (Storage.erasePolicies fuel s startBucket recursive filter).map fun o =>
    (o.mapThrown .storage).andThen (onPoliciesChanged env)

/-- The code for an exception, where the handler of the request catches it. -/
def catches : Request → ServiceException → Option Code
  | _, .database => some .FAILED
  | .setPolicies _ _, .storage (.bucketNotExists _) => some .NO_BUCKET
  | .setPolicies _ _, .unknownPolicyType _ => some .NO_POLICY_TYPE
  | .insertOrUpdateBucket _ _, .storage .defaultBucketSetNone => some .NOT_ALLOWED
  | .insertOrUpdateBucket _ _, .storage (.invalidBucketId _) => some .NOT_ALLOWED
  | .insertOrUpdateBucket _ _, .unknownPolicyType _ => some .NO_POLICY_TYPE
  | .removeBucket _, .storage (.bucketNotExists _) => some .NO_BUCKET
  | .removeBucket _, .storage .defaultBucketDeletion => some .NOT_ALLOWED
  | .erase _ _ _, .storage (.bucketNotExists _) => some .NO_BUCKET
  | _, _ => none

/-- The work that a request asks for. -/
def perform (fuel : ℕ) (s : Buckets) : Request → Option (Outcome ServiceException Buckets)
  | .setPolicies inserted removed => some (setPolicies env inserted removed s)
  | .insertOrUpdateBucket bucketId result => some (insertOrUpdateBucket env bucketId result s)
  | .removeBucket bucketId => some (removeBucket env bucketId s)
  | .erase startBucket recursive filter => erase env fuel startBucket recursive filter s

/-- A request is executed: the code of the answer, `none` if an exception escapes, and the
buckets afterwards. -/
def execute (fuel : ℕ) (s : Buckets) (request : Request) : Option (Option Code × Buckets) :=
  if env.dbCorrupted then
    some (some .DB_CORRUPTED, s)
  else
    (perform env fuel s request).map fun o =>
      match o.thrown with
      | none => (some .OK, o.state)
      | some e => (catches request e, o.state)

/-! ### Requests that change nothing unless they succeed -/

/-- A request that is answered with another code than `OK` leaves the buckets as they were:
either it is refused before anything is done, or it is carried out to its end and saved, or
the part of it that is carried out changes nothing. -/
def Harmless (s : Buckets) : Request → Prop
  | .setPolicies inserted removed =>
      checkPoliciesTypes env inserted true false ≠ none
      ∨ Storage.checkGroups s inserted.toList ≠ none
      ∨ (∀ e ∈ Storage.entries removed, hasBucket s e.1 = true) ∧ env.save = .saved
      ∨ ∀ id key,
          (if (id, key) ∈ Storage.deletable s (Storage.entries removed) then none
            else (Storage.inserted (Storage.entries inserted) id key).or (s.lookup id key))
          = s.lookup id key
  | .insertOrUpdateBucket bucketId result =>
      checkSinglePolicyType env result.policyType true true ≠ none
      ∨ Storage.bucketRefused s bucketId result = true
      ∨ env.save = .saved
      ∨ s.default? bucketId = some result
  | .removeBucket bucketId =>
      bucketId = defaultPolicyBucketId
      ∨ hasBucket s bucketId = true ∧ env.save = .saved
      ∨ hasBucket s bucketId = false ∧ ∀ x, ¬ s.Link x bucketId
  | .erase startBucket recursive filter =>
      let start : ExtTreeSet PolicyBucketId := ExtTreeSet.ofList [startBucket]
      (∀ x, Storage.Reach s recursive start x → hasBucket s x = true) ∧ env.save = .saved
      ∨ (∀ x b, Storage.Reach s recursive start x → s.find? x = some b →
          ¬ Storage.Matches filter b)
      ∨ Storage.StopsQuietly s recursive filter start

theorem onPoliciesChanged_state (s : Buckets) :
  (onPoliciesChanged env s).state = s
  := by
  unfold onPoliciesChanged
  split <;> rfl

/-- The save changes no bucket. -/
theorem state_andThen_onPoliciesChanged (env : Surroundings)
    (o : Outcome ServiceException Buckets) :
  (o.andThen (onPoliciesChanged env)).state = o.state
  := by
  cases h : o.thrown with
  | some e => rw [Outcome.andThen_of_thrown h]
  | none => rw [Outcome.andThen_of_returned h, onPoliciesChanged_state]

theorem onPoliciesChanged_thrown (s : Buckets) :
  (onPoliciesChanged env s).thrown = none ↔ env.save = .saved
  := by
  unfold onPoliciesChanged
  split <;> simp_all

/-- The work of a request ends with the save, which changes no bucket. -/
theorem andThen_onPoliciesChanged (o : Outcome ServiceException Buckets) (s : Buckets) :
  (o.andThen (onPoliciesChanged env)).thrown = none
      ∨ (o.andThen (onPoliciesChanged env)).state = s
    ↔ o.thrown = none ∧ env.save = .saved ∨ o.state = s
  := by
  cases h : o.thrown with
  | some e =>
      rw [Outcome.andThen_of_thrown h, h]
      simp
  | none =>
      rw [Outcome.andThen_of_returned h, onPoliciesChanged_thrown, onPoliciesChanged_state]
      simp

variable {env} {s : Buckets}

/-- A request with an unknown policy type or a missing bucket is refused as a whole. -/
theorem setPolicies_refused (env : Surroundings)
    {inserted : ExtTreeMap PolicyBucketId (List Policy)}
    (removed : ExtTreeMap PolicyBucketId (List PolicyKey))
    (h : checkPoliciesTypes env inserted true false ≠ none
      ∨ Storage.checkGroups s inserted.toList ≠ none) :
  ∃ e, setPolicies env inserted removed s = .threw e s
  := by
  cases htypes : checkPoliciesTypes env inserted true false with
  | some e =>
      use e
      rw [setPolicies, htypes]
      rfl
  | none =>
      obtain ⟨e, hgroups⟩ := Option.ne_none_iff_exists'.mp (h.resolve_left (by simp [htypes]))
      use .storage e
      rw [setPolicies, htypes, Outcome.andThen_of_returned (o := Outcome.raise none s) rfl,
        Outcome.raise_state, Storage.insertPolicies_refused hgroups]
      rfl

/-- What the insertions and deletions of an accepted request leave, before the save. -/
theorem setPolicies_accepted {inserted : ExtTreeMap PolicyBucketId (List Policy)}
    (removed : ExtTreeMap PolicyBucketId (List PolicyKey))
    (htypes : checkPoliciesTypes env inserted true false = none)
    (hgroups : Storage.checkGroups s inserted.toList = none) :
  ∃ o : Outcome ServiceException Buckets,
    setPolicies env inserted removed s = o.andThen (onPoliciesChanged env)
    ∧ (o.thrown = none ↔ ∀ e ∈ Storage.entries removed, hasBucket s e.1 = true)
    ∧ o.state.SameBuckets s
    ∧ ∀ id key, o.state.lookup id key
        = if (id, key) ∈ Storage.deletable s (Storage.entries removed) then none
          else (Storage.inserted (Storage.entries inserted) id key).or (s.lookup id key)
  := by
  obtain ⟨hthrown, hsame, hlookup⟩ := Storage.insertPolicies_accepted hgroups
  obtain ⟨hreturned, -, hsame', hlookup'⟩ :=
    Storage.deletePolicies_spec (Storage.insertPolicies s inserted).state removed
  have hdeletable : Storage.deletable (Storage.insertPolicies s inserted).state
      (Storage.entries removed) = Storage.deletable s (Storage.entries removed) := by
    simp only [Storage.deletable, hsame.hasBucket_eq]
  refine ⟨(Storage.deletePolicies (Storage.insertPolicies s inserted).state removed).mapThrown
    .storage, ?_, ?_, hsame'.trans hsame, ?_⟩
  · rw [setPolicies, htypes, Outcome.andThen_of_returned (o := Outcome.raise none s) rfl,
      Outcome.raise_state, Outcome.andThen_of_returned
        (o := (Storage.insertPolicies s inserted).mapThrown ServiceException.storage)
        (by simp [hthrown])]
    rfl
  · simp only [Outcome.mapThrown_thrown, Option.map_eq_none_iff, hreturned, hsame.hasBucket_eq]
  · intro id key
    rw [Outcome.mapThrown_state, hlookup', hdeletable, hlookup]

/-- Exactly the harmless requests are executed as a whole or not at all. -/
theorem setPolicies_harmless (inserted : ExtTreeMap PolicyBucketId (List Policy))
    (removed : ExtTreeMap PolicyBucketId (List PolicyKey)) :
  (setPolicies env inserted removed s).thrown = none
      ∨ (setPolicies env inserted removed s).state = s
    ↔ Harmless env s (.setPolicies inserted removed)
  := by
  cases htypes : checkPoliciesTypes env inserted true false with
  | some e =>
      obtain ⟨e', hrefused⟩ :=
        setPolicies_refused (s := s) env removed (Or.inl (htypes ▸ Option.some_ne_none e))
      simp [hrefused, Harmless, htypes]
  | none =>
      cases hgroups : Storage.checkGroups s inserted.toList with
      | some e =>
          obtain ⟨e', hrefused⟩ :=
            setPolicies_refused (s := s) env removed (Or.inr (hgroups ▸ Option.some_ne_none e))
          simp [hrefused, Harmless, hgroups]
      | none =>
          obtain ⟨o, heq, hreturned, hsame, hlookup⟩ := setPolicies_accepted removed htypes hgroups
          rw [heq, andThen_onPoliciesChanged, hreturned]
          simp only [Harmless, htypes, hgroups, ne_eq, not_true_eq_false, false_or, ← hlookup]
          apply or_congr_right
          constructor
          · intro hstate id key
            rw [hstate]
          · intro hstate
            apply Buckets.ext_lookup hsame hstate

/-- A bucket is put in place of another one without a change exactly when its default policy
is the one it had. -/
theorem put_setDefaultPolicy_eq_self {id : PolicyBucketId} {b : PolicyBucket}
    (hb : s.find? id = some b) (d : PolicyResult) :
  s.put (b.setDefaultPolicy d) = s ↔ s.default? id = some d
  := by
  have hid : (b.setDefaultPolicy d).id = id := Buckets.id_of_find? (b := b) hb
  have hdefault : s.default? id = some b.defaultPolicy := by rw [Buckets.default?, hb]; rfl
  constructor
  · intro h
    rw [← h, Buckets.default?_put, if_pos hid]
    rfl
  · intro h
    apply Buckets.ext_lookup
    · intro id'
      rw [Buckets.default?_put, hid]
      split
      · rename_i heq
        rw [← heq, h]
        rfl
      · rfl
    · intro id' key
      rw [Buckets.lookup_put, hid]
      split
      · rename_i heq
        rw [← heq, Buckets.lookup, hb]
        rfl
      · rfl

theorem insertOrUpdateBucket_harmless (bucketId : PolicyBucketId) (result : PolicyResult) :
  (insertOrUpdateBucket env bucketId result s).thrown = none
      ∨ (insertOrUpdateBucket env bucketId result s).state = s
    ↔ Harmless env s (.insertOrUpdateBucket bucketId result)
  := by
  rw [insertOrUpdateBucket, andThen_onPoliciesChanged]
  cases htypes : checkSinglePolicyType env result.policyType true true with
  | some e =>
      rw [Outcome.andThen_of_thrown (e := e) rfl]
      simp [Harmless, htypes]
  | none =>
      rw [Outcome.andThen_of_returned (o := Outcome.raise none s) rfl, Outcome.raise_state]
      obtain ⟨hrefused, e, h, -⟩ | ⟨hrefused, ⟨b, hb, h⟩ | ⟨hid, hbucket, h⟩⟩ :=
        Storage.addOrUpdateBucket_cases s bucketId result
      · simp [h, Harmless, hrefused]
      · simp [h, Harmless, htypes, hrefused, put_setDefaultPolicy_eq_self hb]
      · -- a bucket that was not there is there now
        have hdefault : s.default? bucketId ≠ some result := by
          intro hsome
          rw [Buckets.hasBucket_eq_default?, hsome] at hbucket
          contradiction
        have hnew : s.put (PolicyBucket.empty bucketId result hid) ≠ s := by
          intro heq
          apply hdefault
          rw [← heq, Buckets.default?_put]
          exact if_pos rfl
        simp [h, Harmless, htypes, hrefused, hdefault, hnew]

/-- Deleting the policies that link to a bucket changes nothing exactly when there are
none. -/
theorem deleteLinking_eq_self {id : PolicyBucketId} :
  deleteLinking s id = s ↔ ∀ x, ¬ s.Link x id
  := by
  constructor
  · intro h x
    rw [← h]
    apply Storage.not_link_deleteLinking
  · intro h
    apply Buckets.ext_lookup (Storage.sameBuckets_deleteLinking s id)
    intro x key
    rw [Storage.lookup_deleteLinking]
    cases hp : s.lookup x key with
    | none => rfl
    | some p =>
        have hmatches : bucketIdMatches id p = false := by
          rw [← Bool.not_eq_true]
          intro hmatches
          simp only [bucketIdMatches, Bool.and_eq_true, beq_iff_eq] at hmatches
          apply h x
          apply Buckets.link_iff_lookup.mpr
          use key, p, hp, hmatches.1, hmatches.2
        simp [hmatches]

theorem removeBucket_harmless (bucketId : PolicyBucketId) :
  (removeBucket env bucketId s).thrown = none ∨ (removeBucket env bucketId s).state = s
    ↔ Harmless env s (.removeBucket bucketId)
  := by
  rw [removeBucket, andThen_onPoliciesChanged]
  obtain ⟨hid, h⟩ | ⟨hid, hbucket, h⟩ | ⟨hid, hbucket, h⟩ := Storage.deleteBucket_cases s bucketId
  · rw [h]
    simp [Harmless, hid]
  · simp [h, Harmless, hid, hbucket, deleteLinking_eq_self]
  · -- the bucket is gone
    have hgone : (deleteLinking s bucketId).remove bucketId ≠ s := by
      intro heq
      rw [← heq, hasBucket, Buckets.find?_remove, if_pos rfl] at hbucket
      contradiction
    simp [h, Harmless, hid, hbucket, hgone]

/-- Exactly the harmless erasures are executed as a whole or not at all. -/
theorem erase_harmless {fuel : ℕ} {startBucket : PolicyBucketId} {recursive : Bool}
    {filter : PolicyKey} {o : Outcome ServiceException Buckets}
    (h : erase env fuel startBucket recursive filter s = some o) :
  o.thrown = none ∨ o.state = s ↔ Harmless env s (.erase startBucket recursive filter)
  := by
  obtain ⟨o', ho', rfl⟩ := Option.map_eq_some_iff.mp h
  rw [andThen_onPoliciesChanged, Outcome.mapThrown_state, Outcome.mapThrown_thrown,
    Option.map_eq_none_iff]
  cases hthrown : o'.thrown with
  | none =>
      have hreach := fun x hx => (Storage.eraseLoop_returned ho' hthrown (x := x) hx).1
      have hstops :
          ¬ Storage.StopsQuietly s recursive filter (ExtTreeSet.ofList [startBucket]) := by
        intro hstops
        obtain ⟨x, hx, hmissing⟩ := hstops.reach
        rw [hreach x hx] at hmissing
        contradiction
      rw [Storage.eraseLoop_returned_unchanged ho' hthrown]
      simp only [Harmless, true_and, hstops, or_false]
      apply or_congr_left
      exact (and_iff_right hreach).symm
  | some e =>
      obtain ⟨id, -, hreach, hmissing⟩ := Storage.eraseLoop_thrown ho' hthrown
      have hall : ¬ ∀ x, Storage.Reach s recursive (ExtTreeSet.ofList [startBucket]) x →
          hasBucket s x = true := by
        intro hall
        have hbucket := hall id hreach
        rw [hasBucket, hmissing] at hbucket
        contradiction
      have hstate := Storage.eraseLoop_thrown_unchanged ho' (by rw [hthrown]; simp)
      simp only [Harmless, hall, false_and, false_or, reduceCtorEq]
      rw [← hstate]
      constructor
      · intro heq
        exact Or.inr heq
      · rintro (hquiet | heq)
        · apply Storage.eraseLoop_unchanged ho' hquiet
        · exact heq

/-- No exception is answered with `OK`. -/
theorem catches_ne_ok (request : Request) (e : ServiceException) :
  catches request e ≠ some .OK
  := by
  unfold catches
  split <;> simp

/-- A request that is answered with another code than `OK` leaves the buckets as they were,
exactly when it is harmless. -/
theorem execute_rejected_unchanged_iff {fuel : ℕ} {request : Request} {code : Code}
    {s' : Buckets} (hintact : env.dbCorrupted = false)
    (h : execute env fuel s request = some (some code, s')) :
  (code ≠ .OK → s' = s) ↔ Harmless env s request
  := by
  simp only [execute, hintact, Bool.false_eq_true, ↓reduceIte, Option.map_eq_some_iff] at h
  obtain ⟨o, ho, hanswer⟩ := h
  have hcode : (code ≠ .OK → s' = s) ↔ o.thrown = none ∨ o.state = s := by
    cases hthrown : o.thrown with
    | none =>
        simp only [hthrown, Prod.mk.injEq, Option.some.injEq] at hanswer
        simp [← hanswer.1]
    | some e =>
        simp only [hthrown, Prod.mk.injEq] at hanswer
        obtain ⟨hcatches, rfl⟩ := hanswer
        have hne : code ≠ .OK := by
          rintro rfl
          exact catches_ne_ok request e hcatches
        simp [hne]
  rw [hcode]
  cases request with
  | setPolicies inserted removed =>
      obtain rfl := Option.some.inj ho
      apply setPolicies_harmless
  | insertOrUpdateBucket bucketId result =>
      obtain rfl := Option.some.inj ho
      apply insertOrUpdateBucket_harmless
  | removeBucket bucketId =>
      obtain rfl := Option.some.inj ho
      apply removeBucket_harmless
  | erase startBucket recursive filter =>
      apply erase_harmless ho

/-- The surroundings of a service with an intact database, no plugins and a disk that can be
written. -/
def calm : Surroundings := ⟨false, fun _ => false, .saved⟩

/-- Removing a bucket that nothing links to and that does not exist is answered with
`NO_BUCKET` and changes nothing. -/
theorem removeBucket_missing_unchanged :
  execute calm 0 Storage.initial (.removeBucket (Str.ofString "missing"))
      = some (some .NO_BUCKET, Storage.initial)
    ∧ Harmless calm Storage.initial (.removeBucket (Str.ofString "missing"))
  := by
  have h : execute calm 0 Storage.initial (.removeBucket (Str.ofString "missing"))
      = some (some .NO_BUCKET, Storage.initial) := by decide
  exact ⟨h, (execute_rejected_unchanged_iff rfl h).mp fun _ => rfl⟩

/-- The request to allow a key in the default bucket. -/
def allowKey : ExtTreeMap PolicyBucketId (List Policy) :=
  (∅ : ExtTreeMap PolicyBucketId (List Policy)).insert defaultPolicyBucketId
    [⟨⟨[], [], []⟩, ⟨ALLOW, []⟩⟩]

/-- The request to remove a key from a bucket. -/
def removeKey (bucketId : PolicyBucketId) : ExtTreeMap PolicyBucketId (List PolicyKey) :=
  (∅ : ExtTreeMap PolicyBucketId (List PolicyKey)).insert bucketId [⟨[], [], []⟩]

/-- A request that allows a key in the default bucket and removes it from a bucket that does
not exist is answered with `NO_BUCKET`, and the key is allowed from then on. -/
theorem setPolicies_rejected_changed :
  ∃ s', execute calm 0 Storage.initial
        (.setPolicies allowKey (removeKey (Str.ofString "missing")))
      = some (some .NO_BUCKET, s')
    ∧ s' ≠ Storage.initial
    ∧ Storage.checkPolicy 1 .sorted Storage.initial ⟨[], [], []⟩ defaultPolicyBucketId true
      = some (.ok ⟨DENY, []⟩)
    ∧ Storage.checkPolicy 1 .sorted s' ⟨[], [], []⟩ defaultPolicyBucketId true
      = some (.ok ⟨ALLOW, []⟩)
  := by
  use (Storage.insertPolicies Storage.initial allowKey).state
  decide

end Logic

end Cynara
