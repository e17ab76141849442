import Cynara.Storage.Termination

/-!
# Consistency of the storage

The storage starts with the default bucket only.  However its operations end, they keep the
default bucket, and no policy of type `BUCKET` names a bucket that does not exist.  So an
operation that starts at an existing bucket finds all the buckets it follows links to.
-/

open Std

namespace Cynara

open PredefinedPolicyType InMemoryStorageBackend

namespace Storage

variable {s : Buckets}

/-! ### The default bucket -/

/-- Whatever an operation comes to, a default bucket that was there stays. -/
theorem Operation.perform_hasDefault {op : Operation} {fuel : ℕ}
    {o : Outcome StorageException Buckets} (h : op.perform fuel s = some o)
    (hs : hasBucket s defaultPolicyBucketId = true) :
  hasBucket o.state defaultPolicyBucketId = true
  := by
  cases op with
  | insertPolicies groups =>
      obtain rfl := Option.some.inj h
      cases hcheck : checkGroups s groups.toList with
      | some e =>
          rw [insertPolicies_refused hcheck]
          exact hs
      | none =>
          rw [(insertPolicies_accepted hcheck).2.1.hasBucket_eq]
          exact hs
  | deletePolicies groups =>
      obtain rfl := Option.some.inj h
      rw [(deletePolicies_spec s groups).2.2.1.hasBucket_eq]
      exact hs
  | addOrUpdateBucket id d =>
      obtain rfl := Option.some.inj h
      apply addOrUpdateBucket_hasBucket s id d hs
  | deleteBucket id =>
      obtain rfl := Option.some.inj h
      have hlinking : hasBucket (deleteLinking s id) defaultPolicyBucketId = true := by
        rw [(sameBuckets_deleteLinking s id).hasBucket_eq]
        exact hs
      obtain ⟨-, heq⟩ | ⟨-, -, heq⟩ | ⟨hid, -, heq⟩ := deleteBucket_cases s id
      · rw [heq]
        exact hs
      · rw [heq]
        exact hlinking
      · rw [heq, Outcome.returned_state, hasBucket, Buckets.find?_remove, if_neg hid]
        exact hlinking
  | erasePolicies id recursive filter =>
      rw [(eraseLoop_within h).1.hasBucket_eq]
      exact hs

/-! ### Operations that follow links -/

/-- The search for the least result throws only where the search in a linked bucket does. -/
theorem minimalLoop_ne_error {sub : PolicyBucketId → Check} {recursive : Bool}
    {policies : List Policy}
    (hsub : ∀ p ∈ policies, p.result.policyType = BUCKET →
      ∀ e, sub p.result.metadata ≠ some (.error e))
    (hasMinimal : Bool) (minimal : PolicyResult) (e : StorageException) :
  minimalLoop sub recursive policies hasMinimal minimal ≠ some (.error e)
  := by
  induction policies generalizing hasMinimal minimal with
  | nil => simp [minimalLoop]
  | cons p policies ih =>
      have hrest := fun q hq => hsub q (List.mem_cons_of_mem p hq)
      unfold minimalLoop
      split
      · simp
      · split
        · rename_i htype
          split
          · have hp := hsub p List.mem_cons_self htype
            split
            · split
              · apply ih hrest
              · apply ih hrest
            · apply hp
          · apply ih hrest
        · apply ih hrest

/-- Where no link is dangling, a check that starts in an existing bucket throws nothing. -/
theorem minimalPolicy_ne_error (hs : s.NoDangling) (order : IterationOrder Str) (key : PolicyKey)
    (fuel : ℕ) {id : PolicyBucketId} {b : PolicyBucket} (hb : s.find? id = some b)
    (recursive : Bool) (e : StorageException) :
  minimalPolicy order s key fuel (b.filtered key) recursive ≠ some (.error e)
  := by
  induction fuel generalizing id b recursive e with
  | zero => simp [minimalPolicy]
  | succ fuel ih =>
      unfold minimalPolicy
      apply minimalLoop_ne_error
      intro p hp htype e
      obtain ⟨hp, -⟩ := PolicyBucket.mem_filtered.mp (mem_listing.mp hp)
      obtain ⟨c, hc⟩ := hs id _ (Buckets.link_of_mem hb hp htype)
      simp only [searchBucket, hc]
      apply ih hc

/-- Without dangling links a check meets no missing bucket. -/
theorem checkPolicy_ne_error (hs : s.NoDangling) {id : PolicyBucketId}
    (hid : hasBucket s id = true) (fuel : ℕ) (order : IterationOrder Str) (key : PolicyKey)
    (recursive : Bool) (e : StorageException) :
  checkPolicy fuel order s key id recursive ≠ some (.error e)
  := by
  obtain ⟨b, hb⟩ := hasBucket_iff.mp hid
  simp only [checkPolicy, searchBucket, hb]
  apply minimalPolicy_ne_error hs order key fuel hb

/-- What is reached over links that are not dangling exists. -/
theorem Reach.hasBucket (hs : s.NoDangling) {recursive : Bool} {ids : ExtTreeSet PolicyBucketId}
    (hids : ∀ id ∈ ids, InMemoryStorageBackend.hasBucket s id = true) {x : PolicyBucketId}
    (h : Reach s recursive ids x) :
  InMemoryStorageBackend.hasBucket s x = true
  := by
  cases recursive with
  | false => apply hids x h
  | true =>
      obtain ⟨y, hy, hpath⟩ := h
      induction hpath with
      | refl => apply hids y hy
      | tail _ hlink _ => exact hasBucket_iff.mpr (hs _ _ hlink)

theorem erasePolicies_returned (hs : s.NoDangling) {id : PolicyBucketId}
    (hid : InMemoryStorageBackend.hasBucket s id = true) {fuel : ℕ} {recursive : Bool}
    {filter : PolicyKey} {o : Outcome StorageException Buckets}
    (h : erasePolicies fuel s id recursive filter = some o) :
  o.thrown = none
  := by
  cases ho : o.thrown with
  | none => rfl
  | some e =>
      obtain ⟨x, -, hreach, hnone⟩ := eraseLoop_thrown h ho
      have hx : InMemoryStorageBackend.hasBucket s x = true := by
        apply hreach.hasBucket hs
        intro y hy
        obtain rfl : id = y := by simpa using hy
        exact hid
      rw [InMemoryStorageBackend.hasBucket, hnone] at hx
      contradiction

/-! ### Runs -/

/-- The default bucket exists, links lead to existing buckets, buckets and policies are
stored under their own keys, and no operation that starts in an existing bucket finds one
missing. -/
structure Consistent (s : Buckets) : Prop where
  hasDefault : hasBucket s defaultPolicyBucketId = true
  links : ∀ id b, s.find? id = some b → ∀ p ∈ b, p.result.policyType = BUCKET →
    hasBucket s p.result.metadata = true
  ids : ∀ id b, s.find? id = some b → b.id = id
  keys : ∀ id b, s.find? id = some b → ∀ (k : Str) (p : Policy), b.policies[k]? = some p →
    k = p.key.glue
  check : ∀ id, hasBucket s id = true → ∀ fuel order key recursive missing,
    checkPolicy fuel order s key id recursive ≠ some (.error (.bucketNotExists missing))
  list : ∀ id, hasBucket s id = true → ∀ order filter missing,
    listPolicies order s id filter ≠ .error (.bucketNotExists missing)
  erase : ∀ id, hasBucket s id = true → ∀ fuel recursive filter o,
    erasePolicies fuel s id recursive filter = some o →
      ∀ missing, o.thrown ≠ some (.bucketNotExists missing)

theorem consistent_of_noDangling (hs : s.NoDangling)
    (hdefault : hasBucket s defaultPolicyBucketId = true) :
  Consistent s
  where
  hasDefault := hdefault
  links := Buckets.noDangling_iff.mp hs
  ids := s.keyed
  keys _ b _ := b.glued
  check id hid fuel order key recursive _ := checkPolicy_ne_error hs hid fuel order key recursive _
  list id hid order filter missing := by
    obtain ⟨b, hb⟩ := hasBucket_iff.mp hid
    simp [listPolicies, InMemoryStorageBackend.listPolicies, hb]
  erase id hid fuel recursive filter o ho missing := by
    rw [erasePolicies_returned hs hid ho]
    simp

/-- The operations leave no dangling link. -/
theorem Run.noDangling {t : Buckets} {steps : List (Buckets × Operation)} (h : Run s steps t)
    (hs : s.NoDangling) (hdefault : hasBucket s defaultPolicyBucketId = true) :
  t.NoDangling ∧ hasBucket t defaultPolicyBucketId = true
  := by
  induction h with
  | nil s => exact ⟨hs, hdefault⟩
  | cons fuel performed _ ih =>
      apply ih
      · exact Operation.perform_noDangling performed hs
      · exact Operation.perform_hasDefault performed hdefault

/-- A storage that started with the default bucket only is consistent, however the operations
on it have ended. -/
theorem consistent_of_run {t : Buckets} {steps : List (Buckets × Operation)}
    (h : Run initial steps t) :
  Consistent t
  := by
  obtain ⟨hdangling, hdefault⟩ := h.noDangling
    (fun x y hxy => absurd hxy (not_link_initial x y)) (by decide)
  exact consistent_of_noDangling hdangling hdefault

/-- A run in which a bucket is added and linked to, and in which its deletion takes the link
along. -/
theorem consistent_forwarding :
  let target : PolicyBucketId := Str.ofString "target"
  let added := (addOrUpdateBucket initial target ⟨ALLOW, []⟩).state
  let linked := (insertPolicies added (forwardAll target)).state
  let deleted := (deleteBucket linked target).state
  linked.Link defaultPolicyBucketId target ∧ Consistent deleted
  := by
  intro target added linked deleted
  refine ⟨by decide, ?_⟩
  have hrun : Run initial [(initial, .addOrUpdateBucket target ⟨ALLOW, []⟩),
      (added, .insertPolicies (forwardAll target)), (linked, .deleteBucket target)] deleted :=
    .cons 0 rfl (.cons 0 rfl (.cons 0 rfl (.nil deleted)))
  exact consistent_of_run hrun

end Storage

end Cynara
