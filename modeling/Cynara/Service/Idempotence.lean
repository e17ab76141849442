import Cynara.Service.Admin
import Cynara.Storage.Consistency

/-!
# Requests that are delivered twice

An administrator sends a request again when the connection is lost before the answer arrives,
so the service may execute it twice.  On a storage without dangling links and, for a recursive
erase, without a cycle that the erase reaches, the second execution leaves the buckets as they
are, whatever the answers are and however the two saves end.
-/

open Std

namespace Cynara

open PredefinedPolicyType InMemoryStorageBackend

/-- A recursive erase reaches no cycle of links. -/
def Request.CycleFree (s : Buckets) : Request → Prop
  | .erase startBucket true _ =>
      ∀ x, Relation.ReflTransGen s.Link startBucket x → ¬ Relation.TransGen s.Link x x
  | _ => True

namespace Logic

variable {env env' : Surroundings} {s : Buckets}

/-! ### Single requests -/

/-- The policy types depend on the plugins only. -/
theorem checkSinglePolicyType_congr (hplugin : env'.hasPlugin = env.hasPlugin) :
  checkSinglePolicyType env' = checkSinglePolicyType env
  := by
  funext policyType allowBucket allowNone
  simp only [checkSinglePolicyType, hplugin]

theorem checkGroups_congr {t : Buckets} (hsame : t.SameBuckets s)
    (groups : List (PolicyBucketId × List Policy)) :
  Storage.checkGroups t groups = Storage.checkGroups s groups
  := by
  have hpointed : Storage.pointedBucketExists t = Storage.pointedBucketExists s := by
    funext policy
    simp only [Storage.pointedBucketExists, hsame.hasBucket_eq]
  simp only [Storage.checkGroups, hpointed, hsame.hasBucket_eq]

/-- Executing the same insertions and removals again changes nothing. -/
theorem setPolicies_idempotent (hplugin : env'.hasPlugin = env.hasPlugin)
    (inserted : ExtTreeMap PolicyBucketId (List Policy))
    (removed : ExtTreeMap PolicyBucketId (List PolicyKey)) :
  (setPolicies env' inserted removed (setPolicies env inserted removed s).state).state
    = (setPolicies env inserted removed s).state
  := by
  have htypes : checkPoliciesTypes env' inserted true false
      = checkPoliciesTypes env inserted true false := by
    simp only [checkPoliciesTypes, checkSinglePolicyType_congr hplugin]
  by_cases hrefused : checkPoliciesTypes env inserted true false ≠ none
      ∨ Storage.checkGroups s inserted.toList ≠ none
  · obtain ⟨e, heq⟩ := setPolicies_refused env removed hrefused
    rw [← htypes] at hrefused
    obtain ⟨e', heq'⟩ := setPolicies_refused env' removed hrefused
    rw [heq, Outcome.threw_state, heq', Outcome.threw_state]
  · obtain ⟨haccepted, hgroups⟩ := not_or.mp hrefused
    rw [not_not] at haccepted hgroups
    obtain ⟨o, heq, -, hsame, hlookup⟩ := setPolicies_accepted removed haccepted hgroups
    rw [heq, state_andThen_onPoliciesChanged]
    rw [← htypes] at haccepted
    rw [← checkGroups_congr hsame] at hgroups
    obtain ⟨o', heq', -, hsame', hlookup'⟩ := setPolicies_accepted removed haccepted hgroups
    rw [heq', state_andThen_onPoliciesChanged]
    apply Buckets.ext_lookup hsame'
    intro id key
    have hdeletable : Storage.deletable o.state (Storage.entries removed)
        = Storage.deletable s (Storage.entries removed) := by
      simp only [Storage.deletable, hsame.hasBucket_eq]
    rw [hlookup', hdeletable, hlookup]
    split
    · rfl
    · rw [← Option.or_assoc, Option.or_self]

/-- A bucket that has the default policy already is not changed. -/
theorem addOrUpdateBucket_of_default? {bucketId : PolicyBucketId} {result : PolicyResult}
    (h : s.default? bucketId = some result) :
  (Storage.addOrUpdateBucket s bucketId result).state = s
  := by
  obtain ⟨-, e, heq, -⟩ | ⟨-, ⟨b, hb, heq⟩ | ⟨hid, hbucket, -⟩⟩ :=
    Storage.addOrUpdateBucket_cases s bucketId result
  · rw [heq, Outcome.threw_state]
  · rw [heq, Outcome.returned_state]
    exact (put_setDefaultPolicy_eq_self hb result).mpr h
  · rw [Buckets.hasBucket_eq_default?, h] at hbucket
    contradiction

theorem addOrUpdateBucket_idempotent (bucketId : PolicyBucketId) (result : PolicyResult) :
  (Storage.addOrUpdateBucket (Storage.addOrUpdateBucket s bucketId result).state bucketId
      result).state
    = (Storage.addOrUpdateBucket s bucketId result).state
  := by
  obtain ⟨-, e, heq, -⟩ | ⟨-, ⟨b, hb, heq⟩ | ⟨hid, hbucket, heq⟩⟩ :=
    Storage.addOrUpdateBucket_cases s bucketId result
  · rw [heq, Outcome.threw_state, heq, Outcome.threw_state]
  · have hid : (b.setDefaultPolicy result).id = bucketId := Buckets.id_of_find? (b := b) hb
    rw [heq, Outcome.returned_state]
    apply addOrUpdateBucket_of_default?
    rw [Buckets.default?_put, if_pos hid]
    rfl
  · rw [heq, Outcome.returned_state]
    apply addOrUpdateBucket_of_default?
    rw [Buckets.default?_put]
    exact if_pos rfl

theorem insertOrUpdateBucket_idempotent (hplugin : env'.hasPlugin = env.hasPlugin)
    (bucketId : PolicyBucketId) (result : PolicyResult) :
  (insertOrUpdateBucket env' bucketId result
      (insertOrUpdateBucket env bucketId result s).state).state
    = (insertOrUpdateBucket env bucketId result s).state
  := by
  have hstate : ∀ (env : Surroundings) (t : Buckets),
      (insertOrUpdateBucket env bucketId result t).state
        = if (checkSinglePolicyType env result.policyType true true).isSome then t
          else (Storage.addOrUpdateBucket t bucketId result).state := by
    intro env t
    rw [insertOrUpdateBucket, state_andThen_onPoliciesChanged]
    cases checkSinglePolicyType env result.policyType true true with
    | some e => rfl
    | none => rfl
  simp only [hstate, checkSinglePolicyType_congr hplugin]
  split
  · rfl
  · exact addOrUpdateBucket_idempotent bucketId result

/-- A bucket that is not there and that nothing links to is deleted without a change. -/
theorem deleteBucket_of_gone {bucketId : PolicyBucketId} (hbucket : hasBucket s bucketId = false)
    (hlink : ∀ x, ¬ s.Link x bucketId) :
  (Storage.deleteBucket s bucketId).state = s
  := by
  obtain ⟨-, heq⟩ | ⟨-, -, heq⟩ | ⟨-, hbucket', -⟩ := Storage.deleteBucket_cases s bucketId
  · rw [heq, Outcome.threw_state]
  · rw [heq, Outcome.threw_state]
    exact deleteLinking_eq_self.mpr hlink
  · rw [hbucket] at hbucket'
    contradiction

/-- Removing a bucket again changes nothing. -/
theorem removeBucket_idempotent (bucketId : PolicyBucketId) :
  (removeBucket env' bucketId (removeBucket env bucketId s).state).state
    = (removeBucket env bucketId s).state
  := by
  simp only [removeBucket, state_andThen_onPoliciesChanged, Outcome.mapThrown_state]
  obtain ⟨-, heq⟩ | ⟨-, hbucket, heq⟩ | ⟨-, -, heq⟩ := Storage.deleteBucket_cases s bucketId
  · rw [heq, Outcome.threw_state, heq, Outcome.threw_state]
  · rw [heq, Outcome.threw_state]
    apply deleteBucket_of_gone
    · rw [(Storage.sameBuckets_deleteLinking s bucketId).hasBucket_eq, hbucket]
    · exact Storage.not_link_deleteLinking s bucketId
  · rw [heq, Outcome.returned_state]
    apply deleteBucket_of_gone
    · rw [hasBucket, Buckets.find?_remove, if_pos rfl]
      rfl
    · intro x hlink
      exact Storage.not_link_deleteLinking s bucketId x
        ((Storage.remove_within _ bucketId).link hlink)

/-! ### Erases -/

/-- Without a cycle the erasure ends. -/
theorem erasePolicies_terminates {startBucket : PolicyBucketId} {recursive : Bool}
    {filter : PolicyKey} (h : (Request.erase startBucket recursive filter).CycleFree s) :
  ∃ fuel, (Storage.erasePolicies fuel s startBucket recursive filter).isSome
  := by
  apply Storage.eraseLoop_terminates_of_reach
  rintro x rfl ⟨y, hy, hpath⟩
  obtain rfl : startBucket = y := by simpa using hy
  exact h x hpath

/-- No other bucket is reached from one that does not exist. -/
theorem eq_of_reach_missing {startBucket x : PolicyBucketId} {recursive : Bool}
    (hstart : hasBucket s startBucket = false)
    (h : Storage.Reach s recursive (ExtTreeSet.ofList [startBucket]) x) :
  x = startBucket
  := by
  cases recursive with
  | false =>
      obtain rfl : startBucket = x := by simpa [Storage.Reach] using h
      rfl
  | true =>
      obtain ⟨y, hy, hpath⟩ := h
      obtain rfl : startBucket = y := by simpa using hy
      obtain rfl | ⟨z, ⟨b, hb, -⟩, -⟩ := Relation.ReflTransGen.cases_head hpath
      · rfl
      · rw [hasBucket, hb] at hstart
        contradiction

/-- An erase that is repeated erases nothing more.  The first one has been to all buckets that
the second one reaches, unless the first bucket does not exist. -/
theorem erasePolicies_idempotent (hdangling : s.NoDangling) {startBucket : PolicyBucketId}
    {recursive : Bool} {filter : PolicyKey} {fuel fuel' : ℕ}
    {o o' : Outcome StorageException Buckets}
    (h : Storage.erasePolicies fuel s startBucket recursive filter = some o)
    (h' : Storage.erasePolicies fuel' o.state startBucket recursive filter = some o') :
  o'.state = o.state
  := by
  obtain ⟨hsame, hwithin⟩ := Storage.eraseLoop_within h
  apply Storage.eraseLoop_unchanged h'
  rintro x b hreach hb ⟨p, hp, hfilter⟩
  replace hreach := hreach.of_within hwithin
  cases hstart : hasBucket s startBucket with
  | false =>
      obtain rfl := eq_of_reach_missing hstart hreach
      rw [← hsame.hasBucket_eq, hasBucket, hb] at hstart
      contradiction
  | true =>
      have hreturned := Storage.erasePolicies_returned hdangling hstart h
      have hgone := (Storage.eraseLoop_returned h hreturned hreach).2 p.key hfilter
      rw [Buckets.lookup_eq_some.mpr ⟨b, hb, hp, rfl⟩] at hgone
      contradiction

/-! ### All requests -/

theorem perform_terminates (env : Surroundings) {request : Request} (h : request.CycleFree s) :
  ∃ fuel, (perform env fuel s request).isSome
  := by
  cases request with
  | setPolicies inserted removed => exact ⟨0, rfl⟩
  | insertOrUpdateBucket bucketId result => exact ⟨0, rfl⟩
  | removeBucket bucketId => exact ⟨0, rfl⟩
  | erase startBucket recursive filter =>
      obtain ⟨fuel, hfuel⟩ := erasePolicies_terminates h
      use fuel
      rw [perform, erase, Option.isSome_map]
      exact hfuel

/-- The work of a request, done a second time. -/
theorem perform_idempotent (hplugin : env'.hasPlugin = env.hasPlugin) (hdangling : s.NoDangling)
    {request : Request} (hcycle : request.CycleFree s) {fuel : ℕ}
    {o : Outcome ServiceException Buckets} (h : perform env fuel s request = some o) :
  request.CycleFree o.state
    ∧ ∀ fuel' o', perform env' fuel' o.state request = some o' → o'.state = o.state
  := by
  cases request with
  | setPolicies inserted removed =>
      obtain rfl := Option.some.inj h
      refine ⟨trivial, ?_⟩
      rintro fuel' o' h'
      obtain rfl := Option.some.inj h'
      exact setPolicies_idempotent hplugin inserted removed
  | insertOrUpdateBucket bucketId result =>
      obtain rfl := Option.some.inj h
      refine ⟨trivial, ?_⟩
      rintro fuel' o' h'
      obtain rfl := Option.some.inj h'
      exact insertOrUpdateBucket_idempotent hplugin bucketId result
  | removeBucket bucketId =>
      obtain rfl := Option.some.inj h
      refine ⟨trivial, ?_⟩
      rintro fuel' o' h'
      obtain rfl := Option.some.inj h'
      exact removeBucket_idempotent bucketId
  | erase startBucket recursive filter =>
      obtain ⟨erased, herased, rfl⟩ := Option.map_eq_some_iff.mp h
      simp only [state_andThen_onPoliciesChanged, Outcome.mapThrown_state]
      obtain ⟨-, hwithin⟩ := Storage.eraseLoop_within herased
      constructor
      · cases recursive with
        | false => trivial
        | true =>
            intro x hpath hloop
            apply hcycle x (Relation.ReflTransGen.mono (fun _ _ => hwithin.link) _ x hpath)
            exact Relation.TransGen.mono (fun _ _ => hwithin.link) x x hloop
      · intro fuel' o' h'
        obtain ⟨again, hagain, rfl⟩ := Option.map_eq_some_iff.mp h'
        rw [state_andThen_onPoliciesChanged, Outcome.mapThrown_state]
        exact erasePolicies_idempotent hdangling herased hagain

/-- A request that is executed ends with the buckets that its work leaves, or with those that
were there if the database was found corrupted. -/
theorem execute_eq_some {fuel : ℕ} {request : Request} {t : Buckets} :
  (∃ code, execute env fuel s request = some (code, t))
    ↔ env.dbCorrupted = true ∧ t = s
      ∨ env.dbCorrupted = false ∧ ∃ o, perform env fuel s request = some o ∧ o.state = t
  := by
  unfold execute
  cases env.dbCorrupted with
  | true => simp [eq_comm]
  | false =>
      simp only [Bool.false_eq_true, ↓reduceIte, Option.map_eq_some_iff, false_and, true_and,
        false_or]
      constructor
      · rintro ⟨code, o, ho, hanswer⟩
        refine ⟨o, ho, ?_⟩
        split at hanswer
        · exact (Prod.mk.inj hanswer).2
        · exact (Prod.mk.inj hanswer).2
      · rintro ⟨o, ho, rfl⟩
        cases hthrown : o.thrown with
        | none => exact ⟨_, o, ho, by rw [hthrown]⟩
        | some e => exact ⟨_, o, ho, by rw [hthrown]⟩

theorem execute_terminates (env : Surroundings) {request : Request} (h : request.CycleFree s) :
  ∃ fuel code t, execute env fuel s request = some (code, t)
  := by
  obtain ⟨fuel, hfuel⟩ := perform_terminates env h
  obtain ⟨o, ho⟩ := Option.isSome_iff_exists.mp hfuel
  use fuel
  cases hcorrupted : env.dbCorrupted with
  | true =>
      obtain ⟨code, hexecute⟩ := execute_eq_some.mpr (Or.inl ⟨hcorrupted, rfl⟩)
      exact ⟨code, s, hexecute⟩
  | false =>
      obtain ⟨code, hexecute⟩ := execute_eq_some.mpr (Or.inr ⟨hcorrupted, o, ho, rfl⟩)
      exact ⟨code, o.state, hexecute⟩

/-- A request that is executed twice leaves the buckets that it left the first time.  Both
executions come to an end; the saves may end differently. -/
theorem execute_idempotent (env : Surroundings) (save : Save) {s : Buckets} {request : Request}
    (hdangling : s.NoDangling) (hcycle : request.CycleFree s) :
  (∃ fuel code t, execute env fuel s request = some (code, t))
    ∧ ∀ fuel code t, execute env fuel s request = some (code, t) →
      (∃ fuel' code', execute { env with save } fuel' t request = some (code', t))
        ∧ ∀ fuel' code' u, execute { env with save } fuel' t request = some (code', u) → u = t
  := by
  refine ⟨execute_terminates env hcycle, ?_⟩
  intro fuel code t h
  have hagain : request.CycleFree t
      ∧ ∀ fuel' code' u, execute { env with save } fuel' t request = some (code', u) → u = t := by
    obtain ⟨hcorrupted, rfl⟩ | ⟨hintact, o, ho, rfl⟩ := execute_eq_some.mp ⟨code, h⟩
    · refine ⟨hcycle, ?_⟩
      intro fuel' code' u h'
      obtain ⟨-, heq⟩ | ⟨hintact, -⟩ := execute_eq_some.mp ⟨code', h'⟩
      · exact heq
      · rw [show env.dbCorrupted = false from hintact] at hcorrupted
        contradiction
    · have hplugin : ({ env with save } : Surroundings).hasPlugin = env.hasPlugin := rfl
      obtain ⟨hcycle', hsame⟩ := perform_idempotent hplugin hdangling hcycle ho
      refine ⟨hcycle', ?_⟩
      intro fuel' code' u h'
      obtain ⟨hcorrupted, -⟩ | ⟨-, o', ho', rfl⟩ := execute_eq_some.mp ⟨code', h'⟩
      · rw [show env.dbCorrupted = true from hcorrupted] at hintact
        contradiction
      · exact hsame fuel' o' ho'
  obtain ⟨hcycle', hsame⟩ := hagain
  obtain ⟨fuel', code', u, h'⟩ := execute_terminates { env with save } hcycle'
  obtain rfl := hsame fuel' code' u h'
  exact ⟨⟨fuel', code', h'⟩, hsame⟩

/-- The request that is answered with `NO_BUCKET` after it has allowed a key, sent twice. -/
theorem setPolicies_rejected_twice :
  ∃ t, execute calm 0 Storage.initial
        (.setPolicies allowKey (removeKey (Str.ofString "missing")))
      = some (some .NO_BUCKET, t)
    ∧ t ≠ Storage.initial
    ∧ ∀ fuel code u, execute calm fuel t
        (.setPolicies allowKey (removeKey (Str.ofString "missing"))) = some (code, u) → u = t
  := by
  have hdangling : Storage.initial.NoDangling := fun x y hxy =>
    absurd hxy (Storage.not_link_initial x y)
  have hfirst : execute calm 0 Storage.initial
        (.setPolicies allowKey (removeKey (Str.ofString "missing")))
      = some (some .NO_BUCKET, (Storage.insertPolicies Storage.initial allowKey).state) := by
    decide
  refine ⟨_, hfirst, by decide, ?_⟩
  apply ((execute_idempotent calm .saved hdangling _).2 _ _ _ hfirst).2
  exact trivial

end Logic

end Cynara
