import Cynara.Service.DefaultPolicy
import Cynara.Storage.Check

/-!
# What a check depends on

A check looks at the default policies of the buckets that it visits and, among their policies, at
those whose keys cover the key of the check.  So requests that touch nothing there leave its
result as it was, however many of them there are, and whatever they are answered with.

A policy of type `DENY` that a check looks at decides the check.  So a request that inserts such
policies decides the checks that look at one of them, and leaves all the others as they were.
-/

open Std

namespace Cynara

open PredefinedPolicyType InMemoryStorageBackend

/-! ### The buckets that a check visits -/

namespace Buckets

/-- A check goes from a bucket to another one by a policy of type `BUCKET` that covers its key. -/
def Follows (s : Buckets) (key : PolicyKey) (x y : PolicyBucketId) : Prop :=
  ∃ k p, k.Covers key ∧ s.lookup x k = some p
    ∧ p.result.policyType = BUCKET ∧ p.result.metadata = y

/-- The buckets that a check visits. -/
def Visits (s : Buckets) (key : PolicyKey) (recursive : Bool) (start x : PolicyBucketId) : Prop :=
  if recursive then Relation.ReflTransGen (s.Follows key) start x else x = start

/-- A check of a key finds the same in a bucket of two storages. -/
def AgreeAt (s t : Buckets) (key : PolicyKey) (x : PolicyBucketId) : Prop :=
  s.default? x = t.default? x ∧ ∀ k, k.Covers key → s.lookup x k = t.lookup x k

variable {s t u : Buckets} {key : PolicyKey} {recursive : Bool} {start x y : PolicyBucketId}

theorem Follows.link (h : s.Follows key x y) :
  s.Link x y
  := by
  obtain ⟨k, p, -, hp, htype, rfl⟩ := h
  exact link_iff_lookup.mpr ⟨k, p, hp, htype, rfl⟩

theorem visits_start (s : Buckets) (key : PolicyKey) (recursive : Bool) (start : PolicyBucketId) :
  s.Visits key recursive start start
  := by
  cases recursive with
  | false => exact rfl
  | true => exact .refl

/-- What is visited from a bucket that is followed to is visited. -/
theorem Visits.of_follows (hxy : s.Follows key start x) (h : s.Visits key true x y) :
  s.Visits key true start y
  := Relation.ReflTransGen.head hxy h

theorem AgreeAt.symm (h : s.AgreeAt t key x) :
  t.AgreeAt s key x
  := ⟨h.1.symm, fun k hk => (h.2 k hk).symm⟩

theorem AgreeAt.trans (h : s.AgreeAt t key x) (h' : t.AgreeAt u key x) :
  s.AgreeAt u key x
  := ⟨h.1.trans h'.1, fun k hk => (h.2 k hk).trans (h'.2 k hk)⟩

theorem AgreeAt.follows (h : s.AgreeAt t key x) (hxy : s.Follows key x y) :
  t.Follows key x y
  := by
  obtain ⟨k, p, hk, hp, hlink⟩ := hxy
  exact ⟨k, p, hk, (h.2 k hk).symm.trans hp, hlink⟩

/-- Where two storages agree on all that is visited in one of them, the same is visited in the
other one. -/
theorem Visits.of_agreeAt (h : ∀ x, s.Visits key recursive start x → s.AgreeAt t key x)
    (hx : t.Visits key recursive start x) :
  s.Visits key recursive start x
  := by
  cases recursive with
  | false => exact hx
  | true =>
      induction hx with
      | refl => exact .refl
      | tail _ hyz ih => exact .tail ih ((h _ ih).symm.follows hyz)

end Buckets

/-! ### Checks of storages that agree -/

namespace Storage

variable {s t : Buckets} {key : PolicyKey} {recursive : Bool} {start : PolicyBucketId}

/-- The loop over policies asks only for the buckets that they link to. -/
theorem minimalLoop_congr {sub sub' : PolicyBucketId → Check} {policies : List Policy}
    (h : recursive = true → ∀ p ∈ policies, p.result.policyType = BUCKET →
      sub p.result.metadata = sub' p.result.metadata)
    (hasMinimal : Bool) (minimal : PolicyResult) :
  minimalLoop sub recursive policies hasMinimal minimal
    = minimalLoop sub' recursive policies hasMinimal minimal
  := by
  induction policies generalizing hasMinimal minimal with
  | nil => rfl
  | cons p policies ih =>
      have hrest := ih fun hrec q hq => h hrec q (List.mem_cons_of_mem p hq)
      unfold minimalLoop
      by_cases hdeny : p.result.policyType = DENY
      · rw [if_pos hdeny, if_pos hdeny]
      rw [if_neg hdeny, if_neg hdeny]
      by_cases hbucket : p.result.policyType = BUCKET
      · rw [if_pos hbucket, if_pos hbucket]
        cases recursive with
        | false => exact hrest hasMinimal minimal
        | true =>
            simp only [if_true, h rfl p List.mem_cons_self hbucket, hrest]
      · rw [if_neg hbucket, if_neg hbucket]
        exact hrest true _

/-- Buckets in which a check finds the same are filtered alike. -/
theorem searchBucket_congr (h : s.AgreeAt t key start) :
  searchBucket s start key = searchBucket t start key
  := by
  obtain ⟨hdefault, hlookup⟩ := h
  unfold searchBucket
  cases hb : s.find? start with
  | none =>
      rw [Buckets.default?, hb] at hdefault
      rw [Option.map_eq_none_iff.mp hdefault.symm]
  | some b =>
      rw [Buckets.default?, hb] at hdefault
      obtain ⟨c, hc, hdefault⟩ := Option.map_eq_some_iff.mp hdefault.symm
      rw [hc]
      have hid : b.id = c.id := (Buckets.id_of_find? hb).trans (Buckets.id_of_find? hc).symm
      have hmem : ∀ p, p ∈ b.filtered key ↔ p ∈ c.filtered key := by
        intro p
        rw [PolicyBucket.mem_filtered, PolicyBucket.mem_filtered]
        refine and_congr_left fun hcovers => ?_
        have hp := hlookup p.key hcovers
        simp only [Buckets.lookup, hb, hc, Option.bind_some] at hp
        rw [PolicyBucket.mem_def, PolicyBucket.mem_def, hp]
      have hfiltered : b.filtered key = c.filtered key := by
        apply PolicyBucket.ext_getElem?
        · simp only [PolicyBucket.filtered, hid]
        · exact hdefault.symm
        · intro k
          ext p
          constructor
          · intro hp
            rw [(b.filtered key).glued k p hp]
            exact (hmem p).mp (PolicyBucket.mem_of_getElem? hp)
          · intro hp
            rw [(c.filtered key).glued k p hp]
            exact (hmem p).mpr (PolicyBucket.mem_of_getElem? hp)
      exact congrArg Except.ok hfiltered

/-- A check depends only on what it finds in the buckets that it visits.  This holds with any
fuel, so also where the links have cycles or lead nowhere. -/
theorem checkPolicy_congr (order : IterationOrder Str)
    (h : ∀ x, s.Visits key recursive start x → s.AgreeAt t key x) (fuel : ℕ) :
  checkPolicy fuel order s key start recursive = checkPolicy fuel order t key start recursive
  := by
  induction fuel generalizing start recursive with
  | zero =>
      simp only [checkPolicy, searchBucket_congr (h start (s.visits_start key recursive start)),
        minimalPolicy]
  | succ fuel ih =>
      have hsearch := searchBucket_congr (h start (s.visits_start key recursive start))
      cases hb : s.find? start with
      | none =>
          have herror : searchBucket s start key = .error (.bucketNotExists start) := by
            simp only [searchBucket, hb]
          rw [checkPolicy, checkPolicy, ← hsearch, herror]
      | some b =>
          have hfound : searchBucket s start key = .ok (b.filtered key) := by
            simp only [searchBucket, hb]
          simp only [checkPolicy, ← hsearch, hfound, minimalPolicy]
          apply minimalLoop_congr
          rintro rfl p hp htype
          obtain ⟨hp, hcovers⟩ := PolicyBucket.mem_filtered.mp (mem_listing.mp hp)
          have hfollows : s.Follows key start p.result.metadata :=
            ⟨p.key, p, hcovers, Buckets.lookup_eq_some.mpr ⟨b, hb, hp, rfl⟩, htype, rfl⟩
          exact ih fun x hx => h x (hx.of_follows hfollows)

/-! ### What an erase leaves alone -/

/-- An erase leaves the policies that do not match its filter, and those in buckets that it does
not reach. -/
theorem lookup_eraseLoop {filter : PolicyKey} {fuel : ℕ} {ids : ExtTreeSet PolicyBucketId}
    {o : Outcome StorageException Buckets} {x : PolicyBucketId} {k : PolicyKey}
    (h : eraseLoop recursive filter fuel ids s = some o)
    (hkept : ¬ (Reach s recursive ids x ∧ k.matchFilter filter = true)) :
  o.state.lookup x k = s.lookup x k
  := by
  induction fuel generalizing ids s with
  | zero => contradiction
  | succ fuel ih =>
      obtain ⟨-, rfl⟩ | ⟨id, -, -, rfl⟩ | ⟨id, b, hmin, hb, h⟩ := eraseLoop_cases h
      · rfl
      · rfl
      · have hid : id ∈ ids := ExtTreeSet.min?_mem hmin
        rw [ih h fun hreach => hkept ⟨hreach.1.of_nextIds filter hid hb, hreach.2⟩,
          eraseAt, lookup_put_deletePolicyIf hb]
        split
        · rename_i hx
          have hmatch : k.matchFilter filter = false := by
            rw [← Bool.not_eq_true]
            exact fun hmatch => hkept ⟨hx ▸ .of_mem hid, hmatch⟩
          cases hp : s.lookup x k with
          | none => rfl
          | some p => simp [Buckets.key_of_lookup hp, hmatch]
        · rfl

theorem lookup_addOrUpdateBucket (s : Buckets) (id x : PolicyBucketId) (d : PolicyResult)
    (k : PolicyKey) :
  (addOrUpdateBucket s id d).state.lookup x k = s.lookup x k
  := by
  obtain ⟨-, e, h, -⟩ | ⟨-, ⟨b, hb, h⟩ | ⟨hid, hbucket, h⟩⟩ := addOrUpdateBucket_cases s id d
  · rw [h, Outcome.threw_state]
  · rw [h, Outcome.returned_state, Buckets.lookup_put]
    split
    · rename_i hx
      obtain rfl : id = x := (Buckets.id_of_find? (b := b) hb).symm.trans hx
      rw [Buckets.lookup, hb]
      rfl
    · rfl
  · rw [h, Outcome.returned_state, Buckets.lookup_put]
    split
    · rename_i hx
      obtain rfl : id = x := hx
      have hnone : s.find? id = none := by simpa [hasBucket] using hbucket
      rw [Buckets.lookup, hnone]
      simp [PolicyBucket.empty]
    · rfl

end Storage

/-! ### What a request may change -/

namespace Request

/-- The buckets whose default policies a request sets or removes. -/
def Redefines : Request → PolicyBucketId → Prop
  | .insertOrUpdateBucket bucketId _, x => x = bucketId
  | .removeBucket bucketId, x => x = bucketId
  | _, _ => False

/-- The policies that a request inserts, replaces or removes. -/
def Touches (s : Buckets) : Request → PolicyBucketId → PolicyKey → Prop
  | .setPolicies inserted removed, x, k =>
      (∃ p, (x, p) ∈ Storage.entries inserted ∧ p.key = k) ∨ (x, k) ∈ Storage.entries removed
  | .insertOrUpdateBucket _ _, _, _ => False
  | .removeBucket bucketId, x, k =>
      x = bucketId ∨ ∃ p, s.lookup x k = some p ∧ bucketIdMatches bucketId p = true
  | .erase startBucket recursive filter, x, k =>
      Storage.Reach s recursive (ExtTreeSet.ofList [startBucket]) x ∧ k.matchFilter filter = true

/-- A request concerns a check if it may change what the check finds. -/
def Concerns (s : Buckets) (key : PolicyKey) (recursive : Bool) (start : PolicyBucketId)
    (request : Request) : Prop :=
  ∃ x, s.Visits key recursive start x ∧
    (request.Redefines x ∨ ∃ k, k.Covers key ∧ request.Touches s x k)

end Request

namespace Logic

variable {env : Surroundings} {fuel : ℕ} {s t : Buckets} {request : Request} {x : PolicyBucketId}
  {o : Outcome ServiceException Buckets}

theorem default?_of_not_redefines (h : perform env fuel s request = some o)
    (hx : ¬ request.Redefines x) :
  o.state.default? x = s.default? x
  := by
  cases request with
  | setPolicies inserted removed =>
      obtain rfl := Option.some.inj h
      rcases state_setPolicies env s inserted removed with heq | ⟨-, hsame, -⟩
      · rw [heq]
      · exact hsame x
  | insertOrUpdateBucket bucketId result =>
      obtain rfl := Option.some.inj h
      rw [default?_insertOrUpdateBucket, if_neg]
      rintro ⟨rfl, -⟩
      exact hx rfl
  | removeBucket bucketId =>
      obtain rfl := Option.some.inj h
      rw [removeBucket, state_andThen_onPoliciesChanged, Outcome.mapThrown_state]
      have hlinking := Storage.sameBuckets_deleteLinking s bucketId x
      obtain ⟨-, heq⟩ | ⟨-, -, heq⟩ | ⟨-, -, heq⟩ := Storage.deleteBucket_cases s bucketId
      · rw [heq, Outcome.threw_state]
      · rw [heq, Outcome.threw_state, hlinking]
      · rw [heq, Outcome.returned_state, Buckets.default?, Buckets.find?_remove,
          if_neg (fun hid => hx hid.symm)]
        exact hlinking
  | erase startBucket recursive filter =>
      obtain ⟨o', ho', rfl⟩ := Option.map_eq_some_iff.mp h
      rw [state_andThen_onPoliciesChanged, Outcome.mapThrown_state]
      exact (Storage.eraseLoop_within ho').1 x

theorem lookup_setPolicies_of_not_touches {inserted : ExtTreeMap PolicyBucketId (List Policy)}
    {removed : ExtTreeMap PolicyBucketId (List PolicyKey)} {k : PolicyKey}
    (hk : ¬ (Request.setPolicies inserted removed).Touches s x k) :
  (setPolicies env inserted removed s).state.lookup x k = s.lookup x k
  := by
  by_cases hrefused : checkPoliciesTypes env inserted true false ≠ none
      ∨ Storage.checkGroups s inserted.toList ≠ none
  · obtain ⟨e, heq⟩ := setPolicies_refused env removed hrefused
    rw [heq, Outcome.threw_state]
  · simp only [not_or, not_not] at hrefused
    obtain ⟨o, heq, -, -, hlookup⟩ := setPolicies_accepted removed hrefused.1 hrefused.2
    have hremoved : (x, k) ∉ Storage.deletable s (Storage.entries removed) := fun hmem =>
      hk (Or.inr ((List.takeWhile_sublist _).mem hmem))
    have hinserted : Storage.inserted (Storage.entries inserted) x k = none := by
      rw [Option.eq_none_iff_forall_ne_some]
      intro p hp
      exact hk (Or.inl ⟨p, Storage.mem_of_inserted hp⟩)
    rw [heq, state_andThen_onPoliciesChanged, hlookup, if_neg hremoved, hinserted, Option.none_or]

theorem lookup_deleteLinking_of_not_matches {bucketId : PolicyBucketId} {k : PolicyKey}
    (hk : ¬ ∃ p, s.lookup x k = some p ∧ bucketIdMatches bucketId p = true) :
  (deleteLinking s bucketId).lookup x k = s.lookup x k
  := by
  rw [Storage.lookup_deleteLinking]
  cases hp : s.lookup x k with
  | none => rfl
  | some p =>
      have hmatches : bucketIdMatches bucketId p = false := by
        rw [← Bool.not_eq_true]
        exact fun hmatches => hk ⟨p, hp, hmatches⟩
      simp [hmatches]

/-- A policy that a request does not touch stays as it was. -/
theorem lookup_of_not_touches (h : perform env fuel s request = some o) {k : PolicyKey}
    (hk : ¬ request.Touches s x k) :
  o.state.lookup x k = s.lookup x k
  := by
  cases request with
  | setPolicies inserted removed =>
      obtain rfl := Option.some.inj h
      exact lookup_setPolicies_of_not_touches hk
  | insertOrUpdateBucket bucketId result =>
      obtain rfl := Option.some.inj h
      rw [state_insertOrUpdateBucket]
      split
      · exact Storage.lookup_addOrUpdateBucket s bucketId x result k
      · rfl
  | removeBucket bucketId =>
      obtain rfl := Option.some.inj h
      rw [removeBucket, state_andThen_onPoliciesChanged, Outcome.mapThrown_state]
      have hlinking := lookup_deleteLinking_of_not_matches fun hp => hk (Or.inr hp)
      obtain ⟨-, heq⟩ | ⟨-, -, heq⟩ | ⟨-, -, heq⟩ := Storage.deleteBucket_cases s bucketId
      · rw [heq, Outcome.threw_state]
      · rw [heq, Outcome.threw_state, hlinking]
      · rw [heq, Outcome.returned_state, Storage.lookup_remove,
          if_neg (fun hid => hk (Or.inl hid.symm)), hlinking]
  | erase startBucket recursive filter =>
      obtain ⟨o', ho', rfl⟩ := Option.map_eq_some_iff.mp h
      rw [state_andThen_onPoliciesChanged, Outcome.mapThrown_state]
      exact Storage.lookup_eraseLoop ho' hk

variable {key : PolicyKey} {recursive : Bool} {start : PolicyBucketId} {call : Call}

/-- A request that does not concern a check leaves what the check finds, in every bucket that it
visits. -/
theorem agreeAt_step (h : step s call = some t)
    (hconcerns : ¬ call.request.Concerns s key recursive start)
    (hx : s.Visits key recursive start x) :
  s.AgreeAt t key x
  := by
  obtain ⟨-, rfl⟩ | ⟨-, o, ho, rfl⟩ := step_cases h
  · exact ⟨rfl, fun _ _ => rfl⟩
  · constructor
    · exact (default?_of_not_redefines ho fun hr => hconcerns ⟨x, hx, Or.inl hr⟩).symm
    · intro k hk
      exact (lookup_of_not_touches ho fun ht => hconcerns ⟨x, hx, Or.inr ⟨k, hk, ht⟩⟩).symm

/-- Requests that do not concern a check, one after another and whatever they are answered with,
leave it as it was, in whatever order the policies are traversed. -/
theorem checkPolicy_of_unconcerned
    (h : Runs.Reaches step (fun s call => ¬ call.request.Concerns s key recursive start) s t)
    (order : IterationOrder Str) (fuel : ℕ) :
  Storage.checkPolicy fuel order t key start recursive
    = Storage.checkPolicy fuel order s key start recursive
  := by
  have hagree : ∀ x, s.Visits key recursive start x → s.AgreeAt t key x := by
    apply h.invariant (P := fun t => ∀ x, s.Visits key recursive start x → s.AgreeAt t key x)
    · exact fun x _ => ⟨rfl, fun _ _ => rfl⟩
    · intro u call u' hagree hconcerns hstep x hx
      -- what is visited is the same all along
      have hvisits : ∀ y, u.Visits key recursive start y → s.Visits key recursive start y :=
        fun y hy => .of_agreeAt hagree hy
      have hback : ∀ y, u.Visits key recursive start y → u.AgreeAt s key y :=
        fun y hy => (hagree y (hvisits y hy)).symm
      exact (hagree x hx).trans (agreeAt_step hstep hconcerns (.of_agreeAt hback hx))
  exact (Storage.checkPolicy_congr order hagree fuel).symm

/-- The request to deny a key in a bucket. -/
def denyKey (bucketId : PolicyBucketId) (key : PolicyKey) :
    ExtTreeMap PolicyBucketId (List Policy) :=
  (∅ : ExtTreeMap PolicyBucketId (List Policy)).insert bucketId [⟨key, ⟨DENY, []⟩⟩]

theorem mem_entries_denyKey {bucketId : PolicyBucketId} {k : PolicyKey} {p : Policy} :
  (x, p) ∈ Storage.entries (denyKey bucketId k) ↔ x = bucketId ∧ p = ⟨k, ⟨DENY, []⟩⟩
  := by
  rw [Storage.mem_entries]
  simp only [denyKey, Prod.exists, ExtTreeMap.mem_toList_iff_getElem?_eq_some,
    ExtTreeMap.getElem?_insert, Std.compare_eq_iff_eq]
  constructor
  · rintro ⟨id, ps, hps, rfl, hp⟩
    split at hps
    · rename_i hid
      obtain rfl := Option.some.inj hps
      exact ⟨hid.symm, List.mem_singleton.mp hp⟩
    · simp at hps
  · rintro ⟨rfl, rfl⟩
    exact ⟨x, _, if_pos rfl, rfl, List.mem_singleton_self _⟩

/-- Another client is denied in the bucket that a check goes to. -/
theorem checkPolicy_other_client :
  ∃ t, step Storage.forwarding
      ⟨calm, 0, .setPolicies (denyKey (Str.ofString "target") ⟨[97], [], []⟩) ∅⟩ = some t
    ∧ t ≠ Storage.forwarding
    ∧ Storage.checkPolicy 2 .sorted t ⟨[], [], []⟩ defaultPolicyBucketId true
      = Storage.checkPolicy 2 .sorted Storage.forwarding ⟨[], [], []⟩ defaultPolicyBucketId true
  := by
  let t := (Storage.insertPolicies Storage.forwarding
    (denyKey (Str.ofString "target") ⟨[97], [], []⟩)).state
  have hstep : step Storage.forwarding
      ⟨calm, 0, .setPolicies (denyKey (Str.ofString "target") ⟨[97], [], []⟩) ∅⟩ = some t := by
    decide
  refine ⟨t, hstep, by decide, checkPolicy_of_unconcerned (.next .start ?_ hstep) .sorted 2⟩
  rintro ⟨x, -, hredefines | ⟨k, hk, ⟨p, hp, rfl⟩ | hremoved⟩⟩
  · exact hredefines
  · obtain ⟨-, rfl⟩ := mem_entries_denyKey.mp hp
    obtain ⟨hclient | hclient, -⟩ := hk
    · cases hclient
    · exact absurd hclient (by decide)
  · rw [Storage.mem_entries] at hremoved
    simp at hremoved

end Logic

/-! ### Policies of type `DENY` -/

namespace Storage

variable {s : Buckets} {key : PolicyKey} {recursive : Bool} {x y : PolicyBucketId}
  {order : IterationOrder Str} {r : PolicyResult}

/-- Nothing is less than `DENY`. -/
theorem Least.deny {cs : List PolicyResult} {c d : PolicyResult} (h : Least cs d r) (hc : c ∈ cs)
    (hdeny : c.policyType = DENY) :
  r.policyType = DENY
  := by
  obtain ⟨rfl, -⟩ | ⟨-, hle⟩ := h
  · contradiction
  · exact UInt16.le_antisymm (hdeny ▸ hle c hc) UInt16.zero_le

/-- A policy that covers the key and proposes `DENY` decides the bucket that holds it. -/
theorem Settles.deny {result : PolicyBucketId → PolicyResult}
    (hr : Settles order s key recursive x r)
    (hresult : ∀ y, s.Link x y → Settles order s key true y (result y)) {k : PolicyKey}
    (hk : k.Covers key) {p : Policy} (hp : s.lookup x k = some p) {c : PolicyResult}
    (hc : proposal result recursive p = some c) (hdeny : c.policyType = DENY) :
  r.policyType = DENY
  := by
  obtain ⟨b, hb, hmem, rfl⟩ := Buckets.lookup_eq_some.mp hp
  obtain ⟨r', hr', hleast⟩ : ∃ r', Settles order s key recursive x r' ∧
      Least ((listing order (b.filtered key)).filterMap (proposal result recursive))
        b.defaultPolicy r' := settles_step hb hresult
  rw [hr.unique hr']
  apply hleast.deny _ hdeny
  rw [List.mem_filterMap]
  exact ⟨p, mem_listing.mpr (PolicyBucket.mem_filtered.mpr ⟨hmem, hk⟩), hc⟩

/-- A policy of type `DENY` decides the check. -/
theorem Settles.deny_of_lookup (hr : Settles order s key recursive x r)
    (hdangling : s.NoDangling) (hacyclic : s.Acyclic) {k : PolicyKey} {p : Policy}
    (hk : k.Covers key) (hp : s.lookup x k = some p) (hdeny : p.result.policyType = DENY) :
  r.policyType = DENY
  := by
  obtain ⟨result, hresult⟩ := exists_settles_linked hdangling hacyclic order key x
  apply hr.deny hresult hk hp _ hdeny
  simp [proposal, hdeny, Ne.symm BUCKET_ne_DENY]

/-- A bucket that is decided by `DENY` decides the buckets from which a check goes to it. -/
theorem Settles.deny_of_follows {r' : PolicyResult} (hr : Settles order s key true x r)
    (hdangling : s.NoDangling) (hacyclic : s.Acyclic) (hxy : s.Follows key x y)
    (hr' : Settles order s key true y r') (hdeny : r'.policyType = DENY) :
  r.policyType = DENY
  := by
  obtain ⟨result, hresult⟩ := exists_settles_linked hdangling hacyclic order key x
  obtain rfl := (hresult y hxy.link).unique hr'
  obtain ⟨k, p, hk, hp, htype, rfl⟩ := hxy
  apply hr.deny hresult hk hp _ hdeny
  simp [proposal, htype, PolicyResult.eqType, hdeny, DENY, NONE]

/-- A key for which a policy is inserted has a policy afterwards, one of the inserted ones. -/
theorem exists_inserted {es : List (PolicyBucketId × Policy)} {p : Policy} (h : (x, p) ∈ es) :
  ∃ q, inserted es x p.key = some q ∧ (x, q) ∈ es
  := by
  have hsome : (inserted es x p.key).isSome = true := by
    rw [inserted, Option.isSome_map, List.find?_isSome]
    exact ⟨(x, p), List.mem_reverse.mpr h, by simp⟩
  obtain ⟨q, hq⟩ := Option.isSome_iff_exists.mp hsome
  exact ⟨q, hq, (mem_of_inserted hq).1⟩

end Storage

namespace Logic

open Storage

variable {env : Surroundings} {fuel : ℕ} {s t : Buckets} {key : PolicyKey} {recursive : Bool}
  {x start : PolicyBucketId} {order : IterationOrder Str}
  {inserted : ExtTreeMap PolicyBucketId (List Policy)}

/-- The buckets after a request to insert policies that is answered with `OK`. -/
theorem execute_insertions (h : execute env fuel s (.setPolicies inserted ∅) = some (some .OK, t)) :
  t.SameBuckets s ∧ ∀ id k, t.lookup id k
    = (Storage.inserted (entries inserted) id k).or (s.lookup id k)
  := by
  unfold execute at h
  split at h
  · cases h
  simp only [perform, Option.map_some, Option.some.injEq] at h
  have hreturned : (setPolicies env inserted ∅ s).thrown = none
      ∧ (setPolicies env inserted ∅ s).state = t := by
    split at h
    · rename_i hthrown
      exact ⟨hthrown, congrArg Prod.snd h⟩
    · exact absurd (congrArg Prod.fst h) (catches_ne_ok _ _)
  obtain ⟨hthrown, rfl⟩ := hreturned
  by_cases hrefused : checkPoliciesTypes env inserted true false ≠ none
      ∨ checkGroups s inserted.toList ≠ none
  · obtain ⟨e, heq⟩ := setPolicies_refused env ∅ hrefused
    rw [heq] at hthrown
    cases hthrown
  · simp only [not_or, not_not] at hrefused
    obtain ⟨o, heq, -, hsame, hlookup⟩ := setPolicies_accepted ∅ hrefused.1 hrefused.2
    rw [heq, state_andThen_onPoliciesChanged]
    refine ⟨hsame, fun id k => ?_⟩
    have hnone : entries (∅ : ExtTreeMap PolicyBucketId (List PolicyKey)) = [] := by
      simp [entries]
    rw [hlookup, hnone]
    rfl

variable (hdeny : ∀ (id : PolicyBucketId) (p : Policy), (id, p) ∈ entries inserted →
    p.result.policyType = DENY)
  (hsame : t.SameBuckets s)
  (hlookup : ∀ id k, t.lookup id k
    = (Storage.inserted (entries inserted) id k).or (s.lookup id k))

include hdeny hlookup in
/-- Policies of type `DENY` make no links. -/
theorem link_of_denies {y : PolicyBucketId} (h : t.Link x y) :
  s.Link x y
  := by
  obtain ⟨k, p, hp, htype, rfl⟩ := Buckets.link_iff_lookup.mp h
  apply Buckets.link_iff_lookup.mpr
  rw [hlookup] at hp
  obtain hp | ⟨-, hp⟩ := Option.or_eq_some_iff.mp hp
  · rw [hdeny x p (mem_of_inserted hp).1] at htype
    exact absurd htype.symm BUCKET_ne_DENY
  · exact ⟨k, p, hp, htype, rfl⟩

include hdeny hlookup in
theorem acyclic_of_denies (h : s.Acyclic) :
  t.Acyclic
  := Relation.Acyclic.mono h fun _ _ => link_of_denies hdeny hlookup

include hdeny hsame hlookup in
theorem noDangling_of_denies (h : s.NoDangling) :
  t.NoDangling
  := by
  intro x y hxy
  have hy : hasBucket s y = true := hasBucket_iff.mpr (h x y (link_of_denies hdeny hlookup hxy))
  rw [← hsame.hasBucket_eq] at hy
  exact hasBucket_iff.mp hy

include hdeny hsame hlookup in
/-- A bucket in which a policy is inserted decides the checks that visited it before.  On the way
to it a link may have been replaced, but only by a policy of type `DENY`. -/
theorem deny_of_visits (hdangling : s.NoDangling) (hacyclic : s.Acyclic) {p : Policy}
    (hp : (x, p) ∈ entries inserted) (hcovers : p.key.Covers key)
    (hvisits : s.Visits key recursive start x) {r : PolicyResult}
    (hr : Settles order t key recursive start r) :
  r.policyType = DENY
  := by
  have htdangling := noDangling_of_denies hdeny hsame hlookup hdangling
  have htacyclic := acyclic_of_denies hdeny hlookup hacyclic
  have hinserted : ∀ {id k q r recursive}, Storage.inserted (entries inserted) id k = some q →
      k.Covers key → Settles order t key recursive id r → r.policyType = DENY := by
    intro id k q r recursive hq hk hr
    apply hr.deny_of_lookup htdangling htacyclic hk
    · rw [hlookup, hq, Option.some_or]
    · exact hdeny id q (mem_of_inserted hq).1
  obtain ⟨q, hq, -⟩ := exists_inserted hp
  cases recursive with
  | false =>
      obtain rfl : x = start := hvisits
      exact hinserted hq hcovers hr
  | true =>
      induction hvisits using Relation.ReflTransGen.head_induction_on generalizing r with
      | refl => exact hinserted hq hcovers hr
      | @head y _ hyz _ ih =>
          obtain ⟨k, p', hk, hp', htype, rfl⟩ := hyz
          cases hreplaced : Storage.inserted (entries inserted) y k with
          | some q' => exact hinserted hreplaced hk hr
          | none =>
              have hkept : t.lookup y k = some p' := by rw [hlookup, hreplaced, hp', Option.none_or]
              have hfollows : t.Follows key y p'.result.metadata := ⟨k, p', hk, hkept, htype, rfl⟩
              obtain ⟨b, hb⟩ := htdangling _ _ hfollows.link
              obtain ⟨r', hr'⟩ := settles_of_acyclic htdangling htacyclic order key hb
              exact hr.deny_of_follows htdangling htacyclic hfollows hr' (ih hr')

include hsame hlookup in
/-- A check that does not look at the inserted policies finds the same as before. -/
theorem agreeAt_of_unseen
    (hunseen : ¬ ∃ x p, (x, p) ∈ entries inserted ∧ p.key.Covers key ∧
      s.Visits key recursive start x) (hx : s.Visits key recursive start x) :
  s.AgreeAt t key x
  := by
  refine ⟨(hsame x).symm, fun k hk => ?_⟩
  have hnone : Storage.inserted (entries inserted) x k = none := by
    rw [Option.eq_none_iff_forall_ne_some]
    intro p hp
    obtain ⟨hmem, rfl⟩ := mem_of_inserted hp
    exact hunseen ⟨x, p, hmem, hk, hx⟩
  rw [hlookup, hnone, Option.none_or]

/-- Inserting policies of type `DENY` decides the checks that look at one of them, and leaves the
result of every other check as it was. -/
theorem settles_of_denies (hdangling : s.NoDangling) (hacyclic : s.Acyclic)
    (hstart : hasBucket s start = true)
    (hdeny : ∀ (id : PolicyBucketId) (p : Policy), (id, p) ∈ entries inserted →
      p.result.policyType = DENY)
    (h : execute env fuel s (.setPolicies inserted ∅) = some (some .OK, t))
    (order : IterationOrder Str) (key : PolicyKey) (recursive : Bool) :
  ∃ r r', Settles order s key recursive start r ∧ Settles order t key recursive start r' ∧
    ((∃ x p, (x, p) ∈ entries inserted ∧ p.key.Covers key ∧ s.Visits key recursive start x) →
      r'.policyType = DENY) ∧
    (¬ (∃ x p, (x, p) ∈ entries inserted ∧ p.key.Covers key ∧ s.Visits key recursive start x) →
      r' = r)
  := by
  obtain ⟨hsame, hlookup⟩ := execute_insertions h
  have settles : ∀ {u : Buckets}, u.NoDangling → u.Acyclic → hasBucket u start = true →
      ∃ r, Settles order u key recursive start r := by
    intro u hdangling hacyclic hstart
    obtain ⟨b, hb⟩ := hasBucket_iff.mp hstart
    obtain ⟨result, hresult⟩ := exists_settles_linked hdangling hacyclic order key start
    obtain ⟨r, hr, -⟩ : ∃ r, Settles order u key recursive start r ∧ _ := settles_step hb hresult
    exact ⟨r, hr⟩
  obtain ⟨r, hr⟩ := settles hdangling hacyclic hstart
  obtain ⟨r', hr'⟩ := settles (noDangling_of_denies hdeny hsame hlookup hdangling)
    (acyclic_of_denies hdeny hlookup hacyclic) ((hsame.hasBucket_eq start).trans hstart)
  refine ⟨r, r', hr, hr', ?_, fun hunseen => ?_⟩
  · rintro ⟨x, p, hp, hcovers, hvisits⟩
    exact deny_of_visits hdeny hsame hlookup hdangling hacyclic hp hcovers hvisits hr'
  · have hcongr := checkPolicy_congr order fun x hx => agreeAt_of_unseen hsame hlookup hunseen hx
    obtain ⟨n, hn⟩ := hr
    apply hr'.unique
    exact ⟨n, fun fuel hfuel => (hcongr fuel).symm.trans (hn fuel hfuel)⟩

/-- A key is denied in the bucket that a check goes to. -/
theorem settles_denied :
  ∃ t r, execute calm 0 forwarding
        (.setPolicies (denyKey (Str.ofString "target") ⟨[], [], []⟩) ∅) = some (some .OK, t)
    ∧ Settles .sorted t ⟨[], [], []⟩ true defaultPolicyBucketId r ∧ r.policyType = DENY
  := by
  let t := (Storage.insertPolicies forwarding
    (denyKey (Str.ofString "target") ⟨[], [], []⟩)).state
  have hexecute : execute calm 0 forwarding
      (.setPolicies (denyKey (Str.ofString "target") ⟨[], [], []⟩) ∅) = some (some .OK, t) := by
    decide
  obtain ⟨_, r', -, hr', hdenied, -⟩ := settles_of_denies
    forwarding_checkable.noDangling forwarding_checkable.acyclic
    (show hasBucket forwarding defaultPolicyBucketId = true by decide)
    (fun id p hp => by rw [(mem_entries_denyKey.mp hp).2]) hexecute .sorted
    ⟨[], [], []⟩ true
  refine ⟨t, r', hexecute, hr', hdenied ?_⟩
  refine ⟨Str.ofString "target", _, mem_entries_denyKey.mpr ⟨rfl, rfl⟩,
    ⟨Or.inl rfl, Or.inl rfl, Or.inl rfl⟩, ?_⟩
  apply Relation.ReflTransGen.single
  let all : PolicyKey :=
    ⟨PolicyKeyFeature.wildcardValue, PolicyKeyFeature.wildcardValue,
      PolicyKeyFeature.wildcardValue⟩
  exact ⟨all, ⟨all, ⟨BUCKET, Str.ofString "target"⟩⟩, ⟨Or.inr rfl, Or.inr rfl, Or.inr rfl⟩,
    by decide, rfl, rfl⟩

end Logic

end Cynara
