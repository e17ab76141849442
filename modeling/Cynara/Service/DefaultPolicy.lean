import Cynara.Library.Runs
import Cynara.Service.Admin

/-!
# The default policy of the default bucket

A check falls back on the default policy of the default bucket, so its type should never be `NONE`.
A request that would set it to `NONE` is refused, but the result of the request is compared with
the type by an operator that holds only if there are no metadata.  So the request is accepted if
its result has some.

In the same way, a check leaves out what it finds in a linked bucket if this compares equal to
`NONE`, but not if it has metadata.
-/

open Std

namespace Cynara

open PredefinedPolicyType InMemoryStorageBackend

namespace Logic

variable {env : Surroundings} {fuel : ℕ} {s s' : Buckets} {request : Request}

/-! ### What requests do to default policies and to policies -/

/-- A request to set policies is refused, or it keeps the buckets and adds no other policies than
its own. -/
theorem state_setPolicies (env : Surroundings) (s : Buckets)
    (inserted : ExtTreeMap PolicyBucketId (List Policy))
    (removed : ExtTreeMap PolicyBucketId (List PolicyKey)) :
  (setPolicies env inserted removed s).state = s
    ∨ checkPoliciesTypes env inserted true false = none
      ∧ (setPolicies env inserted removed s).state.SameBuckets s
      ∧ ∀ id key p, (setPolicies env inserted removed s).state.lookup id key = some p →
          s.lookup id key = some p ∨ (id, p) ∈ Storage.entries inserted
  := by
  cases htypes : checkPoliciesTypes env inserted true false with
  | some e =>
      obtain ⟨e', hrefused⟩ :=
        setPolicies_refused (s := s) env removed (Or.inl (htypes ▸ Option.some_ne_none e))
      rw [hrefused]
      exact Or.inl rfl
  | none =>
      cases hgroups : Storage.checkGroups s inserted.toList with
      | some e =>
          obtain ⟨e', hrefused⟩ :=
            setPolicies_refused (s := s) env removed (Or.inr (hgroups ▸ Option.some_ne_none e))
          rw [hrefused]
          exact Or.inl rfl
      | none =>
          obtain ⟨o, heq, -, hsame, hlookup⟩ := setPolicies_accepted removed htypes hgroups
          rw [heq, state_andThen_onPoliciesChanged]
          refine Or.inr ⟨rfl, hsame, fun id key p hp => ?_⟩
          rw [hlookup] at hp
          split at hp
          · cases hp
          · rcases Option.or_eq_some_iff.mp hp with hp | ⟨-, hp⟩
            · exact Or.inr (Storage.mem_of_inserted hp).1
            · exact Or.inl hp

theorem state_insertOrUpdateBucket (bucketId : PolicyBucketId) (result : PolicyResult) :
  (insertOrUpdateBucket env bucketId result s).state =
    if checkSinglePolicyType env result.policyType true true = none then
      (Storage.addOrUpdateBucket s bucketId result).state
    else s
  := by
  rw [insertOrUpdateBucket, state_andThen_onPoliciesChanged]
  cases htype : checkSinglePolicyType env result.policyType true true with
  | some e => rfl
  | none =>
      rw [Outcome.andThen_of_returned (o := Outcome.raise none s) rfl]
      rfl

/-- The default policy of a bucket is replaced unless the request is refused. -/
theorem default?_insertOrUpdateBucket (bucketId id : PolicyBucketId) (result : PolicyResult) :
  (insertOrUpdateBucket env bucketId result s).state.default? id =
    if bucketId = id ∧ checkSinglePolicyType env result.policyType true true = none ∧
        Storage.bucketRefused s bucketId result = false then some result
    else s.default? id
  := by
  rw [state_insertOrUpdateBucket]
  cases htype : checkSinglePolicyType env result.policyType true true with
  | some e => simp
  | none =>
      obtain ⟨hrefused, e, h, -⟩ | ⟨hrefused, ⟨b, hb, h⟩ | ⟨hid, hbucket, h⟩⟩ :=
        Storage.addOrUpdateBucket_cases s bucketId result
      · simp [h, hrefused]
      · have hid : (b.setDefaultPolicy result).id = bucketId := Buckets.id_of_find? (b := b) hb
        simp only [if_true, h, Outcome.returned_state, Buckets.default?_put, hid, hrefused,
          and_true]
        rfl
      · simp only [if_true, h, Outcome.returned_state, Buckets.default?_put, hrefused, and_true]
        rfl

/-- What a request does to the default policy of a bucket: it may set it, or remove the bucket
unless it is the default bucket. -/
theorem default?_perform {o : Outcome ServiceException Buckets}
    (h : perform env fuel s request = some o) (id : PolicyBucketId) :
  o.state.default? id = s.default? id
    ∨ (∃ result, request = .insertOrUpdateBucket id result ∧ o.state.default? id = some result)
    ∨ id ≠ defaultPolicyBucketId ∧ o.state.default? id = none
  := by
  cases request with
  | setPolicies inserted removed =>
      obtain rfl := Option.some.inj h
      left
      rcases state_setPolicies env s inserted removed with heq | ⟨-, hsame, -⟩
      · rw [heq]
      · exact hsame id
  | insertOrUpdateBucket bucketId result =>
      obtain rfl := Option.some.inj h
      rw [default?_insertOrUpdateBucket]
      split
      · rename_i hset
        obtain ⟨rfl, -⟩ := hset
        exact Or.inr (Or.inl ⟨result, rfl, rfl⟩)
      · exact Or.inl rfl
  | removeBucket bucketId =>
      obtain rfl := Option.some.inj h
      rw [removeBucket, state_andThen_onPoliciesChanged, Outcome.mapThrown_state]
      have hlinking := Storage.sameBuckets_deleteLinking s bucketId id
      obtain ⟨-, heq⟩ | ⟨-, -, heq⟩ | ⟨hid, -, heq⟩ := Storage.deleteBucket_cases s bucketId
      · rw [heq]
        exact Or.inl rfl
      · rw [heq]
        exact Or.inl hlinking
      · rw [heq, Outcome.returned_state, Buckets.default?, Buckets.find?_remove]
        split
        · rename_i heq
          exact Or.inr (Or.inr ⟨heq ▸ hid, rfl⟩)
        · exact Or.inl hlinking
  | erase startBucket recursive filter =>
      obtain ⟨o', ho', rfl⟩ := Option.map_eq_some_iff.mp h
      rw [state_andThen_onPoliciesChanged, Outcome.mapThrown_state]
      exact Or.inl ((Storage.eraseLoop_within ho').1 id)

/-- The policies that a request inserts, if none of their types is refused. -/
def insertions (env : Surroundings) : Request → List (PolicyBucketId × Policy)
  | .setPolicies inserted _ =>
      if checkPoliciesTypes env inserted true false = none then Storage.entries inserted else []
  | _ => []

/-- A request adds no other policies than its own. -/
theorem lookup_perform {o : Outcome ServiceException Buckets}
    (h : perform env fuel s request = some o) {id : PolicyBucketId} {key : PolicyKey} {p : Policy}
    (hp : o.state.lookup id key = some p) :
  s.lookup id key = some p ∨ (id, p) ∈ insertions env request
  := by
  cases request with
  | setPolicies inserted removed =>
      obtain rfl := Option.some.inj h
      rcases state_setPolicies env s inserted removed with heq | ⟨htypes, -, hlookup⟩
      · rw [heq] at hp
        exact Or.inl hp
      · simp only [insertions, htypes, if_true]
        exact hlookup id key p hp
  | insertOrUpdateBucket bucketId result =>
      obtain rfl := Option.some.inj h
      rw [state_insertOrUpdateBucket] at hp
      split at hp
      · exact Or.inl (Storage.addOrUpdateBucket_within s bucketId result id key p hp)
      · exact Or.inl hp
  | removeBucket bucketId =>
      obtain rfl := Option.some.inj h
      rw [removeBucket, state_andThen_onPoliciesChanged, Outcome.mapThrown_state] at hp
      exact Or.inl (Storage.deleteBucket_within s bucketId id key p hp)
  | erase startBucket recursive filter =>
      obtain ⟨o', ho', rfl⟩ := Option.map_eq_some_iff.mp h
      rw [state_andThen_onPoliciesChanged, Outcome.mapThrown_state] at hp
      exact Or.inl ((Storage.eraseLoop_within ho').2 id key p hp)

/-! ### Requests one after another -/

/-- A request together with what its handler depends on. -/
structure Call where
  env : Surroundings
  fuel : ℕ
  request : Request

/-- The buckets after a request. -/
def step (s : Buckets) (call : Call) : Option Buckets :=
  (execute call.env call.fuel s call.request).map Prod.snd

variable {call : Call}

/-- A request is handled unless the database has been found corrupted. -/
theorem step_cases (h : step s call = some s') :
  call.env.dbCorrupted = true ∧ s' = s
    ∨ call.env.dbCorrupted = false
      ∧ ∃ o, perform call.env call.fuel s call.request = some o ∧ s' = o.state
  := by
  obtain ⟨⟨code, t⟩, hexecute, rfl⟩ := Option.map_eq_some_iff.mp h
  unfold execute at hexecute
  split at hexecute
  · rename_i hcorrupted
    cases hexecute
    exact Or.inl ⟨hcorrupted, rfl⟩
  · rename_i hintact
    obtain ⟨o, ho, heq⟩ := Option.map_eq_some_iff.mp hexecute
    refine Or.inr ⟨by simpa using hintact, o, ho, ?_⟩
    split at heq
    · exact (congrArg Prod.snd heq).symm
    · exact (congrArg Prod.snd heq).symm

/-- There is a default bucket, and its default policy is not `NONE`. -/
def Definite (s : Buckets) : Prop :=
  ∃ d, s.default? defaultPolicyBucketId = some d ∧ d.policyType ≠ NONE

/-- The request does not set the default policy of the default bucket to `NONE` with metadata. -/
def Careful (call : Call) : Prop :=
  call.env.dbCorrupted = true
    ∨ ∀ result, call.request = .insertOrUpdateBucket defaultPolicyBucketId result →
        result.policyType = NONE → result.metadata = []

theorem eqType_none_iff {result : PolicyResult} :
  result.eqType NONE = true ↔ result.policyType = NONE ∧ result.metadata = []
  := by
  simp [PolicyResult.eqType]

/-- The default policy of the default bucket stays definite exactly if the request is careful. -/
theorem definite_step_iff (hs : Definite s) (h : step s call = some s') :
  Definite s' ↔ Careful call
  := by
  obtain ⟨hcorrupted, rfl⟩ | ⟨hintact, o, ho, rfl⟩ := step_cases h
  · exact iff_of_true hs (Or.inl hcorrupted)
  obtain ⟨env, fuel, request⟩ := call
  constructor
  · rintro ⟨d, hd, hdefinite⟩
    right
    rintro result hrequest hnone
    obtain rfl : request = .insertOrUpdateBucket defaultPolicyBucketId result := hrequest
    obtain rfl := Option.some.inj ho
    by_contra hmetadata
    have hdefault : hasBucket s defaultPolicyBucketId = true := by
      obtain ⟨d', hd', -⟩ := hs
      rw [Buckets.hasBucket_eq_default?, hd']
      rfl
    have hrefused : Storage.bucketRefused s defaultPolicyBucketId result = false := by
      have heqType : result.eqType NONE = false :=
        Bool.eq_false_iff.mpr fun heq => hmetadata (eqType_none_iff.mp heq).2
      simp [Storage.bucketRefused, heqType, hdefault]
    have htype : checkSinglePolicyType env result.policyType true true = none := by
      rw [hnone]
      rfl
    rw [default?_insertOrUpdateBucket, if_pos ⟨rfl, htype, hrefused⟩] at hd
    obtain rfl := Option.some.inj hd
    exact hdefinite hnone
  · intro hcareful
    replace hcareful := hcareful.resolve_left (Bool.eq_false_iff.mp hintact)
    obtain heq | ⟨result, rfl, hresult⟩ | ⟨hne, -⟩ := default?_perform ho defaultPolicyBucketId
    · unfold Definite
      rw [heq]
      exact hs
    · by_cases hnone : result.policyType = NONE
      · have heqType := eqType_none_iff.mpr ⟨hnone, hcareful result rfl hnone⟩
        obtain rfl := Option.some.inj ho
        unfold Definite
        rw [default?_insertOrUpdateBucket, if_neg]
        · exact hs
        · rintro ⟨-, -, hrefused⟩
          simp [Storage.bucketRefused, heqType] at hrefused
      · exact ⟨result, hresult, hnone⟩
    · exact absurd rfl hne

/-! ### Checks -/

/-- The default policy of the default bucket is not `NONE`, that of another bucket has no metadata
if it is, and no policy is `NONE`. -/
structure Clear (s : Buckets) : Prop where
  definite : Definite s
  defaults : ∀ id d, s.default? id = some d → d.policyType = NONE → d.metadata = []
  policies : ∀ id key p, s.lookup id key = some p → p.result.policyType ≠ NONE

/-- The request neither sets the default policy of a bucket to `NONE` with metadata nor inserts a
policy of type `NONE`, which is possible if a plugin is registered for this type. -/
def Plain (call : Call) : Prop :=
  call.env.dbCorrupted = true
    ∨ (∀ id result, call.request = .insertOrUpdateBucket id result →
        result.policyType = NONE → result.metadata = [])
      ∧ ∀ e ∈ insertions call.env call.request, e.2.result.policyType ≠ NONE

theorem Plain.careful (h : Plain call) :
  Careful call
  := h.imp_right fun hplain => hplain.1 defaultPolicyBucketId

/-- Plain requests keep all policies apart from `NONE`. -/
theorem Clear.step (hs : Clear s) (hplain : Plain call) (h : step s call = some s') :
  Clear s'
  := by
  refine ⟨(definite_step_iff hs.definite h).mpr hplain.careful, ?_, ?_⟩
  · obtain ⟨-, rfl⟩ | ⟨hintact, o, ho, rfl⟩ := step_cases h
    · exact hs.defaults
    · obtain ⟨hdefaults, -⟩ := hplain.resolve_left (Bool.eq_false_iff.mp hintact)
      intro id d hd hnone
      obtain heq | ⟨result, hrequest, hresult⟩ | ⟨-, hgone⟩ := default?_perform ho id
      · exact hs.defaults id d (heq.symm.trans hd) hnone
      · obtain rfl := Option.some.inj (hresult.symm.trans hd)
        exact hdefaults id result hrequest hnone
      · rw [hgone] at hd
        cases hd
  · obtain ⟨-, rfl⟩ | ⟨hintact, o, ho, rfl⟩ := step_cases h
    · exact hs.policies
    · obtain ⟨-, hinsertions⟩ := hplain.resolve_left (Bool.eq_false_iff.mp hintact)
      intro id key p hp
      rcases lookup_perform ho hp with hp | hp
      · exact hs.policies id key p hp
      · exact hinsertions (id, p) hp

/-- The loop comes to its first result or to one that is not `NONE`, if what is found in linked
buckets has no metadata where it is `NONE`. -/
theorem minimalLoop_of_ne_none {sub : PolicyBucketId → Storage.Check} {recursive : Bool}
    {policies : List Policy} {P : PolicyResult → Prop}
    (hP : ∀ result : PolicyResult, result.policyType ≠ NONE → P result)
    (hsub : ∀ id result, sub id = some (.ok result) → result.policyType = NONE →
      result.metadata = [])
    (hpolicies : ∀ p ∈ policies, p.result.policyType ≠ NONE) {hasMinimal : Bool}
    {minimal result : PolicyResult} (hminimal : P minimal)
    (h : Storage.minimalLoop sub recursive policies hasMinimal minimal = some (.ok result)) :
  P result
  := by
  have hpropose : ∀ hasMinimal minimal candidate, P minimal → P candidate →
      P (Storage.proposeMinimal hasMinimal minimal candidate) := by
    intro hasMinimal minimal candidate hminimal hcandidate
    unfold Storage.proposeMinimal
    split
    · exact hcandidate
    · split
      · exact hcandidate
      · exact hminimal
  induction policies generalizing hasMinimal minimal with
  | nil =>
      cases h
      exact hminimal
  | cons p policies ih =>
      have hp := hpolicies p List.mem_cons_self
      have hrest := fun q hq => hpolicies q (List.mem_cons_of_mem p hq)
      unfold Storage.minimalLoop at h
      split at h
      · cases h
        exact hP _ hp
      · split at h
        · split at h
          · split at h
            · rename_i minimumOfBucket hbucket
              split at h
              · exact ih hrest hminimal h
              · rename_i hne
                refine ih hrest (hpropose _ _ _ hminimal (hP _ fun hnone => hne ?_)) h
                exact eqType_none_iff.mpr ⟨hnone, hsub _ _ hbucket hnone⟩
            · rename_i hfailed
              exact absurd h (hfailed result)
          · exact ih hrest hminimal h
        · exact ih hrest (hpropose _ _ _ hminimal (hP _ hp)) h

variable {order : IterationOrder Str} {key : PolicyKey} {recursive : Bool} {result : PolicyResult}

theorem Clear.policyType_ne (hs : Clear s) {id : PolicyBucketId} {b : PolicyBucket}
    (hb : s.find? id = some b) :
  ∀ p ∈ Storage.listing order (b.filtered key), p.result.policyType ≠ NONE
  := by
  intro p hp
  obtain ⟨hp, -⟩ := PolicyBucket.mem_filtered.mp (Storage.mem_listing.mp hp)
  exact hs.policies id p.key p (Buckets.lookup_eq_some.mpr ⟨b, hb, hp, rfl⟩)

/-- What is found in a bucket has no metadata if it is `NONE`. -/
theorem Clear.minimalPolicy (hs : Clear s) {id : PolicyBucketId} {b : PolicyBucket}
    (hb : s.find? id = some b)
    (h : Storage.minimalPolicy order s key fuel (b.filtered key) recursive = some (.ok result))
    (hnone : result.policyType = NONE) :
  result.metadata = []
  := by
  induction fuel generalizing id b recursive result with
  | zero => cases h
  | succ fuel ih =>
      revert hnone
      refine minimalLoop_of_ne_none (P := fun r => r.policyType = NONE → r.metadata = [])
        (fun r hne hnone => absurd hnone hne) ?_ (hs.policyType_ne hb) ?_ h
      · intro id' result' hsub hnone
        cases hb' : s.find? id' with
        | none => simp [searchBucket, hb'] at hsub
        | some b' =>
            simp only [searchBucket, hb'] at hsub
            exact ih hb' hsub hnone
      · exact hs.defaults id b.defaultPolicy (by rw [Buckets.default?, hb]; rfl)

/-- A check that starts in the default bucket does not end in `NONE`. -/
theorem Clear.checkPolicy (hs : Clear s)
    (h : Storage.checkPolicy fuel order s key defaultPolicyBucketId recursive =
      some (.ok result)) :
  result.policyType ≠ NONE
  := by
  obtain ⟨d, hd, hdefinite⟩ := hs.definite
  obtain ⟨b, hb, rfl⟩ := Option.map_eq_some_iff.mp hd
  simp only [Storage.checkPolicy, searchBucket, hb] at h
  cases fuel with
  | zero => cases h
  | succ fuel =>
      refine minimalLoop_of_ne_none (P := fun r => r.policyType ≠ NONE) (fun _ hne => hne) ?_
        (hs.policyType_ne hb) hdefinite h
      intro id' result' hsub hnone
      cases hb' : s.find? id' with
      | none => simp [searchBucket, hb'] at hsub
      | some b' =>
          simp only [searchBucket, hb'] at hsub
          exact hs.minimalPolicy hb' hsub hnone

/-! ### Runs -/

theorem definite_initial :
  Definite Storage.initial
  := ⟨{}, rfl, by decide⟩

theorem clear_initial :
  Clear Storage.initial
  := by
  refine ⟨definite_initial, ?_, ?_⟩
  · intro id d hd hnone
    simp only [Storage.initial, Buckets.default?_put] at hd
    split at hd
    · cases hd
      cases hnone
    · cases hd
  · intro id key p hp
    simp only [Storage.initial, Buckets.lookup_put] at hp
    split at hp
    · simp [PolicyBucket.empty] at hp
    · cases hp

/-- In every run of careful requests from a fresh database, the default policy of the default bucket
is not `NONE`, and it stays so after the next request exactly if this is careful.  If the
requests are plain, no check ends in `NONE`. -/
theorem definite_of_reaches (s : Buckets)
    (h : Runs.Reaches step (fun _ call => Careful call) Storage.initial s) (call : Call)
    (s' : Buckets) (hstep : step s call = some s') :
  Definite s ∧ (Definite s' ↔ Careful call)
    ∧ (Runs.Reaches step (fun _ call => Plain call) Storage.initial s →
        ∀ fuel order key recursive result,
          Storage.checkPolicy fuel order s key defaultPolicyBucketId recursive =
            some (.ok result) → result.policyType ≠ NONE)
  := by
  have hdefinite : Definite s := h.invariant definite_initial
    fun _ _ _ hs hcareful hstep => (definite_step_iff hs hstep).mpr hcareful
  refine ⟨hdefinite, definite_step_iff hdefinite hstep, ?_⟩
  intro hplain fuel order key recursive result hcheck
  have hclear : Clear s := hplain.invariant clear_initial
    fun _ _ _ hs hplain hstep => hs.step hplain hstep
  exact hclear.checkPolicy hcheck

/-- The default policy of the default bucket is set. -/
def setDefault (result : PolicyResult) : Call :=
  ⟨calm, 0, .insertOrUpdateBucket defaultPolicyBucketId result⟩

/-- Access is allowed by default. -/
theorem definite_allow :
  ∃ s', step Storage.initial (setDefault ⟨ALLOW, []⟩) = some s' ∧ Definite s'
  := by
  have hstep : (step Storage.initial (setDefault ⟨ALLOW, []⟩)).isSome = true := by decide
  obtain ⟨s', hs'⟩ := Option.isSome_iff_exists.mp hstep
  refine ⟨s', hs', ?_⟩
  apply (definite_of_reaches Storage.initial .start _ s' hs').2.1.mpr
  right
  intro result hresult hnone
  cases hresult
  cases hnone

/-- The default policy is set to `NONE` with some metadata.  The request is answered with `OK`, and
a check ends in `NONE`. -/
theorem not_definite_none :
  ∃ s', execute calm 0 Storage.initial
        (.insertOrUpdateBucket defaultPolicyBucketId ⟨NONE, Str.ofString "x"⟩) =
      some (some .OK, s')
    ∧ ¬ Definite s'
    ∧ Storage.checkPolicy 1 .sorted s' ⟨[], [], []⟩ defaultPolicyBucketId true =
      some (.ok ⟨NONE, Str.ofString "x"⟩)
  := by
  let result : PolicyResult := ⟨NONE, Str.ofString "x"⟩
  use (Storage.addOrUpdateBucket Storage.initial defaultPolicyBucketId result).state
  refine ⟨by decide, ?_, by decide⟩
  rintro ⟨d, hd, hdefinite⟩
  have hnone : (Storage.addOrUpdateBucket Storage.initial defaultPolicyBucketId
      result).state.default? defaultPolicyBucketId = some result := by decide
  obtain rfl := Option.some.inj (hnone.symm.trans hd)
  exact hdefinite rfl

end Logic

end Cynara
