import Cynara.Storage.Links

/-!
# The value of a check

`eval` is the type a check should return: the least type among the matching policies
that are not of type `BUCKET` and the values of the buckets the matching policies link
to, other than `NONE`; and the type of the default policy where there are none of these.
It is defined by recursion along the links, which have no cycle.

A check returns a result of this type, in whatever order the policies are traversed.
-/

open Std

namespace Cynara

open PredefinedPolicyType InMemoryStorageBackend

namespace Storage

/-! ### The reference value -/

/-- The types that compete in a bucket, where `value` gives the values of the buckets it
links to. -/
def candidates (key : PolicyKey) (recursive : Bool) (value : PolicyBucketId → PolicyType)
    (b : PolicyBucket) : Set PolicyType :=
  {t | ∃ p ∈ b, p.key.Covers key
    ∧ (p.result.policyType ≠ BUCKET ∧ t = p.result.policyType
      ∨ recursive = true ∧ p.result.policyType = BUCKET ∧ t = value p.result.metadata
        ∧ t ≠ NONE)}

open Classical in
/-- The least of a set of types, or `t` if the set is empty. -/
noncomputable def leastOr (C : Set PolicyType) (t : PolicyType) : PolicyType :=
  if h : ∃ m, IsLeast C m then h.choose else t

open Classical in
/-- The type a check should return, by recursion along the links. -/
noncomputable def eval {s : Buckets} (h : s.Acyclic) (key : PolicyKey) (recursive : Bool) :
    PolicyBucketId → PolicyType :=
  h.wellFounded_link.fix fun id value =>
    match s.find? id with
    | none => DENY
    | some b =>
        leastOr
          (candidates key recursive (fun y => if hy : s.Link id y then value y hy else DENY) b)
          b.defaultPolicy.policyType

theorem leastOr_eq_of_isLeast {C : Set PolicyType} {m t : PolicyType} (h : IsLeast C m) :
  leastOr C t = m
  := by
  have hex : ∃ m, IsLeast C m := ⟨m, h⟩
  rw [leastOr, dif_pos hex]
  apply UInt16.le_antisymm
  · apply hex.choose_spec.2 h.1
  · apply h.2 hex.choose_spec.1

theorem leastOr_empty (t : PolicyType) :
  leastOr ∅ t = t
  := by
  rw [leastOr, dif_neg]
  rintro ⟨m, hm, -⟩
  exact hm

/-- The candidates depend only on the values of the buckets that are linked to. -/
theorem candidates_congr {key : PolicyKey} {recursive : Bool}
    {value value' : PolicyBucketId → PolicyType} {b : PolicyBucket}
    (h : ∀ p ∈ b, p.result.policyType = BUCKET →
      value p.result.metadata = value' p.result.metadata) :
  candidates key recursive value b = candidates key recursive value' b
  := by
  ext t
  constructor
  · rintro ⟨p, hp, hcovers, hdirect | ⟨hrec, htype, ht, hnone⟩⟩
    · use p, hp, hcovers, Or.inl hdirect
    · use p, hp, hcovers, Or.inr ⟨hrec, htype, ht.trans (h p hp htype), hnone⟩
  · rintro ⟨p, hp, hcovers, hdirect | ⟨hrec, htype, ht, hnone⟩⟩
    · use p, hp, hcovers, Or.inl hdirect
    · use p, hp, hcovers, Or.inr ⟨hrec, htype, ht.trans (h p hp htype).symm, hnone⟩

/-- The value of a bucket in terms of the values of the buckets it links to. -/
theorem eval_eq {s : Buckets} (h : s.Acyclic) (key : PolicyKey) (recursive : Bool)
    {id : PolicyBucketId} {b : PolicyBucket} (hb : s.find? id = some b) :
  eval h key recursive id
    = leastOr (candidates key recursive (eval h key recursive) b) b.defaultPolicy.policyType
  := by
  rw [eval, WellFounded.fix_eq, hb]
  dsimp only
  congr 1
  apply candidates_congr
  intro p hp htype
  exact dif_pos (Buckets.link_of_mem hb hp htype)

/-! ### The loop over the policies of a bucket -/

/-- `r` is the least of the results `cs`, or `d` if there are none. -/
def Least (cs : List PolicyResult) (d r : PolicyResult) : Prop :=
  cs = [] ∧ r = d ∨ r ∈ cs ∧ ∀ c ∈ cs, r.policyType ≤ c.policyType

/-- What a policy proposes, where `sub` gives the results of the buckets linked to. -/
def proposal (sub : PolicyBucketId → PolicyResult) (recursive : Bool) (p : Policy) :
    Option PolicyResult :=
  if p.result.policyType = BUCKET then
    if recursive && !(sub p.result.metadata).eqType NONE then some (sub p.result.metadata)
    else none
  else
    some p.result

/-- Proposing a candidate keeps the least result. -/
theorem Least.propose {hasMinimal : Bool} {minimal candidate d r : PolicyResult}
    {cs : List PolicyResult}
    (h : Least (proposeMinimal hasMinimal minimal candidate :: cs) d r) :
  Least ((if hasMinimal then [minimal] else []) ++ candidate :: cs) minimal r
  := by
  right
  obtain ⟨hnil, -⟩ | ⟨hr, hle⟩ := h
  · contradiction
  cases hasMinimal with
  | false => exact ⟨hr, hle⟩
  | true =>
      simp only [List.mem_cons, forall_eq_or_imp] at hr hle
      have hmin : (proposeMinimal true minimal candidate).policyType ≤ minimal.policyType
          ∧ (proposeMinimal true minimal candidate).policyType ≤ candidate.policyType
          ∧ (proposeMinimal true minimal candidate = minimal
            ∨ proposeMinimal true minimal candidate = candidate) := by
        simp only [proposeMinimal, PolicyResult.lt, Bool.true_eq_false, ↓reduceIte,
          decide_eq_true_eq]
        split
        · grind
        · grind
      constructor
      · grind
      · grind

/-- One turn of the loop: a policy proposes its own result, the result of the bucket it
links to, or nothing. -/
theorem minimalLoop_cons (sub : PolicyBucketId → Check) (recursive : Bool)
    (result : PolicyBucketId → PolicyResult) (p : Policy) (policies : List Policy)
    (hsub : recursive = true → p.result.policyType = BUCKET →
      sub p.result.metadata = some (.ok (result p.result.metadata)))
    (hdeny : p.result.policyType ≠ DENY) (hasMinimal : Bool) (minimal : PolicyResult) :
  minimalLoop sub recursive (p :: policies) hasMinimal minimal
    = match proposal result recursive p with
      | none => minimalLoop sub recursive policies hasMinimal minimal
      | some c =>
          minimalLoop sub recursive policies true (proposeMinimal hasMinimal minimal c)
  := by
  by_cases hbucket : p.result.policyType = BUCKET
  · cases recursive with
    | false => simp [minimalLoop, proposal, hbucket]
    | true =>
        have hp := hsub rfl hbucket
        by_cases hnone : (result p.result.metadata).eqType NONE = true
        · simp [minimalLoop, proposal, hbucket, hp, hnone]
        · simp [minimalLoop, proposal, hbucket, hp, hnone]
  · simp [minimalLoop, proposal, hbucket, hdeny]

/-- The loop ends with the least of the results proposed, whichever way the results of the
linked buckets are computed. -/
theorem minimalLoop_least (recursive : Bool) (result : PolicyBucketId → PolicyResult)
    (policies : List Policy) (hasMinimal : Bool) (minimal : PolicyResult) :
  ∃ r, Least ((if hasMinimal then [minimal] else [])
        ++ policies.filterMap (proposal result recursive)) minimal r
    ∧ ∀ sub : PolicyBucketId → Check,
        (recursive = true → ∀ p ∈ policies, p.result.policyType = BUCKET →
          sub p.result.metadata = some (.ok (result p.result.metadata))) →
        minimalLoop sub recursive policies hasMinimal minimal = some (.ok r)
  := by
  induction policies generalizing hasMinimal minimal with
  | nil =>
      use minimal
      constructor
      · cases hasMinimal <;> simp [Least]
      · intro sub _
        rfl
  | cons p policies ih =>
      by_cases hdeny : p.result.policyType = DENY
      · -- the early return: nothing is less than DENY
        have hproposal : proposal result recursive p = some p.result := by
          simp [proposal, hdeny, Ne.symm BUCKET_ne_DENY]
        use p.result
        constructor
        · right
          constructor
          · simp [hproposal]
          · intro c _
            rw [hdeny]
            apply UInt16.zero_le
        · intro sub _
          simp [minimalLoop, hdeny]
      · rw [List.filterMap_cons]
        cases hproposal : proposal result recursive p with
        | none =>
            obtain ⟨r, hleast, hr⟩ := ih hasMinimal minimal
            use r, hleast
            intro sub hsub
            rw [minimalLoop_cons sub recursive result p policies
              (fun hrec => hsub hrec p List.mem_cons_self) hdeny, hproposal]
            exact hr sub fun hrec q hq => hsub hrec q (List.mem_cons_of_mem p hq)
        | some c =>
            obtain ⟨r, hleast, hr⟩ := ih true (proposeMinimal hasMinimal minimal c)
            use r, Least.propose hleast
            intro sub hsub
            rw [minimalLoop_cons sub recursive result p policies
              (fun hrec => hsub hrec p List.mem_cons_self) hdeny, hproposal]
            exact hr sub fun hrec q hq => hsub hrec q (List.mem_cons_of_mem p hq)

/-! ### Checks on well-formed storages -/

/-- A storage on which checks have a value: the links lead to existing buckets and have
no cycle, no policy is of type `NONE`, and no default policy of type `NONE` carries
metadata. -/
structure Checkable (s : Buckets) : Prop where
  noDangling : s.NoDangling
  acyclic : s.Acyclic
  noNone : ∀ id b, s.find? id = some b → ∀ p ∈ b, p.result.policyType ≠ NONE
  noneDefault : ∀ id b, s.find? id = some b → b.defaultPolicy.policyType = NONE →
    b.defaultPolicy.metadata = []

/-- A result stands for a value: it has this type, and carries no metadata if the type is
`NONE`. -/
def StandsFor (r : PolicyResult) (t : PolicyType) : Prop :=
  r.policyType = t ∧ (t = NONE → r.metadata = [])

theorem StandsFor.eqType_none {r : PolicyResult} {t : PolicyType} (h : StandsFor r t) :
  r.eqType NONE = true ↔ t = NONE
  := by
  obtain ⟨rfl, hmeta⟩ := h
  constructor
  · intro heq
    simp only [PolicyResult.eqType, Bool.and_eq_true, beq_iff_eq] at heq
    exact heq.1
  · intro hnone
    simp [PolicyResult.eqType, hnone, hmeta hnone]

variable {s : Buckets} {key : PolicyKey} {recursive : Bool}

/-- The candidates of a bucket are the types of the results its matching policies
propose. -/
theorem mem_candidates_iff (order : IterationOrder Str)
    {value : PolicyBucketId → PolicyType} {result : PolicyBucketId → PolicyResult}
    {b : PolicyBucket}
    (hresult : recursive = true → ∀ p ∈ b, p.result.policyType = BUCKET →
      StandsFor (result p.result.metadata) (value p.result.metadata))
    (t : PolicyType) :
  t ∈ candidates key recursive value b
    ↔ ∃ r ∈ (listing order (b.filtered key)).filterMap (proposal result recursive),
        r.policyType = t
  := by
  simp only [List.mem_filterMap, mem_listing, PolicyBucket.mem_filtered]
  constructor
  · rintro ⟨p, hp, hcovers, ⟨htype, rfl⟩ | ⟨rfl, htype, rfl, hnone⟩⟩
    · use p.result, ⟨p, ⟨hp, hcovers⟩, by simp [proposal, htype]⟩
    · have hstands := hresult rfl p hp htype
      have hne : (result p.result.metadata).eqType NONE = false := by
        rw [← Bool.not_eq_true, hstands.eqType_none]
        exact hnone
      use result p.result.metadata, ⟨p, ⟨hp, hcovers⟩, by simp [proposal, htype, hne]⟩
      exact hstands.1
  · rintro ⟨r, ⟨p, ⟨hp, hcovers⟩, hproposal⟩, rfl⟩
    use p, hp, hcovers
    unfold proposal at hproposal
    split at hproposal
    · rename_i htype
      split at hproposal
      · rename_i hrec
        simp only [Bool.and_eq_true, Bool.not_eq_true'] at hrec
        have hstands := hresult hrec.1 p hp htype
        obtain rfl := Option.some.inj hproposal
        refine Or.inr ⟨hrec.1, htype, hstands.1, ?_⟩
        rw [hstands.1]
        intro hnone
        rw [hstands.eqType_none.mpr hnone] at hrec
        exact absurd hrec.2 (by decide)
      · contradiction
    · rename_i htype
      obtain rfl := Option.some.inj hproposal
      exact Or.inl ⟨htype, rfl⟩

variable {order : IterationOrder Str}

/-- The least result proposed in a bucket stands for the value of the bucket. -/
theorem Least.standsFor {value : PolicyBucketId → PolicyType}
    {result : PolicyBucketId → PolicyResult} {b : PolicyBucket} {r : PolicyResult}
    (hresult : recursive = true → ∀ p ∈ b, p.result.policyType = BUCKET →
      StandsFor (result p.result.metadata) (value p.result.metadata))
    (hnone : ∀ p ∈ b, p.result.policyType ≠ NONE)
    (hdefault : b.defaultPolicy.policyType = NONE → b.defaultPolicy.metadata = [])
    (h : Least ((listing order (b.filtered key)).filterMap (proposal result recursive))
      b.defaultPolicy r) :
  StandsFor r (leastOr (candidates key recursive value b) b.defaultPolicy.policyType)
  := by
  obtain ⟨hnil, rfl⟩ | ⟨hr, hle⟩ := h
  · have hempty : candidates key recursive value b = ∅ := by
      ext t
      rw [mem_candidates_iff order hresult, hnil]
      simp
    rw [hempty, leastOr_empty]
    exact ⟨rfl, hdefault⟩
  · have hleast : IsLeast (candidates key recursive value b) r.policyType := by
      constructor
      · rw [mem_candidates_iff order hresult]
        use r, hr
      · intro t ht
        rw [mem_candidates_iff order hresult] at ht
        obtain ⟨c, hc, rfl⟩ := ht
        apply hle c hc
    rw [leastOr_eq_of_isLeast hleast]
    refine ⟨rfl, fun htype => ?_⟩
    -- no candidate is of type NONE
    obtain ⟨p, hp, -, ⟨-, ht⟩ | ⟨-, -, -, ht⟩⟩ := hleast.1
    · exact absurd (ht.symm.trans htype) (hnone p hp)
    · exact absurd htype ht

/-- From some fuel on, the search of a bucket gives `r`. -/
def Settles (order : IterationOrder Str) (s : Buckets) (key : PolicyKey) (recursive : Bool)
    (id : PolicyBucketId) (r : PolicyResult) : Prop :=
  ∃ n, ∀ fuel ≥ n, checkPolicy fuel order s key id recursive = some (.ok r)

/-- With fuel for one more call, a check runs the loop over the policies of the bucket,
where a linked bucket is checked with the remaining fuel. -/
theorem checkPolicy_succ {id : PolicyBucketId} {b : PolicyBucket} (hb : s.find? id = some b)
    (fuel : ℕ) :
  checkPolicy (fuel + 1) order s key id recursive
    = minimalLoop (fun y => checkPolicy fuel order s key y true) recursive
        (listing order (b.filtered key)) false b.defaultPolicy
  := by
  simp only [checkPolicy, searchBucket, hb, minimalPolicy]
  rfl

/-- A check has at most one result. -/
theorem Settles.unique {id : PolicyBucketId} {r r' : PolicyResult}
    (h : Settles order s key recursive id r) (h' : Settles order s key recursive id r') :
  r = r'
  := by
  obtain ⟨n, hn⟩ := h
  obtain ⟨m, hm⟩ := h'
  have heq := (hn (max n m) (le_max_left n m)).symm.trans (hm (max n m) (le_max_right n m))
  simpa using heq

/-- A bucket settles on the least of the results its policies propose, once the buckets it
links to have settled. -/
theorem settles_step {result : PolicyBucketId → PolicyResult} {id : PolicyBucketId}
    {b : PolicyBucket} (hb : s.find? id = some b)
    (hresult : ∀ y, s.Link id y → Settles order s key true y (result y)) :
  ∃ r, Settles order s key recursive id r
    ∧ Least ((listing order (b.filtered key)).filterMap (proposal result recursive))
        b.defaultPolicy r
  := by
  choose! bound hbound using hresult
  -- fuel that is enough for every bucket linked to
  let n := ((listing order (b.filtered key)).map fun p => bound p.result.metadata).sum
  have hn : ∀ p ∈ listing order (b.filtered key), bound p.result.metadata ≤ n := fun p hp =>
    List.single_le_sum (by simp) _ (List.mem_map_of_mem hp)
  obtain ⟨r, hleast, hr⟩ := minimalLoop_least recursive result
    (listing order (b.filtered key)) false b.defaultPolicy
  use r
  refine ⟨⟨n + 1, ?_⟩, hleast⟩
  rintro (_ | fuel) hfuel
  · omega
  rw [checkPolicy_succ hb]
  apply hr
  intro _ p hp htype
  have hmem := (PolicyBucket.mem_filtered.mp (mem_listing.mp hp)).1
  apply hbound _ (Buckets.link_of_mem hb hmem htype)
  have := hn p hp
  omega

/-- Where the links lead to existing buckets and have no cycle, every existing bucket
settles. -/
theorem settles_of_acyclic (hdangling : s.NoDangling) (hacyclic : s.Acyclic)
    (order : IterationOrder Str) (key : PolicyKey) {id : PolicyBucketId} {b : PolicyBucket}
    (hb : s.find? id = some b) :
  ∃ r, Settles order s key true id r
  := by
  induction id using hacyclic.wellFounded_link.induction generalizing b with
  | h id ih =>
      have hlinked : ∀ y, s.Link id y → ∃ r, Settles order s key true y r := by
        intro y hy
        obtain ⟨c, hc⟩ := hdangling id y hy
        apply ih y hy hc
      choose! result hresult using hlinked
      obtain ⟨r, hr, -⟩ := settles_step hb hresult
      use r

/-- The results on which the buckets linked to by a bucket settle. -/
theorem exists_settles_linked (hdangling : s.NoDangling) (hacyclic : s.Acyclic)
    (order : IterationOrder Str) (key : PolicyKey) (id : PolicyBucketId) :
  ∃ result : PolicyBucketId → PolicyResult,
    ∀ y, s.Link id y → Settles order s key true y (result y)
  := by
  have hlinked : ∀ y, s.Link id y → ∃ r, Settles order s key true y r := by
    intro y hy
    obtain ⟨b, hb⟩ := hdangling id y hy
    apply settles_of_acyclic hdangling hacyclic order key hb
  choose! result hresult using hlinked
  use result

/-- A bucket that settles does so on a result that stands for its value. -/
theorem Settles.standsFor (h : Checkable s) {id : PolicyBucketId} {b : PolicyBucket}
    {r : PolicyResult} (hb : s.find? id = some b) (hr : Settles order s key recursive id r) :
  StandsFor r (eval h.acyclic key recursive id)
  := by
  induction id using h.acyclic.wellFounded_link.induction generalizing recursive b r with
  | h id ih =>
      obtain ⟨result, hresult⟩ := exists_settles_linked h.noDangling h.acyclic order key id
      obtain ⟨r', hr', hleast⟩ := settles_step hb hresult
      obtain rfl := hr.unique hr'
      rw [eval_eq h.acyclic key recursive hb]
      apply Least.standsFor _ (h.noNone id b hb) (h.noneDefault id b hb) hleast
      intro hrec p hp htype
      have hlink := Buckets.link_of_mem hb hp htype
      obtain ⟨c, hc⟩ := h.noDangling id _ hlink
      rw [hrec]
      apply ih _ hlink hc (hresult _ hlink)

/-- A check of an existing bucket returns a result of the type that the reference value
gives, whatever the order in which the policies are traversed. -/
theorem checkPolicy_eq_eval (h : Checkable s) (order : IterationOrder Str) (key : PolicyKey)
    (startBucketId : PolicyBucketId) (recursive : Bool)
    (hstart : hasBucket s startBucketId = true) :
  ∃ r, (∃ n, ∀ fuel ≥ n, checkPolicy fuel order s key startBucketId recursive = some (.ok r))
    ∧ r.policyType = eval h.acyclic key recursive startBucketId
  := by
  obtain ⟨b, hb⟩ := Option.isSome_iff_exists.mp hstart
  obtain ⟨result, hresult⟩ :=
    exists_settles_linked h.noDangling h.acyclic order key startBucketId
  obtain ⟨r, hr, -⟩ := settles_step hb hresult
  use r, hr
  exact (hr.standsFor h hb).1

theorem idValidator_target :
  idValidator (Str.ofString "target") = true
  := by decide

/-- A storage in which the default bucket sends every key on to a second bucket. -/
def forwarding : Buckets :=
  let target : PolicyBucketId := Str.ofString "target"
  let all : PolicyKey :=
    ⟨PolicyKeyFeature.wildcardValue, PolicyKeyFeature.wildcardValue,
      PolicyKeyFeature.wildcardValue⟩
  let default := PolicyBucket.empty defaultPolicyBucketId {} idValidator_defaultPolicyBucketId
  (Buckets.put initial (default.insertPolicy ⟨all, ⟨BUCKET, target⟩⟩)).put
    (PolicyBucket.empty target ⟨ALLOW, []⟩ idValidator_target)

theorem forwarding_checkable : Checkable forwarding where
  noDangling := by decide
  acyclic := by
    apply Buckets.acyclic_of_rank fun id => if id = defaultPolicyBucketId then 1 else 0
    decide
  noNone := by decide
  noneDefault := by decide

/-- In the forwarding storage every recursive check of the default bucket settles on the
value of the bucket that is linked to. -/
theorem checkPolicy_forwarding :
  hasBucket forwarding defaultPolicyBucketId = true
    ∧ ∃ r, (∃ n, ∀ fuel ≥ n, checkPolicy fuel .sorted forwarding ⟨[], [], []⟩
          defaultPolicyBucketId true = some (.ok r))
        ∧ r.policyType
          = eval forwarding_checkable.acyclic ⟨[], [], []⟩ true defaultPolicyBucketId
  :=
  ⟨by decide, checkPolicy_eq_eval forwarding_checkable .sorted ⟨[], [], []⟩
    defaultPolicyBucketId true (by decide)⟩

end Storage

end Cynara
