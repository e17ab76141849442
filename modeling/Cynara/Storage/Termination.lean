import Cynara.Storage.Check
import Cynara.Storage.Erase

/-!
# Termination of the recursive operations

A recursive check and a recursive erase follow the links between the buckets, and neither
keeps a record of the buckets it has been to.  They end on a storage whose links have no
cycle.  On a cycle an erase whose filter matches nothing goes on forever.

No operation but an insertion can make a cycle, and `insertPolicies` does not look for
one.  So all the storages along a run are free of endless operations exactly when every
insertion of the run keeps the links free of cycles.
-/

open Std

namespace Cynara

open PredefinedPolicyType InMemoryStorageBackend

namespace Storage

variable {s : Buckets} {recursive : Bool} {filter : PolicyKey}

/-! ### Erases that end -/

/-- The elements of a work list. -/
def finset (ids : ExtTreeSet PolicyBucketId) : Finset PolicyBucketId := ids.toList.toFinset

theorem mem_finset {ids : ExtTreeSet PolicyBucketId} {id : PolicyBucketId} :
  id ∈ finset ids ↔ id ∈ ids
  := by
  simp [finset]

/-- Taking a bucket from the work list replaces it by buckets it links to. -/
theorem workStep_nextIds (recursive : Bool) {r : PolicyBucketId → PolicyBucketId → Prop}
    {ids : ExtTreeSet PolicyBucketId} {id : PolicyBucketId} {b : PolicyBucket} (hid : id ∈ ids)
    (hsub : recursive = true → ∀ y ∈ b.getSubBuckets, r id y) :
  Relation.WorkStep (Function.swap r) (finset (nextIds recursive ids id b)) (finset ids)
  := by
  use id, mem_finset.mpr hid, if recursive then finset b.getSubBuckets else ∅
  constructor
  · intro y hy
    cases recursive with
    | false => simp at hy
    | true => exact hsub rfl y (mem_finset.mp hy)
  · ext y
    rw [mem_finset, mem_nextIds, Finset.mem_union, Finset.mem_erase, mem_finset]
    cases recursive with
    | false => simp
    | true => simp [mem_finset]

/-- An erase that does not follow links, or reaches no cycle of them, ends.  The induction is on
the work list; the links that the erase removes on its way only make it shorter. -/
theorem eraseLoop_terminates_of_reach {ids : ExtTreeSet PolicyBucketId}
    (h : ∀ x, recursive = true → Reach s recursive ids x → ¬ Relation.TransGen s.Link x x)
    (filter : PolicyKey) :
  ∃ fuel, (eraseLoop recursive filter fuel ids s).isSome
  := by
  let reached (x y : PolicyBucketId) : Prop :=
    recursive = true ∧ Reach s recursive ids x ∧ s.Link x y
  have hacyclic : Relation.Acyclic reached := by
    intro x hx
    obtain ⟨y, ⟨hrecursive, hreach, -⟩, -⟩ := Relation.TransGen.head'_iff.mp hx
    apply h x hrecursive hreach
    exact Relation.TransGen.mono (fun _ _ hlink => hlink.2.2) x x hx
  have hwf : WellFounded (Function.swap reached) := by
    apply hacyclic.wellFounded s.ids
    rintro x y ⟨-, -, b, hb, -⟩
    exact Buckets.mem_ids.mpr ⟨b, hb⟩
  suffices hgen : ∀ (work : Finset PolicyBucketId) (list : ExtTreeSet PolicyBucketId)
      (t : Buckets), finset list = work → t.Within s → (∀ x ∈ list, Reach s recursive ids x) →
      ∃ fuel, (eraseLoop recursive filter fuel list t).isSome by
    apply hgen (finset ids) ids s rfl (.refl s)
    intro x hx
    exact .of_mem hx
  intro work
  induction work using (Relation.WorkStep.wellFounded hwf).induction with
  | h work ih =>
      rintro list t rfl ht hlist
      cases hmin : list.min? with
      | none =>
          use 1
          simp [eraseLoop_succ, hmin]
      | some id =>
          have hid : id ∈ list := ExtTreeSet.min?_mem hmin
          cases hb : t.find? id with
          | none =>
              use 1
              simp [eraseLoop_succ, hmin, hb]
          | some b =>
              have hsub : ∀ y ∈ b.getSubBuckets, s.Link id y := fun y hy => ht.link ⟨b, hb, hy⟩
              have hnext : ∀ y ∈ nextIds recursive list id b, Reach s recursive ids y := by
                intro y hy
                obtain ⟨-, hy⟩ | ⟨rfl, hlinked⟩ := mem_nextIds.mp hy
                · exact hlist y hy
                · obtain ⟨z, hz, hpath⟩ := hlist id hid
                  exact ⟨z, hz, hpath.tail (hsub y hlinked)⟩
              have hstep := workStep_nextIds (r := reached) recursive hid
                fun hrecursive y hy => ⟨hrecursive, hlist id hid, hsub y hy⟩
              obtain ⟨fuel, hfuel⟩ := ih _ hstep (nextIds recursive list id b) (eraseAt filter t b)
                rfl ((eraseAt_within filter hb).trans ht) hnext
              use fuel + 1
              simp only [eraseLoop_succ, hmin, hb]
              exact hfuel

/-- On links with no cycle an erase ends. -/
theorem eraseLoop_terminates (h : s.Acyclic) (recursive : Bool) (filter : PolicyKey)
    (ids : ExtTreeSet PolicyBucketId) :
  ∃ fuel, (eraseLoop recursive filter fuel ids s).isSome
  := eraseLoop_terminates_of_reach (fun x _ _ => h x) filter

/-! ### Endless erases -/

/-- There is a client that no policy of a storage is for. -/
theorem exists_fresh_client (s : Buckets) :
  ∃ client : PolicyKeyFeature, client ≠ PolicyKeyFeature.anyValue
    ∧ ∀ id b, s.find? id = some b → ∀ p ∈ b, p.key.client ≠ client
  := by
  let clients : Finset PolicyKeyFeature :=
    (s.map.toList.flatMap fun e => e.2.policies.toList.map fun q => q.2.key.client).toFinset
  obtain ⟨client, hclient⟩ := Infinite.exists_notMem_finset
    (insert PolicyKeyFeature.anyValue clients)
  simp only [Finset.mem_insert, not_or] at hclient
  use client, hclient.1
  intro id b hb p hp heq
  apply hclient.2
  simp only [clients, List.mem_toFinset, List.mem_flatMap, List.mem_map]
  use (id, b), ExtTreeMap.mem_toList_iff_getElem?_eq_some.mpr hb
  use (p.key.glue, p), ExtTreeMap.mem_toList_iff_getElem?_eq_some.mpr hp

/-- While a bucket on a cycle is in the work list, an erase that matches nothing goes
on. -/
theorem eraseLoop_endless (hdangling : s.NoDangling)
    (hfilter : ∀ id b, s.find? id = some b → ∀ p ∈ b, p.key.matchFilter filter = false)
    (fuel : ℕ) {ids : ExtTreeSet PolicyBucketId} (hids : ∀ id ∈ ids, hasBucket s id = true)
    (hcycle : ∃ x ∈ ids, Relation.TransGen s.Link x x) :
  eraseLoop true filter fuel ids s = none
  := by
  induction fuel generalizing ids with
  | zero => rfl
  | succ fuel ih =>
      obtain ⟨x, hx, hcycle⟩ := hcycle
      rw [eraseLoop_succ]
      cases hmin : ids.min? with
      | none =>
          rw [ExtTreeSet.min?_eq_none_iff.mp hmin] at hx
          simp at hx
      | some id =>
          have hid : id ∈ ids := ExtTreeSet.min?_mem hmin
          obtain ⟨b, hb⟩ := hasBucket_iff.mp (hids id hid)
          simp only [hb, eraseAt_eq_self hb (hfilter id b hb)]
          apply ih
          · intro y hy
            obtain ⟨-, hy⟩ | ⟨-, hy⟩ := mem_nextIds.mp hy
            · apply hids y hy
            · apply hasBucket_iff.mpr
              apply hdangling id y ⟨b, hb, hy⟩
          · by_cases heq : x = id
            · -- the bucket on the cycle is taken, and the next one on the cycle comes in
              subst heq
              obtain ⟨y, hxy, hyx⟩ := Relation.TransGen.head'_iff.mp hcycle
              obtain ⟨c, hc, hy⟩ := hxy
              obtain rfl := Option.some.inj (hb.symm.trans hc)
              use y, mem_nextIds.mpr (Or.inr ⟨rfl, hy⟩)
              exact Relation.TransGen.tail' hyx ⟨b, hb, hy⟩
            · use x, mem_nextIds.mpr (Or.inl ⟨heq, hx⟩)

/-! ### Runs -/

/-- The recursive checks and erases that start in existing buckets end. -/
def Terminates (s : Buckets) : Prop :=
  ∀ id, hasBucket s id = true →
    (∀ order key, ∃ fuel, (checkPolicy fuel order s key id true).isSome)
    ∧ ∀ filter, ∃ fuel, (InMemoryStorageBackend.erasePolicies fuel s id true filter).isSome

/-- The operations that change a storage. -/
inductive Operation where
  | insertPolicies (groups : ExtTreeMap PolicyBucketId (List Policy))
  | deletePolicies (groups : ExtTreeMap PolicyBucketId (List PolicyKey))
  | addOrUpdateBucket (id : PolicyBucketId) (defaultBucketPolicy : PolicyResult)
  | deleteBucket (id : PolicyBucketId)
  | erasePolicies (id : PolicyBucketId) (recursive : Bool) (filter : PolicyKey)

/-- What an operation ends with; only an erase may still be running when the fuel is used
up. -/
def Operation.perform (fuel : ℕ) (s : Buckets) :
    Operation → Option (Outcome StorageException Buckets)
  | .insertPolicies groups => some (Storage.insertPolicies s groups)
  | .deletePolicies groups => some (Storage.deletePolicies s groups)
  | .addOrUpdateBucket id d => some (Storage.addOrUpdateBucket s id d)
  | .deleteBucket id => some (Storage.deleteBucket s id)
  | .erasePolicies id recursive filter => Storage.erasePolicies fuel s id recursive filter

/-- A run of the storage, with the operations performed and the storages they were
performed on.  An operation ends by returning or by throwing. -/
inductive Run : Buckets → List (Buckets × Operation) → Buckets → Prop where
  | nil (s : Buckets) : Run s [] s
  | cons {s t : Buckets} {op : Operation} {o : Outcome StorageException Buckets}
      {steps : List (Buckets × Operation)} (fuel : ℕ) (performed : op.perform fuel s = some o)
      (rest : Run o.state steps t) : Run s ((s, op) :: steps) t

/-- An operation makes no cycle: an insertion that is accepted leaves links with no cycle,
those of its own policies and of the policies it does not replace. -/
def Operation.MakesNoCycle (s : Buckets) : Operation → Prop
  | .insertPolicies groups =>
      checkGroups s groups.toList = none → Relation.Acyclic (LinkAfter s groups)
  | _ => True

variable {op : Operation} {fuel : ℕ} {o : Outcome StorageException Buckets}

/-- No operation leaves a link dangling. -/
theorem Operation.perform_noDangling (h : op.perform fuel s = some o) (hs : s.NoDangling) :
  o.state.NoDangling
  := by
  cases op with
  | insertPolicies groups =>
      obtain rfl := Option.some.inj h
      apply insertPolicies_noDangling hs
  | deletePolicies groups =>
      obtain rfl := Option.some.inj h
      apply (deletePolicies_within s groups).noDangling hs
      intro id hid
      rw [(deletePolicies_spec s groups).2.2.1.hasBucket_eq]
      exact hid
  | addOrUpdateBucket id d =>
      obtain rfl := Option.some.inj h
      apply (addOrUpdateBucket_within s id d).noDangling hs
      intro id' hid'
      apply addOrUpdateBucket_hasBucket s id d hid'
  | deleteBucket id =>
      obtain rfl := Option.some.inj h
      apply deleteBucket_noDangling hs
  | erasePolicies id recursive filter =>
      obtain ⟨hsame, hwithin⟩ := eraseLoop_within h
      apply hwithin.noDangling hs
      intro id' hid'
      rw [hsame.hasBucket_eq]
      exact hid'

/-- The links an operation leaves have no cycle exactly when it makes none. -/
theorem Operation.perform_acyclic (h : op.perform fuel s = some o) (hs : s.Acyclic) :
  o.state.Acyclic ↔ op.MakesNoCycle s
  := by
  cases op with
  | insertPolicies groups =>
      obtain rfl := Option.some.inj h
      cases hcheck : checkGroups s groups.toList with
      | some e =>
          rw [insertPolicies_refused hcheck]
          simp [MakesNoCycle, hcheck, hs]
      | none =>
          rw [Buckets.Acyclic, link_insertPolicies hcheck]
          simp [MakesNoCycle, hcheck]
  | deletePolicies groups =>
      obtain rfl := Option.some.inj h
      exact iff_of_true ((deletePolicies_within s groups).acyclic hs) trivial
  | addOrUpdateBucket id d =>
      obtain rfl := Option.some.inj h
      exact iff_of_true ((addOrUpdateBucket_within s id d).acyclic hs) trivial
  | deleteBucket id =>
      obtain rfl := Option.some.inj h
      exact iff_of_true ((deleteBucket_within s id).acyclic hs) trivial
  | erasePolicies id recursive filter =>
      exact iff_of_true ((eraseLoop_within h).2.acyclic hs) trivial

/-- On a storage with no dangling link, termination is the absence of cycles. -/
theorem terminates_iff_acyclic (hdangling : s.NoDangling) :
  Terminates s ↔ s.Acyclic
  := by
  constructor
  · intro h x hcycle
    obtain ⟨y, ⟨b, hb, -⟩, -⟩ := Relation.TransGen.head'_iff.mp hcycle
    obtain ⟨client, hany, hfresh⟩ := exists_fresh_client s
    obtain ⟨fuel, hfuel⟩ := (h x (hasBucket_iff.mpr ⟨b, hb⟩)).2 ⟨client, [], []⟩
    have hendless : InMemoryStorageBackend.erasePolicies fuel s x true ⟨client, [], []⟩ = none := by
      apply eraseLoop_endless hdangling
      · intro id c hc p hp
        simp [PolicyKey.matchFilter, PolicyKeyFeature.matchFilter, PolicyKeyFeature.isAny, hany,
          hfresh id c hc p hp]
      · intro id hid
        obtain rfl : x = id := by simpa using hid
        exact hasBucket_iff.mpr ⟨b, hb⟩
      · use x
        simpa using hcycle
    rw [hendless] at hfuel
    contradiction
  · intro h id hid
    constructor
    · intro order key
      obtain ⟨b, hb⟩ := hasBucket_iff.mp hid
      obtain ⟨r, n, hn⟩ := settles_of_acyclic hdangling h order key hb
      use n
      rw [hn n le_rfl]
      rfl
    · intro filter
      apply eraseLoop_terminates h

theorem initial_lookup (id : PolicyBucketId) (key : PolicyKey) :
  initial.lookup id key = none
  := by
  rw [initial, Buckets.lookup_put]
  split
  · simp [PolicyBucket.empty]
  · simp [Buckets.lookup, Buckets.find?]

theorem not_link_initial (x y : PolicyBucketId) :
  ¬ initial.Link x y
  := by
  rw [Buckets.link_iff_lookup]
  simp [initial_lookup]

/-- Along a run the storages have no dangling links, and no cycle as long as no operation
makes one. -/
theorem Run.terminates_iff {s t : Buckets} {steps : List (Buckets × Operation)}
    (h : Run s steps t) (hdangling : s.NoDangling) (hacyclic : s.Acyclic) :
  (∀ step ∈ steps, Terminates step.1) ∧ Terminates t
    ↔ ∀ step ∈ steps, step.2.MakesNoCycle step.1
  := by
  induction h with
  | nil s =>
      simp [(terminates_iff_acyclic hdangling).mpr hacyclic]
  | @cons s t op o steps fuel performed rest ih =>
      have hdangling' := Operation.perform_noDangling performed hdangling
      have hstep := Operation.perform_acyclic performed hacyclic
      simp only [List.forall_mem_cons, (terminates_iff_acyclic hdangling).mpr hacyclic, true_and]
      constructor
      · intro hall
        have hnext : o.state.Acyclic := by
          rw [← terminates_iff_acyclic hdangling']
          cases rest with
          | nil => exact hall.2
          | cons _ _ _ => exact hall.1 _ List.mem_cons_self
        exact ⟨hstep.mp hnext, (ih hdangling' hnext).mp hall⟩
      · rintro ⟨hmakes, hall⟩
        exact (ih hdangling' (hstep.mpr hmakes)).mpr hall

/-- Every storage reached in a run from the storage that holds the default bucket only is
free of endless checks and erases, exactly when every insertion of the run keeps the links
free of cycles. -/
theorem run_terminates_iff {t : Buckets} {steps : List (Buckets × Operation)}
    (h : Run initial steps t) :
  (∀ step ∈ steps, Terminates step.1) ∧ Terminates t
    ↔ ∀ step ∈ steps, step.2.MakesNoCycle step.1
  := by
  apply h.terminates_iff
  · intro x y hxy
    exact absurd hxy (not_link_initial x y)
  · apply Relation.Acyclic.of_rank fun _ => 0
    intro x y hxy
    exact absurd hxy (not_link_initial x y)

/-- The policy that sends every key on to a bucket. -/
def forward (id : PolicyBucketId) : Policy where
  key := ⟨PolicyKeyFeature.wildcardValue, PolicyKeyFeature.wildcardValue,
    PolicyKeyFeature.wildcardValue⟩
  result := ⟨BUCKET, id⟩

/-- The request to forward every key from the default bucket to another one. -/
def forwardAll (id : PolicyBucketId) : ExtTreeMap PolicyBucketId (List Policy) :=
  (∅ : ExtTreeMap PolicyBucketId (List Policy)).insert defaultPolicyBucketId [forward id]

/-- A run that adds a bucket and links to it. -/
theorem run_forwarding_terminates :
  let target : PolicyBucketId := Str.ofString "target"
  let added := (addOrUpdateBucket initial target ⟨ALLOW, []⟩).state
  let linked := (insertPolicies added (forwardAll target)).state
  Run initial [(initial, .addOrUpdateBucket target ⟨ALLOW, []⟩),
      (added, .insertPolicies (forwardAll target))] linked
    ∧ Terminates added ∧ Terminates linked
  := by
  intro target added linked
  have hrun : Run initial [(initial, .addOrUpdateBucket target ⟨ALLOW, []⟩),
      (added, .insertPolicies (forwardAll target))] linked :=
    .cons 0 rfl (.cons 0 rfl (.nil linked))
  have hcheck : checkGroups added (forwardAll target).toList = none := by decide
  have hacyclic : linked.Acyclic := by
    apply Buckets.acyclic_of_rank fun id => if id = defaultPolicyBucketId then 1 else 0
    decide
  have hmakes : Operation.MakesNoCycle added (.insertPolicies (forwardAll target)) := by
    intro _
    rw [← link_insertPolicies hcheck]
    exact hacyclic
  have hall := (run_terminates_iff hrun).mpr (by simpa using ⟨trivial, hmakes⟩)
  simp only [List.forall_mem_cons] at hall
  exact ⟨hrun, hall.1.2.1, hall.2⟩

/-- The default bucket may be linked to itself.  Then a recursive check of it never ends,
and neither does a recursive erase whose filter does not match the link. -/
theorem insertPolicies_endless :
  let looped := (insertPolicies initial (forwardAll defaultPolicyBucketId)).state
  Run initial [(initial, .insertPolicies (forwardAll defaultPolicyBucketId))] looped
    ∧ hasBucket looped defaultPolicyBucketId = true
    ∧ (∀ fuel, checkPolicy fuel .sorted looped ⟨[], [], []⟩ defaultPolicyBucketId true = none)
    ∧ (∀ fuel, InMemoryStorageBackend.erasePolicies fuel looped defaultPolicyBucketId true
        ⟨[], [], []⟩ = none)
    ∧ ¬ Terminates looped
  := by
  intro looped
  have hbucket : hasBucket looped defaultPolicyBucketId = true := by decide
  obtain ⟨b, hb⟩ := hasBucket_iff.mp hbucket
  have hcheck : ∀ fuel,
      checkPolicy fuel .sorted looped ⟨[], [], []⟩ defaultPolicyBucketId true = none := by
    intro fuel
    induction fuel with
    | zero => simp only [checkPolicy, searchBucket, hb, minimalPolicy]
    | succ fuel ih =>
        have hlisting : (looped.find? defaultPolicyBucketId).map
            (fun b => listing .sorted (b.filtered ⟨[], [], []⟩))
              = some [forward defaultPolicyBucketId] := by decide
        rw [hb, Option.map_some, Option.some.injEq] at hlisting
        rw [checkPolicy_succ hb, hlisting]
        simp [minimalLoop, forward, ih]
  have herase : ∀ fuel, InMemoryStorageBackend.erasePolicies fuel looped defaultPolicyBucketId
      true ⟨[], [], []⟩ = none := by
    intro fuel
    apply eraseLoop_endless
    · decide
    · decide
    · intro id hid
      obtain rfl : defaultPolicyBucketId = id := by simpa using hid
      exact hbucket
    · use defaultPolicyBucketId
      refine ⟨by simp, Relation.TransGen.single ?_⟩
      decide
  refine ⟨.cons 0 rfl (.nil looped), hbucket, hcheck, herase, fun hterminates => ?_⟩
  obtain ⟨fuel, hfuel⟩ := (hterminates defaultPolicyBucketId hbucket).1 .sorted ⟨[], [], []⟩
  rw [hcheck fuel] at hfuel
  contradiction

end Storage

end Cynara
