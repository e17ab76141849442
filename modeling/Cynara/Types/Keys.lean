import Cynara.Types.Bucket
import Cynara.Client.CapacityCache

/-!
# Keys as texts

A bucket stores its policies under glued keys, and a client stores the answers to its checks under
keys that are glued in another way.  Both texts determine the key, so the maps under such texts are
maps under keys.  For a bucket this is stated for the operations that insert, delete and look up
policies: what is found after any of them is what a map from keys to results has.
-/

open Std

namespace Cynara

open PolicyKeyHelpers

namespace PolicyBucket

/-- The operations that change the policies of a bucket. -/
inductive Operation where
  | insertPolicy (policy : Policy)
  | deletePolicy (key : PolicyKey)
  | deletePolicyIf (predicate : Policy → Bool)

def perform (b : PolicyBucket) : Operation → PolicyBucket
  | .insertPolicy policy => b.insertPolicy policy
  | .deletePolicy key => b.deletePolicy key
  | .deletePolicyIf predicate => b.deletePolicyIf predicate

/-- What the operations do to a map from keys to results. -/
def performMap (results : PolicyKey → Option PolicyResult) :
    Operation → PolicyKey → Option PolicyResult
  | .insertPolicy policy => Function.update results policy.key (some policy.result)
  | .deletePolicy key => Function.update results key none
  | .deletePolicyIf predicate => fun key =>
      (results key).filter fun result => !predicate ⟨key, result⟩

/-- The results of a bucket by their keys. -/
def results (b : PolicyBucket) (key : PolicyKey) : Option PolicyResult :=
  b.policies[key.glue]?.map Policy.result

theorem results_eq_some_iff {b : PolicyBucket} {key : PolicyKey} {result : PolicyResult} :
  b.results key = some result ↔ (⟨key, result⟩ : Policy) ∈ b
  := by
  rw [results, Option.map_eq_some_iff, mem_def]
  constructor
  · rintro ⟨policy, hpolicy, rfl⟩
    obtain rfl : key = policy.key := PolicyKey.glue_injective (b.glued _ policy hpolicy)
    exact hpolicy
  · intro hpolicy
    exact ⟨⟨key, result⟩, hpolicy, rfl⟩

/-- An operation on the glued keys is the operation on the keys. -/
theorem results_perform (b : PolicyBucket) (operation : Operation) :
  (b.perform operation).results = performMap b.results operation
  := by
  funext key
  apply Option.ext
  intro result
  rw [results_eq_some_iff]
  cases operation with
  | insertPolicy policy =>
      rw [perform, mem_insertPolicy, performMap, Function.update_apply]
      split
      · rename_i hkey
        obtain rfl := hkey
        obtain ⟨key, result'⟩ := policy
        simp [eq_comm]
      · rename_i hkey
        have hne : (⟨key, result⟩ : Policy) ≠ policy := fun heq => hkey (by rw [← heq])
        simp [hne, hkey, results_eq_some_iff]
  | deletePolicy key' =>
      rw [perform, mem_deletePolicy, performMap, Function.update_apply]
      split
      · rename_i hkey
        simp [hkey]
      · rename_i hkey
        simp [hkey, results_eq_some_iff]
  | deletePolicyIf predicate =>
      rw [perform, mem_deletePolicyIf, performMap, Option.filter_eq_some_iff, results_eq_some_iff,
        Bool.not_eq_true']

/-- The results after a sequence of operations. -/
theorem results_foldl_perform (operations : List Operation) (b : PolicyBucket) :
  (operations.foldl perform b).results = operations.foldl performMap b.results
  := by
  induction operations generalizing b with
  | nil => rfl
  | cons operation operations ih =>
      rw [List.foldl_cons, List.foldl_cons, ih, results_perform]

end PolicyBucket

/-- Keys that are glued to the same text are equal, in both ways in which keys are glued.  So the
policies that are found in a bucket are those that a map from keys to results has after the same
operations. -/
theorem keyed_by_features :
  Function.Injective
      (fun key : PolicyKeyFeature × PolicyKeyFeature × PolicyKeyFeature =>
        glueKey key.1 key.2.1 key.2.2)
    ∧ Function.Injective CapacityCache.keyToString
    ∧ ∀ (b : PolicyBucket) (operations : List PolicyBucket.Operation),
      let b' := operations.foldl PolicyBucket.perform b
      let map := operations.foldl PolicyBucket.performMap b.results
      b'.results = map
        ∧ ∀ (key : PolicyKey) (p : Policy),
          p ∈ b'.filtered key ↔ map p.key = some p.result ∧ p.key.Covers key
  := by
  refine ⟨?_, CapacityCache.keyToString_injective, ?_⟩
  · rintro ⟨c, u, p⟩ ⟨c', u', p'⟩ h
    obtain ⟨rfl, rfl, rfl⟩ := glueKey_inj h
    rfl
  · intro b operations b' map
    have hresults : b'.results = map := PolicyBucket.results_foldl_perform operations b
    refine ⟨hresults, fun key p => ?_⟩
    rw [PolicyBucket.mem_filtered, ← hresults, PolicyBucket.results_eq_some_iff]

end Cynara
