import Cynara.Library.Maps
import Cynara.Library.NodeList
import Cynara.Library.Runs
import Cynara.Types.ErrorCodes
import Cynara.Types.Policy

/-!
# The cache of a client

Results of checks are cached in a map.  A list of the keys, with the key that was used last at
its front, tells which entry to remove when the cache is full; each entry of the map has an
iterator into the list.

The map and the list stay in step under every operation that is defined.  An operation is not
defined if it uses an element that has been erased.  This happens when a new result is stored
under a key that is already cached while the cache is full: an entry is removed although none
is added, and if it is the entry of the key itself, its iterator is used after that.

The registry of the plugins is not part of the cache here: the plugin for each policy type is given
with an operation, and `clear` does not call the plugins.
-/

namespace Cynara

open Std

/-- The text that a client gives for its session. -/
abbrev ClientSession := Str

/-- A plugin of a client: whether a result may be cached; whether a cached result may be used,
whether its session is to be updated, and the result it is changed to; and the answer for a
result, which may be changed too. -/
structure ClientPlugin where
  isCacheable : ClientSession → PolicyResult → Bool
  isUsable : ClientSession → ClientSession → PolicyResult → Bool × Bool × PolicyResult
  toResult : ClientSession → PolicyResult → Int × PolicyResult

/-- `NaiveInterpreter`, which a client registers for the predefined policy types. -/
def naiveInterpreter : ClientPlugin where
  isCacheable _ _ := true
  isUsable _ _ result := (true, false, result)
  toResult _ result :=
    (if result.policyType = PredefinedPolicyType.ALLOW then CYNARA_API_ACCESS_ALLOWED
      else CYNARA_API_ACCESS_DENIED, result)

/-- The plugins of a client that has loaded no others. -/
def naivePlugins (policyType : PolicyType) : Option ClientPlugin :=
  if policyType = PredefinedPolicyType.ALLOW ∨ policyType = PredefinedPolicyType.DENY then
    some naiveInterpreter
  else none

/-- A cached result, the session it belongs to and the iterator of its key. -/
structure CachedValue where
  result : PolicyResult
  session : ClientSession
  usage : ℕ

/-- The cache: the keys in the order of their use, and the results. -/
structure CapacityCache where
  capacity : ℕ
  keyUsage : NodeList Str := .empty
  keyValue : ExtTreeMap Str CachedValue := ∅

namespace CapacityCache

/-- The key of an entry.  The lengths make the texts of different keys different. -/
def keyToString (key : PolicyKey) : Str :=
  let separator : UInt8 := 1
  key.client ++ key.privilege ++ key.user ++ separator :: Str.decimal key.client.length
    ++ separator :: Str.decimal key.privilege.length
    ++ separator :: Str.decimal key.user.length

/-- Different keys have different entries. -/
theorem keyToString_injective :
  Function.Injective keyToString
  := by
  have hfree : ∀ n, (1 : UInt8) ∉ Str.decimal n := fun n =>
    Str.notMem_numeral (by omega) (by omega) rfl
  intro key key' h
  obtain ⟨h, huser⟩ := Str.append_sep_inj_right (hfree _) (hfree _) h
  obtain ⟨h, hprivilege⟩ := Str.append_sep_inj_right (hfree _) (hfree _) h
  obtain ⟨h, hclient⟩ := Str.append_sep_inj_right (hfree _) (hfree _) h
  -- the lengths tell where each part of the text ends
  obtain ⟨h, hu⟩ := List.append_inj' h (Str.decimal_injective huser)
  obtain ⟨hc, hp⟩ := List.append_inj h (Str.decimal_injective hclient)
  cases key
  cases key'
  simp_all

/-- Remove the entry whose key is at the back of the list. -/
def evict (c : CapacityCache) : Option CapacityCache := do
  let (lastUsedKey, keyUsage) ← c.keyUsage.popBack
  let _ ← c.keyValue[lastUsedKey]?
  return { c with keyUsage := keyUsage, keyValue := c.keyValue.erase lastUsedKey }

/-- Remove an entry together with its key. -/
def remove (cacheKey : Str) (c : CapacityCache) : Option CapacityCache := do
  let cached ← c.keyValue[cacheKey]?
  let keyUsage ← c.keyUsage.erase cached.usage
  return { c with keyUsage := keyUsage, keyValue := c.keyValue.erase cacheKey }

/-- There is no result if an element is used that has been erased. -/
def get (plugins : PolicyType → Option ClientPlugin) (session : ClientSession) (key : PolicyKey)
    (c : CapacityCache) : Option (Int × CapacityCache) :=
  match c.keyValue[keyToString key]? with
  | none => some (CYNARA_API_CACHE_MISS, c)
  | some cached =>
      match plugins cached.result.policyType with
      | none => some (CYNARA_API_ACCESS_DENIED, c)
      | some plugin =>
          let (usable, updateSession, result) :=
            plugin.isUsable session cached.session cached.result
          if usable then do
            let keyUsage ← c.keyUsage.spliceFront cached.usage
            let prevSession := if updateSession then session else cached.session
            let (answer, result) := plugin.toResult session result
            let cached := ⟨result, prevSession, cached.usage⟩
            return (answer,
              { c with
                keyUsage := keyUsage
                keyValue := c.keyValue.insert (keyToString key) cached })
          else do
            return (CYNARA_API_CACHE_MISS, ← c.remove (keyToString key))

/-- Write an entry, and move its key to the front of the list, or add it there. -/
def place (found : Bool) (session : ClientSession) (cacheKey : Str) (result : PolicyResult)
    (c : CapacityCache) : Option CapacityCache := do
  let keyUsage ←
    if found then do
      let cached ← c.keyValue[cacheKey]?
      c.keyUsage.spliceFront cached.usage
    else some (c.keyUsage.pushFront cacheKey)
  let usage ← keyUsage.front?
  return { c with
    keyUsage := keyUsage
    keyValue := c.keyValue.insert cacheKey ⟨result, session, usage⟩ }

/-- Store a result that may be cached.  Whether there is an entry for the key is looked up
before another entry may be removed. -/
def store (session : ClientSession) (cacheKey : Str) (result : PolicyResult) (c : CapacityCache) :
    Option CapacityCache := do
  let found := c.keyValue[cacheKey]?.isSome
  let c ← if c.keyValue.size = c.capacity then c.evict else some c
  c.place found session cacheKey result

/-- The answer is the translation of the result, which is stored if its plugin says so. -/
def update (plugins : PolicyType → Option ClientPlugin) (session : ClientSession)
    (key : PolicyKey) (result : PolicyResult) (c : CapacityCache) :
    Option (Int × CapacityCache) :=
  match plugins result.policyType with
  | none => some (CYNARA_API_ACCESS_DENIED, c)
  | some plugin => do
      let c ←
        if c.capacity > 0 then
          if plugin.isCacheable session result then c.store session (keyToString key) result
          else if c.keyValue[keyToString key]?.isSome then c.remove (keyToString key)
          else some c
        else some c
      return ((plugin.toResult session result).1, c)

/-- The answer for a result: it is denied if there is no plugin for its type. -/
def translate (plugins : PolicyType → Option ClientPlugin) (session : ClientSession)
    (result : PolicyResult) : Int :=
  match plugins result.policyType with
  | none => CYNARA_API_ACCESS_DENIED
  | some plugin => (plugin.toResult session result).1

theorem update_answer {plugins : PolicyType → Option ClientPlugin} {session : ClientSession}
    {key : PolicyKey} {result : PolicyResult} {c c' : CapacityCache} {answer : Int}
    (h : c.update plugins session key result = some (answer, c')) :
  answer = translate plugins session result
  := by
  unfold translate
  unfold update at h
  split at h
  · exact (congrArg Prod.fst (Option.some.inj h)).symm
  · rename_i plugin hplugin
    have hanswer : ∀ d : CapacityCache,
        some ((plugin.toResult session result).1, d) = some (answer, c') →
          answer = (plugin.toResult session result).1 :=
      fun d hd => (congrArg Prod.fst (Option.some.inj hd)).symm
    dsimp only at h
    split at h
    · split at h
      · obtain ⟨d, -, hd⟩ := Option.bind_eq_some_iff.mp h
        exact hanswer d hd
      · split at h
        · obtain ⟨d, -, hd⟩ := Option.bind_eq_some_iff.mp h
          exact hanswer d hd
        · exact hanswer c h
    · exact hanswer c h

/-- All entries are removed. -/
def clear (c : CapacityCache) : CapacityCache := { c with keyUsage := .empty, keyValue := ∅ }

inductive Operation where
  | get (plugins : PolicyType → Option ClientPlugin) (session : ClientSession) (key : PolicyKey)
  | update (plugins : PolicyType → Option ClientPlugin) (session : ClientSession)
      (key : PolicyKey) (result : PolicyResult)
  | clear

/-- The cache after an operation; there is none if an erased element is used. -/
def perform (c : CapacityCache) : Operation → Option CapacityCache
  | .get plugins session key => (c.get plugins session key).map Prod.snd
  | .update plugins session key result => (c.update plugins session key result).map Prod.snd
  | .clear => some c.clear

/-- The key an operation uses: the one of a cached result that is returned, or of a result that
is stored. -/
def used (c : CapacityCache) : Operation → Option Str
  | .get plugins session key => do
      let cached ← c.keyValue[keyToString key]?
      let plugin ← plugins cached.result.policyType
      if (plugin.isUsable session cached.session cached.result).1 then some (keyToString key)
      else none
  | .update plugins session key result => do
      let plugin ← plugins result.policyType
      if plugin.isCacheable session result then some (keyToString key) else none
  | .clear => none

/-! ### The list and the map in step -/

/-- The list and the map have the same keys, each once, the iterators of the map point to the
keys in the list, and there are not more entries than the capacity. -/
structure Consistent (c : CapacityCache) : Prop where
  linked : ∀ i k, (i, k) ∈ c.keyUsage.nodes ↔ ∃ v, c.keyValue[k]? = some v ∧ v.usage = i
  nodup : c.keyUsage.values.Nodup
  size_le : c.keyValue.size ≤ c.capacity

/-- The cache without the entry for a key. -/
def drop (k : Str) (v : CachedValue) (c : CapacityCache) : CapacityCache :=
  { c with keyUsage := c.keyUsage.without v.usage, keyValue := c.keyValue.erase k }

/-- The cache with a new value for a key, whose iterator is kept. -/
def touch (k : Str) (v : CachedValue) (c : CapacityCache) : CapacityCache :=
  { c with keyUsage := c.keyUsage.toFront v.usage, keyValue := c.keyValue.insert k v }

/-- The cache with a new key. -/
def add (k : Str) (result : PolicyResult) (session : ClientSession) (c : CapacityCache) :
    CapacityCache :=
  { c with
    keyUsage := c.keyUsage.pushFront k
    keyValue := c.keyValue.insert k ⟨result, session, c.keyUsage.next⟩ }

section

variable {c c' : CapacityCache} {k k' : Str} {v v' : CachedValue}
variable {result : PolicyResult} {session : ClientSession}

/-- Each key is in the list once if the list and the map are in step. -/
theorem nodup_of_linked
    (h : ∀ i k, (i, k) ∈ c.keyUsage.nodes ↔ ∃ v, c.keyValue[k]? = some v ∧ v.usage = i) :
  c.keyUsage.values.Nodup
  := by
  apply List.Nodup.map_on _ (c.keyUsage.nodup.of_map _)
  rintro ⟨i, k⟩ hi ⟨j, k'⟩ hj heq
  obtain rfl : k = k' := heq
  obtain ⟨v, hv, rfl⟩ := (h i k).mp hi
  obtain ⟨w, hw, rfl⟩ := (h j k).mp hj
  obtain rfl : v = w := by simpa [hv] using hw
  rfl

theorem Consistent.node (hc : c.Consistent) (hk : c.keyValue[k]? = some v) :
  (v.usage, k) ∈ c.keyUsage.nodes
  := (hc.linked _ _).mpr ⟨v, hk, rfl⟩

theorem Consistent.mem_values (hc : c.Consistent) :
  k ∈ c.keyUsage.values ↔ k ∈ c.keyValue
  := by
  rw [NodeList.mem_values, ExtTreeMap.mem_iff_isSome_getElem?, Option.isSome_iff_exists]
  constructor
  · rintro ⟨i, hi⟩
    obtain ⟨v, hv, -⟩ := (hc.linked i k).mp hi
    exact ⟨v, hv⟩
  · rintro ⟨v, hv⟩
    exact ⟨v.usage, hc.node hv⟩

/-- An entry is dropped from the list and from the map. -/
theorem Consistent.drop (hc : c.Consistent) (hk : c.keyValue[k]? = some v) :
  (c.drop k v).Consistent
  := by
  have hlinked : ∀ i k', (i, k') ∈ (c.keyUsage.without v.usage).nodes ↔
      ∃ w, (c.keyValue.erase k)[k']? = some w ∧ w.usage = i := by
    intro i k'
    rw [NodeList.mem_without, hc.linked, ExtTreeMap.getElem?_erase]
    by_cases hkey : k = k'
    · subst hkey
      simp only [hk, Option.some.injEq, compare_self, ↓reduceIte, reduceCtorEq, false_and,
        exists_false, iff_false, not_and, not_not]
      rintro ⟨w, rfl, rfl⟩
      rfl
    · simp only [LawfulEqCmp.compare_eq_iff_eq, hkey, ↓reduceIte, and_iff_left_iff_imp]
      rintro ⟨w, hw, rfl⟩ heq
      have hnode := hc.node hw
      rw [heq] at hnode
      exact hkey (NodeList.eq_of_mem (hc.node hk) hnode)
  refine ⟨hlinked, nodup_of_linked (c := c.drop k v) hlinked, ?_⟩
  apply Nat.le_trans _ hc.size_le
  exact ExtTreeMap.size_erase_le

/-- An entry is moved to the front. -/
theorem Consistent.touch (hc : c.Consistent) (hk : c.keyValue[k]? = some v)
    (hv : v'.usage = v.usage) :
  (c.touch k v').Consistent
  := by
  have hlinked : ∀ i k', (i, k') ∈ (c.keyUsage.toFront v'.usage).nodes ↔
      ∃ w, (c.keyValue.insert k v')[k']? = some w ∧ w.usage = i := by
    intro i k'
    rw [hv, NodeList.mem_toFront (hc.node hk), hc.linked, ExtTreeMap.getElem?_insert]
    by_cases hkey : k = k'
    · subst hkey
      simp [hk, hv]
    · simp [hkey]
  refine ⟨hlinked, nodup_of_linked (c := c.touch k v') hlinked, ?_⟩
  have hmem : k ∈ c.keyValue := by simp [ExtTreeMap.mem_iff_isSome_getElem?, hk]
  change (c.keyValue.insert k v').size ≤ c.capacity
  rw [ExtTreeMap.size_insert, if_pos (ExtTreeMap.mem_iff_contains.mp hmem)]
  exact hc.size_le

/-- An entry is added at the front. -/
theorem Consistent.add (hc : c.Consistent) (hk : k ∉ c.keyValue)
    (hsize : c.keyValue.size < c.capacity) :
  (c.add k result session).Consistent
  := by
  have hlinked : ∀ i k', (i, k') ∈ (c.keyUsage.pushFront k).nodes ↔
      ∃ w, (c.keyValue.insert k ⟨result, session, c.keyUsage.next⟩)[k']? = some w ∧
        w.usage = i := by
    intro i k'
    rw [NodeList.mem_pushFront, hc.linked, ExtTreeMap.getElem?_insert]
    by_cases hkey : k = k'
    · subst hkey
      simp [hk, eq_comm]
    · simp [hkey, Ne.symm hkey]
  refine ⟨hlinked, nodup_of_linked (c := c.add k result session) hlinked, ?_⟩
  change (c.keyValue.insert k _).size ≤ c.capacity
  rw [ExtTreeMap.size_insert, if_neg (mt ExtTreeMap.mem_iff_contains.mpr hk)]
  exact hsize

theorem consistent_clear (c : CapacityCache) :
  c.clear.Consistent
  := by
  refine ⟨?_, List.nodup_nil, Nat.zero_le _⟩
  simp [clear, NodeList.empty]

/-! ### What the operations do -/

/-- An entry of a consistent cache can be removed. -/
theorem remove_eq (hc : c.Consistent) (hk : c.keyValue[k]? = some v) :
  c.remove k = some (c.drop k v)
  := by
  simp [remove, hk, NodeList.erase_of_mem (hc.node hk), CapacityCache.drop]

/-- A full cache loses the entry whose key is the last one in the list. -/
theorem evict_eq (hc : c.Consistent) (hne : 0 < c.keyValue.size) :
  ∃ k v, c.keyValue[k]? = some v ∧ c.evict = some (c.drop k v) ∧
    c.keyUsage.values = (c.drop k v).keyUsage.values ++ [k]
  := by
  have hnodes : c.keyUsage.nodes ≠ [] := by
    intro hnil
    have hmem : ∀ k, k ∉ c.keyValue := by
      intro k hk
      rw [← hc.mem_values, NodeList.mem_values] at hk
      simp [hnil] at hk
    rw [ExtTreeMap.eq_empty_iff_forall_not_mem.mpr hmem] at hne
    simp at hne
  obtain ⟨i, k, hpop, hlast⟩ := NodeList.popBack_of_ne_nil hnodes
  have hnode : (i, k) ∈ c.keyUsage.nodes := by simp [hlast]
  obtain ⟨v, hk, rfl⟩ := (hc.linked i k).mp hnode
  refine ⟨k, v, hk, ?_, ?_⟩
  · simp [evict, hpop, hk, CapacityCache.drop]
  · simp [NodeList.values, hlast, CapacityCache.drop]

theorem place_found (hc : c.Consistent) (hk : c.keyValue[k]? = some v) :
  c.place true session k result = some (c.touch k ⟨result, session, v.usage⟩)
  := by
  simp [place, hk, NodeList.spliceFront_of_mem (hc.node hk),
    NodeList.front?_toFront (hc.node hk), CapacityCache.touch]

/-- The iterator of an entry that has been removed is used. -/
theorem place_gone (hk : k ∉ c.keyValue) :
  c.place true session k result = none
  := by
  simp [place, hk]

theorem place_new :
  c.place false session k result = some (c.add k result session)
  := rfl

theorem store_eq (hsize : c.keyValue.size ≠ c.capacity) :
  c.store session k result = c.place c.keyValue[k]?.isSome session k result
  := by
  simp [store, hsize]

theorem store_full (hsize : c.keyValue.size = c.capacity) (hevict : c.evict = some c') :
  c.store session k result = c'.place c.keyValue[k]?.isSome session k result
  := by
  simp [store, hsize, hevict]

theorem mem_drop {a : Str} :
  a ∈ (c.drop k v).keyValue ↔ a ≠ k ∧ a ∈ c.keyValue
  := by
  simp [CapacityCache.drop, ExtTreeMap.mem_erase, @eq_comm _ a k]

theorem mem_touch {a : Str} :
  a ∈ (c.touch k v).keyValue ↔ a = k ∨ a ∈ c.keyValue
  := by
  simp [CapacityCache.touch, ExtTreeMap.mem_insert, @eq_comm _ a k]

theorem mem_add {a : Str} :
  a ∈ (c.add k result session).keyValue ↔ a = k ∨ a ∈ c.keyValue
  := by
  simp [CapacityCache.add, ExtTreeMap.mem_insert, @eq_comm _ a k]

theorem mem_of_mem_evict (h : c.evict = some c') (hk : k ∈ c'.keyValue) :
  k ∈ c.keyValue
  := by
  obtain ⟨⟨lastUsedKey, keyUsage⟩, -, h⟩ := Option.bind_eq_some_iff.mp h
  obtain ⟨v, -, h⟩ := Option.bind_eq_some_iff.mp h
  obtain rfl := Option.some.inj h
  exact ExtTreeMap.mem_of_mem_erase hk

theorem mem_of_mem_removed {cacheKey : Str} (h : c.remove cacheKey = some c')
    (hk : k ∈ c'.keyValue) :
  k ∈ c.keyValue
  := by
  obtain ⟨v, -, h⟩ := Option.bind_eq_some_iff.mp h
  obtain ⟨keyUsage, -, h⟩ := Option.bind_eq_some_iff.mp h
  obtain rfl := Option.some.inj h
  exact ExtTreeMap.mem_of_mem_erase hk

theorem mem_of_mem_place {found : Bool} {session : ClientSession} {cacheKey : Str}
    {result : PolicyResult} (h : c.place found session cacheKey result = some c')
    (hk : k ∈ c'.keyValue) :
  k = cacheKey ∨ k ∈ c.keyValue
  := by
  cases found with
  | false =>
      rw [place_new] at h
      obtain rfl := Option.some.inj h
      exact mem_add.mp hk
  | true =>
      cases hv : c.keyValue[cacheKey]? with
      | none => simp [place, hv] at h
      | some v =>
          simp only [place, hv, ↓reduceIte, Option.bind_eq_bind, Option.bind_some,
            Option.bind_eq_some_iff] at h
          obtain ⟨keyUsage, -, usage, -, h⟩ := h
          obtain rfl := Option.some.inj h
          rw [ExtTreeMap.mem_insert, Std.compare_eq_iff_eq] at hk
          exact hk.imp_left Eq.symm

theorem mem_of_mem_store {session : ClientSession} {cacheKey : Str} {result : PolicyResult}
    (h : c.store session cacheKey result = some c') (hk : k ∈ c'.keyValue) :
  k = cacheKey ∨ k ∈ c.keyValue
  := by
  by_cases hsize : c.keyValue.size = c.capacity
  · cases hevict : c.evict with
    | none => simp [store, hsize, hevict] at h
    | some c₁ =>
        rw [store_full hsize hevict] at h
        exact (mem_of_mem_place h hk).imp_right (mem_of_mem_evict hevict)
  · rw [store_eq hsize] at h
    exact mem_of_mem_place h hk

/-- Looking up an answer adds no entry, and an answer that is not a miss comes from one. -/
theorem mem_of_get {plugins : PolicyType → Option ClientPlugin} {session : ClientSession}
    {key : PolicyKey} {answer : Int} (h : c.get plugins session key = some (answer, c')) :
  (∀ k ∈ c'.keyValue, k ∈ c.keyValue)
    ∧ (answer ≠ CYNARA_API_CACHE_MISS → keyToString key ∈ c.keyValue)
  := by
  unfold get at h
  split at h
  · obtain ⟨rfl, rfl⟩ := Prod.mk.inj (Option.some.inj h)
    exact ⟨fun _ hk => hk, fun hne => absurd rfl hne⟩
  · rename_i cached hcached
    have hmem : keyToString key ∈ c.keyValue := by
      rw [ExtTreeMap.mem_iff_isSome_getElem?, hcached]
      rfl
    refine ⟨?_, fun _ => hmem⟩
    intro k hk
    split at h
    · obtain ⟨rfl, rfl⟩ := Prod.mk.inj (Option.some.inj h)
      exact hk
    · simp only at h
      split at h
      · obtain ⟨keyUsage, -, h⟩ := Option.bind_eq_some_iff.mp h
        obtain ⟨rfl, rfl⟩ := Prod.mk.inj (Option.some.inj h)
        rw [ExtTreeMap.mem_insert, Std.compare_eq_iff_eq] at hk
        obtain rfl | hk := hk
        · exact hmem
        · exact hk
      · obtain ⟨c₁, hremove, h⟩ := Option.bind_eq_some_iff.mp h
        obtain ⟨rfl, rfl⟩ := Prod.mk.inj (Option.some.inj h)
        exact mem_of_mem_removed hremove hk

/-- A result adds at most the entry of its key, and only if it may be cached. -/
theorem mem_of_update {plugins : PolicyType → Option ClientPlugin} {session : ClientSession}
    {key : PolicyKey} {result : PolicyResult} {answer : Int}
    (h : c.update plugins session key result = some (answer, c')) (hk : k ∈ c'.keyValue) :
  k ∈ c.keyValue
    ∨ k = keyToString key ∧ (c.used (.update plugins session key result)).isSome
  := by
  cases hplugin : plugins result.policyType with
  | none =>
      simp only [update, hplugin, Option.some.injEq, Prod.mk.injEq] at h
      obtain ⟨rfl, rfl⟩ := h
      exact Or.inl hk
  | some plugin =>
      simp only [update, hplugin, Option.bind_eq_bind] at h
      split at h
      · split at h
        · rename_i hcacheable
          obtain ⟨c₁, hstore, h⟩ := Option.bind_eq_some_iff.mp h
          obtain ⟨rfl, rfl⟩ := Prod.mk.inj (Option.some.inj h)
          obtain rfl | hk := mem_of_mem_store hstore hk
          · exact Or.inr ⟨rfl, by simp [used, hplugin, hcacheable]⟩
          · exact Or.inl hk
        · split at h
          · obtain ⟨c₁, hremove, h⟩ := Option.bind_eq_some_iff.mp h
            obtain ⟨rfl, rfl⟩ := Prod.mk.inj (Option.some.inj h)
            exact Or.inl (mem_of_mem_removed hremove hk)
          · obtain ⟨rfl, rfl⟩ := Prod.mk.inj (Option.some.inj h)
            exact Or.inl hk
      · obtain ⟨rfl, rfl⟩ := Prod.mk.inj (Option.some.inj h)
        exact Or.inl hk

theorem getElem?_drop_of_ne (hne : k ≠ k') :
  (c.drop k v).keyValue[k']? = c.keyValue[k']?
  := by
  simp [CapacityCache.drop, ExtTreeMap.getElem?_erase, hne]

theorem size_drop (hk : c.keyValue[k]? = some v) :
  (c.drop k v).keyValue.size = c.keyValue.size - 1
  := by
  have hmem : c.keyValue.contains k := by simp [ExtTreeMap.contains_eq_isSome_getElem?, hk]
  simp [CapacityCache.drop, ExtTreeMap.size_erase, hmem]

end

/-! ### The order of the keys -/

/-- The keys in the list are in the order of their last uses, all before the given time. -/
structure Ordered (lastUse : Str → ℕ) (clock : ℕ) (c : CapacityCache) : Prop where
  decreasing : c.keyUsage.values.Pairwise fun k k' => lastUse k' < lastUse k
  lt_clock : ∀ k ∈ c.keyUsage.values, lastUse k < clock

section

variable {c c' : CapacityCache} {k : Str} {v v' : CachedValue} {lastUse : Str → ℕ} {clock : ℕ}
variable {result : PolicyResult} {session : ClientSession}

theorem Ordered.sublist (h : c.Ordered lastUse clock)
    (hsub : c'.keyUsage.values.Sublist c.keyUsage.values) :
  c'.Ordered lastUse clock
  := ⟨h.decreasing.sublist hsub, fun k hk => h.lt_clock k (hsub.subset hk)⟩

theorem Ordered.succ (h : c.Ordered lastUse clock) :
  c.Ordered lastUse (clock + 1)
  := ⟨h.decreasing, fun k hk => Nat.lt_succ_of_lt (h.lt_clock k hk)⟩

/-- The key that is used comes to the front. -/
theorem Ordered.cons {rest : List Str} (h : c.Ordered lastUse clock)
    (hvalues : c'.keyUsage.values = k :: rest) (hsub : rest.Sublist c.keyUsage.values)
    (hk : k ∉ rest) :
  c'.Ordered (Function.update lastUse k clock) (clock + 1)
  := by
  have hold : ∀ a ∈ rest, Function.update lastUse k clock a = lastUse a := by
    intro a ha
    apply Function.update_of_ne
    rintro rfl
    exact hk ha
  have hlt : ∀ a ∈ rest, Function.update lastUse k clock a < clock := by
    intro a ha
    rw [hold a ha]
    exact h.lt_clock a (hsub.subset ha)
  constructor
  · rw [hvalues, List.pairwise_cons]
    constructor
    · intro a ha
      rw [Function.update_self]
      exact hlt a ha
    · apply (h.decreasing.sublist hsub).imp_of_mem
      intro a b ha hb hab
      rw [hold a ha, hold b hb]
      exact hab
  · rw [hvalues, List.forall_mem_cons, Function.update_self]
    exact ⟨Nat.lt_succ_self _, fun a ha => Nat.lt_succ_of_lt (hlt a ha)⟩

theorem Ordered.drop (h : c.Ordered lastUse clock) :
  (c.drop k v).Ordered lastUse clock
  := h.sublist (List.filter_sublist.map Prod.snd)

theorem Ordered.touch (h : c.Ordered lastUse clock) (hc : c.Consistent)
    (hk : c.keyValue[k]? = some v) (hv : v'.usage = v.usage) :
  (c.touch k v').Ordered (Function.update lastUse k clock) (clock + 1)
  := by
  have hvalues : (c.touch k v').keyUsage.values = k :: (c.drop k v).keyUsage.values := by
    change (c.keyUsage.toFront v'.usage).nodes.map Prod.snd = _
    rw [hv, NodeList.nodes_toFront (hc.node hk)]
    rfl
  apply h.cons hvalues (List.filter_sublist.map Prod.snd)
  rw [(hc.drop hk).mem_values, mem_drop]
  exact fun hmem => hmem.1 rfl

theorem Ordered.add (h : c.Ordered lastUse clock) (hc : c.Consistent) (hk : k ∉ c.keyValue) :
  (c.add k result session).Ordered (Function.update lastUse k clock) (clock + 1)
  := by
  apply h.cons rfl (List.Sublist.refl _)
  rw [hc.mem_values]
  exact hk

theorem ordered_clear (c : CapacityCache) :
  c.clear.Ordered lastUse clock
  := ⟨List.Pairwise.nil, fun k hk => by cases hk⟩

/-- A cache in step stays so when an entry is written. -/
theorem place_sound {found : Bool} (hc : c.Consistent) (ho : c.Ordered lastUse clock)
    (hnew : found = false → k ∉ c.keyValue ∧ c.keyValue.size < c.capacity)
    (hplace : c.place found session k result = some c') :
  c'.Consistent ∧ c'.Ordered (Function.update lastUse k clock) (clock + 1) ∧
    c'.capacity = c.capacity
  := by
  cases found with
  | false =>
      rw [place_new] at hplace
      cases hplace
      obtain ⟨hk, hsize⟩ := hnew rfl
      exact ⟨hc.add hk hsize, ho.add hc hk, rfl⟩
  | true =>
      cases hk : c.keyValue[k]? with
      | none =>
          rw [place_gone (by simp [ExtTreeMap.mem_iff_isSome_getElem?, hk])] at hplace
          cases hplace
      | some v =>
          rw [place_found hc hk] at hplace
          cases hplace
          exact ⟨hc.touch hk rfl, ho.touch hc hk rfl, rfl⟩

/-- Storing keeps the cache consistent and in the order of use. -/
theorem store_sound (hc : c.Consistent) (ho : c.Ordered lastUse clock) (hcap : 0 < c.capacity)
    (hstore : c.store session k result = some c') :
  c'.Consistent ∧ c'.Ordered (Function.update lastUse k clock) (clock + 1) ∧
    c'.capacity = c.capacity
  := by
  by_cases hsize : c.keyValue.size = c.capacity
  · obtain ⟨k₀, v₀, hk₀, hevict, -⟩ := evict_eq hc (hsize ▸ hcap)
    rw [store_full hsize hevict] at hstore
    refine place_sound (c := c.drop k₀ v₀) (hc.drop hk₀) ho.drop ?_ hstore
    intro hfound
    rw [mem_drop, size_drop hk₀, ExtTreeMap.mem_iff_isSome_getElem?, hfound]
    exact ⟨by simp, Nat.lt_of_lt_of_eq (Nat.sub_lt (hsize ▸ hcap) Nat.one_pos) hsize⟩
  · rw [store_eq hsize] at hstore
    refine place_sound hc ho ?_ hstore
    intro hfound
    rw [ExtTreeMap.mem_iff_isSome_getElem?, hfound]
    exact ⟨Bool.false_ne_true, Nat.lt_of_le_of_ne hc.size_le hsize⟩

end

/-! ### Runs -/

/-- A cache together with the time of the last use of each key. -/
structure Tracked where
  cache : CapacityCache
  clock : ℕ
  lastUse : Str → ℕ

namespace Tracked

/-- Take note of the key an operation uses. -/
def note (σ : Tracked) : Option Str → Str → ℕ
  | none => σ.lastUse
  | some k => Function.update σ.lastUse k σ.clock

/-- An operation takes one unit of time. -/
def step (σ : Tracked) (op : Operation) : Option Tracked :=
  (σ.cache.perform op).map fun c => ⟨c, σ.clock + 1, σ.note (σ.cache.used op)⟩

/-- An empty cache at time 0. -/
def start (capacity : ℕ) : Tracked := ⟨⟨capacity, .empty, ∅⟩, 0, fun _ => 0⟩

/-- The states that a sequence of operations leads to from an empty cache. -/
def Reachable (σ : Tracked) : Prop :=
  ∃ capacity > 0, Runs.Reaches step (fun _ _ => True) (start capacity) σ

variable {σ σ' : Tracked} {op : Operation}

/-- An update removes an entry only if it is the one of the key, whose new result may not be
cached, or if the key is new, the cache is full and no key has been used less recently than
the one that is removed. -/
def Evicts (σ : Tracked) (c : CapacityCache) : Operation → Prop
  | .update plugins session key result =>
      ∀ k ∈ σ.cache.keyValue, k ∉ c.keyValue →
        (k = keyToString key ∧
          ∃ plugin ∈ plugins result.policyType, ¬ plugin.isCacheable session result) ∨
        (keyToString key ∉ σ.cache.keyValue ∧ keyToString key ∈ c.keyValue ∧
          σ.cache.keyValue.size = σ.cache.capacity ∧
          ∀ k' ∈ σ.cache.keyValue, k' ≠ k → σ.lastUse k < σ.lastUse k')
  | _ => True

/-- The operation uses no erased element, leaves the list and the map in step, and removes what
it may remove. -/
def Correct (σ : Tracked) (op : Operation) : Prop :=
  ∃ c, σ.cache.perform op = some c ∧ c.Consistent ∧ σ.Evicts c op

/-- The operation is not an update of a key that is already cached with a result that may be
cached, in a cache that is full. -/
def Harmless (σ : Tracked) : Operation → Prop
  | .update plugins session key result =>
      ∀ plugin ∈ plugins result.policyType, plugin.isCacheable session result →
        keyToString key ∈ σ.cache.keyValue → σ.cache.keyValue.size ≠ σ.cache.capacity
  | _ => True

/-- What holds in every state. -/
structure Sound (σ : Tracked) : Prop where
  consistent : σ.cache.Consistent
  ordered : σ.cache.Ordered σ.lastUse σ.clock
  capacity_pos : 0 < σ.cache.capacity

/-- A reading operation is always defined, and keeps the cache in step. -/
theorem Sound.get (h : σ.Sound) (plugins : PolicyType → Option ClientPlugin)
    (session : ClientSession) (key : PolicyKey) :
  ∃ c, σ.cache.perform (.get plugins session key) = some c ∧ c.Consistent ∧
    c.Ordered (σ.note (σ.cache.used (.get plugins session key))) (σ.clock + 1) ∧
    c.capacity = σ.cache.capacity
  := by
  cases hk : σ.cache.keyValue[keyToString key]? with
  | none =>
      have hused : σ.cache.used (.get plugins session key) = none := by simp [used, hk]
      rw [hused]
      refine ⟨σ.cache, ?_, h.consistent, h.ordered.succ, rfl⟩
      simp [perform, CapacityCache.get, hk]
  | some cached =>
      cases hp : plugins cached.result.policyType with
      | none =>
          have hused : σ.cache.used (.get plugins session key) = none := by simp [used, hk, hp]
          rw [hused]
          refine ⟨σ.cache, ?_, h.consistent, h.ordered.succ, rfl⟩
          simp [perform, CapacityCache.get, hk, hp]
      | some plugin =>
          cases hu : (plugin.isUsable session cached.session cached.result).1 with
          | true =>
              have hused : σ.cache.used (.get plugins session key) = some (keyToString key) := by
                simp [used, hk, hp, hu]
              rw [hused]
              let verdict := plugin.isUsable session cached.session cached.result
              let prevSession := if verdict.2.1 then session else cached.session
              let result := (plugin.toResult session verdict.2.2).2
              refine ⟨σ.cache.touch _ ⟨result, prevSession, cached.usage⟩, ?_,
                h.consistent.touch hk rfl, h.ordered.touch h.consistent hk rfl, rfl⟩
              simp [perform, CapacityCache.get, hk, hp, hu, CapacityCache.touch,
                NodeList.spliceFront_of_mem (h.consistent.node hk)]
              rfl
          | false =>
              have hused : σ.cache.used (.get plugins session key) = none := by
                simp [used, hk, hp, hu]
              rw [hused]
              refine ⟨_, ?_, h.consistent.drop hk, h.ordered.drop.succ, rfl⟩
              simp [perform, CapacityCache.get, hk, hp, hu, remove_eq h.consistent hk]

section Update

variable {plugins : PolicyType → Option ClientPlugin} {session : ClientSession}
variable {key : PolicyKey} {result : PolicyResult} {plugin : ClientPlugin}

theorem perform_update_unknown (hp : plugins result.policyType = none) :
  σ.cache.perform (.update plugins session key result) = some σ.cache ∧
    σ.cache.used (.update plugins session key result) = none
  := by
  simp [perform, CapacityCache.update, used, hp]

theorem Sound.perform_store (h : σ.Sound) (hp : plugins result.policyType = some plugin)
    (hcacheable : plugin.isCacheable session result) :
  σ.cache.perform (.update plugins session key result) =
      σ.cache.store session (keyToString key) result ∧
    σ.cache.used (.update plugins session key result) = some (keyToString key)
  := by
  simp [perform, CapacityCache.update, used, hp, hcacheable, h.capacity_pos]

/-- A result that may not be cached: the entry for the key is removed, if there is one. -/
theorem Sound.perform_remove (h : σ.Sound) (key : PolicyKey)
    (hp : plugins result.policyType = some plugin)
    (hcacheable : plugin.isCacheable session result = false) :
  ∃ c, σ.cache.perform (.update plugins session key result) = some c ∧
    σ.cache.used (.update plugins session key result) = none ∧
    (c = σ.cache ∨ ∃ v, σ.cache.keyValue[keyToString key]? = some v ∧
      c = σ.cache.drop (keyToString key) v)
  := by
  cases hk : σ.cache.keyValue[keyToString key]? with
  | none =>
      use σ.cache
      simp [perform, CapacityCache.update, used, hp, hcacheable, hk]
  | some v =>
      use σ.cache.drop (keyToString key) v
      simp [perform, CapacityCache.update, used, hp, hcacheable, hk, h.capacity_pos,
        remove_eq h.consistent hk]

/-- An update that is defined keeps the cache in step. -/
theorem Sound.update (h : σ.Sound) {c : CapacityCache}
    (hperform : σ.cache.perform (.update plugins session key result) = some c) :
  c.Consistent ∧
    c.Ordered (σ.note (σ.cache.used (.update plugins session key result))) (σ.clock + 1) ∧
    c.capacity = σ.cache.capacity
  := by
  cases hp : plugins result.policyType with
  | none =>
      obtain ⟨heq, hused⟩ := perform_update_unknown (σ := σ) hp
      rw [hused]
      obtain rfl : σ.cache = c := Option.some.inj (heq.symm.trans hperform)
      exact ⟨h.consistent, h.ordered.succ, rfl⟩
  | some plugin =>
      cases hcacheable : plugin.isCacheable session result with
      | true =>
          obtain ⟨heq, hused⟩ := h.perform_store hp hcacheable
          rw [hused]
          exact store_sound h.consistent h.ordered h.capacity_pos (heq.symm.trans hperform)
      | false =>
          obtain ⟨c', heq, hused, hc⟩ := h.perform_remove key hp hcacheable
          rw [hused]
          obtain rfl : c' = c := Option.some.inj (heq.symm.trans hperform)
          rcases hc with rfl | ⟨v, hk, rfl⟩
          · exact ⟨h.consistent, h.ordered.succ, rfl⟩
          · exact ⟨h.consistent.drop hk, h.ordered.drop.succ, rfl⟩

end Update

/-- An operation keeps the cache sound. -/
theorem Sound.step (h : σ.Sound) (hstep : σ.step op = some σ') :
  σ'.Sound
  := by
  obtain ⟨c, hperform, rfl⟩ := Option.map_eq_some_iff.mp hstep
  suffices hc : c.Consistent ∧ c.Ordered (σ.note (σ.cache.used op)) (σ.clock + 1) ∧
      c.capacity = σ.cache.capacity from ⟨hc.1, hc.2.1, hc.2.2 ▸ h.capacity_pos⟩
  cases op with
  | get plugins session key =>
      obtain ⟨c', heq, hc'⟩ := h.get plugins session key
      obtain rfl : c' = c := Option.some.inj (heq.symm.trans hperform)
      exact hc'
  | update plugins session key result => exact h.update hperform
  | clear =>
      obtain rfl : σ.cache.clear = c := Option.some.inj hperform
      exact ⟨consistent_clear _, ordered_clear _, rfl⟩

/-- In every state that is reached the list and the map are in step. -/
theorem Reachable.sound (h : Reachable σ) :
  σ.Sound
  := by
  obtain ⟨capacity, hcap, h⟩ := h
  apply h.invariant
  · refine ⟨⟨?_, List.nodup_nil, Nat.zero_le _⟩, ⟨List.Pairwise.nil, ?_⟩, hcap⟩
    · simp [start, NodeList.empty]
    · simp [start, NodeList.empty, NodeList.values]
  · intro σ op σ' hsound _ hstep
    exact hsound.step hstep

/-! ### Updates of a full cache -/

section

variable {plugins : PolicyType → Option ClientPlugin} {session : ClientSession}
variable {key : PolicyKey} {result : PolicyResult} {plugin : ClientPlugin}

/-- The key that is removed from a full cache is the one that has not been used for longest. -/
theorem Sound.least (h : σ.Sound) {k : Str} {v : CachedValue}
    (hk : σ.cache.keyValue[k]? = some v)
    (hlast : σ.cache.keyUsage.values = (σ.cache.drop k v).keyUsage.values ++ [k]) :
  ∀ k' ∈ σ.cache.keyValue, k' ≠ k → σ.lastUse k < σ.lastUse k'
  := by
  intro k' hk' hne
  have hdecreasing := h.ordered.decreasing
  rw [hlast, List.pairwise_append] at hdecreasing
  apply hdecreasing.2.2 k' _ k (List.mem_singleton_self k)
  rw [(h.consistent.drop hk).mem_values, mem_drop]
  exact ⟨hne, hk'⟩

/-- A result that may be cached is stored: nothing is removed unless the cache is full and the
key is new. -/
theorem Sound.correct_store (h : σ.Sound) (hp : plugins result.policyType = some plugin)
    (hcacheable : plugin.isCacheable session result)
    (hsize : keyToString key ∈ σ.cache.keyValue → σ.cache.keyValue.size ≠ σ.cache.capacity) :
  ∃ c, σ.cache.perform (.update plugins session key result) = some c ∧
    σ.Evicts c (.update plugins session key result)
  := by
  rw [(h.perform_store hp hcacheable).1]
  by_cases hfull : σ.cache.keyValue.size = σ.cache.capacity
  · have hnew : keyToString key ∉ σ.cache.keyValue := fun hmem => hsize hmem hfull
    obtain ⟨k, v, hk, hevict, hlast⟩ := evict_eq h.consistent (hfull ▸ h.capacity_pos)
    refine ⟨(σ.cache.drop k v).add (keyToString key) result session, ?_, ?_⟩
    · rw [store_full hfull hevict, ExtTreeMap.getElem?_eq_none hnew]
      exact place_new
    · intro k' hk' hgone
      rw [mem_add, mem_drop] at hgone
      obtain rfl : k' = k := by
        by_contra hne
        exact hgone (Or.inr ⟨hne, hk'⟩)
      exact Or.inr ⟨hnew, mem_add.mpr (Or.inl rfl), hfull, h.least hk hlast⟩
  · rw [store_eq hfull]
    cases hk : σ.cache.keyValue[keyToString key]? with
    | none =>
        refine ⟨_, place_new, ?_⟩
        intro k hk hgone
        exact absurd (mem_add.mpr (Or.inr hk)) hgone
    | some v =>
        refine ⟨_, place_found h.consistent hk, ?_⟩
        intro k hk hgone
        exact absurd (mem_touch.mpr (Or.inr hk)) hgone

/-- If the key is cached and the cache is full, an entry is removed though none is added. -/
theorem Sound.not_correct (h : σ.Sound) (hp : plugins result.policyType = some plugin)
    (hcacheable : plugin.isCacheable session result) (hmem : keyToString key ∈ σ.cache.keyValue)
    (hfull : σ.cache.keyValue.size = σ.cache.capacity) {c : CapacityCache}
    (hperform : σ.cache.perform (.update plugins session key result) = some c) :
  ¬ σ.Evicts c (.update plugins session key result)
  := by
  obtain ⟨k, v, hk, hevict, -⟩ := evict_eq h.consistent (hfull ▸ h.capacity_pos)
  obtain ⟨v', hk'⟩ := Option.isSome_iff_exists.mp (ExtTreeMap.mem_iff_isSome_getElem?.mp hmem)
  rw [(h.perform_store hp hcacheable).1, store_full hfull hevict, hk', Option.isSome_some]
    at hperform
  by_cases hkey : k = keyToString key
  · rw [place_gone (fun hdrop => (mem_drop.mp hdrop).1 hkey.symm)] at hperform
    cases hperform
  · rw [place_found (h.consistent.drop hk) ((getElem?_drop_of_ne hkey).trans hk')] at hperform
    cases hperform
    intro hevicts
    have hk₀ : k ∈ σ.cache.keyValue := by simp [ExtTreeMap.mem_iff_isSome_getElem?, hk]
    have hgone : k ∉ ((σ.cache.drop k v).touch (keyToString key)
        ⟨result, session, v'.usage⟩).keyValue := by
      simp [mem_touch, mem_drop, hkey]
    rcases hevicts k hk₀ hgone with hsame | hnew
    · exact hkey hsame.1
    · exact hnew.1 hmem

end

/-- An operation in a state that has been reached uses no erased element, keeps the list and the
map in step and removes only what it may remove, exactly if it does not update a key that is
cached already, with a result that may be cached, in a cache that is full. -/
theorem correct_iff_harmless (σ : Tracked) (op : Operation) (h : Reachable σ) :
  σ.Correct op ↔ σ.Harmless op
  := by
  have hsound := h.sound
  cases op with
  | get plugins session key =>
      obtain ⟨c, hperform, hc, -⟩ := hsound.get plugins session key
      exact iff_of_true ⟨c, hperform, hc, trivial⟩ trivial
  | clear => exact iff_of_true ⟨_, rfl, consistent_clear _, trivial⟩ trivial
  | update plugins session key result =>
      constructor
      · rintro ⟨c, hperform, -, hevicts⟩ plugin hp hcacheable hmem hfull
        exact hsound.not_correct hp hcacheable hmem hfull hperform hevicts
      · intro hharmless
        suffices hdefined : ∃ c, σ.cache.perform (.update plugins session key result) = some c ∧
            σ.Evicts c (.update plugins session key result) by
          obtain ⟨c, hperform, hevicts⟩ := hdefined
          exact ⟨c, hperform, (hsound.update hperform).1, hevicts⟩
        cases hp : plugins result.policyType with
        | none =>
            refine ⟨σ.cache, (perform_update_unknown hp).1, ?_⟩
            intro k hk hgone
            exact absurd hk hgone
        | some plugin =>
            cases hcacheable : plugin.isCacheable session result with
            | true =>
                exact hsound.correct_store hp hcacheable (hharmless plugin hp hcacheable)
            | false =>
                obtain ⟨c, hperform, -, hc⟩ := hsound.perform_remove key hp hcacheable
                refine ⟨c, hperform, ?_⟩
                intro k hk hgone
                rcases hc with rfl | ⟨v, -, rfl⟩
                · exact absurd hk hgone
                · refine Or.inl ⟨?_, plugin, hp, by simp [hcacheable]⟩
                  by_contra hne
                  exact hgone (mem_drop.mpr ⟨hne, hk⟩)

/-- A plugin for every policy type that lets every result be cached and used. -/
def lenient (_ : PolicyType) : Option ClientPlugin :=
  some ⟨fun _ _ => true, fun _ _ result => (true, false, result), fun _ result => (0, result)⟩

/-- Store a result for a key. -/
def storing (c : UInt8) : Operation := .update lenient [] ⟨[c], [], []⟩ ⟨0, []⟩

/-- What a run from an empty cache reaches. -/
theorem reachable_of_run {capacity : ℕ} {ops : List Operation} (hcap : 0 < capacity)
    (hrun : Runs.run step (fun _ _ => true) ops (start capacity) = some σ) :
  Reachable σ
  := ⟨capacity, hcap, Runs.Reaches.run (fun _ _ _ => trivial) .start hrun⟩

/-- In a cache for two results, a new result may be stored under the only key there is. -/
theorem correct_refresh :
  ∃ σ, Reachable σ ∧ keyToString ⟨[97], [], []⟩ ∈ σ.cache.keyValue ∧
    σ.Correct (.update lenient [] ⟨[97], [], []⟩ ⟨0, []⟩)
  := by
  have hrun : (Runs.run step (fun _ _ => true) [storing 97] (start 2)).any (fun σ =>
      keyToString ⟨[97], [], []⟩ ∈ σ.cache.keyValue ∧
        σ.cache.keyValue.size ≠ σ.cache.capacity) = true := by
    decide +kernel
  obtain ⟨σ, hσ, hmem⟩ := (Option.any_eq_true _ _).mp hrun
  obtain ⟨hmem, hsize⟩ := of_decide_eq_true hmem
  have hreach : Reachable σ := reachable_of_run Nat.two_pos hσ
  refine ⟨σ, hreach, hmem, ?_⟩
  apply (correct_iff_harmless σ _ hreach).mpr
  intro plugin _ _ _
  exact hsize

/-- A cache for one result: the second update under the same key uses the iterator of the entry
it has removed.  A cache for two results: the second update under a key removes the entry for
the other one. -/
theorem not_correct_refresh :
  (∃ σ, Reachable σ ∧ σ.cache.perform (.update lenient [] ⟨[97], [], []⟩ ⟨0, []⟩) = none) ∧
    ∃ σ c, Reachable σ ∧
      σ.cache.perform (.update lenient [] ⟨[98], [], []⟩ ⟨0, []⟩) = some c ∧
      keyToString ⟨[98], [], []⟩ ∈ σ.cache.keyValue ∧
      keyToString ⟨[97], [], []⟩ ∈ σ.cache.keyValue ∧ keyToString ⟨[97], [], []⟩ ∉ c.keyValue
  := by
  constructor
  · have hrun : (Runs.run step (fun _ _ => true) [storing 97] (start 1)).any (fun σ =>
        (σ.cache.perform (.update lenient [] ⟨[97], [], []⟩ ⟨0, []⟩)).isNone) = true := by
      decide +kernel
    obtain ⟨σ, hσ, hnone⟩ := (Option.any_eq_true _ _).mp hrun
    exact ⟨σ, reachable_of_run Nat.one_pos hσ, Option.isNone_iff_eq_none.mp hnone⟩
  · have hrun : (Runs.run step (fun _ _ => true) [storing 97, storing 98] (start 2)).any
        (fun σ =>
          (σ.cache.perform (.update lenient [] ⟨[98], [], []⟩ ⟨0, []⟩)).any fun c =>
            keyToString ⟨[98], [], []⟩ ∈ σ.cache.keyValue ∧
            keyToString ⟨[97], [], []⟩ ∈ σ.cache.keyValue ∧
            keyToString ⟨[97], [], []⟩ ∉ c.keyValue) = true := by
      decide +kernel
    obtain ⟨σ, hσ, hany⟩ := (Option.any_eq_true _ _).mp hrun
    obtain ⟨c, hc, hmem⟩ := (Option.any_eq_true _ _).mp hany
    exact ⟨σ, c, reachable_of_run Nat.two_pos hσ, hc, of_decide_eq_true hmem⟩

end Tracked

end CapacityCache

end Cynara
