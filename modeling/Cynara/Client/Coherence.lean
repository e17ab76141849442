import Cynara.Library.Recency
import Cynara.Library.Runs
import Cynara.Client.CapacityCache

/-!
# What the cache of a client returns

The operations on a cache so far decide what it returns.  There is a result for a key if it has
been stored since the cache was cleared last, has not been found unusable since then and has not
been evicted, because the cache was full and its key was the one that had not been used for
longest, when a result was stored for a new key.

This is so if results are stored only for keys that are not in the cache, as the synchronous client
does, and if the plugins do not change the results.  The plugins are loaded once, so that the
policy types they support do not change, but their verdicts may.
-/

namespace Cynara

open Std Recency

namespace CapacityCache

/-! ### The verdicts of the plugins -/

section

variable (plugins : PolicyType → Option ClientPlugin) (session prevSession : ClientSession)
variable (result : PolicyResult)

/-- The plugin of the result wants it stored. -/
def cacheable : Bool :=
  (plugins result.policyType).any fun plugin => plugin.isCacheable session result

/-- The plugin of the result lets it be used in this session. -/
def usable : Bool :=
  (plugins result.policyType).any fun plugin => (plugin.isUsable session prevSession result).1

/-- The session of a result that is used. -/
def sessionAfter : ClientSession :=
  if (plugins result.policyType).any fun plugin =>
      (plugin.isUsable session prevSession result).2.1
  then session else prevSession

end

/-- The plugins support the given policy types, and do not change results. -/
structure Faithful (supported : Set PolicyType) (plugins : PolicyType → Option ClientPlugin) :
    Prop where
  isSome_iff : ∀ type, (plugins type).isSome ↔ type ∈ supported
  isUsable : ∀ type, ∀ plugin ∈ plugins type, ∀ session prevSession result,
    (plugin.isUsable session prevSession result).2.2 = result
  toResult : ∀ type, ∀ plugin ∈ plugins type, ∀ session result,
    (plugin.toResult session result).2 = result

/-! ### What is to be remembered -/

/-- A result and its session for each key. -/
abbrev Results := Memory PolicyKey (PolicyResult × ClientSession)

/-- What is remembered after an operation, in terms of keys and results only. -/
noncomputable def Results.next (capacity : ℕ) (m : Results) : Operation → Results
  | .get plugins session key =>
      match m.value key with
      | none => m.tick
      | some (result, prevSession) =>
          if usable plugins session prevSession result then
            m.use key (result, sessionAfter plugins session prevSession result)
          else m.forget key
  | .update plugins session key result =>
      if cacheable plugins session result then m.put capacity key (result, session) else m.tick
  | .clear => m.clear

/-- What is to be remembered after some operations. -/
noncomputable def remember (capacity : ℕ) (history : List Operation) : Results :=
  history.foldl (Results.next capacity) {}

/-- The session of the result for a key. -/
noncomputable def sessionOf (capacity : ℕ) (history : List Operation) (key : PolicyKey) :
    ClientSession :=
  ((remember capacity history).value key).elim [] Prod.snd

/-- The operation is an update for the key with a result that may be cached. -/
def Operation.Stores (key : PolicyKey) (result : PolicyResult) : Operation → Prop
  | .update plugins session key' result' =>
      key' = key ∧ result' = result ∧ cacheable plugins session result'
  | _ => False

/-- The cache is cleared, the result for the key is found unusable, or it is evicted. -/
def Operation.Removes (capacity : ℕ) (m : Results) (key : PolicyKey) : Operation → Prop
  | .get plugins session key' =>
      key' = key ∧ ∃ result prevSession, m.value key = some (result, prevSession) ∧
        ¬ usable plugins session prevSession result
  | .update plugins session key' result =>
      cacheable plugins session result ∧ m.Evicts capacity key' (result, session) key
  | .clear => True

/-- The result has been stored for the key by an operation, no result has been stored for the key
after that, and no operation since then has removed it. -/
def Stands (capacity : ℕ) (history : List Operation) (key : PolicyKey) (result : PolicyResult) :
    Prop :=
  Runs.Since (Results.next capacity) {} (Operation.Stores key result)
    (fun op => ∃ result, op.Stores key result) (fun m op => op.Removes capacity m key) history

section

variable {capacity : ℕ} {m : Results} {op : Operation}
variable {key : PolicyKey} {result : PolicyResult}

/-- One operation. -/
theorem value_next_iff :
  (∃ prevSession, (m.next capacity op).value key = some (result, prevSession))
    ↔ ¬ op.Removes capacity m key
      ∧ (op.Stores key result ∨ ¬ (∃ result, op.Stores key result)
        ∧ ∃ prevSession, m.value key = some (result, prevSession))
  := by
  cases op with
  | get plugins session key' =>
      simp only [Results.next, Operation.Removes, Operation.Stores, false_or]
      by_cases hkey : key' = key
      · subst hkey
        cases hvalue : m.value key' with
        | none => simp [Memory.tick, hvalue]
        | some v =>
            obtain ⟨result', prevSession⟩ := v
            by_cases husable : usable plugins session prevSession result'
            · simp [husable, Memory.use]
            · simp [husable, Memory.forget]
      · have hnext : (match m.value key' with
            | none => m.tick
            | some (result, prevSession) =>
                if usable plugins session prevSession result then
                  m.use key' (result, sessionAfter plugins session prevSession result)
                else m.forget key').value key = m.value key := by
          split
          · rfl
          · split
            · exact Function.update_of_ne (Ne.symm hkey) ..
            · exact Function.update_of_ne (Ne.symm hkey) ..
        rw [hnext]
        simp [hkey]
  | update plugins session key' result' =>
      simp only [Results.next, Operation.Removes, Operation.Stores]
      by_cases hcacheable : cacheable plugins session result'
      · simp only [hcacheable, ↓reduceIte, true_and, and_true]
        by_cases hevicts : m.Evicts capacity key' (result', session) key
        · simp [hevicts, Memory.value_put_of_evicts hevicts]
        · rw [Memory.value_put_of_not_evicts hevicts]
          by_cases hkey : key' = key
          · subst hkey
            simp [hevicts, Memory.use]
          · simp [hevicts, Memory.use, hkey, Ne.symm hkey]
      · simp [hcacheable, Memory.tick]
  | clear => simp [Results.next, Operation.Removes, Memory.clear]

/-- A result is remembered if it has been stored and has not been removed since. -/
theorem stands_iff {history : List Operation} :
  Stands capacity history key result
    ↔ ∃ prevSession, (remember capacity history).value key = some (result, prevSession)
  := by
  apply Runs.since_iff
    (P := fun m : Results => ∃ prevSession, m.value key = some (result, prevSession))
  · simp
  · intro m op
    exact value_next_iff

end

/-! ### The cache holds what is remembered -/

/-- The cache is in step, and has the entries that are remembered, in the order of their last
uses.  There are plugins for all of them. -/
structure Tracks (supported : Set PolicyType) (c : CapacityCache) (m : Results) : Prop where
  consistent : c.Consistent
  ordered : ∃ lastUse : Str → ℕ, (∀ key, lastUse (keyToString key) = m.lastUse key) ∧
    c.Ordered lastUse m.clock
  keys : ∀ k ∈ c.keyValue, ∃ key, keyToString key = k
  value : ∀ key,
    c.keyValue[keyToString key]?.map (fun v => (v.result, v.session)) = m.value key
  supports : ∀ key v, m.value key = some v → v.1.policyType ∈ supported

section

variable {supported : Set PolicyType} {c : CapacityCache} {m : Results} {key : PolicyKey}
variable {cached : CachedValue} {result : PolicyResult} {session : ClientSession}

theorem Tracks.mem_held (h : Tracks supported c m) :
  key ∈ m.held ↔ keyToString key ∈ c.keyValue
  := by
  rw [ExtTreeMap.mem_iff_isSome_getElem?, Memory.held, Set.mem_ofPred_eq, ← h.value,
    ← Option.isSome_iff_ne_none, Option.isSome_map]

/-- As many keys are remembered as there are entries. -/
theorem Tracks.ncard_held (h : Tracks supported c m) :
  m.held.ncard = c.keyValue.size
  := by
  have himage : keyToString '' m.held = {k | k ∈ c.keyValue} := by
    ext k
    constructor
    · rintro ⟨key, hkey, rfl⟩
      exact h.mem_held.mp hkey
    · intro hk
      obtain ⟨key, rfl⟩ := h.keys k hk
      exact ⟨key, h.mem_held.mpr hk, rfl⟩
  rw [← ExtTreeMap.ncard_setOf_mem, ← himage, Set.ncard_image_of_injective _ keyToString_injective]

theorem Tracks.value_of_cached (h : Tracks supported c m)
    (hcached : c.keyValue[keyToString key]? = some cached) :
  m.value key = some (cached.result, cached.session)
  := by
  rw [← h.value, hcached]
  rfl

theorem Tracks.tick (h : Tracks supported c m) :
  Tracks supported c m.tick
  := by
  obtain ⟨lastUse, hlastUse, hordered⟩ := h.ordered
  exact ⟨h.consistent, ⟨lastUse, hlastUse, hordered.succ⟩, h.keys, h.value, h.supports⟩

theorem Tracks.clear (h : Tracks supported c m) :
  Tracks supported c.clear m.clear
  := by
  obtain ⟨lastUse, hlastUse, -⟩ := h.ordered
  refine ⟨consistent_clear c, ⟨lastUse, hlastUse, ordered_clear c⟩, ?_, ?_, ?_⟩
  · simp [CapacityCache.clear]
  · simp [CapacityCache.clear, Memory.clear]
  · simp [Memory.clear]

/-- The time of the last use of a key is the same on both sides when the key is used. -/
theorem update_lastUse {lastUse : Str → ℕ}
    (hlastUse : ∀ key, lastUse (keyToString key) = m.lastUse key) (key' : PolicyKey) :
  Function.update lastUse (keyToString key) m.clock (keyToString key')
    = Function.update m.lastUse key m.clock key'
  := by
  by_cases hkey : key' = key
  · subst hkey
    simp
  · simp [hkey, keyToString_injective.ne hkey, hlastUse]

theorem Tracks.forget (h : Tracks supported c m)
    (hcached : c.keyValue[keyToString key]? = some cached) :
  Tracks supported (c.drop (keyToString key) cached) (m.forget key)
  := by
  obtain ⟨lastUse, hlastUse, hordered⟩ := h.ordered
  have hvalue : ∀ key', (c.drop (keyToString key) cached).keyValue[keyToString key']?.map
      (fun v => (v.result, v.session)) = (m.forget key).value key' := by
    intro key'
    by_cases hkey : key' = key
    · subst hkey
      simp [CapacityCache.drop, Memory.forget]
    · rw [getElem?_drop_of_ne (keyToString_injective.ne (Ne.symm hkey)), h.value]
      simp [Memory.forget, hkey]
  refine ⟨h.consistent.drop hcached, ⟨lastUse, hlastUse, hordered.drop.succ⟩, ?_, hvalue, ?_⟩
  · intro k hk
    exact h.keys k (mem_drop.mp hk).2
  · intro key' v hv
    by_cases hkey : key' = key
    · simp [Memory.forget, hkey] at hv
    · exact h.supports key' v (by simpa [Memory.forget, hkey] using hv)

theorem Tracks.use (h : Tracks supported c m) (cached' : CachedValue)
    (hcached : c.keyValue[keyToString key]? = some cached) (husage : cached'.usage = cached.usage)
    (hresult : cached'.result = cached.result) :
  Tracks supported (c.touch (keyToString key) cached')
    (m.use key (cached'.result, cached'.session))
  := by
  obtain ⟨lastUse, hlastUse, hordered⟩ := h.ordered
  refine ⟨h.consistent.touch hcached husage,
    ⟨_, update_lastUse hlastUse, hordered.touch h.consistent hcached husage⟩, ?_, ?_, ?_⟩
  · intro k hk
    obtain rfl | hk := mem_touch.mp hk
    · exact ⟨key, rfl⟩
    · exact h.keys k hk
  · intro key'
    by_cases hkey : key' = key
    · subst hkey
      simp [CapacityCache.touch, Memory.use]
    · simp [CapacityCache.touch, Memory.use, hkey, ExtTreeMap.getElem?_insert,
        keyToString_injective.ne (Ne.symm hkey), h.value]
  · intro key' v hv
    by_cases hkey : key' = key
    · subst hkey
      obtain rfl : (cached'.result, cached'.session) = v := by simpa [Memory.use] using hv
      change cached'.result.policyType ∈ supported
      rw [hresult]
      exact h.supports key' _ (h.value_of_cached hcached)
    · exact h.supports key' v (by simpa [Memory.use, hkey] using hv)

theorem Tracks.supports_put {capacity : ℕ} (h : Tracks supported c m)
    (hresult : result.policyType ∈ supported) :
  ∀ key' v, (m.put capacity key (result, session)).value key' = some v →
    v.1.policyType ∈ supported
  := by
  intro key' v hv
  by_cases hevicts : m.Evicts capacity key (result, session) key'
  · rw [Memory.value_put_of_evicts hevicts] at hv
    cases hv
  · rw [Memory.value_put_of_not_evicts hevicts] at hv
    by_cases hkey : key' = key
    · subst hkey
      obtain rfl : (result, session) = v := by simpa [Memory.use] using hv
      exact hresult
    · exact h.supports key' v (by simpa [Memory.use, hkey] using hv)

/-- A new entry in a cache from which the entry that is evicted has been removed. -/
theorem Tracks.add {c₁ : CapacityCache} (h : Tracks supported c m) (hc₁ : c₁.Consistent)
    (hordered : ∀ lastUse, c.Ordered lastUse m.clock → c₁.Ordered lastUse m.clock)
    (hkeys : ∀ k ∈ c₁.keyValue, k ∈ c.keyValue) (hkey : keyToString key ∉ c₁.keyValue)
    (hsize : c₁.keyValue.size < c₁.capacity) (hresult : result.policyType ∈ supported)
    (hgone : ∀ key', m.Evicts c.capacity key (result, session) key' →
      key' ≠ key ∧ keyToString key' ∉ c₁.keyValue)
    (hkept : ∀ key', ¬ m.Evicts c.capacity key (result, session) key' →
      c₁.keyValue[keyToString key']? = c.keyValue[keyToString key']?) :
  Tracks supported (c₁.add (keyToString key) result session)
    (m.put c.capacity key (result, session))
  := by
  obtain ⟨lastUse, hlastUse, hlist⟩ := h.ordered
  refine ⟨hc₁.add hkey hsize,
    ⟨_, update_lastUse hlastUse, (hordered lastUse hlist).add hc₁ hkey⟩, ?_, ?_,
    h.supports_put hresult⟩
  · intro k hk
    obtain rfl | hk := mem_add.mp hk
    · exact ⟨key, rfl⟩
    · exact h.keys k (hkeys k hk)
  · intro key'
    have hother : key' ≠ key →
        (c₁.add (keyToString key) result session).keyValue[keyToString key']?
          = c₁.keyValue[keyToString key']? := by
      intro hne
      simp [CapacityCache.add, ExtTreeMap.getElem?_insert,
        keyToString_injective.ne (Ne.symm hne)]
    by_cases hevicts : m.Evicts c.capacity key (result, session) key'
    · obtain ⟨hne, hnot⟩ := hgone key' hevicts
      rw [Memory.value_put_of_evicts hevicts, hother hne, ExtTreeMap.getElem?_eq_none hnot]
      rfl
    · rw [Memory.value_put_of_not_evicts hevicts]
      by_cases hne : key' = key
      · subst hne
        simp [CapacityCache.add, Memory.use]
      · rw [hother hne, hkept key' hevicts, h.value]
        simp [Memory.use, hne]

/-- A new entry in a cache that is not full. -/
theorem Tracks.put (h : Tracks supported c m) (session : ClientSession)
    (hkey : keyToString key ∉ c.keyValue)
    (hsize : c.keyValue.size < c.capacity) (hresult : result.policyType ∈ supported) :
  Tracks supported (c.add (keyToString key) result session)
    (m.put c.capacity key (result, session))
  := by
  apply h.add h.consistent (fun _ ho => ho) (fun _ hk => hk) hkey hsize hresult
  · rintro key' ⟨-, hfull, -⟩
    rw [h.ncard_held] at hfull
    omega
  · exact fun _ _ => rfl

/-- A new entry in a cache that is full: the entry whose key is the last one in the list is
evicted. -/
theorem Tracks.put_full (h : Tracks supported c m) (session : ClientSession)
    (hkey : keyToString key ∉ c.keyValue)
    (hfull : c.keyValue.size = c.capacity) (hcap : 0 < c.capacity)
    (hresult : result.policyType ∈ supported) :
  ∃ c₁, c.evict = some c₁ ∧ c₁.capacity = c.capacity
    ∧ Tracks supported (c₁.add (keyToString key) result session)
      (m.put c.capacity key (result, session))
  := by
  obtain ⟨k, v, hk, hevict, hlast⟩ := evict_eq h.consistent (hfull ▸ hcap)
  have hmem : k ∈ c.keyValue := by simp [ExtTreeMap.mem_iff_isSome_getElem?, hk]
  obtain ⟨key₀, rfl⟩ := h.keys k hmem
  have hheld : key ∉ m.held := fun hk => hkey (h.mem_held.mp hk)
  -- the last key in the list is the one that has not been used for longest
  have hevicts : ∀ key', m.Evicts c.capacity key (result, session) key' ↔ key' = key₀ := by
    intro key'
    obtain ⟨lastUse, hlastUse, hordered⟩ := h.ordered
    have hsound : Tracked.Sound ⟨c, m.clock, lastUse⟩ := ⟨h.consistent, hordered, hcap⟩
    have holdest : (m.use key (result, session)).Oldest key' ↔ key' = key₀ := by
      apply Memory.oldest_use_iff hheld (h.mem_held.mpr hmem)
      · intro key₁ hkey₁ hne
        rw [← hlastUse, ← hlastUse]
        exact hsound.least hk hlast _ (h.mem_held.mp hkey₁) (keyToString_injective.ne hne)
      · rw [← hlastUse]
        exact hordered.lt_clock _ (h.consistent.mem_values.mpr hmem)
    rw [Memory.Evicts, h.ncard_held, holdest]
    exact ⟨fun he => he.2.2, fun heq => ⟨hheld, hfull, heq⟩⟩
  refine ⟨_, hevict, rfl, ?_⟩
  apply h.add (h.consistent.drop hk) (fun _ ho => ho.drop) (fun _ hk' => (mem_drop.mp hk').2)
    (fun hk' => hkey (mem_drop.mp hk').2) _ hresult
  · intro key' he
    obtain rfl := (hevicts key').mp he
    constructor
    · rintro rfl
      exact hkey hmem
    · exact fun hk' => (mem_drop.mp hk').1 rfl
  · intro key' he
    apply getElem?_drop_of_ne (keyToString_injective.ne _)
    rintro rfl
    exact he ((hevicts _).mpr rfl)
  · rw [size_drop hk, hfull]
    exact Nat.sub_lt hcap Nat.one_pos

/-- Nothing is stored in a cache without room, and nothing is to be remembered. -/
theorem Tracks.put_zero (h : Tracks supported c m) (hcap : c.capacity = 0)
    (hresult : result.policyType ∈ supported) :
  Tracks supported c (m.put c.capacity key (result, session))
  := by
  obtain ⟨lastUse, hlastUse, hordered⟩ := h.ordered
  have hsize : c.keyValue.size = 0 := Nat.le_zero.mp (hcap ▸ h.consistent.size_le)
  have hempty : c.keyValue = ∅ := by
    apply ExtTreeMap.eq_empty_iff_size_eq_zero.mpr hsize
  have hnot : ∀ k, k ∉ c.keyValue := by simp [hempty]
  have hheld : m.held = ∅ := by
    ext key'
    simp [h.mem_held, hempty]
  have hvalue : ∀ key', (m.put c.capacity key (result, session)).value key' = none := by
    intro key'
    by_cases hkey : key' = key
    · apply Memory.value_put_of_evicts
      refine ⟨?_, ?_, (Memory.oldest_use_of_empty hheld).mpr hkey⟩
      · simp [hheld]
      · rw [h.ncard_held, hsize, hcap]
    · rw [Memory.value_put_of_not_evicts]
      · have hnone : m.value key' = none := by
          rw [← h.value, ExtTreeMap.getElem?_eq_none (hnot _)]
          rfl
        simp [Memory.use, hkey, hnone]
      · rintro ⟨-, -, holdest⟩
        exact hkey ((Memory.oldest_use_of_empty hheld).mp holdest)
  refine ⟨h.consistent, ⟨_, update_lastUse hlastUse, ?_⟩, h.keys, ?_, h.supports_put hresult⟩
  · have hadd : (c.add (keyToString key) result session).Ordered _ _ :=
      hordered.add h.consistent (hnot (keyToString key))
    exact hadd.sublist (List.sublist_cons_self ..)
  · intro key'
    rw [hvalue, hempty]
    rfl

end

/-! ### The operations -/

/-- What is to be answered. -/
def Results.answer (m : Results) (plugins : PolicyType → Option ClientPlugin)
    (session : ClientSession) (key : PolicyKey) : Int :=
  match m.value key with
  | none => CYNARA_API_CACHE_MISS
  | some (result, prevSession) =>
      if usable plugins session prevSession result then translate plugins session result
      else CYNARA_API_CACHE_MISS

section

variable {supported : Set PolicyType} {c : CapacityCache} {m : Results}
variable {plugins : PolicyType → Option ClientPlugin} {session : ClientSession} {key : PolicyKey}
variable {result : PolicyResult}

/-- Looking up a key gives the answer of the memory. -/
theorem Tracks.get (h : Tracks supported c m) (hplugins : Faithful supported plugins)
    (session : ClientSession) (key : PolicyKey) :
  ∃ c', c.get plugins session key = some (m.answer plugins session key, c')
    ∧ c'.capacity = c.capacity
    ∧ Tracks supported c' (m.next c.capacity (.get plugins session key))
  := by
  cases hcached : c.keyValue[keyToString key]? with
  | none =>
      have hvalue : m.value key = none := by
        rw [← h.value, hcached]
        rfl
      refine ⟨c, ?_, rfl, ?_⟩
      · simp [CapacityCache.get, Results.answer, hcached, hvalue]
      · simp only [Results.next, hvalue]
        exact h.tick
  | some cached =>
      have hvalue := h.value_of_cached hcached
      obtain ⟨plugin, hplugin⟩ := Option.isSome_iff_exists.mp
        ((hplugins.isSome_iff _).mpr (h.supports key _ hvalue))
      have hsame := hplugins.isUsable _ plugin hplugin session cached.session cached.result
      cases husable : (plugin.isUsable session cached.session cached.result).1 with
      | true =>
          have hu : usable plugins session cached.session cached.result := by
            simp [usable, hplugin, husable]
          let cached' : CachedValue :=
            ⟨cached.result, sessionAfter plugins session cached.session cached.result,
              cached.usage⟩
          refine ⟨c.touch (keyToString key) cached', ?_, rfl, ?_⟩
          · simp [CapacityCache.get, Results.answer, hcached, hvalue, hplugin, husable, hu, hsame,
              hplugins.toResult _ plugin hplugin, translate, CapacityCache.touch, cached',
              sessionAfter, NodeList.spliceFront_of_mem (h.consistent.node hcached)]
          · simp only [Results.next, hvalue, hu, ↓reduceIte]
            exact h.use cached' hcached rfl rfl
      | false =>
          have hu : usable plugins session cached.session cached.result = false := by
            simp [usable, hplugin, husable]
          refine ⟨c.drop (keyToString key) cached, ?_, rfl, ?_⟩
          · simp [CapacityCache.get, Results.answer, hcached, hvalue, hplugin, husable, hu,
              remove_eq h.consistent hcached]
          · simp only [Results.next, hvalue, hu, Bool.false_eq_true, ↓reduceIte]
            exact h.forget hcached

/-- Storing a result for a new key is what the memory does. -/
theorem Tracks.update (h : Tracks supported c m) (hplugins : Faithful supported plugins)
    (session : ClientSession) (result : PolicyResult) (hkey : keyToString key ∉ c.keyValue) :
  ∃ c', c.perform (.update plugins session key result) = some c' ∧ c'.capacity = c.capacity
    ∧ Tracks supported c' (m.next c.capacity (.update plugins session key result))
  := by
  cases hplugin : plugins result.policyType with
  | none =>
      refine ⟨c, ?_, rfl, ?_⟩
      · simp [perform, CapacityCache.update, hplugin]
      · simp only [Results.next, cacheable, hplugin, Option.any_none, Bool.false_eq_true,
          ↓reduceIte]
        exact h.tick
  | some plugin =>
      have hresult : result.policyType ∈ supported :=
        (hplugins.isSome_iff _).mp (by simp [hplugin])
      have hnone := ExtTreeMap.getElem?_eq_none hkey
      cases hcacheable : plugin.isCacheable session result with
      | false =>
          refine ⟨c, ?_, rfl, ?_⟩
          · simp [perform, CapacityCache.update, hplugin, hcacheable, hnone]
          · simp only [Results.next, cacheable, hplugin, Option.any_some, hcacheable,
              Bool.false_eq_true, ↓reduceIte]
            exact h.tick
      | true =>
          simp only [Results.next, cacheable, hplugin, Option.any_some, hcacheable, ↓reduceIte]
          by_cases hcap : c.capacity = 0
          · refine ⟨c, ?_, rfl, h.put_zero hcap hresult⟩
            simp [perform, CapacityCache.update, hplugin, hcap]
          · have hpos : 0 < c.capacity := Nat.pos_of_ne_zero hcap
            have hperform : c.perform (.update plugins session key result)
                = c.store session (keyToString key) result := by
              simp [perform, CapacityCache.update, hplugin, hcacheable, hpos]
            rw [hperform]
            by_cases hfull : c.keyValue.size = c.capacity
            · obtain ⟨c₁, hevict, hc₁, htracks⟩ := h.put_full session hkey hfull hpos hresult
              refine ⟨c₁.add (keyToString key) result session, ?_, hc₁, htracks⟩
              rw [store_full hfull hevict, hnone]
              exact place_new
            · refine ⟨c.add (keyToString key) result session, ?_, rfl,
                h.put session hkey (Nat.lt_of_le_of_ne h.consistent.size_le hfull) hresult⟩
              rw [store_eq hfull, hnone]
              exact place_new

end

/-! ### Runs -/

/-- A cache together with the operations that have been performed on it. -/
structure Run where
  cache : CapacityCache
  history : List Operation

namespace Run

open Tracked (lenient storing)

/-- An empty cache without a history. -/
def start (capacity : ℕ) : Run := ⟨⟨capacity, .empty, ∅⟩, []⟩

/-- An operation is added to the history. -/
def step (r : Run) (op : Operation) : Option Run :=
  (r.cache.perform op).map fun c => ⟨c, r.history ++ [op]⟩

/-- Results are stored only for keys that are not in the cache, and the plugins do not change
them. -/
def Disciplined (supported : Set PolicyType) (r : Run) : Operation → Prop
  | .get plugins _ _ => Faithful supported plugins
  | .update plugins _ key _ => Faithful supported plugins ∧ keyToString key ∉ r.cache.keyValue
  | .clear => True

/-- What holds in every state. -/
def Coherent (supported : Set PolicyType) (capacity : ℕ) (r : Run) : Prop :=
  r.cache.capacity = capacity ∧ Tracks supported r.cache (remember capacity r.history)

variable {supported : Set PolicyType} {capacity : ℕ} {r r' : Run} {op : Operation}

theorem coherent_start :
  Coherent supported capacity (start capacity)
  := by
  refine ⟨rfl, ?_⟩
  constructor
  · exact consistent_clear (start capacity).cache
  · exact ⟨fun _ => 0, fun _ => rfl, ordered_clear (start capacity).cache⟩
  · simp [start]
  · simp [start, remember]
  · simp [start, remember]

/-- An operation is defined, and the cache holds what is to be remembered after it. -/
theorem Coherent.step (h : Coherent supported capacity r) (hop : r.Disciplined supported op) :
  ∃ r', r.step op = some r' ∧ Coherent supported capacity r'
  := by
  obtain ⟨rfl, htracks⟩ := h
  suffices hperform : ∃ c, r.cache.perform op = some c ∧ c.capacity = r.cache.capacity
      ∧ Tracks supported c ((remember r.cache.capacity r.history).next r.cache.capacity op) by
    obtain ⟨c, hc, hcap, htracks⟩ := hperform
    refine ⟨⟨c, r.history ++ [op]⟩, ?_, hcap, ?_⟩
    · simp [Run.step, hc]
    · simpa [remember] using htracks
  cases op with
  | get plugins session key =>
      obtain ⟨c, hget, hc⟩ := htracks.get hop session key
      refine ⟨c, ?_, hc⟩
      simp [perform, hget]
  | update plugins session key result =>
      obtain ⟨hplugins, hkey⟩ := hop
      exact htracks.update hplugins session result hkey
  | clear => exact ⟨_, rfl, rfl, htracks.clear⟩

/-- In every run the cache does what the memory does. -/
theorem coherent_of_reaches
    (h : Runs.Reaches step (Disciplined supported) (start capacity) r) :
  Coherent supported capacity r
  := by
  apply h.invariant coherent_start
  intro r op r' hr hop hstep
  obtain ⟨r₁, hr₁, hcoherent⟩ := hr.step hop
  obtain rfl : r₁ = r' := Option.some.inj (hr₁.symm.trans hstep)
  exact hcoherent

/-- The result that stands for a key is the one that is remembered. -/
theorem answer_remember {history : List Operation} {plugins : PolicyType → Option ClientPlugin}
    {session : ClientSession} {key : PolicyKey} {result : PolicyResult}
    (hstands : Stands capacity history key result)
    (husable : usable plugins session (sessionOf capacity history key) result) :
  (remember capacity history).answer plugins session key = translate plugins session result
  := by
  obtain ⟨prevSession, hvalue⟩ := stands_iff.mp hstands
  have hsession : sessionOf capacity history key = prevSession := by simp [sessionOf, hvalue]
  rw [hsession] at husable
  simp [Results.answer, hvalue, husable]

theorem answer_remember_miss {history : List Operation}
    {plugins : PolicyType → Option ClientPlugin} {session : ClientSession} {key : PolicyKey}
    (hnone : ¬ ∃ result, Stands capacity history key result ∧
      usable plugins session (sessionOf capacity history key) result) :
  (remember capacity history).answer plugins session key = CYNARA_API_CACHE_MISS
  := by
  unfold Results.answer
  split
  · rfl
  · rename_i result prevSession hvalue
    have hsession : sessionOf capacity history key = prevSession := by simp [sessionOf, hvalue]
    rw [if_neg]
    intro husable
    rw [← hsession] at husable
    exact hnone ⟨result, stands_iff.mpr ⟨prevSession, hvalue⟩, husable⟩

/-- In every state that is reached, no further operation uses an element that has been erased.
Looking up a key gives the translation of the result that was stored for it last, if this result has
not been removed since and is usable now, and otherwise a miss. -/
theorem get_coherent (supported : Set PolicyType) (capacity : ℕ) (r : Run)
    (h : Runs.Reaches step (Disciplined supported) (start capacity) r) :
  (∀ op, r.Disciplined supported op → ∃ r', r.step op = some r') ∧
    ∀ plugins session key, Faithful supported plugins →
      ∃ answer c, r.cache.get plugins session key = some (answer, c) ∧
        (∀ result, Stands capacity r.history key result →
          usable plugins session (sessionOf capacity r.history key) result →
            answer = translate plugins session result) ∧
        ((¬ ∃ result, Stands capacity r.history key result ∧
            usable plugins session (sessionOf capacity r.history key) result) →
          answer = CYNARA_API_CACHE_MISS) ∧
        ((∀ result, translate plugins session result ≠ CYNARA_API_CACHE_MISS) →
          (answer ≠ CYNARA_API_CACHE_MISS ↔
            ∃ result, Stands capacity r.history key result ∧
              usable plugins session (sessionOf capacity r.history key) result))
  := by
  have hcoherent := coherent_of_reaches h
  constructor
  · intro op hop
    obtain ⟨r', hstep, -⟩ := hcoherent.step hop
    exact ⟨r', hstep⟩
  · intro plugins session key hplugins
    obtain ⟨c, hget, -⟩ := hcoherent.2.get hplugins session key
    refine ⟨_, c, hget, ?_, answer_remember_miss, ?_⟩
    · intro result hstands husable
      exact answer_remember hstands husable
    · intro htranslate
      constructor
      · intro hanswer
        by_contra hnone
        exact hanswer (answer_remember_miss hnone)
      · rintro ⟨result, hstands, husable⟩
        rw [answer_remember hstands husable]
        exact htranslate result

theorem faithful_lenient :
  Faithful Set.univ lenient
  := by
  constructor
  · simp [lenient]
  · intro type plugin hplugin
    obtain rfl := Option.some.inj hplugin
    simp
  · intro type plugin hplugin
    obtain rfl := Option.some.inj hplugin
    simp

/-- In a cache with room for one result, the first result has been evicted when a second one has
been stored: only the second one stands, and is returned. -/
theorem get_coherent_evicted :
  ∃ r, Runs.Reaches step (Disciplined Set.univ) (start 1) r ∧
    r.history = [storing 97, storing 98] ∧
    (¬ ∃ result, Stands 1 r.history ⟨[97], [], []⟩ result) ∧
    (∃ result, Stands 1 r.history ⟨[98], [], []⟩ result) ∧
    (r.cache.get lenient [] ⟨[98], [], []⟩).map Prod.fst = some 0
  := by
  have hrun : (((start 1).step (storing 97)).bind fun r₁ => (r₁.step (storing 98)).map
      fun r => (r₁, r)).any (fun (r₁, r) => decide (keyToString ⟨[98], [], []⟩ ∉ r₁.cache.keyValue)
        && (r.cache.get lenient [] ⟨[97], [], []⟩).map Prod.fst == some CYNARA_API_CACHE_MISS
        && (r.cache.get lenient [] ⟨[98], [], []⟩).map Prod.fst == some 0) = true := by
    decide +kernel
  obtain ⟨⟨r₁, r⟩, hsteps, hfinal⟩ := (Option.any_eq_true _ _).mp hrun
  obtain ⟨r₁', hstep, hsteps⟩ := Option.bind_eq_some_iff.mp hsteps
  obtain ⟨r', hstep', hpair⟩ := Option.map_eq_some_iff.mp hsteps
  obtain ⟨rfl, rfl⟩ := Prod.mk.inj hpair
  simp only [Bool.and_eq_true, beq_iff_eq, decide_eq_true_eq] at hfinal
  obtain ⟨⟨hkey, hmiss⟩, hhit⟩ := hfinal
  have hreach : Runs.Reaches step (Disciplined Set.univ) (start 1) r' := by
    refine .next (.next .start ?_ hstep) ?_ hstep'
    · exact ⟨faithful_lenient, by simp [start]⟩
    · exact ⟨faithful_lenient, hkey⟩
  have hhistory : r'.history = [storing 97, storing 98] := by
    obtain ⟨c₁, -, rfl⟩ := Option.map_eq_some_iff.mp hstep
    obtain ⟨c, -, rfl⟩ := Option.map_eq_some_iff.mp hstep'
    rfl
  have hstands : ∀ key answer, (r'.cache.get lenient [] key).map Prod.fst = some answer →
      (answer ≠ CYNARA_API_CACHE_MISS ↔ ∃ result, Stands 1 r'.history key result) := by
    intro key answer hanswer
    obtain ⟨answer', c, hget, -, -, hiff⟩ :=
      (get_coherent Set.univ 1 r' hreach).2 lenient [] key faithful_lenient
    obtain rfl : answer' = answer := by simpa [hget] using hanswer
    rw [hiff fun _ => (by decide : (0 : ℤ) ≠ CYNARA_API_CACHE_MISS)]
    simp [usable, lenient]
  refine ⟨r', hreach, hhistory, ?_, (hstands _ _ hhit).mp (by decide), hhit⟩
  rw [← hstands _ _ hmiss]
  simp

end Run

end CapacityCache

end Cynara
