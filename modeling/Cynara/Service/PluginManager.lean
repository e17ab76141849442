import Cynara.Types.Policy

/-!
# The registry of plugins

The plugins are loaded once, and registered under the policy types they describe; of several
descriptions of one type the first counts.  After that the registry is only asked: for the
plugin of a type, for whether a type is known and for the descriptions, and to tell all plugins
to invalidate what they remember.

Asking for the plugin of a type is `operator[]` of a map, which makes an entry for a type that
has none, with an empty name and a null pointer.  The registry stays as it was loaded exactly as
long as it is asked for the plugins of types it has.
-/

open Std

namespace Cynara

variable {P : Type}

/-- What `openPlugin` finds in a file: whether it is a library, whether it has the two symbols,
and the plugin that `create` returns. -/
structure PluginFile (P : Type) where
  opens : Bool
  hasCreate : Bool
  hasDestroy : Bool
  create : Option P

/-- The map `m_plugins`, whose keys are compared by the type alone: for each type the name of the
description it was registered with, and a pointer, which may be null. -/
structure PluginManager (P : Type) where
  plugins : ExtTreeMap PolicyType (Str × Option P)

namespace PluginManager

/-! ### The functions -/

section

variable (getSupportedPolicyDescr : P → List PolicyDescription)

/-- The descriptions of a file with a plugin that can be used, with the plugin. -/
def offers (file : PluginFile P) : List (PolicyDescription × P) :=
  if !file.opens then []
  else if !file.hasCreate then []
  else if !file.hasDestroy then []
  else
    match file.create with
    | none => []
    | some plugin => (getSupportedPolicyDescr plugin).map fun desc => (desc, plugin)

/-- Register a plugin under a description, unless its type is registered already. -/
def insert (m : PluginManager P) (offer : PolicyDescription × P) : PluginManager P :=
  ⟨m.plugins.insertIfNew offer.1.type (offer.1.name, some offer.2)⟩

/-- A plugin is entered for all types that it offers. -/
def openPlugin (m : PluginManager P) (file : PluginFile P) : PluginManager P :=
  (offers getSupportedPolicyDescr file).foldl insert m

/-- The plugins are loaded one after the other, and the first one keeps a type. -/
def loadPlugins (files : List (PluginFile P)) : PluginManager P :=
  files.foldl (openPlugin getSupportedPolicyDescr) ⟨∅⟩

end

/-- The pointer of a type; a type that is not there is entered with a null pointer. -/
def getPlugin (m : PluginManager P) (pType : PolicyType) : Option P × PluginManager P :=
  match m.plugins[pType]? with
  | some entry => (entry.2, m)
  | none => (none, ⟨m.plugins.insert pType ([], none)⟩)

/-- All entries are listed, also those without a plugin. -/
def getPolicyDescriptions (m : PluginManager P) : List PolicyDescription :=
  m.plugins.toList.map fun entry => ⟨entry.1, entry.2.1⟩

/-- The plugins that are invalidated one after the other; `none` if a null pointer is met. -/
def invalidateAll (m : PluginManager P) : Option (List P) :=
  m.plugins.toList.mapM fun entry => entry.2.2

/-- The types for which no `UnknownPolicyTypeException` is thrown. -/
def checkPolicyType (m : PluginManager P) (pType : PolicyType) : Bool :=
  match m.plugins[pType]? with
  | none => false
  | some entry => entry.2.isSome

/-- The calls of the service and of the cache of a client. -/
inductive Call where
  | getPlugin (pType : PolicyType)
  | checkPolicyType (pType : PolicyType)
  | getPolicyDescriptions
  | invalidateAll
deriving DecidableEq

/-- The registry after a call. -/
def perform (m : PluginManager P) : Call → PluginManager P
  | .getPlugin pType => (m.getPlugin pType).2
  | .checkPolicyType _ | .getPolicyDescriptions | .invalidateAll => m

/-- The registry after a sequence of calls. -/
def run (calls : List Call) (m : PluginManager P) : PluginManager P :=
  calls.foldl perform m

/-! ### Loading -/

/-- Of several offers of one type the first counts. -/
theorem getElem?_foldl_insert (offered : List (PolicyDescription × P)) (m : PluginManager P)
    (pType : PolicyType) :
  (offered.foldl insert m).plugins[pType]?
    = m.plugins[pType]?.or
      ((offered.find? fun offer => offer.1.type == pType).map fun offer =>
        (offer.1.name, some offer.2))
  := by
  induction offered generalizing m with
  | nil => simp
  | cons offer offered ih =>
      rw [List.foldl_cons, ih, insert, ExtTreeMap.getElem?_insertIfNew, List.find?_cons]
      by_cases htype : offer.1.type = pType
      · subst htype
        cases hm : m.plugins[offer.1.type]? with
        | none => simp [ExtTreeMap.mem_iff_isSome_getElem?, hm]
        | some entry => simp [ExtTreeMap.mem_iff_isSome_getElem?, hm]
      · have hbeq : (offer.1.type == pType) = false := by simpa using htype
        simp [htype, hbeq]

/-- What is registered when the plugins have been loaded. -/
theorem getElem?_loadPlugins (getSupportedPolicyDescr : P → List PolicyDescription)
    (files : List (PluginFile P)) (pType : PolicyType) :
  (loadPlugins getSupportedPolicyDescr files).plugins[pType]?
    = ((files.flatMap (offers getSupportedPolicyDescr)).find? fun offer =>
        offer.1.type == pType).map fun offer => (offer.1.name, some offer.2)
  := by
  have hload : loadPlugins getSupportedPolicyDescr files
      = (files.flatMap (offers getSupportedPolicyDescr)).foldl insert ⟨∅⟩ := by
    rw [List.foldl_flatMap]
    rfl
  rw [hload, getElem?_foldl_insert]
  simp

/-! ### Null pointers -/

/-- No pointer in the registry is null. -/
def NoNull (m : PluginManager P) : Prop :=
  ∀ (pType : PolicyType) (name : Str) (plugin? : Option P),
    m.plugins[pType]? = some (name, plugin?) → plugin?.isSome

/-- The registry as it is loaded has no null pointer. -/
theorem noNull_loadPlugins (getSupportedPolicyDescr : P → List PolicyDescription)
    (files : List (PluginFile P)) :
  (loadPlugins getSupportedPolicyDescr files).NoNull
  := by
  intro pType name plugin? hentry
  rw [getElem?_loadPlugins] at hentry
  obtain ⟨offer, -, hoffer⟩ := Option.map_eq_some_iff.mp hentry
  obtain ⟨-, rfl⟩ := Prod.mk.inj hoffer
  rfl

/-- Without null pointers all plugins are invalidated. -/
theorem NoNull.invalidateAll {m : PluginManager P} (h : m.NoNull) :
  m.invalidateAll.isSome
  := by
  have hentries : ∀ entry ∈ m.plugins.toList, entry.2.2.isSome := by
    rintro ⟨pType, name, plugin?⟩ hentry
    exact h pType name plugin? (ExtTreeMap.mem_toList_iff_getElem?_eq_some.mp hentry)
  unfold PluginManager.invalidateAll
  generalize m.plugins.toList = entries at hentries
  induction entries with
  | nil => rfl
  | cons entry entries ih =>
      obtain ⟨hentry, hentries⟩ := List.forall_mem_cons.mp hentries
      obtain ⟨plugin, hplugin⟩ := Option.isSome_iff_exists.mp hentry
      obtain ⟨plugins, hplugins⟩ := Option.isSome_iff_exists.mp (ih hentries)
      simp [hplugin, hplugins]

/-- A type that is known has a plugin. -/
theorem checkPolicyType_iff {m : PluginManager P} {pType : PolicyType} :
  m.checkPolicyType pType = true ↔ ∃ name plugin, m.plugins[pType]? = some (name, some plugin)
  := by
  unfold checkPolicyType
  cases hentry : m.plugins[pType]? with
  | none => simp
  | some entry =>
      obtain ⟨name, plugin?⟩ := entry
      simp [Option.isSome_iff_exists]

/-! ### Calls -/

/-- A call for a type that is known leaves the registry as it is. -/
theorem perform_of_known {m : PluginManager P} {call : Call}
    (h : ∀ pType, call = .getPlugin pType → m.checkPolicyType pType = true) :
  m.perform call = m
  := by
  cases call with
  | getPlugin pType =>
      obtain ⟨name, plugin, hentry⟩ := checkPolicyType_iff.mp (h pType rfl)
      simp only [perform, getPlugin, hentry]
  | checkPolicyType pType => rfl
  | getPolicyDescriptions => rfl
  | invalidateAll => rfl

/-- A call changes nothing about the types that are known. -/
theorem checkPolicyType_perform (m : PluginManager P) (call : Call) (pType : PolicyType) :
  (m.perform call).checkPolicyType pType = m.checkPolicyType pType
  := by
  cases call with
  | getPlugin pType' =>
      simp only [perform, getPlugin]
      cases hentry : m.plugins[pType']? with
      | some entry => rfl
      | none =>
          simp only [checkPolicyType, ExtTreeMap.getElem?_insert, Std.compare_eq_iff_eq]
          by_cases htype : pType' = pType
          · subst htype
            simp [hentry]
          · simp [htype]
  | checkPolicyType pType' => rfl
  | getPolicyDescriptions => rfl
  | invalidateAll => rfl

/-- The types that are known are those of the plugins that were loaded, after any calls. -/
theorem checkPolicyType_run (calls : List Call) (m : PluginManager P) (pType : PolicyType) :
  (m.run calls).checkPolicyType pType = m.checkPolicyType pType
  := by
  induction calls generalizing m with
  | nil => rfl
  | cons call calls ih =>
      rw [run, List.foldl_cons, ← run, ih, checkPolicyType_perform]

/-- Calls for types that are known leave the registry as it is. -/
theorem run_of_known {m : PluginManager P} {calls : List Call}
    (h : ∀ pType, .getPlugin pType ∈ calls → m.checkPolicyType pType = true) :
  m.run calls = m
  := by
  induction calls with
  | nil => rfl
  | cons call calls ih =>
      have hcall : m.perform call = m := by
        apply perform_of_known
        rintro pType rfl
        exact h pType List.mem_cons_self
      rw [run, List.foldl_cons, hcall, ← run]
      exact ih fun pType hmem => h pType (List.mem_cons_of_mem call hmem)

/-- After a call for a type that is not known there is a null pointer. -/
theorem not_noNull_getPlugin {m : PluginManager P} {pType : PolicyType}
    (h : m.checkPolicyType pType = false) :
  ¬ (m.perform (.getPlugin pType)).NoNull
  := by
  intro hnull
  simp only [perform, getPlugin] at hnull
  unfold checkPolicyType at h
  cases hentry : m.plugins[pType]? with
  | none =>
      simp only [hentry] at hnull
      have hsome := hnull pType [] none (by simp)
      contradiction
  | some entry =>
      obtain ⟨name, plugin?⟩ := entry
      simp only [hentry] at hnull h
      rw [hnull pType name plugin? hentry] at h
      contradiction

/-- The registry is as it was loaded: no pointer is null, so that all plugins can be
invalidated, and the descriptions are those that were registered. -/
structure Intact (loaded m : PluginManager P) : Prop where
  noNull : m.NoNull
  invalidates : m.invalidateAll.isSome
  descriptions : m.getPolicyDescriptions = loaded.getPolicyDescriptions

/-- The registry is as it was loaded after every call of a sequence, exactly if all calls of
`getPlugin` ask for types that were registered. -/
theorem intact_iff_known (getSupportedPolicyDescr : P → List PolicyDescription)
    (files : List (PluginFile P)) (calls : List Call) :
  (∀ done rest, calls = done ++ rest →
      Intact (loadPlugins getSupportedPolicyDescr files)
        ((loadPlugins getSupportedPolicyDescr files).run done))
    ↔ ∀ pType, .getPlugin pType ∈ calls →
      (loadPlugins getSupportedPolicyDescr files).checkPolicyType pType = true
  := by
  have hnull := noNull_loadPlugins getSupportedPolicyDescr files
  generalize loadPlugins getSupportedPolicyDescr files = loaded at hnull
  constructor
  · intro h pType hmem
    obtain ⟨done, rest, rfl⟩ := List.append_of_mem hmem
    by_contra hunknown
    have hbefore : (loaded.run done).checkPolicyType pType = false := by
      rw [checkPolicyType_run]
      simpa using hunknown
    apply not_noNull_getPlugin hbefore
    have hafter := (h (done ++ [.getPlugin pType]) rest (by simp)).noNull
    rwa [run, List.foldl_append] at hafter
  · intro h done rest hcalls
    subst hcalls
    rw [run_of_known fun pType hmem => h pType (List.mem_append_left rest hmem)]
    exact ⟨hnull, hnull.invalidateAll, rfl⟩

/-- A library with one plugin, for one type. -/
def sample : PluginManager Unit :=
  loadPlugins (fun _ => [⟨11, Str.ofString "Ask"⟩]) [⟨true, true, true, some ()⟩]

/-- A look for a plugin of another type leaves a null pointer, which the next invalidation
dereferences, and a description that no plugin has. -/
theorem not_intact_unknown :
  (sample.run [.getPlugin 10]).invalidateAll = none
    ∧ sample.getPolicyDescriptions = [⟨11, Str.ofString "Ask"⟩]
    ∧ (sample.run [.getPlugin 10]).getPolicyDescriptions
      = [⟨10, []⟩, ⟨11, Str.ofString "Ask"⟩]
  := by
  decide

end PluginManager

end Cynara
