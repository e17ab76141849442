import Mathlib.Data.Set.Card
import Mathlib.Logic.Function.Basic

/-!
# Memories of bounded size

A memory holds values for keys.  It knows when each key was used last.  If a value for a new key is
put into a memory that is full, the value of the key that has not been used for longest is
evicted.  The new key counts as used; it is the one evicted only if there is no room for any value.
-/

namespace Recency

/-- The value that is held for each key, the time of the last use of the key, and the present
time. -/
structure Memory (κ ν : Type) where
  value : κ → Option ν := fun _ => none
  lastUse : κ → ℕ := fun _ => 0
  clock : ℕ := 0

namespace Memory

variable {κ ν : Type} [DecidableEq κ] {m : Memory κ ν} {k k' k₀ : κ} {v : ν} {capacity : ℕ}

/-- The keys that have a value. -/
def held (m : Memory κ ν) : Set κ := {k | m.value k ≠ none}

/-- No key is used. -/
def tick (m : Memory κ ν) : Memory κ ν := { m with clock := m.clock + 1 }

/-- A key loses its value. -/
def forget (k : κ) (m : Memory κ ν) : Memory κ ν :=
  { m.tick with value := Function.update m.value k none }

/-- All keys lose their values. -/
def clear (m : Memory κ ν) : Memory κ ν := { m.tick with value := fun _ => none }

/-- A key is used, and has the given value from now on. -/
def use (k : κ) (v : ν) (m : Memory κ ν) : Memory κ ν where
  value := Function.update m.value k (some v)
  lastUse := Function.update m.lastUse k m.clock
  clock := m.clock + 1

/-- A key that has not been used for longest. -/
def Oldest (m : Memory κ ν) (k : κ) : Prop :=
  k ∈ m.held ∧ ∀ k' ∈ m.held, m.lastUse k ≤ m.lastUse k'

/-- A value for the key `k` is new and evicts the one for `k'`. -/
def Evicts (capacity : ℕ) (m : Memory κ ν) (k : κ) (v : ν) (k' : κ) : Prop :=
  k ∉ m.held ∧ m.held.ncard = capacity ∧ (m.use k v).Oldest k'

open Classical in
/-- Put in a value. -/
noncomputable def put (capacity : ℕ) (k : κ) (v : ν) (m : Memory κ ν) : Memory κ ν :=
  { m.use k v with
    value := fun k' => if m.Evicts capacity k v k' then none else (m.use k v).value k' }

theorem mem_held_use :
  k' ∈ (m.use k v).held ↔ k' = k ∨ k' ∈ m.held
  := by
  by_cases hk : k' = k
  · subst hk
    simp [held, use]
  · simp [held, use, hk]

theorem value_put_of_evicts (h : m.Evicts capacity k v k') :
  (m.put capacity k v).value k' = none
  := if_pos h

theorem value_put_of_not_evicts (h : ¬ m.Evicts capacity k v k') :
  (m.put capacity k v).value k' = (m.use k v).value k'
  := if_neg h

/-- If a key has been used before all others that are held, it is the oldest one, also when a new
key is used now. -/
theorem oldest_use_iff (hk : k ∉ m.held) (hk₀ : k₀ ∈ m.held)
    (hleast : ∀ k' ∈ m.held, k' ≠ k₀ → m.lastUse k₀ < m.lastUse k')
    (hclock : m.lastUse k₀ < m.clock) :
  (m.use k v).Oldest k' ↔ k' = k₀
  := by
  have hnow : (m.use k v).lastUse k = m.clock := Function.update_self ..
  have hold : ∀ k' ∈ m.held, (m.use k v).lastUse k' = m.lastUse k' := by
    intro k' hk'
    apply Function.update_of_ne
    rintro rfl
    exact hk hk'
  constructor
  · rintro ⟨hk', holdest⟩
    have hle := holdest k₀ (mem_held_use.mpr (Or.inr hk₀))
    rw [hold k₀ hk₀] at hle
    obtain rfl | hk' := mem_held_use.mp hk'
    · rw [hnow] at hle
      omega
    · by_contra hne
      have hlt := hleast k' hk' hne
      rw [hold k' hk'] at hle
      omega
  · rintro rfl
    refine ⟨mem_held_use.mpr (Or.inr hk₀), ?_⟩
    intro k₁ hk₁
    rw [hold k' hk₀]
    obtain rfl | hk₁ := mem_held_use.mp hk₁
    · rw [hnow]
      exact hclock.le
    · rw [hold k₁ hk₁]
      by_cases hne : k₁ = k'
      · rw [hne]
      · exact (hleast k₁ hk₁ hne).le

/-- If nothing is held, the new key is the oldest one. -/
theorem oldest_use_of_empty (hempty : m.held = ∅) :
  (m.use k v).Oldest k' ↔ k' = k
  := by
  have hheld : ∀ k', k' ∈ (m.use k v).held ↔ k' = k := by
    intro k'
    rw [mem_held_use, hempty]
    simp
  constructor
  · rintro ⟨hk', -⟩
    exact (hheld k').mp hk'
  · rintro rfl
    refine ⟨(hheld k').mpr rfl, ?_⟩
    intro k₁ hk₁
    rw [(hheld k₁).mp hk₁]

end Memory

end Recency
