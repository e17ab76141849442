import Cynara.Library.Strings

/-!
# A directory with hard links

A directory maps names to inodes, and several names may refer to one inode.  Its calls are
atomic.  Writing to a file changes its inode, so what can be read under another name stays
the same if no other name refers to the inode.
-/

open Std

/-- A directory: the inodes of the names, the contents of the inodes, and the next inode that
is free. -/
structure Directory where
  names : ExtTreeMap Str ℕ
  contents : ℕ → Str
  next : ℕ
  fresh : ∀ (n : Str) (i : ℕ), names[n]? = some i → i < next

namespace Directory

variable {d : Directory}

/-- The directory with no files. -/
def empty : Directory := ⟨∅, fun _ => [], 0, by simp⟩

/-- What can be read from a file. -/
def read (d : Directory) (n : Str) : Option Str := d.names[n]?.map d.contents

/-- Remove a name, if it is there. -/
def unlink (d : Directory) (n : Str) : Directory where
  names := d.names.erase n
  contents := d.contents
  next := d.next
  fresh m i h := by
    rw [ExtTreeMap.getElem?_erase] at h
    split at h
    · contradiction
    · exact d.fresh m i h

/-- Give a file a new name, which must not be there yet. -/
def link (d : Directory) (old new : Str) : Option Directory :=
  match h : d.names[old]? with
  | none => none
  | some i =>
      if new ∈ d.names then none
      else
        some
          { names := d.names.insert new i
            contents := d.contents
            next := d.next
            fresh := by
              intro m j hj
              rw [ExtTreeMap.getElem?_insert] at hj
              split at hj
              · obtain rfl := Option.some.inj hj
                exact d.fresh old i h
              · exact d.fresh m j hj }

/-- Write the contents of an inode. -/
def setContents (d : Directory) (i : ℕ) (text : Str) : Directory :=
  { d with contents := Function.update d.contents i text }

/-- Create an empty file under a name. -/
def create (d : Directory) (n : Str) : Directory where
  names := d.names.insert n d.next
  contents := Function.update d.contents d.next []
  next := d.next + 1
  fresh m i h := by
    rw [ExtTreeMap.getElem?_insert] at h
    split at h
    · obtain rfl := Option.some.inj h
      exact Nat.lt_succ_self _
    · exact Nat.lt_succ_of_lt (d.fresh m i h)

/-- Open a file for writing: it is truncated if it is there and created otherwise. -/
def openTruncate (d : Directory) (n : Str) : Directory :=
  match d.names[n]? with
  | some i => d.setContents i []
  | none => d.create n

/-- Write the text of a file that is there. -/
def write (d : Directory) (n text : Str) : Option Directory :=
  d.names[n]?.map fun i => d.setContents i text

/-- Create a file that is not there yet. -/
def createExclusive (d : Directory) (n : Str) : Option Directory :=
  if n ∈ d.names then none else some (d.create n)

/-- No other name refers to the inode of a name. -/
def Unaliased (d : Directory) (n : Str) : Prop :=
  ∀ (m : Str) (i : ℕ), d.names[n]? = some i → d.names[m]? = some i → m = n

/-- Two names, unless they are equal, do not refer to the same inode. -/
def Apart (d : Directory) (n m : Str) : Prop :=
  ∀ i : ℕ, d.names[n]? = some i → d.names[m]? = some i → m = n

/-! ### What can be read afterwards -/

theorem mem_names_iff {n : Str} :
  n ∈ d.names ↔ (d.read n).isSome
  := by
  rw [read, Option.isSome_map, ExtTreeMap.mem_iff_isSome_getElem?]

theorem read_unlink (d : Directory) (n m : Str) :
  (d.unlink n).read m = if n = m then none else d.read m
  := by
  simp only [read, unlink, ExtTreeMap.getElem?_erase, Std.compare_eq_iff_eq]
  split <;> rfl

/-- Linking succeeds if the old name is there and the new one is not. -/
theorem link_spec {old new : Str} (hold : (d.read old).isSome) (hnew : d.read new = none) :
  ∃ d', d.link old new = some d'
    ∧ ∀ m, d'.read m = if new = m then d.read old else d.read m
  := by
  have hnew' : new ∉ d.names := by
    rw [mem_names_iff, hnew]
    simp
  rw [← mem_names_iff, ExtTreeMap.mem_iff_isSome_getElem?] at hold
  obtain ⟨i, hi⟩ := Option.isSome_iff_exists.mp hold
  unfold link
  split
  · rename_i h
    rw [hi] at h
    contradiction
  · rename_i j h
    obtain rfl := Option.some.inj (hi.symm.trans h)
    rw [if_neg hnew']
    refine ⟨_, rfl, fun m => ?_⟩
    simp only [read, ExtTreeMap.getElem?_insert, Std.compare_eq_iff_eq, hi]
    split <;> rfl

theorem read_setContents {n m : Str} {i : ℕ} (hi : d.names[n]? = some i) (h : d.Apart n m)
    (text : Str) :
  (d.setContents i text).read m = if n = m then some text else d.read m
  := by
  simp only [read, setContents]
  split
  · rename_i heq
    subst heq
    simp [hi]
  · rename_i hne
    cases hj : d.names[m]? with
    | none => rfl
    | some j =>
        have hji : j ≠ i := by
          rintro rfl
          exact hne (h j hi hj).symm
        simp [hji]

theorem read_create (d : Directory) (n m : Str) :
  (d.create n).read m = if n = m then some [] else d.read m
  := by
  simp only [read, create, ExtTreeMap.getElem?_insert, Std.compare_eq_iff_eq]
  split
  · simp
  · cases hj : d.names[m]? with
    | none => rfl
    | some j =>
        have hne : j ≠ d.next := (d.fresh m j hj).ne
        simp [hne]

theorem read_openTruncate {n m : Str} (h : d.Apart n m) :
  (d.openTruncate n).read m = if n = m then some [] else d.read m
  := by
  cases hi : d.names[n]? with
  | none =>
      simp only [openTruncate, hi]
      exact read_create d n m
  | some i =>
      simp only [openTruncate, hi]
      exact read_setContents hi h []

/-- The names that are there when a file has been opened for writing. -/
theorem isSome_read_openTruncate (d : Directory) (n m : Str) :
  ((d.openTruncate n).read m).isSome ↔ n = m ∨ (d.read m).isSome
  := by
  rw [← mem_names_iff, ← mem_names_iff]
  cases hi : d.names[n]? with
  | none => simp [openTruncate, hi, create]
  | some i =>
      simp only [openTruncate, hi, setContents, iff_or_self]
      rintro rfl
      rw [ExtTreeMap.mem_iff_isSome_getElem?, hi]
      rfl

/-- Writing succeeds if the name is there. -/
theorem write_spec {n : Str} (hn : (d.read n).isSome) (text : Str) :
  ∃ d', d.write n text = some d' ∧ d'.names = d.names
    ∧ ∀ m, d.Apart n m → d'.read m = if n = m then some text else d.read m
  := by
  rw [← mem_names_iff, ExtTreeMap.mem_iff_isSome_getElem?] at hn
  obtain ⟨i, hi⟩ := Option.isSome_iff_exists.mp hn
  refine ⟨d.setContents i text, by rw [write, hi, Option.map_some], rfl, fun m h => ?_⟩
  exact read_setContents hi h text

/-- Writing changes no names. -/
theorem write_names {d' : Directory} {n text : Str} (h : d.write n text = some d') :
  d'.names = d.names
  := by
  obtain ⟨i, -, rfl⟩ := Option.map_eq_some_iff.mp h
  rfl

/-- Which names can be read depends on the names only. -/
theorem isSome_read_of_names {d' : Directory} (h : d'.names = d.names) (n : Str) :
  (d'.read n).isSome = (d.read n).isSome
  := by
  rw [read, read, Option.isSome_map, Option.isSome_map, h]

/-- Linking has a new name. -/
theorem link_names {d' : Directory} {old new : Str} (h : d.link old new = some d') :
  ∃ i, d'.names = d.names.insert new i
  := by
  unfold link at h
  split at h
  · contradiction
  · rename_i i _
    split at h
    · contradiction
    · obtain rfl := Option.some.inj h
      exact ⟨i, rfl⟩

theorem createExclusive_spec {n : Str} (hn : d.read n = none) :
  d.createExclusive n = some (d.create n)
  := by
  have hn' : n ∉ d.names := by
    rw [mem_names_iff, hn]
    simp
  rw [createExclusive, if_neg hn']

/-! ### Aliases -/

theorem Apart.of_names {d d' : Directory} {n m : Str} (h : d.Apart n m)
    (hnames : d'.names = d.names) :
  d'.Apart n m
  := by
  rw [Apart, hnames]
  exact h

/-- A new file has an inode of its own. -/
theorem Apart.create {m k : Str} (h : d.Apart m k) (n : Str) :
  (d.create n).Apart m k
  := by
  intro i hm hk
  simp only [Directory.create, ExtTreeMap.getElem?_insert, Std.compare_eq_iff_eq] at hm hk
  by_cases hnm : n = m
  · by_cases hnk : n = k
    · rw [← hnm, ← hnk]
    · rw [if_pos hnm] at hm
      rw [if_neg hnk] at hk
      obtain rfl := Option.some.inj hm
      exact absurd (d.fresh k _ hk) (lt_irrefl _)
  · rw [if_neg hnm] at hm
    by_cases hnk : n = k
    · rw [if_pos hnk] at hk
      obtain rfl := Option.some.inj hk
      exact absurd (d.fresh m _ hm) (lt_irrefl _)
    · rw [if_neg hnk] at hk
      exact h i hm hk

/-- Opening a file for writing makes no new alias. -/
theorem Apart.openTruncate {m k : Str} (h : d.Apart m k) (n : Str) :
  (d.openTruncate n).Apart m k
  := by
  cases hn : d.names[n]? with
  | some i =>
      apply h.of_names
      simp only [Directory.openTruncate, hn, setContents]
  | none =>
      simp only [Directory.openTruncate, hn]
      exact h.create n

/-- Removing a name makes no new alias. -/
theorem Apart.unlink {m k : Str} (h : d.Apart m k) (n : Str) :
  (d.unlink n).Apart m k
  := by
  intro i hm hk
  simp only [Directory.unlink, ExtTreeMap.getElem?_erase] at hm hk
  split at hm
  · contradiction
  · split at hk
    · contradiction
    · exact h i hm hk

/-- A link concerns its new name only. -/
theorem Apart.link {m k old new : Str} {d' : Directory} (h : d.Apart m k)
    (hlink : d.link old new = some d') (hm : new ≠ m) (hk : new ≠ k) :
  d'.Apart m k
  := by
  obtain ⟨i, hnames⟩ := link_names hlink
  intro j hj hj'
  rw [hnames, ExtTreeMap.getElem?_insert, if_neg (by simpa using hm)] at hj
  rw [hnames, ExtTreeMap.getElem?_insert, if_neg (by simpa using hk)] at hj'
  exact h j hj hj'

/-- A name that is not there has no alias. -/
theorem Unaliased.of_read_eq_none {n : Str} (h : d.read n = none) :
  d.Unaliased n
  := by
  intro m i hi
  rw [read, hi] at h
  contradiction

end Directory
