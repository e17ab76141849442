import Mathlib.Algebra.Order.Group.Nat
import Mathlib.Data.Nat.ModEq
import Mathlib.Logic.Function.Basic
import Mathlib.Tactic.Ring

/-!
# A ring of chunks

A list is kept in a ring of `N` chunks of at most `B` elements.  It starts with the chunk `f`;
all chunks up to the last one in use are full, and the others are empty.  New elements go to
the last chunk, and the first chunk can be given up as a whole.

The places of the ring are numbered: the place `p` is in the chunk `p / B`.
-/

namespace ChunkRing

variable {α : Type} {N B f : ℕ}

/-! ### Places -/

/-- The chunk of the place that is `p` places after the start of the chunk `f`. -/
theorem place_div (hB : 0 < B) (p : ℕ) :
  (f * B + p) % (N * B) / B = (f + p / B) % N
  := by
  rw [Nat.mod_mul_left_div_self, Nat.add_comm, Nat.add_mul_div_right p f hB, Nat.add_comm]

theorem place_mod (p : ℕ) :
  (f * B + p) % (N * B) % B = p % B
  := by
  rw [Nat.mod_mul_left_mod, Nat.add_comm, Nat.add_mul_mod_self_right]

/-- A place is reached directly or by going round once. -/
theorem place_cases {R x : ℕ} (hx : x < 2 * R) :
  x < R ∧ x % R = x ∨ R ≤ x ∧ x % R = x - R
  := by
  obtain hlt | hge := Nat.lt_or_ge x R
  · exact Or.inl ⟨hlt, Nat.mod_eq_of_lt hlt⟩
  · refine Or.inr ⟨hge, ?_⟩
    rw [Nat.mod_eq_sub_mod hge, Nat.mod_eq_of_lt (by omega)]

/-- The number of places from the place `k` after `F` to the place `n` after it, computed from
where these places are. -/
theorem distance {R F k n : ℕ} (hF : F < R) (hk : k ≤ n) (hn : n < R) :
  (if (((F + k) % R : ℕ) : ℤ) < F then (((F + n) % R : ℕ) : ℤ) - ((F + k) % R : ℕ)
    else (n : ℤ) - (((F + k) % R : ℕ) - F)) = n - k
  := by
  obtain ⟨hplace, hk'⟩ | ⟨hplace, hk'⟩ := place_cases (show F + k < 2 * R by omega)
  · rw [hk', if_neg (by omega)]
    omega
  · obtain ⟨hback, hn'⟩ | ⟨hback, hn'⟩ := place_cases (show F + n < 2 * R by omega)
    · omega
    · rw [hk', hn', if_pos (by omega)]
      omega

/-- Going round from the chunk `f` all chunks are different. -/
theorem chunk_inj {i j : ℕ} (hi : i < N) (hj : j < N) (h : (f + i) % N = (f + j) % N) :
  i = j
  := by
  have hmod : i ≡ j [MOD N] := Nat.ModEq.add_left_cancel' f h
  rwa [Nat.ModEq, Nat.mod_eq_of_lt hi, Nat.mod_eq_of_lt hj] at hmod

/-! ### The list in the ring -/

/-- The chunks hold a list, from the chunk `f` on. -/
structure Holds (N B f : ℕ) (chunk : ℕ → List α) (l : List α) : Prop where
  length : l.length ≤ N * B
  chunk : ∀ i < N, chunk ((f + i) % N) = (l.drop (i * B)).take B

variable {chunk : ℕ → List α} {l : List α}

theorem Holds.length_chunk (h : Holds N B f chunk l) {i : ℕ} (hi : i < N) :
  (chunk ((f + i) % N)).length = min B (l.length - i * B)
  := by
  rw [h.chunk i hi, List.length_take, List.length_drop]

/-- The element of the list that is at a place. -/
theorem Holds.getElem?_chunk (h : Holds N B f chunk l) (hB : 0 < B) {p : ℕ} (hp : p < N * B) :
  (chunk ((f + p / B) % N))[p % B]? = l[p]?
  := by
  rw [h.chunk (p / B) ((Nat.div_lt_iff_lt_mul hB).mpr hp),
    List.getElem?_take_of_lt (Nat.mod_lt p hB), List.getElem?_drop, Nat.div_add_mod' p B]

/-- A new element goes to the last chunk. -/
theorem Holds.append (h : Holds N B f chunk l) (hB : 0 < B) (hl : l.length < N * B) (a : α) :
  Holds N B f
    (Function.update chunk ((f + l.length / B) % N) (chunk ((f + l.length / B) % N) ++ [a]))
    (l ++ [a])
  := by
  have hd : l.length / B < N := (Nat.div_lt_iff_lt_mul hB).mpr hl
  have hle : l.length / B * B ≤ l.length := Nat.div_mul_le_self _ _
  have hlt : l.length < l.length / B * B + B := Nat.lt_div_mul_add hB
  constructor
  · rw [List.length_append, List.length_singleton]
    exact hl
  · intro i hi
    obtain hi' | rfl | hi' := lt_trichotomy i (l.length / B)
    · -- the chunk is full
      have hfull : i * B + B ≤ l.length / B * B := by
        rw [← Nat.succ_mul]
        apply Nat.mul_le_mul_right B hi'
      rw [Function.update_of_ne fun he => hi'.ne (chunk_inj hi hd he), h.chunk i hi,
        List.drop_append_of_le_length (by omega), List.take_append_of_le_length]
      rw [List.length_drop]
      omega
    · rw [Function.update_self, h.chunk _ hi, List.drop_append_of_le_length hle,
        List.take_of_length_le (l := l.drop _ ++ [a]), List.take_of_length_le]
      · rw [List.length_drop]
        omega
      · rw [List.length_append, List.length_drop, List.length_singleton]
        omega
    · -- the chunk is empty
      have hempty : l.length / B * B + B ≤ i * B := by
        rw [← Nat.succ_mul]
        apply Nat.mul_le_mul_right B hi'
      rw [Function.update_of_ne fun he => hi'.ne' (chunk_inj hi hd he), h.chunk i hi,
        List.drop_eq_nil_of_le (by omega), List.drop_eq_nil_of_le]
      rw [List.length_append, List.length_singleton]
      omega

/-- The first chunk is given up. -/
theorem Holds.dropChunk (h : Holds N B f chunk l) (hf : f < N) :
  Holds N B ((f + 1) % N) (Function.update chunk f []) (l.drop B)
  := by
  constructor
  · rw [List.length_drop]
    exact (Nat.sub_le _ _).trans h.length
  · intro i hi
    rw [Nat.mod_add_mod, Nat.add_assoc, Nat.add_comm 1 i, List.drop_drop]
    have hmul : B + i * B = (i + 1) * B := by ring
    rw [hmul]
    obtain hi' | hi' := Nat.lt_or_ge (i + 1) N
    · have hne : (f + (i + 1)) % N ≠ f := by
        intro he
        have hinj := chunk_inj (f := f) hi' (Nat.zero_lt_of_lt hi') (by
          rw [he, Nat.add_zero, Nat.mod_eq_of_lt hf])
        omega
      rw [Function.update_of_ne hne, h.chunk (i + 1) hi']
    · obtain rfl : i + 1 = N := Nat.le_antisymm hi hi'
      rw [Nat.add_mod_right, Nat.mod_eq_of_lt hf, Function.update_self,
        List.drop_eq_nil_of_le h.length, List.take_nil]

end ChunkRing
