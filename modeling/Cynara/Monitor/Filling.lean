import Mathlib.Tactic.Linarith
import Mathlib.Tactic.Positivity
import Mathlib.Tactic.Ring
import Cynara.Monitor.EntriesQueue

/-!
# Filling and emptying the queue

If all entries are the same, a queue is given by the lengths and the offsets of its buckets.  Here
is what many operations in a row make of such a queue: entries that fill the last bucket or several
buckets, and the removal of the buckets before a place.  The queue may be in any state, also in one
in which its size is not the number of its entries.
-/

namespace Cynara

/-- The lengths and the offsets of the buckets of a queue, with its other fields. -/
structure Filling where
  len : ℕ → ℕ
  off : ℕ → ℤ
  first : ℕ
  last : ℕ
  size : ℤ

namespace Filling

variable {α : Type} (e : α) (N Q B : ℕ) {s s' : Filling}

/-- The queue of `N` buckets that contains an entry over and over again. -/
def queue (s : Filling) : EntriesQueue α where
  entries := (List.range N).map fun i => ⟨List.replicate (s.len i) e, s.off i⟩
  firstBucketId := s.first
  lastBucketId := s.last
  size := s.size
  maxQueueSize := Q
  maxBucketSize := B

/-- Two fillings are the same as far as the buckets that are there are concerned. -/
def Same (s s' : Filling) : Prop :=
  (∀ i < N, s.len i = s'.len i ∧ s.off i = s'.off i) ∧ s.first = s'.first ∧ s.last = s'.last
    ∧ s.size = s'.size

instance : Decidable (Same N s s') :=
  inferInstanceAs (Decidable (_ ∧ _))

variable {e N Q B} {i n : ℕ}

theorem Same.queue_eq (h : Same N s s') :
  s.queue e N Q B = s'.queue e N Q B
  := by
  obtain ⟨hbuckets, hfirst, hlast, hsize⟩ := h
  have hentries : ((List.range N).map fun i => (⟨List.replicate (s.len i) e, s.off i⟩ :
      EntriesBucket α)) = (List.range N).map fun i => ⟨List.replicate (s'.len i) e, s'.off i⟩ := by
    apply List.map_congr_left
    intro i hi
    obtain ⟨hlen, hoff⟩ := hbuckets i (List.mem_range.mp hi)
    rw [hlen, hoff]
  simp only [queue, hentries, hfirst, hlast, hsize]

theorem length_queue :
  (s.queue e N Q B).entries.length = N
  := by
  simp [queue]

theorem bucket_queue (hi : i < N) :
  (s.queue e N Q B).bucket i = ⟨List.replicate (s.len i) e, s.off i⟩
  := by
  simp [EntriesQueue.bucket, queue, hi]

theorem nextBucketId_queue :
  (s.queue e N Q B).nextBucketId i = (i + 1) % N
  := by
  rw [EntriesQueue.nextBucketId, length_queue]

theorem setBucket_queue (n : ℕ) (o : ℤ) :
  (s.queue e N Q B).setBucket i ⟨List.replicate n e, o⟩
    = queue e N Q B { s with len := Function.update s.len i n, off := Function.update s.off i o }
  := by
  have hentries : ((List.range N).map fun j => (⟨List.replicate (s.len j) e, s.off j⟩ :
      EntriesBucket α)).set i ⟨List.replicate n e, o⟩
        = (List.range N).map fun j => ⟨List.replicate (Function.update s.len i n j) e,
          Function.update s.off i o j⟩ := by
    apply List.ext_getElem
    · simp
    · intro j hj hj'
      simp only [List.getElem_set, List.getElem_map, List.getElem_range, Function.update_apply]
      obtain rfl | hne := eq_or_ne i j
      · simp
      · simp [hne, hne.symm]
  simp only [EntriesQueue.setBucket, queue, hentries]

theorem createBucket_queue (hi : i < N) :
  (s.queue e N Q B).createBucket i = queue e N Q B { s with off := Function.update s.off i 0 }
  := by
  rw [EntriesQueue.createBucket, bucket_queue hi, setBucket_queue, Function.update_eq_self]

theorem eraseBucket_queue (hi : i < N) :
  (s.queue e N Q B).eraseBucket i
    = queue e N Q B { s with
        len := Function.update s.len i 0
        off := Function.update s.off i 0
        size := s.size - (s.len i - s.off i) }
  := by
  have hset := setBucket_queue (e := e) (N := N) (Q := Q) (B := B) (s := s) (i := i) 0 0
  rw [List.replicate_zero] at hset
  rw [EntriesQueue.eraseBucket, hset, bucket_queue hi, List.length_replicate]
  rfl

theorem setOffset_queue (hi : i < N) (o : ℤ) :
  (s.queue e N Q B).setOffset i o
    = queue e N Q B { s with
        off := Function.update s.off i o
        size := s.size - (o - s.off i) }
  := by
  rw [EntriesQueue.setOffset, bucket_queue hi, setBucket_queue, Function.update_eq_self]
  rfl

/-! ### Removal -/

/-- Some buckets are empty. -/
def clear (s : Filling) (a k : ℕ) (w : ℤ) : Filling :=
  { s with
    len := fun i => if a ≤ i ∧ i < a + k then 0 else s.len i
    off := fun i => if a ≤ i ∧ i < a + k then 0 else s.off i
    size := s.size - k * w }

/-- Buckets that contain the same number of entries are removed, if the loop does not end there. -/
theorem eraseBuckets_queue (a k : ℕ) {endBucketId w : ℤ} (fuel : ℕ) (hk : a + k ≤ N)
    (hend : ∀ i < a + k, a ≤ i → (i : ℤ) ≠ endBucketId)
    (hw : ∀ i < a + k, a ≤ i → s.len i - s.off i = w) :
  EntriesQueue.eraseBuckets endBucketId (fuel + k) (s.queue e N Q B) (a % N)
    = EntriesQueue.eraseBuckets endBucketId fuel ((s.clear a k w).queue e N Q B) ((a + k) % N)
  := by
  induction k generalizing a s with
  | zero =>
      have hclear : Same N (s.clear a 0 w) s :=
        ⟨fun i _ => ⟨if_neg (by omega), if_neg (by omega)⟩, rfl, rfl, by simp [clear]⟩
      rw [hclear.queue_eq]
      rfl
  | succ k ih =>
      have ha : a < N := by omega
      have hne : ((a % N : ℕ) : ℤ) ≠ endBucketId := by
        rw [Nat.mod_eq_of_lt ha]
        exact hend a (by omega) (by omega)
      have hstep : EntriesQueue.eraseBuckets endBucketId (fuel + (k + 1)) (s.queue e N Q B) (a % N)
          = EntriesQueue.eraseBuckets endBucketId (fuel + k)
            (queue e N Q B { s with
              len := Function.update s.len a 0
              off := Function.update s.off a 0
              size := s.size - w }) ((a + 1) % N) := by
        rw [← add_assoc, EntriesQueue.eraseBuckets, if_neg hne, nextBucketId_queue,
          Nat.mod_eq_of_lt ha, eraseBucket_queue ha, hw a (by omega) (by omega)]
      rw [hstep, ih (a + 1) (by omega)]
      · congr 1
        · apply Same.queue_eq
          refine ⟨fun i _ => ⟨?_, ?_⟩, rfl, rfl, ?_⟩
          · simp only [clear, Function.update_apply]
            split_ifs
            all_goals first | rfl | omega
          · simp only [clear, Function.update_apply]
            split_ifs
            all_goals first | rfl | omega
          · simp only [clear]
            push_cast
            ring
        · congr 1
          omega
      · intro i hi hi'
        exact hend i (by omega) (by omega)
      · intro i hi hi'
        simp only [Function.update_apply, if_neg (show i ≠ a by omega)]
        exact hw i (by omega) (by omega)

/-- A place in a bucket is the front. -/
def startAt (s : Filling) (i : ℕ) (o : ℤ) : Filling :=
  { s with
    off := Function.update s.off i o
    first := i
    size := s.size - (o - s.off i) }

/-- The loop that removes buckets ends at the one with the new front. -/
theorem popUntil_queue {fuel fuel' : ℕ} {q : EntriesQueue α} {id o : ℤ} (hi : i < N)
    (hid : q.countBucketId id = i) (ho : q.countBucketOffset id = o)
    (herase : EntriesQueue.eraseBuckets i fuel q q.firstBucketId
      = EntriesQueue.eraseBuckets i (fuel' + 1) (s.queue e N Q B) i)
    (hsame : Same N (s.startAt i o) s') :
  q.popUntil fuel id = some (s'.queue e N Q B)
  := by
  rw [EntriesQueue.popUntil, EntriesQueue.removeEntries, hid, ho, herase,
    EntriesQueue.eraseBuckets, if_pos rfl, Option.map_some, ← hsame.queue_eq]
  dsimp only
  rw [setOffset_queue hi]
  rfl

/-! ### Entries -/

/-- A number of entries are put into a queue, which does not overflow. -/
def Takes (e : α) : ℕ → EntriesQueue α → EntriesQueue α → Prop
  | 0, q, q' => q = q'
  | n + 1, q, q' => (q.push e).2 = false ∧ Takes e n (q.push e).1 q'

theorem Takes.congr {q : EntriesQueue α} (h : Takes e n q (s.queue e N Q B))
    (hsame : Same N s s') :
  Takes e n q (s'.queue e N Q B)
  := by
  rwa [← hsame.queue_eq]

theorem Takes.trans {k : ℕ} {q q' q'' : EntriesQueue α} (h : Takes e n q q')
    (h' : Takes e k q' q'') :
  Takes e (n + k) q q''
  := by
  induction n generalizing q with
  | zero =>
      obtain rfl : q = q' := h
      rwa [Nat.zero_add]
  | succ n ih =>
      rw [Nat.add_right_comm]
      exact ⟨h.1, ih h.2⟩

/-- The last bucket has more entries. -/
def grow (s : Filling) (n : ℕ) : Filling :=
  { s with
    len := Function.update s.len s.last (s.len s.last + n)
    size := s.size + n }

/-- The next bucket is the last one. -/
def advance (s : Filling) (N : ℕ) : Filling :=
  { s with
    off := Function.update s.off ((s.last + 1) % N) 0
    last := (s.last + 1) % N }

theorem grow_grow (s : Filling) (n k : ℕ) :
  (s.grow n).grow k = s.grow (n + k)
  := by
  simp only [grow, Function.update_self, Function.update_idem, Nat.cast_add, add_assoc]

/-- An entry goes to the last bucket, and the next one is begun when it is full. -/
theorem append_queue (hlast : s.last < N) :
  (s.queue e N Q B).append e
    = if s.len s.last + 1 = B then ((s.grow 1).advance N).queue e N Q B
      else (s.grow 1).queue e N Q B
  := by
  have hentries : ((s.queue e N Q B).bucket (s.queue e N Q B).lastBucketId).entries ++ [e]
      = List.replicate (s.len s.last + 1) e := by
    change ((s.queue e N Q B).bucket s.last).entries ++ [e] = _
    rw [bucket_queue hlast, List.replicate_succ']
  have hset : (s.queue e N Q B).setBucket (s.queue e N Q B).lastBucketId
      { (s.queue e N Q B).bucket (s.queue e N Q B).lastBucketId with
        entries := List.replicate (s.len s.last + 1) e }
      = queue e N Q B { s with len := Function.update s.len s.last (s.len s.last + 1) } := by
    change (s.queue e N Q B).setBucket s.last
      { (s.queue e N Q B).bucket s.last with entries := List.replicate (s.len s.last + 1) e } = _
    rw [bucket_queue hlast, setBucket_queue, Function.update_eq_self]
  have hmod : (s.last + 1) % N < N := Nat.mod_lt _ (by omega)
  have hB : (s.queue e N Q B).maxBucketSize = B := rfl
  have hnext : (s.queue e N Q B).nextBucketId (s.queue e N Q B).lastBucketId = (s.last + 1) % N :=
    nextBucketId_queue
  simp only [EntriesQueue.append, hentries, hset, List.length_replicate, hB, hnext,
    createBucket_queue hmod]
  split
  · rfl
  · rfl

/-- An entry does not overflow a queue that has room for it. -/
theorem push_of_append {q q' : EntriesQueue α} (h : q.append e = q')
    (hsize : q'.size ≤ q'.maxQueueSize) :
  q.push e = (q', false)
  := by
  rw [EntriesQueue.push, EntriesQueue.checkSize, h, if_pos hsize]

/-- The last bucket gets entries, but does not become full. -/
theorem takes_grow (n : ℕ) (hlast : s.last < N) (hlen : ∀ k < n, s.len s.last + k + 1 ≠ B)
    (hsize : s.size + n ≤ Q) :
  Takes e n (s.queue e N Q B) ((s.grow n).queue e N Q B)
  := by
  induction n with
  | zero =>
      have hgrow : s.grow 0 = s := by simp [grow]
      rw [hgrow]
      rfl
  | succ n ih =>
      push_cast at hsize
      have htakes := ih (fun k hk => hlen k (by omega)) (by omega)
      have happend : ((s.grow n).queue e N Q B).append e = (s.grow (n + 1)).queue e N Q B := by
        rw [append_queue (show (s.grow n).last < N from hlast), if_neg, grow_grow]
        simpa [grow] using hlen n (by omega)
      have hpush := push_of_append happend
        (by change s.size + (n + 1 : ℕ) ≤ (Q : ℤ); push_cast; omega)
      refine htakes.trans (k := 1) ?_
      rw [Takes, hpush]
      exact ⟨rfl, rfl⟩

/-- The last bucket becomes full. -/
theorem takes_advance (n : ℕ) (hlast : s.last < N) (hlen : s.len s.last + n = B) (hn : 0 < n)
    (hsize : s.size + n ≤ Q) :
  Takes e n (s.queue e N Q B) (((s.grow n).advance N).queue e N Q B)
  := by
  obtain ⟨n, rfl⟩ := Nat.exists_eq_succ_of_ne_zero hn.ne'
  rw [Nat.succ_eq_add_one] at hlen hsize ⊢
  push_cast at hsize
  have happend : ((s.grow n).queue e N Q B).append e
      = ((s.grow (n + 1)).advance N).queue e N Q B := by
    rw [append_queue (show (s.grow n).last < N from hlast), if_pos, grow_grow]
    simpa [grow, add_assoc] using hlen
  have hpush := push_of_append happend (by change s.size + (n + 1 : ℕ) ≤ (Q : ℤ); push_cast; omega)
  refine (takes_grow n hlast (fun k hk => by omega) (by omega)).trans (k := 1) ?_
  rw [Takes, hpush]
  exact ⟨rfl, rfl⟩

/-- The last bucket gets an entry, and the oldest one is dropped. -/
theorem push_of_overflow (hlast : s.last < N) (hfirst : s.first < N)
    (hlen : s.len s.last + 1 ≠ B) (hsize : Q < s.size + 1) (hoff : s.off s.first + 1 < B) :
  (s.queue e N Q B).push e
    = (((s.grow 1).startAt s.first (s.off s.first + 1)).queue e N Q B, true)
  := by
  have hoffset : (((s.grow 1).queue e N Q B).bucket s.first).offset = s.off s.first := by
    rw [bucket_queue hfirst]
    rfl
  have hfull : ¬ ((s.grow 1).queue e N Q B).size ≤ ((s.grow 1).queue e N Q B).maxQueueSize :=
    Int.not_le.mpr hsize
  rw [EntriesQueue.push, append_queue hlast, if_neg hlen, EntriesQueue.checkSize, if_neg hfull]
  change (if (B : ℤ) ≤ (((s.grow 1).queue e N Q B).bucket s.first).offset + 1 then _
    else (((s.grow 1).queue e N Q B).setOffset s.first
      ((((s.grow 1).queue e N Q B).bucket s.first).offset + 1), true)) = _
  rw [hoffset, if_neg (Int.not_le.mpr hoff), setOffset_queue hfirst]
  rfl

/-- Some buckets from the last one on are full. -/
def fill (s : Filling) (N B k : ℕ) : Filling :=
  { s with
    len := fun i => if s.last ≤ i ∧ i < s.last + k then B else s.len i
    off := fun i =>
      if s.last < i ∧ i ≤ s.last + k ∨ 0 < k ∧ i = (s.last + k) % N then 0 else s.off i
    last := (s.last + k) % N
    size := s.size + k * B }

/-- Empty buckets become full, one after the other. -/
theorem takes_fill (k : ℕ) (hB : 0 < B) (hk : s.last + k ≤ N) (hlast : s.last < N)
    (hlen : ∀ i < s.last + k, s.last ≤ i → s.len i = 0) (hsize : s.size + k * B ≤ Q) :
  Takes e (k * B) (s.queue e N Q B) ((s.fill N B k).queue e N Q B)
  := by
  induction k with
  | zero =>
      have hfill : Same N (s.fill N B 0) s :=
        ⟨fun i _ => ⟨if_neg (by omega), if_neg (by omega)⟩, rfl, Nat.mod_eq_of_lt hlast,
          by simp [fill]⟩
      rw [Nat.zero_mul, hfill.queue_eq]
      rfl
  | succ k ih =>
      push_cast at hsize
      have hmod : (s.last + k) % N = s.last + k := Nat.mod_eq_of_lt (by omega)
      have hnext : s.last + k + 1 < N ∧ (s.last + k + 1) % N = s.last + k + 1
          ∨ s.last + k + 1 = N ∧ (s.last + k + 1) % N = 0 := by
        obtain hlt | heq := Nat.lt_or_eq_of_le hk
        · exact Or.inl ⟨hlt, Nat.mod_eq_of_lt hlt⟩
        · exact Or.inr ⟨heq, by rw [← heq]; exact Nat.mod_self _⟩
      have hmul : 0 ≤ (k : ℤ) * B := by positivity
      have hbound : s.size + k * B + B ≤ (Q : ℤ) := by linarith
      have htakes := ih (by omega) (fun i hi hi' => hlen i (by omega) hi') (by omega)
      have hfull : Takes e B ((s.fill N B k).queue e N Q B)
          ((((s.fill N B k).grow B).advance N).queue e N Q B) := by
        apply takes_advance
        · simp only [fill, hmod]
          omega
        · simp only [fill, hmod]
          rw [if_neg (by omega), hlen _ (by omega) (by omega), Nat.zero_add]
        · exact hB
        · exact hbound
      have hsame : Same N (((s.fill N B k).grow B).advance N) (s.fill N B (k + 1)) := by
        refine ⟨fun i _ => ⟨?_, ?_⟩, rfl, ?_, ?_⟩
        · simp only [fill, grow, advance, hmod, Function.update_apply]
          have hzero := hlen (s.last + k) (by omega) (by omega)
          split_ifs
          all_goals first | rfl | omega
        · simp only [fill, grow, advance, hmod, Function.update_apply, ← Nat.add_assoc]
          split_ifs
          all_goals first | rfl | omega
        · simp only [fill, grow, advance, hmod]
          rfl
        · simp only [fill, grow, advance]
          push_cast
          ring
      rw [Nat.succ_mul]
      exact (htakes.trans hfull).congr hsame

end Filling

end Cynara
