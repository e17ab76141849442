import Mathlib.Data.List.Basic
import Cynara.Library.Runs
import Cynara.Monitor.EntriesQueue

/-!
# The queue of monitor entries is a bounded queue

The entries that are in the buckets of the ring, from the first bucket on, are a list; the
first of them, as many as the offset says, are gone, and the others are the contents of the
queue.  The operations of the queue act on the contents as those of a queue that keeps a
bounded number of the most recent entries.

This is so as long as no entry is pushed into a full queue whose oldest entry is the last one
of its bucket: the entry then fills the bucket before the first one, and the first bucket is
taken into use for new entries while it still holds the oldest one.  With buckets of one entry
this does no harm.
-/

namespace Cynara

namespace EntriesQueue

variable {α : Type}

/-! ### Buckets -/

@[simp]
theorem length_entries_setBucket (q : EntriesQueue α) (i : ℕ) (b : EntriesBucket α) :
  (q.setBucket i b).entries.length = q.entries.length
  := List.length_set

theorem bucket_setBucket (q : EntriesQueue α) {i : ℕ} (hi : i < q.entries.length)
    (b : EntriesBucket α) :
  (q.setBucket i b).bucket = Function.update q.bucket i b
  := by
  funext j
  simp only [bucket, setBucket, List.getD_eq_getElem?_getD, List.getElem?_set]
  obtain rfl | hj := eq_or_ne i j
  · rw [if_pos rfl, if_pos hi, Function.update_self]
    rfl
  · rw [if_neg hj, Function.update_of_ne hj.symm]
    rfl

/-- What is read from the buckets after one of them has changed. -/
theorem comp_bucket_setBucket {β : Type} (g : EntriesBucket α → β) (q : EntriesQueue α) {i : ℕ}
    (hi : i < q.entries.length) (b : EntriesBucket α) :
  (fun j => g ((q.setBucket i b).bucket j)) = Function.update (fun j => g (q.bucket j)) i (g b)
  := by
  rw [bucket_setBucket q hi]
  exact Function.comp_update g q.bucket i b

/-- A bucket whose offset is zero is the same after it has been created again. -/
theorem createBucket_eq_self {q : EntriesQueue α} {i : ℕ} (h : (q.bucket i).offset = 0) :
  q.createBucket i = q
  := by
  have hbucket : { q.bucket i with offset := 0 } = q.bucket i := by rw [← h]
  rw [createBucket, hbucket, setBucket, bucket, List.getD_eq_getElem?_getD]
  cases hi : q.entries[i]? with
  | none => rw [List.set_eq_of_length_le (List.getElem?_eq_none_iff.mp hi)]
  | some b =>
      obtain ⟨hlt, rfl⟩ := List.getElem?_eq_some_iff.mp hi
      rw [Option.getD_some, List.set_getElem_self]

/-! ### The entries in the ring -/

/-- The buckets of the ring hold the entries `l`, from the bucket `f` on, whose first `o` are
gone. -/
structure Layout (Q B N : ℕ) (q : EntriesQueue α) (f : ℕ) (l : List α) (o : ℕ) : Prop where
  maxQueueSize : q.maxQueueSize = Q
  maxBucketSize : q.maxBucketSize = B
  length : q.entries.length = N
  pos : 0 < B
  first : f < N
  holds : ChunkRing.Holds N B f (fun i => (q.bucket i).entries) l
  last : q.lastBucketId = (f + l.length / B) % N
  offset : ∀ i, (q.bucket i).offset = if i = f then (o : ℤ) else 0
  size : q.size = l.length - o

variable {Q B N : ℕ} {q : EntriesQueue α} {f o : ℕ} {l : List α}

theorem Layout.offset_first (h : Layout Q B N q f l o) :
  (q.bucket f).offset = o
  := by
  rw [h.offset, if_pos rfl]

theorem Layout.entries_first (h : Layout Q B N q f l o) :
  (q.bucket f).entries = l.take B
  := by
  have hf := h.holds.chunk 0 (Nat.zero_lt_of_lt h.first)
  simpa only [Nat.add_zero, Nat.mod_eq_of_lt h.first, Nat.zero_mul, List.drop_zero] using hf

/-- The layout says in which bucket it starts. -/
theorem Layout.setFirst (h : Layout Q B N q f l o) (i : ℕ) :
  Layout Q B N { q with firstBucketId := i } f l o
  := ⟨h.maxQueueSize, h.maxBucketSize, h.length, h.pos, h.first, h.holds, h.last, h.offset,
    h.size⟩

/-- The offset of the first bucket is changed. -/
theorem Layout.setOffset (h : Layout Q B N q f l o) (r : ℕ) :
  Layout Q B N (q.setOffset f r) f l r
  := by
  have hf : f < q.entries.length := h.length.symm ▸ h.first
  refine ⟨h.maxQueueSize, h.maxBucketSize, ?_, h.pos, h.first, ?_, h.last, ?_, ?_⟩
  · rw [EntriesQueue.setOffset, length_entries_setBucket, h.length]
  · have hentries := comp_bucket_setBucket EntriesBucket.entries q hf
      { q.bucket f with offset := r }
    rw [Function.update_eq_self_iff.mpr rfl] at hentries
    exact (congrArg (ChunkRing.Holds N B f · l) hentries).mpr h.holds
  · intro i
    have hoffset := congrFun (comp_bucket_setBucket EntriesBucket.offset q hf
      { q.bucket f with offset := r }) i
    refine hoffset.trans ?_
    rw [Function.update_apply]
    split
    · rfl
    · rename_i hi
      rw [h.offset, if_neg hi]
  · change q.size - (r - (q.bucket f).offset) = l.length - r
    rw [h.size, h.offset_first]
    omega

/-- The first bucket is erased when it is full. -/
theorem Layout.eraseBucket (h : Layout Q B N q f l o) (hl : B ≤ l.length) :
  Layout Q B N (q.eraseBucket f) ((f + 1) % N) (l.drop B) 0
  := by
  have hN : 0 < N := Nat.zero_lt_of_lt h.first
  have hf : f < q.entries.length := h.length.symm ▸ h.first
  refine ⟨h.maxQueueSize, h.maxBucketSize, ?_, h.pos, Nat.mod_lt _ hN, ?_, ?_, ?_, ?_⟩
  · rw [EntriesQueue.eraseBucket, length_entries_setBucket, h.length]
  · have hentries := comp_bucket_setBucket EntriesBucket.entries q hf {}
    exact (congrArg (ChunkRing.Holds N B _ · _) hentries).mpr (h.holds.dropChunk h.first)
  · refine h.last.trans ?_
    rw [Nat.mod_add_mod, List.length_drop, Nat.div_eq_sub_div h.pos hl, Nat.add_assoc,
      Nat.add_comm 1]
  · intro i
    have hoffset := congrFun (comp_bucket_setBucket EntriesBucket.offset q hf {}) i
    refine hoffset.trans ?_
    rw [Function.update_apply, Nat.cast_zero, ite_self]
    split
    · rfl
    · rename_i hi
      rw [h.offset, if_neg hi]
  · change q.size - ((q.bucket f).entries.length - (q.bucket f).offset) = _
    rw [h.size, h.offset_first, h.entries_first, List.length_take, List.length_drop]
    omega

/-- The entries of the last bucket with the new one. -/
theorem Layout.length_last (h : Layout Q B N q f l o) (hl : l.length < N * B) (e : α) :
  ((q.bucket q.lastBucketId).entries ++ [e]).length = l.length % B + 1
  := by
  have hd : l.length / B < N := (Nat.div_lt_iff_lt_mul h.pos).mpr hl
  have hmod := Nat.mod_lt l.length h.pos
  have hdiv := Nat.div_add_mod' l.length B
  rw [List.length_append, List.length_singleton, h.last, h.holds.length_chunk hd]
  omega

/-- A new entry goes to the last bucket.  If it fills the bucket, the next bucket becomes the
last one; this must not be the first one, unless its offset is zero anyway. -/
theorem Layout.append (h : Layout Q B N q f l o) (hl : l.length < N * B)
    (ho : l.length + 1 < N * B ∨ o = 0) (e : α) :
  Layout Q B N (q.append e) f (l ++ [e]) o
  := by
  have hN : 0 < N := Nat.zero_lt_of_lt h.first
  have hlast : q.lastBucketId < q.entries.length := by
    rw [h.length, h.last]
    exact Nat.mod_lt _ hN
  let appended := q.setBucket q.lastBucketId
    { q.bucket q.lastBucketId with entries := (q.bucket q.lastBucketId).entries ++ [e] }
  have hentries : ChunkRing.Holds N B f (fun i => (appended.bucket i).entries) (l ++ [e]) := by
    have hupdate := comp_bucket_setBucket EntriesBucket.entries q hlast
      { q.bucket q.lastBucketId with entries := (q.bucket q.lastBucketId).entries ++ [e] }
    have happend := h.holds.append h.pos hl e
    rw [← h.last] at happend
    exact (congrArg (ChunkRing.Holds N B f · _) hupdate).mpr happend
  have hoffset : ∀ i, (appended.bucket i).offset = if i = f then (o : ℤ) else 0 := by
    intro i
    have hupdate := congrFun (comp_bucket_setBucket EntriesBucket.offset q hlast
      { q.bucket q.lastBucketId with entries := (q.bucket q.lastBucketId).entries ++ [e] }) i
    rw [Function.update_eq_self_iff.mpr rfl] at hupdate
    exact hupdate.trans (h.offset i)
  have happended : appended.entries.length = N := by
    rw [length_entries_setBucket, h.length]
  have hsize : q.size + 1 = ((l ++ [e]).length : ℤ) - o := by
    rw [h.size, List.length_append, List.length_singleton]
    push_cast
    ring
  have hnext : q.nextBucketId q.lastBucketId = (f + (l.length / B + 1)) % N := by
    rw [nextBucketId, h.length, h.last, Nat.mod_add_mod, Nat.add_assoc]
  have hmod := Nat.mod_lt l.length h.pos
  have hdiv := Nat.div_add_mod' l.length B
  by_cases hfull : l.length % B + 1 = B
  · have hlength : (l.length + 1) / B = l.length / B + 1 := by
      apply Nat.div_eq_of_lt_le
      · rw [Nat.succ_mul]
        omega
      · rw [Nat.succ_mul, Nat.succ_mul]
        omega
    have hzero : (appended.bucket (q.nextBucketId q.lastBucketId)).offset = 0 := by
      rw [hoffset, hnext]
      split
      · rename_i hf
        obtain ho | rfl := ho
        · -- the next bucket is not the first one
          have hlt : l.length / B + 1 < N := by
            rw [← hlength]
            exact (Nat.div_lt_iff_lt_mul h.pos).mpr ho
          have hzero := ChunkRing.chunk_inj hlt hN
            (hf.trans (Nat.mod_eq_of_lt h.first).symm)
          contradiction
        · rfl
      · rfl
    have hshape : q.append e
        = { appended with
            lastBucketId := q.nextBucketId q.lastBucketId
            size := q.size + 1 } := by
      simp only [EntriesQueue.append]
      rw [if_pos ((h.length_last hl e).trans (hfull.trans h.maxBucketSize.symm)),
        createBucket_eq_self hzero]
      rfl
    rw [hshape]
    refine ⟨h.maxQueueSize, h.maxBucketSize, happended, h.pos, h.first, hentries, ?_, hoffset,
      hsize⟩
    rw [List.length_append, List.length_singleton, hlength]
    exact hnext
  · have hlength : (l.length + 1) / B = l.length / B := by
      apply Nat.div_eq_of_lt_le
      · omega
      · rw [Nat.succ_mul]
        omega
    have hshape : q.append e = { appended with size := q.size + 1 } := by
      simp only [EntriesQueue.append]
      rw [if_neg]
      · rfl
      · rw [h.length_last hl e, h.maxBucketSize]
        exact hfull
    rw [hshape]
    refine ⟨h.maxQueueSize, h.maxBucketSize, happended, h.pos, h.first, hentries, ?_, hoffset,
      hsize⟩
    rw [List.length_append, List.length_singleton, hlength]
    exact h.last

/-! ### The loops -/

/-- The buckets before a given one are erased. -/
theorem Layout.eraseBuckets {t : ℕ} (h : Layout Q B N q f l o) (hl : t * B ≤ l.length)
    (ht : t < N) {fuel : ℕ} (hfuel : t < fuel) :
  ∃ q', EntriesQueue.eraseBuckets ((f + t) % N : ℕ) fuel q f = some (q', (f + t) % N)
    ∧ Layout Q B N q' ((f + t) % N) (l.drop (t * B)) (if t = 0 then o else 0)
  := by
  obtain ⟨fuel, rfl⟩ : ∃ m, fuel = m + 1 := ⟨fuel - 1, by omega⟩
  induction t generalizing q f l o fuel with
  | zero =>
      have hf : (f + 0) % N = f := Nat.mod_eq_of_lt h.first
      refine ⟨q, ?_, ?_⟩
      · rw [hf, EntriesQueue.eraseBuckets, if_pos rfl]
      · rw [hf, Nat.zero_mul, List.drop_zero, if_pos rfl]
        exact h
  | succ t ih =>
      have hne : ¬ (f : ℤ) = ((f + (t + 1)) % N : ℕ) := by
        intro he
        have hzero := ChunkRing.chunk_inj ht (Nat.zero_lt_of_lt ht)
          ((Int.ofNat.inj he).symm.trans (Nat.mod_eq_of_lt h.first).symm)
        contradiction
      have hround : (f + (t + 1)) % N = ((f + 1) % N + t) % N := by
        rw [Nat.mod_add_mod, Nat.add_assoc, Nat.add_comm 1]
      rw [Nat.succ_mul] at hl
      obtain ⟨fuel, rfl⟩ : ∃ m, fuel = m + 1 := ⟨fuel - 1, by omega⟩
      obtain ⟨q', hq', hlayout⟩ := ih (h.eraseBucket (by omega))
        (by rw [List.length_drop]; omega) (by omega) fuel (by omega)
      refine ⟨q', ?_, ?_⟩
      · rw [EntriesQueue.eraseBuckets, if_neg hne, nextBucketId, h.length, hround]
        exact hq'
      · rw [ite_self, List.drop_drop, Nat.add_comm B, ← Nat.succ_mul, ← hround] at hlayout
        rw [if_neg (Nat.succ_ne_zero t)]
        exact hlayout

/-- With enough entries the loop ends. -/
theorem copyEntries_of_le (q : EntriesQueue α) {amount : ℤ} {entries : List α}
    (hpos : 0 ≤ amount) (hle : amount ≤ entries.length) (fuel bucketId : ℕ) (offset toFetch : ℤ) :
  q.copyEntries amount (fuel + 1) bucketId offset toFetch entries = some entries
  := by
  rw [copyEntries, if_pos ⟨hpos, hle⟩]

/-- The entries from a place in the ring on are copied. -/
theorem Layout.copyEntries (h : Layout Q B N q f l o) {t r n fuel : ℕ} (hr : r < B)
    (hn : t * B + r + n ≤ l.length) (hfuel : r + n ≤ fuel * B) (entries : List α) :
  q.copyEntries (entries.length + n : ℕ) (fuel + 1) ((f + t) % N) r n entries
    = some (entries ++ (l.drop (t * B + r)).take n)
  := by
  induction fuel generalizing t r n entries with
  | zero =>
      obtain ⟨rfl, rfl⟩ : r = 0 ∧ n = 0 := by omega
      rw [copyEntries_of_le q (by omega) (by omega), List.take_zero, List.append_nil]
  | succ fuel ih =>
      obtain rfl | hpos := Nat.eq_zero_or_pos n
      · rw [copyEntries_of_le q (by omega) (by omega), List.take_zero, List.append_nil]
      · have ht : t < N := by
          have hlength := h.holds.length
          by_contra hge
          have := Nat.mul_le_mul_right B (not_lt.mp hge)
          omega
        have hstored := h.holds.chunk t ht
        have hlength := h.holds.length_chunk ht
        have hslice : ∀ m, r ≤ m → m ≤ B → ((q.bucket ((f + t) % N)).entries.take m).drop r
            = (l.drop (t * B + r)).take (m - r) := by
          intro m _ hm
          rw [hstored, List.take_take, Nat.min_eq_left hm, List.drop_take, List.drop_drop]
        rw [EntriesQueue.copyEntries, if_neg (by omega), nextBucketId, h.length, Nat.mod_add_mod]
        dsimp only
        obtain hmore | hlast := Nat.lt_or_ge B (r + n)
        · -- the bucket is copied to its end
          have hamount : min ((r : ℤ) + n) (q.bucket ((f + t) % N)).entries.length = (B : ℕ) := by
            omega
          have hfetched : ((l.drop (t * B + r)).take (B - r)).length = B - r := by
            rw [List.length_take, List.length_drop]
            omega
          have hrest : (n : ℤ) - (B - r) = (n - (B - r) : ℕ) := by omega
          have htotal : entries.length + n
              = (entries ++ (l.drop (t * B + r)).take (B - r)).length + (n - (B - r)) := by
            rw [List.length_append, hfetched]
            omega
          rw [hamount, Int.toNat_natCast, Int.toNat_natCast, hslice _ hr.le le_rfl, hrest, htotal,
            Nat.add_assoc]
          have hnext := ih (t := t + 1) (r := 0) (n := n - (B - r)) h.pos
            (by rw [Nat.succ_mul]; omega) (by rw [Nat.succ_mul] at hfuel; omega)
            (entries ++ (l.drop (t * B + r)).take (B - r))
          rw [Nat.cast_zero] at hnext
          rw [hnext]
          have hplace : (t + 1) * B + 0 = t * B + r + (B - r) := by
            rw [Nat.succ_mul]
            omega
          have hjoin : (l.drop (t * B + r)).take n = (l.drop (t * B + r)).take (B - r)
              ++ (l.drop (t * B + r + (B - r))).take (n - (B - r)) := by
            have hadd := List.take_add (l := l.drop (t * B + r)) (i := B - r) (j := n - (B - r))
            rwa [Nat.add_sub_cancel' (by omega), List.drop_drop] at hadd
          rw [hplace, List.append_assoc, ← hjoin]
        · -- the bucket has all that is left to fetch
          have hamount : min ((r : ℤ) + n) (q.bucket ((f + t) % N)).entries.length
              = (r + n : ℕ) := by omega
          have hfetched : ((l.drop (t * B + r)).take n).length = n := by
            rw [List.length_take, List.length_drop]
            omega
          rw [hamount, Int.toNat_natCast, Int.toNat_natCast, hslice _ (Nat.le_add_right r n) hlast,
            Nat.add_sub_cancel_left]
          apply copyEntries_of_le q (by omega)
          rw [List.length_append, hfetched]

/-! ### Places -/

/-- The id of the entry that is `k` entries after the oldest one. -/
def idAt (q : EntriesQueue α) (k : ℕ) : EntryId :=
  (q.getFrontEntryId + k) % (q.entries.length * q.maxBucketSize)

/-- The entry with a given id. -/
def entryAt (q : EntriesQueue α) (entryId : EntryId) : Option α :=
  (q.bucket (q.countBucketId entryId).toNat).entries[(q.countBucketOffset entryId).toNat]?

/-- The entries from the front id to the back id. -/
def live (q : EntriesQueue α) : List α :=
  (List.range ((q.getBackEntryId - q.getFrontEntryId)
    % (q.entries.length * q.maxBucketSize)).toNat).filterMap fun k => q.entryAt (q.idAt k)

theorem Layout.getFrontEntryId (h : Layout Q B N q q.firstBucketId l o) :
  q.getFrontEntryId = (q.firstBucketId * B + o : ℕ)
  := by
  rw [EntriesQueue.getFrontEntryId, h.maxBucketSize, h.offset_first]
  push_cast
  rfl

theorem Layout.idAt (h : Layout Q B N q q.firstBucketId l o) (k : ℕ) :
  q.idAt k = ((q.firstBucketId * B + (o + k)) % (N * B) : ℕ)
  := by
  rw [EntriesQueue.idAt, h.getFrontEntryId, h.length, h.maxBucketSize]
  push_cast
  rw [add_assoc]

theorem Layout.countBucketId (h : Layout Q B N q q.firstBucketId l o) (k : ℕ) :
  q.countBucketId (q.idAt k) = ((q.firstBucketId + (o + k) / B) % N : ℕ)
  := by
  rw [EntriesQueue.countBucketId, h.idAt, h.maxBucketSize, ← Int.ofNat_tdiv,
    ChunkRing.place_div h.pos]

theorem Layout.countBucketOffset (h : Layout Q B N q q.firstBucketId l o) (k : ℕ) :
  q.countBucketOffset (q.idAt k) = ((o + k) % B : ℕ)
  := by
  rw [EntriesQueue.countBucketOffset, h.idAt, h.maxBucketSize, ← Int.ofNat_tmod,
    ChunkRing.place_mod]

theorem Layout.getBackEntryId (h : Layout Q B N q q.firstBucketId l o)
    (hl : l.length < N * B) :
  q.getBackEntryId = ((q.firstBucketId * B + l.length) % (N * B) : ℕ)
  := by
  have hd : l.length / B < N := (Nat.div_lt_iff_lt_mul h.pos).mpr hl
  have hmod := Nat.mod_lt l.length h.pos
  have hdiv := Nat.div_add_mod' l.length B
  have hlast : (q.bucket q.lastBucketId).entries.length = l.length % B := by
    rw [h.last, h.holds.length_chunk hd]
    omega
  have hplace := Nat.div_add_mod' ((q.firstBucketId * B + l.length) % (N * B)) B
  rw [ChunkRing.place_div h.pos, ChunkRing.place_mod] at hplace
  rw [EntriesQueue.getBackEntryId, hlast, h.last, h.maxBucketSize, ← hplace, Nat.cast_add,
    Nat.cast_mul]

/-! ### The contents of the queue -/

/-- The queue holds the entries `kept`, of which the first `o` are gone. -/
structure Represents (Q B : ℕ) (q : EntriesQueue α) (kept : List α) (o : ℕ) : Prop where
  layout : Layout Q B (Q / B + 1) q q.firstBucketId kept o
  dvd : B ∣ Q
  pos : 0 < Q
  offset_lt : o < B
  offset_le : o ≤ kept.length
  bound : kept.length ≤ Q + o

variable {kept : List α}

theorem ring_length (hdvd : B ∣ Q) :
  (Q / B + 1) * B = Q + B
  := by
  rw [Nat.succ_mul, Nat.div_mul_cancel hdvd]

theorem Represents.length_lt (h : Represents Q B q kept o) :
  kept.length < (Q / B + 1) * B
  := by
  rw [ring_length h.dvd]
  have := h.bound
  have := h.offset_lt
  omega

theorem Represents.clear (hpos : 0 < Q) (hB : 0 < B) (hdvd : B ∣ Q) (hQ : q.maxQueueSize = Q)
    (hsize : q.maxBucketSize = B) :
  Represents Q B q.clear [] 0
  := by
  have hbucket : ∀ i, q.clear.bucket i = {} := by
    intro i
    rw [bucket, EntriesQueue.clear, List.getD_eq_getElem?_getD, List.getElem?_replicate]
    split
    · rfl
    · rfl
  have hlayout : Layout Q B (Q / B + 1) q.clear 0 ([] : List α) 0 := by
    refine ⟨hQ, hsize, ?_, hB, Nat.succ_pos _, ⟨Nat.zero_le _, ?_⟩, ?_, ?_, rfl⟩
    · rw [EntriesQueue.clear, List.length_replicate, hQ, hsize]
    · intro i _
      rw [hbucket, List.drop_nil, List.take_nil]
    · rw [List.length_nil, Nat.zero_div, Nat.zero_mod]
      rfl
    · intro i
      rw [hbucket, Nat.cast_zero, ite_self]
  exact ⟨hlayout, hdvd, hpos, hB, Nat.zero_le _, Nat.zero_le _⟩

/-! ### Pushing an entry -/

/-- The contents of a queue that keeps the most recent `Q` entries. -/
def pushBounded (Q : ℕ) (l : List α) (e : α) : List α := (l ++ [e]).drop (l.length + 1 - Q)

/-- An entry may be pushed unless the queue is full and the oldest entry is the last one of a
bucket of several. -/
def Roomy (q : EntriesQueue α) : Prop :=
  ¬ (q.size = q.maxQueueSize ∧ (q.bucket q.firstBucketId).offset + 1 = q.maxBucketSize
    ∧ 1 < q.maxBucketSize)

/-- An entry is appended to what the buckets hold. -/
theorem Represents.append (h : Represents Q B q kept o) (hroomy : q.Roomy) (e : α) :
  Layout Q B (Q / B + 1) (q.append e) q.firstBucketId (kept ++ [e]) o
  := by
  apply h.layout.append h.length_lt
  have hlt := h.offset_lt
  have hle := h.offset_le
  have hbound := h.bound
  by_contra hnot
  rw [not_or, ring_length h.dvd] at hnot
  apply hroomy
  rw [h.layout.size, h.layout.offset_first, h.layout.maxQueueSize, h.layout.maxBucketSize]
  omega

/-- A new entry changes neither the first bucket nor the bound, and it is counted. -/
theorem append_fields (q : EntriesQueue α) (e : α) :
  (q.append e).firstBucketId = q.firstBucketId ∧ (q.append e).maxQueueSize = q.maxQueueSize
    ∧ (q.append e).size = q.size + 1
  := by
  simp only [EntriesQueue.append]
  split
  · exact ⟨rfl, rfl, rfl⟩
  · exact ⟨rfl, rfl, rfl⟩

/-- The oldest entry is dropped when there are too many. -/
theorem Layout.checkSize (h : Layout Q B (Q / B + 1) q q.firstBucketId l o) (hdvd : B ∣ Q)
    (hpos : 0 < Q) (ho : o < B) (hl : l.length = Q + o + 1) :
  ∃ kept' o', Represents Q B q.checkSize.1 kept' o' ∧ kept'.drop o' = l.drop (o + 1)
  := by
  have hfull : ¬ q.size ≤ q.maxQueueSize := by
    rw [h.size, h.maxQueueSize]
    omega
  have hoffset : (q.bucket q.firstBucketId).offset + 1 = (o + 1 : ℕ) := by
    rw [h.offset_first, Nat.cast_add, Nat.cast_one]
  have hnext := h.setOffset (o + 1)
  simp only [EntriesQueue.checkSize, hfull, ↓reduceIte, hoffset, hnext.maxBucketSize]
  split
  · -- the first bucket is used up
    obtain rfl : o + 1 = B := by omega
    have herased := hnext.eraseBucket (by omega)
    have hround : (q.setOffset q.firstBucketId (o + 1 : ℕ)).nextBucketId q.firstBucketId
        = (q.firstBucketId + 1) % (Q / (o + 1) + 1) := by
      rw [nextBucketId, hnext.length]
    refine ⟨l.drop (o + 1), 0, ⟨?_, hdvd, hpos, Nat.succ_pos o, Nat.zero_le _, ?_⟩,
      List.drop_zero⟩
    · have hlayout := herased.setFirst ((q.firstBucketId + 1) % (Q / (o + 1) + 1))
      rw [← hround] at hlayout
      exact hlayout
    · rw [List.length_drop]
      omega
  · refine ⟨l, o + 1, ⟨hnext, hdvd, hpos, ?_, ?_, ?_⟩, rfl⟩
    all_goals omega

/-- When the queue is not full, a new entry is put behind the others, which stay where they
are. -/
theorem Represents.push_of_lt (h : Represents Q B q kept o)
    (hlt : (kept.drop o).length < Q) (e : α) :
  Represents Q B (q.push e).1 (kept ++ [e]) o
    ∧ (q.push e).1.firstBucketId = q.firstBucketId ∧ (q.push e).2 = false
  := by
  have hle := h.offset_le
  rw [List.length_drop] at hlt
  have hroomy : q.Roomy := by
    rintro ⟨hsize, -⟩
    rw [h.layout.size, h.layout.maxQueueSize] at hsize
    omega
  have hlayout := h.append hroomy e
  have hlength : (kept ++ [e]).length = kept.length + 1 := List.length_append
  have hsize : (q.append e).size ≤ (q.append e).maxQueueSize := by
    rw [hlayout.size, hlayout.maxQueueSize, hlength]
    omega
  rw [EntriesQueue.push, EntriesQueue.checkSize, if_pos hsize]
  rw [← (append_fields q e).1] at hlayout
  exact ⟨⟨hlayout, h.dvd, h.pos, h.offset_lt, by omega, by omega⟩, (append_fields q e).1, rfl⟩

/-- A new entry is put behind the contents of the queue. -/
theorem Represents.push (h : Represents Q B q kept o) (hroomy : q.Roomy) (e : α) :
  ∃ kept' o', Represents Q B (q.push e).1 kept' o'
    ∧ kept'.drop o' = pushBounded Q (kept.drop o) e
  := by
  have hle := h.offset_le
  have hbound := h.bound
  have hlength : (kept.drop o).length = kept.length - o := List.length_drop
  have hdrop : pushBounded Q (kept.drop o) e
      = (kept ++ [e]).drop (o + (kept.length - o + 1 - Q)) := by
    rw [pushBounded, ← List.drop_append_of_le_length hle, List.drop_drop, hlength]
  rw [hdrop]
  obtain hfits | hfull := Nat.lt_or_ge (kept.drop o).length Q
  · rw [show o + (kept.length - o + 1 - Q) = o by omega]
    exact ⟨kept ++ [e], o, (h.push_of_lt hfits e).1, rfl⟩
  · have hlayout := h.append hroomy e
    rw [← (append_fields q e).1] at hlayout
    rw [show o + (kept.length - o + 1 - Q) = o + 1 by omega]
    apply hlayout.checkSize h.dvd h.pos h.offset_lt
    rw [List.length_append, List.length_singleton]
    omega

/-- The result of a push tells whether an entry was dropped. -/
theorem Represents.push_snd (h : Represents Q B q kept o) (e : α) :
  (q.push e).2 = true ↔ (kept.drop o).length = Q
  := by
  obtain ⟨-, hmax, hsize⟩ := append_fields q e
  have hle := h.offset_le
  have hbound := h.bound
  have hresult : (q.push e).2 = true ↔ ¬ (q.append e).size ≤ (q.append e).maxQueueSize := by
    simp only [EntriesQueue.push, EntriesQueue.checkSize]
    split
    · simp_all
    · split
      · simp_all
      · simp_all
  rw [hresult, hmax, hsize, h.layout.size, h.layout.maxQueueSize, List.length_drop]
  omega

/-! ### Looking into the queue and popping entries -/

/-- The entries before a given one are removed. -/
theorem Represents.popUntil (h : Represents Q B q kept o) {k : ℕ}
    (hk : k ≤ (kept.drop o).length) {fuel : ℕ} (hfuel : Q / B + 1 ≤ fuel) :
  ∃ q' kept' o', q.popUntil fuel (q.idAt k) = some q' ∧ Represents Q B q' kept' o'
    ∧ kept'.drop o' = (kept.drop o).drop k ∧ ∀ j, q'.idAt j = q.idAt (k + j)
  := by
  have hlayout := h.layout
  have hle := h.offset_le
  have hbound := h.bound
  have hmod := Nat.mod_lt (o + k) hlayout.pos
  have hdiv := Nat.div_add_mod' (o + k) B
  rw [List.length_drop] at hk
  have ht : (o + k) / B < Q / B + 1 := by
    apply (Nat.div_lt_iff_lt_mul hlayout.pos).mpr
    have := h.length_lt
    omega
  obtain ⟨q', hq', hlayout'⟩ := hlayout.eraseBuckets (t := (o + k) / B) (by omega) ht
    (lt_of_lt_of_le ht hfuel)
  have hend := (hlayout'.setOffset ((o + k) % B)).setFirst
    ((q.firstBucketId + (o + k) / B) % (Q / B + 1))
  refine ⟨_, kept.drop ((o + k) / B * B), (o + k) % B, ?_,
    ⟨hend, h.dvd, h.pos, hmod, ?_, ?_⟩, ?_, ?_⟩
  · rw [EntriesQueue.popUntil, removeEntries, hlayout.countBucketId, hlayout.countBucketOffset, hq']
    rfl
  · rw [List.length_drop]
    omega
  · rw [List.length_drop]
    omega
  · rw [List.drop_drop, List.drop_drop, hdiv]
  · intro j
    have hplace := Nat.div_add_mod' ((q.firstBucketId * B + (o + k)) % ((Q / B + 1) * B)) B
    rw [ChunkRing.place_div hlayout.pos, ChunkRing.place_mod] at hplace
    rw [hend.idAt, hlayout.idAt, ← Nat.add_assoc, hplace, Nat.mod_add_mod, Nat.add_assoc,
      Nat.add_assoc]

theorem Represents.getBackEntryId (h : Represents Q B q kept o) :
  q.getBackEntryId = q.idAt (kept.drop o).length
  := by
  rw [h.layout.getBackEntryId h.length_lt, h.layout.idAt, List.length_drop,
    Nat.add_sub_cancel' h.offset_le]

theorem Represents.front_lt (h : Represents Q B q kept o) :
  q.firstBucketId * B + o < (Q / B + 1) * B
  := by
  have hfirst := Nat.mul_le_mul_right B (Nat.lt_succ_iff.mp h.layout.first)
  have hlt := h.offset_lt
  rw [Nat.succ_mul]
  omega

/-- The number of entries from a place on. -/
theorem Represents.sizeFrom (h : Represents Q B q kept o) {k : ℕ}
    (hk : k ≤ (kept.drop o).length) :
  q.sizeFrom (q.idAt k) = (kept.drop o).length - k
  := by
  have hlt := h.length_lt
  have hlength : (kept.drop o).length = kept.length - o := List.length_drop
  have hsize : q.size = (kept.drop o).length := by
    have hle := h.offset_le
    rw [h.layout.size]
    omega
  rw [EntriesQueue.sizeFrom, h.getBackEntryId, h.layout.getFrontEntryId, h.layout.idAt,
    h.layout.idAt, hsize, ← Nat.add_assoc, ← Nat.add_assoc]
  apply ChunkRing.distance h.front_lt hk
  omega

/-- A place with a higher number has fewer entries behind it, if the numbers do not start over
between the places. -/
theorem sizeFrom_le (q : EntriesQueue α) {a b : EntryId} (hab : a ≤ b)
    (hside : q.getFrontEntryId ≤ a ∨ b < q.getFrontEntryId) :
  q.sizeFrom b ≤ q.sizeFrom a
  := by
  unfold EntriesQueue.sizeFrom
  obtain ha | hb := hside
  · rw [if_neg (not_lt.mpr ha), if_neg (not_lt.mpr (ha.trans hab))]
    exact sub_le_sub_left (sub_le_sub_right hab _) _
  · rw [if_pos hb, if_pos (lt_of_le_of_lt hab hb)]
    exact sub_le_sub_left hab _

/-- As many entries are fetched as are asked for. -/
theorem Represents.fetch (h : Represents Q B q kept o) {k n : ℕ}
    (hn : k + n ≤ (kept.drop o).length) {fuel : ℕ} (hfuel : Q / B + 1 < fuel) :
  q.fetch fuel (q.idAt k) n [] = some (q.idAt (k + n), ((kept.drop o).drop k).take n)
  := by
  have hlength : (kept.drop o).length = kept.length - o := List.length_drop
  have hplace : (o + k) / B * B + (o + k) % B = o + k := Nat.div_add_mod' (o + k) B
  have hroom : (o + k) % B + n ≤ (Q / B + 1) * B := by
    have hlt := h.length_lt
    have hmod := Nat.mod_le (o + k) B
    have hle := h.offset_le
    omega
  obtain ⟨fuel, rfl⟩ := Nat.exists_eq_add_one.mpr (Nat.zero_lt_of_lt hfuel)
  have hcopy := h.layout.copyEntries (t := (o + k) / B) (r := (o + k) % B) (n := n)
    (Nat.mod_lt _ h.layout.pos) (by have := h.offset_le; omega)
    (hroom.trans (Nat.mul_le_mul_right B (Nat.lt_succ_iff.mp hfuel))) []
  rw [List.length_nil, Nat.zero_add, hplace, List.nil_append] at hcopy
  have hnext : (q.idAt k + n) % (q.entries.length * q.maxBucketSize) = q.idAt (k + n) := by
    rw [idAt, idAt, Int.emod_add_emod, Nat.cast_add, add_assoc]
  rw [EntriesQueue.fetch, h.sizeFrom (Nat.le_of_add_right_le hn), if_neg (by omega),
    h.layout.countBucketId, h.layout.countBucketOffset, Int.toNat_natCast, hcopy, hnext,
    List.drop_drop]
  rfl

/-- The entry with a given id. -/
theorem Represents.entryAt (h : Represents Q B q kept o) {k : ℕ}
    (hk : k < (kept.drop o).length) :
  q.entryAt (q.idAt k) = (kept.drop o)[k]?
  := by
  have hlt := h.length_lt
  rw [List.length_drop] at hk
  rw [EntriesQueue.entryAt, h.layout.countBucketId, h.layout.countBucketOffset, Int.toNat_natCast,
    Int.toNat_natCast, List.getElem?_drop]
  apply h.layout.holds.getElem?_chunk h.layout.pos
  omega

/-- The number of entries before a place, counted round the ring. -/
def position (q : EntriesQueue α) (entryId : EntryId) : ℕ :=
  ((entryId - q.getFrontEntryId) % (q.entries.length * q.maxBucketSize)).toNat

theorem Represents.position_idAt (h : Represents Q B q kept o) {k : ℕ}
    (hk : k ≤ (kept.drop o).length) :
  q.position (q.idAt k) = k
  := by
  have hlt := h.length_lt
  have hlength : (kept.drop o).length = kept.length - o := List.length_drop
  have hk' : (k : ℤ) < (Q / B + 1 : ℕ) * B := by
    rw [← Nat.cast_mul, Nat.cast_lt]
    omega
  rw [position, idAt, Int.emod_sub_emod, add_sub_cancel_left, h.layout.length,
    h.layout.maxBucketSize, Int.emod_eq_of_lt (Int.natCast_nonneg k) hk', Int.toNat_natCast]

theorem filterMap_getElem?_range (l : List α) :
  (List.range l.length).filterMap (fun k => l[k]?) = l
  := by
  induction l with
  | nil => rfl
  | cons a l ih =>
      rw [List.length_cons, List.range_succ_eq_map, List.filterMap_cons, List.filterMap_map]
      simp only [List.getElem?_cons_zero, Function.comp_def, List.getElem?_cons_succ, ih]

theorem Represents.live (h : Represents Q B q kept o) :
  q.live = kept.drop o
  := by
  have hback := h.position_idAt (le_refl (kept.drop o).length)
  rw [← h.getBackEntryId, position] at hback
  rw [EntriesQueue.live, hback]
  refine Eq.trans (List.filterMap_congr fun k hk => ?_) (filterMap_getElem?_range (kept.drop o))
  exact h.entryAt (List.mem_range.mp hk)

/-! ### Runs of the queue -/

inductive Operation (α : Type) where
  | push (entry : α)
  | popUntil (entryId : EntryId)
  | clear

/-- The queue after an operation, or `none` if it is still running. -/
def step (fuel : ℕ) (q : EntriesQueue α) : Operation α → Option (EntriesQueue α)
  | .push entry => some (q.push entry).1
  | .popUntil entryId => q.popUntil fuel entryId
  | .clear => some q.clear

/-- The contents of a bounded queue after an operation. -/
def contents (q : EntriesQueue α) (l : List α) : Operation α → List α
  | .push entry => pushBounded q.maxQueueSize l entry
  | .popUntil entryId => l.drop (q.position entryId)
  | .clear => []

/-- Entries are popped up to a place between the front and the back. -/
def Valid (q : EntriesQueue α) : Operation α → Prop
  | .popUntil entryId => ∃ k : ℕ, k ≤ q.size ∧ entryId = q.idAt k
  | _ => True

/-- The condition under which the queue works. -/
def Harmless (q : EntriesQueue α) : Operation α → Prop
  | .push _ => q.Roomy
  | _ => True

/-- The queues that are reached from a new one by operations that satisfy a condition, each
with the contents of a bounded queue after the same operations. -/
def Reachable (fuel Q B : ℕ) (condition : EntriesQueue α → Operation α → Prop)
    (q : EntriesQueue α) (l : List α) : Prop :=
  Runs.Reaches
    (fun (s : EntriesQueue α × List α) operation =>
      (step fuel s.1 operation).map fun q => (q, contents s.1 s.2 operation))
    (fun s operation => Valid s.1 operation ∧ condition s.1 operation) (new Q B, []) (q, l)

/-- The queue behaves as a bounded queue with the given contents. -/
structure IsBoundedQueue (fuel Q : ℕ) (q : EntriesQueue α) (l : List α) : Prop where
  live : q.live = l
  bound : l.length ≤ Q
  size : q.size = l.length
  back : q.getBackEntryId = q.idAt l.length
  push : ∀ e, (q.push e).2 = true ↔ l.length = Q
  popUntil : ∀ k ≤ l.length, (q.popUntil fuel (q.idAt k)).isSome
  sizeFrom : ∀ k ≤ l.length, q.sizeFrom (q.idAt k) = l.length - k
  fetch : ∀ k n, k + n ≤ l.length →
    q.fetch fuel (q.idAt k) n [] = some (q.idAt (k + n), (l.drop k).take n)

theorem Represents.isBoundedQueue (h : Represents Q B q kept o) {fuel : ℕ}
    (hfuel : Q / B + 1 < fuel) :
  IsBoundedQueue fuel Q q (kept.drop o)
  := by
  have hle := h.offset_le
  have hbound := h.bound
  have hlength : (kept.drop o).length = kept.length - o := List.length_drop
  refine ⟨h.live, by omega, ?_, h.getBackEntryId, h.push_snd, ?_, fun k hk => h.sizeFrom hk,
    fun k n hn => h.fetch hn hfuel⟩
  · rw [h.layout.size]
    omega
  · intro k hk
    obtain ⟨q', _, _, hq', -, -⟩ := h.popUntil hk hfuel.le
    rw [hq']
    rfl

/-- An operation acts on the contents as that of a bounded queue. -/
theorem Represents.step (h : Represents Q B q kept o) {fuel : ℕ} (hfuel : Q / B + 1 < fuel)
    {operation : Operation α} (hvalid : Valid q operation) (hharmless : Harmless q operation)
    {q' : EntriesQueue α} (hstep : EntriesQueue.step fuel q operation = some q') :
  ∃ kept' o', Represents Q B q' kept' o' ∧ kept'.drop o' = contents q (kept.drop o) operation
  := by
  cases operation with
  | push entry =>
      obtain rfl := Option.some.inj hstep
      rw [contents, h.layout.maxQueueSize]
      apply h.push hharmless
  | popUntil entryId =>
      obtain ⟨k, hk, rfl⟩ := hvalid
      rw [(h.isBoundedQueue hfuel).size, Nat.cast_le] at hk
      obtain ⟨q'', kept', o', hq'', hrepresents, hdrop, -⟩ := h.popUntil hk hfuel.le
      obtain rfl := Option.some.inj (hstep.symm.trans hq'')
      refine ⟨kept', o', hrepresents, ?_⟩
      rw [contents, h.position_idAt hk, hdrop]
  | clear =>
      obtain rfl := Option.some.inj hstep
      exact ⟨[], 0, Represents.clear h.pos h.layout.pos h.dvd h.layout.maxQueueSize
        h.layout.maxBucketSize, rfl⟩

/-- In every harmless run the queue holds what a bounded queue holds. -/
theorem Reachable.represents {fuel : ℕ} (hQ : 0 < Q) (hB : 0 < B) (hdvd : B ∣ Q)
    (hfuel : Q / B + 1 < fuel) (h : Reachable fuel Q B Harmless q l) :
  ∃ kept o, Represents Q B q kept o ∧ kept.drop o = l
  := by
  apply h.invariant (P := fun s => ∃ kept o, Represents Q B s.1 kept o ∧ kept.drop o = s.2)
  · exact ⟨[], 0, Represents.clear hQ hB hdvd rfl rfl, rfl⟩
  · rintro s operation s' ⟨kept, o, hrepresents, hkept⟩ ⟨hvalid, hharmless⟩ hstep
    obtain ⟨q', hq', rfl⟩ := Option.map_eq_some_iff.mp hstep
    rw [← hkept]
    exact hrepresents.step hfuel hvalid hharmless hq'

/-- As long as no entry is pushed into a full queue whose oldest entry is the last one of its
bucket, the queue is a bounded queue. -/
theorem isBoundedQueue_of_reachable {fuel : ℕ} (hQ : 0 < Q) (hB : 0 < B) (hdvd : B ∣ Q)
    (hfuel : Q / B + 1 < fuel) (hreach : Reachable fuel Q B Harmless q l) :
  IsBoundedQueue fuel Q q l
  := by
  obtain ⟨kept, o, hrepresents, rfl⟩ := hreach.represents hQ hB hdvd hfuel
  exact hrepresents.isBoundedQueue hfuel

theorem Reachable.push {fuel : ℕ} {condition : EntriesQueue α → Operation α → Prop}
    (h : Reachable fuel Q B condition q l) (e : α) (hcondition : condition q (.push e)) :
  Reachable fuel Q B condition (q.push e).1 (pushBounded q.maxQueueSize l e)
  := .next (e := .push e) h ⟨trivial, hcondition⟩ rfl

/-- A queue for two entries, into which three are pushed. -/
def threePushed : EntriesQueue ℕ := ((((new 2 2).push 1).1.push 2).1.push 3).1

theorem isBoundedQueue_threePushed :
  IsBoundedQueue 3 2 threePushed [2, 3]
  := by
  have hnew : Reachable 3 2 2 Harmless (new 2 2 : EntriesQueue ℕ) [] := .start
  have hpushed := ((hnew.push 1 (by unfold Harmless Roomy; decide)).push 2
    (by unfold Harmless Roomy; decide)).push 3 (by unfold Harmless Roomy; decide)
  exact isBoundedQueue_of_reachable (by decide) (by decide) (by decide) (by decide) hpushed

/-- With one more entry only one that should be gone can be read. -/
theorem live_fourPushed :
  Reachable 3 2 2 (fun _ _ => True) (threePushed.push 4).1 [3, 4]
    ∧ (threePushed.push 4).1.live = [2]
  := by
  have hnew : Reachable 3 2 2 (fun _ _ => True) (new 2 2 : EntriesQueue ℕ) [] := .start
  exact ⟨(((hnew.push 1 trivial).push 2 trivial).push 3 trivial).push 4 trivial, by decide⟩

end EntriesQueue

end Cynara
