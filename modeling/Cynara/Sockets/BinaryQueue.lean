import Mathlib.Data.List.Basic
import Cynara.Library.Outcome
import Cynara.Library.Refinement
import Cynara.Library.Strings

/-!
# The queue of bytes

A queue holds its bytes in a list of chunks, of which the first may have been consumed in part, and
counts them.  The loops that read and consume bytes follow the chunks until they have as many bytes
as they are to have, and do not look whether there is another chunk; there is no outcome if they run
past the last one.

The number that is counted is always that of the bytes in the chunks, so this does not happen, and
a queue does what a list of bytes does.
-/

namespace Cynara

/-- `OutOfDataException`, with the number of bytes there are and the number asked for. -/
structure OutOfDataException where
  dataRange : ℕ
  accessTry : ℕ
deriving DecidableEq

/-- A chunk: its bytes, the position up to which they are consumed, and the number that is left. -/
structure Bucket where
  buffer : Str
  ptr : ℕ
  left : ℕ
  ptr_add_left : ptr + left = buffer.length

namespace Bucket

/-- A new bucket has everything in front of it. -/
def new (buffer : Str) : Bucket := ⟨buffer, 0, buffer.length, Nat.zero_add _⟩

/-- Some of the bytes that are left are consumed. -/
def advance (b : Bucket) (count : ℕ) (h : count ≤ b.left) : Bucket :=
  ⟨b.buffer, b.ptr + count, b.left - count, by have := b.ptr_add_left; omega⟩

/-- The bytes that are left. -/
def bytes (b : Bucket) : Str := b.buffer.drop b.ptr

@[simp]
theorem length_bytes (b : Bucket) :
  b.bytes.length = b.left
  := by
  have := b.ptr_add_left
  rw [bytes, List.length_drop]
  omega

@[simp]
theorem bytes_new (buffer : Str) :
  (new buffer).bytes = buffer
  := rfl

@[simp]
theorem bytes_advance (b : Bucket) (count : ℕ) (h : count ≤ b.left) :
  (b.advance count h).bytes = b.bytes.drop count
  := by
  simp [bytes, advance]

end Bucket

/-- The buckets, and the number of bytes in them. -/
structure BinaryQueue where
  buckets : List Bucket := []
  size : ℕ := 0

namespace BinaryQueue

/-- An empty buffer is not attached. -/
def appendUnmanaged (buffer : Str) (q : BinaryQueue) : BinaryQueue :=
  if buffer.length = 0 then q
  else ⟨q.buckets ++ [.new buffer], q.size + buffer.length⟩

/-- A copy of the bytes is attached. -/
def appendCopy (buffer : Str) (q : BinaryQueue) : BinaryQueue := q.appendUnmanaged buffer

/-- The chunks are moved; the other queue is left empty. -/
def appendMoveFrom (q other : BinaryQueue) : BinaryQueue × BinaryQueue :=
  (⟨q.buckets ++ other.buckets, q.size + other.size⟩, {})

def clear (_ : BinaryQueue) : BinaryQueue := {}

/-- The loop of `consume`. -/
def consumeLoop (bytesLeft : ℕ) (buckets : List Bucket) (size : ℕ) : Option BinaryQueue :=
  if bytesLeft = 0 then some ⟨buckets, size⟩
  else
    match buckets with
    | [] => none
    | b :: bs =>
        let count := min bytesLeft b.left
        let b' := b.advance count (Nat.min_le_right _ _)
        if b'.left = 0 then consumeLoop (bytesLeft - count) bs (size - count)
        else consumeLoop (bytesLeft - count) (b' :: bs) (size - count)
termination_by buckets.length + bytesLeft
decreasing_by
  · rw [List.length_cons]
    omega
  · rename_i hleft
    have hcount : b.left - min bytesLeft b.left ≠ 0 := hleft
    rw [List.length_cons, List.length_cons]
    omega

/-- Bytes are taken from the front; if there are not enough, nothing is taken. -/
def consume (size : ℕ) (q : BinaryQueue) : Option (Outcome OutOfDataException BinaryQueue) :=
  if size > q.size then some (.threw ⟨q.size, size⟩ q)
  else (consumeLoop size q.buckets q.size).map .returned

/-- The loop of `flatten`: the bytes that are copied. -/
def flattenLoop (bytesLeft : ℕ) : List Bucket → Option Str
  | [] => if bytesLeft = 0 then some [] else none
  | b :: bs =>
      if bytesLeft = 0 then some []
      else
        let count := min bytesLeft b.left
        (flattenLoop (bytesLeft - count) bs).map (b.bytes.take count ++ ·)

/-- The first bytes, which stay in the queue. -/
def flatten (bufferSize : ℕ) (q : BinaryQueue) : Option (Except OutOfDataException Str) :=
  if bufferSize = 0 then some (.ok [])
  else if bufferSize > q.size then some (.error ⟨q.size, bufferSize⟩)
  else (flattenLoop bufferSize q.buckets).map .ok

/-- What is copied, and the queue that is left. -/
def flattenConsume (bufferSize : ℕ) (q : BinaryQueue) :
    Option (Except OutOfDataException Str × BinaryQueue) :=
  match q.flatten bufferSize with
  | none => none
  | some (.error e) => some (.error e, q)
  | some (.ok data) =>
      (q.consume bufferSize).map fun o =>
        (match o.thrown with
          | none => .ok data
          | some e => .error e, o.state)

/-- The bytes of the other queue are copied as one chunk. -/
def appendCopyFrom (q other : BinaryQueue) : Option (Outcome OutOfDataException BinaryQueue) :=
  (other.flatten other.size).map fun
    | .ok data => .returned (q.appendUnmanaged data)
    | .error e => .threw e q

/-! ### The bytes of a queue -/

/-- The bytes of the chunks. -/
def bytes (q : BinaryQueue) : Str := q.buckets.flatMap Bucket.bytes

/-- The bytes are counted, and no chunk is empty. -/
structure Valid (q : BinaryQueue) : Prop where
  size_eq : q.size = q.bytes.length
  nonempty : ∀ b ∈ q.buckets, b.bytes ≠ []

variable {q other : BinaryQueue}

theorem valid_empty :
  Valid {}
  := ⟨rfl, nofun⟩

theorem Valid.appendUnmanaged (h : q.Valid) (buffer : Str) :
  (q.appendUnmanaged buffer).Valid ∧ (q.appendUnmanaged buffer).bytes = q.bytes ++ buffer
  := by
  unfold BinaryQueue.appendUnmanaged
  split
  · rename_i hempty
    obtain rfl := List.length_eq_zero_iff.mp hempty
    exact ⟨h, (List.append_nil _).symm⟩
  · rename_i hne
    have hbytes : bytes ⟨q.buckets ++ [.new buffer], q.size + buffer.length⟩
        = q.bytes ++ buffer := by
      simp [bytes]
    refine ⟨⟨?_, ?_⟩, hbytes⟩
    · rw [hbytes, List.length_append, ← h.size_eq]
    · intro b hb
      rcases List.mem_append.mp hb with hb | hb
      · exact h.nonempty b hb
      · obtain rfl := List.mem_singleton.mp hb
        exact fun hempty => hne (List.length_eq_zero_iff.mpr hempty)

theorem Valid.appendMoveFrom (h : q.Valid) (hother : other.Valid) :
  (q.appendMoveFrom other).1.Valid ∧ (q.appendMoveFrom other).1.bytes = q.bytes ++ other.bytes
  := by
  have hbytes : (q.appendMoveFrom other).1.bytes = q.bytes ++ other.bytes :=
    List.flatMap_append
  refine ⟨⟨?_, ?_⟩, hbytes⟩
  · rw [hbytes, List.length_append, ← h.size_eq, ← hother.size_eq]
    rfl
  · intro b hb
    rcases List.mem_append.mp hb with hb | hb
    · exact h.nonempty b hb
    · exact hother.nonempty b hb

/-- While there are enough bytes in the chunks, the loop does not run past the last one. -/
theorem flattenLoop_eq {n : ℕ} {buckets : List Bucket}
    (h : n ≤ (buckets.flatMap Bucket.bytes).length) :
  flattenLoop n buckets = some ((buckets.flatMap Bucket.bytes).take n)
  := by
  induction buckets generalizing n with
  | nil =>
      obtain rfl : n = 0 := Nat.le_zero.mp h
      rfl
  | cons b bs ih =>
      rw [List.flatMap_cons] at h ⊢
      rw [List.length_append, Bucket.length_bytes] at h
      unfold flattenLoop
      split
      · rename_i hn
        rw [hn, List.take_zero]
      · simp only [ih (n := n - min n b.left) (by omega), Option.map_some, List.take_append,
          Bucket.length_bytes]
        congr 2
        · rcases Nat.le_total n b.left with hle | hle
          · rw [Nat.min_eq_left hle]
          · rw [Nat.min_eq_right hle, List.take_of_length_le (by simp),
              List.take_of_length_le (by simpa using hle)]
        · congr 1
          omega

/-- The first bytes are copied, if there are enough. -/
theorem Valid.flatten (h : q.Valid) (n : ℕ) :
  q.flatten n =
    some (if n ≤ q.bytes.length then .ok (q.bytes.take n) else .error ⟨q.bytes.length, n⟩)
  := by
  unfold BinaryQueue.flatten
  rw [h.size_eq]
  split
  · rename_i hn
    simp [hn]
  · split
    · rename_i hlt
      rw [if_neg (Nat.not_le.mpr hlt)]
    · rename_i hle
      have hle := Nat.le_of_not_lt hle
      rw [if_pos hle, flattenLoop_eq hle]
      rfl

/-- The bytes are dropped from the chunks, and those that are used up are removed. -/
theorem consumeLoop_eq {n size : ℕ} {buckets : List Bucket} (h : Valid ⟨buckets, size⟩)
    (hn : n ≤ size) :
  ∃ q, consumeLoop n buckets size = some q ∧ q.Valid
    ∧ q.bytes = (buckets.flatMap Bucket.bytes).drop n
  := by
  fun_induction consumeLoop n buckets size with
  | case1 buckets size => exact ⟨_, rfl, h, rfl⟩
  | case2 n size hne =>
      have hsize : size = 0 := h.size_eq
      omega
  | case3 n size hne b bs count b' hused ih =>
      have hsize : size = b.left + (bs.flatMap Bucket.bytes).length := by
        simpa [bytes] using h.size_eq
      have hcount : count = b.left := by
        have hle : count ≤ b.left := Nat.min_le_right _ _
        have hleft : b.left - count = 0 := hused
        omega
      have hle : b.left ≤ n := hcount ▸ Nat.min_le_left _ _
      have hrest : Valid ⟨bs, size - count⟩ :=
        ⟨show size - count = (bs.flatMap Bucket.bytes).length by omega,
          fun c hc => h.nonempty c (List.mem_cons_of_mem b hc)⟩
      obtain ⟨q, hq, hvalid, hbytes⟩ := ih hrest (by omega)
      refine ⟨q, hq, hvalid, ?_⟩
      have hgone : b.bytes.drop n = [] := List.drop_of_length_le (by simpa using hle)
      rw [hbytes, hcount, List.flatMap_cons, List.drop_append, Bucket.length_bytes, hgone,
        List.nil_append]
  | case4 n size hne b bs count b' hleft ih =>
      have hsize : size = b.left + (bs.flatMap Bucket.bytes).length := by
        simpa [bytes] using h.size_eq
      have hlt : n < b.left := by
        have hpos : b.left - min n b.left ≠ 0 := hleft
        omega
      have hcount : count = n := Nat.min_eq_left (Nat.le_of_lt hlt)
      have hbytes' : b'.bytes = b.bytes.drop n := by
        rw [Bucket.bytes_advance, hcount]
      have hrest : Valid ⟨b' :: bs, size - count⟩ := by
        constructor
        · simp only [bytes, List.flatMap_cons, List.length_append, hbytes', List.length_drop,
            Bucket.length_bytes]
          omega
        · rw [List.forall_mem_cons]
          refine ⟨?_, fun c hc => h.nonempty c (List.mem_cons_of_mem b hc)⟩
          rw [hbytes', Ne, List.drop_eq_nil_iff, Bucket.length_bytes]
          omega
      obtain ⟨q, hq, hvalid, hbytes⟩ := ih hrest (by omega)
      refine ⟨q, hq, hvalid, ?_⟩
      rw [hbytes, hcount, Nat.sub_self, List.drop_zero, List.flatMap_cons, List.flatMap_cons,
        hbytes', List.drop_append_of_le_length (by simpa using Nat.le_of_lt hlt)]

/-- The first bytes are dropped, if there are enough. -/
theorem Valid.consume (h : q.Valid) (n : ℕ) :
  ∃ o, q.consume n = some o ∧ o.state.Valid ∧
    (n ≤ q.bytes.length → o.thrown = none ∧ o.state.bytes = q.bytes.drop n) ∧
    (¬ n ≤ q.bytes.length → o = .threw ⟨q.bytes.length, n⟩ q)
  := by
  unfold BinaryQueue.consume
  split
  · rename_i hlt
    have hlt : ¬ n ≤ q.bytes.length := by
      rw [← h.size_eq]
      omega
    exact ⟨_, rfl, h, fun hle => absurd hle hlt, fun _ => by rw [h.size_eq]⟩
  · rename_i hle
    have hle : n ≤ q.size := Nat.le_of_not_lt hle
    obtain ⟨q', hq', hvalid, hbytes⟩ := consumeLoop_eq h hle
    refine ⟨_, by rw [hq']; rfl, hvalid, fun _ => ⟨rfl, hbytes⟩, fun hlt => ?_⟩
    exact absurd (h.size_eq ▸ hle) hlt

theorem Valid.flattenConsume (h : q.Valid) (n : ℕ) :
  ∃ q', q'.Valid ∧ q.flattenConsume n = some
      (if n ≤ q.bytes.length then .ok (q.bytes.take n) else .error ⟨q.bytes.length, n⟩, q')
    ∧ (n ≤ q.bytes.length → q'.bytes = q.bytes.drop n) ∧ (¬ n ≤ q.bytes.length → q' = q)
  := by
  unfold BinaryQueue.flattenConsume
  rw [h.flatten]
  by_cases hle : n ≤ q.bytes.length
  · obtain ⟨o, ho, hvalid, hreturned, -⟩ := h.consume n
    obtain ⟨hthrown, hbytes⟩ := hreturned hle
    refine ⟨o.state, hvalid, ?_, fun _ => hbytes, fun hlt => absurd hle hlt⟩
    simp [hle, ho, hthrown]
  · refine ⟨q, h, ?_, fun hle' => absurd hle' hle, fun _ => rfl⟩
    simp [hle]

theorem Valid.appendCopyFrom (h : q.Valid) (hother : other.Valid) :
  ∃ q', q.appendCopyFrom other = some (.returned q') ∧ q'.Valid
    ∧ q'.bytes = q.bytes ++ other.bytes
  := by
  obtain ⟨hvalid, hbytes⟩ := h.appendUnmanaged other.bytes
  refine ⟨_, ?_, hvalid, hbytes⟩
  rw [BinaryQueue.appendCopyFrom, hother.flatten, hother.size_eq, if_pos le_rfl, List.take_length]
  rfl

/-! ### Runs -/

/-- The operations on some queues.  A queue is not moved to itself. -/
inductive Operation (ι : Type) where
  | appendCopy (i : ι) (buffer : Str)
  | appendUnmanaged (i : ι) (buffer : Str)
  | appendCopyFrom (i other : ι)
  | appendMoveFrom (i other : ι) (h : i ≠ other)
  | consume (i : ι) (size : ℕ)
  | flatten (i : ι) (bufferSize : ℕ)
  | flattenConsume (i : ι) (bufferSize : ℕ)
  | clear (i : ι)

/-- The bytes that are copied, or the exception that is thrown. -/
abbrev Answer := Except OutOfDataException Str

variable {ι : Type} [DecidableEq ι]

/-- An operation that copies no bytes. -/
def settle (qs : ι → BinaryQueue) (i : ι) (o : Outcome OutOfDataException BinaryQueue) :
    Answer × (ι → BinaryQueue) :=
  (match o.thrown with
    | none => .ok []
    | some e => .error e, Function.update qs i o.state)

/-- What an operation on one of the queues answers. -/
def step (qs : ι → BinaryQueue) : Operation ι → Option (Answer × (ι → BinaryQueue))
  | .appendCopy i buffer => some (settle qs i (.returned ((qs i).appendCopy buffer)))
  | .appendUnmanaged i buffer => some (settle qs i (.returned ((qs i).appendUnmanaged buffer)))
  | .appendCopyFrom i other => ((qs i).appendCopyFrom (qs other)).map (settle qs i)
  | .appendMoveFrom i other _ =>
      let (q, rest) := (qs i).appendMoveFrom (qs other)
      some (.ok [], Function.update (Function.update qs i q) other rest)
  | .consume i size => ((qs i).consume size).map (settle qs i)
  | .flatten i bufferSize => ((qs i).flatten bufferSize).map fun answer => (answer, qs)
  | .flattenConsume i bufferSize =>
      ((qs i).flattenConsume bufferSize).map fun (answer, q) => (answer, Function.update qs i q)
  | .clear i => some (settle qs i (.returned (qs i).clear))

/-- What the operations do to lists of bytes. -/
def spec (ts : ι → Str) : Operation ι → Answer × (ι → Str)
  | .appendCopy i buffer => (.ok [], Function.update ts i (ts i ++ buffer))
  | .appendUnmanaged i buffer => (.ok [], Function.update ts i (ts i ++ buffer))
  | .appendCopyFrom i other => (.ok [], Function.update ts i (ts i ++ ts other))
  | .appendMoveFrom i other _ =>
      (.ok [], Function.update (Function.update ts i (ts i ++ ts other)) other [])
  | .consume i size =>
      if size ≤ (ts i).length then (.ok [], Function.update ts i ((ts i).drop size))
      else (.error ⟨(ts i).length, size⟩, ts)
  | .flatten i bufferSize =>
      if bufferSize ≤ (ts i).length then (.ok ((ts i).take bufferSize), ts)
      else (.error ⟨(ts i).length, bufferSize⟩, ts)
  | .flattenConsume i bufferSize =>
      if bufferSize ≤ (ts i).length then
        (.ok ((ts i).take bufferSize), Function.update ts i ((ts i).drop bufferSize))
      else (.error ⟨(ts i).length, bufferSize⟩, ts)
  | .clear i => (.ok [], Function.update ts i [])

/-- The queues are valid and hold the given bytes. -/
def Holds (qs : ι → BinaryQueue) (ts : ι → Str) : Prop :=
  ∀ i, (qs i).Valid ∧ (qs i).bytes = ts i

theorem Holds.update {qs : ι → BinaryQueue} {ts : ι → Str} (h : Holds qs ts) (i : ι)
    {q : BinaryQueue} {t : Str} (hq : q.Valid) (hbytes : q.bytes = t) :
  Holds (Function.update qs i q) (Function.update ts i t)
  := by
  intro j
  by_cases hj : j = i
  · subst hj
    simpa using ⟨hq, hbytes⟩
  · simpa [hj] using h j

/-- Each operation does to the queues what it is specified to do to their bytes. -/
theorem refines_spec :
  Refinement.Refines (step (ι := ι)) spec Holds
  := by
  intro qs ts operation h
  cases operation with
  | appendCopy i buffer =>
      obtain ⟨hvalid, hbytes⟩ := (h i).1.appendUnmanaged buffer
      exact ⟨_, rfl, h.update i hvalid (hbytes.trans (by rw [(h i).2]))⟩
  | appendUnmanaged i buffer =>
      obtain ⟨hvalid, hbytes⟩ := (h i).1.appendUnmanaged buffer
      exact ⟨_, rfl, h.update i hvalid (hbytes.trans (by rw [(h i).2]))⟩
  | appendCopyFrom i other =>
      obtain ⟨q, hq, hvalid, hbytes⟩ := (h i).1.appendCopyFrom (h other).1
      refine ⟨_, by rw [step, hq]; rfl, h.update i hvalid ?_⟩
      rw [hbytes, (h i).2, (h other).2]
  | appendMoveFrom i other hne =>
      obtain ⟨hvalid, hbytes⟩ := (h i).1.appendMoveFrom (h other).1
      refine ⟨_, rfl, (h.update i hvalid ?_).update other valid_empty rfl⟩
      rw [hbytes, (h i).2, (h other).2]
  | consume i size =>
      obtain ⟨o, ho, hvalid, hreturned, hthrew⟩ := (h i).1.consume size
      simp only [step, ho, spec, ← (h i).2]
      split
      · rename_i hle
        obtain ⟨hthrown, hbytes⟩ := hreturned hle
        exact ⟨_, by simp [settle, hthrown], h.update i hvalid hbytes⟩
      · rename_i hlt
        rw [hthrew hlt]
        exact ⟨_, by simp [settle], h⟩
  | flatten i bufferSize =>
      simp only [step, (h i).1.flatten, spec, ← (h i).2]
      split
      · exact ⟨_, rfl, h⟩
      · exact ⟨_, rfl, h⟩
  | flattenConsume i bufferSize =>
      obtain ⟨q, hvalid, hq, hreturned, hthrew⟩ := (h i).1.flattenConsume bufferSize
      simp only [step, hq, spec, ← (h i).2]
      split
      · rename_i hle
        exact ⟨_, rfl, h.update i hvalid (hreturned hle)⟩
      · rename_i hlt
        rw [hthrew hlt]
        exact ⟨_, by simp, h⟩
  | clear i => exact ⟨_, rfl, h.update i valid_empty rfl⟩

/-- Whatever is done to some queues that are empty at first: every operation comes to an end, and
its answer is the one for lists of bytes; a queue holds the bytes of its list, counts them, and has
no empty chunk. -/
theorem refines_bytes (ops : List (Operation ι)) :
  let specified := Refinement.runSpec spec ops fun _ => []
  ∃ qs, Refinement.run step ops (fun _ => {}) = some (specified.1, qs)
    ∧ ∀ i, (qs i).bytes = specified.2 i ∧ (qs i).size = (specified.2 i).length
      ∧ ∀ b ∈ (qs i).buckets, b.bytes ≠ []
  := by
  intro specified
  obtain ⟨qs, hrun, hholds⟩ := refines_spec.run ops (s := fun _ => {}) (t := fun _ => [])
    fun _ => ⟨valid_empty, rfl⟩
  refine ⟨qs, hrun, fun i => ?_⟩
  obtain ⟨hvalid, hbytes⟩ := hholds i
  exact ⟨hbytes, hbytes ▸ hvalid.size_eq, hvalid.nonempty⟩

end BinaryQueue

end Cynara
