import Mathlib.Logic.Relation
import Cynara.Library.ChunkRing

/-!
# The queue of monitor entries

The queue keeps its entries in a ring of buckets.  The first bucket has an offset, which tells
how many of its entries are gone; an entry has an id, its place in the ring.  When there are
more entries than the queue may hold, the oldest one is dropped.

The loops that go from bucket to bucket have no bound of their own, so they are given fuel,
and `none` says that they are still running when the fuel is used up.
-/

namespace Cynara

/-- The place of an entry, `int` in the source.  No place reaches `2 ^ 31` as long as the size of
the queue and that of a bucket add up to less, as those of the service do. -/
abbrev EntryId := ℤ

/-- The number of entries that a monitor may ask for. -/
def CYNARA_MAX_MONITOR_BUFFER_SIZE : ℕ := 65535

/-- The sizes of a queue that is not given others. -/
def MAX_QUEUE_SIZE : ℕ := 2 * CYNARA_MAX_MONITOR_BUFFER_SIZE

/-- The size of a bucket. -/
def MAX_BUCKET_SIZE : ℕ := 2 * 255

/-- A part of the queue: the entries before the offset have been removed. -/
structure EntriesBucket (α : Type) where
  entries : List α := []
  offset : ℤ := 0
deriving DecidableEq

/-- The buckets, which are used in a circle. -/
structure EntriesQueue (α : Type) where
  entries : List (EntriesBucket α)
  firstBucketId : ℕ
  lastBucketId : ℕ
  size : ℤ
  maxQueueSize : ℕ
  maxBucketSize : ℕ
deriving DecidableEq

namespace EntriesQueue

variable {α : Type}

/-! ### Buckets -/

/-- The bucket at a place of the circle. -/
def bucket (q : EntriesQueue α) (bucketId : ℕ) : EntriesBucket α :=
  q.entries.getD bucketId {}

/-- A bucket is replaced. -/
def setBucket (q : EntriesQueue α) (bucketId : ℕ) (b : EntriesBucket α) : EntriesQueue α :=
  { q with entries := q.entries.set bucketId b }

/-- The entries of the bucket are not touched. -/
def createBucket (q : EntriesQueue α) (bucketId : ℕ) : EntriesQueue α :=
  q.setBucket bucketId { q.bucket bucketId with offset := 0 }

/-- A bucket becomes empty, and its entries are not counted any more. -/
def eraseBucket (q : EntriesQueue α) (bucketId : ℕ) : EntriesQueue α :=
  { q.setBucket bucketId {} with
    size := q.size - ((q.bucket bucketId).entries.length - (q.bucket bucketId).offset) }

/-- The bucket in which an entry is. -/
def countBucketId (q : EntriesQueue α) (entryId : EntryId) : ℤ :=
  entryId.tdiv q.maxBucketSize

/-- The place of an entry in its bucket. -/
def countBucketOffset (q : EntriesQueue α) (entryId : EntryId) : ℤ :=
  entryId.tmod q.maxBucketSize

/-- The next place of the circle. -/
def nextBucketId (q : EntriesQueue α) (bucketId : ℕ) : ℕ :=
  (bucketId + 1) % q.entries.length

/-- The number of the first entry. -/
def getFrontEntryId (q : EntriesQueue α) : EntryId :=
  q.firstBucketId * q.maxBucketSize + (q.bucket q.firstBucketId).offset

/-- The number that the next entry will get. -/
def getBackEntryId (q : EntriesQueue α) : EntryId :=
  q.lastBucketId * q.maxBucketSize + (q.bucket q.lastBucketId).entries.length

/-! ### Operations -/

/-- Empty buckets, and the circle starts again. -/
def clear (q : EntriesQueue α) : EntriesQueue α :=
  { q with
    entries := List.replicate (q.maxQueueSize / q.maxBucketSize + 1) {}
    firstBucketId := 0
    lastBucketId := 0
    size := 0 }

/-- The constructor. -/
def new (maxQueueSize maxBucketSize : ℕ) : EntriesQueue α :=
  clear ⟨[], 0, 0, 0, maxQueueSize, maxBucketSize⟩

/-- Set the offset of the first bucket, and count the entries that are gone. -/
def setOffset (q : EntriesQueue α) (bucketId : ℕ) (offset : ℤ) : EntriesQueue α :=
  { q.setBucket bucketId { q.bucket bucketId with offset := offset } with
    size := q.size - (offset - (q.bucket bucketId).offset) }

/-- Drop the oldest entry if there are too many, and tell whether there were. -/
def checkSize (q : EntriesQueue α) : EntriesQueue α × Bool :=
  if q.size ≤ q.maxQueueSize then (q, false)
  else
    let offset := (q.bucket q.firstBucketId).offset + 1
    let q := q.setOffset q.firstBucketId offset
    if q.maxBucketSize ≤ offset then
      ({ q.eraseBucket q.firstBucketId with
          firstBucketId := q.nextBucketId q.firstBucketId }, true)
    else
      (q, true)

/-- The part of `push` before the size is checked. -/
def append (q : EntriesQueue α) (entry : α) : EntriesQueue α :=
  let entries := (q.bucket q.lastBucketId).entries ++ [entry]
  let appended := q.setBucket q.lastBucketId { q.bucket q.lastBucketId with entries := entries }
  let q :=
    if entries.length = q.maxBucketSize then
      { appended.createBucket (q.nextBucketId q.lastBucketId) with
        lastBucketId := q.nextBucketId q.lastBucketId }
    else appended
  { q with size := q.size + 1 }

/-- An entry is appended, and the oldest one is dropped if there are too many. -/
def push (q : EntriesQueue α) (entry : α) : EntriesQueue α × Bool :=
  (q.append entry).checkSize

/-- The number of entries from this one on. -/
def sizeFrom (q : EntriesQueue α) (fromEntryId : EntryId) : ℤ :=
  if fromEntryId < q.getFrontEntryId then q.getBackEntryId - fromEntryId
  else q.size - (fromEntryId - q.getFrontEntryId)

/-- The loop of `copyEntries`.  It compares the number of entries with an unsigned number, so
it does not end with a negative `amount`. -/
def copyEntries (q : EntriesQueue α) (amount : ℤ) :
    ℕ → ℕ → ℤ → ℤ → List α → Option (List α)
  | 0, _, _, _, _ => none
  | fuel + 1, bucketId, offset, toFetch, entries =>
      if 0 ≤ amount ∧ amount ≤ entries.length then some entries
      else
        let stored := (q.bucket bucketId).entries
        let bucketAmount := min (offset + toFetch) stored.length
        copyEntries q amount fuel (q.nextBucketId bucketId) 0
          (toFetch - (bucketAmount - offset))
          (entries ++ (stored.take bucketAmount.toNat).drop offset.toNat)

/-- The entries are added to those given. -/
def fetch (fuel : ℕ) (q : EntriesQueue α) (fromEntryId : EntryId) (amount : ℤ)
    (entries : List α) : Option (EntryId × List α) :=
  if q.sizeFrom fromEntryId < amount then some (-1, entries)
  else
    (q.copyEntries amount fuel (q.countBucketId fromEntryId).toNat
      (q.countBucketOffset fromEntryId) amount entries).map fun entries =>
        ((fromEntryId + amount) % (q.entries.length * q.maxBucketSize), entries)

/-- The loop of `removeEntries`. -/
def eraseBuckets (endBucketId : ℤ) :
    ℕ → EntriesQueue α → ℕ → Option (EntriesQueue α × ℕ)
  | 0, _, _ => none
  | fuel + 1, q, bucketId =>
      if (bucketId : ℤ) = endBucketId then some (q, bucketId)
      else eraseBuckets endBucketId fuel (q.eraseBucket bucketId) (q.nextBucketId bucketId)

/-- Everything before the given place is removed. -/
def removeEntries (fuel : ℕ) (q : EntriesQueue α) (endBucketId endOffset : ℤ) :
    Option (EntriesQueue α) :=
  (eraseBuckets endBucketId fuel q q.firstBucketId).map fun (q, bucketId) =>
    { q.setOffset bucketId endOffset with firstBucketId := bucketId }

/-- The entries before this one are removed. -/
def popUntil (fuel : ℕ) (q : EntriesQueue α) (entryId : EntryId) : Option (EntriesQueue α) :=
  removeEntries fuel q (q.countBucketId entryId) (q.countBucketOffset entryId)

end EntriesQueue

end Cynara
