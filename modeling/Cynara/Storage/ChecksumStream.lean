import Cynara.Storage.Database

/-!
# Writing a file and its checksum

The serializer writes to two streams at once: to the file, and to a buffer from which the checksum
is made when the file is closed.  Before it writes a policy type it changes the flags of both
streams, and afterwards it restores those of the file only.

The flags are set again before every number, and a number is the only thing they matter for.  So
the two texts are the same, and the checksums that are written are those of the files.  The record
of a bucket is written when its stream is destroyed, and the record of the index, whose stream is
destroyed last, comes after them.
-/

open Std

namespace Cynara

open InMemoryStorageBackend Str StoragePath StorageSerializer

/-! ### Streams -/

/-- The flags of a stream that the serializer sets. -/
structure FormatFlags where
  hex : Bool := false
  uppercase : Bool := false

/-- A stream: what has been written to it, and how numbers are written. -/
structure OStream where
  text : Str := []
  flags : FormatFlags := {}

namespace OStream

/-- A text is written as it is. -/
def put (text : Str) (o : OStream) : OStream := { o with text := o.text ++ text }

/-- Numbers are written in base 16 from now on. -/
def setHex (o : OStream) : OStream := { o with flags := { o.flags with hex := true } }

/-- Letters in numbers are upper case from now on. -/
def setUppercase (o : OStream) : OStream := { o with flags := { o.flags with uppercase := true } }

def lowerCase (c : UInt8) : UInt8 := if 65 ≤ c ∧ c ≤ 90 then c + 32 else c

/-- A number is written as the flags say. -/
def putNumber (n : ℕ) (o : OStream) : OStream :=
  o.put <|
    if o.flags.hex then
      if o.flags.uppercase then numeral 16 n else (numeral 16 n).map lowerCase
    else decimal n

end OStream

/-- What is written goes to the file, and to the buffer for the checksum. -/
structure ChecksumStream where
  filename : Str
  outStream : OStream := {}
  bufStream : OStream := {}

namespace ChecksumStream

/-- The operator `<<`, with whatever a stream accepts. -/
def write (item : OStream → OStream) (c : ChecksumStream) : ChecksumStream :=
  { c with outStream := item c.outStream, bufStream := item c.bufStream }

/-- Only the flags of the file are set. -/
def setFlags (flags : FormatFlags) (c : ChecksumStream) : ChecksumStream :=
  { c with outStream := { c.outStream with flags := flags } }

/-- The record that is written to the checksum file when the stream is destroyed. -/
def save (digest : Str → Vector UInt8 16) (c : ChecksumStream) : Str :=
  ChecksumValidator.dumpRecord digest (c.filename, c.bufStream.text) ++ [recordSeparator]

/-- The file with what has been written to it. -/
def file (c : ChecksumStream) : Str × Str := (c.filename, c.outStream.text)

/-- What is written is appended to both texts. -/
def Appends (f : ChecksumStream → ChecksumStream) (text : Str) : Prop :=
  ∀ c, (f c).filename = c.filename ∧ (f c).outStream.text = c.outStream.text ++ text
    ∧ (f c).bufStream.text = c.bufStream.text ++ text

theorem appends_put (text : Str) :
  Appends (write (OStream.put text)) text
  := fun _ => ⟨rfl, rfl, rfl⟩

theorem Appends.comp {f g : ChecksumStream → ChecksumStream} {text text' : Str}
    (hg : Appends g text') (hf : Appends f text) :
  Appends (fun c => g (f c)) (text ++ text')
  := by
  intro c
  obtain ⟨hname, hout, hbuf⟩ := hf c
  obtain ⟨hname', hout', hbuf'⟩ := hg (f c)
  rw [hname', hout', hbuf', hname, hout, hbuf, List.append_assoc, List.append_assoc]
  exact ⟨rfl, rfl, rfl⟩

theorem Appends.foldl {α : Type} {f : ChecksumStream → α → ChecksumStream} {text : α → Str}
    (hf : ∀ a, Appends (fun c => f c a) (text a)) (as : List α) :
  Appends (fun c => as.foldl f c) (as.flatMap text)
  := by
  induction as with
  | nil => exact fun c => ⟨rfl, by simp, by simp⟩
  | cons a as ih => exact ih.comp (hf a)

end ChecksumStream

/-! ### The serializer -/

namespace StorageSerializer

open ChecksumStream

/-- The fields of the records. -/
inductive Field where
  | text (text : Str)
  | policyType (policyType : PolicyType)

/-- A field is written, and the format of numbers is restored. -/
def dumpField : Field → ChecksumStream → ChecksumStream
  | .text text, c => c.write (OStream.put text)
  | .policyType policyType, c =>
      let oldFormat := c.outStream.flags
      let c := c.write (OStream.put (ofString "0x"))
      let c := c.write OStream.setUppercase
      let c := c.write OStream.setHex
      let c := c.write (OStream.putNumber policyType.toNat)
      c.setFlags oldFormat

/-- The fields of a record, with separators. -/
def dumpFields : List Field → ChecksumStream → ChecksumStream
  | [], c => c.write (OStream.put [recordSeparator])
  | field :: fields, c =>
      let c := dumpField field c
      let c := if fields.length > 0 then c.write (OStream.put [fieldSeparator]) else c
      dumpFields fields c

/-- The record of a bucket in the index. -/
def dumpBucketFields (b : PolicyBucket) : ChecksumStream → ChecksumStream :=
  dumpFields [.text b.id, .policyType b.defaultPolicy.policyType, .text b.defaultPolicy.metadata]

/-- The record of a policy in its bucket. -/
def dumpPolicyFields (p : Policy) : ChecksumStream → ChecksumStream :=
  dumpFields [.text p.key.client, .text p.key.user, .text p.key.privilege,
    .policyType p.result.policyType, .text p.result.metadata]

theorem appends_dumpField (field : Field) :
  Appends (dumpField field)
    (match field with | .text text => text | .policyType policyType => dumpType policyType)
  := by
  cases field with
  | text text => exact appends_put text
  | policyType policyType =>
      intro c
      simp [dumpField, dumpType, ChecksumStream.write, ChecksumStream.setFlags, OStream.put,
        OStream.setUppercase, OStream.setHex, OStream.putNumber]

theorem appends_dumpFields_cons {field next : Field} {fields : List Field} {text text' : Str}
    (hfield : Appends (dumpField field) text)
    (hfields : Appends (dumpFields (next :: fields)) text') :
  Appends (dumpFields (field :: next :: fields)) (text ++ fieldSeparator :: text')
  := by
  have hseparated := hfields.comp ((appends_put [fieldSeparator]).comp hfield)
  rwa [List.append_assoc] at hseparated

theorem appends_dumpFields_singleton {field : Field} {text : Str}
    (hfield : Appends (dumpField field) text) :
  Appends (dumpFields [field]) (text ++ [recordSeparator])
  := (appends_put [recordSeparator]).comp hfield

theorem appends_dumpBucketFields (b : PolicyBucket) :
  Appends (dumpBucketFields b) (dumpIndexRecord b ++ [recordSeparator])
  := by
  have hfields := appends_dumpFields_cons (appends_dumpField (.text b.id))
    (appends_dumpFields_cons (appends_dumpField (.policyType b.defaultPolicy.policyType))
      (appends_dumpFields_singleton (appends_dumpField (.text b.defaultPolicy.metadata))))
  simpa [dumpBucketFields, dumpIndexRecord, dumpResult] using hfields

theorem appends_dumpPolicyFields (p : Policy) :
  Appends (dumpPolicyFields p) (dumpPolicy p ++ [recordSeparator])
  := by
  have hfields := appends_dumpFields_cons (appends_dumpField (.text p.key.client))
    (appends_dumpFields_cons (appends_dumpField (.text p.key.user))
      (appends_dumpFields_cons (appends_dumpField (.text p.key.privilege))
        (appends_dumpFields_cons (appends_dumpField (.policyType p.result.policyType))
          (appends_dumpFields_singleton (appends_dumpField (.text p.result.metadata))))))
  simpa [dumpPolicyFields, dumpPolicy, dumpResult] using hfields

end StorageSerializer

/-! ### The database -/

namespace InMemoryStorageBackend

variable (digest : Str → Vector UInt8 16)

/-- The stream of the index, with the records of all buckets. -/
def indexStream (order : DumpOrder) (s : Buckets) : ChecksumStream :=
  (order.buckets.entries s.map).foldl (fun c e => dumpBucketFields e.2 c)
    { filename := indexFilename }

/-- The stream of a bucket, with the records of its policies. -/
def bucketStream (order : DumpOrder) (e : PolicyBucketId × PolicyBucket) : ChecksumStream :=
  (Storage.listing (order.policies e.1) e.2).foldl (fun c p => dumpPolicyFields p c)
    { filename := bucketFilename e.1 }

/-- The files that are written, by their plain names, and the text of the checksum file. -/
def dumpDatabase (order : DumpOrder) (s : Buckets) : List (Str × Str) × Str :=
  let indexStream := indexStream order s
  let (files, checksums) :=
    (order.buckets.entries s.map).foldl
      (fun (files, checksums) e =>
        let bucketStream := bucketStream order e
        (files ++ [bucketStream.file], checksums ++ bucketStream.save digest))
      ([], [])
  (files ++ [indexStream.file], checksums ++ indexStream.save digest)

theorem indexStream_eq (order : DumpOrder) (s : Buckets) :
  (indexStream order s).file = (indexFilename, dumpIndex order.buckets s)
    ∧ (indexStream order s).save digest
      = ChecksumValidator.dumpRecord digest (indexFilename, dumpIndex order.buckets s)
        ++ [recordSeparator]
  := by
  obtain ⟨hname, hout, hbuf⟩ := ChecksumStream.Appends.foldl
    (fun e : PolicyBucketId × PolicyBucket => appends_dumpBucketFields e.2)
    (order.buckets.entries s.map) { filename := indexFilename }
  rw [ChecksumStream.file, ChecksumStream.save, indexStream, hname, hout, hbuf]
  exact ⟨rfl, rfl⟩

/-- The file of a bucket and its checksum are those of the text that is dumped. -/
theorem bucketStream_eq (order : DumpOrder) (e : PolicyBucketId × PolicyBucket) :
  (bucketStream order e).file = (bucketFilename e.1, dumpBucket (order.policies e.1) e.2)
    ∧ (bucketStream order e).save digest
      = ChecksumValidator.dumpRecord digest
          (bucketFilename e.1, dumpBucket (order.policies e.1) e.2) ++ [recordSeparator]
  := by
  obtain ⟨hname, hout, hbuf⟩ := ChecksumStream.Appends.foldl appends_dumpPolicyFields
    (Storage.listing (order.policies e.1) e.2) { filename := bucketFilename e.1 }
  rw [ChecksumStream.file, ChecksumStream.save, bucketStream, hname, hout, hbuf]
  exact ⟨rfl, rfl⟩

/-- The files are those of the database, and the checksum file has their checksums. -/
theorem dumpDatabase_eq (order : DumpOrder) (s : Buckets) :
  dumpDatabase digest order s
    = (bucketFiles order s ++ [(indexFilename, dumpIndex order.buckets s)],
        dumpChecksums digest order s)
  := by
  have hbuckets : ∀ (entries : List (PolicyBucketId × PolicyBucket)) files checksums,
      entries.foldl
          (fun (written : List (Str × Str) × Str) e =>
            (written.1 ++ [(bucketStream order e).file],
              written.2 ++ (bucketStream order e).save digest)) (files, checksums)
        = (files ++ entries.map fun e => (bucketStream order e).file,
            checksums ++ entries.flatMap fun e => (bucketStream order e).save digest) := by
    intro entries
    induction entries with
    | nil => simp
    | cons e entries ih => simp [ih]
  have hwritten := hbuckets (order.buckets.entries s.map) [] []
  simp only [bucketStream_eq digest order, List.nil_append] at hwritten
  simp only [dumpDatabase, indexStream_eq digest order, bucketStream_eq digest order, hwritten]
  simp [bucketFiles, dumpChecksums, List.flatMap_map]

end InMemoryStorageBackend

end Cynara
