/-
# `ServerStorage.Muninn.Model` — the domain records

`domain/model/models.hpp` and `invariants.hpp`.  The integer fields have the
widths of the source.  `EntryType` is an `enum class` over one byte, and the
binary reader casts any byte into it, so it is that byte; the four named values
are the ones the scanner produces.
-/
import ServerStorage.Lib.Path

namespace ServerStorage.Muninn

open Lib

abbrev EntryId := UInt64
abbrev SnapshotId := UInt64
abbrev UnixTimestamp := Int64

structure SchemaHeader where
  major : UInt16 := 1
  minor : UInt16 := 0
  patch : UInt16 := 0
  minReaderMajor : UInt16 := 1
  deriving DecidableEq, Repr

def kCurrentSchemaHeader : SchemaHeader := {}

structure EntryType where
  value : UInt8
  deriving DecidableEq, Repr

def EntryType.file : EntryType := ⟨0⟩
def EntryType.directory : EntryType := ⟨1⟩
def EntryType.symlink : EntryType := ⟨2⟩
def EntryType.special : EntryType := ⟨3⟩

structure FileMetadata where
  sizeBytes : UInt64 := 0
  createdAt : UnixTimestamp := 0
  modifiedAt : UnixTimestamp := 0
  accessedAt : UnixTimestamp := 0
  permissions : UInt32 := 0
  fileId : UInt64 := 0
  deviceId : UInt64 := 0
  contentHash : Option UInt64 := none
  deriving DecidableEq, Repr

structure FileEntry where
  id : EntryId := 0
  parentId : EntryId := 0
  normalizedPath : Str := []
  name : Str := []
  type : EntryType := .file
  metadata : FileMetadata := {}
  deriving DecidableEq, Repr

structure Snapshot where
  schema : SchemaHeader := {}
  snapshotId : SnapshotId := 0
  createdAt : UnixTimestamp := 0
  hostIdentifier : Str := []
  rootEntryId : EntryId := 0
  entries : List FileEntry := []
  deriving DecidableEq, Repr

structure ModifiedEntry where
  entryId : EntryId := 0
  before : FileMetadata := {}
  after : FileMetadata := {}
  deriving DecidableEq, Repr

structure RenamedEntry where
  beforeEntryId : EntryId := 0
  afterEntryId : EntryId := 0
  oldPath : Str := []
  newPath : Str := []
  deriving DecidableEq, Repr

/-- `AddedEntry` and `RemovedEntry` wrap one `FileEntry` each; the lists here
hold the entries themselves. -/
structure DeltaSnapshot where
  schema : SchemaHeader := {}
  baseSnapshotId : SnapshotId := 0
  targetSnapshotId : SnapshotId := 0
  addedEntries : List FileEntry := []
  removedEntries : List FileEntry := []
  modifiedEntries : List ModifiedEntry := []
  renamedEntries : List RenamedEntry := []
  deriving DecidableEq, Repr

/-- `metadata_equals` compares all eight fields. -/
def metadataEquals (lhs rhs : FileMetadata) : Bool :=
  lhs.sizeBytes == rhs.sizeBytes &&
  lhs.createdAt == rhs.createdAt &&
  lhs.modifiedAt == rhs.modifiedAt &&
  lhs.accessedAt == rhs.accessedAt &&
  lhs.permissions == rhs.permissions &&
  lhs.fileId == rhs.fileId &&
  lhs.deviceId == rhs.deviceId &&
  lhs.contentHash == rhs.contentHash

theorem metadataEquals_iff {a b : FileMetadata} : metadataEquals a b = true ↔ a = b := by
  cases a; cases b
  simp only [metadataEquals, Bool.and_eq_true, beq_iff_eq, FileMetadata.mk.injEq]
  tauto

def isValidSchema (schema : SchemaHeader) : Bool :=
  if schema.major == 0 then false
  else if schema.minReaderMajor == 0 then false
  else decide (schema.minReaderMajor ≤ schema.major)

/-! ## Hashing (`utils/hash.hpp`) -/

def kFnvOffsetBasis : UInt64 := 14695981039346656037
def kFnvPrime : UInt64 := 1099511628211

/-- `fnv1a64`; the arithmetic wraps at 64 bits, as in the source. -/
def fnv1a64 (data : Str) : UInt64 :=
  data.foldl (fun hash ch => (hash ^^^ ch.toUInt64) * kFnvPrime) kFnvOffsetBasis

end ServerStorage.Muninn
