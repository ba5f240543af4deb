/-
# `ServerStorage.Muninn.Serialization` — the binary codec

`domain/serialization/serialization.cpp` and its `BinaryWriter` and
`BinaryReader`.  The streams are string streams, which do not fail on writing;
what can fail is a string or a list beyond its limit.  A reader is a computation
over the bytes still to be read; the first error ends it.
-/
import ServerStorage.Muninn.Model
import ServerStorage.Lib.Words

namespace ServerStorage.Muninn

open Lib

inductive SerializationErrorCode where
  | none | ioFailure | invalidMagic | unsupportedFormatVersion | payloadTruncated
  | payloadOverflow | invalidValue | stringTooLarge | entryCountTooLarge | jsonFieldMissing
  | jsonTypeMismatch
  deriving DecidableEq, Repr

/-- The number of the code, as it is printed. -/
def SerializationErrorCode.number : SerializationErrorCode → Nat
  | none => 0
  | ioFailure => 1
  | invalidMagic => 2
  | unsupportedFormatVersion => 3
  | payloadTruncated => 4
  | payloadOverflow => 5
  | invalidValue => 6
  | stringTooLarge => 7
  | entryCountTooLarge => 8
  | jsonFieldMissing => 9
  | jsonTypeMismatch => 10

/-- A `SerializationResult` that is not ok. -/
structure SerializationError where
  code : SerializationErrorCode
  message : String
  deriving DecidableEq, Repr

namespace Serialization

def kSnapshotMagic : UInt32 := 0x48534E50
def kDeltaMagic : UInt32 := 0x48444C54
def kBinaryFormatMajor : UInt16 := 1
def kBinaryFormatMinor : UInt16 := 0
def kMaxBinaryEntries : Nat := 5000000
def kMaxStringLength : Nat := 4 * 1024 * 1024

/-! ## Writing -/

abbrev Writer := Except SerializationError Str

def writeString (value : Str) : Writer :=
  if kMaxStringLength < value.length then
    .error { code := .stringTooLarge, message := "String length exceeds serialization limit." }
  else .ok (encodeU32Le value.length.toUInt32 ++ value)

def writeI64 (value : Int64) : Str := encodeU64Le value.toUInt64

def writeSchema (schema : SchemaHeader) : Str :=
  encodeU16Le schema.major ++ encodeU16Le schema.minor ++ encodeU16Le schema.patch ++
    encodeU16Le schema.minReaderMajor

def writeMetadata (metadata : FileMetadata) : Str :=
  encodeU64Le metadata.sizeBytes ++ writeI64 metadata.createdAt ++ writeI64 metadata.modifiedAt ++
    writeI64 metadata.accessedAt ++ encodeU32Le metadata.permissions ++
    encodeU64Le metadata.fileId ++ encodeU64Le metadata.deviceId ++
    match metadata.contentHash with
    | some hash => 1 :: encodeU64Le hash
    | none => [0]

def writeEntry (entry : FileEntry) : Writer := do
  let path ← writeString entry.normalizedPath
  let name ← writeString entry.name
  return encodeU64Le entry.id ++ encodeU64Le entry.parentId ++ path ++ name ++
    [entry.type.value] ++ writeMetadata entry.metadata

def writeModified (modified : ModifiedEntry) : Str :=
  encodeU64Le modified.entryId ++ writeMetadata modified.before ++ writeMetadata modified.after

def writeRenamed (renamed : RenamedEntry) : Writer := do
  let oldPath ← writeString renamed.oldPath
  let newPath ← writeString renamed.newPath
  return encodeU64Le renamed.beforeEntryId ++ encodeU64Le renamed.afterEntryId ++ oldPath ++
    newPath

def writeBinaryHeader (magic : UInt32) : Str :=
  encodeU32Le magic ++ encodeU16Le kBinaryFormatMajor ++ encodeU16Le kBinaryFormatMinor

/-- One writer after the other; the first failure ends the list. -/
def writeAll {α : Type} (write : α → Writer) : List α → Writer
  | [] => .ok []
  | a :: rest => do
      let head ← write a
      let tail ← writeAll write rest
      return head ++ tail

def serializeSnapshotBinary (snapshot : Snapshot) : Writer := do
  let host ← writeString snapshot.hostIdentifier
  let header := writeBinaryHeader kSnapshotMagic ++ writeSchema snapshot.schema ++
    encodeU64Le snapshot.snapshotId ++ writeI64 snapshot.createdAt ++ host ++
    encodeU64Le snapshot.rootEntryId
  if kMaxBinaryEntries < snapshot.entries.length then
    throw { code := .entryCountTooLarge
            message := "Snapshot entry count exceeds serialization limit." }
  let entries ← writeAll writeEntry snapshot.entries
  return header ++ encodeU32Le snapshot.entries.length.toUInt32 ++ entries

def serializeDeltaBinary (delta : DeltaSnapshot) : Writer := do
  let header := writeBinaryHeader kDeltaMagic ++ writeSchema delta.schema ++
    encodeU64Le delta.baseSnapshotId ++ encodeU64Le delta.targetSnapshotId
  if kMaxBinaryEntries < delta.addedEntries.length ||
      kMaxBinaryEntries < delta.removedEntries.length ||
      kMaxBinaryEntries < delta.modifiedEntries.length ||
      kMaxBinaryEntries < delta.renamedEntries.length then
    throw { code := .entryCountTooLarge
            message := "Delta operation count exceeds serialization limit." }
  let added ← writeAll writeEntry delta.addedEntries
  let removed ← writeAll writeEntry delta.removedEntries
  let renamed ← writeAll writeRenamed delta.renamedEntries
  return header ++ encodeU32Le delta.addedEntries.length.toUInt32 ++
    encodeU32Le delta.removedEntries.length.toUInt32 ++
    encodeU32Le delta.modifiedEntries.length.toUInt32 ++
    encodeU32Le delta.renamedEntries.length.toUInt32 ++ added ++ removed ++
    delta.modifiedEntries.flatMap writeModified ++ renamed

/-! ## Reading -/

abbrev Reader (α : Type) := StateT Str (Except SerializationError) α

def readBytes (size : Nat) : Reader Str := fun rest =>
  if rest.length < size then
    .error { code := .payloadTruncated
             message := "Binary payload ended before expected bytes were read." }
  else .ok (rest.take size, rest.drop size)

def readU8 : Reader UInt8 := do return (← readBytes 1).headD 0
def readU16 : Reader UInt16 := do return decodeU16Le (← readBytes 2)
def readU32 : Reader UInt32 := do return decodeU32Le (← readBytes 4)
def readU64 : Reader UInt64 := do return decodeU64Le (← readBytes 8)
def readI64 : Reader Int64 := do return (← readU64).toInt64

def readString : Reader Str := do
  let length ← readU32
  if kMaxStringLength < length.toNat then
    throw { code := .stringTooLarge, message := "Serialized string length exceeds limit." }
  readBytes length.toNat

def readSchema : Reader SchemaHeader := do
  return { major := ← readU16, minor := ← readU16, patch := ← readU16
           minReaderMajor := ← readU16 }

def readMetadata : Reader FileMetadata := do
  let sizeBytes ← readU64
  let createdAt ← readI64
  let modifiedAt ← readI64
  let accessedAt ← readI64
  let permissions ← readU32
  let fileId ← readU64
  let deviceId ← readU64
  let hasHash ← readU8
  let contentHash ← if hasHash ≠ 0 then some <$> readU64 else pure none
  return { sizeBytes, createdAt, modifiedAt, accessedAt, permissions, fileId, deviceId
           contentHash }

def readEntry : Reader FileEntry := do
  let id ← readU64
  let parentId ← readU64
  let normalizedPath ← readString
  let name ← readString
  let rawType ← readU8
  let metadata ← readMetadata
  return { id, parentId, normalizedPath, name, type := ⟨rawType⟩, metadata }

def readModified : Reader ModifiedEntry := do
  return { entryId := ← readU64, before := ← readMetadata, after := ← readMetadata }

def readRenamed : Reader RenamedEntry := do
  return { beforeEntryId := ← readU64, afterEntryId := ← readU64, oldPath := ← readString
           newPath := ← readString }

/-- The loop over `count` elements. -/
def readMany {α : Type} (read : Reader α) : Nat → Reader (List α)
  | 0 => return []
  | count + 1 => do
      let a ← read
      let rest ← readMany read count
      return a :: rest

/-- Whether the header is the expected one; `false` also when it is cut short. -/
def readBinaryHeader (expectedMagic : UInt32) (input : Str) : Option Str :=
  let header : Reader Bool := do
    let magic ← readU32
    let formatMajor ← readU16
    let formatMinor ← readU16
    return magic == expectedMagic && formatMajor == kBinaryFormatMajor &&
      formatMinor == kBinaryFormatMinor
  match header.run input with
  | .ok (true, rest) => some rest
  | .ok (false, _) | .error _ => none

def snapshotBody : Reader Snapshot := do
  let schema ← readSchema
  let snapshotId ← readU64
  let createdAt ← readI64
  let hostIdentifier ← readString
  let rootEntryId ← readU64
  let entryCount ← readU32
  if kMaxBinaryEntries < entryCount.toNat then
    throw { code := .entryCountTooLarge
            message := "Serialized snapshot entry count is above limit." }
  let entries ← readMany readEntry entryCount.toNat
  return { schema, snapshotId, createdAt, hostIdentifier, rootEntryId, entries }

def deltaBody : Reader DeltaSnapshot := do
  let schema ← readSchema
  let baseSnapshotId ← readU64
  let targetSnapshotId ← readU64
  let addedCount ← readU32
  let removedCount ← readU32
  let modifiedCount ← readU32
  let renamedCount ← readU32
  if kMaxBinaryEntries < addedCount.toNat || kMaxBinaryEntries < removedCount.toNat ||
      kMaxBinaryEntries < modifiedCount.toNat || kMaxBinaryEntries < renamedCount.toNat then
    throw { code := .entryCountTooLarge
            message := "Serialized delta operation count is above limit." }
  let addedEntries ← readMany readEntry addedCount.toNat
  let removedEntries ← readMany readEntry removedCount.toNat
  let modifiedEntries ← readMany readModified modifiedCount.toNat
  let renamedEntries ← readMany readRenamed renamedCount.toNat
  return { schema, baseSnapshotId, targetSnapshotId, addedEntries, removedEntries
           modifiedEntries, renamedEntries }

/-- A header of the given magic, then the body; what follows is not looked at. -/
def deserialize {α : Type} (magic : UInt32) (message : String) (body : Reader α) (input : Str) :
    Except SerializationError α :=
  match readBinaryHeader magic input with
  | none => .error { code := .invalidMagic, message := message }
  | some rest => body.run' rest

def deserializeSnapshotBinary (input : Str) : Except SerializationError Snapshot :=
  deserialize kSnapshotMagic "Invalid snapshot binary header." snapshotBody input

def deserializeDeltaBinary (input : Str) : Except SerializationError DeltaSnapshot :=
  deserialize kDeltaMagic "Invalid delta binary header." deltaBody input

end Serialization

end ServerStorage.Muninn
