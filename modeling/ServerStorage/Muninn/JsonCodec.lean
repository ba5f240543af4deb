/-
# `ServerStorage.Muninn.JsonCodec` — snapshots and deltas as JSON

The JSON half of `domain/serialization/serialization.cpp`.  An object is written with
its keys in the order of the source; the library keeps them sorted, and only the value of
a key is ever asked for.
-/
import ServerStorage.Lib.Json
import ServerStorage.Muninn.Serialization

namespace ServerStorage.Muninn.Serialization

open Lib

abbrev Decoder := Except SerializationError

/-! ## Numbers -/

/-- An integral type: `static_cast` to it, its range, and the JSON number it becomes. -/
class Integral (T : Type) where
  isUnsigned : Bool
  cast : Int → T
  toInt : T → Int
  toJson : T → Json
  least : Int
  most : Int

instance : Integral UInt16 where
  isUnsigned := true
  cast := UInt16.ofInt
  toInt v := v.toNat
  toJson v := .numberUnsigned v.toUInt64
  least := 0
  most := 2 ^ 16 - 1

instance : Integral UInt32 where
  isUnsigned := true
  cast := UInt32.ofInt
  toInt v := v.toNat
  toJson v := .numberUnsigned v.toUInt64
  least := 0
  most := 2 ^ 32 - 1

instance : Integral UInt64 where
  isUnsigned := true
  cast := UInt64.ofInt
  toInt v := v.toNat
  toJson v := .numberUnsigned v
  least := 0
  most := 2 ^ 64 - 1

instance : Integral Int64 where
  isUnsigned := false
  cast := Int64.ofInt
  toInt := Int64.toInt
  toJson v := .numberInteger v
  least := -2 ^ 63
  most := 2 ^ 63 - 1

def missingField (key : String) : SerializationError :=
  { code := .jsonFieldMissing, message := "Missing JSON field: " ++ key }

def wrongType (key : String) : SerializationError :=
  { code := .jsonTypeMismatch, message := "Field has wrong type: " ++ key }

def extractRequiredNumeric (T : Type) [Integral T] (object : Json) (key : String) : Decoder T :=
  match object.find (str key) with
  | none => .error (missingField key)
  | some field =>
      if Integral.isUnsigned T then
        if !field.isNumberUnsigned then .error (wrongType key)
        else .ok (Integral.cast field.integer)
      else
        if !field.isNumberInteger then .error (wrongType key)
        else .ok (Integral.cast field.integer)

def extractRequiredString (object : Json) (key : String) : Decoder Str :=
  match object.find (str key) with
  | none => .error (missingField key)
  | some (.string value) => .ok value
  | some _ => .error (wrongType key)

/-! ## To JSON -/

def entryTypeToString (type : EntryType) : Str :=
  if type = .file then str "file"
  else if type = .directory then str "directory"
  else if type = .symlink then str "symlink"
  else str "special"

def metadataToJson (metadata : FileMetadata) : Json :=
  .object <|
    [(str "size_bytes", Integral.toJson metadata.sizeBytes),
      (str "created_at", Integral.toJson metadata.createdAt),
      (str "modified_at", Integral.toJson metadata.modifiedAt),
      (str "accessed_at", Integral.toJson metadata.accessedAt),
      (str "permissions", Integral.toJson metadata.permissions),
      (str "file_id", Integral.toJson metadata.fileId),
      (str "device_id", Integral.toJson metadata.deviceId)] ++
    match metadata.contentHash with
    | some hash => [(str "content_hash", Integral.toJson hash)]
    | none => []

def entryToJson (entry : FileEntry) : Json :=
  .object
    [(str "id", Integral.toJson entry.id),
      (str "parent_id", Integral.toJson entry.parentId),
      (str "path", .string entry.normalizedPath),
      (str "name", .string entry.name),
      (str "type", .string (entryTypeToString entry.type)),
      (str "metadata", metadataToJson entry.metadata)]

def schemaToJson (schema : SchemaHeader) : Json :=
  .object
    [(str "major", Integral.toJson schema.major),
      (str "minor", Integral.toJson schema.minor),
      (str "patch", Integral.toJson schema.patch),
      (str "min_reader_major", Integral.toJson schema.minReaderMajor)]

def containerVersionJson : Json :=
  .object
    [(str "major", Integral.toJson kBinaryFormatMajor),
      (str "minor", Integral.toJson kBinaryFormatMinor)]

def modifiedToJson (modified : ModifiedEntry) : Json :=
  .object
    [(str "entry_id", Integral.toJson modified.entryId),
      (str "before", metadataToJson modified.before),
      (str "after", metadataToJson modified.after)]

def renamedToJson (renamed : RenamedEntry) : Json :=
  .object
    [(str "before_entry_id", Integral.toJson renamed.beforeEntryId),
      (str "after_entry_id", Integral.toJson renamed.afterEntryId),
      (str "old_path", .string renamed.oldPath),
      (str "new_path", .string renamed.newPath)]

def snapshotToJson (snapshot : Snapshot) : Json :=
  .object
    [(str "container_version", containerVersionJson),
      (str "schema", schemaToJson snapshot.schema),
      (str "snapshot_id", Integral.toJson snapshot.snapshotId),
      (str "created_at", Integral.toJson snapshot.createdAt),
      (str "host_identifier", .string snapshot.hostIdentifier),
      (str "root_entry_id", Integral.toJson snapshot.rootEntryId),
      (str "entries", .array (snapshot.entries.map entryToJson))]

def deltaToJson (delta : DeltaSnapshot) : Json :=
  .object
    [(str "container_version", containerVersionJson),
      (str "schema", schemaToJson delta.schema),
      (str "base_snapshot_id", Integral.toJson delta.baseSnapshotId),
      (str "target_snapshot_id", Integral.toJson delta.targetSnapshotId),
      (str "added", .array (delta.addedEntries.map entryToJson)),
      (str "removed", .array (delta.removedEntries.map entryToJson)),
      (str "modified", .array (delta.modifiedEntries.map modifiedToJson)),
      (str "renamed", .array (delta.renamedEntries.map renamedToJson))]

/-! ## From JSON -/

def parseEntryType (value : Str) : Option EntryType :=
  if value = str "file" then some .file
  else if value = str "directory" then some .directory
  else if value = str "symlink" then some .symlink
  else if value = str "special" then some .special
  else none

/-- The hash may be absent. -/
def contentHashFromJson (json : Json) : Decoder (Option UInt64) :=
  match json.find (str "content_hash") with
  | none => .ok none
  | some field =>
      if !field.isNumberUnsigned then .error (wrongType "content_hash")
      else .ok (some (Integral.cast field.integer))

def metadataFromJson (json : Json) : Decoder FileMetadata := do
  let sizeBytes ← extractRequiredNumeric UInt64 json "size_bytes"
  let createdAt ← extractRequiredNumeric Int64 json "created_at"
  let modifiedAt ← extractRequiredNumeric Int64 json "modified_at"
  let accessedAt ← extractRequiredNumeric Int64 json "accessed_at"
  let permissions ← extractRequiredNumeric UInt32 json "permissions"
  let fileId ← extractRequiredNumeric UInt64 json "file_id"
  let deviceId ← extractRequiredNumeric UInt64 json "device_id"
  let contentHash ← contentHashFromJson json
  return { sizeBytes, createdAt, modifiedAt, accessedAt, permissions, fileId, deviceId
           contentHash }

/-- A field that has to be an object. -/
def objectField (json : Json) (key : String) (message : String) : Decoder Json :=
  match json.find (str key) with
  | some field =>
      if field.isObject then .ok field
      else .error { code := .jsonFieldMissing, message := message }
  | none => .error { code := .jsonFieldMissing, message := message }

def entryFromJson (json : Json) : Decoder FileEntry := do
  let id ← extractRequiredNumeric UInt64 json "id"
  let parentId ← extractRequiredNumeric UInt64 json "parent_id"
  let normalizedPath ← extractRequiredString json "path"
  let name ← extractRequiredString json "name"
  let typeString ← extractRequiredString json "type"
  match parseEntryType typeString with
  | none => throw { code := .invalidValue, message := "Invalid entry type value." }
  | some type => do
      let field ← objectField json "metadata" "Missing or invalid JSON field: metadata"
      let metadata ← metadataFromJson field
      return { id, parentId, normalizedPath, name, type, metadata }

def schemaFromJson (json : Json) : Decoder SchemaHeader := do
  let major ← extractRequiredNumeric UInt16 json "major"
  let minor ← extractRequiredNumeric UInt16 json "minor"
  let patch ← extractRequiredNumeric UInt16 json "patch"
  let minReaderMajor ← extractRequiredNumeric UInt16 json "min_reader_major"
  return { major, minor, patch, minReaderMajor }

def validateContainerVersion (object : Json) : Decoder Unit :=
  match object.find (str "container_version") with
  | none => .ok ()
  | some container =>
      if !container.isObject then
        .error { code := .jsonTypeMismatch, message := "container_version must be an object." }
      else do
        let major ← extractRequiredNumeric UInt16 container "major"
        let minor ← extractRequiredNumeric UInt16 container "minor"
        if major ≠ kBinaryFormatMajor ∨ minor ≠ kBinaryFormatMinor then
          throw { code := .unsupportedFormatVersion, message := "Unsupported container version." }

/-- The loop over the items of an array; the first failure ends it. -/
def decodeAll {α : Type} (decode : Json → Decoder α) : List Json → Decoder (List α)
  | [] => .ok []
  | item :: rest => do
      let a ← decode item
      let tail ← decodeAll decode rest
      return a :: tail

/-- An item that has to be an object. -/
def requireObject {α : Type} (message : String) (decode : Json → Decoder α) (item : Json) :
    Decoder α :=
  if !item.isObject then .error { code := .jsonTypeMismatch, message := message }
  else decode item

def arrayField (json : Json) (key : String) (message : String) : Decoder (List Json) :=
  match json.find (str key) with
  | some (.array items) => .ok items
  | _ => .error { code := .jsonFieldMissing, message := message }

def requiredArrayField (json : Json) (key : String) : Decoder (List Json) :=
  arrayField json key ("Missing array field: " ++ key)

def snapshotFromJson (json : Json) : Decoder Snapshot :=
  requireObject "Snapshot JSON must be an object." (fun json => do
    validateContainerVersion json
    let schemaField ← objectField json "schema" "Missing or invalid schema object."
    let schema ← schemaFromJson schemaField
    let snapshotId ← extractRequiredNumeric UInt64 json "snapshot_id"
    let createdAt ← extractRequiredNumeric Int64 json "created_at"
    let hostIdentifier ← extractRequiredString json "host_identifier"
    let rootEntryId ← extractRequiredNumeric UInt64 json "root_entry_id"
    let items ← arrayField json "entries" "Missing entries array."
    if kMaxBinaryEntries < items.length then
      throw { code := .entryCountTooLarge
              message := "Snapshot JSON entries exceed supported limit." }
    let entries ← decodeAll (requireObject "Snapshot entry must be an object." entryFromJson) items
    return { schema, snapshotId, createdAt, hostIdentifier, rootEntryId, entries }) json

def modifiedFromJson (json : Json) : Decoder ModifiedEntry := do
  let message := "Delta modified item must contain before and after metadata objects."
  let entryId ← extractRequiredNumeric UInt64 json "entry_id"
  let beforeField ← objectField json "before" message
  let afterField ← objectField json "after" message
  let before ← metadataFromJson beforeField
  let after ← metadataFromJson afterField
  return { entryId, before, after }

def renamedFromJson (json : Json) : Decoder RenamedEntry := do
  let beforeEntryId ← extractRequiredNumeric UInt64 json "before_entry_id"
  let afterEntryId ← extractRequiredNumeric UInt64 json "after_entry_id"
  let oldPath ← extractRequiredString json "old_path"
  let newPath ← extractRequiredString json "new_path"
  return { beforeEntryId, afterEntryId, oldPath, newPath }

def deltaFromJson (json : Json) : Decoder DeltaSnapshot :=
  requireObject "Delta JSON must be an object." (fun json => do
    validateContainerVersion json
    let schemaField ← objectField json "schema" "Missing or invalid schema object."
    let schema ← schemaFromJson schemaField
    let baseSnapshotId ← extractRequiredNumeric UInt64 json "base_snapshot_id"
    let targetSnapshotId ← extractRequiredNumeric UInt64 json "target_snapshot_id"
    let added ← requiredArrayField json "added"
    let removed ← requiredArrayField json "removed"
    let modified ← requiredArrayField json "modified"
    let renamed ← requiredArrayField json "renamed"
    let addedEntries ← decodeAll entryFromJson added
    let removedEntries ← decodeAll entryFromJson removed
    let modifiedEntries ← decodeAll
      (requireObject "Delta modified item must be an object." modifiedFromJson) modified
    let renamedEntries ← decodeAll
      (requireObject "Delta renamed item must be an object." renamedFromJson) renamed
    return { schema, baseSnapshotId, targetSnapshotId, addedEntries, removedEntries
             modifiedEntries, renamedEntries }) json

end ServerStorage.Muninn.Serialization
