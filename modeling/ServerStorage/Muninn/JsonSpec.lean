/-
# `ServerStorage.Muninn.JsonSpec` — JSON there and back, and the numbers read from it

What is written is read back.  What is read carries the number written in the JSON exactly
for the numbers within the range of their field: the decoder looks at the kind of a number
and casts it.
-/
import ServerStorage.Muninn.JsonCodec
import ServerStorage.Lib.Lmdb

namespace ServerStorage.Muninn.Serialization

open Lib Lmdb

/-! ## Integral types -/

/-- A cast keeps the numbers of the range and no other, and a value survives as JSON. -/
class LawfulIntegral (T : Type) extends Integral T where
  toInt_cast : ∀ n : Int, toInt (cast n) = n ↔ least ≤ n ∧ n ≤ most
  cast_toInt : ∀ v, cast (toInt v) = v
  unsigned_toJson : ∀ v, isUnsigned = true → (toJson v).isNumberUnsigned = true
  integer_toJson : ∀ v, (toJson v).isNumberInteger = true ∧ (toJson v).integer = toInt v

instance : LawfulIntegral UInt16 where
  toInt_cast n := by
    show ((UInt16.ofInt n).toNat : Int) = n ↔ 0 ≤ n ∧ n ≤ 2 ^ 16 - 1
    rw [UInt16.ofInt, UInt16.toNat_ofNat']
    omega
  cast_toInt v := by
    show UInt16.ofInt v.toNat = v
    apply UInt16.toNat_inj.mp
    have := v.toNat_lt
    rw [UInt16.ofInt, UInt16.toNat_ofNat']
    omega
  unsigned_toJson _ _ := rfl
  integer_toJson _ := ⟨rfl, rfl⟩

instance : LawfulIntegral UInt32 where
  toInt_cast n := by
    show ((UInt32.ofInt n).toNat : Int) = n ↔ 0 ≤ n ∧ n ≤ 2 ^ 32 - 1
    rw [UInt32.ofInt, UInt32.toNat_ofNat']
    omega
  cast_toInt v := by
    show UInt32.ofInt v.toNat = v
    apply UInt32.toNat_inj.mp
    have := v.toNat_lt
    rw [UInt32.ofInt, UInt32.toNat_ofNat']
    omega
  unsigned_toJson _ _ := rfl
  integer_toJson _ := ⟨rfl, rfl⟩

instance : LawfulIntegral UInt64 where
  toInt_cast n := by
    show ((UInt64.ofInt n).toNat : Int) = n ↔ 0 ≤ n ∧ n ≤ 2 ^ 64 - 1
    rw [UInt64.ofInt, UInt64.toNat_ofNat']
    omega
  cast_toInt v := by
    show UInt64.ofInt v.toNat = v
    apply UInt64.toNat_inj.mp
    have := v.toNat_lt
    rw [UInt64.ofInt, UInt64.toNat_ofNat']
    omega
  unsigned_toJson _ _ := rfl
  integer_toJson _ := ⟨rfl, rfl⟩

instance : LawfulIntegral Int64 where
  toInt_cast n := by
    show (Int64.ofInt n).toInt = n ↔ -2 ^ 63 ≤ n ∧ n ≤ 2 ^ 63 - 1
    constructor
    · intro h
      rw [← h]
      have := (Int64.ofInt n).le_toInt
      have := (Int64.ofInt n).toInt_lt
      omega
    · rintro ⟨hle, hlt⟩
      exact Int64.toInt_ofInt_of_le hle (by omega)
  cast_toInt v := Int64.ofInt_toInt v
  unsigned_toJson _ h := by cases h
  integer_toJson _ := ⟨rfl, rfl⟩

/-! ## Fields -/

/-- The kind of number the type is read from. -/
def takesKind (T : Type) [Integral T] (field : Json) : Bool :=
  if Integral.isUnsigned T then field.isNumberUnsigned else field.isNumberInteger

theorem extract_ok {T : Type} [Integral T] {object : Json} {key : String} {v : T} :
    extractRequiredNumeric T object key = .ok v ↔
      ∃ field, object.find (str key) = some field ∧ takesKind T field = true ∧
        Integral.cast field.integer = v := by
  rw [extractRequiredNumeric]
  cases object.find (str key) with
  | none => simp
  | some field =>
      cases hunsigned : Integral.isUnsigned T with
      | true => cases hkind : field.isNumberUnsigned <;> simp [takesKind, hunsigned, hkind]
      | false => cases hkind : field.isNumberInteger <;> simp [takesKind, hunsigned, hkind]

theorem takesKind_toJson {T : Type} [LawfulIntegral T] (v : T) :
    takesKind T (Integral.toJson v) = true := by
  rw [takesKind]
  split
  next h => exact LawfulIntegral.unsigned_toJson v h
  next => exact (LawfulIntegral.integer_toJson v).1

/-- A field that was written is read back. -/
theorem extract_toJson {T : Type} [LawfulIntegral T] {object : Json} {key : String} {v : T}
    (h : object.find (str key) = some (Integral.toJson v)) :
    extractRequiredNumeric T object key = .ok v := by
  refine extract_ok.mpr ⟨_, h, takesKind_toJson v, ?_⟩
  rw [(LawfulIntegral.integer_toJson v).2, LawfulIntegral.cast_toInt]

theorem extractString_find {object : Json} {key : String} {s : Str}
    (h : object.find (str key) = some (.string s)) :
    extractRequiredString object key = .ok s := by
  rw [extractRequiredString, h]

theorem objectField_find {json v : Json} {key message : String}
    (h : json.find (str key) = some v) (hobject : v.isObject = true) :
    objectField json key message = .ok v := by
  rw [objectField, h]
  exact if_pos hobject

theorem arrayField_find {json : Json} {key message : String} {l : List Json}
    (h : json.find (str key) = some (.array l)) : arrayField json key message = .ok l := by
  rw [arrayField, h]

theorem requireObject_pos {α : Type} {message : String} {decode : Json → Decoder α} {item : Json}
    (h : item.isObject = true) : requireObject message decode item = decode item := by
  rw [requireObject, h]
  rfl

theorem decodeAll_map {α : Type} {decode : Json → Decoder α} {encode : α → Json} :
    ∀ {l : List α}, (∀ a ∈ l, decode (encode a) = .ok a) → decodeAll decode (l.map encode) = .ok l
  | [], _ => rfl
  | a :: l, h => by
      rw [List.map_cons, decodeAll, h a List.mem_cons_self,
        decodeAll_map fun a' ha' => h a' (List.mem_cons_of_mem _ ha')]
      rfl

/-! ## There and back -/

theorem ok_bind {ε α β : Type} (a : α) (f : α → Except ε β) :
    ((Except.ok a : Except ε α) >>= f) = f a := rfl

theorem metadataFromJson_toJson (metadata : FileMetadata) :
    metadataFromJson (metadataToJson metadata) = .ok metadata := by
  have hhash : contentHashFromJson (metadataToJson metadata) = .ok metadata.contentHash := by
    obtain ⟨_, _, _, _, _, _, _, hash⟩ := metadata
    cases hash with
    | none => rfl
    | some hash =>
        show Except.ok (some (Integral.cast (T := UInt64) (Integral.toInt hash))) = _
        rw [LawfulIntegral.cast_toInt]
  rw [metadataFromJson, extract_toJson (v := metadata.sizeBytes) rfl,
    extract_toJson (v := metadata.createdAt) rfl, extract_toJson (v := metadata.modifiedAt) rfl,
    extract_toJson (v := metadata.accessedAt) rfl, extract_toJson (v := metadata.permissions) rfl,
    extract_toJson (v := metadata.fileId) rfl, extract_toJson (v := metadata.deviceId) rfl, hhash]
  rfl

/-- The four types that have a name of their own. -/
def NamedType (type : EntryType) : Prop := type.value ≤ 3

theorem parseEntryType_toString {type : EntryType} (h : NamedType type) :
    parseEntryType (entryTypeToString type) = some type := by
  have hcases : type = .file ∨ type = .directory ∨ type = .symlink ∨ type = .special := by
    obtain ⟨value⟩ := type
    have hle := UInt8.le_iff_toNat_le.mp (show value ≤ 3 from h)
    simp only [EntryType.file, EntryType.directory, EntryType.symlink, EntryType.special,
      EntryType.mk.injEq, ← UInt8.toNat_inj]
    simp at hle ⊢
    omega
  rcases hcases with rfl | rfl | rfl | rfl
  · rfl
  · rfl
  · rfl
  · rfl

theorem entryFromJson_toJson {entry : FileEntry} (h : NamedType entry.type) :
    entryFromJson (entryToJson entry) = .ok entry := by
  rw [entryFromJson, extract_toJson (v := entry.id) rfl, extract_toJson (v := entry.parentId) rfl,
    extractString_find (s := entry.normalizedPath) rfl, extractString_find (s := entry.name) rfl,
    extractString_find (s := entryTypeToString entry.type) rfl]
  dsimp only [ok_bind]
  rw [parseEntryType_toString h]
  show (objectField _ _ _ >>= _) = _
  rw [objectField_find (v := metadataToJson entry.metadata) rfl rfl, ok_bind,
    metadataFromJson_toJson]
  rfl

theorem schemaFromJson_toJson (schema : SchemaHeader) :
    schemaFromJson (schemaToJson schema) = .ok schema := by
  rw [schemaFromJson, extract_toJson (v := schema.major) rfl, extract_toJson (v := schema.minor) rfl,
    extract_toJson (v := schema.patch) rfl, extract_toJson (v := schema.minReaderMajor) rfl]
  rfl

theorem modifiedFromJson_toJson (modified : ModifiedEntry) :
    modifiedFromJson (modifiedToJson modified) = .ok modified := by
  rw [modifiedFromJson, extract_toJson (v := modified.entryId) rfl,
    objectField_find (v := metadataToJson modified.before) rfl rfl,
    objectField_find (v := metadataToJson modified.after) rfl rfl, ok_bind, ok_bind, ok_bind,
    metadataFromJson_toJson, ok_bind, metadataFromJson_toJson]
  rfl

theorem renamedFromJson_toJson (renamed : RenamedEntry) :
    renamedFromJson (renamedToJson renamed) = .ok renamed := by
  rw [renamedFromJson, extract_toJson (v := renamed.beforeEntryId) rfl,
    extract_toJson (v := renamed.afterEntryId) rfl, extractString_find (s := renamed.oldPath) rfl,
    extractString_find (s := renamed.newPath) rfl]
  rfl

theorem validateContainerVersion_json {object : Json}
    (h : object.find (str "container_version") = some containerVersionJson) :
    validateContainerVersion object = .ok () := by
  rw [validateContainerVersion, h]
  show (extractRequiredNumeric UInt16 containerVersionJson "major" >>= fun major =>
    extractRequiredNumeric UInt16 containerVersionJson "minor" >>= _) = _
  rw [extract_toJson (v := kBinaryFormatMajor) rfl, extract_toJson (v := kBinaryFormatMinor) rfl]
  rfl

/-- A snapshot that JSON can name the entry types of. -/
def SnapshotNamed (snapshot : Snapshot) : Prop :=
  snapshot.entries.length ≤ kMaxBinaryEntries ∧ ∀ entry ∈ snapshot.entries, NamedType entry.type

def DeltaNamed (delta : DeltaSnapshot) : Prop :=
  (∀ entry ∈ delta.addedEntries, NamedType entry.type) ∧
    ∀ entry ∈ delta.removedEntries, NamedType entry.type

theorem snapshotFromJson_toJson {snapshot : Snapshot} (h : SnapshotNamed snapshot) :
    snapshotFromJson (snapshotToJson snapshot) = .ok snapshot := by
  have hentries : decodeAll (requireObject "Snapshot entry must be an object." entryFromJson)
      (snapshot.entries.map entryToJson) = .ok snapshot.entries :=
    decodeAll_map fun entry hentry => by
      rw [requireObject_pos rfl]
      exact entryFromJson_toJson (h.2 entry hentry)
  rw [snapshotFromJson, requireObject_pos rfl, validateContainerVersion_json rfl, ok_bind,
    objectField_find (v := schemaToJson snapshot.schema) rfl rfl, ok_bind,
    schemaFromJson_toJson, ok_bind, extract_toJson (v := snapshot.snapshotId) rfl, ok_bind,
    extract_toJson (v := snapshot.createdAt) rfl, ok_bind,
    extractString_find (s := snapshot.hostIdentifier) rfl, ok_bind,
    extract_toJson (v := snapshot.rootEntryId) rfl, ok_bind,
    arrayField_find (l := snapshot.entries.map entryToJson) rfl, ok_bind,
    if_neg (by rw [List.length_map]; exact not_lt.mpr h.1), hentries]
  rfl

theorem deltaFromJson_toJson {delta : DeltaSnapshot} (h : DeltaNamed delta) :
    deltaFromJson (deltaToJson delta) = .ok delta := by
  have hadded : decodeAll entryFromJson (delta.addedEntries.map entryToJson) =
      .ok delta.addedEntries :=
    decodeAll_map fun entry hentry => entryFromJson_toJson (h.1 entry hentry)
  have hremoved : decodeAll entryFromJson (delta.removedEntries.map entryToJson) =
      .ok delta.removedEntries :=
    decodeAll_map fun entry hentry => entryFromJson_toJson (h.2 entry hentry)
  have hmodified : decodeAll (requireObject "Delta modified item must be an object."
      modifiedFromJson) (delta.modifiedEntries.map modifiedToJson) = .ok delta.modifiedEntries :=
    decodeAll_map fun modified _ => by
      rw [requireObject_pos rfl]
      exact modifiedFromJson_toJson modified
  have hrenamed : decodeAll (requireObject "Delta renamed item must be an object."
      renamedFromJson) (delta.renamedEntries.map renamedToJson) = .ok delta.renamedEntries :=
    decodeAll_map fun renamed _ => by
      rw [requireObject_pos rfl]
      exact renamedFromJson_toJson renamed
  rw [deltaFromJson, requireObject_pos rfl, validateContainerVersion_json rfl, ok_bind,
    objectField_find (v := schemaToJson delta.schema) rfl rfl, ok_bind,
    schemaFromJson_toJson, ok_bind, extract_toJson (v := delta.baseSnapshotId) rfl, ok_bind,
    extract_toJson (v := delta.targetSnapshotId) rfl, ok_bind, requiredArrayField,
    arrayField_find (l := delta.addedEntries.map entryToJson) rfl, ok_bind, requiredArrayField,
    arrayField_find (l := delta.removedEntries.map entryToJson) rfl, ok_bind,
    requiredArrayField, arrayField_find (l := delta.modifiedEntries.map modifiedToJson) rfl,
    ok_bind, requiredArrayField,
    arrayField_find (l := delta.renamedEntries.map renamedToJson) rfl, ok_bind,
    hadded, ok_bind, hremoved, ok_bind, hmodified, ok_bind, hrenamed]
  rfl

/-- Written as JSON and read back, a value is the same, and so are its bytes. -/
theorem json_round_trip :
    (∀ snapshot, SnapshotNamed snapshot →
      snapshotFromJson (snapshotToJson snapshot) = .ok snapshot ∧
      (snapshotFromJson (snapshotToJson snapshot) >>= serializeSnapshotBinary) =
        serializeSnapshotBinary snapshot) ∧
    ∀ delta, DeltaNamed delta →
      deltaFromJson (deltaToJson delta) = .ok delta ∧
      (deltaFromJson (deltaToJson delta) >>= serializeDeltaBinary) = serializeDeltaBinary delta := by
  constructor
  · intro snapshot h
    rw [snapshotFromJson_toJson h]
    exact ⟨rfl, rfl⟩
  · intro delta h
    rw [deltaFromJson_toJson h]
    exact ⟨rfl, rfl⟩

def linkAt (path : Str) : FileEntry :=
  { id := 3, parentId := 1, name := path, normalizedPath := path, type := .symlink }

theorem json_round_trip_link :
    snapshotFromJson (snapshotToJson { snapshotId := 7, entries := [linkAt (str "l")] }) =
        .ok { snapshotId := 7, entries := [linkAt (str "l")] } ∧
      deltaFromJson (deltaToJson { targetSnapshotId := 7, removedEntries := [linkAt (str "l")] }) =
        .ok { targetSnapshotId := 7, removedEntries := [linkAt (str "l")] } := by
  have hnamed : ∀ entry ∈ [linkAt (str "l")], NamedType entry.type := by
    intro entry hmem
    obtain rfl := List.mem_singleton.mp hmem
    show (2 : UInt8) ≤ 3
    decide
  refine ⟨(json_round_trip.1 _ ⟨by decide, hnamed⟩).1, (json_round_trip.2 _ ⟨?_, hnamed⟩).1⟩
  exact fun entry hmem => absurd hmem List.not_mem_nil

/-! ## The numbers of a JSON value -/

open Integral (toInt)

/-- A numeric field: where it stands, and the range of the type it is read into. -/
structure NumericField where
  object : Json
  key : String
  least : Int
  most : Int

namespace NumericField

def of (T : Type) [Integral T] (object : Json) (key : String) : NumericField :=
  { object, key, least := Integral.least T, most := Integral.most T }

/-- The number written in the JSON. -/
def written (field : NumericField) : Option Int :=
  match field.object.find (str field.key) with
  | some json => if json.isNumberInteger then some json.integer else none
  | none => none

/-- The value carries the number that was written. -/
def Carries (field : NumericField) (value : Int) : Prop := field.written = some value

def InRange (field : NumericField) : Prop :=
  ∀ n, field.written = some n → field.least ≤ n ∧ n ≤ field.most

/-- What decoding makes sure of. -/
def Decodes (field : NumericField) (value : Int) : Prop := field.Carries value ↔ field.InRange

end NumericField

/-- The value of a field that is known to be there. -/
def fieldOf (json : Json) (key : String) : Json := (json.find (str key)).getD .null

def itemsOf (json : Json) (key : String) : List Json :=
  match fieldOf json key with
  | .array items => items
  | _ => []

def hashFieldsOf (json : Json) : List NumericField :=
  match json.find (str "content_hash") with
  | some _ => [.of UInt64 json "content_hash"]
  | none => []

def metadataFieldsOf (json : Json) : List NumericField :=
  [.of UInt64 json "size_bytes", .of Int64 json "created_at", .of Int64 json "modified_at",
    .of Int64 json "accessed_at", .of UInt32 json "permissions", .of UInt64 json "file_id",
    .of UInt64 json "device_id"] ++ hashFieldsOf json

def metadataNumbers (metadata : FileMetadata) : List Int :=
  [toInt metadata.sizeBytes, toInt metadata.createdAt, toInt metadata.modifiedAt,
    toInt metadata.accessedAt, toInt metadata.permissions, toInt metadata.fileId,
    toInt metadata.deviceId] ++ metadata.contentHash.toList.map toInt

def entryFieldsOf (json : Json) : List NumericField :=
  [.of UInt64 json "id", .of UInt64 json "parent_id"] ++ metadataFieldsOf (fieldOf json "metadata")

def entryNumbers (entry : FileEntry) : List Int :=
  [toInt entry.id, toInt entry.parentId] ++ metadataNumbers entry.metadata

def schemaFieldsOf (json : Json) : List NumericField :=
  [.of UInt16 json "major", .of UInt16 json "minor", .of UInt16 json "patch",
    .of UInt16 json "min_reader_major"]

def schemaNumbers (schema : SchemaHeader) : List Int :=
  [toInt schema.major, toInt schema.minor, toInt schema.patch, toInt schema.minReaderMajor]

/-- The version of the container is the one the decoder accepts. -/
def containerFieldsOf (json : Json) : List NumericField :=
  match json.find (str "container_version") with
  | some container => [.of UInt16 container "major", .of UInt16 container "minor"]
  | none => []

def containerNumbers (json : Json) : List Int :=
  match json.find (str "container_version") with
  | some _ => [toInt kBinaryFormatMajor, toInt kBinaryFormatMinor]
  | none => []

def modifiedFieldsOf (json : Json) : List NumericField :=
  [.of UInt64 json "entry_id"] ++ metadataFieldsOf (fieldOf json "before") ++
    metadataFieldsOf (fieldOf json "after")

def modifiedNumbers (modified : ModifiedEntry) : List Int :=
  [toInt modified.entryId] ++ metadataNumbers modified.before ++
    metadataNumbers modified.after

def renamedFieldsOf (json : Json) : List NumericField :=
  [.of UInt64 json "before_entry_id", .of UInt64 json "after_entry_id"]

def renamedNumbers (renamed : RenamedEntry) : List Int :=
  [toInt renamed.beforeEntryId, toInt renamed.afterEntryId]

/-- Every numeric field `snapshot_from_json` reads. -/
def snapshotFieldsOf (json : Json) : List NumericField :=
  containerFieldsOf json ++ schemaFieldsOf (fieldOf json "schema") ++
    [.of UInt64 json "snapshot_id", .of Int64 json "created_at",
      .of UInt64 json "root_entry_id"] ++
    (itemsOf json "entries").flatMap entryFieldsOf

/-- The numbers of the snapshot, in the same order. -/
def snapshotNumbers (json : Json) (snapshot : Snapshot) : List Int :=
  containerNumbers json ++ schemaNumbers snapshot.schema ++
    [toInt snapshot.snapshotId, toInt snapshot.createdAt, toInt snapshot.rootEntryId] ++
    snapshot.entries.flatMap entryNumbers

def deltaFieldsOf (json : Json) : List NumericField :=
  containerFieldsOf json ++ schemaFieldsOf (fieldOf json "schema") ++
    [.of UInt64 json "base_snapshot_id", .of UInt64 json "target_snapshot_id"] ++
    (itemsOf json "added").flatMap entryFieldsOf ++ (itemsOf json "removed").flatMap entryFieldsOf ++
    (itemsOf json "modified").flatMap modifiedFieldsOf ++
    (itemsOf json "renamed").flatMap renamedFieldsOf

def deltaNumbers (json : Json) (delta : DeltaSnapshot) : List Int :=
  containerNumbers json ++ schemaNumbers delta.schema ++
    [toInt delta.baseSnapshotId, toInt delta.targetSnapshotId] ++
    delta.addedEntries.flatMap entryNumbers ++ delta.removedEntries.flatMap entryNumbers ++
    delta.modifiedEntries.flatMap modifiedNumbers ++ delta.renamedEntries.flatMap renamedNumbers

/-- Every number of the value is the number written in its field. -/
def CarriesAll : List NumericField → List Int → Prop := List.Forall₂ NumericField.Carries

/-- Field by field, the number was carried over exactly where it is in the range. -/
abbrev DecodesAll : List NumericField → List Int → Prop := List.Forall₂ NumericField.Decodes

theorem DecodesAll.exact {fields : List NumericField} {values : List Int}
    (h : DecodesAll fields values) :
    CarriesAll fields values ↔ ∀ field ∈ fields, field.InRange := by
  rw [CarriesAll]
  induction h with
  | nil => simp
  | cons hhead _ ih =>
      rw [List.forall₂_cons, ih, List.forall_mem_cons]
      exact and_congr_left fun _ => hhead

theorem decodesAll_flatMap {α : Type} {decode : Json → Decoder α} {fields : Json → List NumericField}
    {numbers : α → List Int}
    (hdecode : ∀ {item a}, decode item = .ok a → DecodesAll (fields item) (numbers a)) :
    ∀ {items : List Json} {l : List α}, decodeAll decode items = .ok l →
      DecodesAll (items.flatMap fields) (l.flatMap numbers)
  | [], _, h => by
      cases h
      exact .nil
  | item :: items, _, h => by
      obtain ⟨a, ha, h⟩ := except_bind_ok.mp h
      obtain ⟨tail, htail, h⟩ := except_bind_ok.mp h
      cases h
      rw [List.flatMap_cons, List.flatMap_cons]
      exact List.rel_append (hdecode ha) (decodesAll_flatMap hdecode htail)

theorem isNumberInteger_takesKind {T : Type} [Integral T] {json : Json}
    (h : takesKind T json = true) : json.isNumberInteger = true := by
  cases json with
  | numberInteger => rfl
  | numberUnsigned => rfl
  | _ => rw [takesKind] at h; split at h <;> cases h

/-- One field that was read. -/
theorem extract_decodes {T : Type} [LawfulIntegral T] {object : Json} {key : String} {v : T}
    (h : extractRequiredNumeric T object key = .ok v) :
    (NumericField.of T object key).Decodes (Integral.toInt v) := by
  obtain ⟨json, hfind, hkind, rfl⟩ := extract_ok.mp h
  have hwritten : (NumericField.of T object key).written = some json.integer := by
    rw [NumericField.written]
    show (match object.find (str key) with
      | some json => if json.isNumberInteger then some json.integer else none
      | none => none) = _
    rw [hfind]
    exact if_pos (isNumberInteger_takesKind hkind)
  rw [NumericField.Decodes, NumericField.Carries, NumericField.InRange, hwritten,
    Option.some.injEq, eq_comm, LawfulIntegral.toInt_cast]
  constructor
  · rintro h n hn
    obtain rfl := Option.some.inj hn
    exact h
  · intro h
    exact h _ rfl

theorem objectField_ok {json field : Json} {key message : String}
    (h : objectField json key message = .ok field) : fieldOf json key = field := by
  rw [objectField] at h
  rw [fieldOf]
  cases hfind : json.find (str key) with
  | none => rw [hfind] at h; cases h
  | some field' =>
      rw [hfind] at h
      cases hobject : field'.isObject with
      | true => simpa [hobject] using h
      | false => simp [hobject] at h

theorem arrayField_ok {json : Json} {key message : String} {items : List Json}
    (h : arrayField json key message = .ok items) : itemsOf json key = items := by
  rw [itemsOf, fieldOf]
  rw [arrayField] at h
  split at h
  next hfind =>
    rw [hfind]
    exact Except.ok.inj h
  next => cases h

theorem requireObject_ok {α : Type} {message : String} {decode : Json → Decoder α} {item : Json}
    {a : α} (h : requireObject message decode item = .ok a) : decode item = .ok a := by
  rw [requireObject] at h
  split at h
  · cases h
  · exact h

theorem contentHash_decodes {json : Json} {hash : Option UInt64}
    (h : contentHashFromJson json = .ok hash) :
    DecodesAll (hashFieldsOf json) (hash.toList.map toInt) := by
  rw [contentHashFromJson] at h
  rw [hashFieldsOf]
  cases hfind : json.find (str "content_hash") with
  | none =>
      rw [hfind] at h
      cases h
      exact .nil
  | some field =>
      simp only [hfind] at h
      cases hkind : field.isNumberUnsigned with
      | false => rw [hkind] at h; cases h
      | true =>
          rw [hkind] at h
          obtain rfl := Except.ok.inj h
          exact .cons (extract_decodes (extract_ok.mpr ⟨field, hfind, hkind, rfl⟩)) .nil

theorem metadata_decodes {json : Json} {metadata : FileMetadata}
    (h : metadataFromJson json = .ok metadata) :
    DecodesAll (metadataFieldsOf json) (metadataNumbers metadata) := by
  obtain ⟨sizeBytes, hsize, h⟩ := except_bind_ok.mp h
  obtain ⟨createdAt, hcreated, h⟩ := except_bind_ok.mp h
  obtain ⟨modifiedAt, hmodified, h⟩ := except_bind_ok.mp h
  obtain ⟨accessedAt, haccessed, h⟩ := except_bind_ok.mp h
  obtain ⟨permissions, hpermissions, h⟩ := except_bind_ok.mp h
  obtain ⟨fileId, hfile, h⟩ := except_bind_ok.mp h
  obtain ⟨deviceId, hdevice, h⟩ := except_bind_ok.mp h
  obtain ⟨contentHash, hhash, h⟩ := except_bind_ok.mp h
  obtain rfl := Except.ok.inj h
  refine List.rel_append (.cons (extract_decodes hsize) (.cons (extract_decodes hcreated)
    (.cons (extract_decodes hmodified) (.cons (extract_decodes haccessed)
    (.cons (extract_decodes hpermissions) (.cons (extract_decodes hfile)
    (.cons (extract_decodes hdevice) .nil))))))) (contentHash_decodes hhash)

theorem entry_decodes {json : Json} {entry : FileEntry} (h : entryFromJson json = .ok entry) :
    DecodesAll (entryFieldsOf json) (entryNumbers entry) := by
  obtain ⟨id, hid, h⟩ := except_bind_ok.mp h
  obtain ⟨parentId, hparent, h⟩ := except_bind_ok.mp h
  obtain ⟨path, -, h⟩ := except_bind_ok.mp h
  obtain ⟨name, -, h⟩ := except_bind_ok.mp h
  obtain ⟨typeString, -, h⟩ := except_bind_ok.mp h
  cases htype : parseEntryType typeString with
  | none => simp only [htype] at h; cases h
  | some type =>
      simp only [htype] at h
      obtain ⟨field, hfield, h⟩ := except_bind_ok.mp h
      obtain ⟨metadata, hmetadata, h⟩ := except_bind_ok.mp h
      obtain rfl := Except.ok.inj h
      rw [entryFieldsOf, objectField_ok hfield]
      exact .cons (extract_decodes hid) (.cons (extract_decodes hparent)
        (metadata_decodes hmetadata))

theorem schema_decodes {json : Json} {schema : SchemaHeader}
    (h : schemaFromJson json = .ok schema) :
    DecodesAll (schemaFieldsOf json) (schemaNumbers schema) := by
  obtain ⟨major, hmajor, h⟩ := except_bind_ok.mp h
  obtain ⟨minor, hminor, h⟩ := except_bind_ok.mp h
  obtain ⟨patch, hpatch, h⟩ := except_bind_ok.mp h
  obtain ⟨minReaderMajor, hreader, h⟩ := except_bind_ok.mp h
  obtain rfl := Except.ok.inj h
  exact .cons (extract_decodes hmajor) (.cons (extract_decodes hminor)
    (.cons (extract_decodes hpatch) (.cons (extract_decodes hreader) .nil)))

theorem container_decodes {json : Json} (h : validateContainerVersion json = .ok ()) :
    DecodesAll (containerFieldsOf json) (containerNumbers json) := by
  rw [validateContainerVersion] at h
  rw [containerFieldsOf, containerNumbers]
  cases hfind : json.find (str "container_version") with
  | none => exact .nil
  | some container =>
      rw [hfind] at h
      cases hobject : container.isObject with
      | false => simp only [hobject] at h; cases h
      | true =>
          simp only [hobject, Bool.not_true, Bool.false_eq_true, if_false] at h
          obtain ⟨major, hmajor, h⟩ := except_bind_ok.mp h
          obtain ⟨minor, hminor, h⟩ := except_bind_ok.mp h
          split at h
          · cases h
          next hversion =>
            obtain ⟨rfl, rfl⟩ : major = kBinaryFormatMajor ∧ minor = kBinaryFormatMinor := by
              simpa only [not_or, not_not] using hversion
            exact .cons (extract_decodes hmajor) (.cons (extract_decodes hminor) .nil)

theorem modified_decodes {json : Json} {modified : ModifiedEntry}
    (h : modifiedFromJson json = .ok modified) :
    DecodesAll (modifiedFieldsOf json) (modifiedNumbers modified) := by
  obtain ⟨entryId, hid, h⟩ := except_bind_ok.mp h
  obtain ⟨beforeField, hbeforeField, h⟩ := except_bind_ok.mp h
  obtain ⟨afterField, hafterField, h⟩ := except_bind_ok.mp h
  obtain ⟨before, hbefore, h⟩ := except_bind_ok.mp h
  obtain ⟨after, hafter, h⟩ := except_bind_ok.mp h
  obtain rfl := Except.ok.inj h
  rw [modifiedFieldsOf, objectField_ok hbeforeField, objectField_ok hafterField]
  exact List.rel_append (List.rel_append (.cons (extract_decodes hid) .nil)
    (metadata_decodes hbefore)) (metadata_decodes hafter)

theorem renamed_decodes {json : Json} {renamed : RenamedEntry}
    (h : renamedFromJson json = .ok renamed) :
    DecodesAll (renamedFieldsOf json) (renamedNumbers renamed) := by
  obtain ⟨beforeEntryId, hbefore, h⟩ := except_bind_ok.mp h
  obtain ⟨afterEntryId, hafter, h⟩ := except_bind_ok.mp h
  obtain ⟨oldPath, -, h⟩ := except_bind_ok.mp h
  obtain ⟨newPath, -, h⟩ := except_bind_ok.mp h
  obtain rfl := Except.ok.inj h
  exact .cons (extract_decodes hbefore) (.cons (extract_decodes hafter) .nil)

theorem snapshot_decodes {json : Json} {snapshot : Snapshot}
    (h : snapshotFromJson json = .ok snapshot) :
    DecodesAll (snapshotFieldsOf json) (snapshotNumbers json snapshot) := by
  have h := requireObject_ok h
  obtain ⟨_, hcontainer, h⟩ := except_bind_ok.mp h
  obtain ⟨schemaField, hschemaField, h⟩ := except_bind_ok.mp h
  obtain ⟨schema, hschema, h⟩ := except_bind_ok.mp h
  obtain ⟨snapshotId, hid, h⟩ := except_bind_ok.mp h
  obtain ⟨createdAt, hcreated, h⟩ := except_bind_ok.mp h
  obtain ⟨host, -, h⟩ := except_bind_ok.mp h
  obtain ⟨rootEntryId, hroot, h⟩ := except_bind_ok.mp h
  obtain ⟨items, hitems, h⟩ := except_bind_ok.mp h
  split at h
  · cases h
  obtain ⟨entries, hentries, h⟩ := except_bind_ok.mp h
  obtain rfl := Except.ok.inj h
  rw [snapshotFieldsOf, objectField_ok hschemaField, arrayField_ok hitems]
  refine List.rel_append (List.rel_append (List.rel_append (container_decodes hcontainer)
    (schema_decodes hschema)) (.cons (extract_decodes hid) (.cons (extract_decodes hcreated)
    (.cons (extract_decodes hroot) .nil)))) ?_
  exact decodesAll_flatMap (fun hitem => entry_decodes (requireObject_ok hitem)) hentries

theorem delta_decodes {json : Json} {delta : DeltaSnapshot}
    (h : deltaFromJson json = .ok delta) :
    DecodesAll (deltaFieldsOf json) (deltaNumbers json delta) := by
  have h := requireObject_ok h
  obtain ⟨_, hcontainer, h⟩ := except_bind_ok.mp h
  obtain ⟨schemaField, hschemaField, h⟩ := except_bind_ok.mp h
  obtain ⟨schema, hschema, h⟩ := except_bind_ok.mp h
  obtain ⟨baseSnapshotId, hbase, h⟩ := except_bind_ok.mp h
  obtain ⟨targetSnapshotId, htarget, h⟩ := except_bind_ok.mp h
  obtain ⟨added, hadded, h⟩ := except_bind_ok.mp h
  obtain ⟨removed, hremoved, h⟩ := except_bind_ok.mp h
  obtain ⟨modified, hmodified, h⟩ := except_bind_ok.mp h
  obtain ⟨renamed, hrenamed, h⟩ := except_bind_ok.mp h
  obtain ⟨addedEntries, haddedEntries, h⟩ := except_bind_ok.mp h
  obtain ⟨removedEntries, hremovedEntries, h⟩ := except_bind_ok.mp h
  obtain ⟨modifiedEntries, hmodifiedEntries, h⟩ := except_bind_ok.mp h
  obtain ⟨renamedEntries, hrenamedEntries, h⟩ := except_bind_ok.mp h
  obtain rfl := Except.ok.inj h
  rw [deltaFieldsOf, objectField_ok hschemaField, arrayField_ok hadded, arrayField_ok hremoved,
    arrayField_ok hmodified, arrayField_ok hrenamed]
  have hhead := List.rel_append (List.rel_append (container_decodes hcontainer)
    (schema_decodes hschema)) (.cons (extract_decodes hbase) (.cons (extract_decodes htarget) .nil))
  have hentries := List.rel_append (List.rel_append hhead
    (decodesAll_flatMap entry_decodes haddedEntries))
    (decodesAll_flatMap entry_decodes hremovedEntries)
  exact List.rel_append (List.rel_append hentries
    (decodesAll_flatMap (fun h => modified_decodes (requireObject_ok h)) hmodifiedEntries))
    (decodesAll_flatMap (fun h => renamed_decodes (requireObject_ok h)) hrenamedEntries)

/-- A value that is accepted carries the numbers of the JSON exactly where each of them is
in the range of its field. -/
theorem fromJson_exact (json : Json) :
    (∀ snapshot, snapshotFromJson json = .ok snapshot →
      (CarriesAll (snapshotFieldsOf json) (snapshotNumbers json snapshot) ↔
        ∀ field ∈ snapshotFieldsOf json, field.InRange)) ∧
    ∀ delta, deltaFromJson json = .ok delta →
      (CarriesAll (deltaFieldsOf json) (deltaNumbers json delta) ↔
        ∀ field ∈ deltaFieldsOf json, field.InRange) :=
  ⟨fun _ h => (snapshot_decodes h).exact, fun _ h => (delta_decodes h).exact⟩

/-- A schema of major version 65537 is read as version 1. -/
theorem fromJson_wraps : ¬∀ (json : Json) (snapshot : Snapshot),
    snapshotFromJson json = .ok snapshot →
      CarriesAll (snapshotFieldsOf json) (snapshotNumbers json snapshot) := by
  intro h
  have hread : snapshotFromJson (.object
      [(str "schema", .object
        [(str "major", .numberUnsigned 65537), (str "minor", .numberUnsigned 0),
          (str "patch", .numberUnsigned 0), (str "min_reader_major", .numberUnsigned 1)]),
        (str "snapshot_id", .numberUnsigned 7), (str "created_at", .numberUnsigned 0),
        (str "host_identifier", .string (str "h")), (str "root_entry_id", .numberUnsigned 0),
        (str "entries", .array [])]) =
      .ok { schema := {}, snapshotId := 7, hostIdentifier := str "h" } := by rfl
  have hall := h _ _ hread
  cases hall with
  | cons hmajor _ =>
      have hmajor : (some 65537 : Option Int) = some 1 := hmajor
      exact absurd hmajor (by decide)

end ServerStorage.Muninn.Serialization
