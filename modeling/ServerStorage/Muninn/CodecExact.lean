/-
# `ServerStorage.Muninn.CodecExact` — which byte strings are read

The layout of a payload, with the bytes left free that the readers do not look at: the
flag in front of a hash, and what stands behind the last record.  A payload is what the
writers write exactly where its flags are 0 or 1 and nothing stands behind it.
-/
import ServerStorage.Muninn.CodecSpec

namespace ServerStorage.Muninn.Serialization

open Lib Lmdb

/-! ## The layout -/

def metadataFields (metadata : FileMetadata) : Str :=
  encodeU64Le metadata.sizeBytes ++ (writeI64 metadata.createdAt ++
    (writeI64 metadata.modifiedAt ++ (writeI64 metadata.accessedAt ++
    (encodeU32Le metadata.permissions ++ (encodeU64Le metadata.fileId ++
    encodeU64Le metadata.deviceId)))))

/-- A hash behind its flag, which is set where there is one. -/
def SpellsHash (flag : UInt8) : Option UInt64 → Str → Prop
  | none, bytes => flag = 0 ∧ bytes = []
  | some hash, bytes => flag ≠ 0 ∧ bytes = encodeU64Le hash

def SpellsMetadata (allowed : UInt8 → Prop) (metadata : FileMetadata) (bytes : Str) : Prop :=
  ∃ flag hash, allowed flag ∧ SpellsHash flag metadata.contentHash hash ∧
    bytes = metadataFields metadata ++ flag :: hash

def SpellsEntry (allowed : UInt8 → Prop) (entry : FileEntry) (bytes : Str) : Prop :=
  ∃ path name metadata, writeString entry.normalizedPath = .ok path ∧
    writeString entry.name = .ok name ∧ SpellsMetadata allowed entry.metadata metadata ∧
    bytes = encodeU64Le entry.id ++ (encodeU64Le entry.parentId ++
      (path ++ (name ++ (entry.type.value :: metadata))))

def SpellsModified (allowed : UInt8 → Prop) (modified : ModifiedEntry) (bytes : Str) : Prop :=
  ∃ before after, SpellsMetadata allowed modified.before before ∧
    SpellsMetadata allowed modified.after after ∧
    bytes = encodeU64Le modified.entryId ++ (before ++ after)

def SpellsRenamed (renamed : RenamedEntry) (bytes : Str) : Prop :=
  ∃ oldPath newPath, writeString renamed.oldPath = .ok oldPath ∧
    writeString renamed.newPath = .ok newPath ∧
    bytes = encodeU64Le renamed.beforeEntryId ++ (encodeU64Le renamed.afterEntryId ++
      (oldPath ++ newPath))

/-- One record after the other. -/
def SpellsAll {α : Type} (spells : α → Str → Prop) : List α → Str → Prop
  | [], bytes => bytes = []
  | a :: rest, bytes => ∃ head tail, spells a head ∧ SpellsAll spells rest tail ∧
      bytes = head ++ tail

def SpellsSnapshot (allowed : UInt8 → Prop) (snapshot : Snapshot) (bytes : Str) : Prop :=
  snapshot.entries.length ≤ kMaxBinaryEntries ∧
  ∃ host entries, writeString snapshot.hostIdentifier = .ok host ∧
    SpellsAll (SpellsEntry allowed) snapshot.entries entries ∧
    bytes = writeSchema snapshot.schema ++ (encodeU64Le snapshot.snapshotId ++
      (writeI64 snapshot.createdAt ++ (host ++ (encodeU64Le snapshot.rootEntryId ++
      (encodeU32Le snapshot.entries.length.toUInt32 ++ entries)))))

def SpellsDelta (allowed : UInt8 → Prop) (delta : DeltaSnapshot) (bytes : Str) : Prop :=
  (delta.addedEntries.length ≤ kMaxBinaryEntries ∧
    delta.removedEntries.length ≤ kMaxBinaryEntries ∧
    delta.modifiedEntries.length ≤ kMaxBinaryEntries ∧
    delta.renamedEntries.length ≤ kMaxBinaryEntries) ∧
  ∃ added removed modified renamed, SpellsAll (SpellsEntry allowed) delta.addedEntries added ∧
    SpellsAll (SpellsEntry allowed) delta.removedEntries removed ∧
    SpellsAll (SpellsModified allowed) delta.modifiedEntries modified ∧
    SpellsAll SpellsRenamed delta.renamedEntries renamed ∧
    bytes = writeSchema delta.schema ++ (encodeU64Le delta.baseSnapshotId ++
      (encodeU64Le delta.targetSnapshotId ++ (encodeU32Le delta.addedEntries.length.toUInt32 ++
      (encodeU32Le delta.removedEntries.length.toUInt32 ++
      (encodeU32Le delta.modifiedEntries.length.toUInt32 ++
      (encodeU32Le delta.renamedEntries.length.toUInt32 ++
      (added ++ (removed ++ (modified ++ renamed)))))))))

/-- The readers let any flag pass. -/
def Any (_ : UInt8) : Prop := True

/-- A flag as the writers write it. -/
def Written (flag : UInt8) : Prop := flag ≤ 1

/-- A header of the magic, a payload with any flags, and anything behind it. -/
def Accepted {α : Type} (magic : UInt32) (spells : (UInt8 → Prop) → α → Str → Prop)
    (input : Str) : Prop :=
  ∃ a bytes rest, spells Any a bytes ∧ input = writeBinaryHeader magic ++ (bytes ++ rest)

/-- A header of the magic and a payload whose flags are 0 or 1; nothing behind it. -/
def Canonical {α : Type} (magic : UInt32) (spells : (UInt8 → Prop) → α → Str → Prop)
    (input : Str) : Prop :=
  ∃ a bytes, spells Written a bytes ∧ input = writeBinaryHeader magic ++ bytes

/-! ## Fixed-width fields -/

theorem parses_bytes (size : Nat) :
    Parses (readBytes size) fun bytes c => c = bytes ∧ bytes.length = size := by
  intro input bytes rest
  show readBytes size input = _ ↔ _
  rw [readBytes]
  constructor
  · intro h
    split at h
    · cases h
    next hle =>
      cases h
      refine ⟨_, (List.take_append_drop size input).symm, rfl, ?_⟩
      rw [List.length_take]
      omega
  · rintro ⟨_, rfl, rfl, rfl⟩
    rw [if_neg (by simp), List.take_left, List.drop_left]

/-- A word is read from its only spelling. -/
theorem parses_word {α : Type} {size : Nat} {encode : α → Str} {decode : Str → α}
    (hlength : ∀ a, (encode a).length = size) (hdecode : ∀ a, decode (encode a) = a)
    (hencode : ∀ {l : Str}, l.length = size → encode (decode l) = l) :
    Parses (do return decode (← readBytes size) : Reader α) fun a c => c = encode a := by
  refine ((parses_bytes size).map decode).congr fun a c => ?_
  constructor
  · rintro ⟨bytes, ⟨rfl, hlen⟩, rfl⟩
    exact (hencode hlen).symm
  · rintro rfl
    exact ⟨encode a, ⟨rfl, hlength a⟩, (hdecode a).symm⟩

theorem parses_u8 : Parses readU8 fun v c => c = [v] :=
  parses_word (fun _ => rfl) (fun _ => rfl) fun {l} h =>
    match l, h with
    | [_], _ => rfl

theorem parses_u16 : Parses readU16 fun v c => c = encodeU16Le v :=
  parses_word (fun _ => rfl) decodeU16Le_encodeU16Le encodeU16Le_decodeU16Le

theorem parses_u32 : Parses readU32 fun v c => c = encodeU32Le v :=
  parses_word (fun _ => rfl) decodeU32Le_encodeU32Le encodeU32Le_decodeU32Le

theorem parses_u64 : Parses readU64 fun v c => c = encodeU64Le v :=
  parses_word (fun _ => rfl) decodeU64Le_encodeU64Le encodeU64Le_decodeU64Le

theorem parses_i64 : Parses readI64 fun v c => c = writeI64 v := by
  refine (parses_u64.map UInt64.toInt64).congr fun v c => ?_
  constructor
  · rintro ⟨u, rfl, rfl⟩
    rfl
  · rintro rfl
    exact ⟨v.toUInt64, rfl, rfl⟩

theorem parses_string : Parses readString fun s c => writeString s = .ok c := by
  refine (parses_u32.field fun length => Parses.guard (parses_bytes length.toNat)).congr fun s c => ?_
  constructor
  · rintro ⟨length, tail, ⟨hle, rfl, hlen⟩, rfl⟩
    rw [← hlen] at hle
    have hback : length.toNat.toUInt32 = length := UInt32.ofNat_toNat
    rw [writeString, if_neg hle, hlen, hback]
  · intro h
    obtain ⟨hle, rfl⟩ := writeString_ok h
    have hlen : s.length.toUInt32.toNat = s.length :=
      toNat_length (lt_of_le_of_lt hle (by decide))
    exact ⟨s.length.toUInt32, s, ⟨by rw [hlen]; exact not_lt.mpr hle, rfl, hlen.symm⟩, rfl⟩

/-! ## Records -/

theorem parses_schema : Parses readSchema fun schema c => c = writeSchema schema := by
  refine (parses_u16.field fun _ => parses_u16.field fun _ => parses_u16.field fun _ =>
    parses_u16.map _).congr fun schema c => ?_
  rw [writeSchema, List.append_assoc, List.append_assoc]
  constructor
  · rintro ⟨major, _, ⟨minor, _, ⟨patch, _, ⟨minReaderMajor, rfl, rfl⟩, rfl⟩, rfl⟩, rfl⟩
    rfl
  · rintro rfl
    exact ⟨_, _, ⟨_, _, ⟨_, _, ⟨_, rfl, rfl⟩, rfl⟩, rfl⟩, rfl⟩

theorem parses_hash {α : Type} (flag : UInt8) (f : Option UInt64 → α) :
    Parses (if flag ≠ 0 then (some <$> readU64) >>= fun hash => pure (f hash)
        else pure none >>= fun hash => pure (f hash) : Reader α)
      fun a c => ∃ hash, SpellsHash flag hash c ∧ a = f hash := by
  by_cases hflag : flag = 0
  · rw [if_neg (not_not.mpr hflag)]
    refine ((Parses.pure none).map f).congr fun a c => ?_
    constructor
    · rintro ⟨_, ⟨rfl, rfl⟩, rfl⟩
      exact ⟨none, ⟨hflag, rfl⟩, rfl⟩
    · rintro ⟨hash, hhash, rfl⟩
      cases hash with
      | none => exact ⟨none, ⟨rfl, hhash.2⟩, rfl⟩
      | some value => exact absurd hflag hhash.1
  · rw [if_pos hflag, map_eq_pure_bind]
    refine ((parses_u64.map some).map f).congr fun a c => ?_
    constructor
    · rintro ⟨_, ⟨value, rfl, rfl⟩, rfl⟩
      exact ⟨some value, ⟨hflag, rfl⟩, rfl⟩
    · rintro ⟨hash, hhash, rfl⟩
      cases hash with
      | none => exact absurd hhash.1 hflag
      | some value => exact ⟨some value, ⟨value, hhash.2, rfl⟩, rfl⟩

theorem parses_metadata : Parses readMetadata (SpellsMetadata Any) := by
  refine (parses_u64.field fun _ => parses_i64.field fun _ => parses_i64.field fun _ =>
    parses_i64.field fun _ => parses_u32.field fun _ => parses_u64.field fun _ =>
    parses_u64.field fun _ => parses_u8.field fun flag => parses_hash flag _).congr
    fun metadata c => ?_
  constructor
  · rintro ⟨_, _, ⟨_, _, ⟨_, _, ⟨_, _, ⟨_, _, ⟨_, _, ⟨_, _, ⟨flag, hash, ⟨_, hhash, rfl⟩,
      rfl⟩, rfl⟩, rfl⟩, rfl⟩, rfl⟩, rfl⟩, rfl⟩, rfl⟩
    exact ⟨flag, hash, trivial, hhash, by simp only [metadataFields, List.append_assoc]; rfl⟩
  · rintro ⟨flag, hash, _, hhash, rfl⟩
    simp only [metadataFields, List.append_assoc]
    exact ⟨_, _, ⟨_, _, ⟨_, _, ⟨_, _, ⟨_, _, ⟨_, _, ⟨_, _, ⟨flag, hash, ⟨_, hhash, rfl⟩,
      rfl⟩, rfl⟩, rfl⟩, rfl⟩, rfl⟩, rfl⟩, rfl⟩, rfl⟩

theorem parses_entry : Parses readEntry (SpellsEntry Any) := by
  refine (parses_u64.field fun _ => parses_u64.field fun _ => parses_string.bind fun _ =>
    parses_string.bind fun _ => parses_u8.field fun _ => parses_metadata.map _).congr
    fun entry c => ?_
  constructor
  · rintro ⟨_, _, ⟨_, _, ⟨_, path, _, hpath, ⟨_, name, _, hname, ⟨_, metadata, ⟨_, hmetadata, rfl⟩,
      rfl⟩, rfl⟩, rfl⟩, rfl⟩, rfl⟩
    exact ⟨path, name, metadata, hpath, hname, hmetadata, rfl⟩
  · rintro ⟨path, name, metadata, hpath, hname, hmetadata, rfl⟩
    exact ⟨_, _, ⟨_, _, ⟨_, path, _, hpath, ⟨_, name, _, hname, ⟨_, metadata, ⟨_, hmetadata, rfl⟩,
      rfl⟩, rfl⟩, rfl⟩, rfl⟩, rfl⟩

theorem parses_modified : Parses readModified (SpellsModified Any) := by
  refine (parses_u64.field fun _ => parses_metadata.bind fun _ => parses_metadata.map _).congr
    fun modified c => ?_
  constructor
  · rintro ⟨_, _, ⟨_, before, after, hbefore, ⟨_, hafter, rfl⟩, rfl⟩, rfl⟩
    exact ⟨before, after, hbefore, hafter, rfl⟩
  · rintro ⟨before, after, hbefore, hafter, rfl⟩
    exact ⟨_, _, ⟨_, before, after, hbefore, ⟨_, hafter, rfl⟩, rfl⟩, rfl⟩

theorem parses_renamed : Parses readRenamed SpellsRenamed := by
  refine (parses_u64.field fun _ => parses_u64.field fun _ => parses_string.bind fun _ =>
    parses_string.map _).congr fun renamed c => ?_
  constructor
  · rintro ⟨_, _, ⟨_, _, ⟨_, old, new, hold, ⟨_, hnew, rfl⟩, rfl⟩, rfl⟩, rfl⟩
    exact ⟨old, new, hold, hnew, rfl⟩
  · rintro ⟨old, new, hold, hnew, rfl⟩
    exact ⟨_, _, ⟨_, _, ⟨_, old, new, hold, ⟨_, hnew, rfl⟩, rfl⟩, rfl⟩, rfl⟩

theorem parses_many {α : Type} {read : Reader α} {spells : α → Str → Prop}
    (hread : Parses read spells) :
    ∀ count, Parses (readMany read count) fun l c => l.length = count ∧ SpellsAll spells l c
  | 0 => by
      refine (Parses.pure ([] : List α)).congr fun l c => ?_
      cases l with
      | nil => simp [SpellsAll]
      | cons a l => simp
  | count + 1 => by
      refine (hread.bind fun a => (parses_many hread count).map _).congr fun l c => ?_
      constructor
      · rintro ⟨a, head, tail, hhead, ⟨l, ⟨rfl, hl⟩, rfl⟩, rfl⟩
        exact ⟨rfl, head, tail, hhead, hl, rfl⟩
      · rintro ⟨hlength, hl⟩
        cases l with
        | nil => cases hlength
        | cons a l =>
            obtain ⟨head, tail, hhead, hl, rfl⟩ := hl
            exact ⟨a, head, tail, hhead, ⟨l, ⟨Nat.succ.inj hlength, hl⟩, rfl⟩, rfl⟩

/-! ## Whole values -/

theorem parses_snapshot : Parses snapshotBody (SpellsSnapshot Any) := by
  refine (parses_schema.field fun _ => parses_u64.field fun _ => parses_i64.field fun _ =>
    parses_string.bind fun _ => parses_u64.field fun _ => parses_u32.field fun count =>
    Parses.guard ((parses_many parses_entry count.toNat).map _)).congr fun snapshot c => ?_
  constructor
  · rintro ⟨_, _, ⟨_, _, ⟨_, _, ⟨_, host, _, hhost, ⟨_, _, ⟨count, entries,
      ⟨hle, l, ⟨hlength, hl⟩, rfl⟩, rfl⟩, rfl⟩, rfl⟩, rfl⟩, rfl⟩, rfl⟩
    have hback : l.length.toUInt32 = count := by
      rw [hlength]
      exact UInt32.ofNat_toNat
    rw [← hlength] at hle
    exact ⟨not_lt.mp hle, host, entries, hhost, hl, by rw [hback]⟩
  · rintro ⟨hle, host, entries, hhost, hl, rfl⟩
    have hlen : snapshot.entries.length.toUInt32.toNat = snapshot.entries.length :=
      toNat_length (lt_of_le_of_lt hle (by decide))
    exact ⟨_, _, ⟨_, _, ⟨_, _, ⟨_, host, _, hhost, ⟨_, _, ⟨_, entries,
      ⟨by rw [hlen]; exact not_lt.mpr hle, snapshot.entries, ⟨hlen.symm, hl⟩, rfl⟩,
      rfl⟩, rfl⟩, rfl⟩, rfl⟩, rfl⟩, rfl⟩

/-- The four counts are within the limit. -/
theorem counts_le {a r m n : Nat} :
    ¬(kMaxBinaryEntries < a || kMaxBinaryEntries < r || kMaxBinaryEntries < m ||
      kMaxBinaryEntries < n) = true ↔
    a ≤ kMaxBinaryEntries ∧ r ≤ kMaxBinaryEntries ∧ m ≤ kMaxBinaryEntries ∧
      n ≤ kMaxBinaryEntries := by
  simp only [Bool.or_eq_true, decide_eq_true_eq]
  omega

theorem parses_delta : Parses deltaBody (SpellsDelta Any) := by
  refine (parses_schema.field fun _ => parses_u64.field fun _ => parses_u64.field fun _ =>
    parses_u32.field fun a => parses_u32.field fun r => parses_u32.field fun m =>
    parses_u32.field fun n => Parses.guard
      ((parses_many parses_entry a.toNat).bind fun _ =>
        (parses_many parses_entry r.toNat).bind fun _ =>
        (parses_many parses_modified m.toNat).bind fun _ =>
        (parses_many parses_renamed n.toNat).map _)).congr fun delta c => ?_
  have hback : ∀ {n : UInt32} {k : Nat}, k = n.toNat → k.toUInt32 = n := by
    rintro n _ rfl
    exact UInt32.ofNat_toNat
  have hlen : ∀ {n : Nat}, n ≤ kMaxBinaryEntries → n.toUInt32.toNat = n := fun h =>
    toNat_length (lt_of_le_of_lt h (by decide))
  constructor
  · rintro ⟨_, _, ⟨_, _, ⟨_, _, ⟨a, _, ⟨r, _, ⟨m, _, ⟨n, _, ⟨hle, added, ba, _, ⟨ha, hba⟩,
      ⟨removed, br, _, ⟨hr, hbr⟩, ⟨modified, bm, bn, ⟨hm, hbm⟩, ⟨renamed, ⟨hn, hbn⟩, rfl⟩, rfl⟩,
      rfl⟩, rfl⟩, rfl⟩, rfl⟩, rfl⟩, rfl⟩, rfl⟩, rfl⟩, rfl⟩
    rw [← ha, ← hr, ← hm, ← hn] at hle
    exact ⟨counts_le.mp hle, ba, br, bm, bn, hba, hbr, hbm, hbn,
      by rw [hback ha, hback hr, hback hm, hback hn]⟩
  · rintro ⟨hle, ba, br, bm, bn, hba, hbr, hbm, hbn, rfl⟩
    obtain ⟨ha, hr, hm, hn⟩ := hle
    refine ⟨_, _, ⟨_, _, ⟨_, _, ⟨_, _, ⟨_, _, ⟨_, _, ⟨_, _, ⟨?_, delta.addedEntries, ba, _,
      ⟨(hlen ha).symm, hba⟩, ⟨delta.removedEntries, br, _, ⟨(hlen hr).symm, hbr⟩,
      ⟨delta.modifiedEntries, bm, bn, ⟨(hlen hm).symm, hbm⟩,
      ⟨delta.renamedEntries, ⟨(hlen hn).symm, hbn⟩, rfl⟩, rfl⟩,
      rfl⟩, rfl⟩, rfl⟩, rfl⟩, rfl⟩, rfl⟩, rfl⟩, rfl⟩, rfl⟩
    rw [hlen ha, hlen hr, hlen hm, hlen hn]
    exact counts_le.mpr ⟨ha, hr, hm, hn⟩

theorem readBinaryHeader_some {magic : UInt32} {input rest : Str} :
    readBinaryHeader magic input = some rest ↔ input = writeBinaryHeader magic ++ rest := by
  constructor
  · intro h
    rw [readBinaryHeader] at h
    split at h
    next rest' hrun =>
      obtain rfl := Option.some.inj h
      have hparses := parses_u32.field fun magic' => parses_u16.field fun major =>
        parses_u16.map fun minor => magic' == magic && major == kBinaryFormatMajor &&
          minor == kBinaryFormatMinor
      obtain ⟨c, rfl, magic', _, ⟨major, _, ⟨minor, rfl, hflags⟩, rfl⟩, rfl⟩ :=
        (hparses input true rest').mp hrun
      rw [eq_comm, Bool.and_eq_true, Bool.and_eq_true, beq_iff_eq, beq_iff_eq, beq_iff_eq] at hflags
      obtain ⟨⟨rfl, rfl⟩, rfl⟩ := hflags
      rw [writeBinaryHeader, List.append_assoc (encodeU32Le magic') (encodeU16Le _)]
    next => cases h
    next => cases h
  · rintro rfl
    exact readBinaryHeader_write magic rest

/-- What is deserialized, whatever stands behind it. -/
theorem deserialize_eq {α : Type} {magic : UInt32} {message : String} {body : Reader α}
    {spells : (UInt8 → Prop) → α → Str → Prop} (hbody : Parses body (spells Any)) {input : Str}
    {a : α} :
    deserialize magic message body input = .ok a ↔
      ∃ bytes rest, spells Any a bytes ∧ input = writeBinaryHeader magic ++ (bytes ++ rest) := by
  constructor
  · intro h
    rw [deserialize] at h
    cases hheader : readBinaryHeader magic input with
    | none => rw [hheader] at h; cases h
    | some tail =>
        rw [hheader] at h
        obtain rfl := readBinaryHeader_some.mp hheader
        have hfst : Prod.fst <$> body.run tail = .ok a := h
        cases hrun : body.run tail with
        | error e => rw [hrun] at hfst; cases hfst
        | ok result =>
            obtain ⟨a', rest⟩ := result
            rw [hrun] at hfst
            obtain rfl := Except.ok.inj hfst
            obtain ⟨bytes, rfl, hbytes⟩ := (hbody tail a' rest).mp hrun
            exact ⟨bytes, rest, hbytes, rfl⟩
  · rintro ⟨bytes, rest, hbytes, rfl⟩
    rw [deserialize, readBinaryHeader_write]
    show Prod.fst <$> body.run (bytes ++ rest) = _
    rw [(hbody _ a rest).mpr ⟨bytes, rfl, hbytes⟩]
    rfl

/-! ## What the writers write -/

/-- How the hash is written. -/
def hashBytes : Option UInt64 → Str
  | some hash => 1 :: encodeU64Le hash
  | none => [0]

theorem writeMetadata_eq (metadata : FileMetadata) :
    writeMetadata metadata = metadataFields metadata ++ hashBytes metadata.contentHash := by
  cases hcontent : metadata.contentHash with
  | none => simp only [writeMetadata, metadataFields, hashBytes, hcontent, List.append_assoc]
  | some hash => simp only [writeMetadata, metadataFields, hashBytes, hcontent, List.append_assoc]

theorem spells_writeMetadata {metadata : FileMetadata} {bytes : Str} :
    SpellsMetadata Written metadata bytes ↔ bytes = writeMetadata metadata := by
  rw [writeMetadata_eq]
  constructor
  · rintro ⟨flag, hash, hflag, hhash, rfl⟩
    rw [List.append_cancel_left_eq]
    cases hcontent : metadata.contentHash with
    | none =>
        rw [hcontent] at hhash
        obtain ⟨rfl, rfl⟩ := hhash
        rfl
    | some value =>
        rw [hcontent] at hhash
        obtain ⟨hne, rfl⟩ := hhash
        have hone : flag = 1 := by
          have hle := UInt8.le_iff_toNat_le.mp hflag
          have hpos : flag.toNat ≠ 0 := fun h => hne (UInt8.toNat_inj.mp h)
          exact UInt8.toNat_inj.mp (by simp at hle ⊢; omega)
        rw [hone]
        rfl
  · rintro rfl
    cases hcontent : metadata.contentHash with
    | none =>
        exact ⟨0, [], by show (0 : UInt8) ≤ 1; decide, by rw [hcontent]; exact ⟨rfl, rfl⟩, rfl⟩
    | some value =>
        exact ⟨1, encodeU64Le value, le_refl (1 : UInt8), by rw [hcontent]; exact ⟨by decide, rfl⟩,
          rfl⟩

theorem spells_writeEntry (entry : FileEntry) (bytes : Str) :
    SpellsEntry Written entry bytes ↔ writeEntry entry = .ok bytes := by
  rw [writeEntry, except_bind_ok]
  constructor
  · rintro ⟨path, name, metadata, hpath, hname, hmetadata, rfl⟩
    obtain rfl := spells_writeMetadata.mp hmetadata
    refine ⟨path, hpath, except_bind_ok.mpr ⟨name, hname, ?_⟩⟩
    simp only [List.append_assoc]
    rfl
  · rintro ⟨path, hpath, h⟩
    obtain ⟨name, hname, h⟩ := except_bind_ok.mp h
    obtain rfl := Except.ok.inj h
    refine ⟨path, name, _, hpath, hname, spells_writeMetadata.mpr rfl, ?_⟩
    simp only [List.append_assoc]
    rfl

theorem spells_writeModified (modified : ModifiedEntry) (bytes : Str) :
    SpellsModified Written modified bytes ↔ bytes = writeModified modified := by
  rw [writeModified, List.append_assoc]
  constructor
  · rintro ⟨before, after, hbefore, hafter, rfl⟩
    rw [spells_writeMetadata.mp hbefore, spells_writeMetadata.mp hafter]
  · rintro rfl
    exact ⟨_, _, spells_writeMetadata.mpr rfl, spells_writeMetadata.mpr rfl, rfl⟩

theorem spells_writeRenamed (renamed : RenamedEntry) (bytes : Str) :
    SpellsRenamed renamed bytes ↔ writeRenamed renamed = .ok bytes := by
  rw [writeRenamed, except_bind_ok]
  constructor
  · rintro ⟨oldPath, newPath, hold, hnew, rfl⟩
    refine ⟨oldPath, hold, except_bind_ok.mpr ⟨newPath, hnew, ?_⟩⟩
    simp only [List.append_assoc]
    rfl
  · rintro ⟨oldPath, hold, h⟩
    obtain ⟨newPath, hnew, h⟩ := except_bind_ok.mp h
    obtain rfl := Except.ok.inj h
    exact ⟨oldPath, newPath, hold, hnew, by simp only [List.append_assoc]⟩

theorem spells_writeAll {α : Type} {spells : α → Str → Prop} {write : α → Writer}
    (hwrite : ∀ a bytes, spells a bytes ↔ write a = .ok bytes) :
    ∀ {l : List α} {bytes : Str}, SpellsAll spells l bytes ↔ writeAll write l = .ok bytes
  | [], bytes => by
      rw [SpellsAll, writeAll, eq_comm, Except.ok.injEq]
  | a :: l, bytes => by
      rw [SpellsAll, writeAll, except_bind_ok]
      constructor
      · rintro ⟨head, tail, hhead, htail, rfl⟩
        exact ⟨head, (hwrite _ _).mp hhead,
          except_bind_ok.mpr ⟨tail, (spells_writeAll hwrite).mp htail, rfl⟩⟩
      · rintro ⟨head, hhead, h⟩
        obtain ⟨tail, htail, h⟩ := except_bind_ok.mp h
        exact ⟨head, tail, (hwrite _ _).mpr hhead, (spells_writeAll hwrite).mpr htail,
          (Except.ok.inj h).symm⟩

theorem spells_flatMap {α : Type} {spells : α → Str → Prop} {write : α → Str}
    (hwrite : ∀ a bytes, spells a bytes ↔ bytes = write a) :
    ∀ {l : List α} {bytes : Str}, SpellsAll spells l bytes ↔ bytes = l.flatMap write
  | [], bytes => Iff.rfl
  | a :: l, bytes => by
      rw [SpellsAll, List.flatMap_cons]
      constructor
      · rintro ⟨head, tail, hhead, htail, rfl⟩
        rw [(hwrite _ _).mp hhead, (spells_flatMap hwrite).mp htail]
      · rintro rfl
        exact ⟨_, _, (hwrite _ _).mpr rfl, (spells_flatMap hwrite).mpr rfl, rfl⟩

theorem spells_serializeSnapshot {snapshot : Snapshot} {input : Str} :
    serializeSnapshotBinary snapshot = .ok input ↔
      ∃ bytes, SpellsSnapshot Written snapshot bytes ∧
        input = writeBinaryHeader kSnapshotMagic ++ bytes := by
  rw [serializeSnapshotBinary_ok]
  constructor
  · rintro ⟨hle, host, entries, hhost, hentries, rfl⟩
    exact ⟨_, ⟨hle, host, entries, hhost, (spells_writeAll spells_writeEntry).mpr hentries, rfl⟩,
      by simp only [List.append_assoc]⟩
  · rintro ⟨_, ⟨hle, host, entries, hhost, hentries, rfl⟩, rfl⟩
    exact ⟨hle, host, entries, hhost, (spells_writeAll spells_writeEntry).mp hentries,
      by simp only [List.append_assoc]⟩

theorem spells_serializeDelta {delta : DeltaSnapshot} {input : Str} :
    serializeDeltaBinary delta = .ok input ↔
      ∃ bytes, SpellsDelta Written delta bytes ∧
        input = writeBinaryHeader kDeltaMagic ++ bytes := by
  rw [serializeDeltaBinary_ok]
  constructor
  · rintro ⟨hle, added, removed, renamed, hadded, hremoved, hrenamed, rfl⟩
    exact ⟨_, ⟨hle, added, removed, _, renamed, (spells_writeAll spells_writeEntry).mpr hadded,
      (spells_writeAll spells_writeEntry).mpr hremoved, (spells_flatMap spells_writeModified).mpr rfl,
      (spells_writeAll spells_writeRenamed).mpr hrenamed, rfl⟩, by simp only [List.append_assoc]⟩
  · rintro ⟨_, ⟨hle, added, removed, modified, renamed, hadded, hremoved, hmodified, hrenamed, rfl⟩,
      rfl⟩
    obtain rfl := (spells_flatMap spells_writeModified).mp hmodified
    exact ⟨hle, added, removed, renamed, (spells_writeAll spells_writeEntry).mp hadded,
      (spells_writeAll spells_writeEntry).mp hremoved,
      (spells_writeAll spells_writeRenamed).mp hrenamed, by simp only [List.append_assoc]⟩

/-! ## Exactness -/

/-- A deserializer and a serializer of one layout: what is accepted is written back
exactly where an accepted input is canonical. -/
theorem deserialize_exact {α : Type} {magic : UInt32} {message : String} {body : Reader α}
    {serialize : α → Writer} {spells : (UInt8 → Prop) → α → Str → Prop}
    (hbody : Parses body (spells Any))
    (hserialize : ∀ {a input}, serialize a = .ok input ↔
      ∃ bytes, spells Written a bytes ∧ input = writeBinaryHeader magic ++ bytes)
    (hany : ∀ {a bytes}, spells Written a bytes → spells Any a bytes) (input : Str) :
    (∀ a, deserialize magic message body input = .ok a → serialize a = .ok input) ↔
      (Accepted magic spells input → Canonical magic spells input) := by
  constructor
  · rintro h ⟨a, bytes, rest, hbytes, rfl⟩
    obtain ⟨bytes', hbytes', heq⟩ :=
      hserialize.mp (h a ((deserialize_eq hbody).mpr ⟨bytes, rest, hbytes, rfl⟩))
    exact ⟨a, bytes', hbytes', heq⟩
  · intro h a hread
    obtain ⟨bytes, rest, hbytes, hinput⟩ := (deserialize_eq hbody).mp hread
    obtain ⟨a', bytes', hbytes', rfl⟩ := h ⟨a, bytes, rest, hbytes, hinput⟩
    have hread' : deserialize magic message body (writeBinaryHeader magic ++ bytes') = .ok a' :=
      (deserialize_eq hbody).mpr ⟨bytes', [], hany hbytes', by rw [List.append_nil]⟩
    rw [hread'] at hread
    obtain rfl := Except.ok.inj hread
    exact hserialize.mpr ⟨bytes', hbytes', rfl⟩

theorem SpellsMetadata.any {metadata : FileMetadata} {bytes : Str}
    (h : SpellsMetadata Written metadata bytes) : SpellsMetadata Any metadata bytes := by
  obtain ⟨flag, hash, -, hhash, hbytes⟩ := h
  exact ⟨flag, hash, trivial, hhash, hbytes⟩

theorem SpellsEntry.any {entry : FileEntry} {bytes : Str} (h : SpellsEntry Written entry bytes) :
    SpellsEntry Any entry bytes := by
  obtain ⟨path, name, metadata, hpath, hname, hmetadata, hbytes⟩ := h
  exact ⟨path, name, metadata, hpath, hname, hmetadata.any, hbytes⟩

theorem SpellsModified.any {modified : ModifiedEntry} {bytes : Str}
    (h : SpellsModified Written modified bytes) : SpellsModified Any modified bytes := by
  obtain ⟨before, after, hbefore, hafter, hbytes⟩ := h
  exact ⟨before, after, hbefore.any, hafter.any, hbytes⟩

theorem SpellsAll.imp {α : Type} {spells spells' : α → Str → Prop}
    (h : ∀ {a bytes}, spells a bytes → spells' a bytes) :
    ∀ {l : List α} {bytes : Str}, SpellsAll spells l bytes → SpellsAll spells' l bytes
  | [], _, hl => hl
  | _ :: _, _, ⟨head, tail, hhead, htail, hbytes⟩ => ⟨head, tail, h hhead, htail.imp h, hbytes⟩

theorem SpellsSnapshot.any {snapshot : Snapshot} {bytes : Str}
    (h : SpellsSnapshot Written snapshot bytes) : SpellsSnapshot Any snapshot bytes := by
  obtain ⟨hle, host, entries, hhost, hentries, hbytes⟩ := h
  exact ⟨hle, host, entries, hhost, hentries.imp SpellsEntry.any, hbytes⟩

theorem SpellsDelta.any {delta : DeltaSnapshot} {bytes : Str}
    (h : SpellsDelta Written delta bytes) : SpellsDelta Any delta bytes := by
  obtain ⟨hle, added, removed, modified, renamed, hadded, hremoved, hmodified, hrenamed,
    hbytes⟩ := h
  exact ⟨hle, added, removed, modified, renamed, hadded.imp SpellsEntry.any,
    hremoved.imp SpellsEntry.any, hmodified.imp SpellsModified.any, hrenamed, hbytes⟩

/-- What is read is written back exactly where an accepted payload is canonical. -/
theorem deserializeBinary_exact (input : Str) :
    ((∀ snapshot, deserializeSnapshotBinary input = .ok snapshot →
        serializeSnapshotBinary snapshot = .ok input) ↔
      (Accepted kSnapshotMagic SpellsSnapshot input →
        Canonical kSnapshotMagic SpellsSnapshot input)) ∧
    ((∀ delta, deserializeDeltaBinary input = .ok delta →
        serializeDeltaBinary delta = .ok input) ↔
      (Accepted kDeltaMagic SpellsDelta input → Canonical kDeltaMagic SpellsDelta input)) :=
  ⟨deserialize_exact parses_snapshot spells_serializeSnapshot SpellsSnapshot.any input,
    deserialize_exact parses_delta spells_serializeDelta SpellsDelta.any input⟩

/-- A snapshot without entries, and one byte behind it. -/
theorem deserializeBinary_trailing : ¬∀ (input : Str) (snapshot : Snapshot),
    deserializeSnapshotBinary input = .ok snapshot →
      serializeSnapshotBinary snapshot = .ok input := by
  intro h
  have hread : deserializeSnapshotBinary ([0x50, 0x4E, 0x53, 0x48, 1, 0, 0, 0] ++
      [1, 0, 0, 0, 0, 0, 1, 0] ++ List.replicate 32 0 ++ [7]) = .ok {} := by rfl
  exact absurd (Except.ok.inj (h _ _ hread)) (by decide)

end ServerStorage.Muninn.Serialization
