/-
# `ServerStorage.Muninn.CodecSpec` — the binary codec, there and back

Writing fails exactly beyond a limit, and what was written is read back field by field:
one `Reads` lemma for each writer, in the order of the format.
-/
import ServerStorage.Muninn.Serialization
import ServerStorage.Lib.Codec
import ServerStorage.Lib.Lmdb

namespace ServerStorage.Muninn.Serialization

open Lib Lmdb

/-! ## Fixed-width fields -/

theorem reads_bytes (bytes : Str) : Reads (readBytes bytes.length) bytes bytes := by
  intro rest
  show readBytes bytes.length (bytes ++ rest) = _
  rw [readBytes, if_neg (by simp), List.take_left, List.drop_left]

theorem reads_u8 (v : UInt8) : Reads readU8 [v] v := (reads_bytes [v]).map fun b => b.headD 0

theorem reads_u16 (v : UInt16) : Reads readU16 (encodeU16Le v) v :=
  ((reads_bytes (encodeU16Le v)).map decodeU16Le).of_eq rfl (decodeU16Le_encodeU16Le v).symm

theorem reads_u32 (v : UInt32) : Reads readU32 (encodeU32Le v) v :=
  ((reads_bytes (encodeU32Le v)).map decodeU32Le).of_eq rfl (decodeU32Le_encodeU32Le v).symm

theorem reads_u64 (v : UInt64) : Reads readU64 (encodeU64Le v) v :=
  ((reads_bytes (encodeU64Le v)).map decodeU64Le).of_eq rfl (decodeU64Le_encodeU64Le v).symm

theorem reads_i64 (v : Int64) : Reads readI64 (writeI64 v) v :=
  (reads_u64 v.toUInt64).map UInt64.toInt64

theorem toNat_length {n : Nat} (h : n < 2 ^ 32) : n.toUInt32.toNat = n :=
  Nat.mod_eq_of_lt h

/-! ## Strings -/

theorem writeString_ok {s bytes : Str} (h : writeString s = .ok bytes) :
    s.length ≤ kMaxStringLength ∧ bytes = encodeU32Le s.length.toUInt32 ++ s := by
  rw [writeString] at h
  split at h
  · exact absurd h (by simp)
  next hle => exact ⟨not_lt.mp hle, (Except.ok.inj h).symm⟩

theorem reads_string {s bytes : Str} (h : writeString s = .ok bytes) : Reads readString bytes s := by
  obtain ⟨hle, rfl⟩ := writeString_ok h
  have hlen : s.length.toUInt32.toNat = s.length :=
    toNat_length (lt_of_le_of_lt hle (by decide))
  refine (reads_u32 _).bind ?_
  rw [if_neg (by rw [hlen]; exact not_lt.mpr hle), hlen]
  exact reads_bytes s

/-! ## Records -/

theorem reads_schema (schema : SchemaHeader) : Reads readSchema (writeSchema schema) schema := by
  rw [writeSchema, List.append_assoc, List.append_assoc]
  exact (reads_u16 _).bind ((reads_u16 _).bind ((reads_u16 _).bind ((reads_u16 _).map _)))

theorem reads_metadata (metadata : FileMetadata) :
    Reads readMetadata (writeMetadata metadata) metadata := by
  simp only [writeMetadata, List.append_assoc]
  refine (reads_u64 _).bind ((reads_i64 _).bind ((reads_i64 _).bind ((reads_i64 _).bind
    ((reads_u32 _).bind ((reads_u64 _).bind ((reads_u64 _).bind ?_))))))
  obtain ⟨_, _, _, _, _, _, _, hash⟩ := metadata
  cases hash with
  | none => exact (reads_u8 0).bind (.pure _)
  | some hash => exact (reads_u8 1).bind (((reads_u64 hash).fmap some).map _)

theorem reads_entry {entry : FileEntry} {bytes : Str} (h : writeEntry entry = .ok bytes) :
    Reads readEntry bytes entry := by
  obtain ⟨path, hpath, h⟩ := except_bind_ok.mp h
  obtain ⟨name, hname, h⟩ := except_bind_ok.mp h
  obtain rfl := Except.ok.inj h
  simp only [List.append_assoc]
  exact (reads_u64 _).bind ((reads_u64 _).bind ((reads_string hpath).bind
    ((reads_string hname).bind ((reads_u8 _).bind ((reads_metadata _).map _)))))

theorem reads_modified (modified : ModifiedEntry) :
    Reads readModified (writeModified modified) modified := by
  simp only [writeModified, List.append_assoc]
  exact (reads_u64 _).bind ((reads_metadata _).bind ((reads_metadata _).map _))

theorem reads_renamed {renamed : RenamedEntry} {bytes : Str}
    (h : writeRenamed renamed = .ok bytes) : Reads readRenamed bytes renamed := by
  obtain ⟨oldPath, hold, h⟩ := except_bind_ok.mp h
  obtain ⟨newPath, hnew, h⟩ := except_bind_ok.mp h
  obtain rfl := Except.ok.inj h
  simp only [List.append_assoc]
  exact (reads_u64 _).bind ((reads_u64 _).bind ((reads_string hold).bind
    ((reads_string hnew).map _)))

/-! ## Lists -/

section
variable {α : Type} {read : Reader α}

theorem reads_all {write : α → Writer} (hread : ∀ {a bytes}, write a = .ok bytes → Reads read bytes a) :
    ∀ {l : List α} {bytes : Str}, writeAll write l = .ok bytes →
      Reads (readMany read l.length) bytes l
  | [], bytes, h => by
      obtain rfl := Except.ok.inj h
      exact .pure _
  | a :: l, bytes, h => by
      obtain ⟨head, hhead, h⟩ := except_bind_ok.mp h
      obtain ⟨tail, htail, h⟩ := except_bind_ok.mp h
      obtain rfl := Except.ok.inj h
      exact (hread hhead).bind ((reads_all hread htail).map _)

theorem reads_flatMap {write : α → Str} (hread : ∀ a, Reads read (write a) a) :
    ∀ l : List α, Reads (readMany read l.length) (l.flatMap write) l
  | [] => .pure _
  | a :: l => (hread a).bind ((reads_flatMap hread l).map _)

end

/-! ## Whole values -/

theorem readBinaryHeader_write (magic : UInt32) (rest : Str) :
    readBinaryHeader magic (writeBinaryHeader magic ++ rest) = some rest := by
  have h : Reads (do
      let m ← readU32
      let formatMajor ← readU16
      let formatMinor ← readU16
      return m == magic && formatMajor == kBinaryFormatMajor &&
        formatMinor == kBinaryFormatMinor : Reader Bool) (writeBinaryHeader magic) true := by
    rw [writeBinaryHeader, List.append_assoc]
    refine ((reads_u32 magic).bind ((reads_u16 kBinaryFormatMajor).bind
      ((reads_u16 kBinaryFormatMinor).map _))).of_eq rfl ?_
    simp
  rw [readBinaryHeader, h rest]

theorem deserialize_ok {α : Type} {magic : UInt32} {message : String} {body : Reader α}
    {bytes : Str} {a : α} (h : Reads body bytes a) :
    deserialize magic message body (writeBinaryHeader magic ++ bytes) = .ok a := by
  have hbody : body.run bytes = .ok (a, []) := by
    have h' := h []
    rwa [List.append_nil] at h'
  rw [deserialize, readBinaryHeader_write]
  show Prod.fst <$> body.run bytes = _
  rw [hbody]
  rfl

theorem reads_snapshot {snapshot : Snapshot} {host entries : Str}
    (hle : snapshot.entries.length ≤ kMaxBinaryEntries)
    (hhost : writeString snapshot.hostIdentifier = .ok host)
    (hentries : writeAll writeEntry snapshot.entries = .ok entries) :
    Reads snapshotBody (writeSchema snapshot.schema ++ (encodeU64Le snapshot.snapshotId ++
      (writeI64 snapshot.createdAt ++ (host ++ (encodeU64Le snapshot.rootEntryId ++
      (encodeU32Le snapshot.entries.length.toUInt32 ++ entries)))))) snapshot := by
  have hlen : snapshot.entries.length.toUInt32.toNat = snapshot.entries.length :=
    toNat_length (lt_of_le_of_lt hle (by decide))
  refine (reads_schema _).bind ((reads_u64 _).bind ((reads_i64 _).bind ((reads_string hhost).bind
    ((reads_u64 _).bind ((reads_u32 _).bind ?_)))))
  rw [hlen, if_neg (not_lt.mpr hle)]
  exact (reads_all reads_entry hentries).map _

theorem reads_delta {delta : DeltaSnapshot} {added removed renamed : Str}
    (hlengths : delta.addedEntries.length ≤ kMaxBinaryEntries ∧
      delta.removedEntries.length ≤ kMaxBinaryEntries ∧
      delta.modifiedEntries.length ≤ kMaxBinaryEntries ∧
      delta.renamedEntries.length ≤ kMaxBinaryEntries)
    (hadded : writeAll writeEntry delta.addedEntries = .ok added)
    (hremoved : writeAll writeEntry delta.removedEntries = .ok removed)
    (hrenamed : writeAll writeRenamed delta.renamedEntries = .ok renamed) :
    Reads deltaBody (writeSchema delta.schema ++ (encodeU64Le delta.baseSnapshotId ++
      (encodeU64Le delta.targetSnapshotId ++ (encodeU32Le delta.addedEntries.length.toUInt32 ++
      (encodeU32Le delta.removedEntries.length.toUInt32 ++
      (encodeU32Le delta.modifiedEntries.length.toUInt32 ++
      (encodeU32Le delta.renamedEntries.length.toUInt32 ++ (added ++ (removed ++
      (delta.modifiedEntries.flatMap writeModified ++ renamed)))))))))) delta := by
  have hlen : ∀ {n : Nat}, n ≤ kMaxBinaryEntries → n.toUInt32.toNat = n := fun h =>
    toNat_length (lt_of_le_of_lt h (by decide))
  obtain ⟨ha, hr, hm, hn⟩ := hlengths
  refine (reads_schema _).bind ((reads_u64 _).bind ((reads_u64 _).bind ((reads_u32 _).bind
    ((reads_u32 _).bind ((reads_u32 _).bind ((reads_u32 _).bind ?_))))))
  rw [hlen ha, hlen hr, hlen hm, hlen hn, if_neg (by simp [ha, hr, hm, hn])]
  exact (reads_all reads_entry hadded).bind ((reads_all reads_entry hremoved).bind
    ((reads_flatMap reads_modified _).bind ((reads_all reads_renamed hrenamed).map _)))

/-! ## What can be written -/


theorem serializeSnapshotBinary_ok {snapshot : Snapshot} {bytes : Str} :
    serializeSnapshotBinary snapshot = .ok bytes ↔
      snapshot.entries.length ≤ kMaxBinaryEntries ∧
      ∃ host entries, writeString snapshot.hostIdentifier = .ok host ∧
        writeAll writeEntry snapshot.entries = .ok entries ∧
        bytes = (writeBinaryHeader kSnapshotMagic ++ writeSchema snapshot.schema ++
          encodeU64Le snapshot.snapshotId ++ writeI64 snapshot.createdAt ++ host ++
          encodeU64Le snapshot.rootEntryId) ++
          encodeU32Le snapshot.entries.length.toUInt32 ++ entries := by
  rw [serializeSnapshotBinary]
  constructor
  · intro h
    obtain ⟨host, hhost, h⟩ := except_bind_ok.mp h
    by_cases hle : kMaxBinaryEntries < snapshot.entries.length
    · rw [if_pos hle] at h
      cases h
    · rw [if_neg hle] at h
      obtain ⟨entries, hentries, h⟩ := except_bind_ok.mp h
      exact ⟨not_lt.mp hle, host, entries, hhost, hentries, (Except.ok.inj h).symm⟩
  · rintro ⟨hle, host, entries, hhost, hentries, rfl⟩
    rw [hhost]
    show (if _ then _ else _) = _
    rw [if_neg (not_lt.mpr hle), hentries]
    rfl

theorem serializeDeltaBinary_ok {delta : DeltaSnapshot} {bytes : Str} :
    serializeDeltaBinary delta = .ok bytes ↔
      (delta.addedEntries.length ≤ kMaxBinaryEntries ∧
        delta.removedEntries.length ≤ kMaxBinaryEntries ∧
        delta.modifiedEntries.length ≤ kMaxBinaryEntries ∧
        delta.renamedEntries.length ≤ kMaxBinaryEntries) ∧
      ∃ added removed renamed, writeAll writeEntry delta.addedEntries = .ok added ∧
        writeAll writeEntry delta.removedEntries = .ok removed ∧
        writeAll writeRenamed delta.renamedEntries = .ok renamed ∧
        bytes = (writeBinaryHeader kDeltaMagic ++ writeSchema delta.schema ++
          encodeU64Le delta.baseSnapshotId ++ encodeU64Le delta.targetSnapshotId) ++
          encodeU32Le delta.addedEntries.length.toUInt32 ++
          encodeU32Le delta.removedEntries.length.toUInt32 ++
          encodeU32Le delta.modifiedEntries.length.toUInt32 ++
          encodeU32Le delta.renamedEntries.length.toUInt32 ++ added ++ removed ++
          delta.modifiedEntries.flatMap writeModified ++ renamed := by
  have hbounds : (kMaxBinaryEntries < delta.addedEntries.length ||
      kMaxBinaryEntries < delta.removedEntries.length ||
      kMaxBinaryEntries < delta.modifiedEntries.length ||
      kMaxBinaryEntries < delta.renamedEntries.length) = true ↔
      ¬(delta.addedEntries.length ≤ kMaxBinaryEntries ∧
        delta.removedEntries.length ≤ kMaxBinaryEntries ∧
        delta.modifiedEntries.length ≤ kMaxBinaryEntries ∧
        delta.renamedEntries.length ≤ kMaxBinaryEntries) := by
    simp only [Bool.or_eq_true, decide_eq_true_eq]
    omega
  rw [serializeDeltaBinary]
  constructor
  · intro h
    split at h
    · cases h
    next hle =>
      obtain ⟨added, hadded, h⟩ := except_bind_ok.mp h
      obtain ⟨removed, hremoved, h⟩ := except_bind_ok.mp h
      obtain ⟨renamed, hrenamed, h⟩ := except_bind_ok.mp h
      exact ⟨not_not.mp (mt hbounds.mpr hle), added, removed, renamed, hadded, hremoved, hrenamed,
        (Except.ok.inj h).symm⟩
  · rintro ⟨hle, added, removed, renamed, hadded, hremoved, hrenamed, rfl⟩
    rw [if_neg (mt hbounds.mp (not_not.mpr hle)), hadded, hremoved, hrenamed]
    rfl

theorem deserializeSnapshotBinary_serialize {snapshot : Snapshot} {bytes : Str}
    (h : serializeSnapshotBinary snapshot = .ok bytes) :
    deserializeSnapshotBinary bytes = .ok snapshot := by
  obtain ⟨hle, host, entries, hhost, hentries, rfl⟩ := serializeSnapshotBinary_ok.mp h
  simp only [List.append_assoc]
  exact deserialize_ok (reads_snapshot hle hhost hentries)

theorem deserializeDeltaBinary_serialize {delta : DeltaSnapshot} {bytes : Str}
    (h : serializeDeltaBinary delta = .ok bytes) : deserializeDeltaBinary bytes = .ok delta := by
  obtain ⟨hle, added, removed, renamed, hadded, hremoved, hrenamed, rfl⟩ :=
    serializeDeltaBinary_ok.mp h
  simp only [List.append_assoc]
  exact deserialize_ok (reads_delta hle hadded hremoved hrenamed)

/-! ## The exact failure set -/

def entryStrings (entry : FileEntry) : List Str := [entry.normalizedPath, entry.name]

def renamedStrings (renamed : RenamedEntry) : List Str := [renamed.oldPath, renamed.newPath]

def snapshotStrings (snapshot : Snapshot) : List Str :=
  snapshot.hostIdentifier :: snapshot.entries.flatMap entryStrings

def deltaStrings (delta : DeltaSnapshot) : List Str :=
  delta.addedEntries.flatMap entryStrings ++ delta.removedEntries.flatMap entryStrings ++
    delta.renamedEntries.flatMap renamedStrings

def deltaCounts (delta : DeltaSnapshot) : List Nat :=
  [delta.addedEntries.length, delta.removedEntries.length, delta.modifiedEntries.length,
    delta.renamedEntries.length]

/-- Some string is longer than its limit, or some list has more elements than its limit. -/
def BeyondLimits (strings : List Str) (counts : List Nat) : Prop :=
  (∃ s ∈ strings, kMaxStringLength < s.length) ∨ ∃ n ∈ counts, kMaxBinaryEntries < n

/-- Every string the writer meets is within its limit. -/
def StringsFit (strings : List Str) : Prop := ∀ s ∈ strings, s.length ≤ kMaxStringLength

theorem not_beyondLimits {strings : List Str} {counts : List Nat} :
    ¬BeyondLimits strings counts ↔
      StringsFit strings ∧ ∀ n ∈ counts, n ≤ kMaxBinaryEntries := by
  simp only [BeyondLimits, StringsFit, not_or, not_exists, not_and, not_lt]

theorem stringsFit_cons {s : Str} {strings : List Str} :
    StringsFit (s :: strings) ↔ s.length ≤ kMaxStringLength ∧ StringsFit strings :=
  List.forall_mem_cons

theorem stringsFit_append {strings strings' : List Str} :
    StringsFit (strings ++ strings') ↔ StringsFit strings ∧ StringsFit strings' :=
  List.forall_mem_append

theorem stringsFit_flatMap {α : Type} {f : α → List Str} {l : List α} :
    StringsFit (l.flatMap f) ↔ ∀ a ∈ l, StringsFit (f a) :=
  List.forall_mem_flatMap

theorem writeString_writes {s : Str} :
    (∃ bytes, writeString s = .ok bytes) ↔ s.length ≤ kMaxStringLength := by
  constructor
  · rintro ⟨bytes, h⟩
    exact (writeString_ok h).1
  · intro h
    exact ⟨_, if_neg (not_lt.mpr h)⟩

/-- A record that writes two strings. -/
theorem writes_pair {s t : Str} {f : Str → Str → Str} :
    (∃ bytes, (do let a ← writeString s; let b ← writeString t; return f a b : Writer) =
      .ok bytes) ↔ StringsFit [s, t] := by
  rw [stringsFit_cons, stringsFit_cons, ← writeString_writes, ← writeString_writes]
  constructor
  · rintro ⟨bytes, h⟩
    obtain ⟨a, ha, h⟩ := except_bind_ok.mp h
    obtain ⟨b, hb, -⟩ := except_bind_ok.mp h
    exact ⟨⟨a, ha⟩, ⟨b, hb⟩, nofun⟩
  · rintro ⟨⟨a, ha⟩, ⟨b, hb⟩, -⟩
    exact ⟨_, except_bind_ok.mpr ⟨a, ha, except_bind_ok.mpr ⟨b, hb, rfl⟩⟩⟩

theorem writeEntry_writes {entry : FileEntry} :
    (∃ bytes, writeEntry entry = .ok bytes) ↔ StringsFit (entryStrings entry) :=
  writes_pair

theorem writeRenamed_writes {renamed : RenamedEntry} :
    (∃ bytes, writeRenamed renamed = .ok bytes) ↔ StringsFit (renamedStrings renamed) :=
  writes_pair

theorem writeAll_writes {α : Type} {write : α → Writer} :
    ∀ {l : List α}, (∃ bytes, writeAll write l = .ok bytes) ↔
      ∀ a ∈ l, ∃ bytes, write a = .ok bytes
  | [] => iff_of_true ⟨[], rfl⟩ nofun
  | a :: l => by
      rw [List.forall_mem_cons, ← writeAll_writes]
      constructor
      · rintro ⟨bytes, h⟩
        obtain ⟨head, hhead, h⟩ := except_bind_ok.mp h
        obtain ⟨tail, htail, -⟩ := except_bind_ok.mp h
        exact ⟨⟨head, hhead⟩, tail, htail⟩
      · rintro ⟨⟨head, hhead⟩, tail, htail⟩
        exact ⟨_, except_bind_ok.mpr ⟨head, hhead, except_bind_ok.mpr ⟨tail, htail, rfl⟩⟩⟩

theorem writeEntries_writes {l : List FileEntry} :
    (∃ bytes, writeAll writeEntry l = .ok bytes) ↔ StringsFit (l.flatMap entryStrings) := by
  rw [writeAll_writes, stringsFit_flatMap]
  exact forall₂_congr fun _ _ => writeEntry_writes

theorem writeRenameds_writes {l : List RenamedEntry} :
    (∃ bytes, writeAll writeRenamed l = .ok bytes) ↔ StringsFit (l.flatMap renamedStrings) := by
  rw [writeAll_writes, stringsFit_flatMap]
  exact forall₂_congr fun _ _ => writeRenamed_writes

theorem serializeSnapshotBinary_writes {snapshot : Snapshot} :
    (∃ bytes, serializeSnapshotBinary snapshot = .ok bytes) ↔
      ¬BeyondLimits (snapshotStrings snapshot) [snapshot.entries.length] := by
  rw [not_beyondLimits, snapshotStrings, stringsFit_cons, ← writeString_writes,
    ← writeEntries_writes, List.forall_mem_singleton]
  constructor
  · rintro ⟨bytes, h⟩
    obtain ⟨hle, host, entries, hhost, hentries, -⟩ := serializeSnapshotBinary_ok.mp h
    exact ⟨⟨⟨host, hhost⟩, entries, hentries⟩, hle⟩
  · rintro ⟨⟨⟨host, hhost⟩, entries, hentries⟩, hle⟩
    exact ⟨_, serializeSnapshotBinary_ok.mpr ⟨hle, host, entries, hhost, hentries, rfl⟩⟩

theorem serializeDeltaBinary_writes {delta : DeltaSnapshot} :
    (∃ bytes, serializeDeltaBinary delta = .ok bytes) ↔
      ¬BeyondLimits (deltaStrings delta) (deltaCounts delta) := by
  rw [not_beyondLimits, deltaStrings, stringsFit_append, stringsFit_append,
    ← writeEntries_writes, ← writeEntries_writes, ← writeRenameds_writes, deltaCounts,
    List.forall_mem_cons, List.forall_mem_cons, List.forall_mem_cons, List.forall_mem_singleton]
  constructor
  · rintro ⟨bytes, h⟩
    obtain ⟨hle, added, removed, renamed, hadded, hremoved, hrenamed, -⟩ :=
      serializeDeltaBinary_ok.mp h
    exact ⟨⟨⟨⟨added, hadded⟩, removed, hremoved⟩, renamed, hrenamed⟩, hle⟩
  · rintro ⟨⟨⟨⟨added, hadded⟩, removed, hremoved⟩, renamed, hrenamed⟩, hle⟩
    exact ⟨_, serializeDeltaBinary_ok.mpr
      ⟨hle, added, removed, renamed, hadded, hremoved, hrenamed, rfl⟩⟩

theorem except_error_iff {ε α : Type} {x : Except ε α} :
    (∃ e, x = .error e) ↔ ¬∃ a, x = .ok a := by
  cases x <;> simp

/-- Each serializer fails exactly beyond a limit, and is undone by its deserializer
wherever it succeeds. -/
theorem binary_round_trip :
    (∀ snapshot : Snapshot,
      let beyond := BeyondLimits (snapshotStrings snapshot) [snapshot.entries.length]
      ((∃ e, serializeSnapshotBinary snapshot = .error e) ↔ beyond) ∧
      ((∃ bytes, serializeSnapshotBinary snapshot = .ok bytes ∧
        deserializeSnapshotBinary bytes = .ok snapshot) ↔ ¬beyond)) ∧
    ∀ delta : DeltaSnapshot,
      let beyond := BeyondLimits (deltaStrings delta) (deltaCounts delta)
      ((∃ e, serializeDeltaBinary delta = .error e) ↔ beyond) ∧
      ((∃ bytes, serializeDeltaBinary delta = .ok bytes ∧
        deserializeDeltaBinary bytes = .ok delta) ↔ ¬beyond) := by
  constructor
  · intro snapshot beyond
    refine ⟨by rw [except_error_iff, serializeSnapshotBinary_writes, not_not], ?_⟩
    rw [← serializeSnapshotBinary_writes]
    exact exists_congr fun bytes => and_iff_left_of_imp deserializeSnapshotBinary_serialize
  · intro delta beyond
    refine ⟨by rw [except_error_iff, serializeDeltaBinary_writes, not_not], ?_⟩
    rw [← serializeDeltaBinary_writes]
    exact exists_congr fun bytes => and_iff_left_of_imp deserializeDeltaBinary_serialize

end ServerStorage.Muninn.Serialization
