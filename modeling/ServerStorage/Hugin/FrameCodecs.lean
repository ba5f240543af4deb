/-
# `ServerStorage.Hugin.FrameCodecs` — the two codecs of a transport frame

Muninn writes and reads a frame over eight-byte words of which it drops or fills the upper
half, Hugin over four-byte words.  The bytes are the same, and so is what is read from them:
Hugin's parser is Muninn's, followed by the check of the record type.
-/
import ServerStorage.Hugin.MuninnFrame
import ServerStorage.Muninn.StoreSpec

namespace ServerStorage.Hugin

open Lib ServerStorage.Muninn

/-! ## Sizes -/

theorem encodeSize_eq (size : Nat) : encodeSize size = encodeU32Be size.toUInt32 := by
  simp only [encodeSize, encodeU64Be, encodeU32Be, List.drop_succ_cons, List.drop_zero,
    List.cons.injEq, and_true]
  refine ⟨?_, ?_, ?_, ?_⟩ <;> apply UInt8.toNat_inj.mp <;> simp

theorem decodeSize_eq {bytes : Str} (h : bytes.length = 4) :
    decodeSize bytes = (decodeU32Be bytes).toNat := by
  rw [decodeSize, decodeU64Be_toNat (by simp [h]), decodeU32Be_toNat h]
  rfl

theorem decodeSize_take {raw : Str} {offset : Nat} (h : offset + 4 ≤ raw.length) :
    decodeSize ((raw.drop offset).take 4) = (decodeU32Be (raw.drop offset)).toNat := by
  have hlength : ((raw.drop offset).take 4).length = 4 := by
    rw [List.length_take, List.length_drop]
    omega
  rw [decodeSize_eq hlength]
  conv_rhs => rw [← List.take_append_drop 4 (raw.drop offset)]
  rw [decodeU32Be_append hlength]

theorem decodeU64Be_take {raw : Str} {offset : Nat} (h : offset + 8 ≤ raw.length) :
    decodeU64Be ((raw.drop offset).take 8) = decodeU64Be (raw.drop offset) := by
  have hlength : ((raw.drop offset).take 8).length = 8 := by
    rw [List.length_take, List.length_drop]
    omega
  conv_rhs => rw [← List.take_append_drop 8 (raw.drop offset)]
  rw [decodeU64Be_append hlength]

/-! ## The parsers -/

/-- What Hugin makes of a record that Muninn has read. -/
def muninnFrameOf (record : TransportRecord) : Option MuninnFrame :=
  (MuninnRecordType.ofByte record.type).map fun type =>
    { type, createdAtUnixSeconds := record.createdAt, routingKey := record.routingKey
      payload := record.payload }

theorem parseMuninnFrame_eq (raw : Str) (sequence : UInt64) :
    (parseMuninnFrame raw).toOption = (parseFrame sequence raw).toOption.bind muninnFrameOf := by
  rw [parseMuninnFrame, parseFrame]
  rcases Nat.lt_or_ge raw.length kMinFrameSize with hshort | hlong
  · rw [if_pos hshort, if_pos (show raw.length < 1 + 8 + 4 + 4 from hshort)]
    rfl
  rw [kMinFrameSize] at hlong
  have hcreated : readU64Be raw 1 = some (decodeU64Be (raw.drop 1), 9) := if_neg (by omega)
  have hroute : readU32Be raw 9 = some (decodeU32Be (raw.drop 9), 13) := if_neg (by omega)
  rw [if_neg (by rw [kMinFrameSize]; omega), if_neg (by omega)]
  dsimp only
  rw [decodeSize_take (by omega), decodeU64Be_take (by omega), hcreated]
  dsimp only
  rw [hroute]
  dsimp only
  generalize (decodeU32Be (raw.drop 9)).toNat = routeSize
  cases htype : MuninnRecordType.ofByte (raw.headD 0) with
  | none =>
      -- Muninn reads the record, with a type that Hugin refuses
      dsimp only
      split
      · rfl
      · split
        · rfl
        · show none = muninnFrameOf _
          rw [muninnFrameOf, htype]
          rfl
  | some type =>
      dsimp only
      rcases Nat.lt_or_ge raw.length (13 + routeSize + 4) with hkey | hkey
      · rw [if_pos hkey, if_pos hkey]
        rfl
      have hsize : readU32Be raw (13 + routeSize) =
          some (decodeU32Be (raw.drop (13 + routeSize)), 13 + routeSize + 4) := if_neg (by omega)
      rw [if_neg (Nat.not_lt.mpr hkey), if_neg (Nat.not_lt.mpr hkey), decodeSize_take hkey, hsize]
      dsimp only
      generalize (decodeU32Be (raw.drop (13 + routeSize))).toNat = payloadSize
      by_cases hpayload : 13 + routeSize + 4 + payloadSize = raw.length
      · -- Hugin takes the rest of the frame, which is what the size says
        have hrest : (raw.drop (13 + routeSize + 4)).take payloadSize =
            raw.drop (13 + routeSize + 4) := by
          refine List.take_of_length_le ?_
          rw [List.length_drop]
          omega
        rw [if_neg (not_not_intro hpayload), if_neg (not_not_intro hpayload), hrest]
        show _ = muninnFrameOf _
        rw [muninnFrameOf, htype]
        rfl
      · rw [if_pos hpayload, if_pos hpayload]
        rfl

/-! ## Agreement -/

/-- The record type of Hugin's for one of Muninn's. -/
def recordTypeOf : TransportRecordType → MuninnRecordType
  | .snapshot => .snapshot
  | .delta => .delta

theorem serializeMuninnFrame_eq (type : TransportRecordType) (routingKey payload : Str)
    (createdAt : UInt64) :
    serializeMuninnFrame
        { type := recordTypeOf type, createdAtUnixSeconds := createdAt, routingKey, payload } =
      serializeFrame type routingKey payload createdAt := by
  rw [serializeMuninnFrame, serializeFrame, encodeSize_eq, encodeSize_eq]
  cases type <;> rfl

theorem toOption_eq_some {ε α : Type} {r : Except ε α} {a : α} :
    r.toOption = some a ↔ r = .ok a := by
  cases r with
  | error e =>
      constructor
      · intro h
        cases h
      · intro h
        cases h
  | ok b => exact ⟨fun h => congrArg Except.ok (Option.some.inj h),
      fun h => congrArg some (Except.ok.inj h)⟩

theorem ofByte_eq_some {value : UInt8} {type : MuninnRecordType} :
    MuninnRecordType.ofByte value = some type ↔ value = type.value := by
  rw [MuninnRecordType.ofByte]
  by_cases hsnapshot : value = 1
  · rw [if_pos hsnapshot, hsnapshot]
    cases type <;> decide
  · rw [if_neg hsnapshot]
    by_cases hdelta : value = 2
    · rw [if_pos hdelta, hdelta]
      cases type <;> decide
    · rw [if_neg hdelta]
      cases type with
      | snapshot => exact ⟨fun h => (nomatch h), fun h => absurd h hsnapshot⟩
      | delta => exact ⟨fun h => (nomatch h), fun h => absurd h hdelta⟩

/-- Hugin's frame and Muninn's record have the same fields. -/
structure SameFields (frame : MuninnFrame) (record : TransportRecord) : Prop where
  type : record.type = frame.type.value
  createdAt : record.createdAt = frame.createdAtUnixSeconds
  routingKey : record.routingKey = frame.routingKey
  payload : record.payload = frame.payload

theorem muninnFrameOf_eq_some {record : TransportRecord} {frame : MuninnFrame} :
    muninnFrameOf record = some frame ↔ SameFields frame record := by
  rw [muninnFrameOf, Option.map_eq_some_iff]
  constructor
  · rintro ⟨type, htype, rfl⟩
    exact ⟨ofByte_eq_some.mp htype, rfl, rfl, rfl⟩
  · rintro ⟨htype, hcreated, hkey, hpayload⟩
    exact ⟨frame.type, ofByte_eq_some.mpr htype, by rw [hcreated, hkey, hpayload]⟩

theorem parseMuninnFrame_eq_ok {raw : Str} (sequence : UInt64) {frame : MuninnFrame} :
    parseMuninnFrame raw = .ok frame ↔
      ∃ record, parseFrame sequence raw = .ok record ∧ SameFields frame record := by
  rw [← toOption_eq_some, parseMuninnFrame_eq raw sequence, Option.bind_eq_some_iff]
  constructor
  · rintro ⟨record, hread, hfields⟩
    exact ⟨record, toOption_eq_some.mp hread, muninnFrameOf_eq_some.mp hfields⟩
  · rintro ⟨record, hread, hfields⟩
    exact ⟨record, toOption_eq_some.mpr hread, muninnFrameOf_eq_some.mpr hfields⟩

/-- The two codecs agree: on the bytes they write, on what both read back from them, and, on
any bytes at all, on what is accepted and what is read, the record type apart, which only
Hugin checks. -/
theorem frameCodecs_agree (type : TransportRecordType) (routingKey payload : Str)
    (createdAt : UInt64) (hkey : routingKey.length < 2 ^ 32) (hpayload : payload.length < 2 ^ 32) :
    let frame : MuninnFrame :=
      { type := recordTypeOf type, createdAtUnixSeconds := createdAt, routingKey, payload }
    serializeFrame type routingKey payload createdAt = serializeMuninnFrame frame ∧
      (∀ sequence, parseFrame sequence (serializeFrame type routingKey payload createdAt) =
        .ok { sequence, createdAt, type := type.value, routingKey, payload }) ∧
      parseMuninnFrame (serializeMuninnFrame frame) = .ok frame ∧
      ∀ raw sequence,
        (∀ read, parseMuninnFrame raw = .ok read →
          ∃ record, parseFrame sequence raw = .ok record ∧ SameFields read record) ∧
        ∀ record, parseFrame sequence raw = .ok record →
          if record.type = 1 ∨ record.type = 2 then
            ∃ read, parseMuninnFrame raw = .ok read ∧ SameFields read record
          else ∃ status, parseMuninnFrame raw = .error status := by
  intro frame
  have hbytes := serializeMuninnFrame_eq type routingKey payload createdAt
  have hread : ∀ sequence, parseFrame sequence (serializeFrame type routingKey payload createdAt) =
      .ok { sequence, createdAt, type := type.value, routingKey, payload } :=
    fun sequence => parseFrame_serializeFrame_of_lt hkey hpayload
  refine ⟨hbytes.symm, hread, ?_, fun raw sequence =>
    ⟨fun read h => (parseMuninnFrame_eq_ok sequence).mp h, fun record h => ?_⟩⟩
  · rw [hbytes]
    refine (parseMuninnFrame_eq_ok 0).mpr ⟨_, hread 0, ?_, rfl, rfl, rfl⟩
    cases type <;> rfl
  · by_cases htype : record.type = 1 ∨ record.type = 2
    · rw [if_pos htype]
      obtain ⟨known, hknown⟩ : ∃ known : MuninnRecordType, record.type = known.value := by
        rcases htype with hone | htwo
        · exact ⟨.snapshot, hone⟩
        · exact ⟨.delta, htwo⟩
      have hfields : SameFields { type := known, createdAtUnixSeconds := record.createdAt
                                  routingKey := record.routingKey, payload := record.payload }
          record := ⟨hknown, rfl, rfl, rfl⟩
      exact ⟨_, (parseMuninnFrame_eq_ok sequence).mpr ⟨record, h, hfields⟩, hfields⟩
    · rw [if_neg htype]
      cases hparse : parseMuninnFrame raw with
      | error status => exact ⟨status, rfl⟩
      | ok read =>
          -- an accepted frame has one of the two types
          obtain ⟨record', h', hfields⟩ := (parseMuninnFrame_eq_ok sequence).mp hparse
          rw [h] at h'
          obtain rfl := Except.ok.inj h'
          refine absurd ?_ htype
          rw [hfields.type]
          cases read.type with
          | snapshot => exact .inl rfl
          | delta => exact .inr rfl

theorem frameCodecs_agree_snapshot :
    parseMuninnFrame (serializeFrame .snapshot (str "host") [1, 2] 5) =
      .ok { type := .snapshot, createdAtUnixSeconds := 5, routingKey := str "host"
            payload := [1, 2] } := by
  obtain ⟨hbytes, -, hread, -⟩ := frameCodecs_agree .snapshot (str "host") [1, 2] 5
    (by decide) (by decide)
  rw [hbytes]
  exact hread

end ServerStorage.Hugin
