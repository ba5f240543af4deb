/-
# `ServerStorage.Shared.CrudSpec` — the bridge's messages, there and back

Base64 undone by its decoder, and a reply with its records read back from the JSON it
was written to.
-/
import ServerStorage.Shared.CrudProtocol
import ServerStorage.Lib.Lmdb
import ServerStorage.Lib.Words

namespace ServerStorage.Crud

open Lib Lmdb

/-! ## Base64 -/

theorem base64Value_alphabet : ∀ n < 64, base64Value (base64Alphabet.getD n 0) = some n.toUInt32 := by
  decide +kernel

theorem alphabet_ne_pad : ∀ n < 64, base64Alphabet.getD n 0 ≠ base64Pad := by
  decide +kernel

theorem toNat_sextet (bits : UInt32) : (bits &&& 0x3F).toNat = bits.toNat % 64 := by
  rw [UInt32.toNat_and]
  exact Nat.and_two_pow_sub_one_eq_mod bits.toNat 6

theorem base64Value_char (bits : UInt32) : base64Value (base64Char bits) = some (bits &&& 0x3F) := by
  have hlt : (bits &&& 0x3F).toNat < 64 := by
    rw [toNat_sextet]
    exact Nat.mod_lt _ (by decide)
  rw [base64Char, base64Value_alphabet _ hlt]
  simp

theorem base64Char_ne_pad (bits : UInt32) : base64Char bits ≠ base64Pad := by
  refine alphabet_ne_pad _ ?_
  rw [toNat_sextet]
  exact Nat.mod_lt _ (by decide)

theorem base64PaddedValue_char (bits : UInt32) :
    base64PaddedValue (base64Char bits) = some (bits &&& 0x3F) := by
  rw [base64PaddedValue, if_neg (base64Char_ne_pad bits), base64Value_char]

theorem base64PaddedValue_pad : base64PaddedValue base64Pad = some 0 := if_pos rfl

/-- The four sextets of a chunk put it together again. -/
theorem sextets (chunk : UInt32) (h : chunk.toNat < 2 ^ 24) :
    (chunk >>> 18 &&& 0x3F) <<< 18 ||| (chunk >>> 12 &&& 0x3F) <<< 12 |||
      (chunk >>> 6 &&& 0x3F) <<< 6 ||| (chunk &&& 0x3F) = chunk := by
  apply UInt32.toNat_inj.mp
  have hshift : ∀ {bits k : UInt32}, k.toNat ≤ 18 →
      ((bits &&& 0x3F) <<< k).toNat = (bits.toNat % 64) * 2 ^ k.toNat := fun {bits k} hk => by
    have hmod : k.toNat % 32 = k.toNat := Nat.mod_eq_of_lt (by omega)
    have hpow : 2 ^ k.toNat ≤ 2 ^ 18 := Nat.pow_le_pow_right (by decide) hk
    have hlt : bits.toNat % 64 < 64 := Nat.mod_lt _ (by decide)
    rw [UInt32.toNat_shiftLeft, toNat_sextet, hmod, Nat.shiftLeft_eq, Nat.mod_eq_of_lt]
    calc bits.toNat % 64 * 2 ^ k.toNat ≤ 64 * 2 ^ 18 := Nat.mul_le_mul hlt.le hpow
      _ < 2 ^ 32 := by decide
  have hfield : ∀ x k : Nat, ∀ bits : UInt32,
      x * 2 ^ (k + 6) ||| bits.toNat % 64 * 2 ^ k = (x * 64 + bits.toNat % 64) * 2 ^ k :=
    fun x k bits => field_or x _ k (Nat.mod_lt _ (by decide))
  rw [UInt32.toNat_or, UInt32.toNat_or, UInt32.toNat_or, hshift (by decide), hshift (by decide),
    hshift (by decide), toNat_sextet]
  show (chunk >>> 18).toNat % 64 * 2 ^ (12 + 6) ||| (chunk >>> 12).toNat % 64 * 2 ^ (6 + 6) |||
    (chunk >>> 6).toNat % 64 * 2 ^ (0 + 6) ||| chunk.toNat % 64 = _
  rw [hfield, hfield, ← Nat.mul_one (chunk.toNat % 64), ← Nat.pow_zero 2, hfield]
  simp only [UInt32.toNat_shiftRight, Nat.shiftRight_eq_div_pow]
  simp only [show UInt32.toNat 18 % 32 = 18 from rfl, show UInt32.toNat 12 % 32 = 12 from rfl,
    show UInt32.toNat 6 % 32 = 6 from rfl]
  omega

/-- A chunk and the three bytes it is made of. -/
theorem toNat_chunk (a b c : UInt8) :
    (a.toUInt32 <<< 16 ||| b.toUInt32 <<< 8 ||| c.toUInt32).toNat =
      a.toNat * 65536 + b.toNat * 256 + c.toNat := by
  rw [UInt32.toNat_or, UInt32.toNat_or, UInt32.toNat_shiftLeft, UInt32.toNat_shiftLeft,
    UInt8.toNat_toUInt32, UInt8.toNat_toUInt32, UInt8.toNat_toUInt32]
  simp only [show UInt32.toNat 16 % 32 = 16 from rfl, show UInt32.toNat 8 % 32 = 8 from rfl]
  rw [byte_shift a (by norm_num), byte_shift b (by norm_num), shift_or _ _ 8 b.toNat_lt,
    ← Nat.mul_one c.toNat, ← Nat.pow_zero 2, shift_or _ _ 0 c.toNat_lt]
  omega

/-- The bytes of a chunk. -/
theorem chunk_bytes (chunk : UInt32) (a b c : UInt8)
    (h : chunk.toNat = a.toNat * 65536 + b.toNat * 256 + c.toNat) :
    (chunk >>> 16).toUInt8 = a ∧ (chunk >>> 8).toUInt8 = b ∧ chunk.toUInt8 = c := by
  have ha := a.toNat_lt
  have hb := b.toNat_lt
  have hc := c.toNat_lt
  refine ⟨UInt8.toNat_inj.mp ?_, UInt8.toNat_inj.mp ?_, UInt8.toNat_inj.mp ?_⟩
  all_goals
    simp [Nat.shiftRight_eq_div_pow, h]
    try omega

theorem base64Encode_length : ∀ bytes : Str, (base64Encode bytes).length % 4 = 0
  | [] => rfl
  | [_] => by simp [base64Encode]
  | [_, _] => by simp [base64Encode]
  | _ :: _ :: _ :: rest => by
      have ih := base64Encode_length rest
      simp only [base64Encode, List.length_cons]
      omega

/-- One group of four characters, decoded. -/
theorem base64DecodeLoop_group {c₀ c₁ c₂ c₃ : UInt8} {v₀ v₁ v₂ v₃ chunk : UInt32} {rest tail : Str}
    (h₀ : base64Value c₀ = some v₀) (h₁ : base64Value c₁ = some v₁)
    (h₂ : base64PaddedValue c₂ = some v₂) (h₃ : base64PaddedValue c₃ = some v₃)
    (hchunk : v₀ <<< 18 ||| v₁ <<< 12 ||| v₂ <<< 6 ||| v₃ = chunk)
    (hrest : base64DecodeLoop rest = some tail) :
    base64DecodeLoop (c₀ :: c₁ :: c₂ :: c₃ :: rest) =
      some ((chunk >>> 16).toUInt8 ::
        (if c₂ = base64Pad then [] else [(chunk >>> 8).toUInt8]) ++
        (if c₃ = base64Pad then [] else [chunk.toUInt8]) ++ tail) := by
  subst hchunk
  rw [base64DecodeLoop, h₀, h₁, h₂, h₃, hrest]
  rfl

theorem sextet_eq_zero (bits : UInt32) (h : bits.toNat % 64 = 0) : bits &&& 0x3F = 0 := by
  apply UInt32.toNat_inj.mp
  rw [toNat_sextet, h]
  rfl

theorem base64DecodeLoop_encode : ∀ bytes : Str, base64DecodeLoop (base64Encode bytes) = some bytes
  | [] => rfl
  | [a] => by
      have hnat : (a.toUInt32 <<< 16).toNat = a.toNat * 65536 := by
        simpa using toNat_chunk a 0 0
      have ha := a.toNat_lt
      have hsextets := sextets (a.toUInt32 <<< 16) (by omega)
      have hmiddle : (a.toUInt32 <<< 16 >>> 6).toNat = a.toNat * 1024 := by
        rw [UInt32.toNat_shiftRight, hnat, Nat.shiftRight_eq_div_pow]
        show a.toNat * 65536 / 64 = _
        omega
      rw [sextet_eq_zero (a.toUInt32 <<< 16) (by omega),
        sextet_eq_zero (a.toUInt32 <<< 16 >>> 6) (by omega)] at hsextets
      have hbyte := (chunk_bytes (a.toUInt32 <<< 16) a 0 0
        (by simpa using hnat)).1
      rw [base64Encode, base64DecodeLoop_group (base64Value_char _) (base64Value_char _)
        base64PaddedValue_pad base64PaddedValue_pad hsextets rfl, if_pos rfl, hbyte]
      rfl
  | [a, b] => by
      have hnat : (a.toUInt32 <<< 16 ||| b.toUInt32 <<< 8).toNat =
          a.toNat * 65536 + b.toNat * 256 := by
        simpa using toNat_chunk a b 0
      have ha := a.toNat_lt
      have hb := b.toNat_lt
      have hsextets := sextets (a.toUInt32 <<< 16 ||| b.toUInt32 <<< 8) (by omega)
      rw [sextet_eq_zero (a.toUInt32 <<< 16 ||| b.toUInt32 <<< 8) (by omega)] at hsextets
      obtain ⟨h₁, h₂, -⟩ := chunk_bytes (a.toUInt32 <<< 16 ||| b.toUInt32 <<< 8)
        a b 0 (by simpa using hnat)
      rw [base64Encode, base64DecodeLoop_group (base64Value_char _) (base64Value_char _)
        (base64PaddedValue_char _) base64PaddedValue_pad hsextets rfl,
        if_neg (base64Char_ne_pad _), if_pos rfl, h₁, h₂]
      rfl
  | a :: b :: c :: rest => by
      have hnat := toNat_chunk a b c
      obtain ⟨h₁, h₂, h₃⟩ := chunk_bytes _ a b c hnat
      have ha := a.toNat_lt
      have hb := b.toNat_lt
      have hc := c.toNat_lt
      rw [base64Encode, base64DecodeLoop_group (base64Value_char _) (base64Value_char _)
        (base64PaddedValue_char _) (base64PaddedValue_char _) (sextets _ (by omega))
        (base64DecodeLoop_encode rest), if_neg (base64Char_ne_pad _), if_neg (base64Char_ne_pad _),
        h₁, h₂, h₃]
      rfl

theorem base64Decode_encode (bytes : Str) : base64Decode (base64Encode bytes) = some bytes := by
  rw [base64Decode, if_neg (not_not.mpr (base64Encode_length bytes)), base64DecodeLoop_encode]

theorem base64Encode_eq_nil {bytes : Str} : base64Encode bytes = [] ↔ bytes = [] := by
  constructor
  · intro h
    have hdecode := base64Decode_encode bytes
    rw [h] at hdecode
    exact (Option.some.inj hdecode).symm
  · rintro rfl
    rfl

/-! ## Reading a message back -/

theorem find_cons_self (key : String) (v : Json) (fields : List (String × Json)) :
    (jsonObject ((key, v) :: fields)).find (str key) = some v := by
  show ((str key, v) :: _).lookup (str key) = _
  rw [List.lookup_cons_self]

theorem find_cons_of_ne {key key' : String} (h : str key ≠ str key') (v : Json)
    (fields : List (String × Json)) :
    (jsonObject ((key', v) :: fields)).find (str key) = (jsonObject fields).find (str key) := by
  show ((str key', v) :: _).lookup (str key) = _
  rw [List.lookup_cons, beq_eq_false_iff_ne.mpr h]
  rfl

/-- A field of an object that converts. -/
theorem value_of_find {α : Type} {get : Json → Option α} {json v : Json} {key : String}
    {default a : α} (hobject : json.isObject = true) (hfind : json.find (str key) = some v)
    (hget : get v = some a) : json.value get key default = .ok a := by
  rw [Json.value, hobject, hfind]
  dsimp only
  rw [hget]
  rfl

theorem getString_string (s : Str) : Json.getString (.string s) = some s := rfl

theorem getBoolean_boolean (b : Bool) : Json.getBoolean (.boolean b) = some b := rfl

theorem toNat_mod {n m : Nat} (h : n < m) : ((n : Int) % (m : Int)).toNat = n := by
  rw [Int.emod_eq_of_lt (by omega) (by omega), Int.toNat_natCast]

theorem getU64_unsigned (v : UInt64) : Json.getU64 (unsigned v) = some v := by
  show some (UInt64.ofNat ((v.toNat : Int) % (2 ^ 64 : Nat)).toNat) = _
  rw [toNat_mod v.toNat_lt, UInt64.ofNat_toNat]

theorem getU32_unsigned (v : UInt32) : Json.getU32 (unsigned v.toUInt64) = some v := by
  show some (UInt32.ofNat ((v.toUInt64.toNat : Int) % (2 ^ 32 : Nat)).toNat) = _
  rw [UInt32.toNat_toUInt64, toNat_mod v.toNat_lt, UInt32.ofNat_toNat]

theorem getU8_unsigned (v : UInt8) : Json.getU8 (unsigned v.toUInt64) = some v := by
  show some (UInt8.ofNat ((v.toUInt64.toNat : Int) % (2 ^ 8 : Nat)).toNat) = _
  rw [UInt8.toNat_toUInt64, toNat_mod v.toNat_lt, UInt8.ofNat_toNat]

theorem parseTransportRecord_toJson {msg : TransportRecordMessage} (hsequence : msg.sequence ≠ 0)
    (hpayload : msg.payloadB64 ≠ []) : parseTransportRecord msg.toJson = .ok (some msg) := by
  rw [parseTransportRecord, if_neg (show ¬(!msg.toJson.isObject) = true from Bool.false_ne_true)]
  refine except_bind_ok.mpr ⟨msg.sequence, value_of_find rfl ?_ (getU64_unsigned _),
    except_bind_ok.mpr ⟨msg.recordType, value_of_find rfl ?_ (getU8_unsigned _),
    except_bind_ok.mpr ⟨msg.createdAt, value_of_find rfl ?_ (getU64_unsigned _),
    except_bind_ok.mpr ⟨msg.routingKey, value_of_find rfl ?_ (getString_string _),
    except_bind_ok.mpr ⟨msg.payloadB64, value_of_find rfl ?_ (getString_string _), ?_⟩⟩⟩⟩⟩
  case refine_6 => exact if_neg (not_or.mpr ⟨hsequence, hpayload⟩)
  all_goals
    simp (disch := decide) only [TransportRecordMessage.toJson, find_cons_of_ne, find_cons_self]

theorem parseRecords_toJson : ∀ {records : List TransportRecordMessage},
    (∀ msg ∈ records, msg.sequence ≠ 0 ∧ msg.payloadB64 ≠ []) →
      parseRecords (records.map TransportRecordMessage.toJson) = .ok (some records)
  | [], _ => rfl
  | msg :: rest, h => by
      obtain ⟨⟨hsequence, hpayload⟩, hrest⟩ := List.forall_mem_cons.mp h
      rw [List.map_cons, parseRecords, parseTransportRecord_toJson hsequence hpayload]
      show (parseRecords (rest.map TransportRecordMessage.toJson) >>= _) = _
      rw [parseRecords_toJson hrest]
      rfl

/-- A reply is read back as it was written, when its request has an id and its records a
sequence and a payload. -/
theorem parseCrudResult_toJson {msg : CrudResultMessage}
    (hversion : msg.protocolVersion = kProtocolVersion) (hid : msg.requestId ≠ [])
    (hrecords : ∀ record ∈ msg.records, record.sequence ≠ 0 ∧ record.payloadB64 ≠ []) :
    parseCrudResult msg.toJson = .ok (some msg) := by
  rw [parseCrudResult, ofType, if_neg (show ¬(!msg.toJson.isObject) = true from Bool.false_ne_true)]
  refine except_bind_ok.mpr ⟨str "crud_result", value_of_find rfl ?_ (getString_string _), ?_⟩
  case refine_2 =>
    rw [if_neg (by simp)]
    refine except_bind_ok.mpr ⟨msg.protocolVersion, value_of_find rfl ?_ (getU32_unsigned _),
      except_bind_ok.mpr ⟨msg.requestId, value_of_find rfl ?_ (getString_string _),
      except_bind_ok.mpr ⟨msg.ok, value_of_find rfl ?_ (getBoolean_boolean _),
      except_bind_ok.mpr ⟨msg.message, value_of_find rfl ?_ (getString_string _),
      except_bind_ok.mpr ⟨msg.snapshotId, value_of_find rfl ?_ (getU64_unsigned _),
      except_bind_ok.mpr ⟨msg.baseSnapshotId, value_of_find rfl ?_ (getU64_unsigned _),
      except_bind_ok.mpr ⟨msg.targetSnapshotId, value_of_find rfl ?_ (getU64_unsigned _),
      ?_⟩⟩⟩⟩⟩⟩⟩
    case refine_8 =>
      have harray : arrayAt msg.toJson "records" =
          some (msg.records.map TransportRecordMessage.toJson) := by
        simp (disch := decide) only [CrudResultMessage.toJson, arrayAt, find_cons_of_ne,
          find_cons_self]
      rw [harray]
      refine except_bind_ok.mpr ⟨some msg.records, parseRecords_toJson hrecords, ?_⟩
      exact if_neg (not_or.mpr ⟨not_not.mpr hversion, hid⟩)
    all_goals
      simp (disch := decide) only [CrudResultMessage.toJson, find_cons_of_ne, find_cons_self]
  case refine_1 =>
    simp (disch := decide) only [CrudResultMessage.toJson, find_cons_self]

theorem operationFromString_toString (operation : Operation) :
    operationFromString (operationToString operation) = some operation := by
  cases operation <;> decide

/-- A command is read back as it was written, when its request has an id. -/
theorem parseCrudCommand_toJson {msg : CrudCommandMessage}
    (hversion : msg.protocolVersion = kProtocolVersion) (hid : msg.requestId ≠ []) :
    parseCrudCommand msg.toJson = .ok (some msg) := by
  rw [parseCrudCommand, ofType,
    if_neg (show ¬(!msg.toJson.isObject) = true from Bool.false_ne_true)]
  refine except_bind_ok.mpr ⟨str "crud_command", value_of_find rfl ?_ (getString_string _), ?_⟩
  case refine_2 =>
    rw [if_neg (by simp)]
    refine except_bind_ok.mpr ⟨msg.protocolVersion, value_of_find rfl ?_ (getU32_unsigned _),
      except_bind_ok.mpr ⟨msg.requestId, value_of_find rfl ?_ (getString_string _),
      except_bind_ok.mpr ⟨operationToString msg.operation,
        value_of_find rfl ?_ (getString_string _), ?_⟩⟩⟩
    case refine_4 =>
      rw [operationFromString_toString]
      refine except_bind_ok.mpr ⟨msg.rootPath, value_of_find rfl ?_ (getString_string _),
        except_bind_ok.mpr ⟨msg.snapshotId, value_of_find rfl ?_ (getU64_unsigned _),
        except_bind_ok.mpr ⟨msg.baseSnapshotId, value_of_find rfl ?_ (getU64_unsigned _),
        except_bind_ok.mpr ⟨msg.ackSequence, value_of_find rfl ?_ (getU64_unsigned _),
        except_bind_ok.mpr ⟨msg.outboxBatchSize, value_of_find rfl ?_ (getU32_unsigned _),
        if_neg (not_or.mpr ⟨not_not.mpr hversion, hid⟩)⟩⟩⟩⟩⟩
      all_goals
        simp (disch := decide) only [CrudCommandMessage.toJson, find_cons_of_ne, find_cons_self]
    all_goals
      simp (disch := decide) only [CrudCommandMessage.toJson, find_cons_of_ne, find_cons_self]
  case refine_1 =>
    simp (disch := decide) only [CrudCommandMessage.toJson, find_cons_self]

/-! ## Writing a message out -/

theorem validUtf8_ascii : ∀ {s : Str}, (∀ b ∈ s, b < 0x80) → Json.validUtf8 s = true
  | [], _ => rfl
  | b :: rest, h => by
      obtain ⟨hb, hrest⟩ := List.forall_mem_cons.mp h
      rw [Json.validUtf8, Json.utf8Run, Json.utf8Lead, if_pos hb]
      exact validUtf8_ascii hrest

theorem base64Char_ascii (bits : UInt32) : base64Char bits < 0x80 := by
  have hall : ∀ n < 64, base64Alphabet.getD n 0 < 0x80 := by decide +kernel
  refine hall _ ?_
  rw [toNat_sextet]
  exact Nat.mod_lt _ (by decide)

theorem base64Encode_ascii : ∀ bytes : Str, ∀ c ∈ base64Encode bytes, c < 0x80
  | [], _, h => absurd h List.not_mem_nil
  | [a], _, h => by
      rw [base64Encode] at h
      simp only [List.mem_cons, List.not_mem_nil, or_false] at h
      rcases h with rfl | rfl | rfl | rfl
      · exact base64Char_ascii _
      · exact base64Char_ascii _
      · decide
      · decide
  | [a, b], _, h => by
      rw [base64Encode] at h
      simp only [List.mem_cons, List.not_mem_nil, or_false] at h
      rcases h with rfl | rfl | rfl | rfl
      · exact base64Char_ascii _
      · exact base64Char_ascii _
      · exact base64Char_ascii _
      · decide
  | a :: b :: c :: rest, _, h => by
      rw [base64Encode] at h
      simp only [List.mem_cons] at h
      rcases h with rfl | rfl | rfl | rfl | h
      · exact base64Char_ascii _
      · exact base64Char_ascii _
      · exact base64Char_ascii _
      · exact base64Char_ascii _
      · exact base64Encode_ascii rest _ h

theorem dumpsFields_map : ∀ fields : List (String × Json),
    Json.dumpsFields (fields.map fun f => (str f.1, f.2)) =
      fields.all fun f => Json.validUtf8 (str f.1) && f.2.dumps
  | [] => rfl
  | f :: rest => by
      rw [List.map_cons, Json.dumpsFields, dumpsFields_map rest, List.all_cons]

theorem dumps_jsonObject (fields : List (String × Json)) :
    (jsonObject fields).dumps = fields.all fun f => Json.validUtf8 (str f.1) && f.2.dumps := by
  rw [jsonObject, Json.dumps, dumpsFields_map]

theorem dumpsItems_eq : ∀ items : List Json, Json.dumpsItems items = items.all Json.dumps
  | [] => rfl
  | item :: rest => by rw [Json.dumpsItems, dumpsItems_eq rest, List.all_cons]

/-- The texts of a record that it needs to be UTF-8. -/
def TransportRecordMessage.Utf8 (msg : TransportRecordMessage) : Prop :=
  Json.validUtf8 msg.routingKey = true ∧ Json.validUtf8 msg.payloadB64 = true

theorem dumps_transportRecord {msg : TransportRecordMessage} :
    msg.toJson.dumps = true ↔ msg.Utf8 := by
  have hkeys : (["sequence", "record_type", "created_at", "routing_key", "payload_b64"].all
      fun key => Json.validUtf8 (str key)) = true := by rfl
  simp only [List.all_cons, List.all_nil, Bool.and_true, Bool.and_eq_true] at hkeys
  obtain ⟨h₁, h₂, h₃, h₄, h₅⟩ := hkeys
  simp [TransportRecordMessage.toJson, dumps_jsonObject, unsigned, Json.dumps, h₁, h₂, h₃, h₄, h₅,
    TransportRecordMessage.Utf8]

/-- A result is written out when its texts and its records are UTF-8. -/
theorem dumps_crudResult_iff {msg : CrudResultMessage} :
    msg.toJson.dumps = true ↔
      Json.validUtf8 msg.requestId = true ∧ Json.validUtf8 msg.message = true ∧
        ∀ record ∈ msg.records, record.Utf8 := by
  have hkeys : (["type", "protocol_version", "request_id", "ok", "message", "snapshot_id",
      "base_snapshot_id", "target_snapshot_id", "records", "crud_result"].all
      fun key => Json.validUtf8 (str key)) = true := by rfl
  simp only [List.all_cons, List.all_nil, Bool.and_true, Bool.and_eq_true] at hkeys
  obtain ⟨h₁, h₂, h₃, h₄, h₅, h₆, h₇, h₈, h₉, h₁₀⟩ := hkeys
  have hitems : Json.dumpsItems (msg.records.map TransportRecordMessage.toJson) = true ↔
      ∀ record ∈ msg.records, record.Utf8 := by
    rw [dumpsItems_eq, List.all_map, List.all_eq_true]
    exact forall₂_congr fun record _ => dumps_transportRecord
  simp [CrudResultMessage.toJson, dumps_jsonObject, unsigned, Json.dumps, h₁, h₂, h₃, h₄, h₅, h₆,
    h₇, h₈, h₉, h₁₀, hitems]

theorem dumps_crudResult {msg : CrudResultMessage} (hid : Json.validUtf8 msg.requestId = true)
    (hmessage : Json.validUtf8 msg.message = true) (hrecords : ∀ record ∈ msg.records, record.Utf8) :
    msg.toJson.dumps = true :=
  dumps_crudResult_iff.mpr ⟨hid, hmessage, hrecords⟩

theorem dumps_crudCommand {msg : CrudCommandMessage} (hid : Json.validUtf8 msg.requestId = true)
    (hpath : Json.validUtf8 msg.rootPath = true) : msg.toJson.dumps = true := by
  have hkeys : (["type", "protocol_version", "request_id", "operation", "root_path", "snapshot_id",
      "base_snapshot_id", "ack_sequence", "outbox_batch_size", "crud_command"].all
      fun key => Json.validUtf8 (str key)) = true := by rfl
  simp only [List.all_cons, List.all_nil, Bool.and_true, Bool.and_eq_true] at hkeys
  obtain ⟨h₁, h₂, h₃, h₄, h₅, h₆, h₇, h₈, h₉, h₁₀⟩ := hkeys
  have hoperation : Json.validUtf8 (operationToString msg.operation) = true := by
    cases msg.operation <;> rfl
  simp [CrudCommandMessage.toJson, dumps_jsonObject, unsigned, Json.dumps, h₁, h₂, h₃, h₄, h₅, h₆,
    h₇, h₈, h₉, h₁₀, hid, hpath, hoperation]

/-- What stands in a value that `dump` takes, `dump` takes too. -/
theorem dumps_of_find : ∀ {fields : List (Str × Json)} {key : Str} {v : Json},
    Json.dumpsFields fields = true → fields.lookup key = some v → v.dumps = true
  | [], _, _, _, h => nomatch h
  | (k, item) :: rest, key, v, hdumps, h => by
      rw [Json.dumpsFields, Bool.and_eq_true, Bool.and_eq_true] at hdumps
      rw [List.lookup_cons] at h
      cases hkey : key == k with
      | true =>
          rw [hkey] at h
          obtain rfl := Option.some.inj h
          exact hdumps.1.2
      | false =>
          rw [hkey] at h
          exact dumps_of_find hdumps.2 h

/-- A text read from a value that `dump` takes is UTF-8. -/
theorem utf8_of_stringOr {json : Json} {key : String} {text : Str} (hdumps : json.dumps = true)
    (h : stringOr json key = .ok text) : Json.validUtf8 text = true := by
  rw [stringOr, Json.value] at h
  cases json with
  | object fields =>
      rw [show (Json.object fields).isObject = true from rfl,
        if_neg (show ¬(!true) = true from Bool.false_ne_true)] at h
      cases hfind : (Json.object fields).find (str key) with
      | none =>
          rw [hfind] at h
          obtain rfl := Except.ok.inj h
          rfl
      | some v =>
          rw [hfind] at h
          have hv := dumps_of_find hdumps hfind
          cases v with
          | string s =>
              obtain rfl := Except.ok.inj h
              exact hv
          | _ => cases h
  | _ => cases h

end ServerStorage.Crud
