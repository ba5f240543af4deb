/-
# `ServerStorage.Hugin.WireSpec` — the wire protocol is a prefix-free round trip

Each reader undoes the writer of its field wherever the field stands, so the reading of a
payload is one rule for each field; the header's length then leaves no room for a shorter
or a longer frame.
-/
import ServerStorage.Hugin.Wire
import ServerStorage.Lib.Codec

namespace ServerStorage.Hugin

open Lib ServerStorage.Muninn

/-! ## The readers of single fields -/

section
variable {raw : Str}

theorem scans_readU16Be (v : UInt16) : Scans raw (readU16Be raw) (encodeU16Be v) v := by
  intro offset h
  obtain ⟨rest, hdrop⟩ := h.drop
  have hle := h.le
  rw [encodeU16Be_length] at hle
  show readU16Be raw offset = _
  rw [readU16Be, if_neg (by omega), hdrop, decodeU16Be_append rfl, decodeU16Be_encodeU16Be]
  rfl

theorem scans_readU32Be (v : UInt32) : Scans raw (readU32Be raw) (encodeU32Be v) v := by
  intro offset h
  obtain ⟨rest, hdrop⟩ := h.drop
  have hle := h.le
  rw [encodeU32Be_length] at hle
  show readU32Be raw offset = _
  rw [readU32Be, if_neg (by omega), hdrop, decodeU32Be_append rfl, decodeU32Be_encodeU32Be]
  rfl

theorem scans_readU64Be (v : UInt64) : Scans raw (readU64Be raw) (encodeU64Be v) v := by
  intro offset h
  obtain ⟨rest, hdrop⟩ := h.drop
  have hle := h.le
  rw [encodeU64Be_length] at hle
  show readU64Be raw offset = _
  rw [readU64Be, if_neg (by omega), hdrop, decodeU64Be_append rfl, decodeU64Be_encodeU64Be]
  rfl

theorem scans_readBytes (bytes : Str) : Scans raw (readBytes raw bytes.length) bytes bytes := by
  intro offset h
  obtain ⟨rest, hdrop⟩ := h.drop
  have hle := h.le
  show readBytes raw bytes.length offset = _
  rw [readBytes, if_neg (by omega), hdrop, List.take_left]

theorem scans_readString {text : Str} (h : text.length < 2 ^ 32) :
    Scans raw (readString raw) (appendString text) text := by
  refine (scans_readU32Be text.length.toUInt32).bind ?_
  rw [toNat_toUInt32 h]
  exact scans_readBytes text

theorem scans_takeByte (b : UInt8) : Scans raw (takeByte raw) [b] b := by
  intro offset h
  obtain ⟨pre, rest, rfl, rfl⟩ := h
  show takeByte _ pre.length = _
  rw [takeByte, List.getD_append_right _ _ _ _ (Nat.le_refl _), Nat.sub_self]
  rfl

end

/-! ## Payloads -/

/-- The length a string takes in a payload. -/
theorem appendString_length (text : Str) : (appendString text).length = 4 + text.length := by
  rw [appendString, List.length_append, encodeU32Be_length]

theorem parsePayload_of_scans {invalid trailing : String} {payload : Str}
    {read : StateT Nat Option Message} {message : Message}
    (h : Scans payload read payload message) :
    parsePayload invalid trailing payload read = .ok message := by
  rw [parsePayload, h 0 (.whole payload)]
  dsimp only
  rw [Nat.zero_add, if_neg (not_not_intro rfl)]

theorem parseClientHelloPayload_payload {msg : ClientHello} (h : msg.payload.length < 2 ^ 32) :
    parseClientHelloPayload msg.payload = .ok (.clientHello msg) := by
  simp only [ClientHello.payload, List.length_append, appendString_length] at h
  exact parsePayload_of_scans
    ((scans_readString (by omega)).bind ((scans_readString (by omega)).bind
      ((scans_readU16Be _).bind ((scans_readU64Be _).bind ((scans_readU32Be _).bind
        ((scans_readString (by omega)).map fun authToken =>
          Message.clientHello { msg with authToken }))))))

theorem parseServerHelloPayload_payload {msg : ServerHello} (h : msg.payload.length < 2 ^ 32) :
    parseServerHelloPayload msg.payload = .ok (.serverHello msg) := by
  have hbool : ((if msg.accepted then 1 else 0 : UInt8) != 0) = msg.accepted := by
    cases msg.accepted <;> rfl
  simp only [ServerHello.payload, List.length_append, appendString_length] at h
  rw [parseServerHelloPayload, if_neg (by rw [ServerHello.payload]; exact Bool.false_ne_true)]
  refine parsePayload_of_scans ((scans_takeByte _).bind ?_)
  rw [hbool]
  exact (scans_readU16Be _).bind ((scans_readU64Be _).bind ((scans_readU64Be _).bind
    ((scans_readU64Be _).bind ((scans_readString (by omega)).map fun reason =>
      Message.serverHello { msg with reason }))))

theorem scans_readDataFields {raw : Str} (msg : DataMessage) (h : msg.hostId.length < 2 ^ 32) :
    Scans raw (readDataFields raw) msg.fields { msg with muninnFrame := [] } :=
  (scans_readString h).bind ((scans_readU64Be _).bind ((scans_readU16Be _).bind
    ((scans_readU16Be _).bind ((scans_readU64Be _).bind ((scans_readU32Be _).map fun frameCrc32c =>
      { msg with frameCrc32c, muninnFrame := [] })))))

theorem parseDataPayload_payload {msg : DataMessage} (h : msg.payload.length < 2 ^ 32) :
    parseDataPayload msg.payload = .ok (.data msg) := by
  have hwhole := StandsAt.whole msg.payload
  have hfields : StandsAt msg.payload msg.fields 0 := hwhole.left
  have hframe : StandsAt msg.payload _ (0 + msg.fields.length) := hwhole.right
  simp only [DataMessage.payload, DataMessage.fields, List.length_append, appendString_length] at h
  have hread := scans_readDataFields msg (by omega) 0 hfields
  have hsize : readU32Be msg.payload _ = _ := scans_readU32Be _ _ hframe.left
  have hbytes : readBytes msg.payload msg.muninnFrame.length _ = _ :=
    scans_readBytes msg.muninnFrame _ hframe.right
  rw [parseDataPayload, hread]
  dsimp only
  rw [hsize]
  dsimp only
  rw [toNat_toUInt32 (by omega), hbytes]
  dsimp only
  rw [if_neg]
  simp only [DataMessage.payload, List.length_append, Nat.zero_add, Nat.add_assoc,
    ne_eq, not_true_eq_false, not_false_eq_true]

theorem parseAckPayload_payload {msg : AckMessage} (h : msg.payload.length < 2 ^ 32) :
    parseAckPayload msg.payload = .ok (.ack msg) := by
  simp only [AckMessage.payload, List.length_append, appendString_length] at h
  exact parsePayload_of_scans ((scans_readString (by omega)).bind ((scans_readU64Be _).bind
    ((scans_readU64Be _).map fun expectedNextSequence =>
      Message.ack { msg with expectedNextSequence })))

theorem parseNackPayload_payload {msg : NackMessage} (h : msg.payload.length < 2 ^ 32) :
    parseNackPayload msg.payload = .ok (.nack msg) := by
  simp only [NackMessage.payload, List.length_append, appendString_length] at h
  exact parsePayload_of_scans ((scans_readString (by omega)).bind ((scans_readU64Be _).bind
    ((scans_readU64Be _).bind ((scans_readString (by omega)).map fun reason =>
      Message.nack { msg with reason }))))

theorem parseErrorPayload_payload {msg : ErrorMessage} (h : msg.payload.length < 2 ^ 32) :
    parseErrorPayload msg.payload = .ok (.error msg) := by
  simp only [ErrorMessage.payload, List.length_append, appendString_length] at h
  exact parsePayload_of_scans ((scans_readU16Be _).bind ((scans_readString (by omega)).map
    fun message => Message.error { msg with message }))

theorem parsePingPayload_payload (msg : PingMessage) :
    parsePingPayload msg.payload = .ok (.ping msg) :=
  parsePayload_of_scans ((scans_readU64Be _).map fun unixSeconds => Message.ping { unixSeconds })

theorem parsePongPayload_payload (msg : PongMessage) :
    parsePongPayload msg.payload = .ok (.pong msg) :=
  parsePayload_of_scans ((scans_readU64Be _).map fun unixSeconds => Message.pong { unixSeconds })

/-! ## Frames -/

namespace Message

def kind : Message → MessageKind
  | clientHello _ => .clientHello
  | serverHello _ => .serverHello
  | data _ => .data
  | ack _ => .ack
  | nack _ => .nack
  | error _ => .error
  | ping _ => .ping
  | pong _ => .pong

/-- The encoded payload of a message. -/
def payload : Message → Str
  | clientHello msg => msg.payload
  | serverHello msg => msg.payload
  | data msg => msg.payload
  | ack msg => msg.payload
  | nack msg => msg.payload
  | error msg => msg.payload
  | ping msg => msg.payload
  | pong msg => msg.payload

end Message

theorem serializeMessage_eq (message : Message) :
    serializeMessage message = makeFrame message.kind message.payload := by
  cases message <;> rfl

theorem ofByte_value (kind : MessageKind) : MessageKind.ofByte kind.value = some kind := by
  cases kind <;> decide

/-- The twelve bytes before a payload of `size` bytes. -/
def frameHeader (kind : MessageKind) (size : UInt32) : Str :=
  encodeU32Be kHuginMagic ++ encodeU16Be kHuginProtocolVersion ++ [kind.value, 0] ++
    encodeU32Be size

theorem frameHeader_length (kind : MessageKind) (size : UInt32) :
    (frameHeader kind size).length = kHeaderSize := rfl

theorem makeFrame_eq (kind : MessageKind) (payload : Str) :
    makeFrame kind payload = frameHeader kind payload.length.toUInt32 ++ payload := rfl

theorem parseHeader_frameHeader (kind : MessageKind) (size : UInt32) (rest : Str) :
    parseHeader (frameHeader kind size ++ rest) =
      if rest.length ≠ size.toNat then .error (parseError "Wire frame payload length mismatch.")
      else .ok { protocolVersion := kHuginProtocolVersion, kind := kind.value, flags := 0
                 payloadLen := size } := by
  set raw := frameHeader kind size ++ rest with hraw
  have hlength : raw.length = kHeaderSize + rest.length := by
    rw [hraw, List.length_append, frameHeader_length]
  have hmagic : readU32Be raw 0 = some (kHuginMagic, 4) :=
    scans_readU32Be kHuginMagic 0 ⟨[], _, rfl, rfl⟩
  have hversion : readU16Be raw 4 = some (kHuginProtocolVersion, 6) :=
    scans_readU16Be kHuginProtocolVersion 4 ⟨encodeU32Be kHuginMagic, _, rfl, rfl⟩
  have hsize : readU32Be raw (6 + 2) = some (size, 12) :=
    scans_readU32Be size 8 ⟨encodeU32Be kHuginMagic ++ encodeU16Be kHuginProtocolVersion ++
      [kind.value, 0], rest, rfl, rfl⟩
  have hkind : raw.getD 6 0 = kind.value := rfl
  have hflags : raw.getD (6 + 1) 0 = 0 := rfl
  rw [parseHeader, if_neg (by rw [hlength]; omega), hmagic]
  dsimp only
  rw [if_neg (not_not_intro rfl), hversion]
  dsimp only
  rw [if_neg (not_not_intro rfl), hsize]
  dsimp only
  rw [hlength, hkind, hflags]
  by_cases hrest : rest.length = size.toNat
  · rw [if_neg (by omega), if_neg (by omega)]
  · rw [if_pos (by omega), if_pos (by omega)]

theorem parseMessage_serializeMessage {message : Message}
    (h : message.payload.length < 2 ^ 32) :
    parseMessage (serializeMessage message) = .ok message := by
  have hsize := toNat_toUInt32 h
  rw [serializeMessage_eq, makeFrame_eq, parseMessage, parseHeader_frameHeader,
    if_neg (by rw [hsize]; exact not_not_intro rfl)]
  dsimp only
  rw [hsize, ← frameHeader_length message.kind message.payload.length.toUInt32, List.drop_left,
    List.take_length, ofByte_value]
  cases message with
  | clientHello msg => exact parseClientHelloPayload_payload h
  | serverHello msg => exact parseServerHelloPayload_payload h
  | data msg => exact parseDataPayload_payload h
  | ack msg => exact parseAckPayload_payload h
  | nack msg => exact parseNackPayload_payload h
  | error msg => exact parseErrorPayload_payload h
  | ping msg => exact parsePingPayload_payload msg
  | pong msg => exact parsePongPayload_payload msg

/-- Nothing comparable to a frame is accepted beside the frame itself: what is too short for
the header is refused, and the header allows one length only. -/
theorem parseMessage_comparable {kind : MessageKind} {payload raw : Str}
    (h : payload.length < 2 ^ 32)
    (hraw : raw <+: makeFrame kind payload ∨ makeFrame kind payload <+: raw)
    (hne : raw ≠ makeFrame kind payload) : ∃ status, parseMessage raw = .error status := by
  rcases Nat.lt_or_ge raw.length kHeaderSize with hshort | hlong
  · exact ⟨_, by rw [parseMessage, parseHeader, if_pos hshort]⟩
  · have hheader : frameHeader kind payload.length.toUInt32 <+: raw := by
      have hframe : frameHeader kind payload.length.toUInt32 <+: makeFrame kind payload :=
        List.prefix_append _ _
      rcases hraw with hraw | hraw
      · exact List.prefix_of_prefix_length_le hframe hraw hlong
      · exact hframe.trans hraw
    obtain ⟨rest, rfl⟩ := hheader
    have hrest : rest.length ≠ payload.length := by
      intro hlength
      have hsame : (frameHeader kind payload.length.toUInt32 ++ rest).length =
          (makeFrame kind payload).length := by
        rw [makeFrame_eq, List.length_append, List.length_append, hlength]
      rcases hraw with hraw | hraw
      · exact hne (hraw.eq_of_length hsame)
      · exact hne (hraw.eq_of_length hsame.symm).symm
    rw [← toNat_toUInt32 h] at hrest
    exact ⟨_, by rw [parseMessage, parseHeader_frameHeader, if_pos hrest]⟩

/-- A message comes back from its frame field for field, and no proper prefix and no proper
extension of the frame is accepted. -/
theorem parseMessage_prefixFree (message : Message) (h : message.payload.length < 2 ^ 32) :
    parseMessage (serializeMessage message) = .ok message ∧
      (∀ raw, raw <+: serializeMessage message → raw ≠ serializeMessage message →
        ∃ status, parseMessage raw = .error status) ∧
      ∀ raw, serializeMessage message <+: raw → raw ≠ serializeMessage message →
        ∃ status, parseMessage raw = .error status := by
  refine ⟨parseMessage_serializeMessage h, ?_⟩
  rw [serializeMessage_eq]
  exact ⟨fun raw hraw => parseMessage_comparable h (.inl hraw),
    fun raw hraw => parseMessage_comparable h (.inr hraw)⟩

theorem parseMessage_prefixFree_hello :
    parseMessage (serializeMessage (.clientHello { hostId := str "host" })) =
      .ok (.clientHello { hostId := str "host" }) :=
  (parseMessage_prefixFree (.clientHello { hostId := str "host" }) (by decide)).1

end ServerStorage.Hugin
