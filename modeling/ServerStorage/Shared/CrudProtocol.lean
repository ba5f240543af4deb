/-
# `ServerStorage.Shared.CrudProtocol` — `shared/crud_protocol.hpp`

The five messages of the bridge as JSON, both ways, and base64.  The `type` of a
message is constant and stands in `toJson` and in its parser.  A parser may raise:
every field is read by `value`, in the source's order, and it answers `none` where
the source answers `nullopt`.
-/
import ServerStorage.Lib.Json

namespace ServerStorage.Crud

open Lib

def kProtocolVersion : UInt32 := 1

inductive Operation where
  | create | read | update | delete
  deriving DecidableEq, Repr

structure HelloMessage where
  protocolVersion : UInt32 := kProtocolVersion
  hostId : Str := []
  clientInstanceId : Str := []
  authToken : Str := []
  deriving DecidableEq, Repr

structure HelloAckMessage where
  protocolVersion : UInt32 := kProtocolVersion
  accepted : Bool := false
  reason : Str := []
  deriving DecidableEq, Repr

structure CrudCommandMessage where
  protocolVersion : UInt32 := kProtocolVersion
  requestId : Str := []
  operation : Operation := .read
  rootPath : Str := []
  snapshotId : UInt64 := 0
  baseSnapshotId : UInt64 := 0
  ackSequence : UInt64 := 0
  outboxBatchSize : UInt32 := 64
  deriving DecidableEq, Repr

structure TransportRecordMessage where
  sequence : UInt64 := 0
  recordType : UInt8 := 0
  createdAt : UInt64 := 0
  routingKey : Str := []
  payloadB64 : Str := []
  deriving DecidableEq, Repr

structure CrudResultMessage where
  protocolVersion : UInt32 := kProtocolVersion
  requestId : Str := []
  ok : Bool := false
  message : Str := []
  snapshotId : UInt64 := 0
  baseSnapshotId : UInt64 := 0
  targetSnapshotId : UInt64 := 0
  records : List TransportRecordMessage := []
  deriving DecidableEq, Repr

structure IngestAckMessage where
  protocolVersion : UInt32 := kProtocolVersion
  requestId : Str := []
  ok : Bool := true
  ackSequence : UInt64 := 0
  message : Str := []
  deriving DecidableEq, Repr

def operationFromString (value : Str) : Option Operation :=
  if value = str "create" then some .create
  else if value = str "read" then some .read
  else if value = str "update" then some .update
  else if value = str "delete" then some .delete
  else none

def operationToString : Operation → Str
  | .create => str "create"
  | .read => str "read"
  | .update => str "update"
  | .delete => str "delete"

/-! ## Base64 -/

def base64Alphabet : Str :=
  str "ABCDEFGHIJKLMNOPQRSTUVWXYZabcdefghijklmnopqrstuvwxyz0123456789+/"

/-- The character of the low six bits. -/
def base64Char (bits : UInt32) : UInt8 := base64Alphabet.getD (bits &&& 0x3F).toNat 0

def base64Pad : UInt8 := 61

def base64Encode : Str → Str
  | a :: b :: c :: rest =>
      let chunk := a.toUInt32 <<< 16 ||| b.toUInt32 <<< 8 ||| c.toUInt32
      base64Char (chunk >>> 18) :: base64Char (chunk >>> 12) :: base64Char (chunk >>> 6) ::
        base64Char chunk :: base64Encode rest
  | [a, b] =>
      let chunk := a.toUInt32 <<< 16 ||| b.toUInt32 <<< 8
      [base64Char (chunk >>> 18), base64Char (chunk >>> 12), base64Char (chunk >>> 6), base64Pad]
  | [a] =>
      let chunk := a.toUInt32 <<< 16
      [base64Char (chunk >>> 18), base64Char (chunk >>> 12), base64Pad, base64Pad]
  | [] => []

/-- The entry of the decoding table: `none` for the source's `-1`. -/
def base64Value (c : UInt8) : Option UInt32 :=
  (base64Alphabet.findIdx? fun a => a == c).map Nat.toUInt32

/-- A third or fourth character: padding counts as zero. -/
def base64PaddedValue (c : UInt8) : Option UInt32 :=
  if c = base64Pad then some 0 else base64Value c

/-- The loop over groups of four; padding is looked for in every group. -/
def base64DecodeLoop : Str → Option Str
  | c₀ :: c₁ :: c₂ :: c₃ :: rest => do
      let v₀ ← base64Value c₀
      let v₁ ← base64Value c₁
      let v₂ ← base64PaddedValue c₂
      let v₃ ← base64PaddedValue c₃
      let chunk := v₀ <<< 18 ||| v₁ <<< 12 ||| v₂ <<< 6 ||| v₃
      let out := (chunk >>> 16).toUInt8 ::
        (if c₂ = base64Pad then [] else [(chunk >>> 8).toUInt8]) ++
        (if c₃ = base64Pad then [] else [chunk.toUInt8])
      return out ++ (← base64DecodeLoop rest)
  | _ => some []

def base64Decode (encoded : Str) : Option Str :=
  if encoded.length % 4 ≠ 0 then none else base64DecodeLoop encoded

/-! ## To JSON -/

/-- A JSON object, its keys as they are written in the source. -/
def jsonObject (fields : List (String × Json)) : Json :=
  .object (fields.map fun f => (str f.1, f.2))

def unsigned (v : UInt64) : Json := .numberUnsigned v

def HelloMessage.toJson (msg : HelloMessage) : Json :=
  jsonObject
    [("type", .string (str "hello")),
     ("protocol_version", unsigned msg.protocolVersion.toUInt64),
     ("host_id", .string msg.hostId),
     ("client_instance_id", .string msg.clientInstanceId),
     ("auth_token", .string msg.authToken)]

def HelloAckMessage.toJson (msg : HelloAckMessage) : Json :=
  jsonObject
    [("type", .string (str "hello_ack")),
     ("protocol_version", unsigned msg.protocolVersion.toUInt64),
     ("accepted", .boolean msg.accepted),
     ("reason", .string msg.reason)]

def CrudCommandMessage.toJson (msg : CrudCommandMessage) : Json :=
  jsonObject
    [("type", .string (str "crud_command")),
     ("protocol_version", unsigned msg.protocolVersion.toUInt64),
     ("request_id", .string msg.requestId),
     ("operation", .string (operationToString msg.operation)),
     ("root_path", .string msg.rootPath),
     ("snapshot_id", unsigned msg.snapshotId),
     ("base_snapshot_id", unsigned msg.baseSnapshotId),
     ("ack_sequence", unsigned msg.ackSequence),
     ("outbox_batch_size", unsigned msg.outboxBatchSize.toUInt64)]

def TransportRecordMessage.toJson (msg : TransportRecordMessage) : Json :=
  jsonObject
    [("sequence", unsigned msg.sequence),
     ("record_type", unsigned msg.recordType.toUInt64),
     ("created_at", unsigned msg.createdAt),
     ("routing_key", .string msg.routingKey),
     ("payload_b64", .string msg.payloadB64)]

def CrudResultMessage.toJson (msg : CrudResultMessage) : Json :=
  jsonObject
    [("type", .string (str "crud_result")),
     ("protocol_version", unsigned msg.protocolVersion.toUInt64),
     ("request_id", .string msg.requestId),
     ("ok", .boolean msg.ok),
     ("message", .string msg.message),
     ("snapshot_id", unsigned msg.snapshotId),
     ("base_snapshot_id", unsigned msg.baseSnapshotId),
     ("target_snapshot_id", unsigned msg.targetSnapshotId),
     ("records", .array (msg.records.map TransportRecordMessage.toJson))]

def IngestAckMessage.toJson (msg : IngestAckMessage) : Json :=
  jsonObject
    [("type", .string (str "ingest_ack")),
     ("protocol_version", unsigned msg.protocolVersion.toUInt64),
     ("request_id", .string msg.requestId),
     ("ok", .boolean msg.ok),
     ("ack_sequence", unsigned msg.ackSequence),
     ("message", .string msg.message)]

/-! ## From JSON -/

abbrev Parsed (α : Type) := Except JsonException α

def stringOr (json : Json) (key : String) : Parsed Str := json.value Json.getString key []
def u64Or (json : Json) (key : String) : Parsed UInt64 := json.value Json.getU64 key 0
def u32Or (json : Json) (key : String) (default : UInt32) : Parsed UInt32 :=
  json.value Json.getU32 key default
def boolOr (json : Json) (key : String) : Parsed Bool := json.value Json.getBoolean key false

/-- The start of every message parser: the value is an object of the given type. -/
def ofType {α : Type} (type : String) (json : Json) (fields : Parsed (Option α)) :
    Parsed (Option α) :=
  if !json.isObject then .ok none
  else do
    let found ← stringOr json "type"
    if found ≠ str type then return none else fields

def parseHello (json : Json) : Parsed (Option HelloMessage) :=
  ofType "hello" json do
    let protocolVersion ← u32Or json "protocol_version" 0
    let hostId ← stringOr json "host_id"
    let clientInstanceId ← stringOr json "client_instance_id"
    let authToken ← stringOr json "auth_token"
    if protocolVersion ≠ kProtocolVersion ∨ hostId = [] then return none
    else return some { protocolVersion, hostId, clientInstanceId, authToken }

def parseHelloAck (json : Json) : Parsed (Option HelloAckMessage) :=
  ofType "hello_ack" json do
    let protocolVersion ← u32Or json "protocol_version" 0
    let accepted ← boolOr json "accepted"
    let reason ← stringOr json "reason"
    if protocolVersion ≠ kProtocolVersion then return none
    else return some { protocolVersion, accepted, reason }

def parseCrudCommand (json : Json) : Parsed (Option CrudCommandMessage) :=
  ofType "crud_command" json do
    let protocolVersion ← u32Or json "protocol_version" 0
    let requestId ← stringOr json "request_id"
    match operationFromString (← stringOr json "operation") with
    | none => return none
    | some operation =>
        let rootPath ← stringOr json "root_path"
        let snapshotId ← u64Or json "snapshot_id"
        let baseSnapshotId ← u64Or json "base_snapshot_id"
        let ackSequence ← u64Or json "ack_sequence"
        let outboxBatchSize ← u32Or json "outbox_batch_size" 64
        if protocolVersion ≠ kProtocolVersion ∨ requestId = [] then return none
        else
          return some { protocolVersion, requestId, operation, rootPath, snapshotId
                        baseSnapshotId, ackSequence, outboxBatchSize }

def parseTransportRecord (json : Json) : Parsed (Option TransportRecordMessage) :=
  if !json.isObject then .ok none
  else do
    let sequence ← u64Or json "sequence"
    let recordType ← json.value Json.getU8 "record_type" 0
    let createdAt ← u64Or json "created_at"
    let routingKey ← stringOr json "routing_key"
    let payloadB64 ← stringOr json "payload_b64"
    if sequence = 0 ∨ payloadB64 = [] then return none
    else return some { sequence, recordType, createdAt, routingKey, payloadB64 }

/-- The loop over the records: the first one rejected ends it. -/
def parseRecords : List Json → Parsed (Option (List TransportRecordMessage))
  | [] => return some []
  | item :: rest => do
      match ← parseTransportRecord item with
      | none => return none
      | some record =>
          match ← parseRecords rest with
          | none => return none
          | some records => return some (record :: records)

/-- The elements of a key that is there and an array. -/
def arrayAt (json : Json) (key : String) : Option (List Json) :=
  match json.find (str key) with
  | some (.array items) => some items
  | _ => none

def parseCrudResult (json : Json) : Parsed (Option CrudResultMessage) :=
  ofType "crud_result" json do
    let protocolVersion ← u32Or json "protocol_version" 0
    let requestId ← stringOr json "request_id"
    let ok ← boolOr json "ok"
    let message ← stringOr json "message"
    let snapshotId ← u64Or json "snapshot_id"
    let baseSnapshotId ← u64Or json "base_snapshot_id"
    let targetSnapshotId ← u64Or json "target_snapshot_id"
    match arrayAt json "records" with
    | none => return none
    | some items =>
        match ← parseRecords items with
        | none => return none
        | some records =>
            if protocolVersion ≠ kProtocolVersion ∨ requestId = [] then return none
            else
              return some { protocolVersion, requestId, ok, message, snapshotId
                            baseSnapshotId, targetSnapshotId, records }

def parseIngestAck (json : Json) : Parsed (Option IngestAckMessage) :=
  ofType "ingest_ack" json do
    let protocolVersion ← u32Or json "protocol_version" 0
    let requestId ← stringOr json "request_id"
    let ok ← boolOr json "ok"
    let ackSequence ← u64Or json "ack_sequence"
    let message ← stringOr json "message"
    if protocolVersion ≠ kProtocolVersion ∨ requestId = [] then return none
    else return some { protocolVersion, requestId, ok, ackSequence, message }

end ServerStorage.Crud
