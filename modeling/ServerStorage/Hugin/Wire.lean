/-
# `ServerStorage.Hugin.Wire` — `protocol/wire.cpp`

Eight kinds of message under one header of twelve bytes: magic, version, kind, flags and
the length of the payload.  A payload is read field by field at a moving offset, and has
to end where the reading ends.
-/
import ServerStorage.Hugin.MuninnFrame

namespace ServerStorage.Hugin

open Lib ServerStorage.Muninn

/-! ## `common/byte_codec.hpp` -/

def readU16Be (raw : Str) : StateT Nat Option UInt16 := fun offset =>
  if raw.length < offset + 2 then none
  else some (decodeU16Be (raw.drop offset), offset + 2)

def readBytes (raw : Str) (size : Nat) : StateT Nat Option Str := fun offset =>
  if raw.length < offset + size then none
  else some ((raw.drop offset).take size, offset + size)

def appendString (text : Str) : Str := encodeU32Be text.length.toUInt32 ++ text

def readString (raw : Str) : StateT Nat Option Str := do
  let size ← readU32Be raw
  readBytes raw size.toNat

/-! ## Messages -/

def kHuginMagic : UInt32 := 0x4C455347
def kHuginProtocolVersion : UInt16 := 1

inductive MessageKind where
  | clientHello | serverHello | data | ack | nack | error | ping | pong
  deriving DecidableEq, Repr

namespace MessageKind

def value : MessageKind → UInt8
  | clientHello => 1
  | serverHello => 2
  | data => 3
  | ack => 4
  | nack => 5
  | error => 6
  | ping => 7
  | pong => 8

/-- The cases of the switch over the byte of the header. -/
def ofByte (kind : UInt8) : Option MessageKind :=
  [clientHello, serverHello, data, ack, nack, error, ping, pong].find? (·.value == kind)

end MessageKind

structure ClientHello where
  hostId : Str := []
  clientInstanceId : Str := []
  requestedProtocolVersion : UInt16 := kHuginProtocolVersion
  resumeFromSequence : UInt64 := 0
  capabilitiesBitmask : UInt32 := 0
  authToken : Str := []
  deriving DecidableEq, Repr

structure ServerHello where
  accepted : Bool := false
  negotiatedProtocolVersion : UInt16 := kHuginProtocolVersion
  sessionId : UInt64 := 0
  serverCheckpoint : UInt64 := 0
  requestedResumeFrom : UInt64 := 0
  reason : Str := []
  deriving DecidableEq, Repr

structure DataMessage where
  hostId : Str := []
  sequence : UInt64 := 0
  codecVersionMajor : UInt16 := 1
  codecVersionMinor : UInt16 := 0
  sentAtUnixSeconds : UInt64 := 0
  frameCrc32c : UInt32 := 0
  muninnFrame : Str := []
  deriving DecidableEq, Repr

structure AckMessage where
  hostId : Str := []
  ackInclusiveSequence : UInt64 := 0
  expectedNextSequence : UInt64 := 0
  deriving DecidableEq, Repr

structure NackMessage where
  hostId : Str := []
  expectedSequence : UInt64 := 0
  receivedSequence : UInt64 := 0
  reason : Str := []
  deriving DecidableEq, Repr

structure ErrorMessage where
  errorCode : UInt16 := 0
  message : Str := []
  deriving DecidableEq, Repr

structure PingMessage where
  unixSeconds : UInt64 := 0
  deriving DecidableEq, Repr

structure PongMessage where
  unixSeconds : UInt64 := 0
  deriving DecidableEq, Repr

inductive Message where
  | clientHello (msg : ClientHello)
  | serverHello (msg : ServerHello)
  | data (msg : DataMessage)
  | ack (msg : AckMessage)
  | nack (msg : NackMessage)
  | error (msg : ErrorMessage)
  | ping (msg : PingMessage)
  | pong (msg : PongMessage)
  deriving DecidableEq, Repr

/-! ## Writing -/

def makeFrame (kind : MessageKind) (payload : Str) : Str :=
  encodeU32Be kHuginMagic ++ encodeU16Be kHuginProtocolVersion ++ [kind.value, 0] ++
    encodeU32Be payload.length.toUInt32 ++ payload

/-- What `encode_client_hello` puts behind the header. -/
def ClientHello.payload (msg : ClientHello) : Str :=
  appendString msg.hostId ++ (appendString msg.clientInstanceId ++
    (encodeU16Be msg.requestedProtocolVersion ++ (encodeU64Be msg.resumeFromSequence ++
      (encodeU32Be msg.capabilitiesBitmask ++ appendString msg.authToken))))

def ServerHello.payload (msg : ServerHello) : Str :=
  [if msg.accepted then 1 else 0] ++ (encodeU16Be msg.negotiatedProtocolVersion ++
    (encodeU64Be msg.sessionId ++ (encodeU64Be msg.serverCheckpoint ++
      (encodeU64Be msg.requestedResumeFrom ++ appendString msg.reason))))

/-- The fields of a data message before its frame. -/
def DataMessage.fields (msg : DataMessage) : Str :=
  appendString msg.hostId ++ (encodeU64Be msg.sequence ++
    (encodeU16Be msg.codecVersionMajor ++ (encodeU16Be msg.codecVersionMinor ++
      (encodeU64Be msg.sentAtUnixSeconds ++ encodeU32Be msg.frameCrc32c))))

def DataMessage.payload (msg : DataMessage) : Str :=
  msg.fields ++ (encodeU32Be msg.muninnFrame.length.toUInt32 ++ msg.muninnFrame)

def AckMessage.payload (msg : AckMessage) : Str :=
  appendString msg.hostId ++ (encodeU64Be msg.ackInclusiveSequence ++
    encodeU64Be msg.expectedNextSequence)

def NackMessage.payload (msg : NackMessage) : Str :=
  appendString msg.hostId ++ (encodeU64Be msg.expectedSequence ++
    (encodeU64Be msg.receivedSequence ++ appendString msg.reason))

def ErrorMessage.payload (msg : ErrorMessage) : Str :=
  encodeU16Be msg.errorCode ++ appendString msg.message

def PingMessage.payload (msg : PingMessage) : Str := encodeU64Be msg.unixSeconds

def PongMessage.payload (msg : PongMessage) : Str := encodeU64Be msg.unixSeconds

def encodeClientHello (msg : ClientHello) : Str := makeFrame .clientHello msg.payload
def encodeServerHello (msg : ServerHello) : Str := makeFrame .serverHello msg.payload
def encodeData (msg : DataMessage) : Str := makeFrame .data msg.payload
def encodeAck (msg : AckMessage) : Str := makeFrame .ack msg.payload
def encodeNack (msg : NackMessage) : Str := makeFrame .nack msg.payload
def encodeError (msg : ErrorMessage) : Str := makeFrame .error msg.payload
def encodePing (msg : PingMessage) : Str := makeFrame .ping msg.payload
def encodePong (msg : PongMessage) : Str := makeFrame .pong msg.payload

def serializeMessage : Message → Str
  | .clientHello msg => encodeClientHello msg
  | .serverHello msg => encodeServerHello msg
  | .data msg => encodeData msg
  | .ack msg => encodeAck msg
  | .nack msg => encodeNack msg
  | .error msg => encodeError msg
  | .ping msg => encodePing msg
  | .pong msg => encodePong msg

/-! ## Reading -/

def kHeaderSize : Nat := 12

structure ParsedHeader where
  protocolVersion : UInt16 := 0
  kind : UInt8 := MessageKind.error.value
  flags : UInt8 := 0
  payloadLen : UInt32 := 0
  deriving DecidableEq, Repr

def parseHeader (raw : Str) : Except Status ParsedHeader :=
  if raw.length < kHeaderSize then .error (parseError "Wire frame header is truncated.")
  else
    match readU32Be raw 0 with
    | none => .error (parseError "Wire frame magic is truncated.")
    | some (magic, offset) =>
        if magic ≠ kHuginMagic then .error (parseError "Wire frame magic is invalid.")
        else
          match readU16Be raw offset with
          | none => .error (parseError "Wire frame version is truncated.")
          | some (protocolVersion, offset) =>
              if protocolVersion ≠ kHuginProtocolVersion then
                .error (.failure .unsupportedVersion "Wire protocol version is unsupported.")
              else
                match readU32Be raw (offset + 2) with
                | none => .error (parseError "Wire frame payload length is truncated.")
                | some (payloadLen, _) =>
                    if raw.length ≠ kHeaderSize + payloadLen.toNat then
                      .error (parseError "Wire frame payload length mismatch.")
                    else
                      .ok { protocolVersion, kind := raw.getD offset 0
                            flags := raw.getD (offset + 1) 0, payloadLen }

/-- What the `parse_*_payload` functions share: a reading that may fail, and has to end
with the payload. -/
def parsePayload (invalid trailing : String) (payload : Str) (read : StateT Nat Option Message) :
    Except Status Message :=
  match read.run 0 with
  | none => .error (parseError invalid)
  | some (message, offset) =>
      if offset ≠ payload.length then .error (parseError trailing) else .ok message

def parseClientHelloPayload (payload : Str) : Except Status Message :=
  parsePayload "ClientHello payload is invalid." "ClientHello payload has trailing bytes." payload do
    let hostId ← readString payload
    let clientInstanceId ← readString payload
    let requestedProtocolVersion ← readU16Be payload
    let resumeFromSequence ← readU64Be payload
    let capabilitiesBitmask ← readU32Be payload
    let authToken ← readString payload
    return .clientHello { hostId, clientInstanceId, requestedProtocolVersion, resumeFromSequence,
                          capabilitiesBitmask, authToken }

/-- The byte at the offset, which the caller has checked to be there. -/
def takeByte (raw : Str) : StateT Nat Option UInt8 := fun offset =>
  some (raw.getD offset 0, offset + 1)

def parseServerHelloPayload (payload : Str) : Except Status Message :=
  if payload.isEmpty then .error (parseError "ServerHello payload is truncated.")
  else
    parsePayload "ServerHello payload is invalid." "ServerHello payload has trailing bytes."
      payload do
        let accepted ← takeByte payload
        let negotiatedProtocolVersion ← readU16Be payload
        let sessionId ← readU64Be payload
        let serverCheckpoint ← readU64Be payload
        let requestedResumeFrom ← readU64Be payload
        let reason ← readString payload
        return .serverHello { accepted := accepted != 0, negotiatedProtocolVersion, sessionId,
                              serverCheckpoint, requestedResumeFrom, reason }

def readDataFields (payload : Str) : StateT Nat Option DataMessage := do
  let hostId ← readString payload
  let sequence ← readU64Be payload
  let codecVersionMajor ← readU16Be payload
  let codecVersionMinor ← readU16Be payload
  let sentAtUnixSeconds ← readU64Be payload
  let frameCrc32c ← readU32Be payload
  return { hostId, sequence, codecVersionMajor, codecVersionMinor, sentAtUnixSeconds, frameCrc32c }

def parseDataPayload (payload : Str) : Except Status Message :=
  match (readDataFields payload).run 0 with
  | none => .error (parseError "Data payload is invalid.")
  | some (msg, offset) =>
      match readU32Be payload offset with
      | none => .error (parseError "Data payload frame length is invalid.")
      | some (frameLen, offset) =>
          match readBytes payload frameLen.toNat offset with
          | none => .error (parseError "Data payload frame bytes are truncated.")
          | some (muninnFrame, offset) =>
              if offset ≠ payload.length then
                .error (parseError "Data payload has trailing bytes.")
              else .ok (.data { msg with muninnFrame })

def parseAckPayload (payload : Str) : Except Status Message :=
  parsePayload "Ack payload is invalid." "Ack payload has trailing bytes." payload do
    let hostId ← readString payload
    let ackInclusiveSequence ← readU64Be payload
    let expectedNextSequence ← readU64Be payload
    return .ack { hostId, ackInclusiveSequence, expectedNextSequence }

def parseNackPayload (payload : Str) : Except Status Message :=
  parsePayload "Nack payload is invalid." "Nack payload has trailing bytes." payload do
    let hostId ← readString payload
    let expectedSequence ← readU64Be payload
    let receivedSequence ← readU64Be payload
    let reason ← readString payload
    return .nack { hostId, expectedSequence, receivedSequence, reason }

def parseErrorPayload (payload : Str) : Except Status Message :=
  parsePayload "Error payload is invalid." "Error payload has trailing bytes." payload do
    let errorCode ← readU16Be payload
    let message ← readString payload
    return .error { errorCode, message }

def parsePingPayload (payload : Str) : Except Status Message :=
  parsePayload "Ping payload is invalid." "Ping payload is invalid." payload do
    let unixSeconds ← readU64Be payload
    return .ping { unixSeconds }

def parsePongPayload (payload : Str) : Except Status Message :=
  parsePayload "Pong payload is invalid." "Pong payload is invalid." payload do
    let unixSeconds ← readU64Be payload
    return .pong { unixSeconds }

def parseMessage (raw : Str) : Except Status Message :=
  match parseHeader raw with
  | .error status => .error status
  | .ok header =>
      let payload := (raw.drop kHeaderSize).take header.payloadLen.toNat
      match MessageKind.ofByte header.kind with
      | some .clientHello => parseClientHelloPayload payload
      | some .serverHello => parseServerHelloPayload payload
      | some .data => parseDataPayload payload
      | some .ack => parseAckPayload payload
      | some .nack => parseNackPayload payload
      | some .error => parseErrorPayload payload
      | some .ping => parsePingPayload payload
      | some .pong => parsePongPayload payload
      | none => .error (parseError "Wire message kind is unknown.")

end ServerStorage.Hugin
