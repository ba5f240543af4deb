/-
# `ServerStorage.Hugin.MuninnFrame` — `protocol/muninn_frame.cpp`

The frame of a transport record as Hugin writes and reads it, over the big-endian
readers of `common/byte_codec.hpp`.  A reader returns what it read and the offset
behind it.
-/
import ServerStorage.Hugin.Materializer
import ServerStorage.Lib.Words

namespace ServerStorage.Hugin

open Lib ServerStorage.Muninn

/-! ## `common/byte_codec.hpp` -/

def readU32Be (raw : Str) (offset : Nat) : Option (UInt32 × Nat) :=
  if raw.length < offset + 4 then none
  else some (decodeU32Be (raw.drop offset), offset + 4)

def readU64Be (raw : Str) (offset : Nat) : Option (UInt64 × Nat) :=
  if raw.length < offset + 8 then none
  else some (decodeU64Be (raw.drop offset), offset + 8)

/-! ## Frames -/

inductive MuninnRecordType where
  | snapshot | delta
  deriving DecidableEq, Repr

def MuninnRecordType.value : MuninnRecordType → UInt8
  | snapshot => 1
  | delta => 2

/-- The type of a byte: `is_valid_record_type` and the cast. -/
def MuninnRecordType.ofByte (value : UInt8) : Option MuninnRecordType :=
  if value = 1 then some .snapshot else if value = 2 then some .delta else none

structure MuninnFrame where
  type : MuninnRecordType := .snapshot
  createdAtUnixSeconds : UInt64 := 0
  routingKey : Str := []
  payload : Str := []
  deriving DecidableEq, Repr

/-- The type, the creation time, the number of bytes of an empty key and payload. -/
def kMinFrameSize : Nat := 1 + 8 + 4 + 4

def serializeMuninnFrame (frame : MuninnFrame) : Str :=
  frame.type.value :: encodeU64Be frame.createdAtUnixSeconds ++
    encodeU32Be frame.routingKey.length.toUInt32 ++ frame.routingKey ++
    encodeU32Be frame.payload.length.toUInt32 ++ frame.payload

def parseError (text : String) : Status := .failure .parseError text

def parseMuninnFrame (raw : Str) : Except Status MuninnFrame :=
  if raw.length < kMinFrameSize then .error (parseError "Muninn frame is truncated.")
  else
    match MuninnRecordType.ofByte (raw.headD 0) with
    | none => .error (parseError "Muninn frame type is invalid.")
    | some type =>
        match readU64Be raw 1 with
        | none => .error (parseError "Muninn frame created_at is truncated.")
        | some (createdAtUnixSeconds, offset) =>
            match readU32Be raw offset with
            | none => .error (parseError "Muninn frame routing key length is truncated.")
            | some (routeLen, offset) =>
                if raw.length < offset + routeLen.toNat + 4 then
                  .error (parseError "Muninn frame routing key is invalid.")
                else
                  let routingKey := (raw.drop offset).take routeLen.toNat
                  match readU32Be raw (offset + routeLen.toNat) with
                  | none => .error (parseError "Muninn frame payload length is truncated.")
                  | some (payloadLen, offset) =>
                      if offset + payloadLen.toNat ≠ raw.length then
                        .error (parseError "Muninn frame payload size is invalid.")
                      else
                        .ok { type, createdAtUnixSeconds, routingKey, payload := raw.drop offset }

end ServerStorage.Hugin
