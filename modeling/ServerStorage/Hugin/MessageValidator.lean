/-
# `ServerStorage.Hugin.MessageValidator` — `ingest/message_validator.cpp`

A frame is decoded by Muninn's codec, validated, and its routing key compared with
what it carries.  The validation reads the clock for warnings only, so its verdict is
`snapshotErrors`.  `onCrudResult` is the callback of `main.cpp` that takes the records
of a reply through it to the materializer; the broadcast to the frontends is left out.
-/
import ServerStorage.Hugin.MuninnFrame
import ServerStorage.Lib.Decimal
import ServerStorage.Muninn.Serialization
import ServerStorage.Muninn.Validation
import ServerStorage.Shared.CrudProtocol

namespace ServerStorage.Hugin

open Lib Crud ServerStorage.Muninn

/-! ## Routing keys -/

/-- What stands before and behind the first `->`. -/
def splitArrow : Str → Option (Str × Str)
  | 45 :: 62 :: rest => some ([], rest)
  | c :: rest => (splitArrow rest).map fun parts => (c :: parts.1, parts.2)
  | [] => none

def validationError (text : String) : Status := .failure .validationError text

def validateDeltaRoutingKey (routingKey : Str) (delta : DeltaSnapshot) : Status :=
  match splitArrow routingKey with
  | none => validationError "Delta routing key is malformed."
  | some (baseText, targetText) =>
      match stoull baseText, stoull targetText with
      | some base, some target =>
          if base ≠ delta.baseSnapshotId ∨ target ≠ delta.targetSnapshotId then
            validationError "Delta routing key does not match payload snapshot ids."
          else .success
      | _, _ => validationError "Delta routing key parse failed."

/-! ## `MessageValidator` -/

structure ValidatedRecord where
  frame : MuninnFrame := {}
  snapshot : Option Snapshot := none
  delta : Option DeltaSnapshot := none
  deriving DecidableEq, Repr

def validateSnapshotFrame (frame : MuninnFrame) (expectedHostId : Str) :
    Except Status ValidatedRecord :=
  match Serialization.deserializeSnapshotBinary frame.payload with
  | .error e => .error (parseError ("Snapshot payload decode failed: " ++ e.message))
  | .ok snapshot =>
      if snapshotErrors snapshot then
        .error (validationError "Snapshot payload validation failed.")
      else if expectedHostId ≠ [] ∧ snapshot.hostIdentifier ≠ expectedHostId then
        .error (validationError "Snapshot host identifier does not match authenticated host.")
      else if frame.routingKey ≠ [] ∧ frame.routingKey ≠ snapshot.hostIdentifier then
        .error (validationError "Snapshot routing key does not match payload host identifier.")
      else .ok { frame := frame, snapshot := some snapshot }

def validateDeltaFrame (frame : MuninnFrame) : Except Status ValidatedRecord :=
  match Serialization.deserializeDeltaBinary frame.payload with
  | .error e => .error (parseError ("Delta payload decode failed: " ++ e.message))
  | .ok delta =>
      if (validateDelta delta none none).hasErrors then
        .error (validationError "Delta payload validation failed.")
      else
        let routeStatus := validateDeltaRoutingKey frame.routingKey delta
        if !routeStatus.ok then .error routeStatus
        else .ok { frame := frame, delta := some delta }

def validateAndDecode (frame : MuninnFrame) (expectedHostId : Str) :
    Except Status ValidatedRecord :=
  match frame.type with
  | .snapshot => validateSnapshotFrame frame expectedHostId
  | .delta => validateDeltaFrame frame

/-! ## `on_crud_result` (`main.cpp`) -/

/-- The frame of a record: `none` for a record that is passed over, because of its type
or its payload. -/
def frameOf (record : TransportRecordMessage) : Option MuninnFrame :=
  match MuninnRecordType.ofByte record.recordType with
  | none => none
  | some type =>
      (base64Decode record.payloadB64).map fun payload =>
        { type := type
          createdAtUnixSeconds := record.createdAt
          routingKey := record.routingKey
          payload := payload }

/-- A validated record, applied: `none` where it carries neither. -/
def applyValidated (sink : MaterializerSink) (sequence : UInt64) (validated : ValidatedRecord) :
    Status × MaterializerSink :=
  match validated.snapshot, validated.delta with
  | some snapshot, _ => sink.applySnapshot snapshot.hostIdentifier sequence snapshot
  | none, some delta => sink.applyDelta [] sequence delta
  | none, none => (.success, sink)

/-- One turn of the loop over the records. -/
def onRecord (sink : MaterializerSink) (record : TransportRecordMessage) : MaterializerSink :=
  match frameOf record with
  | none => sink
  | some frame =>
      match validateAndDecode frame [] with
      | .error _ => sink
      | .ok validated => (applyValidated sink record.sequence validated).2

def onCrudResult (sink : MaterializerSink) (result : CrudResultMessage) : MaterializerSink :=
  result.records.foldl onRecord sink

end ServerStorage.Hugin
