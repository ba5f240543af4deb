/-
# `ServerStorage.Hugin.FrontendDto` — `api/frontend_dto.cpp`, the command request

A frontend's JSON body as a command: a parser with ranges of its own, and the conversion
to the shared command.  The fields of a JSON object stand in the order in which the source
iterates over them.
-/
import ServerStorage.Hugin.Materializer
import ServerStorage.Shared.CrudProtocol

namespace ServerStorage.Hugin

open Lib Crud ServerStorage.Muninn

inductive FrontendOperation where
  | create | read | update | delete
  deriving DecidableEq, Repr

structure FrontendCommandRequestDto where
  requestId : Str := []
  operation : FrontendOperation := .read
  rootPath : Str := []
  snapshotId : UInt64 := 0
  baseSnapshotId : UInt64 := 0
  ackSequence : UInt64 := 0
  outboxBatchSize : UInt32 := 128
  deriving DecidableEq, Repr

def kAllowedCommandKeys : List String :=
  ["request_id", "operation", "root_path", "snapshot_id", "base_snapshot_id", "ack_sequence",
   "outbox_batch_size"]

def isAllowedKey (key : Str) : Bool := kAllowedCommandKeys.any fun allowed => str allowed == key

def parseOperation (text : Str) : Option FrontendOperation :=
  if text = str "create" then some .create
  else if text = str "read" then some .read
  else if text = str "update" then some .update
  else if text = str "delete" then some .delete
  else none

def toCrudOperation : FrontendOperation → Operation
  | .create => .create
  | .read => .read
  | .update => .update
  | .delete => .delete

def requestError (text : String) : Status := .failure .validationError text

/-- The keys of an object. -/
def keysOf : Json → List Str
  | .object fields => fields.map (·.1)
  | _ => []

/-- A text field that may be absent: its name is what the message starts with. -/
def readText (json : Json) (field : String) : Except Status Str :=
  match json.find (str field) with
  | none => .ok []
  | some (.string text) => .ok text
  | some _ => .error (requestError (field ++ " must be a string."))

/-- `read_u64`: `none` is its `false`. -/
def readU64 (json : Json) (field : String) : Option UInt64 :=
  match json.find (str field) with
  | none => some 0
  | some (.numberUnsigned value) => some value
  | some (.numberInteger value) => if value < 0 then none else some value.toUInt64
  | some _ => none

/-- The three numbers, read in one condition. -/
def readNumbers (json : Json) : Except Status (UInt64 × UInt64 × UInt64) :=
  match readU64 json "snapshot_id", readU64 json "base_snapshot_id", readU64 json "ack_sequence" with
  | some snapshotId, some baseSnapshotId, some ackSequence =>
      .ok (snapshotId, baseSnapshotId, ackSequence)
  | _, _, _ =>
      .error (requestError
        "snapshot_id/base_snapshot_id/ack_sequence must be non-negative integers.")

def readBatchSize (json : Json) : Except Status UInt32 :=
  let outOfRange := requestError "outbox_batch_size is out of range."
  let inRange (value : UInt64) : Except Status UInt32 :=
    if value = 0 ∨ 0xFFFFFFFF < value then .error outOfRange else .ok value.toUInt32
  match json.find (str "outbox_batch_size") with
  | none => .ok 128
  | some (.numberUnsigned value) => inRange value
  | some (.numberInteger value) => if value ≤ 0 then .error outOfRange else inRange value.toUInt64
  | some _ => .error (requestError "outbox_batch_size must be a positive integer.")

def parseFrontendCommandRequest (json : Json) : Except Status FrontendCommandRequestDto :=
  if !json.isObject then
    .error (.failure .parseError "Command payload must be a JSON object.")
  else
    match (keysOf json).find? fun key => !isAllowedKey key with
    | some key =>
        .error { code := .validationError, message := str "Unknown command field: " ++ key }
    | none =>
        match json.find (str "operation") with
        | some (.string text) =>
            match parseOperation text with
            | none =>
                .error (requestError "operation must be one of create/read/update/delete.")
            | some operation => do
                let requestId ← readText json "request_id"
                let rootPath ← readText json "root_path"
                let (snapshotId, baseSnapshotId, ackSequence) ← readNumbers json
                let outboxBatchSize ← readBatchSize json
                return { requestId, operation, rootPath, snapshotId, baseSnapshotId, ackSequence
                         outboxBatchSize }
        | _ => .error (requestError "operation is required and must be a string.")

def toCrudCommand (dto : FrontendCommandRequestDto) : CrudCommandMessage where
  requestId := dto.requestId
  operation := toCrudOperation dto.operation
  rootPath := dto.rootPath
  snapshotId := dto.snapshotId
  baseSnapshotId := dto.baseSnapshotId
  ackSequence := dto.ackSequence
  outboxBatchSize := dto.outboxBatchSize

/-- `FrontendApiSharedState::next_request_id`, with the counter it counts up. -/
def nextFrontendRequestId (requestCounter : UInt64) : Str :=
  str "frontend-" ++ decimal (requestCounter + 1).toNat

/-- The command that the handler of the command path makes of a request. -/
def frontendCommand (requestCounter : UInt64) (dto : FrontendCommandRequestDto) :
    CrudCommandMessage :=
  if dto.requestId = [] then
    toCrudCommand { dto with requestId := nextFrontendRequestId requestCounter }
  else toCrudCommand dto

end ServerStorage.Hugin
