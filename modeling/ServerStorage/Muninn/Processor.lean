/-
# `ServerStorage.Muninn.Processor` — `transport/crud_command_processor.cpp`

One command is an ack, a check that the command may run, and its operation; every
step that fails ends it with the message of that step.  `scan` is the scanner under
the server's scan options.  Without an answer a command is left by the `std::length_error` of
the fetch; `none` altogether is a capture that does not return.
-/
import ServerStorage.Muninn.Pipeline
import ServerStorage.Shared.CrudProtocol

namespace ServerStorage.Muninn

open Lib Lmdb Crud

inductive TransportSecurityMode where
  | dev | prod
  deriving DecidableEq, Repr

/-- `CrudServerOptions`, without the addresses and paths the server listens on. -/
structure CrudServerOptions where
  defaultRootPath : Str := []
  defaultOutboxBatchSize : Nat := 64
  retentionKeepLatestSnapshots : Nat := 0
  securityMode : TransportSecurityMode := .dev
  allowRemoteMutatingCommands : Bool := false
  allowedClientInstanceId : Str := str "hugin-gateway-1"
  bridgeAuthToken : Str := []

/-- The faults of the transactions one command may open, in their order. -/
structure CommandIo where
  ack : List (Option Fault) := []
  capture : CaptureIo := {}
  retention : List (Option Fault) := []
  delete : List (Option Fault) := []
  fetch : List (Option Fault) := []

namespace CrudCommandProcessor

def resolveRootPath (commandRoot : Str) (options : CrudServerOptions) : Option Str :=
  if commandRoot ≠ [] then some commandRoot
  else if options.defaultRootPath ≠ [] then some options.defaultRootPath
  else none

def toMessage (record : TransportRecord) : TransportRecordMessage :=
  { sequence := record.sequence
    recordType := record.type
    createdAt := record.createdAt
    routingKey := record.routingKey
    payloadB64 := base64Encode record.payload }

def appendTransportRecords (store : LmdbStore) (consumerId : Str) (maxItems : Nat)
    (io : List (Option Fault)) : Except StoreStatus (Option (List TransportRecordMessage)) := do
  let records ← store.fetchTransportBatchForConsumer consumerId (max 1 maxItems) io
  return records.map (List.map toMessage)

theorem appendTransportRecords_ok {store : LmdbStore} {consumerId : Str} {maxItems : Nat}
    {io : List (Option Fault)} {messages : List TransportRecordMessage}
    (h : appendTransportRecords store consumerId maxItems io = .ok (some messages)) :
    ∃ records, store.fetchTransportBatchForConsumer consumerId (max 1 maxItems) io =
      .ok (some records) ∧ records.map toMessage = messages := by
  obtain ⟨found, hfetch, hmap⟩ := except_bind_ok.mp h
  obtain ⟨records, rfl, hmessages⟩ := Option.map_eq_some_iff.mp (Except.ok.inj hmap)
  exact ⟨records, hfetch, hmessages⟩

def pipelineErrorMessage (result : PipelineResult) : Str :=
  if !result.snapshotStoreStatus.ok then result.snapshotStoreStatus.message.bytes
  else if !result.transportSnapshotStatus.ok then result.transportSnapshotStatus.message.bytes
  else if !result.deltaStoreStatus.ok then result.deltaStoreStatus.message.bytes
  else if !result.transportDeltaStatus.ok then result.transportDeltaStatus.message.bytes
  else if !result.snapshotValidation.ok then str "Snapshot validation failed."
  else if result.computedDelta.isSome && !result.deltaValidation.ok then
    str "Delta validation failed."
  else str "Pipeline execution failed."

/-- `remote_mutating_commands_allowed`: the message of a refusal. -/
def remoteMutatingRefusal (options : CrudServerOptions) (command : CrudCommandMessage) :
    Option Str :=
  if options.allowRemoteMutatingCommands ∨ command.operation = .read then none
  else
    some (operationToString command.operation ++ str (" is disabled on the Muninn bridge. " ++
      "Muninn owns capture and persistence; remote bridge commands are read/ack only " ++
      "by default."))

def batchSize (options : CrudServerOptions) (command : CrudCommandMessage) : Nat :=
  if command.outboxBatchSize = 0 then max 1 options.defaultOutboxBatchSize
  else command.outboxBatchSize.toNat

/-- The ack a command carries. -/
def ackOf (store : LmdbStore) (command : CrudCommandMessage) (consumerId : Str)
    (io : CommandIo) : StoreStatus × LmdbStore :=
  if 0 < command.ackSequence then
    store.ackTransportUntilForConsumer consumerId command.ackSequence io.ack
  else (.success, store)

/-- The last step of a command that returns records. -/
def withBatch (options : CrudServerOptions) (store : LmdbStore) (command : CrudCommandMessage)
    (consumerId : Str) (io : CommandIo) (result : CrudResultMessage) (message : String) :
    Option CrudResultMessage :=
  match appendTransportRecords store consumerId (batchSize options command) io.fetch with
  | .error status => some { result with message := status.message.bytes }
  | .ok none => none
  | .ok (some records) =>
      some { result with ok := true, message := str message, records := records }

/-- Retention, where it is configured. -/
def retain (options : CrudServerOptions) (store : LmdbStore) (io : CommandIo) :
    StoreStatus × LmdbStore :=
  if 0 < options.retentionKeepLatestSnapshots then
    let (status, _, store) :=
      store.applySnapshotRetention options.retentionKeepLatestSnapshots io.retention
    (status, store)
  else (.success, store)

/-- After a capture that succeeded: retention, then the batch. -/
def finishCapture (options : CrudServerOptions) (store : LmdbStore)
    (command : CrudCommandMessage) (consumerId : Str) (io : CommandIo)
    (failed result : CrudResultMessage) (message : String) :
    Option CrudResultMessage × LmdbStore :=
  let (status, store) := retain options store io
  if !status.ok then (some { failed with message := status.message.bytes }, store)
  else (withBatch options store command consumerId io result message, store)

def create (options : CrudServerOptions) (scan : Str → RawScanResult) (store : LmdbStore)
    (command : CrudCommandMessage) (consumerId : Str) (io : CommandIo)
    (result : CrudResultMessage) : Option (Option CrudResultMessage × LmdbStore) :=
  match resolveRootPath command.rootPath options with
  | none =>
      some (some { result with message := str "Create operation requires root_path." }, store)
  | some rootPath => do
      let (pipeline, store) ←
        IndexingPipeline.captureSnapshot store (scan rootPath) true io.capture
      if !pipeline.ok || !pipeline.transportSnapshotStatus.ok then
        return (some { result with message := pipelineErrorMessage pipeline }, store)
      else
        return finishCapture options store command consumerId io result
          { result with snapshotId := pipeline.snapshotBuild.snapshot.snapshotId }
          "snapshot_created"

/-- The base an update names. -/
def updateBase (command : CrudCommandMessage) : SnapshotId :=
  if command.baseSnapshotId ≠ 0 then command.baseSnapshotId else command.snapshotId

def update (options : CrudServerOptions) (scan : Str → RawScanResult) (store : LmdbStore)
    (command : CrudCommandMessage) (consumerId : Str) (io : CommandIo)
    (result : CrudResultMessage) : Option (Option CrudResultMessage × LmdbStore) :=
  match resolveRootPath command.rootPath options with
  | none =>
      some (some { result with message := str "Update operation requires root_path." }, store)
  | some rootPath =>
      if updateBase command = 0 then
        some (some { result with
          message := str "Update operation requires base_snapshot_id (or snapshot_id)." }, store)
      else do
        let (pipeline, store) ← IndexingPipeline.captureSnapshotAndDelta store (scan rootPath)
          (updateBase command) true io.capture
        if !pipeline.ok || !pipeline.transportSnapshotStatus.ok ||
            !pipeline.transportDeltaStatus.ok then
          return (some { result with message := pipelineErrorMessage pipeline }, store)
        else
          return finishCapture options store command consumerId io result
            { result with
              baseSnapshotId := updateBase command
              targetSnapshotId := pipeline.snapshotBuild.snapshot.snapshotId
              snapshotId := pipeline.snapshotBuild.snapshot.snapshotId }
            "snapshot_updated"

def delete (store : LmdbStore) (command : CrudCommandMessage) (io : CommandIo)
    (result : CrudResultMessage) : Option CrudResultMessage × LmdbStore :=
  if command.snapshotId = 0 then
    (some { result with message := str "Delete operation requires snapshot_id." }, store)
  else
    let (status, _, store) := store.deleteSnapshot command.snapshotId io.delete
    if !status.ok then (some { result with message := status.message.bytes }, store)
    else
      (some { result with
          ok := true, snapshotId := command.snapshotId, message := str "snapshot_deleted" },
        store)

/-- The operation of a command whose ack is stored and which may run. -/
def operate (options : CrudServerOptions) (scan : Str → RawScanResult) (store : LmdbStore)
    (command : CrudCommandMessage) (consumerId : Str) (io : CommandIo)
    (result : CrudResultMessage) : Option (Option CrudResultMessage × LmdbStore) :=
  match command.operation with
  | .read => some (withBatch options store command consumerId io result "ok", store)
  | .create => create options scan store command consumerId io result
  | .update => update options scan store command consumerId io result
  | .delete => some (delete store command io result)

def process (options : CrudServerOptions) (scan : Str → RawScanResult) (store : LmdbStore)
    (command : CrudCommandMessage) (consumerId : Str) (io : CommandIo) :
    Option (Option CrudResultMessage × LmdbStore) :=
  let result : CrudResultMessage := { requestId := command.requestId }
  let (ackStatus, store) := ackOf store command consumerId io
  if !ackStatus.ok then some (some { result with message := ackStatus.message.bytes }, store)
  else
    match remoteMutatingRefusal options command with
    | some message => some (some { result with message := message }, store)
    | none => operate options scan store command consumerId io result

end CrudCommandProcessor

end ServerStorage.Muninn
