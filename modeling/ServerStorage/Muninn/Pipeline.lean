/-
# `ServerStorage.Muninn.Pipeline` — `api/indexing_pipeline.cpp`

A capture scans, builds, validates and stores.  The scan is an argument here; the
rest is cut where other transactions of the store may come in between:
`scanned` (scan, build, validation), `basedOn` (the base read in a transaction of
its own, the delta computed and validated), and the one write.  A whole capture is
these in sequence; `none` is a build that does not return.
-/
import ServerStorage.Muninn.Builder
import ServerStorage.Muninn.LmdbStore

namespace ServerStorage.Muninn

open Lib Lmdb

structure PipelineResult where
  rawScan : RawScanResult := {}
  snapshotBuild : BuildResult := {}
  snapshotValidation : ValidationReport := []
  baseSnapshot : Option Snapshot := none
  computedDelta : Option DeltaSnapshot := none
  deltaValidation : ValidationReport := []
  snapshotStoreStatus : StoreStatus := .success
  deltaStoreStatus : StoreStatus := .success
  transportSnapshotStatus : StoreStatus := .success
  transportDeltaStatus : StoreStatus := .success

namespace PipelineResult

def ok (result : PipelineResult) : Bool :=
  result.snapshotStoreStatus.ok &&
  result.deltaStoreStatus.ok &&
  result.transportSnapshotStatus.ok &&
  result.transportDeltaStatus.ok &&
  result.snapshotValidation.ok &&
  (!result.computedDelta.isSome || result.deltaValidation.ok)

/-- The snapshot side fails; the transport only when it was asked for. -/
def failSnapshot (result : PipelineResult) (status : StoreStatus) (enqueueTransport : Bool) :
    PipelineResult :=
  { result with
    snapshotStoreStatus := status
    transportSnapshotStatus :=
      if enqueueTransport then status else result.transportSnapshotStatus }

def failDelta (result : PipelineResult) (status : StoreStatus) (enqueueTransport : Bool) :
    PipelineResult :=
  { result with
    deltaStoreStatus := status
    transportDeltaStatus := if enqueueTransport then status else result.transportDeltaStatus }

end PipelineResult

/-- What a capture meets on its way: clock readings and the faults of its
transactions. -/
structure CaptureIo where
  scanned : UnixTimestamp := 0
  baseRead : UnixTimestamp := 0
  clock : LmdbStore.Clock := {}
  readFaults : List (Option Fault) := []
  writeFaults : List (Option Fault) := []

namespace IndexingPipeline

def snapshotInvalid : StoreStatus :=
  .failure .validationFailure (text "Snapshot validation failed before persistence.")

def deltaInvalid : StoreStatus :=
  .failure .validationFailure (text "Delta validation failed before persistence.")

/-- Scan, build and validation. -/
def scanned (rawScan : RawScanResult) (now : UnixTimestamp) : Option PipelineResult := do
  let built ← SnapshotBuilder.build rawScan {}
  return { rawScan := rawScan
           snapshotBuild := built
           snapshotValidation := validateSnapshotAt now built.snapshot }

/-- The write of `capture_snapshot`. -/
def storeSnapshot (store : LmdbStore) (result : PipelineResult) (enqueueTransport : Bool)
    (io : CaptureIo) : PipelineResult × LmdbStore :=
  if !result.snapshotValidation.ok then
    (result.failSnapshot snapshotInvalid enqueueTransport, store)
  else
    let (status, store) := store.putSnapshotWithTransport result.snapshotBuild.snapshot
      enqueueTransport false io.clock io.writeFaults
    if status.ok then (result, store) else (result.failSnapshot status enqueueTransport, store)

def captureSnapshot (store : LmdbStore) (rawScan : RawScanResult) (enqueueTransport : Bool)
    (io : CaptureIo) : Option (PipelineResult × LmdbStore) := do
  let result ← scanned rawScan io.scanned
  return storeSnapshot store result enqueueTransport io

/-- What `capture_snapshot_and_delta` decides to do once it has its base. -/
inductive UpdatePlan where
  /-- Nothing to write: the result as it stands. -/
  | done (result : PipelineResult)
  | put (result : PipelineResult) (base : Snapshot) (delta : DeltaSnapshot)

/-- The base was read: compute the delta and validate it. -/
def withBase (result : PipelineResult) (base : Snapshot) (enqueueTransport : Bool) : UpdatePlan :=
  let target := result.snapshotBuild.snapshot
  let delta := DeltaEngine.compute base target
  let result :=
    { result with
      baseSnapshot := some base
      computedDelta := some delta
      deltaValidation := validateDelta delta (some base) (some target) }
  if !result.deltaValidation.ok then .done (result.failDelta deltaInvalid enqueueTransport)
  else if !deltaHasChanges delta then
    let unchanged : DeltaSnapshot :=
      { schema := kCurrentSchemaHeader
        baseSnapshotId := base.snapshotId
        targetSnapshotId := base.snapshotId }
    .done
      { result with
        snapshotBuild := { result.snapshotBuild with snapshot := base }
        computedDelta := some unchanged
        deltaValidation := validateDelta unchanged (some base) (some base) }
  else .put result base delta

/-- The read of the base, and the plan that follows. -/
def basedOn (store : LmdbStore) (result : PipelineResult) (baseSnapshotId : SnapshotId)
    (enqueueTransport : Bool) (io : CaptureIo) : UpdatePlan :=
  if !result.snapshotValidation.ok then
    .done ((result.failSnapshot snapshotInvalid enqueueTransport).failDelta snapshotInvalid
      enqueueTransport)
  else
    match store.getSnapshot baseSnapshotId true io.baseRead io.readFaults with
    | .error status => .done (result.failDelta status enqueueTransport)
    | .ok base => withBase result base enqueueTransport

/-- The write of `capture_snapshot_and_delta`. -/
def storeUpdate (store : LmdbStore) (plan : UpdatePlan) (enqueueTransport : Bool)
    (io : CaptureIo) : PipelineResult × LmdbStore :=
  match plan with
  | .done result => (result, store)
  | .put result base delta =>
      let (status, store) := store.putSnapshotAndDeltaWithTransport
        result.snapshotBuild.snapshot delta (some base) enqueueTransport false io.clock
        io.writeFaults
      if status.ok then (result, store)
      else ((result.failSnapshot status enqueueTransport).failDelta status enqueueTransport, store)

def captureSnapshotAndDelta (store : LmdbStore) (rawScan : RawScanResult)
    (baseSnapshotId : SnapshotId) (enqueueTransport : Bool) (io : CaptureIo) :
    Option (PipelineResult × LmdbStore) := do
  let result ← scanned rawScan io.scanned
  return storeUpdate store (basedOn store result baseSnapshotId enqueueTransport io)
    enqueueTransport io

end IndexingPipeline

end ServerStorage.Muninn
