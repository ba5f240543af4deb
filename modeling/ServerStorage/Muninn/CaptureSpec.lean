/-
# `ServerStorage.Muninn.CaptureSpec` — a capture is all or nothing

One write transaction carries the snapshot, the delta and their outbox records, so a
capture that does not report success has changed nothing; one that does has changed
the tables as `CaptureWrites` says, and no other.
-/
import ServerStorage.Muninn.StoreSpec
import ServerStorage.Muninn.Pipeline

namespace ServerStorage.Muninn

open Lib Lmdb Dbi LmdbStore IndexingPipeline

/-! ## The tables after a capture -/

/-- The frames, put into the outbox under the numbers from `sequence` on. -/
def putFrames (outbox : Db) (sequence : UInt64) : List Str → Db
  | [] => outbox
  | frame :: rest => putFrames (outbox.put (encodeU64Be sequence) frame) (sequence + 1) rest

/-- The store after a capture of `snapshot`, table by table, next to the store before. -/
structure CaptureWrites (before after : LmdbStore) (snapshot : Snapshot) (payload : Str)
    (delta : Option (DeltaSnapshot × Str)) (frames : List Str) : Prop where
  isOpen : after.isOpen = before.isOpen
  snapshots : after.env.db snapshotsDbi =
    (before.env.db snapshotsDbi).put (encodeU64Be snapshot.snapshotId) payload
  deltas : after.env.db deltasDbi =
    delta.elim (before.env.db deltasDbi) fun d =>
      (before.env.db deltasDbi).put (makeDeltaKey d.1.baseSnapshotId d.1.targetSnapshotId) d.2
  outbox : after.env.db transportDbi =
    putFrames (before.env.db transportDbi) (nextSequenceOf before.env) frames
  counter : after.env.db metaDbi =
    if frames = [] then before.env.db metaDbi
    else (before.env.db metaDbi).put kKeyNextSequence
      (encodeU64Be (nextSequenceOf before.env + frames.length.toUInt64))
  consumers : after.env.db transportConsumersDbi = before.env.db transportConsumersDbi
  mapSize : after.env.mapSize = before.env.mapSize

theorem Db.put_put (db : Db) (k v w : Str) : (db.put k v).put k w = db.put k w := by
  refine Db.ext_get fun k' => ?_
  rw [Db.get_put, Db.get_put, Db.get_put]
  split <;> rfl

theorem captureWrites_snapshot {store : LmdbStore} {snapshot : Snapshot} {payload frame : Str}
    (enqueue : Bool) :
    CaptureWrites store
      { store with
        env := enqueuedIf enqueue (withSnapshot store.env snapshot.snapshotId payload) frame }
      snapshot payload none (if enqueue then [frame] else []) := by
  cases enqueue with
  | false =>
      exact
        { isOpen := rfl
          snapshots := Env.set_db_self ..
          deltas := Env.set_db_ne (by decide)
          outbox := Env.set_db_ne (by decide)
          counter := Env.set_db_ne (by decide)
          consumers := Env.set_db_ne (by decide)
          mapSize := rfl }
  | true =>
      exact
        { isOpen := rfl
          snapshots := by
            simp [enqueuedIf, enqueued, counted, withSnapshot]
          deltas := by
            simp [enqueuedIf, enqueued, counted, withSnapshot]
          outbox := by
            simp [enqueuedIf, enqueued, counted, withSnapshot, nextSequenceOf, putFrames]
          counter := by
            simp [enqueuedIf, enqueued, counted, withSnapshot, nextSequenceOf]
          consumers := by
            simp [enqueuedIf, enqueued, counted, withSnapshot]
          mapSize := rfl }

theorem captureWrites_delta {store : LmdbStore} {snapshot : Snapshot} {delta : DeltaSnapshot}
    {payload deltaPayload frame deltaFrame : Str} (enqueue : Bool) :
    CaptureWrites store
      { store with
        env := enqueuedIf enqueue
          (enqueuedIf enqueue (withCapture store.env snapshot delta payload deltaPayload) frame)
          deltaFrame }
      snapshot payload (some (delta, deltaPayload))
      (if enqueue then [frame, deltaFrame] else []) := by
  cases enqueue with
  | false =>
      exact
        { isOpen := rfl
          snapshots := by simp [enqueuedIf, withCapture, withDelta, withSnapshot]
          deltas := by simp [enqueuedIf, withCapture, withDelta, withSnapshot]
          outbox := by simp [enqueuedIf, withCapture, withDelta, withSnapshot, putFrames]
          counter := by simp [enqueuedIf, withCapture, withDelta, withSnapshot]
          consumers := by simp [enqueuedIf, withCapture, withDelta, withSnapshot]
          mapSize := rfl }
  | true =>
      have hnext : nextSequenceOf (withCapture store.env snapshot delta payload deltaPayload) =
          nextSequenceOf store.env := by
        simp [nextSequenceOf, withCapture, withDelta, withSnapshot]
      have hnext' (env : Env Dbi) : nextSequenceOf (enqueued env frame) = nextSequenceOf env + 1 := by
        simp [nextSequenceOf, enqueued, counted, decodeU64Be_encodeU64Be, Db.get_put]
      exact
        { isOpen := rfl
          snapshots := by
            simp [enqueuedIf, enqueued, counted, withCapture, withDelta, withSnapshot]
          deltas := by
            simp [enqueuedIf, enqueued, counted, withCapture, withDelta, withSnapshot]
          outbox := by
            rw [enqueuedIf, if_pos rfl, enqueuedIf, if_pos rfl, enqueued, hnext', hnext]
            simp [enqueued, counted, withCapture, withDelta, withSnapshot, putFrames,
              nextSequenceOf]
          counter := by
            rw [enqueuedIf, if_pos rfl, enqueuedIf, if_pos rfl, enqueued, hnext', hnext]
            simp [enqueued, counted, withCapture, withDelta, withSnapshot, Db.put_put, add_assoc]
          consumers := by
            simp [enqueuedIf, enqueued, counted, withCapture, withDelta, withSnapshot]
          mapSize := rfl }

/-! ## The steps before the write -/

namespace IndexingPipeline

variable {store : LmdbStore} {rawScan : RawScanResult} {result result' : PipelineResult}
  {baseSnapshotId : SnapshotId} {enqueueTransport : Bool} {io : CaptureIo}

/-- Nothing has failed yet. -/
structure Fresh (result : PipelineResult) : Prop where
  snapshot : result.snapshotStoreStatus = .success
  delta : result.deltaStoreStatus = .success
  transportSnapshot : result.transportSnapshotStatus = .success
  transportDelta : result.transportDeltaStatus = .success
  computed : result.computedDelta = none

theorem fresh_scanned {now : UnixTimestamp} (h : scanned rawScan now = some result) :
    Fresh result := by
  obtain ⟨built, -, h⟩ := Option.bind_eq_some_iff.mp h
  obtain rfl := Option.some.inj h
  exact ⟨rfl, rfl, rfl, rfl, rfl⟩

theorem ok_failSnapshot {status : StoreStatus} (h : Failed status) :
    (result.failSnapshot status enqueueTransport).ok = false := by
  have hfailed : status.ok = false := h
  simp [PipelineResult.ok, PipelineResult.failSnapshot, hfailed]

theorem ok_failDelta {status : StoreStatus} (h : Failed status) :
    (result.failDelta status enqueueTransport).ok = false := by
  have hfailed : status.ok = false := h
  simp [PipelineResult.ok, PipelineResult.failDelta, hfailed]

theorem refuses_getSnapshot (store : LmdbStore) (snapshotId : SnapshotId) (validate : Bool)
    (now : UnixTimestamp) (faults : List (Option Fault)) :
    Refuses Failed (store.getSnapshot snapshotId validate now faults) := by
  refine .bind (refuses_notOpen _) fun _ => .bind (refuses_readTxn ?_ _ _) fun payload =>
    .bind (.mapError fun _ => failed_failure (by decide) _ _) fun _ =>
      .bind (refuses_checkedIf (refuses_validateSnapshot _ _)) fun _ => .ok _
  refine .bind (.mapError (failed_lmdbError _)) fun found => ?_
  cases found with
  | none => exact .throw (failed_failure (by decide) _ _)
  | some payload => exact .pure _

/-- What an incremental capture plans: to give up, to write nothing because nothing
has changed, or to write the delta from the base it has read. -/
theorem basedOn_cases (store : LmdbStore) (baseSnapshotId : SnapshotId) (enqueueTransport : Bool)
    (io : CaptureIo) (hfresh : Fresh result) :
    (∃ result', basedOn store result baseSnapshotId enqueueTransport io = .done result' ∧
      result'.ok = false) ∨
    (∃ result' base delta, basedOn store result baseSnapshotId enqueueTransport io =
        .done result' ∧
      store.getSnapshot baseSnapshotId true io.baseRead io.readFaults = .ok base ∧
      deltaHasChanges (DeltaEngine.compute base result.snapshotBuild.snapshot) = false ∧
      result'.computedDelta = some delta ∧ deltaHasChanges delta = false ∧
      result'.snapshotBuild.snapshot = base) ∨
    ∃ result' base, basedOn store result baseSnapshotId enqueueTransport io =
        .put result' base (DeltaEngine.compute base result.snapshotBuild.snapshot) ∧
      store.getSnapshot baseSnapshotId true io.baseRead io.readFaults = .ok base ∧
      result'.computedDelta = some (DeltaEngine.compute base result.snapshotBuild.snapshot) ∧
      deltaHasChanges (DeltaEngine.compute base result.snapshotBuild.snapshot) = true ∧
      result'.snapshotBuild = result.snapshotBuild ∧ result'.ok = true := by
  rw [basedOn]
  split
  · refine .inl ⟨_, rfl, ok_failDelta (failed_failure (by decide) _ _)⟩
  next hvalid =>
    cases hbase : store.getSnapshot baseSnapshotId true io.baseRead io.readFaults with
    | error status =>
        exact .inl ⟨_, rfl, ok_failDelta (refuses_getSnapshot _ _ _ _ _ _ hbase)⟩
    | ok base =>
        dsimp only [withBase]
        split
        · exact .inl ⟨_, rfl, ok_failDelta (failed_failure (by decide) _ _)⟩
        next hdelta =>
          split
          next hsame =>
            exact .inr (.inl ⟨_, base, _, rfl, rfl, (Bool.not_eq_true' _).mp hsame, rfl, rfl, rfl⟩)
          next hchanges =>
            refine .inr (.inr ⟨_, base, rfl, rfl, rfl, by simpa using hchanges, rfl, ?_⟩)
            simp only [Bool.not_eq_true', Bool.not_eq_false] at hvalid hdelta
            simp [PipelineResult.ok, hfresh.snapshot, hfresh.delta, hfresh.transportSnapshot,
              hfresh.transportDelta, hvalid, hdelta]

/-! ## The results -/

/-- A full capture that fails leaves the store; one that succeeds adds the snapshot
and, where it is wanted, one outbox record. -/
def FullOutcome (store : LmdbStore) (enqueueTransport : Bool) (io : CaptureIo)
    (result : PipelineResult) (store' : LmdbStore) : Prop :=
  (result.ok = false → store' = store) ∧
    (result.ok = true → ∃ payload,
      serializeSnapshot result.snapshotBuild.snapshot = .ok payload ∧
      CaptureWrites store store' result.snapshotBuild.snapshot payload none
        (if enqueueTransport then
          [serializeFrame .snapshot result.snapshotBuild.snapshot.hostIdentifier payload
            io.clock.firstRecord]
        else []))

/-- An incremental capture that fails leaves the store; one that finds no change
leaves it too and hands back the base; one that finds changes adds the snapshot, the
delta from the base and, where they are wanted, their two outbox records in turn. -/
def UpdateOutcome (store : LmdbStore) (baseSnapshotId : SnapshotId) (enqueueTransport : Bool)
    (io : CaptureIo) (result : PipelineResult) (store' : LmdbStore) : Prop :=
  (result.ok = false → store' = store) ∧
    (result.ok = true → ∃ base delta,
      store.getSnapshot baseSnapshotId true io.baseRead io.readFaults = .ok base ∧
      result.computedDelta = some delta ∧
      (deltaHasChanges delta = false →
        store' = store ∧ result.snapshotBuild.snapshot = base) ∧
      (deltaHasChanges delta = true → ∃ payload deltaPayload,
        delta = DeltaEngine.compute base result.snapshotBuild.snapshot ∧
        serializeSnapshot result.snapshotBuild.snapshot = .ok payload ∧
        serializeDelta delta = .ok deltaPayload ∧
        CaptureWrites store store' result.snapshotBuild.snapshot payload
          (some (delta, deltaPayload))
          (if enqueueTransport then
            [serializeFrame .snapshot result.snapshotBuild.snapshot.hostIdentifier payload
                io.clock.firstRecord,
              serializeFrame .delta (deltaRoute delta) deltaPayload io.clock.secondRecord]
          else [])))

theorem captureSnapshot_outcome {store' : LmdbStore}
    (h : captureSnapshot store rawScan enqueueTransport io = some (result, store')) :
    FullOutcome store enqueueTransport io result store' := by
  obtain ⟨built, hbuilt, h⟩ := Option.bind_eq_some_iff.mp h
  have hfresh := fresh_scanned hbuilt
  replace h := Option.some.inj h
  rw [storeSnapshot] at h
  split at h
  · obtain ⟨rfl, rfl⟩ := Prod.mk.inj h
    have hok : (built.failSnapshot snapshotInvalid enqueueTransport).ok = false :=
      ok_failSnapshot (failed_failure (by decide) _ _)
    exact ⟨fun _ => rfl, fun htrue => absurd (hok.symm.trans htrue) (by decide)⟩
  next hvalid =>
    rcases putSnapshotWithTransport_writes store built.snapshotBuild.snapshot enqueueTransport
        false io.clock io.writeFaults with
      ⟨hfailed, heq⟩ | ⟨hsuccess, -, env, ⟨payload, hpayload, rfl, -⟩, heq⟩
    · dsimp only at h
      rw [if_neg (by rw [show _ = false from hfailed]; decide)] at h
      obtain ⟨rfl, rfl⟩ := Prod.mk.inj h
      exact ⟨fun _ => heq,
        fun htrue => absurd ((ok_failSnapshot hfailed).symm.trans htrue) (by decide)⟩
    · dsimp only at h
      rw [hsuccess, if_pos StoreStatus.ok_success] at h
      obtain ⟨rfl, rfl⟩ := Prod.mk.inj h
      have hok : built.ok = true := by
        simp only [Bool.not_eq_true', Bool.not_eq_false] at hvalid
        simp [PipelineResult.ok, hfresh.snapshot, hfresh.delta, hfresh.transportSnapshot,
          hfresh.transportDelta, hfresh.computed, hvalid]
      refine ⟨fun hfalse => absurd (hok.symm.trans hfalse) (by decide), fun _ => ?_⟩
      rw [heq]
      exact ⟨payload, hpayload, captureWrites_snapshot enqueueTransport⟩

theorem captureSnapshotAndDelta_outcome {store' : LmdbStore}
    (h : captureSnapshotAndDelta store rawScan baseSnapshotId enqueueTransport io =
      some (result, store')) :
    UpdateOutcome store baseSnapshotId enqueueTransport io result store' := by
  obtain ⟨built, hbuilt, h⟩ := Option.bind_eq_some_iff.mp h
  replace h := Option.some.inj h
  rcases basedOn_cases store baseSnapshotId enqueueTransport io (fresh_scanned hbuilt) with
    ⟨given, hplan, hok⟩ | ⟨given, base, delta, hplan, hbase, -, hdelta, hsame, hsnapshot⟩ |
    ⟨given, base, hplan, hbase, hdelta, hchanges, hbuild, hok⟩
  · rw [hplan] at h
    obtain ⟨rfl, rfl⟩ := Prod.mk.inj h
    exact ⟨fun _ => rfl, fun htrue => absurd (hok.symm.trans htrue) (by decide)⟩
  · rw [hplan] at h
    obtain ⟨rfl, rfl⟩ := Prod.mk.inj h
    exact ⟨fun _ => rfl, fun _ => ⟨base, delta, hbase, hdelta, fun _ => ⟨rfl, hsnapshot⟩,
      fun hchanges => absurd (hsame.symm.trans hchanges) (by decide)⟩⟩
  · rw [hplan, storeUpdate] at h
    rcases putSnapshotAndDelta_writes store given.snapshotBuild.snapshot
        (DeltaEngine.compute base built.snapshotBuild.snapshot) (some base) enqueueTransport
        false io.clock io.writeFaults with
      ⟨hfailed, heq⟩ | ⟨hsuccess, -, env, ⟨payload, deltaPayload, hpayload, hdpayload, rfl, -⟩, heq⟩
    · dsimp only at h
      rw [if_neg (by rw [show _ = false from hfailed]; decide)] at h
      obtain ⟨rfl, rfl⟩ := Prod.mk.inj h
      exact ⟨fun _ => heq,
        fun htrue => absurd ((ok_failDelta hfailed).symm.trans htrue) (by decide)⟩
    · dsimp only at h
      rw [hsuccess, if_pos StoreStatus.ok_success] at h
      obtain ⟨rfl, rfl⟩ := Prod.mk.inj h
      refine ⟨fun hfalse => absurd (hok.symm.trans hfalse) (by decide), fun _ =>
        ⟨base, _, hbase, hdelta, fun hsame => absurd (hchanges.symm.trans hsame) (by decide),
          fun _ => ⟨payload, deltaPayload, by rw [hbuild], hpayload, hdpayload, ?_⟩⟩⟩
      rw [heq]
      exact captureWrites_delta enqueueTransport

/-- Captures are all or nothing, wherever on their way a step fails. -/
theorem captures_atomic (store : LmdbStore) (rawScan : RawScanResult) (enqueueTransport : Bool)
    (io : CaptureIo) :
    (∀ result store', captureSnapshot store rawScan enqueueTransport io = some (result, store') →
      FullOutcome store enqueueTransport io result store') ∧
    ∀ baseSnapshotId result store',
      captureSnapshotAndDelta store rawScan baseSnapshotId enqueueTransport io =
        some (result, store') →
      UpdateOutcome store baseSnapshotId enqueueTransport io result store' :=
  ⟨fun _ _ => captureSnapshot_outcome, fun _ _ _ => captureSnapshotAndDelta_outcome⟩

end IndexingPipeline

/-! ### A full capture and an incremental one -/

/-- A scan of `/r` with one file in it. -/
def scanOfSize (scannedAt : UnixTimestamp) (sizeBytes : UInt64) : RawScanResult :=
  { hostIdentifier := str "h", rootPath := str "/r", scannedAt := scannedAt
    entries :=
      [{ normalizedPath := str "/r", parentPath := str "/", name := str "r", type := .directory
         metadata := { createdAt := 5, modifiedAt := 5, accessedAt := 5, fileId := 2
                       deviceId := 1 } },
       { normalizedPath := str "/r/x", parentPath := str "/r", name := str "x"
         metadata := { sizeBytes := sizeBytes, createdAt := 5, modifiedAt := 5, accessedAt := 5
                       fileId := 4, deviceId := 1 } }] }

def idOf (rawScan : RawScanResult) : SnapshotId :=
  ((SnapshotBuilder.build rawScan).map fun built => built.snapshot.snapshotId).getD 0

def storeOpened : LmdbStore := (({} : LmdbStore).openStore { directory := str "d" } none []).2

def storeCaptured : LmdbStore :=
  ((captureSnapshot storeOpened (scanOfSize 10 7) true {}).map Prod.snd).getD storeOpened

theorem captures_atomic_added :
    ∃ result store' payload delta frames,
      captureSnapshotAndDelta storeCaptured (scanOfSize 20 9) (idOf (scanOfSize 10 7)) true {} =
        some (result, store') ∧
      CaptureWrites storeCaptured store' result.snapshotBuild.snapshot payload (some delta)
        frames ∧ frames.length = 2 := by
  have hok : (captureSnapshotAndDelta storeCaptured (scanOfSize 20 9) (idOf (scanOfSize 10 7))
      true {}).any (fun r => r.1.ok && r.1.computedDelta.any deltaHasChanges) = true := by
    decide +kernel
  cases h : captureSnapshotAndDelta storeCaptured (scanOfSize 20 9) (idOf (scanOfSize 10 7))
      true {} with
  | none => exact absurd (h ▸ hok) (by decide)
  | some r =>
      rw [h] at hok
      obtain ⟨hok, hchanged⟩ := (Bool.and_eq_true _ _).mp hok
      obtain ⟨base, delta, -, hdelta, -, hwrites⟩ :=
        ((captures_atomic storeCaptured (scanOfSize 20 9) true {}).2 _ _ _ h).2 hok
      rw [hdelta] at hchanged
      obtain ⟨payload, deltaPayload, -, -, -, hwrites⟩ := hwrites hchanged
      exact ⟨r.1, r.2, payload, _, _, rfl, hwrites, rfl⟩

end ServerStorage.Muninn
