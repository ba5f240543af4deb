/-
# `ServerStorage.Muninn.CommandSpec` — what a command leaves behind

A command is transactions in turn: its ack, its capture or deletion, retention.  Each
is all or nothing, the command is not.  A capture can be pruned by the retention of its
own command, and a command that fails keeps what it had committed before.
-/
import ServerStorage.Muninn.Processor
import ServerStorage.Muninn.Retention

namespace ServerStorage.Muninn

open Lib Lmdb Dbi LmdbStore IndexingPipeline Crud

/-! ## The snapshot of a capture -/

/-- The snapshot stored under an id. -/
def storedSnapshot (env : Env Dbi) (snapshotId : SnapshotId) : Option Snapshot := do
  let payload ← (env.db snapshotsDbi).get (encodeU64Be snapshotId)
  (Serialization.deserializeSnapshotBinary payload).toOption

section
variable {store store' : LmdbStore} {rawScan : RawScanResult} {result : PipelineResult}
  {baseSnapshotId : SnapshotId} {enqueueTransport validate : Bool} {io : CaptureIo}

theorem getSnapshot_stored {snapshotId : SnapshotId} {now : UnixTimestamp}
    {faults : List (Option Fault)} {snapshot : Snapshot}
    (h : store.getSnapshot snapshotId validate now faults = .ok snapshot) :
    storedSnapshot store.env snapshotId = some snapshot := by
  obtain ⟨_, -, h⟩ := except_bind_ok.mp h
  obtain ⟨payload, hread, h⟩ := except_bind_ok.mp h
  obtain ⟨decoded, hdecoded, h⟩ := except_bind_ok.mp h
  obtain ⟨_, -, h⟩ := except_bind_ok.mp h
  obtain rfl := Except.ok.inj h
  obtain ⟨t, t', ht, hrun⟩ := readTxn_ok hread
  obtain ⟨found, t₁, hget, hrun⟩ := run_bind_ok.mp hrun
  have hfound := (mdbGet_ok (run_mapError_ok.mp hget)).1
  rw [storedSnapshot, ← ht, ← hfound]
  cases found with
  | none => cases hrun
  | some value =>
      obtain ⟨rfl, -⟩ := run_pure_ok.mp hrun
      show (Serialization.deserializeSnapshotBinary value).toOption = _
      cases hvalue : Serialization.deserializeSnapshotBinary value with
      | error e =>
          rw [hvalue] at hdecoded
          cases hdecoded
      | ok value =>
          rw [hvalue] at hdecoded
          exact congrArg some (Except.ok.inj hdecoded)

/-- A full capture that goes through stores what the builder made. -/
theorem captureSnapshot_captured
    (h : captureSnapshot store rawScan enqueueTransport io = some (result, store')) :
    ∃ built, SnapshotBuilder.build rawScan = some built ∧
      (result.ok = true → result.snapshotBuild.snapshot = built.snapshot ∧
        result.computedDelta = none) := by
  obtain ⟨scan, hscan, h⟩ := Option.bind_eq_some_iff.mp h
  obtain ⟨built, hbuilt, hscan⟩ := Option.bind_eq_some_iff.mp hscan
  obtain rfl := Option.some.inj hscan
  obtain rfl := congrArg Prod.fst (Option.some.inj h)
  refine ⟨built, hbuilt, fun _ => ?_⟩
  rw [storeSnapshot]
  split
  · exact ⟨rfl, rfl⟩
  · dsimp only
    split
    · exact ⟨rfl, rfl⟩
    · exact ⟨rfl, rfl⟩

/-- An incremental capture that goes through stores what the builder made, or has found that the
base is the same. -/
theorem captureSnapshotAndDelta_captured
    (h : captureSnapshotAndDelta store rawScan baseSnapshotId enqueueTransport io =
      some (result, store')) (hok : result.ok = true) :
    ∃ built base, SnapshotBuilder.build rawScan = some built ∧
      storedSnapshot store.env baseSnapshotId = some base ∧
      ((deltaHasChanges (DeltaEngine.compute base built.snapshot) = true ∧
          result.snapshotBuild.snapshot = built.snapshot ∧
          result.computedDelta = some (DeltaEngine.compute base built.snapshot)) ∨
        (deltaHasChanges (DeltaEngine.compute base built.snapshot) = false ∧
          result.snapshotBuild.snapshot = base ∧
          result.computedDelta.all deltaHasChanges = false ∧ store' = store)) := by
  obtain ⟨scan, hscan, h⟩ := Option.bind_eq_some_iff.mp h
  obtain ⟨built, hbuilt, hmade⟩ := Option.bind_eq_some_iff.mp hscan
  have hfresh := fresh_scanned hscan
  obtain rfl := Option.some.inj hmade
  replace h := Option.some.inj h
  refine ⟨built, ?_⟩
  rcases basedOn_cases store baseSnapshotId enqueueTransport io hfresh with
    ⟨given, hplan, hfailed⟩ | ⟨given, base, delta, hplan, hbase, hsame, hdelta, hnone, hsnapshot⟩ |
    ⟨given, base, hplan, hbase, hdelta, hchanges, hbuild, -⟩
  · rw [hplan] at h
    obtain ⟨rfl, rfl⟩ := Prod.mk.inj h
    exact absurd hok (Bool.eq_false_iff.mp hfailed)
  · rw [hplan] at h
    obtain ⟨rfl, rfl⟩ := Prod.mk.inj h
    refine ⟨base, hbuilt, getSnapshot_stored hbase, .inr ⟨hsame, hsnapshot, ?_, rfl⟩⟩
    rw [hdelta]
    exact hnone
  · rw [hplan, storeUpdate] at h
    refine ⟨base, hbuilt, getSnapshot_stored hbase, .inl ⟨hchanges, ?_⟩⟩
    dsimp only at h
    split at h
    · obtain ⟨rfl, -⟩ := Prod.mk.inj h
      exact ⟨congrArg BuildResult.snapshot hbuild, hdelta⟩
    · obtain ⟨rfl, -⟩ := Prod.mk.inj h
      exact ⟨congrArg BuildResult.snapshot hbuild, hdelta⟩

end

/-! ## The course of a command -/

namespace CrudCommandProcessor

/-- The capture of a command, on the store its ack leaves. -/
def captureOf (options : CrudServerOptions) (scan : Str → RawScanResult) (store : LmdbStore)
    (command : CrudCommandMessage) (io : CommandIo) : Option (PipelineResult × LmdbStore) := do
  let rootPath ← resolveRootPath command.rootPath options
  match command.operation with
  | .create => captureSnapshot store (scan rootPath) true io.capture
  | .update =>
      if updateBase command = 0 then none
      else captureSnapshotAndDelta store (scan rootPath) (updateBase command) true io.capture
  | .read | .delete => none

/-- The capture that a command comes to and that goes through. -/
def captured (options : CrudServerOptions) (scan : Str → RawScanResult) (store : LmdbStore)
    (command : CrudCommandMessage) (consumerId : Str) (io : CommandIo) :
    Option (PipelineResult × LmdbStore) :=
  if (ackOf store command consumerId io).1.ok ∧ remoteMutatingRefusal options command = none then
    (captureOf options scan (ackOf store command consumerId io).2 command io).filter fun r => r.1.ok
  else none

variable {options : CrudServerOptions} {scan : Str → RawScanResult} {store store' : LmdbStore}
  {command : CrudCommandMessage} {consumerId : Str} {io : CommandIo}
  {failed result result' : CrudResultMessage} {pipeline : PipelineResult} {message : String}

theorem withBatch_snapshotId
    (h : withBatch options store command consumerId io result message = some result') :
    result'.snapshotId = result.snapshotId := by
  rw [withBatch] at h
  split at h
  · rw [← Option.some.inj h]
  · cases h
  · rw [← Option.some.inj h]

/-- What comes after a capture: retention, and then a batch that writes nothing. -/
theorem finishCapture_cases
    (h : finishCapture options store command consumerId io failed result message =
      (some result', store')) :
    store' = (retain options store io).2 ∧
      (result'.ok = true → failed.ok = false → (retain options store io).1.ok = true ∧
        result'.snapshotId = result.snapshotId) := by
  rw [finishCapture] at h
  dsimp only at h
  split at h
  next hstatus =>
    obtain ⟨hresult, rfl⟩ := Prod.mk.inj h
    obtain rfl := Option.some.inj hresult
    exact ⟨rfl, fun hok hfailed => absurd hok (Bool.eq_false_iff.mp hfailed)⟩
  next hstatus =>
    rw [Bool.not_eq_true', Bool.not_eq_false] at hstatus
    obtain ⟨hbatch, rfl⟩ := Prod.mk.inj h
    exact ⟨rfl, fun _ _ => ⟨hstatus, withBatch_snapshotId hbatch⟩⟩

/-- A command stops with the store its ack left, or it reads, or it deletes, or it captures and
goes on to retention. -/
inductive Course (options : CrudServerOptions) (scan : Str → RawScanResult) (store : LmdbStore)
    (command : CrudCommandMessage) (consumerId : Str) (io : CommandIo) (result : CrudResultMessage)
    (store' : LmdbStore) : Prop where
  | stops (hstore : store' = (ackOf store command consumerId io).2)
      (hok : result.ok = true → command.operation = .read)
      (hcaptured : captured options scan store command consumerId io = none)
  | deletes (hop : command.operation = .delete) (hok : result.ok = true)
  | captures (pipeline : PipelineResult) (store₁ : LmdbStore)
      (hcaptured : captured options scan store command consumerId io = some (pipeline, store₁))
      (hstore : store' = (retain options store₁ io).2)
      (hok : result.ok = true → (retain options store₁ io).1.ok = true ∧
        result.snapshotId = pipeline.snapshotBuild.snapshot.snapshotId)

theorem captured_of (hack : (ackOf store command consumerId io).1.ok = true)
    (hallowed : remoteMutatingRefusal options command = none) :
    captured options scan store command consumerId io =
      (captureOf options scan (ackOf store command consumerId io).2 command io).filter
        fun r => r.1.ok :=
  if_pos ⟨hack, hallowed⟩

theorem transports_ok (h : pipeline.ok = true) :
    pipeline.transportSnapshotStatus.ok = true ∧ pipeline.transportDeltaStatus.ok = true := by
  simp only [PipelineResult.ok, Bool.and_eq_true] at h
  exact ⟨h.1.1.1.2, h.1.1.2⟩

theorem create_course (hop : command.operation = .create)
    (hack : (ackOf store command consumerId io).1.ok = true)
    (hallowed : remoteMutatingRefusal options command = none) (hresult : result.ok = false)
    (h : create options scan (ackOf store command consumerId io).2 command consumerId io result =
      some (some result', store')) :
    Course options scan store command consumerId io result' store' := by
  have hcaptured := @captured_of options scan store command consumerId io hack hallowed
  rw [captureOf] at hcaptured
  rw [create] at h
  cases hroot : resolveRootPath command.rootPath options with
  | none =>
      rw [hroot] at h hcaptured
      obtain ⟨hresult', rfl⟩ := Prod.mk.inj (Option.some.inj h)
      obtain rfl := Option.some.inj hresult'
      exact .stops rfl (fun hok => absurd hok (Bool.eq_false_iff.mp hresult)) hcaptured
  | some rootPath =>
      rw [hroot] at h hcaptured
      obtain ⟨⟨pipeline, store₁⟩, hcapture, h⟩ := Option.bind_eq_some_iff.mp h
      simp only [Option.bind_eq_bind, Option.bind_some, hop, hcapture] at hcaptured
      dsimp only at h
      cases hok : pipeline.ok with
      | false =>
          rw [hok, Bool.not_false, Bool.true_or, if_pos rfl] at h
          obtain ⟨hresult', rfl⟩ := Prod.mk.inj (Option.some.inj h)
          obtain rfl := Option.some.inj hresult'
          refine .stops ((captureSnapshot_outcome hcapture).1 hok)
            (fun hok => absurd hok (Bool.eq_false_iff.mp hresult)) ?_
          rw [hcaptured, Option.filter_some, hok, if_neg Bool.false_ne_true]
      | true =>
          rw [hok, (transports_ok hok).1, if_neg (by decide)] at h
          obtain ⟨hstore, hfinish⟩ := finishCapture_cases (Option.some.inj h)
          refine .captures pipeline store₁ ?_ hstore fun hok => hfinish hok hresult
          rw [hcaptured, Option.filter_some, hok, if_pos rfl]

theorem update_course (hop : command.operation = .update)
    (hack : (ackOf store command consumerId io).1.ok = true)
    (hallowed : remoteMutatingRefusal options command = none) (hresult : result.ok = false)
    (h : update options scan (ackOf store command consumerId io).2 command consumerId io result =
      some (some result', store')) :
    Course options scan store command consumerId io result' store' := by
  have hcaptured := @captured_of options scan store command consumerId io hack hallowed
  rw [captureOf] at hcaptured
  rw [update] at h
  cases hroot : resolveRootPath command.rootPath options with
  | none =>
      rw [hroot] at h hcaptured
      obtain ⟨hresult', rfl⟩ := Prod.mk.inj (Option.some.inj h)
      obtain rfl := Option.some.inj hresult'
      exact .stops rfl (fun hok => absurd hok (Bool.eq_false_iff.mp hresult)) hcaptured
  | some rootPath =>
      rw [hroot] at h hcaptured
      simp only [Option.bind_eq_bind, Option.bind_some, hop] at hcaptured
      dsimp only at h
      split at h
      next hbase =>
        rw [if_pos hbase] at hcaptured
        obtain ⟨hresult', rfl⟩ := Prod.mk.inj (Option.some.inj h)
        obtain rfl := Option.some.inj hresult'
        exact .stops rfl (fun hok => absurd hok (Bool.eq_false_iff.mp hresult)) hcaptured
      next hbase =>
        rw [if_neg hbase] at hcaptured
        obtain ⟨⟨pipeline, store₁⟩, hcapture, h⟩ := Option.bind_eq_some_iff.mp h
        rw [hcapture] at hcaptured
        dsimp only at h
        cases hok : pipeline.ok with
        | false =>
            rw [hok, Bool.not_false, Bool.true_or, Bool.true_or, if_pos rfl] at h
            obtain ⟨hresult', rfl⟩ := Prod.mk.inj (Option.some.inj h)
            obtain rfl := Option.some.inj hresult'
            refine .stops ((captureSnapshotAndDelta_outcome hcapture).1 hok)
              (fun hok => absurd hok (Bool.eq_false_iff.mp hresult)) ?_
            rw [hcaptured, Option.filter_some, hok, if_neg Bool.false_ne_true]
        | true =>
            rw [hok, (transports_ok hok).1, (transports_ok hok).2, if_neg (by decide)] at h
            obtain ⟨hstore, hfinish⟩ := finishCapture_cases (Option.some.inj h)
            refine .captures pipeline store₁ ?_ hstore fun hok => hfinish hok hresult
            rw [hcaptured, Option.filter_some, hok, if_pos rfl]

theorem captureOf_eq_none (hop : command.operation = .read ∨ command.operation = .delete) :
    captureOf options scan store command io = none := by
  rw [captureOf]
  cases resolveRootPath command.rootPath options with
  | none => rfl
  | some rootPath => rcases hop with hop | hop <;> rw [hop] <;> rfl

theorem captured_eq_none (hop : command.operation = .read ∨ command.operation = .delete) :
    captured options scan store command consumerId io = none := by
  rw [captured, captureOf_eq_none hop]
  exact ite_self _

theorem delete_course (hop : command.operation = .delete)
    (hresult : result.ok = false)
    (h : delete (ackOf store command consumerId io).2 command io result = (some result', store')) :
    Course options scan store command consumerId io result' store' := by
  rw [delete] at h
  split at h
  · obtain ⟨hresult', rfl⟩ := Prod.mk.inj h
    obtain rfl := Option.some.inj hresult'
    exact .stops rfl (fun hok => absurd hok (Bool.eq_false_iff.mp hresult))
      (captured_eq_none (.inr hop))
  · dsimp only at h
    split at h
    next hstatus =>
      obtain ⟨hresult', rfl⟩ := Prod.mk.inj h
      obtain rfl := Option.some.inj hresult'
      refine .stops ?_ (fun hok => absurd hok (Bool.eq_false_iff.mp hresult))
        (captured_eq_none (.inr hop))
      rcases deleteSnapshot_cleans (ackOf store command consumerId io).2 command.snapshotId
          io.delete with ⟨-, -, heq⟩ | ⟨hok, -⟩
      · exact heq
      · rw [hok] at hstatus
        exact absurd hstatus (by decide)
    next =>
      obtain ⟨hresult', rfl⟩ := Prod.mk.inj h
      obtain rfl := Option.some.inj hresult'
      exact .deletes hop rfl

theorem process_course
    (h : process options scan store command consumerId io = some (some result, store')) :
    Course options scan store command consumerId io result store' := by
  rw [process] at h
  dsimp only at h
  cases hack : (ackOf store command consumerId io).1.ok with
  | false =>
      rw [hack, if_pos (by rfl)] at h
      obtain ⟨hresult', rfl⟩ := Prod.mk.inj (Option.some.inj h)
      obtain rfl := Option.some.inj hresult'
      refine .stops rfl (fun hok => absurd hok Bool.false_ne_true) (if_neg fun hall => ?_)
      exact absurd (hack.symm.trans hall.1) (by decide)
  | true =>
      rw [hack, if_neg (by decide)] at h
      cases hallowed : remoteMutatingRefusal options command with
      | some message =>
          rw [hallowed] at h
          obtain ⟨hresult', rfl⟩ := Prod.mk.inj (Option.some.inj h)
          obtain rfl := Option.some.inj hresult'
          refine .stops rfl (fun hok => absurd hok Bool.false_ne_true) (if_neg fun hall => ?_)
          rw [hallowed] at hall
          cases hall.2
      | none =>
          rw [hallowed] at h
          dsimp only at h
          rw [operate] at h
          cases hop : command.operation with
          | read =>
              rw [hop] at h
              obtain ⟨-, rfl⟩ := Prod.mk.inj (Option.some.inj h)
              exact .stops rfl (fun _ => hop) (captured_eq_none (.inl hop))
          | create =>
              rw [hop] at h
              exact create_course hop hack hallowed rfl h
          | update =>
              rw [hop] at h
              exact update_course hop hack hallowed rfl h
          | delete =>
              rw [hop] at h
              exact delete_course hop rfl (Option.some.inj h)

end CrudCommandProcessor

/-! ## A capture and the retention after it -/

section
variable {env env' : Env Dbi} {x : SnapshotId × Snapshot} {snapshot : Snapshot}

theorem mem_snapshotsIn (h : Readable env) :
    x ∈ snapshotsIn env ↔ storedSnapshot env x.1 = some x.2 := by
  rw [snapshotsIn, List.mem_filterMap]
  constructor
  · rintro ⟨e, he, hread⟩
    have hsize := (h.snapshots e he).1
    rw [readSnapshot] at hread
    cases hdecoded : Serialization.deserializeSnapshotBinary e.2 with
    | error _ =>
        rw [hdecoded] at hread
        cases hread
    | ok decoded =>
        rw [hdecoded] at hread
        obtain rfl := Option.some.inj hread
        rw [storedSnapshot, encodeU64Be_decodeU64Be hsize, Db.get_eq_some.mpr he]
        exact congrArg Except.toOption hdecoded
  · intro hstored
    obtain ⟨payload, hget, hdecoded⟩ := Option.bind_eq_some_iff.mp hstored
    refine ⟨(encodeU64Be x.1, payload), Db.get_eq_some.mp hget, ?_⟩
    rw [readSnapshot]
    cases hread : Serialization.deserializeSnapshotBinary payload with
    | error _ =>
        rw [hread] at hdecoded
        cases hdecoded
    | ok decoded =>
        rw [hread] at hdecoded
        obtain rfl := Option.some.inj hdecoded
        rw [decodeU64Be_encodeU64Be]

theorem storedSnapshot_id (h : Readable env) {snapshotId : SnapshotId}
    (hstored : storedSnapshot env snapshotId = some snapshot) :
    snapshot.snapshotId = snapshotId := by
  obtain ⟨payload, hget, hdecoded⟩ := Option.bind_eq_some_iff.mp hstored
  obtain ⟨-, decoded, hread, hid⟩ := h.snapshots _ (Db.get_eq_some.mp hget)
  rw [hread] at hdecoded
  obtain rfl := Option.some.inj hdecoded
  rw [hid, decodeU64Be_encodeU64Be]

theorem snapshotStored_of_mem (h : Readable env) (hx : x ∈ snapshotsIn env) :
    snapshotStored env x.1 := by
  obtain ⟨payload, hget, -⟩ := Option.bind_eq_some_iff.mp ((mem_snapshotsIn h).mp hx)
  rw [snapshotStored, hget]
  rfl

/-- `x` is after `y` in the order of retention. -/
def olderThan (x y : SnapshotId × Snapshot) : Bool :=
  retentionLess (retentionItem y) (retentionItem x)

theorem olderThan_irrefl (x : SnapshotId × Snapshot) : olderThan x x = false :=
  Bool.eq_false_iff.mpr fun h => (retentionLess_iff.mp h).ne rfl

theorem snapshotStored_retained {ids : List SnapshotId} {snapshotId : SnapshotId} :
    snapshotStored (LmdbStore.retained env ids) snapshotId ↔
      snapshotId ∈ ids ∧ snapshotStored env snapshotId := by
  rw [snapshotStored, LmdbStore.retained, dropped, Env.set_db_ne (by decide), dropped,
    Env.set_db_self, Db.get_filter, dropSnapshot, decodeU64Be_encodeU64Be, Bool.not_not,
    ← List.contains_iff_mem]
  cases ids.contains snapshotId with
  | false => simp
  | true => simp [snapshotStored]

/-- A snapshot survives when fewer are newer than are kept. -/
theorem survives_retention {store : LmdbStore} (h : Readable store.env) {k : Nat}
    {io : List (Option Fault)} (hx : x ∈ snapshotsIn store.env)
    (hok : (store.applySnapshotRetention k io).1.ok = true) :
    snapshotStored (store.applySnapshotRetention k io).2.2.env x.1 ↔
      (snapshotsIn store.env).countP (olderThan x) < k := by
  have hstored := snapshotStored_of_mem h hx
  rcases applySnapshotRetention_cleans store k io with
    ⟨hfailed, -⟩ | ⟨-, -, env, ⟨items, hitems, hnext⟩, heq⟩
  · exact absurd hok (Bool.eq_false_iff.mp hfailed)
  · rw [heq]
    obtain ⟨rfl, -⟩ := retentionItems_snapshotsIn hitems
    have hless : (snapshotsIn store.env).countP (olderThan x) < (snapshotsIn store.env).length :=
      List.countP_lt_length_iff.mpr ⟨x, hx, olderThan_irrefl x⟩
    rcases hnext with ⟨hfew, -, rfl⟩ | ⟨-, rfl, -⟩
    · rw [List.length_map] at hfew
      exact ⟨fun _ => hless.trans_le hfew, fun _ => hstored⟩
    · refine snapshotStored_retained.trans ((and_iff_left hstored).trans ?_)
      rw [mem_retainedIds (snapshotsIn_nodup h)]
      constructor
      · rintro ⟨snapshot, hmem, hcount⟩
        have hsame : (x.1, snapshot) = x :=
          List.inj_on_of_nodup_map (snapshotsIn_nodup h) hmem hx rfl
        rw [hsame] at hcount
        exact hcount
      · exact fun hcount => ⟨x.2, hx, hcount⟩

/-- The snapshots stored that are newer than this one would be. -/
def newerStored (env : Env Dbi) (snapshot : Snapshot) : Nat :=
  (snapshotsIn env).countP fun y =>
    y.1 != snapshot.snapshotId && olderThan (snapshot.snapshotId, snapshot) y

/-- The snapshot is stored now, and the others as before. -/
def Takes (env env' : Env Dbi) (snapshot : Snapshot) : Prop :=
  ∀ id, storedSnapshot env' id =
    if id = snapshot.snapshotId then some snapshot else storedSnapshot env id

theorem Takes.newer (h : Takes env env' snapshot) (henv : Readable env) (henv' : Readable env') :
    (snapshot.snapshotId, snapshot) ∈ snapshotsIn env' ∧
      (snapshotsIn env').countP (olderThan (snapshot.snapshotId, snapshot)) =
        newerStored env snapshot := by
  refine ⟨(mem_snapshotsIn henv').mpr ((h _).trans (if_pos rfl)), ?_⟩
  rw [newerStored, List.countP_eq_length_filter, List.countP_eq_length_filter]
  refine List.Perm.length_eq ((List.perm_ext_iff_of_nodup
    ((snapshotsIn_nodup henv').of_map.filter _) ((snapshotsIn_nodup henv).of_map.filter _)).mpr ?_)
  intro x
  rw [List.mem_filter, List.mem_filter, mem_snapshotsIn henv', mem_snapshotsIn henv, h,
    Bool.and_eq_true, bne_iff_ne]
  by_cases hid : x.1 = snapshot.snapshotId
  · rw [if_pos hid]
    constructor
    · rintro ⟨hsnapshot, holder⟩
      obtain rfl : x = (snapshot.snapshotId, snapshot) :=
        Prod.ext hid (Option.some.inj hsnapshot).symm
      exact absurd holder (Bool.eq_false_iff.mp (olderThan_irrefl _))
    · exact fun hother => absurd hid hother.2.1
  · rw [if_neg hid, and_iff_right hid]

theorem CaptureWrites.takes {before after : LmdbStore} {payload : Str}
    {delta : Option (DeltaSnapshot × Str)} {frames : List Str}
    (h : CaptureWrites before after snapshot payload delta frames)
    (hpayload : serializeSnapshot snapshot = .ok payload) :
    Takes before.env after.env snapshot := by
  intro id
  have hread := Serialization.deserializeSnapshotBinary_serialize (serializeSnapshot_ok hpayload)
  rw [storedSnapshot, h.snapshots, Db.get_put]
  split
  next heq =>
    rw [if_pos (encodeU64Be_inj.mp heq)]
    exact congrArg Except.toOption hread
  next hne => rw [if_neg fun heq => hne (congrArg encodeU64Be heq), storedSnapshot]

theorem CaptureWrites.readable {before after : LmdbStore} {payload : Str}
    {delta : Option (DeltaSnapshot × Str)} {frames : List Str}
    (h : CaptureWrites before after snapshot payload delta frames)
    (hpayload : serializeSnapshot snapshot = .ok payload) (hbefore : Readable before.env) :
    Readable after.env := by
  cases delta with
  | none =>
      refine (hbefore.withSnapshot hpayload).congr ?_ ?_
      · rw [h.snapshots, withSnapshot, Env.set_db_self]
      · rw [h.deltas, withSnapshot, Env.set_db_ne (by decide)]
        rfl
  | some d =>
      refine ((hbefore.withSnapshot hpayload).withDelta d.1.baseSnapshotId d.1.targetSnapshotId
        d.2).congr ?_ ?_
      · rw [h.snapshots, withDelta, Env.set_db_ne (by decide), withSnapshot, Env.set_db_self]
      · rw [h.deltas, withDelta, Env.set_db_self, withSnapshot, Env.set_db_ne (by decide)]
        rfl

/-- A capture that writes moves the sequence counter. -/
theorem CaptureWrites.counts {before after : LmdbStore} {payload : Str}
    {delta : Option (DeltaSnapshot × Str)} {frames : List Str}
    (h : CaptureWrites before after snapshot payload delta frames)
    (hframes : frames.length = 1 ∨ frames.length = 2) :
    after.env.db metaDbi ≠ before.env.db metaDbi := by
  intro hsame
  have hne : frames ≠ [] := by
    rintro rfl
    simp at hframes
  have hcounter := h.counter
  rw [if_neg hne] at hcounter
  have hnext : nextSequenceOf before.env = nextSequenceOf before.env + frames.length.toUInt64 := by
    conv_lhs => rw [nextSequenceOf, ← hsame, hcounter, Db.get_put, if_pos rfl, Option.map_some,
      decodeU64Be_encodeU64Be, Option.getD_some]
  have hzero : frames.length.toUInt64 = 0 := left_eq_add.mp hnext
  rcases hframes with hlength | hlength <;> rw [hlength] at hzero <;> cases hzero

end

namespace CrudCommandProcessor

variable {options : CrudServerOptions} {scan : Str → RawScanResult} {store store' : LmdbStore}
  {command : CrudCommandMessage} {consumerId : Str} {io : CommandIo}
  {pipeline : PipelineResult}

/-- The snapshot a command returns the id of: what the builder makes of the scan, or the base
when an update finds it unchanged. -/
def snapshotToReturn (options : CrudServerOptions) (scan : Str → RawScanResult)
    (store : LmdbStore) (command : CrudCommandMessage) : Option Snapshot := do
  let rootPath ← resolveRootPath command.rootPath options
  let built ← SnapshotBuilder.build (scan rootPath)
  if command.operation = .update then
    let base ← storedSnapshot store.env (updateBase command)
    return if deltaHasChanges (DeltaEngine.compute base built.snapshot) then built.snapshot else base
  else return built.snapshot

theorem retain_eq (h : 1 ≤ options.retentionKeepLatestSnapshots) :
    retain options store io =
      ((store.applySnapshotRetention options.retentionKeepLatestSnapshots io.retention).1,
        (store.applySnapshotRetention options.retentionKeepLatestSnapshots io.retention).2.2) :=
  if_pos h

theorem ackOf_others {dbi : Dbi} (hne : dbi ≠ transportConsumersDbi) :
    (ackOf store command consumerId io).2.env.db dbi = store.env.db dbi := by
  rw [ackOf]
  split
  next =>
    rcases ackTransportUntil_writes store consumerId command.ackSequence io.ack with
      ⟨-, heq⟩ | ⟨-, -, env, ⟨-, ⟨_, -, -, rfl⟩ | ⟨-, rfl⟩⟩, heq⟩
    · rw [heq]
    · rw [heq]
    · rw [heq]
      exact Env.set_db_ne hne
  next => rfl

theorem storedSnapshot_ackOf (snapshotId : SnapshotId) :
    storedSnapshot (ackOf store command consumerId io).2.env snapshotId =
      storedSnapshot store.env snapshotId := by
  rw [storedSnapshot, ackOf_others (by decide), storedSnapshot]

theorem readable_ackOf (h : Readable store.env) :
    Readable (ackOf store command consumerId io).2.env :=
  h.congr (ackOf_others (by decide)) (ackOf_others (by decide))

/-- After a capture that goes through the snapshot returned is stored, and the others as before. -/
theorem captured_takes (hreadable : Readable store.env)
    (h : captured options scan store command consumerId io = some (pipeline, store')) :
    snapshotToReturn options scan store command = some pipeline.snapshotBuild.snapshot ∧
      Readable store'.env ∧ Takes store.env store'.env pipeline.snapshotBuild.snapshot := by
  rw [captured] at h
  split at h
  · obtain ⟨h, hok⟩ := Option.filter_eq_some_iff.mp h
    replace hok : pipeline.ok = true := hok
    rw [captureOf] at h
    obtain ⟨rootPath, hroot, h⟩ := Option.bind_eq_some_iff.mp h
    have hack : Readable (ackOf store command consumerId io).2.env := readable_ackOf hreadable
    have htakes : ∀ {env}, Takes (ackOf store command consumerId io).2.env env
        pipeline.snapshotBuild.snapshot →
        Takes store.env env pipeline.snapshotBuild.snapshot :=
      fun htakes id => (htakes id).trans (by rw [storedSnapshot_ackOf])
    rw [snapshotToReturn, hroot]
    simp only [Option.bind_eq_bind, Option.bind_some]
    cases hop : command.operation with
    | read =>
        rw [hop] at h
        cases h
    | delete =>
        rw [hop] at h
        cases h
    | create =>
        rw [hop] at h
        obtain ⟨built, hbuilt, hmade⟩ := captureSnapshot_captured h
        obtain ⟨payload, hpayload, hwrites⟩ := (captureSnapshot_outcome h).2 hok
        rw [hbuilt, (hmade hok).1]
        refine ⟨rfl, hwrites.readable hpayload hack, ?_⟩
        rw [← (hmade hok).1]
        exact htakes (hwrites.takes hpayload)
    | update =>
        rw [hop] at h
        dsimp only at h
        split at h
        · cases h
        · obtain ⟨built, base, hbuilt, hbase, hcases⟩ := captureSnapshotAndDelta_captured h hok
          rw [storedSnapshot_ackOf] at hbase
          rw [hbuilt, hbase]
          rcases hcases with ⟨hchanged, hsnapshot, hdelta⟩ | ⟨hsame, hsnapshot, -, hstore⟩
          · obtain ⟨base', delta, -, hdelta', -, hwrites⟩ :=
              (captureSnapshotAndDelta_outcome h).2 hok
            obtain rfl := Option.some.inj (hdelta.symm.trans hdelta')
            obtain ⟨payload, deltaPayload, -, hpayload, -, hwrites⟩ := hwrites hchanged
            refine ⟨?_, hwrites.readable hpayload hack, htakes (hwrites.takes hpayload)⟩
            show some (if deltaHasChanges (DeltaEngine.compute base built.snapshot) then
              built.snapshot else base) = _
            rw [if_pos hchanged, hsnapshot]
          · refine ⟨?_, hstore ▸ hack, htakes fun id => ?_⟩
            · show some (if deltaHasChanges (DeltaEngine.compute base built.snapshot) then
                built.snapshot else base) = _
              rw [if_neg (Bool.eq_false_iff.mp hsame), hsnapshot]
            · rw [hstore, hsnapshot, storedSnapshot_ackOf, storedSnapshot_id hreadable hbase]
              split
              next heq => rw [heq, hbase]
              next => rfl
  · cases h

/-- In every state the store can reach: a capture reported as made is stored on return exactly when
fewer of the snapshots stored before are newer than retention keeps. -/
theorem capture_survives (methods : List StoreMethod) (options : CrudServerOptions)
    (scan : Str → RawScanResult) (command : CrudCommandMessage) (consumerId : Str) (io : CommandIo)
    (result : CrudResultMessage) (store' : LmdbStore)
    (hretention : 1 ≤ options.retentionKeepLatestSnapshots)
    (hop : command.operation = .create ∨ command.operation = .update)
    (h : process options scan (reached methods) command consumerId io = some (some result, store'))
    (hok : result.ok = true) :
    ∃ snapshot, snapshotToReturn options scan (reached methods) command = some snapshot ∧
      result.snapshotId = snapshot.snapshotId ∧
      (snapshotStored store'.env result.snapshotId ↔
        newerStored (reached methods).env snapshot < options.retentionKeepLatestSnapshots) := by
  have hreadable := readable_reached methods
  cases process_course h with
  | stops _ hread _ =>
      rw [hread hok] at hop
      rcases hop with hop | hop <;> cases hop
  | deletes hdelete _ =>
      rw [hdelete] at hop
      rcases hop with hop | hop <;> cases hop
  | captures pipeline store₁ hcaptured hstore hfinish =>
      obtain ⟨hreturn, hreadable₁, htakes⟩ := captured_takes hreadable hcaptured
      obtain ⟨hretained, hid⟩ := hfinish hok
      obtain ⟨hmem, hcount⟩ := htakes.newer hreadable hreadable₁
      refine ⟨pipeline.snapshotBuild.snapshot, hreturn, hid, ?_⟩
      rw [retain_eq hretention] at hstore hretained
      have hsurvives := survives_retention hreadable₁ hmem hretained
      rw [hstore, hid, ← hcount]
      exact hsurvives

/-! ### A clock that steps back -/

def builtFrom (rawScan : RawScanResult) : Snapshot :=
  ((SnapshotBuilder.build rawScan).map BuildResult.snapshot).getD {}

def registered : List StoreMethod :=
  [.openStore { directory := str "d" } none [], .registerTransportConsumer (str "c") []]

/-- A store with a snapshot of second 20. -/
def laterPut : List StoreMethod :=
  registered ++ [.putSnapshotWithTransport (builtFrom (scanOfSize 20 9)) true false {} []]

def keepsOne : CrudServerOptions :=
  { retentionKeepLatestSnapshots := 1, allowRemoteMutatingCommands := true
    defaultRootPath := str "/r" }

/-- A snapshot of second 10 is created, and gone. -/
theorem capture_survives_not : ¬ ∀ (methods : List StoreMethod) (options : CrudServerOptions)
    (scan : Str → RawScanResult) (command : CrudCommandMessage) (consumerId : Str) (io : CommandIo)
    (result : CrudResultMessage) (store' : LmdbStore), 1 ≤ options.retentionKeepLatestSnapshots →
    command.operation = .create ∨ command.operation = .update →
    process options scan (reached methods) command consumerId io = some (some result, store') →
    result.ok = true → snapshotStored store'.env result.snapshotId := by
  intro hall
  have hrun : (process keepsOne (fun _ => scanOfSize 10 7) (reached laterPut)
      { operation := .create } (str "c") {}).any (fun r => r.1.any fun result => result.ok &&
        ((r.2.env.db snapshotsDbi).get (encodeU64Be result.snapshotId)).isNone) = true := by
    decide +kernel
  obtain ⟨⟨answer, store'⟩, h, hrun⟩ := (Option.any_eq_true _ _).mp hrun
  obtain ⟨result, rfl, hrun⟩ := (Option.any_eq_true _ _).mp hrun
  obtain ⟨hok, hnone⟩ := (Bool.and_eq_true _ _).mp hrun
  have hstored := hall laterPut keepsOne _ _ _ _ result store' (by decide) (.inl rfl) h hok
  rw [snapshotStored] at hstored
  cases hget : (store'.env.db snapshotsDbi).get (encodeU64Be result.snapshotId) with
  | none =>
      rw [hget] at hstored
      cases hstored
  | some payload =>
      rw [hget] at hnone
      cases hnone

/-- One of second 30 is created and stays. -/
theorem capture_survives_later : ∃ result store',
    process keepsOne (fun _ => scanOfSize 30 7) (reached laterPut) { operation := .create }
      (str "c") {} = some (some result, store') ∧ snapshotStored store'.env result.snapshotId := by
  have hrun : (process keepsOne (fun _ => scanOfSize 30 7) (reached laterPut)
      { operation := .create } (str "c") {}).any (fun r => r.1.any CrudResultMessage.ok) = true := by
    decide +kernel
  have hnewer : ∀ snapshot ∈ snapshotToReturn keepsOne (fun _ => scanOfSize 30 7)
      (reached laterPut) { operation := .create }, newerStored (reached laterPut).env snapshot < 1 := by
    decide +kernel
  obtain ⟨⟨answer, store'⟩, h, hok⟩ := (Option.any_eq_true _ _).mp hrun
  obtain ⟨result, rfl, hok⟩ := (Option.any_eq_true _ _).mp hok
  obtain ⟨snapshot, hreturn, -, hsurvives⟩ := capture_survives laterPut keepsOne _ _ _ _ result
    store' (by decide) (.inl rfl) h hok
  exact ⟨result, store', h, hsurvives.mpr (hnewer snapshot hreturn)⟩

/-! ## What a failed command leaves -/

/-- The ack of the command goes through and is past the one stored. -/
def AckAdvances (store : LmdbStore) (command : CrudCommandMessage) (consumerId : Str)
    (io : CommandIo) : Prop :=
  0 < command.ackSequence ∧ (ackOf store command consumerId io).1.ok = true ∧
    ∀ ack, storedAck store.env consumerId = some ack → ack < command.ackSequence

/-- Retention is configured, has something to prune, and goes through. -/
def Prunes (options : CrudServerOptions) (store : LmdbStore) (io : CommandIo) : Prop :=
  0 < options.retentionKeepLatestSnapshots ∧
    options.retentionKeepLatestSnapshots < (store.env.db snapshotsDbi).entries.length ∧
    (retain options store io).1.ok = true

/-- The command comes to a capture that goes through, and it or the retention after it writes. -/
def CaptureKept (options : CrudServerOptions) (scan : Str → RawScanResult) (store : LmdbStore)
    (command : CrudCommandMessage) (consumerId : Str) (io : CommandIo) : Prop :=
  ∃ pipeline store₁, captured options scan store command consumerId io = some (pipeline, store₁) ∧
    (pipeline.computedDelta.all deltaHasChanges = true ∨ Prunes options store₁ io)

theorem storedAck_acked (env : Env Dbi) (consumerId : Str) (sequence : UInt64) :
    storedAck (acked env consumerId sequence) consumerId = some sequence := by
  rw [storedAck, acked, Env.set_db_self, Db.get_put, if_pos rfl, Option.map_some,
    decodeU64Be_encodeU64Be]

theorem ackOf_db_iff : (ackOf store command consumerId io).2.env.db = store.env.db ↔
    ¬ AckAdvances store command consumerId io := by
  rw [AckAdvances, ackOf]
  split
  next hpos =>
    rcases ackTransportUntil_writes store consumerId command.ackSequence io.ack with
      ⟨hfailed, heq⟩ | ⟨hok, -, env, ⟨-, ⟨ack, hstored, hle, rfl⟩ | ⟨hless, rfl⟩⟩, heq⟩
    · rw [heq]
      exact ⟨fun _ h => absurd h.2.1 (Bool.eq_false_iff.mp hfailed), fun _ => rfl⟩
    · rw [heq]
      exact ⟨fun _ h => absurd (h.2.2 ack hstored) (not_lt.mpr hle), fun _ => rfl⟩
    · rw [heq]
      refine ⟨fun hdb => ?_, fun h => absurd ⟨hpos, by rw [hok]; rfl, hless⟩ h⟩
      have hack := storedAck_acked store.env consumerId
        (max ((storedAck store.env consumerId).getD 0) command.ackSequence)
      rw [storedAck, congrFun hdb transportConsumersDbi] at hack
      have hmoved := hless _ hack
      exact absurd hmoved (not_lt.mpr (le_max_right _ _))
  next hzero => exact ⟨fun _ h => hzero h.1, fun _ => rfl⟩

theorem retain_meta : (retain options store io).2.env.db metaDbi = store.env.db metaDbi := by
  rw [retain]
  split
  next =>
    dsimp only
    rcases applySnapshotRetention_cleans store options.retentionKeepLatestSnapshots io.retention with
      ⟨-, -, heq⟩ | ⟨-, -, env, ⟨items, -, ⟨-, -, rfl⟩ | ⟨-, rfl, -⟩⟩, heq⟩
    · rw [heq]
    · rw [heq]
    · rw [heq]
      show (LmdbStore.retained _ _).db metaDbi = _
      rw [LmdbStore.retained, dropped, Env.set_db_ne (by decide), dropped,
        Env.set_db_ne (by decide)]
  next => rfl

theorem retainedIds_length (k : Nat) (items : List SnapshotRetentionItem) :
    (retainedIds k items).length ≤ k := by
  rw [retainedIds, List.length_map, List.length_take]
  exact min_le_left _ _

/-- Retention that has something to prune takes a snapshot. -/
theorem retained_ne {env : Env Dbi} {items : List SnapshotRetentionItem} {k : Nat}
    (hitems : RetentionItems (env.db snapshotsDbi).entries items) (hmore : k < items.length) :
    (LmdbStore.retained env (retainedIds k items)).db snapshotsDbi ≠ env.db snapshotsDbi := by
  intro hsame
  have hkept : ∀ e ∈ (env.db snapshotsDbi).entries, decodeU64Be e.1 ∈ retainedIds k items := by
    intro e he
    rw [← hsame, LmdbStore.retained, dropped, Env.set_db_ne (by decide), dropped,
      Env.set_db_self] at he
    have hpick := (Db.mem_filter.mp he).2
    rw [dropSnapshot, Bool.not_not] at hpick
    exact List.contains_iff_mem.mp hpick
  have hdecoded : ((env.db snapshotsDbi).entries.map fun e => decodeU64Be e.1).Nodup :=
    decoded_nodup fun e he => by
      obtain ⟨item, -, hsize, -⟩ := forall₂_mem hitems.flip he
      exact hsize
  have hsub : ((env.db snapshotsDbi).entries.map fun e => decodeU64Be e.1) ⊆ retainedIds k items := by
    intro id hid
    obtain ⟨e, he, rfl⟩ := List.mem_map.mp hid
    exact hkept e he
  have hlength := (hdecoded.subperm hsub).length_le
  rw [List.length_map, hitems.length_eq] at hlength
  have hfew := retainedIds_length k items
  omega

theorem retain_unpruned (h : ¬ Prunes options store io) :
    (retain options store io).2.env.db = store.env.db := by
  by_cases hpos : 0 < options.retentionKeepLatestSnapshots
  · rw [Prunes, and_iff_right hpos] at h
    rw [retain_eq hpos] at h ⊢
    rcases applySnapshotRetention_cleans store options.retentionKeepLatestSnapshots io.retention with
      ⟨-, -, heq⟩ | ⟨hok, -, env, ⟨items, hitems, ⟨-, -, rfl⟩ | ⟨hmore, -, -⟩⟩, heq⟩
    · rw [heq]
    · rw [heq]
    · exact absurd ⟨hitems.length_eq ▸ hmore, by rw [hok]; rfl⟩ h
  · rw [retain, if_neg hpos]

theorem retain_pruned (h : Prunes options store io) :
    (retain options store io).2.env.db snapshotsDbi ≠ store.env.db snapshotsDbi := by
  obtain ⟨hpos, hmore, hok⟩ := h
  rw [retain_eq hpos] at hok ⊢
  rcases applySnapshotRetention_cleans store options.retentionKeepLatestSnapshots io.retention with
    ⟨hfailed, -⟩ | ⟨-, -, env, ⟨items, hitems, ⟨hfew, -, -⟩ | ⟨hitemsMore, rfl, -⟩⟩, heq⟩
  · exact absurd hok (Bool.eq_false_iff.mp hfailed)
  · exact absurd hmore (not_lt.mpr (hitems.length_eq ▸ hfew))
  · rw [heq]
    exact retained_ne hitems hitemsMore

/-- A capture that goes through has moved the counter, or found nothing to write. -/
theorem captured_writes
    (h : captured options scan store command consumerId io = some (pipeline, store')) :
    (pipeline.computedDelta.all deltaHasChanges = true ∧
        store'.env.db metaDbi ≠ store.env.db metaDbi) ∨
      (pipeline.computedDelta.all deltaHasChanges = false ∧
        store' = (ackOf store command consumerId io).2) := by
  have hmeta : (ackOf store command consumerId io).2.env.db metaDbi = store.env.db metaDbi :=
    ackOf_others (by decide)
  rw [captured] at h
  split at h
  · obtain ⟨h, hok⟩ := Option.filter_eq_some_iff.mp h
    replace hok : pipeline.ok = true := hok
    rw [captureOf] at h
    obtain ⟨rootPath, -, h⟩ := Option.bind_eq_some_iff.mp h
    cases hop : command.operation with
    | read =>
        rw [hop] at h
        cases h
    | delete =>
        rw [hop] at h
        cases h
    | create =>
        rw [hop] at h
        obtain ⟨built, -, hmade⟩ := captureSnapshot_captured h
        obtain ⟨payload, -, hwrites⟩ := (captureSnapshot_outcome h).2 hok
        refine .inl ⟨by rw [(hmade hok).2]; rfl, ?_⟩
        rw [← hmeta]
        exact hwrites.counts (.inl rfl)
    | update =>
        rw [hop] at h
        dsimp only at h
        split at h
        · cases h
        · obtain ⟨built, base, -, -, hcases⟩ := captureSnapshotAndDelta_captured h hok
          rcases hcases with ⟨hchanged, -, hdelta⟩ | ⟨-, -, hsame, hstore⟩
          · obtain ⟨base', delta, -, hdelta', -, hwrites⟩ :=
              (captureSnapshotAndDelta_outcome h).2 hok
            obtain rfl := Option.some.inj (hdelta.symm.trans hdelta')
            obtain ⟨payload, deltaPayload, -, -, -, hwrites⟩ := hwrites hchanged
            refine .inl ⟨by rw [hdelta]; exact hchanged, ?_⟩
            rw [← hmeta]
            exact hwrites.counts (.inr rfl)
          · exact .inr ⟨hsame, hstore⟩
  · cases h

/-- A command that fails leaves every table as it was, unless its ack had gone through and moved the
one stored, or its capture had gone through and written before a later step failed; and where there
was no such capture the ack is all that is left. -/
theorem failed_command_leaves (options : CrudServerOptions) (scan : Str → RawScanResult)
    (store : LmdbStore) (command : CrudCommandMessage) (consumerId : Str) (io : CommandIo)
    (result : CrudResultMessage) (store' : LmdbStore)
    (h : process options scan store command consumerId io = some (some result, store'))
    (hfailed : result.ok = false) :
    (store'.env.db = store.env.db ↔ ¬ AckAdvances store command consumerId io ∧
      ¬ CaptureKept options scan store command consumerId io) ∧
    (¬ CaptureKept options scan store command consumerId io →
      store'.env.db = (ackOf store command consumerId io).2.env.db ∧
        ∀ dbi, dbi ≠ transportConsumersDbi → store'.env.db dbi = store.env.db dbi) := by
  have hleft : (¬ CaptureKept options scan store command consumerId io →
      store'.env.db = (ackOf store command consumerId io).2.env.db) ∧
      (CaptureKept options scan store command consumerId io →
        store'.env.db ≠ store.env.db) := by
    cases process_course h with
    | stops hstore _ hnone =>
        rw [hstore]
        refine ⟨fun _ => rfl, ?_⟩
        rintro ⟨pipeline, store₁, hcaptured, -⟩
        rw [hnone] at hcaptured
        cases hcaptured
    | deletes _ hok => exact absurd hok (Bool.eq_false_iff.mp hfailed)
    | captures pipeline store₁ hcaptured hstore _ =>
        rw [hstore]
        constructor
        · intro hnot
          rcases captured_writes hcaptured with ⟨hwrites, -⟩ | ⟨-, rfl⟩
          · exact absurd ⟨pipeline, store₁, hcaptured, .inl hwrites⟩ hnot
          · exact retain_unpruned fun hprunes => hnot ⟨_, _, hcaptured, .inr hprunes⟩
        · rintro ⟨pipeline', store₂, hcaptured', hkept⟩ hdb
          obtain ⟨rfl, rfl⟩ := Prod.mk.inj (Option.some.inj (hcaptured.symm.trans hcaptured'))
          rcases captured_writes hcaptured with ⟨-, hmoved⟩ | ⟨hsame, rfl⟩
          · exact hmoved (retain_meta.symm.trans (congrFun hdb metaDbi))
          · rcases hkept with hwrites | hprunes
            · exact absurd hwrites (Bool.eq_false_iff.mp hsame)
            · exact retain_pruned hprunes ((congrFun hdb snapshotsDbi).trans
                (ackOf_others (by decide)).symm)
  refine ⟨⟨fun hdb => ?_, fun hnot => ?_⟩, fun hnot => ?_⟩
  · have hnot := fun hkept => hleft.2 hkept hdb
    exact ⟨ackOf_db_iff.mp ((hleft.1 hnot).symm.trans hdb), hnot⟩
  · exact (hleft.1 hnot.2).trans (ackOf_db_iff.mpr hnot.1)
  · exact ⟨hleft.1 hnot, fun dbi hne => (congrFun (hleft.1 hnot) dbi).trans (ackOf_others hne)⟩

/-- A deletion that is refused after its ack. -/
def refusedDelete (ackSequence : UInt64) : CrudCommandMessage :=
  { operation := .delete, snapshotId := 7, ackSequence := ackSequence }

theorem refusedDelete_run {store : LmdbStore} {ackSequence : UInt64}
    (hack : (ackOf store (refusedDelete ackSequence) (str "c") {}).1.ok = true) :
    ∃ result, process {} (fun _ => {}) store (refusedDelete ackSequence) (str "c") {} =
      some (some result, (ackOf store (refusedDelete ackSequence) (str "c") {}).2) ∧
        result.ok = false := by
  obtain ⟨message, hrefused⟩ :
    ∃ message, remoteMutatingRefusal {} (refusedDelete ackSequence) = some message := ⟨_, rfl⟩
  refine ⟨{ message := message }, ?_, rfl⟩
  rw [process]
  dsimp only
  rw [hack, hrefused]
  rfl

/-- The deletion is refused, and its ack is stored. -/
theorem failed_command_leaves_not : ¬ ∀ (options : CrudServerOptions) (scan : Str → RawScanResult)
    (store : LmdbStore) (command : CrudCommandMessage) (consumerId : Str) (io : CommandIo)
    (result : CrudResultMessage) (store' : LmdbStore),
    process options scan store command consumerId io = some (some result, store') →
    result.ok = false → store'.env.db = store.env.db := by
  intro hall
  obtain ⟨result, h, hfailed⟩ := @refusedDelete_run (reached registered) 5 (by rfl)
  have hdb := hall _ _ _ _ _ _ _ _ h hfailed
  have hack : storedAck (reached registered).env (str "c") = some 0 := by rfl
  have hmoved : storedAck (ackOf (reached registered) (refusedDelete 5) (str "c") {}).2.env
      (str "c") = some 5 := by rfl
  rw [storedAck, hdb, ← storedAck, hack] at hmoved
  cases hmoved

theorem failed_command_leaves_refused : ∃ result store',
    process {} (fun _ => {}) (reached registered) (refusedDelete 0) (str "c") {} =
      some (some result, store') ∧ result.ok = false ∧ store'.env.db = (reached registered).env.db := by
  obtain ⟨result, h, hfailed⟩ := @refusedDelete_run (reached registered) 0 (by rfl)
  refine ⟨result, _, h, hfailed, (failed_command_leaves _ _ _ _ _ _ _ _ h hfailed).1.mpr ⟨?_, ?_⟩⟩
  · exact fun hadvances => absurd hadvances.1 (by decide)
  · rintro ⟨pipeline, store₁, hcaptured, -⟩
    rw [captured_eq_none (.inr rfl)] at hcaptured
    cases hcaptured

end CrudCommandProcessor

end ServerStorage.Muninn
