/-
# `ServerStorage.Hugin.CaptureRuns` — what a run of captures puts into the outbox

A full capture that succeeds enqueues its snapshot; an incremental one that finds a change
enqueues the snapshot and then the delta that leads to it.  So the outbox of a run is a
sequence of such groups, in the order of the captures.
-/
import ServerStorage.Hugin.Agreement
import ServerStorage.Muninn.DeltaValid
import ServerStorage.Muninn.Delivery

namespace ServerStorage.Hugin

open Lib Lmdb ServerStorage.Muninn Dbi LmdbStore IndexingPipeline DeltaEngine

/-! ## Runs of captures -/

/-- A capture, with its records enqueued. -/
inductive CaptureCommand where
  | create (rawScan : RawScanResult) (io : CaptureIo)
  | update (rawScan : RawScanResult) (baseSnapshotId : SnapshotId) (io : CaptureIo)

namespace CaptureCommand

def rawScan : CaptureCommand → RawScanResult
  | create rawScan _ => rawScan
  | update rawScan _ _ => rawScan

/-- The store after it; a capture that does not return leaves the store. -/
def run (store : LmdbStore) : CaptureCommand → LmdbStore
  | create rawScan io => ((captureSnapshot store rawScan true io).map Prod.snd).getD store
  | update rawScan baseSnapshotId io =>
      ((captureSnapshotAndDelta store rawScan baseSnapshotId true io).map Prod.snd).getD store

/-- The base and the target of the delta it stores. -/
def updated (store : LmdbStore) : CaptureCommand → Option (Snapshot × Snapshot)
  | create _ _ => none
  | update rawScan baseSnapshotId io => do
      let result ← IndexingPipeline.scanned rawScan io.scanned
      match basedOn store result baseSnapshotId true io with
      | .done _ => none
      | .put result base delta =>
          if (store.putSnapshotAndDeltaWithTransport result.snapshotBuild.snapshot delta
              (some base) true false io.clock io.writeFaults).1.ok then
            some (base, result.snapshotBuild.snapshot)
          else none

end CaptureCommand

def runCaptures (store : LmdbStore) (captures : List CaptureCommand) : LmdbStore :=
  captures.foldl CaptureCommand.run store

/-! ## The outbox of a run -/

/-- The record carries the item. -/
def Carries (item : Captured) (record : TransportRecord) : Prop :=
  ∃ payload, item.serialized = .ok payload ∧ record =
    { sequence := record.sequence, createdAt := record.createdAt, type := item.type.value
      routingKey := item.routingKey, payload := payload }

/-- The outbox holds the items, in their order, and is numbered below the counter. -/
structure Queued (env : Env Dbi) (items : List Captured) : Prop where
  below : ∀ e ∈ (env.db transportDbi).entries, e.1 < encodeU64Be (nextSequenceOf env)
  records : ∃ records, OutboxHolds env records ∧ List.Forall₂ Carries items records

theorem insertEntry_last {k v : Str} : ∀ {l : List (Str × Str)}, (∀ e ∈ l, e.1 < k) →
    insertEntry k v l = l ++ [(k, v)]
  | [], _ => rfl
  | e :: rest, h => by
      obtain ⟨he, hrest⟩ := List.forall_mem_cons.mp h
      rw [insertEntry, if_neg he.not_gt, if_neg he.ne', insertEntry_last hrest, List.cons_append]

section
variable {env env' : Env Dbi} {items : List Captured}

theorem queued_empty (h : (env.db transportDbi).entries = []) : Queued env [] := by
  refine ⟨fun e he => ?_, [], ?_, .nil⟩
  · rw [h] at he
    exact absurd he List.not_mem_nil
  · rw [OutboxHolds, h]
    exact List.Forall₂.nil

theorem Queued.congr (h : Queued env items) (hsame : SameTransport env env') :
    Queued env' items := by
  obtain ⟨records, hholds, hcarries⟩ := h.records
  refine ⟨?_, records, ?_, hcarries⟩
  · rw [hsame.2.1, hsame.nextSequenceOf]
    exact h.below
  · rw [OutboxHolds, hsame.2.1]
    exact hholds

/-- One more item, behind the others. -/
theorem Queued.enqueued (h : Queued env items) (hroom : (nextSequenceOf env).toNat + 1 < 2 ^ 64)
    (item : Captured) {payload : Str} {createdAt : UInt64} (hitem : item.serialized = .ok payload)
    (hsize : (serializeFrame item.type item.routingKey payload createdAt).length ≤ maxDataSize) :
    Queued (enqueued env (serializeFrame item.type item.routingKey payload createdAt))
      (items ++ [item]) := by
  obtain ⟨records, hholds, hcarries⟩ := h.records
  have hentries : ((Muninn.enqueued env
      (serializeFrame item.type item.routingKey payload createdAt)).db transportDbi).entries =
      (env.db transportDbi).entries ++ [(encodeU64Be (nextSequenceOf env),
        serializeFrame item.type item.routingKey payload createdAt)] := by
    rw [outbox_enqueued]
    exact insertEntry_last h.below
  refine ⟨fun e he => ?_, records ++ [{ sequence := nextSequenceOf env, createdAt := createdAt
                                        type := item.type.value, routingKey := item.routingKey
                                        payload := payload }], ?_, ?_⟩
  · rw [hentries, List.mem_append, List.mem_singleton] at he
    have hlt := encodeU64Be_lt.mpr (lt_succ hroom)
    rw [nextSequenceOf_enqueued]
    rcases he with he | rfl
    · exact (h.below e he).trans hlt
    · exact hlt
  · rw [OutboxHolds, hentries]
    refine List.rel_append hholds (.cons ⟨encodeU64Be_length _, ?_⟩ .nil)
    rw [decodeU64Be_encodeU64Be]
    exact parseFrame_serializeFrame hsize
  · exact List.rel_append hcarries (.cons ⟨payload, hitem, rfl⟩ .nil)

end

/-! ## Groups -/

/-- What one capture enqueues. -/
inductive Group where
  | full (target : Snapshot)
  | update (base target : Snapshot)

namespace Group

def target : Group → Snapshot
  | full target => target
  | update _ target => target

def items : Group → List Captured
  | full target => [.snapshot target]
  | update base target => [.snapshot target, .delta (compute base target)]

/-- A valid snapshot of the host, with a valid delta from a valid base. -/
structure Sound (host : Str) (g : Group) : Prop where
  target : snapshotErrors g.target = false
  host : g.target.hostIdentifier = host
  base : ∀ base target, g = update base target → snapshotErrors base = false ∧
    (validateDelta (compute base target) (some base) (some target)).hasErrors = false

/-- The delta, where there is one, leads from an id to itself. -/
def Harmless : Group → Prop
  | full _ => True
  | update base target => base.snapshotId = target.snapshotId

end Group

namespace CaptureCommand

/-- The capture stores no delta, or one from an id to itself. -/
def Harmless (store : LmdbStore) (c : CaptureCommand) : Prop :=
  ∀ base target, c.updated store = some (base, target) → base.snapshotId = target.snapshotId

end CaptureCommand

/-! ## One capture -/

section
variable {store : LmdbStore} {rawScan : RawScanResult} {result result' : PipelineResult}
  {now : UnixTimestamp} {io : CaptureIo} {baseSnapshotId : SnapshotId}

theorem build_host {options : BuildOptions} {built : BuildResult}
    (h : SnapshotBuilder.build rawScan options = some built) :
    built.snapshot.hostIdentifier = rawScan.hostIdentifier := by
  obtain ⟨⟨entries, diagnostics⟩, -, h⟩ := Option.bind_eq_some_iff.mp h
  rw [← Option.some.inj h]
  dsimp only
  split
  · rfl
  · rfl

theorem scanned_host (h : IndexingPipeline.scanned rawScan now = some result) :
    result.snapshotBuild.snapshot.hostIdentifier = rawScan.hostIdentifier := by
  obtain ⟨built, hbuilt, h⟩ := Option.bind_eq_some_iff.mp h
  rw [← Option.some.inj h]
  exact build_host hbuilt

/-- What an incremental capture writes: the delta to its scan from a valid base. -/
theorem basedOn_put {base : Snapshot} {delta : DeltaSnapshot}
    (h : basedOn store result baseSnapshotId true io = .put result' base delta) :
    result.snapshotValidation.ok = true ∧ snapshotErrors base = false ∧
      result'.snapshotBuild = result.snapshotBuild ∧
      delta = compute base result.snapshotBuild.snapshot ∧
      (validateDelta delta (some base) (some result.snapshotBuild.snapshot)).hasErrors = false := by
  rw [basedOn] at h
  split at h
  · cases h
  next hvalid =>
    cases hbase : store.getSnapshot baseSnapshotId true io.baseRead io.readFaults with
    | error status =>
        rw [hbase] at h
        cases h
    | ok found =>
        rw [hbase] at h
        dsimp only [withBase] at h
        split at h
        · cases h
        next hdelta =>
          split at h
          · cases h
          · cases h
            simp only [Bool.not_eq_true', Bool.not_eq_false, ValidationReport.ok] at hvalid hdelta
            exact ⟨by simpa [ValidationReport.ok] using hvalid, getSnapshot_valid hbase, rfl, rfl,
              by simpa using hdelta⟩

end

/-- What a capture of the host adds to an outbox with the items: a sound group or nothing, and
harmless when the capture is. -/
def Adds (host : Str) (c : CaptureCommand) (store : LmdbStore) (items : List Captured) : Prop :=
  ∃ groups : List Group, Queued (c.run store).env (items ++ groups.flatMap Group.items) ∧
    (nextSequenceOf (c.run store).env).toNat ≤ (nextSequenceOf store.env).toNat + 2 ∧
    (∀ g ∈ groups, g.Sound host) ∧ (c.Harmless store ↔ ∀ g ∈ groups, g.Harmless)

section
variable {store : LmdbStore} {items : List Captured} {host : Str} {c : CaptureCommand}
  {rawScan : RawScanResult} {io : CaptureIo} {baseSnapshotId : SnapshotId}

theorem adds_nothing (h : Queued store.env items) (hrun : c.run store = store)
    (hnone : c.updated store = none) : Adds host c store items := by
  refine ⟨[], ?_, ?_, fun _ hg => absurd hg List.not_mem_nil, ?_⟩
  · rw [hrun, List.flatMap_nil, List.append_nil]
    exact h
  · rw [hrun]
    exact Nat.le_add_right _ _
  · refine iff_of_true (fun base target hsome => ?_) fun _ hg => absurd hg List.not_mem_nil
    rw [hnone] at hsome
    cases hsome

theorem run_create : (CaptureCommand.create rawScan io).run store =
    match IndexingPipeline.scanned rawScan io.scanned with
    | none => store
    | some result => (storeSnapshot store result true io).2 := by
  rw [CaptureCommand.run, captureSnapshot]
  cases IndexingPipeline.scanned rawScan io.scanned with
  | none => rfl
  | some result => rfl

theorem run_update : (CaptureCommand.update rawScan baseSnapshotId io).run store =
    match IndexingPipeline.scanned rawScan io.scanned with
    | none => store
    | some result =>
        (storeUpdate store (basedOn store result baseSnapshotId true io) true io).2 := by
  rw [CaptureCommand.run, captureSnapshotAndDelta]
  cases IndexingPipeline.scanned rawScan io.scanned with
  | none => rfl
  | some result => rfl

theorem create_adds (h : Queued store.env items) (hhost : rawScan.hostIdentifier = host)
    (hroom : (nextSequenceOf store.env).toNat + 2 < 2 ^ 64) :
    Adds host (.create rawScan io) store items := by
  cases hscan : IndexingPipeline.scanned rawScan io.scanned with
  | none => exact adds_nothing h (by rw [run_create, hscan]) rfl
  | some result =>
  have hrun : (CaptureCommand.create rawScan io).run store =
      (storeSnapshot store result true io).2 := by rw [run_create, hscan]
  rw [storeSnapshot] at hrun
  split at hrun
  · exact adds_nothing h hrun rfl
  next hvalid =>
    simp only [Bool.not_eq_true', Bool.not_eq_false] at hvalid
    rcases putSnapshotWithTransport_writes store result.snapshotBuild.snapshot true false io.clock
      io.writeFaults with ⟨hfailed, heq⟩ | ⟨hok, -, env, ⟨payload, hpayload, henv, hsize⟩, heq⟩
    · refine adds_nothing h (hrun.trans ?_) rfl
      dsimp only
      rw [if_neg (by rw [show _ = false from hfailed]; decide)]
      exact heq
    · have hstore : (CaptureCommand.create rawScan io).run store = { store with env := env } := by
        rw [hrun]
        dsimp only
        rw [hok, if_pos StoreStatus.ok_success]
        exact heq
      have hsame := sameTransport_withSnapshot store.env result.snapshotBuild.snapshot.snapshotId
        payload
      have hnext := hsame.nextSequenceOf
      refine ⟨[.full result.snapshotBuild.snapshot], ?_, ?_, fun g hg => ?_, ?_⟩
      · rw [hstore, henv, enqueuedIf, if_pos rfl]
        have hroom' : (nextSequenceOf (withSnapshot store.env
            result.snapshotBuild.snapshot.snapshotId payload)).toNat + 1 < 2 ^ 64 := by
          rw [hnext]
          omega
        exact (h.congr hsame).enqueued hroom' (.snapshot result.snapshotBuild.snapshot) hpayload
          (hsize rfl)
      · rw [hstore, henv, enqueuedIf, if_pos rfl, nextSequenceOf_enqueued, hnext,
          toNat_succ (by omega)]
        omega
      · rw [List.mem_singleton.mp hg]
        refine ⟨scanned_valid hscan hvalid, (scanned_host hscan).trans hhost, ?_⟩
        intro before target hupdate
        cases hupdate
      · refine iff_of_true (fun before target hupdate => ?_) fun g hg => ?_
        · cases hupdate
        rw [List.mem_singleton.mp hg]
        trivial

theorem update_adds (h : Queued store.env items) (hhost : rawScan.hostIdentifier = host)
    (hroom : (nextSequenceOf store.env).toNat + 2 < 2 ^ 64) :
    Adds host (.update rawScan baseSnapshotId io) store items := by
  cases hscan : IndexingPipeline.scanned rawScan io.scanned with
  | none =>
      refine adds_nothing h (by rw [run_update, hscan]) ?_
      rw [CaptureCommand.updated, hscan]
      rfl
  | some result =>
  have hrun : (CaptureCommand.update rawScan baseSnapshotId io).run store =
      (storeUpdate store (basedOn store result baseSnapshotId true io) true io).2 := by
    rw [run_update, hscan]
  have hupdated : (CaptureCommand.update rawScan baseSnapshotId io).updated store =
      match basedOn store result baseSnapshotId true io with
      | .done _ => none
      | .put result base delta =>
          if (store.putSnapshotAndDeltaWithTransport result.snapshotBuild.snapshot delta
              (some base) true false io.clock io.writeFaults).1.ok then
            some (base, result.snapshotBuild.snapshot)
          else none := by
    rw [CaptureCommand.updated, hscan]
    rfl
  cases hplan : basedOn store result baseSnapshotId true io with
  | done given =>
      rw [hplan] at hrun hupdated
      exact adds_nothing h hrun hupdated
  | put given base delta =>
      obtain ⟨hvalid, hbase, hbuild, rfl, hdelta⟩ := basedOn_put hplan
      rw [hplan] at hrun hupdated
      dsimp only at hupdated
      rw [storeUpdate] at hrun
      rw [hbuild] at hrun hupdated
      have htarget := scanned_valid hscan hvalid
      have htargetHost := (scanned_host hscan).trans hhost
      generalize result.snapshotBuild.snapshot = target at hrun hupdated htarget htargetHost hdelta
      rcases putSnapshotAndDelta_writes store target (compute base target) (some base) true false
        io.clock io.writeFaults with ⟨hfailed, heq⟩ |
          ⟨hok, -, env, ⟨payload, deltaPayload, hpayload, hdeltaPayload, henv, hsize⟩, heq⟩
      · have hnot : ¬ (store.putSnapshotAndDeltaWithTransport target (compute base target)
            (some base) true false io.clock io.writeFaults).1.ok = true := by
          rw [show _ = false from hfailed]
          decide
        dsimp only at hrun
        rw [if_neg hnot] at hrun hupdated
        exact adds_nothing h (hrun.trans heq) hupdated
      · have hstored : (store.putSnapshotAndDeltaWithTransport target (compute base target)
            (some base) true false io.clock io.writeFaults).1.ok = true := by
          rw [hok]
          rfl
        dsimp only at hrun
        rw [if_pos hstored] at hrun hupdated
        have hsame : SameTransport store.env
            (withCapture store.env target (compute base target) payload deltaPayload) :=
          (sameTransport_withSnapshot ..).trans (sameTransport_withDelta ..)
        rw [enqueuedIf, if_pos rfl, enqueuedIf, if_pos rfl] at henv
        have hqueued := ((h.congr hsame).enqueued (by rw [hsame.nextSequenceOf]; omega)
          (.snapshot target) hpayload (hsize rfl).1).enqueued (by
            rw [nextSequenceOf_enqueued, hsame.nextSequenceOf, toNat_succ (by omega)]
            omega) (.delta (compute base target)) hdeltaPayload (hsize rfl).2
        refine ⟨[.update base target], ?_, ?_, fun g hg => ?_, ?_⟩
        · rw [hrun, heq, henv]
          rw [List.append_assoc] at hqueued
          exact hqueued
        · rw [hrun, heq, henv, nextSequenceOf_enqueued, nextSequenceOf_enqueued,
            hsame.nextSequenceOf, toNat_succ (by rw [toNat_succ (by omega)]; omega),
            toNat_succ (by omega)]
        · rw [List.mem_singleton.mp hg]
          refine ⟨htarget, htargetHost, fun base' target' heq' => ?_⟩
          obtain ⟨rfl, rfl⟩ := Group.update.inj heq'
          exact ⟨hbase, hdelta⟩
        · rw [CaptureCommand.Harmless, hupdated]
          constructor
          · intro hharmless g hg
            rw [List.mem_singleton.mp hg]
            exact hharmless base target rfl
          · intro hharmless base' target' heq'
            obtain ⟨rfl, rfl⟩ := Prod.mk.inj (Option.some.inj heq')
            exact hharmless _ (List.mem_singleton_self _)

theorem CaptureCommand.adds (h : Queued store.env items) (hhost : c.rawScan.hostIdentifier = host)
    (hroom : (nextSequenceOf store.env).toNat + 2 < 2 ^ 64) : Adds host c store items := by
  cases c with
  | create rawScan io => exact create_adds h hhost hroom
  | update rawScan baseSnapshotId io => exact update_adds h hhost hroom

end

/-! ## Whole runs -/

/-- Every capture of the run is harmless where it is made. -/
def HarmlessRun : LmdbStore → List CaptureCommand → Prop
  | _, [] => True
  | store, c :: rest => c.Harmless store ∧ HarmlessRun (c.run store) rest

/-- The outbox of a run is a sequence of sound groups, all harmless when the run is. -/
theorem runCaptures_groups {host : Str} : ∀ {captures : List CaptureCommand} {store : LmdbStore}
    {items : List Captured}, Queued store.env items →
      (∀ c ∈ captures, c.rawScan.hostIdentifier = host) →
      (nextSequenceOf store.env).toNat + 2 * captures.length < 2 ^ 64 →
      ∃ groups : List Group,
        Queued (runCaptures store captures).env (items ++ groups.flatMap Group.items) ∧
        (∀ g ∈ groups, g.Sound host) ∧
        (HarmlessRun store captures ↔ ∀ g ∈ groups, g.Harmless)
  | [], store, items, h, _, _ => by
      refine ⟨[], ?_, fun _ hg => absurd hg List.not_mem_nil,
        iff_of_true trivial fun _ hg => absurd hg List.not_mem_nil⟩
      rw [List.flatMap_nil, List.append_nil]
      exact h
  | c :: rest, store, items, h, hhost, hroom => by
      rw [List.length_cons] at hroom
      obtain ⟨hc, hrest⟩ := List.forall_mem_cons.mp hhost
      obtain ⟨first, hqueued, hnext, hsound, hharmless⟩ := c.adds h hc (by omega)
      obtain ⟨groups, hqueued', hsound', hharmless'⟩ :=
        runCaptures_groups hqueued hrest (by omega)
      refine ⟨first ++ groups, ?_, ?_, ?_⟩
      · rw [List.flatMap_append, ← List.append_assoc]
        exact hqueued'
      · exact List.forall_mem_append.mpr ⟨hsound, hsound'⟩
      · rw [List.forall_mem_append, ← hharmless, ← hharmless']
        exact Iff.rfl

end ServerStorage.Hugin
