/-
# `ServerStorage.Muninn.Watch` — the watch mode of `main.cpp`

At each interval the loop captures the tree again, as a delta from the snapshot it took last;
when that one is gone, it starts over with a full capture.  The threads of the server work on
the same store between any two transactions of the loop.  As long as nobody takes the loop's
snapshot away, it is in the store and has the entries of the tree as it was last captured;
when somebody did, the next cycle notices, and the one after captures the whole tree.
-/
import ServerStorage.Lib.Runs
import ServerStorage.Muninn.CommandSpec
import ServerStorage.Muninn.Unchanged

namespace ServerStorage.Muninn

open Lib Lmdb Dbi LmdbStore IndexingPipeline

/-! ## The loop -/

/-- How the process was started: `--serve` enqueues records and `--core-debug` does not. -/
structure WatchOptions where
  enqueueTransport : Bool := true
  retentionKeepLatestSnapshots : Nat := 0

/-- Where the loop stands, with what it has scanned and read. -/
inductive WatchPhase where
  | waiting
  | full (capture : PipelineResult)
  | update (update : PipelineResult)
  | planned (update : PipelineResult) (plan : UpdatePlan)
  | retaining

structure Watch where
  store : LmdbStore := {}
  watchBaseSnapshotId : SnapshotId := 0
  phase : WatchPhase := .waiting
  /-- For the statements only: the tree of the last cycle that captured, as it was built. -/
  captured : Option Snapshot := none

inductive WatchEvent where
  /-- A transaction of another thread. -/
  | other (method : StoreMethod)
  /-- The interval has passed: the tree is scanned and its snapshot built. -/
  | scan (rawScan : RawScanResult) (now : UnixTimestamp)
  /-- The next transaction of the loop. -/
  | advance (io : CaptureIo) (retention : List (Option Fault))

namespace Watch

def baseNotFound (update : PipelineResult) : Bool :=
  !update.deltaStoreStatus.ok && decide (update.deltaStoreStatus.code = .notFound)

section
variable (options : WatchOptions) (s : Watch)

/-- The cycle captured: the base moves on, and retention follows where it is wanted. -/
def capturedAs (out : PipelineResult × LmdbStore) (built : Snapshot) : Watch :=
  { store := out.2
    watchBaseSnapshotId := out.1.snapshotBuild.snapshot.snapshotId
    phase := if 0 < options.retentionKeepLatestSnapshots then .retaining else .waiting
    captured := some built }

def afterFull (out : PipelineResult × LmdbStore) : Watch :=
  if out.1.ok && out.1.transportSnapshotStatus.ok then
    capturedAs options out out.1.snapshotBuild.snapshot
  else { s with store := out.2, phase := .waiting }

def afterUpdate (built : PipelineResult) (out : PipelineResult × LmdbStore) : Watch :=
  if out.1.ok && out.1.transportSnapshotStatus.ok && out.1.transportDeltaStatus.ok then
    capturedAs options out built.snapshotBuild.snapshot
  else if baseNotFound out.1 then
    { s with store := out.2, watchBaseSnapshotId := 0, phase := .waiting }
  else { s with store := out.2, phase := .waiting }

def step : WatchEvent → Option Watch
  | .other method => some { s with store := method.run s.store }
  | .scan rawScan now =>
      match s.phase with
      | .waiting =>
          (scanned rawScan now).map fun result =>
            { s with phase := if s.watchBaseSnapshotId = 0 then .full result else .update result }
      | _ => none
  | .advance io retention =>
      match s.phase with
      | .waiting => none
      | .full capture =>
          some (s.afterFull options (storeSnapshot s.store capture options.enqueueTransport io))
      | .update update =>
          some { s with
            phase := .planned update
              (basedOn s.store update s.watchBaseSnapshotId options.enqueueTransport io) }
      | .planned update plan =>
          some (s.afterUpdate options update
            (storeUpdate s.store plan options.enqueueTransport io))
      | .retaining =>
          -- That it fails is only logged.
          some { s with
            store := (s.store.applySnapshotRetention options.retentionKeepLatestSnapshots
              retention).2.2
            phase := .waiting }

/-- The record of the loop's snapshot is the same in both stores. -/
def leaves (store : LmdbStore) : Bool :=
  decide ((store.env.db snapshotsDbi).get (encodeU64Be s.watchBaseSnapshotId) =
    (s.store.env.db snapshotsDbi).get (encodeU64Be s.watchBaseSnapshotId))

/-- Neither another thread nor retention takes the loop's snapshot away. -/
def spares : WatchEvent → Bool
  | .other method => s.leaves (method.run s.store)
  | .advance _ retention =>
      match s.phase with
      | .retaining =>
          s.leaves (s.store.applySnapshotRetention options.retentionKeepLatestSnapshots
            retention).2.2
      | _ => true
  | .scan _ _ => true

end

end Watch

/-! ## What a capture leaves -/

/-- The snapshot stored under the id has the entries of the other, and no more. -/
def Reflects (env : Env Dbi) (id : SnapshotId) (target : Snapshot) : Prop :=
  ∃ base, storedSnapshot env id = some base ∧ Covers base target ∧ Covers target base

/-- The plan for what was built, from the snapshot under the id. -/
def PlannedFor (env : Env Dbi) (id : SnapshotId) (built : Snapshot) : UpdatePlan → Prop
  | .done result => result.ok = true →
      result.snapshotBuild.snapshot.snapshotId = id ∧ Reflects env id built
  | .put result _ _ => result.ok = true ∧ result.snapshotBuild.snapshot = built

section
variable {env env' : Env Dbi} {id : SnapshotId} {target : Snapshot} {store : LmdbStore}
  {result : PipelineResult} {enqueueTransport : Bool} {io : CaptureIo} {plan : UpdatePlan}

theorem Reflects.congr (h : Reflects env id target)
    (hget : (env'.db snapshotsDbi).get (encodeU64Be id) =
      (env.db snapshotsDbi).get (encodeU64Be id)) : Reflects env' id target := by
  obtain ⟨base, hstored, hcovers⟩ := h
  refine ⟨base, ?_, hcovers⟩
  rw [storedSnapshot, hget]
  exact hstored

theorem PlannedFor.congr (h : PlannedFor env id target plan)
    (hget : (env'.db snapshotsDbi).get (encodeU64Be id) =
      (env.db snapshotsDbi).get (encodeU64Be id)) : PlannedFor env' id target plan := by
  cases plan with
  | done result =>
      intro hok
      obtain ⟨hid, hreflects⟩ := h hok
      exact ⟨hid, hreflects.congr hget⟩
  | put result base delta => exact h

theorem covers_refl (s : Snapshot) : Covers s s := fun e he => ⟨e, he, rfl, rfl, rfl, rfl⟩

/-- A snapshot that was just written. -/
theorem reflects_written {payload : Str} (hpayload : serializeSnapshot target = .ok payload)
    (h : env'.db snapshotsDbi =
      (env.db snapshotsDbi).put (encodeU64Be target.snapshotId) payload) :
    Reflects env' target.snapshotId target := by
  refine ⟨target, ?_, covers_refl target, covers_refl target⟩
  rw [storedSnapshot, h, Db.get_put, if_pos rfl]
  show (Serialization.deserializeSnapshotBinary payload).toOption = some target
  rw [Serialization.deserializeSnapshotBinary_serialize (serializeSnapshot_ok hpayload)]
  rfl

theorem snapshotErrors_of_scanned {rawScan : RawScanResult} {now : UnixTimestamp}
    (h : scanned rawScan now = some result) (hok : result.snapshotValidation.ok = true) :
    snapshotErrors result.snapshotBuild.snapshot = false := by
  obtain ⟨built, -, h⟩ := Option.bind_eq_some_iff.mp h
  obtain rfl := Option.some.inj h
  rw [← hasErrors_validateSnapshotAt now]
  simpa [ValidationReport.ok] using hok

theorem readable_storeSnapshot (h : Readable store.env) :
    Readable (storeSnapshot store result enqueueTransport io).2.env := by
  rw [storeSnapshot]
  split
  · exact h
  · dsimp only
    split
    · exact h.step (.putSnapshotWithTransport _ _ _ _ _)
    · exact h.step (.putSnapshotWithTransport _ _ _ _ _)

theorem readable_storeUpdate (h : Readable store.env) :
    Readable (storeUpdate store plan enqueueTransport io).2.env := by
  cases plan with
  | done result => exact h
  | put result base delta =>
      rw [storeUpdate]
      dsimp only
      split
      · exact h.step (.putSnapshotAndDelta _ _ _ _ _ _ _)
      · exact h.step (.putSnapshotAndDelta _ _ _ _ _ _ _)

/-- A full capture. -/
theorem storeSnapshot_reflects {rawScan : RawScanResult} {now : UnixTimestamp}
    (h : scanned rawScan now = some result) :
    let out := storeSnapshot store result enqueueTransport io
    (out.1.ok = false → out.2 = store) ∧
      (out.1.ok = true → Reflects out.2.env out.1.snapshotBuild.snapshot.snapshotId
        out.1.snapshotBuild.snapshot) := by
  intro out
  have hcapture : captureSnapshot store rawScan enqueueTransport { io with scanned := now } =
      some (out.1, out.2) := by
    rw [captureSnapshot, h]
    rfl
  obtain ⟨hfailed, hcaptured⟩ := captureSnapshot_outcome hcapture
  refine ⟨hfailed, fun hok => ?_⟩
  obtain ⟨payload, hpayload, hwrites⟩ := hcaptured hok
  exact reflects_written hpayload hwrites.snapshots

/-- The base was read: nothing has changed since, or what was built is to be written. -/
theorem plannedFor_basedOn {rawScan : RawScanResult} {now : UnixTimestamp}
    (h : scanned rawScan now = some result) (hreadable : Readable store.env) :
    PlannedFor store.env id result.snapshotBuild.snapshot
      (basedOn store result id enqueueTransport io) := by
  rw [basedOn]
  split
  · intro hok
    exact absurd ((ok_failDelta (failed_failure (by decide) _ _)).symm.trans hok) (by decide)
  next hvalid =>
    cases hread : store.getSnapshot id true io.baseRead io.readFaults with
    | error status =>
        intro hok
        exact absurd ((ok_failDelta (refuses_getSnapshot _ _ _ _ _ _ hread)).symm.trans hok)
          (by decide)
    | ok base =>
        have hstored := getSnapshot_stored hread
        simp only [Bool.not_eq_true', Bool.not_eq_false] at hvalid
        have hbuilt := snapshotErrors_of_scanned h hvalid
        dsimp only [withBase]
        split
        · intro hok
          exact absurd ((ok_failDelta (failed_failure (by decide) _ _)).symm.trans hok) (by decide)
        next hdelta =>
          split
          next hsame =>
            intro _
            have hunchanged := (compute_unchanged
              (keyed_of_snapshotErrors (getSnapshot_valid hread))
              (keyed_of_snapshotErrors hbuilt)).mp ((Bool.not_eq_true' _).mp hsame)
            exact ⟨storedSnapshot_id hreadable hstored, base, hstored, hunchanged⟩
          next =>
            have hfresh := fresh_scanned h
            simp only [Bool.not_eq_true', Bool.not_eq_false] at hdelta
            refine ⟨?_, rfl⟩
            simp [PipelineResult.ok, hfresh.snapshot, hfresh.delta, hfresh.transportSnapshot,
              hfresh.transportDelta, hvalid, hdelta]

/-- An incremental capture. -/
theorem storeUpdate_reflects (hplan : PlannedFor store.env id target plan) :
    let out := storeUpdate store plan enqueueTransport io
    (out.1.ok = false → out.2 = store) ∧
      (out.1.ok = true → Reflects out.2.env out.1.snapshotBuild.snapshot.snapshotId target) := by
  intro out
  cases plan with
  | done result =>
      refine ⟨fun _ => rfl, fun hok => ?_⟩
      obtain ⟨hid, hreflects⟩ := hplan hok
      have hsame : out.1.snapshotBuild.snapshot.snapshotId = id := hid
      rw [hsame]
      exact hreflects
  | put result base delta =>
      obtain ⟨hresult, rfl⟩ := hplan
      have hwrites := putSnapshotAndDelta_writes store result.snapshotBuild.snapshot delta
        (some base) enqueueTransport false io.clock io.writeFaults
      have hout : out = storeUpdate store (.put result base delta) enqueueTransport io := rfl
      rw [storeUpdate] at hout
      generalize store.putSnapshotAndDeltaWithTransport result.snapshotBuild.snapshot delta
        (some base) enqueueTransport false io.clock io.writeFaults = put at hwrites hout
      obtain ⟨status, after⟩ := put
      dsimp only at hout
      rcases hwrites with
        ⟨hfailed, heq⟩ | ⟨hsuccess, -, env, ⟨payload, deltaPayload, hpayload, -, rfl, -⟩, heq⟩
      · have hrefused : status.ok = false := hfailed
        rw [if_neg (by rw [hrefused]; decide)] at hout
        rw [hout]
        exact ⟨fun _ => heq, fun hok => absurd ((ok_failDelta hfailed).symm.trans hok) (by decide)⟩
      · have hwritten : status = .success := hsuccess
        rw [hwritten, if_pos StoreStatus.ok_success] at hout
        rw [hout]
        refine ⟨fun hok => absurd (hresult.symm.trans hok) (by decide), fun _ => ?_⟩
        show Reflects after.env _ _
        rw [show after = _ from heq]
        exact reflects_written hpayload (captureWrites_delta enqueueTransport).snapshots

theorem ok_transports (h : result.ok = true) :
    result.transportSnapshotStatus.ok = true ∧ result.transportDeltaStatus.ok = true := by
  simp only [PipelineResult.ok, Bool.and_eq_true] at h
  exact ⟨h.1.1.1.2, h.1.1.2⟩

end

/-! ## The invariant -/

/-- What the loop holds is sound for the store as it is. -/
def WatchPhase.Sound (env : Env Dbi) (id : SnapshotId) : WatchPhase → Prop
  | .full result => ∃ rawScan now, scanned rawScan now = some result
  | .update result => ∃ rawScan now, scanned rawScan now = some result
  | .planned result plan => PlannedFor env id result.snapshotBuild.snapshot plan
  | _ => True

structure Watch.Inv (s : Watch) : Prop where
  readable : Readable s.store.env
  reflects : s.watchBaseSnapshotId ≠ 0 →
    ∃ target, s.captured = some target ∧ Reflects s.store.env s.watchBaseSnapshotId target
  phase : s.phase.Sound s.store.env s.watchBaseSnapshotId

section
variable {options : WatchOptions} {s s' : Watch} {out : PipelineResult × LmdbStore}
  {built : Snapshot}

theorem WatchPhase.Sound.congr {env env' : Env Dbi} {id : SnapshotId} {phase : WatchPhase}
    (h : phase.Sound env id)
    (hget : (env'.db snapshotsDbi).get (encodeU64Be id) =
      (env.db snapshotsDbi).get (encodeU64Be id)) : phase.Sound env' id := by
  cases phase with
  | planned result plan => exact PlannedFor.congr h hget
  | waiting => trivial
  | full result => exact h
  | update result => exact h
  | retaining => trivial

/-- The store changes, and not at the loop's snapshot. -/
theorem Watch.Inv.stored (h : s.Inv) {store : LmdbStore} (hleaves : s.leaves store = true)
    (hreadable : Readable store.env) : Watch.Inv { s with store := store } where
  readable := hreadable
  reflects hne := by
    obtain ⟨target, hcaptured, hreflects⟩ := h.reflects hne
    exact ⟨target, hcaptured, hreflects.congr (of_decide_eq_true hleaves)⟩
  phase := h.phase.congr (of_decide_eq_true hleaves)

theorem inv_capturedAs (hreadable : Readable out.2.env)
    (hreflects : Reflects out.2.env out.1.snapshotBuild.snapshot.snapshotId built) :
    (Watch.capturedAs options out built).Inv where
  readable := hreadable
  reflects _ := ⟨built, rfl, hreflects⟩
  phase := by
    show WatchPhase.Sound _ _
      (if 0 < options.retentionKeepLatestSnapshots then .retaining else .waiting)
    split
    · trivial
    · trivial

theorem Watch.Inv.afterFull (h : s.Inv) (hreadable : Readable out.2.env)
    (hfailed : out.1.ok = false → out.2 = s.store)
    (hcaptured : out.1.ok = true →
      Reflects out.2.env out.1.snapshotBuild.snapshot.snapshotId out.1.snapshotBuild.snapshot) :
    (s.afterFull options out).Inv := by
  rw [Watch.afterFull]
  cases hok : out.1.ok with
  | true =>
      rw [if_pos (by rw [(ok_transports hok).1]; rfl)]
      exact inv_capturedAs hreadable (hcaptured hok)
  | false =>
      rw [if_neg (by rw [Bool.false_and]; decide), hfailed hok]
      exact ⟨h.readable, h.reflects, trivial⟩

theorem Watch.Inv.afterUpdate (h : s.Inv) {update : PipelineResult} (hreadable : Readable out.2.env)
    (hfailed : out.1.ok = false → out.2 = s.store)
    (hcaptured : out.1.ok = true → Reflects out.2.env out.1.snapshotBuild.snapshot.snapshotId
      update.snapshotBuild.snapshot) :
    (s.afterUpdate options update out).Inv := by
  rw [Watch.afterUpdate]
  cases hok : out.1.ok with
  | true =>
      obtain ⟨hsnapshot, hdelta⟩ := ok_transports hok
      rw [if_pos (by rw [hsnapshot, hdelta]; rfl)]
      exact inv_capturedAs hreadable (hcaptured hok)
  | false =>
      rw [if_neg (by rw [Bool.false_and, Bool.false_and]; decide), hfailed hok]
      split
      · exact ⟨h.readable, fun hne => absurd rfl hne, trivial⟩
      · exact ⟨h.readable, h.reflects, trivial⟩

/-! ### What a step does -/

theorem Watch.scan_cases {rawScan : RawScanResult} {now : UnixTimestamp}
    (hstep : Watch.step options s (.scan rawScan now) = some s') :
    ∃ result, s.phase = .waiting ∧ scanned rawScan now = some result ∧
      s' = { s with
        phase := if s.watchBaseSnapshotId = 0 then .full result else .update result } := by
  rw [Watch.step] at hstep
  cases hphase : s.phase with
  | waiting =>
      rw [hphase] at hstep
      obtain ⟨result, hscanned, rfl⟩ := Option.map_eq_some_iff.mp hstep
      exact ⟨result, rfl, hscanned, rfl⟩
  | full capture =>
      rw [hphase] at hstep
      cases hstep
  | update update =>
      rw [hphase] at hstep
      cases hstep
  | planned update plan =>
      rw [hphase] at hstep
      cases hstep
  | retaining =>
      rw [hphase] at hstep
      cases hstep

theorem Watch.advance_cases {io : CaptureIo} {retention : List (Option Fault)}
    (hstep : Watch.step options s (.advance io retention) = some s') :
    (∃ capture, s.phase = .full capture ∧
      s' = s.afterFull options (storeSnapshot s.store capture options.enqueueTransport io)) ∨
    (∃ update, s.phase = .update update ∧
      s' = { s with
        phase := .planned update
          (basedOn s.store update s.watchBaseSnapshotId options.enqueueTransport io) }) ∨
    (∃ update plan, s.phase = .planned update plan ∧
      s' = s.afterUpdate options update
        (storeUpdate s.store plan options.enqueueTransport io)) ∨
    (s.phase = .retaining ∧
      s' = { s with
        store := (s.store.applySnapshotRetention options.retentionKeepLatestSnapshots
          retention).2.2
        phase := .waiting }) := by
  rw [Watch.step] at hstep
  cases hphase : s.phase with
  | waiting =>
      rw [hphase] at hstep
      cases hstep
  | full capture =>
      rw [hphase] at hstep
      exact .inl ⟨capture, rfl, (Option.some.inj hstep).symm⟩
  | update update =>
      rw [hphase] at hstep
      exact .inr (.inl ⟨update, rfl, (Option.some.inj hstep).symm⟩)
  | planned update plan =>
      rw [hphase] at hstep
      exact .inr (.inr (.inl ⟨update, plan, rfl, (Option.some.inj hstep).symm⟩))
  | retaining =>
      rw [hphase] at hstep
      exact .inr (.inr (.inr ⟨rfl, (Option.some.inj hstep).symm⟩))

/-- **The step lemma.** -/
theorem Watch.Inv.step (h : s.Inv) {event : WatchEvent} (hspares : s.spares options event = true)
    (hstep : Watch.step options s event = some s') : s'.Inv := by
  have hsound := h.phase
  cases event with
  | other method =>
      obtain rfl := Option.some.inj hstep
      exact h.stored hspares (h.readable.step method)
  | scan rawScan now =>
      obtain ⟨result, -, hscanned, rfl⟩ := Watch.scan_cases hstep
      refine ⟨h.readable, h.reflects, ?_⟩
      show WatchPhase.Sound _ _
        (if s.watchBaseSnapshotId = 0 then .full result else .update result)
      split
      · exact ⟨rawScan, now, hscanned⟩
      · exact ⟨rawScan, now, hscanned⟩
  | advance io retention =>
      rcases Watch.advance_cases hstep with
        ⟨capture, hphase, rfl⟩ | ⟨update, hphase, rfl⟩ | ⟨update, plan, hphase, rfl⟩ |
          ⟨hphase, rfl⟩
      · rw [hphase] at hsound
        obtain ⟨rawScan, now, hscanned⟩ := hsound
        obtain ⟨hfailed, hcaptured⟩ := storeSnapshot_reflects hscanned
        exact h.afterFull (readable_storeSnapshot h.readable) hfailed hcaptured
      · rw [hphase] at hsound
        obtain ⟨rawScan, now, hscanned⟩ := hsound
        exact ⟨h.readable, h.reflects, plannedFor_basedOn hscanned h.readable⟩
      · rw [hphase] at hsound
        obtain ⟨hfailed, hcaptured⟩ := storeUpdate_reflects hsound
        exact h.afterUpdate (readable_storeUpdate h.readable) hfailed hcaptured
      · rw [Watch.spares, hphase] at hspares
        have hstored := h.stored hspares (h.readable.step (.applySnapshotRetention _ _))
        exact ⟨hstored.readable, hstored.reflects, trivial⟩

end

/-! ## The runs -/

section
variable {options : WatchOptions}

/-- **The loop follows the tree**: in every run in which nobody takes its snapshot away, the
store has, under the id the loop goes on from, a snapshot with the entries of the tree as
the loop captured it last. -/
theorem watch_follows {methods : List StoreMethod} {events : List WatchEvent}
    (hspares : EachStep (Watch.step options) { store := reached methods } events
      fun s event => s.spares options event = true) :
    EachState (Watch.step options) { store := reached methods } events fun s =>
      s.watchBaseSnapshotId ≠ 0 →
        ∃ target, s.captured = some target ∧ Reflects s.store.env s.watchBaseSnapshotId target := by
  have hinv : ∀ pre post s, events = pre ++ post →
      runs (Watch.step options) { store := reached methods } pre = some s → s.Inv := by
    refine @runs_keeps_at _ _ _ _ _ (fun _ (s : Watch) => s.Inv) ?_ ?_
    · exact ⟨readable_reached methods, fun hne => absurd rfl hne, trivial⟩
    · intro pre event post s s' hevents hrun hbefore hstep
      exact hbefore.step (hspares pre event post s s' hevents hrun hstep) hstep
  exact fun pre post s hevents hrun => (hinv pre post s hevents hrun).reflects

/-! ### A full capture and an incremental one -/

def watching : List WatchEvent :=
  [.scan (scanOfSize 10 7) 0, .advance {} [], .scan (scanOfSize 20 9) 0, .advance {} [],
    .advance {} []]

theorem watching_ends :
    (runs (Watch.step {}) { store := reached [.openStore { directory := str "d" } none []] }
      watching).map Watch.watchBaseSnapshotId = some (idOf (scanOfSize 20 9)) := by
  decide +kernel

theorem watch_follows_watching :
    ∃ s target, runs (Watch.step {})
        { store := reached [.openStore { directory := str "d" } none []] } watching = some s ∧
      s.captured = some target ∧ Reflects s.store.env (idOf (scanOfSize 20 9)) target := by
  obtain ⟨s, hrun, hbase⟩ := Option.map_eq_some_iff.mp watching_ends
  have hne : s.watchBaseSnapshotId ≠ 0 := by
    rw [hbase]
    decide +kernel
  obtain ⟨target, hcaptured, hreflects⟩ := watch_follows (eachStep_of_stepsPass (by decide +kernel))
    watching [] s (List.append_nil _).symm hrun hne
  rw [hbase] at hreflects
  exact ⟨s, target, hrun, hcaptured, hreflects⟩

/-! ### When the snapshot is gone -/

theorem getSnapshot_gone {store : LmdbStore} {id : SnapshotId} (hopen : store.isOpen = true)
    (hgone : (store.env.db snapshotsDbi).get (encodeU64Be id) = none) (validate : Bool)
    (now : UnixTimestamp) : store.getSnapshot id validate now [] = .error recordNotFound := by
  have hkey : encodeU64Be id ≠ [] := by
    intro hnil
    simpa [hnil] using encodeU64Be_length id
  rw [LmdbStore.getSnapshot, readTxn_blob hkey, hgone, hopen]
  rfl

theorem storeSnapshot_build (store : LmdbStore) (result : PipelineResult) (enqueueTransport : Bool)
    (io : CaptureIo) :
    (storeSnapshot store result enqueueTransport io).1.snapshotBuild = result.snapshotBuild := by
  rw [storeSnapshot]
  split
  · rfl
  · dsimp only
    split
    · rfl
    · rfl

/-- **The loop starts over**: when its snapshot is gone, the next cycle over a valid tree says so
and changes nothing else.  The cycle after that captures the whole tree, or leaves everything for
the next one to try again. -/
theorem watch_recovers {s : Watch} (hwaiting : s.phase = .waiting)
    (hbase : s.watchBaseSnapshotId ≠ 0) (hopen : s.store.isOpen = true)
    (hgone : (s.store.env.db snapshotsDbi).get (encodeU64Be s.watchBaseSnapshotId) = none)
    {rawScan : RawScanResult} {now : UnixTimestamp} {update : PipelineResult}
    (hscanned : scanned rawScan now = some update) (hvalid : update.snapshotValidation.ok = true)
    {read : CaptureIo} (hcalm : read.readFaults = []) (write : CaptureIo)
    (retention retention' : List (Option Fault)) :
    runs (Watch.step options) s
        [.scan rawScan now, .advance read retention, .advance write retention'] =
      some { s with watchBaseSnapshotId := 0 } ∧
    ∀ rawScan' now' capture, scanned rawScan' now' = some capture → ∀ io retention'', ∃ s',
      runs (Watch.step options) { s with watchBaseSnapshotId := 0 }
          [.scan rawScan' now', .advance io retention''] = some s' ∧
        (s' = { s with watchBaseSnapshotId := 0 } ∨
          s'.watchBaseSnapshotId = capture.snapshotBuild.snapshot.snapshotId ∧
            s'.captured = some capture.snapshotBuild.snapshot ∧
            Reflects s'.store.env s'.watchBaseSnapshotId capture.snapshotBuild.snapshot) := by
  constructor
  · have hplan : basedOn s.store update s.watchBaseSnapshotId options.enqueueTransport read =
        .done (update.failDelta recordNotFound options.enqueueTransport) := by
      rw [basedOn, hvalid, hcalm, getSnapshot_gone hopen hgone]
      rfl
    have hfailed : (update.failDelta recordNotFound options.enqueueTransport).ok = false :=
      ok_failDelta (failed_failure (by decide) _ _)
    have hscan : Watch.step options s (.scan rawScan now) =
        some { s with phase := .update update } := by
      rw [Watch.step, hwaiting]
      show (scanned rawScan now).map _ = _
      rw [hscanned]
      show some { s with
        phase := if s.watchBaseSnapshotId = 0 then .full update else .update update } = _
      rw [if_neg hbase]
    have hread : Watch.step options { s with phase := .update update } (.advance read retention) =
        some { s with
          phase := .planned update
            (.done (update.failDelta recordNotFound options.enqueueTransport)) } := by
      rw [← hplan]
      rfl
    have hwrite : Watch.step options
        { s with
          phase := .planned update
            (.done (update.failDelta recordNotFound options.enqueueTransport)) }
        (.advance write retention') =
        some { s with watchBaseSnapshotId := 0, phase := .waiting } := by
      rw [Watch.step]
      dsimp only
      rw [storeUpdate, Watch.afterUpdate]
      dsimp only
      rw [hfailed, if_neg (by rw [Bool.false_and, Bool.false_and]; decide)]
      rfl
    rw [runs, hscan, Option.bind_some, runs, hread, Option.bind_some, runs, hwrite,
      ← hwaiting]
    rfl
  · intro rawScan' now' capture hscanned' io retention''
    obtain ⟨hfailed, hcaptured⟩ := @storeSnapshot_reflects s.store capture
      options.enqueueTransport io rawScan' now' hscanned'
    have hbuild := storeSnapshot_build s.store capture options.enqueueTransport io
    refine ⟨Watch.afterFull options { s with watchBaseSnapshotId := 0, phase := .full capture }
      (storeSnapshot s.store capture options.enqueueTransport io), ?_, ?_⟩
    · have hscan : Watch.step options { s with watchBaseSnapshotId := 0 } (.scan rawScan' now') =
          some { s with watchBaseSnapshotId := 0, phase := .full capture } := by
        rw [Watch.step, hwaiting]
        show (scanned rawScan' now').map _ = _
        rw [hscanned']
        rfl
      rw [runs, hscan]
      rfl
    · rw [Watch.afterFull]
      cases hok : (storeSnapshot s.store capture options.enqueueTransport io).1.ok with
      | true =>
          rw [if_pos (by rw [(ok_transports hok).1]; rfl)]
          refine .inr ⟨congrArg (fun b => b.snapshot.snapshotId) hbuild, ?_, ?_⟩
          · exact congrArg (fun b => some b.snapshot) hbuild
          · rw [← hbuild]
            exact hcaptured hok
      | false =>
          rw [if_neg (by rw [Bool.false_and]; decide), hfailed hok, ← hwaiting]
          exact .inl rfl

theorem watch_recovers_gone :
    runs (Watch.step {}) { store := storeOpened, watchBaseSnapshotId := 7 }
        [.scan (scanOfSize 10 7) 0, .advance {} [], .advance {} []] =
      some { store := storeOpened } := by
  have hvalid : (scanned (scanOfSize 10 7) 0).any (fun update => update.snapshotValidation.ok) =
      true := by
    decide +kernel
  obtain ⟨update, hscanned, hok⟩ := (Option.any_eq_true _ _).mp hvalid
  exact (@watch_recovers {} { store := storeOpened, watchBaseSnapshotId := 7 } rfl (by decide)
    (by decide +kernel) (by decide +kernel) _ _ update hscanned hok {} rfl {} [] []).1

end

end ServerStorage.Muninn
