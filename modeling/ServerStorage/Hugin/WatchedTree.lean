/-
# `ServerStorage.Hugin.WatchedTree` — from the tree to the view

The loop of Muninn's watch mode, the sessions of its server and the bridge of Hugin, over one
store.  What the loop builds from its scans goes out as records of snapshots and deltas, as
fast as the bridge pulls them.  In every state, what Hugin shows of a host is the tree of one
of the scans.
-/
import ServerStorage.Hugin.LinkView
import ServerStorage.Muninn.Watch

namespace ServerStorage.Hugin

open Lib Lmdb Crud Relation ServerStorage.Muninn Dbi LmdbStore DeltaEngine IndexingPipeline

/-! ## The system -/

structure WatchedTree where
  link : Link
  watchBaseSnapshotId : SnapshotId := 0
  phase : WatchPhase := .waiting

inductive TreeEvent where
  | link (event : LinkEvent)
  /-- The interval has passed: the tree is scanned. -/
  | scan (rawScan : RawScanResult) (now : UnixTimestamp)
  /-- The next transaction of the loop. -/
  | advance (io : CaptureIo) (retention : List (Option Fault))

/-- Work of Muninn that neither captures nor enqueues. -/
def captureFree : StoreOp → Bool
  | .registerTransportConsumer .. => true
  | .fetchTransportBatch .. => true
  | .message _ options _ _ => !options.allowRemoteMutatingCommands
  | .compactTransport _ => true
  | .openStore .. => true
  | .close => true
  | _ => false

namespace WatchedTree

/-- The loop, with the store of the link. -/
def watch (s : WatchedTree) : Watch :=
  { store := s.link.store, watchBaseSnapshotId := s.watchBaseSnapshotId, phase := s.phase }

def watched (s : WatchedTree) (watch : Watch) : WatchedTree :=
  { link := { s.link with store := watch.store }
    watchBaseSnapshotId := watch.watchBaseSnapshotId
    phase := watch.phase }

section
variable (options : CrudServerOptions) (watchOptions : WatchOptions)
  (clientOptions : MuninnClientOptions) (hello : HelloMessage)

def step (s : WatchedTree) : TreeEvent → Option WatchedTree
  | .link event =>
      (Link.step options clientOptions hello s.link event).map fun link => { s with link := link }
  | .scan rawScan now => (Watch.step watchOptions s.watch (.scan rawScan now)).map s.watched
  | .advance io retention =>
      (Watch.step watchOptions s.watch (.advance io retention)).map s.watched

def started : WatchedTree := { link := Link.started clientOptions hello }

end

/-- The delta that is to be written is of one host, and its renames lose no path. -/
def keepsPaths : WatchPhase → Bool
  | .planned _ (.put result base _) =>
      decide (base.hostIdentifier = result.snapshotBuild.snapshot.hostIdentifier) &&
        decide (KeepsPaths base result.snapshotBuild.snapshot)
  | _ => true

/-- Only the loop captures. -/
def leavesCaptures : LinkEvent → Bool
  | .other op => captureFree op
  | _ => true

def orderly (c : Str) (s : WatchedTree) : TreeEvent → Bool
  | .link event => s.link.modest c event && leavesCaptures event
  | .scan _ _ => true
  | .advance _ _ => s.link.room && keepsPaths s.phase

end WatchedTree

/-- A valid snapshot that was built from one of the scans. -/
def ScannedIn (events : List TreeEvent) (built : Snapshot) : Prop :=
  ∃ rawScan now result, .scan rawScan now ∈ events ∧
    IndexingPipeline.scanned rawScan now = some result ∧
    result.snapshotBuild.snapshot = built ∧ snapshotErrors built = false

/-! ## The snapshots of the store -/

def StoredKnown (known : Snapshot → Prop) (env : Env Dbi) : Prop :=
  ∀ id snapshot, storedSnapshot env id = some snapshot → known snapshot

section
variable {known : Snapshot → Prop} {env env' : Env Dbi} {store : LmdbStore}

theorem StoredKnown.congr (h : StoredKnown known env)
    (hsame : env'.db snapshotsDbi = env.db snapshotsDbi) : StoredKnown known env' := by
  intro id snapshot hstored
  refine h id snapshot ?_
  rw [storedSnapshot, hsame] at hstored
  exact hstored

theorem StoredKnown.put (h : StoredKnown known env) {snapshot : Snapshot}
    (hsnapshot : known snapshot) {payload : Str}
    (hpayload : serializeSnapshot snapshot = .ok payload)
    (hput : env'.db snapshotsDbi =
      (env.db snapshotsDbi).put (encodeU64Be snapshot.snapshotId) payload) :
    StoredKnown known env' := by
  intro id found hstored
  rw [storedSnapshot, hput, Db.get_put] at hstored
  split at hstored
  · have hread : (Serialization.deserializeSnapshotBinary payload).toOption = some found := hstored
    rw [Serialization.deserializeSnapshotBinary_serialize (serializeSnapshot_ok hpayload)] at hread
    obtain rfl := Option.some.inj hread
    exact hsnapshot
  · exact h id found hstored

theorem StoredKnown.filter (h : StoredKnown known env) {keep : Str → Bool}
    (hfilter : env'.db snapshotsDbi = (env.db snapshotsDbi).filter keep) :
    StoredKnown known env' := by
  intro id found hstored
  rw [storedSnapshot, hfilter, Db.get_filter] at hstored
  split at hstored
  · exact h id found hstored
  · cases hstored

theorem snapshots_of_writes {result : StoreStatus × LmdbStore} {next : Env Dbi → Prop}
    (h : store.Writes result next)
    (hnext : ∀ env, next env → env.db snapshotsDbi = store.env.db snapshotsDbi) :
    result.2.env.db snapshotsDbi = store.env.db snapshotsDbi := by
  rcases h with ⟨-, heq⟩ | ⟨-, -, env, henv, heq⟩
  · rw [heq]
  · rw [heq]
    exact hnext env henv

theorem snapshots_register (consumerId : Str) (io : List (Option Fault)) :
    (store.registerTransportConsumer consumerId io).2.env.db snapshotsDbi =
      store.env.db snapshotsDbi := by
  refine snapshots_of_writes (registerTransportConsumer_writes store consumerId io) ?_
  rintro env ⟨-, ⟨-, rfl⟩ | ⟨-, rfl⟩⟩
  · rfl
  · exact Env.set_db_ne (by decide)

theorem snapshots_ack (consumerId : Str) (sequence : UInt64) (io : List (Option Fault)) :
    (store.ackTransportUntilForConsumer consumerId sequence io).2.env.db snapshotsDbi =
      store.env.db snapshotsDbi := by
  refine snapshots_of_writes (ackTransportUntil_writes store consumerId sequence io) ?_
  rintro env ⟨-, ⟨_, -, -, rfl⟩ | ⟨-, rfl⟩⟩
  · rfl
  · exact Env.set_db_ne (by decide)

theorem snapshots_captureFree {op : StoreOp} (h : captureFree op = true) :
    (op.run store).env.db snapshotsDbi = store.env.db snapshotsDbi := by
  cases op with
  | enqueueTransportRecord type routingKey payload createdAt io => cases h
  | enqueueSnapshot snapshot validate clock io => cases h
  | enqueueDelta delta base target validate clock io => cases h
  | putSnapshotWithTransport snapshot enqueue validate clock io => cases h
  | putSnapshotAndDeltaWithTransport snapshot delta base enqueue validate clock io => cases h
  | registerTransportConsumer consumerId io => exact snapshots_register consumerId io
  | fetchTransportBatch consumerId maxItems io => rfl
  | message session options io payload =>
      exact @dispatch_unmutated options ((Bool.not_eq_true' _).mp h) io payload { session, store }
        (fun after => after.env.db snapshotsDbi = store.env.db snapshotsDbi) rfl
        snapshots_register snapshots_ack
  | compactTransport io =>
      refine snapshots_of_writes (compactTransport_writes store io) ?_
      rintro env (⟨-, rfl⟩ | ⟨-, rfl⟩)
      · rfl
      · exact Env.set_db_ne (by decide)
  | openStore options directoryError io =>
      rw [StoreOp.run]
      rcases openStore_cases store options directoryError io with
        ⟨-, heq⟩ | ⟨-, -, heq⟩ | ⟨-, -, heq⟩
      · rw [heq]
      · rw [heq]
      · rw [heq, initialized]
        dsimp only
        split
        · exact Env.set_db_ne (by decide)
        · rfl
  | close => rfl

theorem recordsOnly_of_captureFree {op : StoreOp} (h : captureFree op = true) :
    RecordsOnly known op := by
  cases op with
  | enqueueTransportRecord type routingKey payload createdAt io => cases h
  | enqueueSnapshot snapshot validate clock io => cases h
  | enqueueDelta delta base target validate clock io => cases h
  | putSnapshotWithTransport snapshot enqueue validate clock io => cases h
  | putSnapshotAndDeltaWithTransport snapshot delta base enqueue validate clock io => cases h
  | message session options io payload => exact (Bool.not_eq_true' _).mp h
  | registerTransportConsumer consumerId io => trivial
  | fetchTransportBatch consumerId maxItems io => trivial
  | compactTransport io => trivial
  | openStore options directoryError io => trivial
  | close => trivial

theorem StoredKnown.retained (h : StoredKnown known store.env) (keep : Nat)
    (io : List (Option Fault)) :
    StoredKnown known (store.applySnapshotRetention keep io).2.2.env := by
  rcases applySnapshotRetention_writes store keep io with
    ⟨-, heq⟩ | ⟨-, -, env, ⟨items, -, hnext⟩, heq⟩
  · rw [show (store.applySnapshotRetention keep io).2.2 = store from heq]
    exact h
  · rw [show (store.applySnapshotRetention keep io).2.2 = _ from heq]
    rcases hnext with ⟨-, rfl⟩ | ⟨-, rfl⟩
    · exact h
    · refine h.filter (?_ : _ = Db.filter _ fun key => !dropSnapshot (retainedIds keep items) key)
      rw [LmdbStore.retained, dropped, Env.set_db_ne (by decide), dropped, Env.set_db_self]

end

/-! ## The invariant -/

/-- What was scanned is known, if it is valid. -/
def ResultKnown (known : Snapshot → Prop) (result : PipelineResult) : Prop :=
  result.snapshotValidation.ok = true → known result.snapshotBuild.snapshot

/-- What is to be written are known snapshots, and the delta between them. -/
def PlanKnown (known : Snapshot → Prop) : UpdatePlan → Prop
  | .done _ => True
  | .put result base delta =>
      known base ∧ known result.snapshotBuild.snapshot ∧
        delta = compute base result.snapshotBuild.snapshot ∧
        (validateDelta delta (some base) (some result.snapshotBuild.snapshot)).hasErrors = false

def PhaseKnown (known : Snapshot → Prop) : WatchPhase → Prop
  | .full result => ResultKnown known result
  | .update result => ResultKnown known result
  | .planned _ plan => PlanKnown known plan
  | _ => True

/-- Everything on the way from the store to the bridge comes from known snapshots. -/
structure Sourced (known : Snapshot → Prop) (c : Str) (link : Link) : Prop where
  linked : Linked c (FromCapture known) link
  outbox : OutboxOf known link.store.env
  stored : StoredKnown known link.store.env

structure TreeInv (known : Snapshot → Prop) (c : Str) (s : WatchedTree) : Prop where
  sourced : Sourced known c s.link
  phase : PhaseKnown known s.phase

section
variable {known : Snapshot → Prop} {c : Str} {link link' : Link} {result : PipelineResult}
  {enqueueTransport : Bool} {io : CaptureIo} {plan : UpdatePlan}

theorem planKnown_basedOn {store : LmdbStore} {id : SnapshotId} (hresult : ResultKnown known result)
    (hstored : StoredKnown known store.env) :
    PlanKnown known (basedOn store result id enqueueTransport io) := by
  rw [basedOn]
  split
  · trivial
  next hvalid =>
    cases hread : store.getSnapshot id true io.baseRead io.readFaults with
    | error status => trivial
    | ok base =>
        have hbase := hstored _ _ (getSnapshot_stored hread)
        dsimp only [withBase]
        split
        · trivial
        next hdelta =>
          split
          · trivial
          · simp only [Bool.not_eq_true', Bool.not_eq_false] at hvalid hdelta
            refine ⟨hbase, hresult hvalid, rfl, ?_⟩
            simpa [ValidationReport.ok] using hdelta

/-- A capture of known snapshots. -/
theorem Sourced.ran (h : Sourced known c link) {op : StoreOp} (hop : RecordsOnly known op)
    (hspares : op.spares c = true) (hroom : link.room = true)
    (hstored : StoredKnown known (op.run link.store).env) :
    Sourced known c { link with store := op.run link.store } := by
  have hfeeds : (link.feed c).Run (feed (op.run link.store).env c link.delivered) ∧
      Numbered (op.run link.store).env :=
    StoreOp.feeds h.linked.numbered hspares (of_decide_eq_true hroom)
  exact ⟨h.linked.stored hfeeds.1 hfeeds.2 fun _ hseen => hseen, h.outbox.run hop, hstored⟩

/-- The write of a full capture. -/
theorem Sourced.snapshot (h : Sourced known c link) (hroom : link.room = true)
    (hresult : ResultKnown known result) :
    Sourced known c
      { link with store := (storeSnapshot link.store result enqueueTransport io).2 } := by
  cases hvalid : result.snapshotValidation.ok with
  | false =>
      rw [storeSnapshot, hvalid]
      exact h
  | true =>
      have hknown := hresult hvalid
      have hstore : (storeSnapshot link.store result enqueueTransport io).2 =
          (StoreOp.putSnapshotWithTransport result.snapshotBuild.snapshot enqueueTransport false
            io.clock io.writeFaults).run link.store := by
        rw [storeSnapshot, hvalid]
        dsimp only
        split
        next hfalse => cases hfalse
        next =>
          split
          · rfl
          · rfl
      rw [hstore]
      refine h.ran (fun _ => .snapshot hknown) rfl hroom ?_
      rcases putSnapshotWithTransport_writes link.store result.snapshotBuild.snapshot
        enqueueTransport false io.clock io.writeFaults with
        ⟨-, hsame⟩ | ⟨-, -, env, ⟨payload, hpayload, rfl, -⟩, hput⟩
      · rw [StoreOp.run, hsame]
        exact h.stored
      · rw [StoreOp.run, hput]
        exact h.stored.put hknown hpayload (captureWrites_snapshot enqueueTransport).snapshots

/-- The write of an incremental capture. -/
theorem Sourced.update {update : PipelineResult} (h : Sourced known c link)
    (hroom : link.room = true) (hplan : PlanKnown known plan)
    (hpaths : WatchedTree.keepsPaths (.planned update plan) = true) :
    Sourced known c
      { link with store := (storeUpdate link.store plan enqueueTransport io).2 } := by
  cases plan with
  | done result => exact h
  | put result base delta =>
      obtain ⟨hbase, htarget, rfl, hvalid⟩ := hplan
      obtain ⟨hhost, hkeeps⟩ := (Bool.and_eq_true _ _).mp hpaths
      have hstore : (storeUpdate link.store
          (.put result base (compute base result.snapshotBuild.snapshot)) enqueueTransport io).2 =
          (StoreOp.putSnapshotAndDeltaWithTransport result.snapshotBuild.snapshot
            (compute base result.snapshotBuild.snapshot) (some base) enqueueTransport false
            io.clock io.writeFaults).run link.store := by
        rw [storeUpdate]
        dsimp only
        split
        · rfl
        · rfl
      rw [hstore]
      refine h.ran (fun _ => ⟨.snapshot htarget, .delta hbase htarget (of_decide_eq_true hhost)
        (of_decide_eq_true hkeeps) hvalid⟩) rfl hroom ?_
      rcases putSnapshotAndDelta_writes link.store result.snapshotBuild.snapshot
        (compute base result.snapshotBuild.snapshot) (some base) enqueueTransport false io.clock
        io.writeFaults with
        ⟨-, hsame⟩ | ⟨-, -, env, ⟨payload, deltaPayload, hpayload, -, rfl, -⟩, hput⟩
      · rw [StoreOp.run, hsame]
        exact h.stored
      · rw [StoreOp.run, hput]
        exact h.stored.put htarget hpayload (captureWrites_delta enqueueTransport).snapshots

theorem Sourced.retained (h : Sourced known c link) (keep : Nat) (retention : List (Option Fault)) :
    Sourced known c
      { link with store := (link.store.applySnapshotRetention keep retention).2.2 } := by
  have hrun : OutboxRun quietGuard link.store.env
      (link.store.applySnapshotRetention keep retention).2.2.env :=
    applySnapshotRetention_run keep retention
  have hother : OutboxRun { sparing c with enqueue := fun _ => False } link.store.env
      (link.store.applySnapshotRetention keep retention).2.2.env :=
    applySnapshotRetention_run keep retention
  have hfeed : (link.feed c).Run
      (feed (link.store.applySnapshotRetention keep retention).2.2.env c link.delivered) ∧
      Numbered (link.store.applySnapshotRetention keep retention).2.2.env :=
    hother.feed h.linked.numbered (fun _ henqueue => False.elim henqueue) fun hc => absurd rfl hc
  exact ⟨h.linked.stored hfeed.1 hfeed.2 fun _ hseen => hseen,
    h.outbox.shrinks (shrinks_of_run hrun), h.stored.retained keep retention⟩

section
variable {options : CrudServerOptions} {clientOptions : MuninnClientOptions} {hello : HelloMessage}

/-- A step of the link. -/
theorem Sourced.step (h : Sourced known c link)
    (hoptions : options.allowRemoteMutatingCommands = false)
    (hc : CrudWebsocketSession.consumerIdOf hello = c) {event : LinkEvent}
    (hmodest : link.modest c event = true) (hleaves : WatchedTree.leavesCaptures event = true)
    (hstep : Link.step options clientOptions hello link event = some link') :
    Sourced known c link' := by
  have hevent : EntersCaptures known event := by
    cases event with
    | other op => exact recordsOnly_of_captureFree hleaves
    | serve i io => trivial
    | lose i => trivial
    | client event => trivial
    | receive => trivial
    | restart => trivial
  have houtbox := h.outbox.step hoptions hevent hstep
  have hlinked := h.linked.step hc (fun _ hseen => hseen) (fun _ => houtbox.fromCapture) hmodest
    hstep
  refine ⟨hlinked.1, houtbox, ?_⟩
  rcases Link.step_store hstep with hsame | ⟨op, rfl, hop⟩ | ⟨io, payload, session, hserved⟩
  · rw [hsame]
    exact h.stored
  · rw [hop]
    exact h.stored.congr (snapshots_captureFree hleaves)
  · rw [hserved]
    exact h.stored.congr (@handleMessage_unmutated options hoptions io payload [] _
      (fun after => after.env.db snapshotsDbi = link.store.env.db snapshotsDbi) rfl
      snapshots_register snapshots_ack)

end

/-! ## One step -/

section
variable {watchOptions : WatchOptions} {w : Watch} {out : PipelineResult × LmdbStore}
  {built : PipelineResult}

theorem phaseKnown_capturedAs (snapshot : Snapshot) :
    PhaseKnown known (Watch.capturedAs watchOptions out snapshot).phase := by
  show PhaseKnown known
    (if 0 < watchOptions.retentionKeepLatestSnapshots then .retaining else .waiting)
  split
  · trivial
  · trivial

theorem afterFull_leaves :
    (w.afterFull watchOptions out).store = out.2 ∧
      PhaseKnown known (w.afterFull watchOptions out).phase := by
  rw [Watch.afterFull]
  split
  · exact ⟨rfl, phaseKnown_capturedAs _⟩
  · exact ⟨rfl, trivial⟩

theorem afterUpdate_leaves :
    (w.afterUpdate watchOptions built out).store = out.2 ∧
      PhaseKnown known (w.afterUpdate watchOptions built out).phase := by
  rw [Watch.afterUpdate]
  split
  · exact ⟨rfl, phaseKnown_capturedAs _⟩
  · split
    · exact ⟨rfl, trivial⟩
    · exact ⟨rfl, trivial⟩

end

section
variable {options : CrudServerOptions} {watchOptions : WatchOptions}
  {clientOptions : MuninnClientOptions} {hello : HelloMessage} {s s' : WatchedTree}

theorem TreeInv.scan (h : TreeInv known c s) {rawScan : RawScanResult} {now : UnixTimestamp}
    (hscan : ∀ result, IndexingPipeline.scanned rawScan now = some result →
      ResultKnown known result)
    (hstep : s.step options watchOptions clientOptions hello (.scan rawScan now) = some s') :
    TreeInv known c s' := by
  obtain ⟨w, hw, rfl⟩ := Option.map_eq_some_iff.mp hstep
  obtain ⟨result, -, hscanned, rfl⟩ := Watch.scan_cases hw
  refine ⟨h.sourced, ?_⟩
  show PhaseKnown known (if s.watchBaseSnapshotId = 0 then .full result else .update result)
  split
  · exact hscan result hscanned
  · exact hscan result hscanned

theorem TreeInv.advance (h : TreeInv known c s) {io : CaptureIo} {retention : List (Option Fault)}
    (hroom : s.link.room = true) (hpaths : WatchedTree.keepsPaths s.phase = true)
    (hstep : s.step options watchOptions clientOptions hello (.advance io retention) = some s') :
    TreeInv known c s' := by
  obtain ⟨w, hw, rfl⟩ := Option.map_eq_some_iff.mp hstep
  have hknown := h.phase
  rcases Watch.advance_cases hw with
    ⟨capture, hphase, rfl⟩ | ⟨update, hphase, rfl⟩ | ⟨update, plan, hphase, rfl⟩ | ⟨-, rfl⟩
  · rw [show s.phase = .full capture from hphase] at hknown
    obtain ⟨hstore, hafter⟩ := @afterFull_leaves known watchOptions s.watch
      (storeSnapshot s.link.store capture watchOptions.enqueueTransport io)
    refine ⟨?_, hafter⟩
    have hsourced := @Sourced.snapshot known c s.link capture watchOptions.enqueueTransport io
      h.sourced hroom hknown
    rw [← hstore] at hsourced
    exact hsourced
  · rw [show s.phase = .update update from hphase] at hknown
    exact ⟨h.sourced, planKnown_basedOn hknown h.sourced.stored⟩
  · rw [show s.phase = .planned update plan from hphase] at hknown hpaths
    obtain ⟨hstore, hafter⟩ := @afterUpdate_leaves known watchOptions s.watch
      (storeUpdate s.link.store plan watchOptions.enqueueTransport io) update
    refine ⟨?_, hafter⟩
    have hsourced := @Sourced.update known c s.link watchOptions.enqueueTransport io plan update
      h.sourced hroom hknown hpaths
    rw [← hstore] at hsourced
    exact hsourced
  · exact ⟨h.sourced.retained _ _, trivial⟩

/-- **The step lemma.** -/
theorem TreeInv.step (h : TreeInv known c s)
    (hoptions : options.allowRemoteMutatingCommands = false)
    (hc : CrudWebsocketSession.consumerIdOf hello = c) {event : TreeEvent}
    (hscan : ∀ rawScan now, event = .scan rawScan now → ∀ result,
      IndexingPipeline.scanned rawScan now = some result → ResultKnown known result)
    (horderly : s.orderly c event = true)
    (hstep : s.step options watchOptions clientOptions hello event = some s') :
    TreeInv known c s' := by
  cases event with
  | link event =>
      obtain ⟨link, hlink, rfl⟩ := Option.map_eq_some_iff.mp hstep
      obtain ⟨hmodest, hleaves⟩ := (Bool.and_eq_true _ _).mp horderly
      exact ⟨h.sourced.step hoptions hc hmodest hleaves hlink, h.phase⟩
  | scan rawScan now => exact h.scan (hscan rawScan now rfl) hstep
  | advance io retention =>
      obtain ⟨hroom, hpaths⟩ := (Bool.and_eq_true _ _).mp horderly
      exact h.advance hroom hpaths hstep

theorem treeInv_started (hc : CrudWebsocketSession.consumerIdOf hello = c) :
    TreeInv known c (WatchedTree.started clientOptions hello) where
  sourced :=
    { linked := linked_started hc
      outbox := by
        intro sequence frame hframe
        cases hframe
      stored := by
        intro id snapshot hstored
        cases hstored }
  phase := trivial

end

end

/-! ## The runs -/

/-- **The view is a tree that was scanned**: in every state of a run in which only the loop
captures, and no rename loses a path, each host that Hugin shows has the ids and paths of the
tree of one scan, whatever connections were lost and whoever was started anew. -/
theorem view_shows_scans {options : CrudServerOptions} {watchOptions : WatchOptions}
    {clientOptions : MuninnClientOptions} {hello : HelloMessage} {events : List TreeEvent}
    (hoptions : options.allowRemoteMutatingCommands = false)
    (hids : ∀ s t, ScannedIn events s → ScannedIn events t → s.snapshotId = t.snapshotId → s = t)
    (horderly : EachStep (WatchedTree.step options watchOptions clientOptions hello)
      (WatchedTree.started clientOptions hello) events fun s event =>
        s.orderly (CrudWebsocketSession.consumerIdOf hello) event = true) :
    EachState (WatchedTree.step options watchOptions clientOptions hello)
      (WatchedTree.started clientOptions hello) events fun s =>
        Tracked (ScannedIn events) s.link.view := by
  have hknown : Catalogue (ScannedIn events) := by
    refine ⟨?_, hids⟩
    rintro s ⟨_, _, _, _, _, _, hvalid⟩
    exact hvalid
  have hinv : ∀ pre post s, events = pre ++ post →
      runs (WatchedTree.step options watchOptions clientOptions hello)
        (WatchedTree.started clientOptions hello) pre = some s →
      TreeInv (ScannedIn events) (CrudWebsocketSession.consumerIdOf hello) s := by
    refine @runs_keeps_at _ _ _ _ _ (fun _ (s : WatchedTree) =>
      TreeInv (ScannedIn events) (CrudWebsocketSession.consumerIdOf hello) s) ?_ ?_
    · exact treeInv_started rfl
    · intro pre event post s s' hevents hrun hbefore hstep
      refine hbefore.step hoptions rfl ?_ (horderly pre event post s s' hevents hrun hstep) hstep
      rintro rawScan now rfl result hscanned hok
      refine ⟨rawScan, now, result, ?_, hscanned, rfl, snapshotErrors_of_scanned hscanned hok⟩
      rw [hevents]
      exact List.mem_append_right _ List.mem_cons_self
  exact fun pre post s hevents hrun =>
    tracked_of_delivered hknown (hinv pre post s hevents hrun).sourced.linked.delivered

/-! ### A tree and its change on their way -/

/-- Muninn opens its store and captures the tree; the bridge connects and pulls. -/
def firstTree : List TreeEvent :=
  [.link (.other (.openStore { directory := str "d" } none [])), .scan (scanOfSize 10 7) 0,
    .advance {} []] ++ (greeting ++ pulling).map .link

/-- The file has grown, and the update is planned when the connection is lost; it is written
before the bridge connects anew. -/
def secondTree : List TreeEvent :=
  [.scan (scanOfSize 20 9) 0, .advance {} [], .link (.lose 0), .link (.client (.readFails true)),
    .link (.client (.writeCompletes true)), .advance {} [], .link (.client .reconnectExpires)] ++
    (greeting ++ pulling).map .link

def treeRun : List TreeEvent := firstTree ++ secondTree

theorem treeRun_orderly :
    EachStep (WatchedTree.step {} {} {} bridgeHello) (WatchedTree.started {} bridgeHello) treeRun
      fun s event => s.orderly (CrudWebsocketSession.consumerIdOf bridgeHello) event = true :=
  eachStep_of_stepsPass (by decide +kernel)

theorem treeRun_ends :
    (runs (WatchedTree.step {} {} {} bridgeHello) (WatchedTree.started {} bridgeHello)
        treeRun).map (fun s => (s.link.peers.length,
          s.link.delivered.map TransportRecordMessage.sequence,
          (s.link.view.states.lookup (str "h")).map HostMaterializedState.lastSnapshotId)) =
      some (2, [1, 2, 3], some (idOf (scanOfSize 20 9))) := by
  decide +kernel

theorem scanned_snapshotId {rawScan : RawScanResult} {now : UnixTimestamp}
    {result : PipelineResult} (h : IndexingPipeline.scanned rawScan now = some result) :
    result.snapshotBuild.snapshot.snapshotId = idOf rawScan := by
  rw [IndexingPipeline.scanned] at h
  obtain ⟨built, hbuilt, h⟩ := Option.bind_eq_some_iff.mp h
  obtain rfl := Option.some.inj h
  rw [idOf, hbuilt]
  rfl

/-- What is shown under an id is the tree of the scan that has it. -/
theorem scannedIn_treeRun {s t : Snapshot} (hs : ScannedIn treeRun s) (ht : ScannedIn treeRun t)
    (hids : s.snapshotId = t.snapshotId) : s = t := by
  obtain ⟨scan, now, result, hmem, hscanned, rfl, -⟩ := hs
  obtain ⟨scan', now', result', hmem', hscanned', rfl, -⟩ := ht
  have hdiffer : idOf (scanOfSize 10 7) ≠ idOf (scanOfSize 20 9) := by decide +kernel
  have hscan : (scan = scanOfSize 10 7 ∧ now = 0) ∨ (scan = scanOfSize 20 9 ∧ now = 0) := by
    simpa [treeRun, firstTree, secondTree, greeting, pulling] using hmem
  have hscan' : (scan' = scanOfSize 10 7 ∧ now' = 0) ∨ (scan' = scanOfSize 20 9 ∧ now' = 0) := by
    simpa [treeRun, firstTree, secondTree, greeting, pulling] using hmem'
  rw [scanned_snapshotId hscanned, scanned_snapshotId hscanned'] at hids
  rcases hscan with ⟨rfl, rfl⟩ | ⟨rfl, rfl⟩ <;> rcases hscan' with ⟨rfl, rfl⟩ | ⟨rfl, rfl⟩
  · rw [Option.some.inj (hscanned.symm.trans hscanned')]
  · exact absurd hids hdiffer
  · exact absurd hids.symm hdiffer
  · rw [Option.some.inj (hscanned.symm.trans hscanned')]

theorem view_shows_scans_treeRun :
    ∃ s st built, runs (WatchedTree.step {} {} {} bridgeHello)
        (WatchedTree.started {} bridgeHello) treeRun = some s ∧
      s.link.peers.length = 2 ∧
      s.link.delivered.map TransportRecordMessage.sequence = [1, 2, 3] ∧
      s.link.view.states.lookup (str "h") = some st ∧ ScannedIn treeRun built ∧
      built.snapshotId = idOf (scanOfSize 20 9) ∧ Tracks st built := by
  obtain ⟨s, hrun, hends⟩ := Option.map_eq_some_iff.mp treeRun_ends
  obtain ⟨hpeers, hrest⟩ := Prod.mk.inj hends
  obtain ⟨hdelivered, hview⟩ := Prod.mk.inj hrest
  obtain ⟨st, hlookup, hid⟩ := Option.map_eq_some_iff.mp hview
  obtain ⟨built, hbuilt, -, hshown, htracks⟩ := view_shows_scans rfl
    (fun t u ht hu => scannedIn_treeRun ht hu) treeRun_orderly treeRun [] s
    (List.append_nil _).symm hrun (str "h") st hlookup
  exact ⟨s, st, built, hrun, hpeers, hdelivered, hlookup, hbuilt, hshown.symm.trans hid, htracks⟩

end ServerStorage.Hugin
