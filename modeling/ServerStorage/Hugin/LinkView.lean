/-
# `ServerStorage.Hugin.LinkView` — what the bridge shows of the captured snapshots

The sink of Hugin, over the runs of Muninn and the bridge.  Records may come again, come out
of turn after a lost connection, or not at all before a restart; a delta may find its base,
its target or another snapshot.  Whatever the order, the state the sink has for a host has
the ids and paths of one snapshot that was captured, and goes under its id.
-/
import ServerStorage.Hugin.Link
import ServerStorage.Hugin.CaptureReplay
import ServerStorage.Hugin.DeltaEdits

namespace ServerStorage.Hugin

open Lib Lmdb Crud Relation ServerStorage.Muninn Dbi LmdbStore DeltaEngine HostMaterializedState
  MaterializerSink

/-! ## Captured items -/

/-- The snapshots that are captured: valid, and told apart by their ids. -/
structure Catalogue (known : Snapshot → Prop) : Prop where
  valid : ∀ s, known s → snapshotErrors s = false
  ids : ∀ s t, known s → known t → s.snapshotId = t.snapshotId → s = t

/-- The item is a captured snapshot, or the delta between two of one host whose renames lose
no path. -/
inductive Captured.Of (known : Snapshot → Prop) : Captured → Prop
  | snapshot {s : Snapshot} : known s → Of known (.snapshot s)
  | delta {base target : Snapshot} : known base → known target →
      base.hostIdentifier = target.hostIdentifier → KeepsPaths base target →
      (validateDelta (compute base target) (some base) (some target)).hasErrors = false →
      Of known (.delta (compute base target))

theorem Captured.Of.valid {known : Snapshot → Prop} (hknown : Catalogue known) {item : Captured}
    (h : item.Of known) : item.Valid := by
  cases h with
  | snapshot hs => exact hknown.valid _ hs
  | delta _ _ _ _ hvalid => exact ⟨_, _, hvalid⟩

/-! ## The sink -/

/-- Every host is at a captured snapshot. -/
def Tracked (known : Snapshot → Prop) (sink : MaterializerSink) : Prop :=
  ∀ host st, sink.states.lookup host = some st →
    ∃ s, known s ∧ s.hostIdentifier = host ∧ st.lastSnapshotId = s.snapshotId ∧ Tracks st s

section
variable {known : Snapshot → Prop} {sink : MaterializerSink} {sequence : UInt64}

theorem tracked_empty : Tracked known {} := by
  intro host st h
  cases h

/-- One host is put at a captured snapshot. -/
theorem Tracked.insert (h : Tracked known sink) {s : Snapshot} (hs : known s)
    {st : HostMaterializedState} (hid : st.lastSnapshotId = s.snapshotId) (hst : Tracks st s)
    (last : Str) :
    Tracked known { states := sink.states.insert s.hostIdentifier st, lastUpdatedHostId := last } := by
  intro host st' hlookup
  change (sink.states.insert s.hostIdentifier st).lookup host = some st' at hlookup
  by_cases hhost : host = s.hostIdentifier
  · subst hhost
    rw [AList.lookup_insert] at hlookup
    obtain rfl := Option.some.inj hlookup
    exact ⟨s, hs, rfl, hid, hst⟩
  · rw [AList.lookup_insert_ne hhost] at hlookup
    exact h host st' hlookup

theorem Tracked.applySnapshot (hknown : Catalogue known) (h : Tracked known sink) {s : Snapshot}
    (hs : known s) : Tracked known (sink.applySnapshot s.hostIdentifier sequence s).2 := by
  have hvalid := hknown.valid s hs
  rw [applySnapshot_ok (host_ne_of_snapshotErrors hvalid)]
  exact h.insert hs (buildFromSnapshot_lastSnapshotId s sequence)
    (tracks_buildFromSnapshot (keyed_of_snapshotErrors hvalid) sequence) _

/-- A delta is taken to a host that is at its base, and takes it to its target; or to none. -/
theorem Tracked.applyDelta (hknown : Catalogue known) (h : Tracked known sink)
    {base target : Snapshot} (hbase : known base) (htarget : known target)
    (hhost : base.hostIdentifier = target.hostIdentifier) (hpaths : KeepsPaths base target) :
    Tracked known (sink.applyDelta [] sequence (compute base target)).2 := by
  have hB := keyed_of_snapshotErrors (hknown.valid base hbase)
  have hT := keyed_of_snapshotErrors (hknown.valid target htarget)
  rw [MaterializerSink.applyDelta]
  cases hresolve : resolveHost sink [] (compute base target) with
  | none => exact h
  | some found =>
      obtain ⟨host, st⟩ := found
      have hresolves := resolveHost_eq_some.mp hresolve
      have hid : st.lastSnapshotId = base.snapshotId := by
        rcases hresolves with ⟨hne, -⟩ | ⟨-, hfallback⟩
        · exact absurd rfl hne
        · exact hfallback.2
      obtain ⟨s, hs, hshost, hsid, htracks⟩ := h host st hresolves.lookup
      -- The id tells the base.
      obtain rfl := hknown.ids s base hs hbase (hsid.symm.trans hid)
      have hok := (editState_spec hB hT htracks).1
      have hsame : ¬ st.lastSnapshotId ≠ (compute s target).baseSnapshotId := not_not.mpr hid
      dsimp only
      rw [if_neg hsame, hok, if_pos Status.ok_success]
      subst hshost
      rw [hhost]
      exact h.insert htarget rfl (htracks.deltaResult hB hT hpaths sequence) _

/-- **One record**: it is applied as it was captured, or leaves the sink. -/
theorem Tracked.takesRecord (hknown : Catalogue known) (h : Tracked known sink) {item : Captured}
    (hitem : item.Of known) {record : TransportRecord} (hcarries : Carries item record) :
    Tracked known (onRecord sink (CrudCommandProcessor.toMessage record)) := by
  obtain ⟨frame, -, hturn⟩ := hcarries.turn (hitem.valid hknown) sink
  rw [hturn]
  cases hitem with
  | snapshot hs => exact h.applySnapshot hknown hs
  | delta hbase htarget hhost hpaths _ => exact h.applyDelta hknown hbase htarget hhost hpaths

end

/-! ## The outbox -/

/-- Every record in the outbox is one of a captured item. -/
def OutboxOf (known : Snapshot → Prop) (env : Env Dbi) : Prop :=
  ∀ sequence frame, outboxFrame env sequence = some frame →
    ∃ item payload createdAt, Captured.Of known item ∧ Framed env item sequence payload createdAt

/-- What may be done to the outbox without a new record. -/
def quietGuard : Guard where
  ack := fun _ _ => True
  enqueue := fun _ => False

section
variable {known : Snapshot → Prop} {env env' : Env Dbi}

/-- The outbox holds nothing that it did not hold before. -/
def Shrinks (env env' : Env Dbi) : Prop :=
  ∀ sequence frame, outboxFrame env' sequence = some frame → outboxFrame env sequence = some frame

theorem Shrinks.of_same (h : env'.db transportDbi = env.db transportDbi) : Shrinks env env' := by
  intro sequence frame hframe
  rw [outboxFrame, h] at hframe
  exact hframe

theorem shrinks_of_run (h : OutboxRun quietGuard env env') : Shrinks env env' := by
  induction h with
  | refl => exact fun _ _ hframe => hframe
  | tail _ hstep ih =>
      intro sequence frame hframe
      refine ih sequence frame ?_
      cases hstep with
      | ack _ _ _ => exact Shrinks.of_same (outbox_acked ..) sequence frame hframe
      | register _ _ _ => exact Shrinks.of_same (outbox_acked ..) sequence frame hframe
      | enqueue _ hroom _ => exact hroom.elim
      | compact _ =>
          rw [outboxFrame, outbox_compacted, Db.get_filter] at hframe
          split at hframe
          · exact hframe
          · cases hframe
      | setCounter _ => exact Shrinks.of_same (outbox_counted ..) sequence frame hframe
      | other hsame => exact Shrinks.of_same hsame.2.1 sequence frame hframe

theorem OutboxOf.shrinks (h : OutboxOf known env) (hshrinks : Shrinks env env') :
    OutboxOf known env' := by
  intro sequence frame hframe
  have hbefore := hshrinks sequence frame hframe
  obtain ⟨item, payload, createdAt, hitem, hframed⟩ := h sequence frame hbefore
  refine ⟨item, payload, createdAt, hitem, hframed.encoded, ?_, hframed.size⟩
  rw [hframe, ← hbefore]
  exact hframed.frame

theorem OutboxOf.enqueued (h : OutboxOf known env) {item : Captured} (hitem : item.Of known)
    {payload : Str} {createdAt : UInt64} (hpayload : item.serialized = .ok payload)
    (hsize : (serializeFrame item.type item.routingKey payload createdAt).length ≤ maxDataSize) :
    OutboxOf known
      (enqueued env (serializeFrame item.type item.routingKey payload createdAt)) := by
  intro sequence frame hframe
  by_cases hnew : sequence = nextSequenceOf env
  · refine ⟨item, payload, createdAt, hitem, hpayload, ?_, hsize⟩
    rw [outboxFrame_enqueued, if_pos hnew]
  · rw [outboxFrame_enqueued, if_neg hnew] at hframe
    obtain ⟨old, payload', createdAt', hold, hframed⟩ := h sequence frame hframe
    refine ⟨old, payload', createdAt', hold, hframed.encoded, ?_, hframed.size⟩
    rw [outboxFrame_enqueued, if_neg hnew]
    exact hframed.frame

end

/-! ## Muninn -/

/-- Messages make no captures, and what the step enqueues itself are captured items. -/
def RecordsOnly (known : Snapshot → Prop) : StoreOp → Prop
  | .enqueueTransportRecord .. => False
  | .enqueueSnapshot snapshot .. => Captured.Of known (.snapshot snapshot)
  | .enqueueDelta delta .. => Captured.Of known (.delta delta)
  | .putSnapshotWithTransport snapshot enqueue .. =>
      enqueue = true → Captured.Of known (.snapshot snapshot)
  | .putSnapshotAndDeltaWithTransport snapshot delta _ enqueue .. =>
      enqueue = true → Captured.Of known (.snapshot snapshot) ∧ Captured.Of known (.delta delta)
  | .message _ options _ _ => options.allowRemoteMutatingCommands = false
  | _ => True

section
variable {known : Snapshot → Prop} {options : CrudServerOptions}

/-- Without remote captures a command does no more than acknowledge. -/
theorem process_unmutated (hoptions : options.allowRemoteMutatingCommands = false)
    {scan : Str → RawScanResult} {store store' : LmdbStore} {command : CrudCommandMessage}
    {consumerId : Str} {io : CommandIo} {answer : Option CrudResultMessage}
    (h : CrudCommandProcessor.process options scan store command consumerId io =
      some (answer, store')) :
    store' = (CrudCommandProcessor.ackOf store command consumerId io).2 := by
  rw [CrudCommandProcessor.process] at h
  dsimp only at h
  split at h
  · exact (Prod.mk.inj (Option.some.inj h)).2.symm
  · split at h
    · exact (Prod.mk.inj (Option.some.inj h)).2.symm
    · next hallowed =>
        have hread : command.operation = .read := by
          by_contra hne
          simp [CrudCommandProcessor.remoteMutatingRefusal, hoptions, hne] at hallowed
        rw [CrudCommandProcessor.operate, hread] at h
        exact (Prod.mk.inj (Option.some.inj h)).2.symm

/-- A message leaves what registering a consumer and acknowledging leave. -/
theorem dispatch_unmutated (hoptions : options.allowRemoteMutatingCommands = false)
    (io : MessageIo) (payload : Json) (served : Served) {P : LmdbStore → Prop}
    (hsame : P served.store)
    (hregister : ∀ consumerId faults,
      P (served.store.registerTransportConsumer consumerId faults).2)
    (hack : ∀ consumerId sequence faults,
      P (served.store.ackTransportUntilForConsumer consumerId sequence faults).2) :
    Leaves (CrudWebsocketSession.dispatch options io payload) served fun _ store => P store := by
  refine CrudWebsocketSession.dispatch_leaves hsame ?_ ?_ ?_
  · intro hello _ _
    exact ⟨hregister _ _, fun _ => hregister _ _⟩
  · intro _ ack _ _ _
    exact hack _ _ _
  · intro _ command result store _ hprocess
    rw [process_unmutated hoptions hprocess, CrudCommandProcessor.ackOf]
    split
    · exact hack _ _ _
    · exact hsame

/-- A message, on whatever session. -/
theorem handleMessage_unmutated (hoptions : options.allowRemoteMutatingCommands = false)
    (io : MessageIo) (payload : Json) (text : Str) (served : Served) {P : LmdbStore → Prop}
    (hsame : P served.store)
    (hregister : ∀ consumerId faults,
      P (served.store.registerTransportConsumer consumerId faults).2)
    (hack : ∀ consumerId sequence faults,
      P (served.store.ackTransportUntilForConsumer consumerId sequence faults).2) :
    P ((CrudWebsocketSession.handleMessage (fun _ => some payload) options io text).run.run
      served).2.store := by
  rcases CrudWebsocketSession.handleMessage_dispatches (fun _ => some payload) text with
    ⟨-, heq⟩ | ⟨payload', hparse, hobject, -⟩
  · rw [heq, CrudWebsocketSession.queued_store]
    exact hsame
  · obtain rfl := Option.some.inj hparse
    have hdispatch : (CrudWebsocketSession.handleMessage (fun _ => some payload) options io
        text).run.run served = (CrudWebsocketSession.dispatch options io payload).run.run served := by
      rw [CrudWebsocketSession.handleMessage]
      exact congrFun (congrArg _ (if_neg (by rw [hobject]; decide))) _
    rw [hdispatch]
    exact dispatch_unmutated hoptions io payload served hsame hregister hack

theorem dispatch_quiet (hoptions : options.allowRemoteMutatingCommands = false) (io : MessageIo)
    (payload : Json) (served : Served) :
    Leaves (CrudWebsocketSession.dispatch options io payload) served
      fun _ store => OutboxRun quietGuard served.store.env store.env :=
  @dispatch_unmutated options hoptions io payload served
    (fun store => OutboxRun quietGuard served.store.env store.env) ReflTransGen.refl
    (fun _ _ => LmdbStore.registerTransportConsumer_run _ _ trivial)
    fun _ _ _ => LmdbStore.ackTransportUntil_run _ _ _ trivial trivial

theorem handleMessage_quiet (hoptions : options.allowRemoteMutatingCommands = false)
    (io : MessageIo) (payload : Json) (text : Str) (served : Served) :
    OutboxRun quietGuard served.store.env
      ((CrudWebsocketSession.handleMessage (fun _ => some payload) options io text).run.run
        served).2.store.env :=
  @handleMessage_unmutated options hoptions io payload text served
    (fun store => OutboxRun quietGuard served.store.env store.env) ReflTransGen.refl
    (fun _ _ => LmdbStore.registerTransportConsumer_run _ _ trivial)
    fun _ _ _ => LmdbStore.ackTransportUntil_run _ _ _ trivial trivial

theorem quiet_of_demand {op : StoreOp} (hdemand : op.demand = 0) (hbare : op.bare = none)
    (store : LmdbStore) : OutboxRun quietGuard store.env (op.run store).env := by
  refine StoreOp.outboxRun (fun _ => trivial) ⟨fun hne => absurd hdemand hne, fun htwo => ?_, ?_,
    fun _ => trivial⟩
  · rw [hdemand] at htwo
    cases htwo
  · intro payload hpayload
    rw [hbare] at hpayload
    cases hpayload

/-- **One step of Muninn**: the outbox goes on to hold captured items only. -/
theorem OutboxOf.run {store : LmdbStore} (h : OutboxOf known store.env) {op : StoreOp}
    (hop : RecordsOnly known op) : OutboxOf known (op.run store).env := by
  cases op with
  | enqueueTransportRecord type routingKey payload createdAt io => exact hop.elim
  | enqueueSnapshot snapshot validate clock io =>
      rcases enqueueSnapshot_writes store snapshot validate clock io with
        ⟨-, hsame⟩ | ⟨-, -, env, ⟨payload, hpayload, rfl, -, hsize⟩, hstore⟩
      · rw [StoreOp.run, hsame]
        exact h
      · rw [StoreOp.run, hstore]
        exact @OutboxOf.enqueued _ _ h (.snapshot snapshot) hop payload _ hpayload hsize
  | enqueueDelta delta base target validate clock io =>
      rcases enqueueDelta_writes store delta base target validate clock io with
        ⟨-, hsame⟩ | ⟨-, -, env, ⟨payload, hpayload, rfl, -, hsize⟩, hstore⟩
      · rw [StoreOp.run, hsame]
        exact h
      · rw [StoreOp.run, hstore]
        exact @OutboxOf.enqueued _ _ h (.delta delta) hop payload _ hpayload hsize
  | putSnapshotWithTransport snapshot enqueue validate clock io =>
      rcases putSnapshotWithTransport_writes store snapshot enqueue validate clock io with
        ⟨-, hsame⟩ | ⟨-, -, env, ⟨payload, hpayload, rfl, hsize⟩, hstore⟩
      · rw [StoreOp.run, hsame]
        exact h
      · rw [StoreOp.run, hstore]
        have hkept := h.shrinks
          (Shrinks.of_same (sameTransport_withSnapshot store.env snapshot.snapshotId payload).2.1)
        cases enqueue with
        | false => exact hkept
        | true =>
            exact @OutboxOf.enqueued _ _ hkept (.snapshot snapshot) (hop rfl) payload _ hpayload
              (hsize rfl)
  | putSnapshotAndDeltaWithTransport snapshot delta base enqueue validate clock io =>
      rcases putSnapshotAndDelta_writes store snapshot delta base enqueue validate clock io with
        ⟨-, hsame⟩ | ⟨-, -, env, ⟨payload, payload', hpayload, hpayload', rfl, hsize⟩, hstore⟩
      · rw [StoreOp.run, hsame]
        exact h
      · rw [StoreOp.run, hstore]
        have hsame : SameTransport store.env
            (withCapture store.env snapshot delta payload payload') :=
          (sameTransport_withSnapshot ..).trans (sameTransport_withDelta ..)
        have hkept := h.shrinks (Shrinks.of_same hsame.2.1)
        cases enqueue with
        | false => exact hkept
        | true =>
            have hfirst := @OutboxOf.enqueued _ _ hkept (.snapshot snapshot) (hop rfl).1 payload _
              hpayload (hsize rfl).1
            exact @OutboxOf.enqueued _ _ hfirst (.delta delta) (hop rfl).2 payload' _ hpayload'
              (hsize rfl).2
  | message session options io payload =>
      exact h.shrinks (shrinks_of_run (dispatch_quiet hop io payload { session, store }))
  | registerTransportConsumer consumerId io =>
      exact h.shrinks (shrinks_of_run
        (@quiet_of_demand (.registerTransportConsumer consumerId io) rfl rfl store))
  | fetchTransportBatch consumerId maxItems io => exact h
  | compactTransport io =>
      exact h.shrinks (shrinks_of_run (@quiet_of_demand (.compactTransport io) rfl rfl store))
  | openStore options directoryError io =>
      exact h.shrinks (shrinks_of_run
        (@quiet_of_demand (.openStore options directoryError io) rfl rfl store))
  | close => exact h

end

/-! ## The runs -/

/-- What the sink shows: the results of this process of the bridge, applied in their order. -/
def Link.view (s : Link) : MaterializerSink := s.bridge.bridged.results.foldl onCrudResult {}

/-- What Muninn enqueues besides serving the bridge are captured items. -/
def EntersCaptures (known : Snapshot → Prop) : LinkEvent → Prop
  | .other op => RecordsOnly known op
  | _ => True

/-- The message is the one of a captured item's record. -/
def FromCapture (known : Snapshot → Prop) (message : TransportRecordMessage) : Prop :=
  ∃ item record, Captured.Of known item ∧ Carries item record ∧
    message = CrudCommandProcessor.toMessage record

section
variable {known : Snapshot → Prop} {options : CrudServerOptions}
  {clientOptions : MuninnClientOptions} {hello : HelloMessage} {events : List LinkEvent}
  {s s' : Link}

theorem OutboxOf.fromCapture {env : Env Dbi} (h : OutboxOf known env)
    {message : TransportRecordMessage} (hfrom : FromOutbox env message) :
    FromCapture known message := by
  obtain ⟨frame, hframe, hmessage⟩ := hfrom
  obtain ⟨item, payload, createdAt, hitem, hframed⟩ := h message.sequence frame hframe
  obtain rfl := Option.some.inj (hframe.symm.trans hframed.frame)
  rw [recordMessage, parseFrame_serializeFrame hframed.size] at hmessage
  exact ⟨item, _, hitem, ⟨payload, hframed.encoded, rfl⟩, (Option.some.inj hmessage).symm⟩

/-- What a step may do to the store: the work of Muninn, or a message of the bridge. -/
theorem Link.step_store {event : LinkEvent}
    (hstep : Link.step options clientOptions hello s event = some s') :
    s'.store = s.store ∨ (∃ op, event = .other op ∧ s'.store = op.run s.store) ∨
      ∃ io payload session, s'.store =
        ((CrudWebsocketSession.handleMessage (fun _ => some payload) options io []).run.run
          { session := session, store := s.store }).2.store := by
  cases event with
  | other op =>
      obtain rfl := Option.some.inj hstep
      exact .inr (.inl ⟨op, rfl, rfl⟩)
  | serve i io =>
      rw [Link.step] at hstep
      split at hstep
      next => cases hstep
      next peer _ =>
        split at hstep
        next => cases hstep
        next payload rest _ =>
          obtain ⟨_, hstep⟩ := Option.ite_none_left_eq_some.mp hstep
          obtain rfl := Option.some.inj hstep
          exact .inr (.inr ⟨io, payload, peer.session, rfl⟩)
  | lose i =>
      rw [Link.step] at hstep
      split at hstep
      next => cases hstep
      next peer _ =>
        obtain rfl := Option.some.inj hstep
        exact .inl rfl
  | client event =>
      obtain ⟨_, hstep⟩ := Option.ite_none_left_eq_some.mp hstep
      obtain ⟨bridge, _, rfl⟩ := Option.map_eq_some_iff.mp hstep
      refine .inl ?_
      cases event <;> rfl
  | receive =>
      rw [Link.step] at hstep
      split at hstep
      next => cases hstep
      next peer older _ =>
        split at hstep
        next => cases hstep
        next payload rest _ =>
          obtain ⟨bridge, _, rfl⟩ := Option.map_eq_some_iff.mp hstep
          exact .inl rfl
  | restart =>
      obtain rfl := Option.some.inj hstep
      exact .inl rfl

/-- **One step of the system**: the outbox goes on to hold captured items only. -/
theorem OutboxOf.step (hoptions : options.allowRemoteMutatingCommands = false)
    (h : OutboxOf known s.store.env) {event : LinkEvent} (hevent : EntersCaptures known event)
    (hstep : Link.step options clientOptions hello s event = some s') :
    OutboxOf known s'.store.env := by
  rcases Link.step_store hstep with hsame | ⟨op, rfl, hop⟩ | ⟨io, payload, session, hserved⟩
  · rw [hsame]
    exact h
  · rw [hop]
    exact h.run hevent
  · rw [hserved]
    exact h.shrinks (shrinks_of_run (handleMessage_quiet hoptions io payload []
      { session := session, store := s.store }))

theorem outboxOf_at (hoptions : options.allowRemoteMutatingCommands = false)
    (hcaptures : EachStep (Link.step options clientOptions hello)
      (Link.started clientOptions hello) events fun _ event => EntersCaptures known event) :
    EachState (Link.step options clientOptions hello) (Link.started clientOptions hello) events
      fun s => OutboxOf known s.store.env := by
  refine @runs_keeps_at _ _ _ _ _ (fun _ (s : Link) => OutboxOf known s.store.env) ?_ ?_
  · intro sequence frame hframe
    cases hframe
  · intro pre event post s s' hevents hrun h hstep
    exact h.step hoptions (hcaptures pre event post s s' hevents hrun hstep) hstep

theorem Tracked.takesResult (hknown : Catalogue known) {sink : MaterializerSink}
    (h : Tracked known sink) {result : CrudResultMessage}
    (hresult : ∀ message ∈ result.records, FromCapture known message) :
    Tracked known (onCrudResult sink result) := by
  refine List.foldlRecOn result.records onRecord h fun sink hsink message hmem => ?_
  obtain ⟨item, record, hitem, hcarries, rfl⟩ := hresult message hmem
  exact hsink.takesRecord hknown hitem hcarries

/-- A bridge that was handed captured items only. -/
theorem tracked_of_delivered (hknown : Catalogue known)
    (hdelivered : ∀ message ∈ s.delivered, FromCapture known message) : Tracked known s.view := by
  refine List.foldlRecOn s.bridge.bridged.results onCrudResult tracked_empty
    fun sink hsink result hmem => ?_
  refine hsink.takesResult hknown fun message hmessage => hdelivered message ?_
  exact List.mem_append_right _ (List.mem_flatMap.mpr ⟨result, hmem, hmessage⟩)

/-- **The view is never a mixture**: in every state of the run, whatever was lost, repeated or
started anew, each host that the sink knows has the ids and paths of one captured snapshot
of that host, and goes under its id. -/
theorem view_tracked (hknown : Catalogue known)
    (hoptions : options.allowRemoteMutatingCommands = false)
    (hmodest : ModestRun options clientOptions hello events)
    (hcaptures : EachStep (Link.step options clientOptions hello)
      (Link.started clientOptions hello) events fun _ event => EntersCaptures known event) :
    EachState (Link.step options clientOptions hello) (Link.started clientOptions hello) events
      fun s => Tracked known s.view := by
  intro pre post s hevents hrun
  have hlinked := linked_at hmodest pre post s hevents hrun
  refine tracked_of_delivered hknown fun message hmem => ?_
  obtain ⟨earlier, later, t, hsplit, ht, hfrom⟩ := hlinked.delivered message hmem
  have houtbox := outboxOf_at hoptions hcaptures earlier (later ++ post) t
    (by rw [hevents, hsplit, List.append_assoc]) ht
  exact houtbox.fromCapture hfrom

end

/-! ### A snapshot and a delta on their way -/

/-- Muninn opens its store and puts a snapshot with its record. -/
def capturing : List LinkEvent :=
  [.other (.openStore { directory := str "d" } none []),
    .other (.putSnapshotWithTransport sentBase true true {} [])]

/-- The connection is lost with the ack of the snapshot; then Muninn puts the delta to the next
one into the outbox, and the bridge connects anew. -/
def reconnecting : List LinkEvent :=
  [.lose 0, .client (.readFails true), .client (.writeCompletes true),
    .other (.enqueueDelta (compute sentBase sentTarget) (some sentBase) (some sentTarget) true {} []),
    .client .reconnectExpires]

def viewRun : List LinkEvent :=
  capturing ++ greeting ++ pulling.dropLast ++ reconnecting ++ greeting ++ pulling

def sentSnapshots (s : Snapshot) : Prop := s = sentBase ∨ s = sentTarget

theorem catalogue_sent : Catalogue sentSnapshots := by
  constructor
  · rintro s (rfl | rfl) <;> decide +kernel
  · rintro s t (rfl | rfl) (rfl | rfl) hids
    · rfl
    · exact absurd hids (by decide)
    · exact absurd hids (by decide)
    · rfl

theorem viewRun_modest : ModestRun {} {} bridgeHello viewRun :=
  eachStep_of_stepsPass (by decide +kernel)

theorem viewRun_captures : ∀ event ∈ viewRun, EntersCaptures sentSnapshots event := by
  have hsnapshot : Captured.Of sentSnapshots (.snapshot sentBase) := .snapshot (.inl rfl)
  have hdelta : Captured.Of sentSnapshots (.delta (compute sentBase sentTarget)) :=
    .delta (.inl rfl) (.inr rfl) rfl (by decide +kernel) (by decide +kernel)
  simp [viewRun, capturing, reconnecting, greeting, pulling, EntersCaptures, RecordsOnly,
    hsnapshot, hdelta]

/-- Each record was handed over once, over two sessions, and the delta has been applied. -/
theorem viewRun_ends :
    (runs (Link.step {} {} bridgeHello) (Link.started {} bridgeHello) viewRun).map (fun s =>
        (s.peers.length, s.delivered.map TransportRecordMessage.sequence,
          (s.view.states.lookup (str "h")).map HostMaterializedState.lastSnapshotId)) =
      some (2, [1, 2], some 2) := by
  decide +kernel

theorem view_tracked_reconnected :
    ∃ s st, runs (Link.step {} {} bridgeHello) (Link.started {} bridgeHello) viewRun = some s ∧
      s.peers.length = 2 ∧ s.delivered.map TransportRecordMessage.sequence = [1, 2] ∧
      s.view.states.lookup (str "h") = some st ∧ Tracks st sentTarget := by
  obtain ⟨s, hrun, hends⟩ := Option.map_eq_some_iff.mp viewRun_ends
  obtain ⟨hpeers, hrest⟩ := Prod.mk.inj hends
  obtain ⟨hdelivered, hview⟩ := Prod.mk.inj hrest
  obtain ⟨st, hlookup, hid⟩ := Option.map_eq_some_iff.mp hview
  have hcaptures : EachStep (Link.step {} {} bridgeHello) (Link.started {} bridgeHello) viewRun
      fun _ event => EntersCaptures sentSnapshots event := by
    intro pre event post _ _ hevents _ _
    refine viewRun_captures event ?_
    rw [hevents]
    exact List.mem_append_right _ List.mem_cons_self
  obtain ⟨t, ht, -, hshown, htracks⟩ := view_tracked catalogue_sent rfl viewRun_modest hcaptures
    viewRun [] s (List.append_nil _).symm hrun (str "h") st hlookup
  -- The id shown is the one of the target.
  rcases ht with rfl | rfl
  · rw [hid] at hshown
    exact absurd hshown (by decide)
  · exact ⟨s, st, hrun, hpeers, hdelivered, hlookup, htracks⟩

end ServerStorage.Hugin
