/-
# `ServerStorage.Muninn.Outbox` — the outbox, its counter and its acks over whole runs

Everything any part of Muninn does to the store is, as far as the outbox, the
sequence counter and the acks are concerned, a sequence of the six steps of
`OutboxStep`.  A `Guard` says which acks and which enqueues a run is allowed; what
holds over all runs then needs one case for each step.
-/
import ServerStorage.Muninn.SessionSpec

namespace ServerStorage.Muninn

open Lib Lmdb Dbi Crud Relation

/-! ## The steps -/

/-- Two environments that differ in snapshots, deltas and map size only. -/
def SameTransport (env env' : Env Dbi) : Prop :=
  env'.db metaDbi = env.db metaDbi ∧ env'.db transportDbi = env.db transportDbi ∧
    env'.db transportConsumersDbi = env.db transportConsumersDbi

/-- The bytes of a snapshot or a delta. -/
def Serialized (payload : Str) : Prop :=
  (∃ snapshot, LmdbStore.serializeSnapshot snapshot = .ok payload) ∨
    ∃ delta, LmdbStore.serializeDelta delta = .ok payload

/-- What a run is allowed: the acks a consumer sends, a record more, the payloads of its
records, and the consumers it works for. -/
structure Guard where
  ack : Env Dbi → UInt64 → Prop
  enqueue : Env Dbi → Prop
  payload : Str → Prop := fun _ => True
  consumer : Str → Prop := fun _ => True
  serialized : ∀ bytes, Serialized bytes → payload bytes := by exact fun _ _ => trivial

inductive OutboxStep (guard : Guard) (env : Env Dbi) : Env Dbi → Prop
  | ack {consumerId : Str} {sequence : UInt64} : consumerId ≠ [] → guard.ack env sequence →
      guard.consumer consumerId →
      OutboxStep guard env
        (acked env consumerId (max ((storedAck env consumerId).getD 0) sequence))
  | register {consumerId : Str} : consumerId ≠ [] → storedAck env consumerId = none →
      guard.consumer consumerId → OutboxStep guard env (acked env consumerId 0)
  | enqueue {type : TransportRecordType} {routingKey payload : Str} {createdAt : UInt64} :
      (serializeFrame type routingKey payload createdAt).length ≤ maxDataSize →
      guard.enqueue env → guard.payload payload →
      OutboxStep guard env (enqueued env (serializeFrame type routingKey payload createdAt))
  | compact : (minAcked env).getD 0 ≠ 0 →
      OutboxStep guard env (compacted env ((minAcked env).getD 0))
  | setCounter : (env.db metaDbi).get kKeyNextSequence = none →
      OutboxStep guard env (counted env 1)
  | other {env' : Env Dbi} : SameTransport env env' → OutboxStep guard env env'

/-- A run of such steps. -/
abbrev OutboxRun (guard : Guard) : Env Dbi → Env Dbi → Prop := ReflTransGen (OutboxStep guard)

section
variable {guard : Guard} {env env' : Env Dbi}

theorem OutboxRun.other (h : SameTransport env env') : OutboxRun guard env env' :=
  .single (.other h)

theorem sameTransport_withSnapshot (env : Env Dbi) (snapshotId : SnapshotId) (payload : Str) :
    SameTransport env (withSnapshot env snapshotId payload) :=
  ⟨Env.set_db_ne (by decide), Env.set_db_ne (by decide), Env.set_db_ne (by decide)⟩

theorem sameTransport_withDelta (env : Env Dbi) (base target : SnapshotId) (payload : Str) :
    SameTransport env (withDelta env base target payload) :=
  ⟨Env.set_db_ne (by decide), Env.set_db_ne (by decide), Env.set_db_ne (by decide)⟩

theorem SameTransport.trans {env env' env'' : Env Dbi} (h : SameTransport env env')
    (h' : SameTransport env' env'') : SameTransport env env'' :=
  ⟨h'.1.trans h.1, h'.2.1.trans h.2.1, h'.2.2.trans h.2.2⟩

theorem sameTransport_set (env : Env Dbi) {dbi : Dbi} (db : Db)
    (h : dbi = snapshotsDbi ∨ dbi = deltasDbi) : SameTransport env (env.set dbi db) := by
  rcases h with rfl | rfl
  · exact ⟨Env.set_db_ne (by decide), Env.set_db_ne (by decide), Env.set_db_ne (by decide)⟩
  · exact ⟨Env.set_db_ne (by decide), Env.set_db_ne (by decide), Env.set_db_ne (by decide)⟩

theorem SameTransport.nextSequenceOf (h : SameTransport env env') :
    nextSequenceOf env' = nextSequenceOf env := by
  rw [Muninn.nextSequenceOf, Muninn.nextSequenceOf, h.1]

theorem enqueuedIf_run {enqueue : Bool} {type : TransportRecordType} {routingKey payload : Str}
    {createdAt : UInt64}
    (hsize : enqueue = true →
      (serializeFrame type routingKey payload createdAt).length ≤ maxDataSize)
    (hroom : enqueue = true → guard.enqueue env) (hpayload : guard.payload payload) :
    OutboxRun guard env
      (enqueuedIf enqueue env (serializeFrame type routingKey payload createdAt)) := by
  cases enqueue with
  | false => exact .refl
  | true => exact .single (.enqueue (hsize rfl) (hroom rfl) hpayload)

end

/-! ## What the steps do to counter, acks and records -/

@[simp] theorem nextSequenceOf_acked (env : Env Dbi) (c : Str) (a : UInt64) :
    nextSequenceOf (acked env c a) = nextSequenceOf env := by
  rw [nextSequenceOf, nextSequenceOf, acked, Env.set_db_ne (by decide)]

@[simp] theorem nextSequenceOf_compacted (env : Env Dbi) (a : UInt64) :
    nextSequenceOf (compacted env a) = nextSequenceOf env := by
  rw [nextSequenceOf, nextSequenceOf, compacted, Env.set_db_ne (by decide)]

@[simp] theorem nextSequenceOf_counted (env : Env Dbi) (n : UInt64) :
    nextSequenceOf (counted env n) = n := by
  rw [nextSequenceOf, counted, Env.set_db_self, Db.get_put, if_pos rfl, Option.map_some,
    Option.getD_some, decodeU64Be_encodeU64Be]

@[simp] theorem nextSequenceOf_enqueued (env : Env Dbi) (frame : Str) :
    nextSequenceOf (enqueued env frame) = nextSequenceOf env + 1 := by
  rw [nextSequenceOf, enqueued, Env.set_db_ne (by decide), ← nextSequenceOf,
    nextSequenceOf_counted]

theorem storedAck_acked (env : Env Dbi) (c c' : Str) (a : UInt64) :
    storedAck (acked env c a) c' = if c' = c then some a else storedAck env c' := by
  rw [storedAck, storedAck, acked, Env.set_db_self, Db.get_put]
  split
  · rw [Option.map_some, decodeU64Be_encodeU64Be]
  · rfl

@[simp] theorem consumers_enqueued (env : Env Dbi) (frame : Str) :
    (enqueued env frame).db transportConsumersDbi = env.db transportConsumersDbi := by
  rw [enqueued, Env.set_db_ne (by decide), counted, Env.set_db_ne (by decide)]

@[simp] theorem consumers_compacted (env : Env Dbi) (a : UInt64) :
    (compacted env a).db transportConsumersDbi = env.db transportConsumersDbi :=
  Env.set_db_ne (by decide)

@[simp] theorem consumers_counted (env : Env Dbi) (n : UInt64) :
    (counted env n).db transportConsumersDbi = env.db transportConsumersDbi :=
  Env.set_db_ne (by decide)

@[simp] theorem outbox_acked (env : Env Dbi) (c : Str) (a : UInt64) :
    (acked env c a).db transportDbi = env.db transportDbi :=
  Env.set_db_ne (by decide)

@[simp] theorem outbox_counted (env : Env Dbi) (n : UInt64) :
    (counted env n).db transportDbi = env.db transportDbi :=
  Env.set_db_ne (by decide)

@[simp] theorem outbox_enqueued (env : Env Dbi) (frame : Str) :
    (enqueued env frame).db transportDbi =
      (env.db transportDbi).put (encodeU64Be (nextSequenceOf env)) frame :=
  Env.set_db_self ..

theorem outboxFrame_enqueued (env : Env Dbi) (frame : Str) (sequence : UInt64) :
    outboxFrame (enqueued env frame) sequence =
      if sequence = nextSequenceOf env then some frame else outboxFrame env sequence := by
  rw [outboxFrame, outbox_enqueued, Db.get_put]
  simp only [encodeU64Be_inj]
  rfl

@[simp] theorem outbox_compacted (env : Env Dbi) (a : UInt64) :
    (compacted env a).db transportDbi =
      (env.db transportDbi).filter fun k => encodeU64Be a < k :=
  Env.set_db_self ..

/-- The least ack is at most every ack stored. -/
theorem minAcked_le {env : Env Dbi} {c : Str} {a : UInt64} (h : storedAck env c = some a) :
    (minAcked env).getD 0 ≤ a := by
  obtain ⟨v, hv, rfl⟩ := Option.map_eq_some_iff.mp h
  have hmem : decodeU64Be v ∈
      (env.db transportConsumersDbi).entries.map fun e => decodeU64Be e.2 :=
    List.mem_map.mpr ⟨(c, v), Db.get_eq_some.mp hv, rfl⟩
  cases hmin : minAcked env with
  | none => exact absurd (List.min?_eq_none_iff.mp hmin ▸ hmem) List.not_mem_nil
  | some m => exact (List.min?_eq_some_iff.mp hmin).2 _ hmem

theorem storedAck_congr {env env' : Env Dbi}
    (h : env'.db transportConsumersDbi = env.db transportConsumersDbi) (c : Str) :
    storedAck env' c = storedAck env c := by
  rw [storedAck, storedAck, h]

/-- Every consumer has an id, and an ack that can be read. -/
def AcksReadable (env : Env Dbi) : Prop :=
  ∀ e ∈ (env.db transportConsumersDbi).entries, e.1 ≠ [] ∧ e.2.length = 8

theorem AcksReadable.setAck {env : Env Dbi} (h : AcksReadable env) {c : Str} (hc : c ≠ [])
    (a : UInt64) : AcksReadable (acked env c a) := by
  intro e he
  rw [acked, Env.set_db_self, Db.mem_put] at he
  rcases he with rfl | ⟨he, -⟩
  · exact ⟨hc, encodeU64Be_length a⟩
  · exact h e he

theorem AcksReadable.step {guard : Guard} {env env' : Env Dbi} (h : AcksReadable env)
    (hstep : OutboxStep guard env env') : AcksReadable env' := by
  cases hstep with
  | ack hc _ => exact h.setAck hc _
  | register hc _ => exact h.setAck hc _
  | enqueue _ _ _ => rw [AcksReadable, consumers_enqueued]; exact h
  | compact _ => rw [AcksReadable, consumers_compacted]; exact h
  | setCounter _ => rw [AcksReadable, consumers_counted]; exact h
  | other hsame => rw [AcksReadable, hsame.2.2]; exact h

theorem AcksReadable.run {guard : Guard} {env env' : Env Dbi} (h : AcksReadable env)
    (hrun : OutboxRun guard env env') : AcksReadable env' := by
  induction hrun with
  | refl => exact h
  | tail _ hstep ih => exact ih.step hstep

/-- A run that does not work for a consumer leaves its ack. -/
theorem OutboxRun.storedAck_eq {guard : Guard} {env env' : Env Dbi}
    (hrun : OutboxRun guard env env') {c : Str} (hc : ¬ guard.consumer c) :
    storedAck env' c = storedAck env c := by
  induction hrun with
  | refl => rfl
  | tail _ hstep ih =>
      cases hstep with
      | ack _ _ hconsumer =>
          rw [storedAck_acked, if_neg (fun heq : c = _ => hc (heq ▸ hconsumer)), ih]
      | register _ _ hconsumer =>
          rw [storedAck_acked, if_neg (fun heq : c = _ => hc (heq ▸ hconsumer)), ih]
      | enqueue => rw [storedAck_congr (consumers_enqueued _ _), ih]
      | compact => rw [storedAck_congr (consumers_compacted _ _), ih]
      | setCounter => rw [storedAck_congr (consumers_counted _ _), ih]
      | other hsame => rw [storedAck_congr hsame.2.2, ih]

/-! ## Every method is a run -/

namespace LmdbStore

variable {guard : Guard} {store : LmdbStore}

theorem Writes.run {result : StoreStatus × LmdbStore} {next : Env Dbi → Prop}
    (h : store.Writes result next) (hnext : ∀ env, next env → OutboxRun guard store.env env) :
    OutboxRun guard store.env result.2.env := by
  rcases h with ⟨-, heq⟩ | ⟨-, -, env, henv, heq⟩
  · rw [heq]
  · rw [heq]
    exact hnext env henv

theorem ackTransportUntil_run (consumerId : Str) (sequence : UInt64) (io : List (Option Fault))
    (hack : guard.ack store.env sequence) (hconsumer : guard.consumer consumerId) :
    OutboxRun guard store.env (store.ackTransportUntilForConsumer consumerId sequence io).2.env :=
    by
  refine (ackTransportUntil_writes store consumerId sequence io).run fun env h => ?_
  rcases h with ⟨hid, ⟨ack, -, -, rfl⟩ | ⟨-, rfl⟩⟩
  · exact .refl
  · exact .single (.ack hid hack hconsumer)

theorem registerTransportConsumer_run (consumerId : Str) (io : List (Option Fault))
    (hconsumer : guard.consumer consumerId) :
    OutboxRun guard store.env (store.registerTransportConsumer consumerId io).2.env := by
  refine (registerTransportConsumer_writes store consumerId io).run fun env h => ?_
  rcases h with ⟨hid, ⟨-, rfl⟩ | ⟨hnone, rfl⟩⟩
  · exact .refl
  · exact .single (.register hid hnone hconsumer)

theorem enqueueTransportRecord_run (type : TransportRecordType) (routingKey payload : Str)
    (createdAt : UInt64) (io : List (Option Fault)) (hroom : guard.enqueue store.env)
    (hpayload : guard.payload payload) :
    OutboxRun guard store.env
      (store.enqueueTransportRecord type routingKey payload createdAt io).2.env := by
  refine (enqueueTransportRecord_writes store type routingKey payload createdAt io).run
    fun env h => ?_
  obtain ⟨rfl, -, hsize⟩ := h
  exact .single (.enqueue hsize hroom hpayload)

theorem compactTransport_run (io : List (Option Fault)) :
    OutboxRun guard store.env (store.compactTransportUpToMinAcked io).2.env := by
  refine (compactTransport_writes store io).run fun env h => ?_
  rcases h with ⟨-, rfl⟩ | ⟨hne, rfl⟩
  · exact .refl
  · exact .single (.compact hne)

theorem putSnapshotWithTransport_run (snapshot : Snapshot) (enqueue validate : Bool)
    (clock : Clock) (io : List (Option Fault))
    (hroom : enqueue = true → ∀ env, nextSequenceOf env = nextSequenceOf store.env →
      guard.enqueue env) :
    OutboxRun guard store.env
      (store.putSnapshotWithTransport snapshot enqueue validate clock io).2.env := by
  refine (putSnapshotWithTransport_writes store snapshot enqueue validate clock io).run
    fun env h => ?_
  obtain ⟨payload, hpayload, rfl, hsize⟩ := h
  have hsame := sameTransport_withSnapshot store.env snapshot.snapshotId payload
  exact (OutboxRun.other hsame).trans
    (enqueuedIf_run hsize (fun h => hroom h _ hsame.nextSequenceOf)
      (guard.serialized _ (.inl ⟨snapshot, hpayload⟩)))

theorem putSnapshotAndDelta_run (snapshot : Snapshot) (delta : DeltaSnapshot)
    (base : Option Snapshot) (enqueue validate : Bool) (clock : Clock)
    (io : List (Option Fault))
    (hroom : enqueue = true → ∀ env, nextSequenceOf env = nextSequenceOf store.env ∨
      nextSequenceOf env = nextSequenceOf store.env + 1 → guard.enqueue env) :
    OutboxRun guard store.env
      (store.putSnapshotAndDeltaWithTransport snapshot delta base enqueue validate clock io).2.env
    := by
  refine (putSnapshotAndDelta_writes store snapshot delta base enqueue validate clock io).run
    fun env h => ?_
  obtain ⟨snapshotPayload, deltaPayload, hsnapshot, hdelta, rfl, hsize⟩ := h
  have hsame : SameTransport store.env
      (withCapture store.env snapshot delta snapshotPayload deltaPayload) :=
    (sameTransport_withSnapshot _ _ _).trans (sameTransport_withDelta _ _ _ _)
  refine ((OutboxRun.other hsame).trans
    (enqueuedIf_run (fun h => (hsize h).1)
      (fun h => hroom h _ (.inl hsame.nextSequenceOf))
      (guard.serialized _ (.inl ⟨snapshot, hsnapshot⟩)))).trans
    (enqueuedIf_run (fun h => (hsize h).2) (fun h => hroom h _ (.inr ?_))
      (guard.serialized _ (.inr ⟨delta, hdelta⟩)))
  rw [h, enqueuedIf, if_pos rfl, nextSequenceOf_enqueued, hsame.nextSequenceOf]

theorem deleteSnapshot_run (snapshotId : SnapshotId) (io : List (Option Fault)) :
    OutboxRun guard store.env (store.deleteSnapshot snapshotId io).2.2.env := by
  refine (deleteSnapshot_writes store snapshotId io).run fun env h => ?_
  obtain ⟨-, rfl⟩ := h
  exact .other ((sameTransport_set _ _ (.inl rfl)).trans (sameTransport_set _ _ (.inr rfl)))

theorem applySnapshotRetention_run (keep : Nat) (io : List (Option Fault)) :
    OutboxRun guard store.env (store.applySnapshotRetention keep io).2.2.env := by
  refine (applySnapshotRetention_writes store keep io).run fun env h => ?_
  obtain ⟨items, -, ⟨-, rfl⟩ | ⟨-, rfl⟩⟩ := h
  · exact .refl
  · exact .other ((sameTransport_set _ _ (.inl rfl)).trans (sameTransport_set _ _ (.inr rfl)))

theorem openStore_run (options : LmdbStoreOptions) (directoryError : Option Text)
    (io : List (Option Fault)) :
    OutboxRun guard store.env (store.openStore options directoryError io).2.env := by
  rcases openStore_cases store options directoryError io with
    ⟨-, heq⟩ | ⟨-, -, heq⟩ | ⟨-, -, heq⟩
  · rw [heq]
  · rw [heq]
  · rw [heq, initialized]
    have hsame : SameTransport store.env (resized store.env options.mapSizeBytes) :=
      ⟨rfl, rfl, rfl⟩
    split
    next hnone => exact (OutboxRun.other hsame).tail (.setCounter hnone)
    next => exact .other hsame

theorem enqueueSnapshot_run (snapshot : Snapshot) (validate : Bool) (clock : Clock)
    (io : List (Option Fault)) (hroom : guard.enqueue store.env) :
    OutboxRun guard store.env (store.enqueueSnapshot snapshot validate clock io).2.env := by
  refine (enqueueSnapshot_writes store snapshot validate clock io).run fun env h => ?_
  obtain ⟨payload, hpayload, rfl, -, hsize⟩ := h
  exact .single (.enqueue hsize hroom (guard.serialized _ (.inl ⟨snapshot, hpayload⟩)))

theorem enqueueDelta_run (delta : DeltaSnapshot) (base target : Option Snapshot)
    (validate : Bool) (clock : Clock) (io : List (Option Fault))
    (hroom : guard.enqueue store.env) :
    OutboxRun guard store.env
      (store.enqueueDelta delta base target validate clock io).2.env := by
  refine (enqueueDelta_writes store delta base target validate clock io).run fun env h => ?_
  obtain ⟨payload, hpayload, rfl, -, hsize⟩ := h
  exact .single (.enqueue hsize hroom (guard.serialized _ (.inr ⟨delta, hpayload⟩)))

end LmdbStore

/-! ## Every command and every message is a run -/

/-- Room for the records one capture may enqueue. -/
def HasRoom (guard : Guard) (env : Env Dbi) : Prop :=
  ∀ env', nextSequenceOf env' = nextSequenceOf env ∨
    nextSequenceOf env' = nextSequenceOf env + 1 → guard.enqueue env'

section
variable {guard : Guard} {store store' : LmdbStore} {io : CaptureIo} {enqueue : Bool}
  {scan : RawScanResult} {pipeline : PipelineResult}

theorem captureSnapshot_run (hroom : enqueue = true → HasRoom guard store.env)
    (h : IndexingPipeline.captureSnapshot store scan enqueue io = some (pipeline, store')) :
    OutboxRun guard store.env store'.env := by
  obtain ⟨result, -, h⟩ := Option.bind_eq_some_iff.mp h
  obtain rfl := congrArg Prod.snd (Option.some.inj h)
  rw [IndexingPipeline.storeSnapshot]
  split
  · exact .refl
  · have hput := @LmdbStore.putSnapshotWithTransport_run guard store
      result.snapshotBuild.snapshot enqueue false io.clock io.writeFaults
      fun h env heq => hroom h env (.inl heq)
    dsimp only
    split <;> exact hput

theorem captureSnapshotAndDelta_run {baseSnapshotId : SnapshotId}
    (hroom : enqueue = true → HasRoom guard store.env)
    (h : IndexingPipeline.captureSnapshotAndDelta store scan baseSnapshotId enqueue io =
      some (pipeline, store')) : OutboxRun guard store.env store'.env := by
  obtain ⟨result, -, h⟩ := Option.bind_eq_some_iff.mp h
  obtain rfl := congrArg Prod.snd (Option.some.inj h)
  unfold IndexingPipeline.storeUpdate
  split
  · exact .refl
  next result base delta _ =>
    have hput := @LmdbStore.putSnapshotAndDelta_run guard store
      result.snapshotBuild.snapshot delta (some base) enqueue false io.clock io.writeFaults
      fun h env heq => hroom h env heq
    dsimp only
    split <;> exact hput

end

namespace CrudCommandProcessor

variable {guard : Guard} {store store' : LmdbStore} {options : CrudServerOptions}
  {scan : Str → RawScanResult} {command : CrudCommandMessage} {consumerId : Str}
  {io : CommandIo} {failed result : CrudResultMessage} {answer : Option CrudResultMessage}

theorem finishCapture_run {message : String} :
    OutboxRun guard store.env
      (finishCapture options store command consumerId io failed result message).2.env := by
  have hretain : OutboxRun guard store.env (retain options store io).2.env := by
    rw [retain]
    split
    · exact LmdbStore.applySnapshotRetention_run _ _
    · exact .refl
  rw [finishCapture]
  dsimp only
  split <;> exact hretain

theorem operate_run (hroom : command.operation ≠ .read → HasRoom guard store.env)
    (h : operate options scan store command consumerId io result = some (answer, store')) :
    OutboxRun guard store.env store'.env := by
  rw [operate] at h
  cases hop : command.operation with
  | read =>
      rw [hop] at h
      obtain ⟨-, rfl⟩ := Prod.mk.inj (Option.some.inj h)
      exact .refl
  | create =>
      rw [hop] at h
      replace hroom := hroom (by rw [hop]; decide)
      simp only [create] at h
      split at h
      · obtain ⟨-, rfl⟩ := Prod.mk.inj (Option.some.inj h)
        exact .refl
      · obtain ⟨⟨pipeline, store₁⟩, hcapture, h⟩ := Option.bind_eq_some_iff.mp h
        have hrun := captureSnapshot_run (fun _ => hroom) hcapture
        dsimp only at h
        split at h
        · obtain ⟨-, rfl⟩ := Prod.mk.inj (Option.some.inj h)
          exact hrun
        · obtain rfl := congrArg Prod.snd (Option.some.inj h)
          exact hrun.trans finishCapture_run
  | update =>
      rw [hop] at h
      replace hroom := hroom (by rw [hop]; decide)
      simp only [update] at h
      split at h
      · obtain ⟨-, rfl⟩ := Prod.mk.inj (Option.some.inj h)
        exact .refl
      · split at h
        · obtain ⟨-, rfl⟩ := Prod.mk.inj (Option.some.inj h)
          exact .refl
        · obtain ⟨⟨pipeline, store₁⟩, hcapture, h⟩ := Option.bind_eq_some_iff.mp h
          have hrun := captureSnapshotAndDelta_run (fun _ => hroom) hcapture
          dsimp only at h
          split at h
          · obtain ⟨-, rfl⟩ := Prod.mk.inj (Option.some.inj h)
            exact hrun
          · obtain rfl := congrArg Prod.snd (Option.some.inj h)
            exact hrun.trans finishCapture_run
  | delete =>
      rw [hop] at h
      obtain rfl := congrArg Prod.snd (Option.some.inj h)
      rw [delete]
      split
      · exact .refl
      · have hrun := @LmdbStore.deleteSnapshot_run guard store
          command.snapshotId io.delete
        dsimp only
        split <;> exact hrun

theorem ackOf_run (consumerId : Str) (io : CommandIo)
    (hack : 0 < command.ackSequence → guard.ack store.env command.ackSequence)
    (hconsumer : guard.consumer consumerId) :
    OutboxRun guard store.env (ackOf store command consumerId io).2.env := by
  rw [ackOf]
  split
  next hpos => exact LmdbStore.ackTransportUntil_run _ _ _ (hack hpos) hconsumer
  next => exact .refl

theorem nextSequenceOf_ackOf :
    nextSequenceOf (ackOf store command consumerId io).2.env = nextSequenceOf store.env := by
  rw [ackOf]
  split
  next =>
    rcases LmdbStore.ackTransportUntil_writes store consumerId command.ackSequence io.ack with
      ⟨-, heq⟩ | ⟨-, -, env, ⟨-, ⟨_, -, -, rfl⟩ | ⟨-, rfl⟩⟩, heq⟩
    · rw [heq]
    · rw [heq]
    · rw [heq, nextSequenceOf_acked]
  next => rfl

theorem process_run
    (hack : 0 < command.ackSequence → guard.ack store.env command.ackSequence)
    (hroom : command.operation ≠ .read → HasRoom guard store.env)
    (hconsumer : guard.consumer consumerId)
    (h : process options scan store command consumerId io = some (answer, store')) :
    OutboxRun guard store.env store'.env := by
  have hackrun := ackOf_run consumerId io hack hconsumer
  rw [process] at h
  dsimp only at h
  split at h
  · obtain ⟨-, rfl⟩ := Prod.mk.inj (Option.some.inj h)
    exact hackrun
  · split at h
    · obtain ⟨-, rfl⟩ := Prod.mk.inj (Option.some.inj h)
      exact hackrun
    · refine hackrun.trans (operate_run (fun hop env henv => ?_) h)
      rw [nextSequenceOf_ackOf] at henv
      exact hroom hop env henv

end CrudCommandProcessor

/-- The ack a message asks to store: that of an `ingest_ack` that says ok, or of a
command. -/
def ackIn (payload : Json) : UInt64 :=
  match parseIngestAck payload with
  | .ok (some ack) => if ack.ok then ack.ackSequence else 0
  | _ =>
      match parseCrudCommand payload with
      | .ok (some command) => command.ackSequence
      | _ => 0

/-- The message is a command other than a read. -/
def mutates (payload : Json) : Bool :=
  match parseCrudCommand payload with
  | .ok (some command) => command.operation != .read
  | _ => false

theorem ofType_some {α : Type} {type : String} {json : Json} {fields : Parsed (Option α)} {a : α}
    (h : ofType type json fields = .ok (some a)) :
    stringOr json "type" = .ok (str type) ∧ fields = .ok (some a) := by
  rw [ofType] at h
  split at h
  · exact absurd (Except.ok.inj h) (by simp)
  · obtain ⟨found, hfound, h⟩ := except_bind_ok.mp h
    split at h
    · exact absurd (Except.ok.inj h) (by simp)
    next heq => exact ⟨by rw [hfound, not_not.mp heq], h⟩

theorem ackIn_ingestAck {payload : Json} {ack : IngestAckMessage}
    (h : parseIngestAck payload = .ok (some ack)) (hok : ack.ok = true) :
    ackIn payload = ack.ackSequence := by
  simp only [ackIn, h, hok, if_true]

theorem ackIn_command {payload : Json} {command : CrudCommandMessage}
    (h : parseCrudCommand payload = .ok (some command)) : ackIn payload = command.ackSequence := by
  have hnot : ∀ ack, parseIngestAck payload ≠ .ok (some ack) := by
    intro ack hack
    have htype := (ofType_some hack).1.symm.trans (ofType_some h).1
    exact absurd (Except.ok.inj htype) (by decide)
  rw [ackIn, h]
  split
  next ack heq => exact absurd heq (hnot ack)
  next => rfl

/-- A message works on the outbox through the ack it carries and the records it
makes. -/
theorem dispatch_run {guard : Guard} {served : Served} {options : CrudServerOptions}
    {io : MessageIo} {payload : Json}
    (hack : served.session.helloAccepted = true → 0 < ackIn payload →
      guard.ack served.store.env (ackIn payload))
    (hroom : served.session.helloAccepted = true → mutates payload = true →
      HasRoom guard served.store.env) (hconsumer : ∀ c, guard.consumer c) :
    Leaves (CrudWebsocketSession.dispatch options io payload) served fun _ store =>
      OutboxRun guard served.store.env store.env := by
  refine CrudWebsocketSession.dispatch_leaves .refl ?_ ?_ ?_
  · intro hello _ _
    exact ⟨LmdbStore.registerTransportConsumer_run _ _ (hconsumer _),
      fun _ => LmdbStore.registerTransportConsumer_run _ _ (hconsumer _)⟩
  · intro haccepted ack hparse hok hne
    have hin := ackIn_ingestAck hparse hok
    exact LmdbStore.ackTransportUntil_run _ _ _
      (hin ▸ hack haccepted (hin ▸ UInt64.pos_iff_ne_zero.mpr hne)) (hconsumer _)
  · intro haccepted command answer store hparse hprocess
    have hin := ackIn_command hparse
    refine CrudCommandProcessor.process_run (fun hpos => hin ▸ hack haccepted (hin ▸ hpos))
      (fun hop => hroom haccepted ?_) (hconsumer _) hprocess
    simp only [mutates, hparse, bne_iff_ne]
    exact hop

end ServerStorage.Muninn
