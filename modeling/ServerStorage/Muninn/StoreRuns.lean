/-
# `ServerStorage.Muninn.StoreRuns` — what may happen to the store

The methods that work on the outbox, the messages of the sessions, closing and
reopening, in any order: each step is a run of outbox steps whose acks and enqueues
are those it was asked for.
-/
import ServerStorage.Muninn.Outbox

namespace ServerStorage.Muninn

open Lib Lmdb Dbi Crud Relation LmdbStore

/-! ## The steps -/

/-- What may happen to the store: its methods, and a message on a session. -/
inductive StoreOp where
  | enqueueTransportRecord (type : TransportRecordType) (routingKey payload : Str)
      (createdAt : UInt64) (io : List (Option Fault))
  | enqueueSnapshot (snapshot : Snapshot) (validate : Bool) (clock : LmdbStore.Clock)
      (io : List (Option Fault))
  | enqueueDelta (delta : DeltaSnapshot) (base target : Option Snapshot) (validate : Bool)
      (clock : LmdbStore.Clock) (io : List (Option Fault))
  | putSnapshotWithTransport (snapshot : Snapshot) (enqueue validate : Bool)
      (clock : LmdbStore.Clock) (io : List (Option Fault))
  | putSnapshotAndDeltaWithTransport (snapshot : Snapshot) (delta : DeltaSnapshot)
      (base : Option Snapshot) (enqueue validate : Bool) (clock : LmdbStore.Clock)
      (io : List (Option Fault))
  | registerTransportConsumer (consumerId : Str) (io : List (Option Fault))
  | fetchTransportBatch (consumerId : Str) (maxItems : Nat) (io : List (Option Fault))
  | message (session : CrudWebsocketSession) (options : CrudServerOptions) (io : MessageIo)
      (payload : Json)
  | compactTransport (io : List (Option Fault))
  | openStore (options : LmdbStore.LmdbStoreOptions) (directoryError : Option Text)
      (io : List (Option Fault))
  | close

namespace StoreOp

def run (store : LmdbStore) : StoreOp → LmdbStore
  | enqueueTransportRecord type routingKey payload createdAt io =>
      (store.enqueueTransportRecord type routingKey payload createdAt io).2
  | enqueueSnapshot snapshot validate clock io =>
      (store.enqueueSnapshot snapshot validate clock io).2
  | enqueueDelta delta base target validate clock io =>
      (store.enqueueDelta delta base target validate clock io).2
  | putSnapshotWithTransport snapshot enqueue validate clock io =>
      (store.putSnapshotWithTransport snapshot enqueue validate clock io).2
  | putSnapshotAndDeltaWithTransport snapshot delta base enqueue validate clock io =>
      (store.putSnapshotAndDeltaWithTransport snapshot delta base enqueue validate clock io).2
  | registerTransportConsumer consumerId io => (store.registerTransportConsumer consumerId io).2
  | fetchTransportBatch _ _ _ => store
  | message session options io payload =>
      ((CrudWebsocketSession.dispatch options io payload).run.run
        { session := session, store := store }).2.store
  | compactTransport io => (store.compactTransportUpToMinAcked io).2
  | openStore options directoryError io => (store.openStore options directoryError io).2
  | close => store.close

/-- How many records the step may enqueue, by what it is asked to do. -/
def demand : StoreOp → Nat
  | enqueueTransportRecord .. | enqueueSnapshot .. | enqueueDelta .. => 1
  | putSnapshotWithTransport _ enqueue .. => if enqueue then 1 else 0
  | putSnapshotAndDeltaWithTransport _ _ _ enqueue .. => if enqueue then 2 else 0
  | message session _ _ payload => if session.helloAccepted && mutates payload then 2 else 0
  | _ => 0

/-- The payload of a record that is enqueued as it is given. -/
def bare : StoreOp → Option Str
  | enqueueTransportRecord _ _ payload _ _ => some payload
  | _ => none

/-- The ack the step asks to store. -/
def ackOf : StoreOp → UInt64
  | message session _ _ payload => if session.helloAccepted then ackIn payload else 0
  | _ => 0

end StoreOp

def runOps (store : LmdbStore) (ops : List StoreOp) : LmdbStore := ops.foldl StoreOp.run store

theorem runOps_append (store : LmdbStore) (pre post : List StoreOp) :
    runOps store (pre ++ post) = runOps (runOps store pre) post :=
  List.foldl_append

/-! ## Each step as a run of outbox steps -/

/-- The guard lets the step enqueue what it may. -/
def StoreOp.Room (guard : Guard) (op : StoreOp) (store : LmdbStore) : Prop :=
  (op.demand ≠ 0 → ∀ env, nextSequenceOf env = nextSequenceOf store.env → guard.enqueue env) ∧
    (op.demand = 2 → HasRoom guard store.env) ∧
    (∀ payload, op.bare = some payload → guard.payload payload) ∧ ∀ c, guard.consumer c

theorem StoreOp.outboxRun {guard : Guard} {op : StoreOp} {store : LmdbStore}
    (hack : 0 < op.ackOf → guard.ack store.env op.ackOf) (hroom : op.Room guard store) :
    OutboxRun guard store.env (op.run store).env := by
  obtain ⟨hone, htwo, hbare, hconsumer⟩ := hroom
  cases op with
  | enqueueTransportRecord type routingKey payload createdAt io =>
      exact LmdbStore.enqueueTransportRecord_run _ _ _ _ _ (hone (by simp [demand]) _ rfl)
        (hbare payload rfl)
  | enqueueSnapshot snapshot validate clock io =>
      exact LmdbStore.enqueueSnapshot_run _ _ _ _ (hone (by simp [demand]) _ rfl)
  | enqueueDelta delta base target validate clock io =>
      exact LmdbStore.enqueueDelta_run _ _ _ _ _ _ (hone (by simp [demand]) _ rfl)
  | putSnapshotWithTransport snapshot enqueue validate clock io =>
      refine LmdbStore.putSnapshotWithTransport_run _ _ _ _ _ fun henqueue env heq => ?_
      exact hone (by simp [demand, henqueue]) env heq
  | putSnapshotAndDeltaWithTransport snapshot delta base enqueue validate clock io =>
      refine LmdbStore.putSnapshotAndDelta_run _ _ _ _ _ _ _ fun henqueue env heq => ?_
      exact htwo (by simp [demand, henqueue]) env heq
  | registerTransportConsumer consumerId io =>
      exact LmdbStore.registerTransportConsumer_run _ _ (hconsumer _)
  | fetchTransportBatch consumerId maxItems io => exact .refl
  | message session options io payload =>
      show Leaves (CrudWebsocketSession.dispatch options io payload) { session, store }
        fun _ store' => OutboxRun guard store.env store'.env
      refine dispatch_run (fun haccepted hpos => ?_) (fun haccepted hmutates => ?_) hconsumer
      · replace haccepted : session.helloAccepted = true := haccepted
        have heq : ackOf (.message session options io payload) = ackIn payload :=
          if_pos haccepted
        exact heq ▸ hack (heq ▸ hpos)
      · replace haccepted : session.helloAccepted = true := haccepted
        exact htwo (if_pos (by rw [haccepted, hmutates]; rfl))
  | compactTransport io => exact LmdbStore.compactTransport_run _
  | openStore options directoryError io => exact LmdbStore.openStore_run _ _ _
  | close => exact .refl

/-! ### A consumer that acks -/

def bridgeHello : HelloMessage := { hostId := str "h", clientInstanceId := str "hugin-gateway-1" }

def newRecord : StoreOp := .enqueueTransportRecord .snapshot (str "h") [1] 0 []

/-- A consumer says hello, a record is enqueued, and the consumer acks. -/
def ackingRun (sequence : UInt64) : List StoreOp :=
  [.openStore { directory := str "d" } none [],
    .message {} {} {} bridgeHello.toJson,
    newRecord,
    .message (CrudWebsocketSession.sessionOf bridgeHello) {} {}
      ({ requestId := str "r", ackSequence := sequence } : IngestAckMessage).toJson]

end ServerStorage.Muninn
