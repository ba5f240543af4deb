/-
# `ServerStorage.Muninn.LmdbStore` — `storage/lmdb_store.cpp`

Five LMDB databases: the sequence counter, snapshots by id, deltas by their two
ids, the transport outbox by sequence, and the stored ack of each consumer.
Keys and values are the bytes the source writes.

A method that writes is one transaction (`writeTxn`): its body either fails, and
nothing is kept, or asks for an abort with success, or for a commit, which may
itself fail.  `io` is the list of faults of the LMDB calls, in the order in
which the method makes them.  A status `NotFound` that the source handles on the
spot is `none` here.  What a status says is made of literals, numbers and LMDB's own texts.
-/
import ServerStorage.Muninn.DeltaEngine
import ServerStorage.Muninn.Validation
import ServerStorage.Muninn.Serialization
import ServerStorage.Lib.Decimal
import ServerStorage.Lib.Lmdb

namespace ServerStorage.Muninn

open Lib Lmdb

/-! ## Statuses -/

inductive StoreErrorCode where
  | ok | invalidArgument | notOpen | ioFailure | lmdbError | notFound | serializationFailure
  | validationFailure | corruptedPayload
  deriving DecidableEq, Repr

structure StoreStatus where
  code : StoreErrorCode := .ok
  lmdbRc : Int := 0
  message : Text := text ""
  deriving DecidableEq, Repr

namespace StoreStatus

def ok (s : StoreStatus) : Bool := s.code == .ok
def success : StoreStatus := {}
def failure (code : StoreErrorCode) (message : Text) (rc : Int := 0) : StoreStatus :=
  { code := code, lmdbRc := rc, message := message }

@[simp] theorem ok_success : success.ok = true := rfl

end StoreStatus

def lmdbError (what : String) (fault : Fault) : StoreStatus :=
  .failure .lmdbError
    (text what ++ text " (rc=" ++ .ofInt fault.rc ++ text ", detail=" ++ fault.detail ++ text ")")
    fault.rc

def notOpenStatus : StoreStatus := .failure .notOpen (text "LMDB store is not open.")

def corrupted (message : String) : StoreStatus := .failure .corruptedPayload (text message)

def serializationToStoreStatus (operation : String) (e : SerializationError) : StoreStatus :=
  .failure .serializationFailure
    (text operation ++ text " failed: " ++ text e.message ++ text " (serialization_code=" ++
      .ofNat e.code.number ++ text ")")

def validateSnapshotForStore (now : UnixTimestamp) (snapshot : Snapshot) :
    Except StoreStatus Unit :=
  let report := validateSnapshotAt now snapshot
  if report.hasErrors then
    .error (.failure .validationFailure
      (text "Snapshot validation failed with " ++ .ofNat report.length ++ text " issues."))
  else .ok ()

def validateDeltaForStore (delta : DeltaSnapshot) (base target : Option Snapshot) :
    Except StoreStatus Unit :=
  let report := validateDelta delta base target
  if report.hasErrors then
    .error (.failure .validationFailure
      (text "Delta validation failed with " ++ .ofNat report.length ++ text " issues."))
  else .ok ()

/-! ## Keys and frames -/

inductive Dbi where
  | metaDbi | snapshotsDbi | deltasDbi | transportDbi | transportConsumersDbi
  deriving DecidableEq

open Dbi

instance : Fintype Dbi where
  elems := {metaDbi, snapshotsDbi, deltasDbi, transportDbi, transportConsumersDbi}
  complete d := by cases d <;> decide

def kKeyNextSequence : Str := str "next_transport_sequence"

def makeDeltaKey (baseSnapshotId targetSnapshotId : SnapshotId) : Str :=
  encodeU64Be baseSnapshotId ++ encodeU64Be targetSnapshotId

inductive TransportRecordType where
  | snapshot | delta
  deriving DecidableEq, Repr

def TransportRecordType.value : TransportRecordType → UInt8
  | snapshot => 1
  | delta => 2

/-- A record of the outbox; its type is the byte found in the frame. -/
structure TransportRecord where
  sequence : UInt64 := 0
  createdAt : UInt64 := 0
  type : UInt8 := 1
  routingKey : Str := []
  payload : Str := []
  deriving DecidableEq, Repr

/-- A size as the frame writes it: 32 bits, big-endian. -/
def encodeSize (size : Nat) : Str := (encodeU64Be size.toUInt32.toUInt64).drop 4

def decodeSize (bytes : Str) : Nat := (decodeU64Be ([0, 0, 0, 0] ++ bytes)).toNat

/-- `[1:type][8:created_at][4:routing_key_size][N:routing_key][4:payload_size][M:payload]` -/
def serializeFrame (type : TransportRecordType) (routingKey payload : Str) (createdAt : UInt64) :
    Str :=
  type.value :: encodeU64Be createdAt ++ encodeSize routingKey.length ++ routingKey ++
    encodeSize payload.length ++ payload

def parseFrame (sequence : UInt64) (value : Str) : Except StoreStatus TransportRecord :=
  if value.length < 1 + 8 + 4 + 4 then .error (corrupted "Transport frame is truncated.")
  else
    let routeSize := decodeSize ((value.drop 9).take 4)
    let afterRoute := 13 + routeSize
    if value.length < afterRoute + 4 then
      .error (corrupted "Transport frame routing key is invalid.")
    else
      let payloadSize := decodeSize ((value.drop afterRoute).take 4)
      if afterRoute + 4 + payloadSize ≠ value.length then
        .error (corrupted "Transport frame payload size is invalid.")
      else
        .ok { sequence := sequence
              createdAt := decodeU64Be ((value.drop 1).take 8)
              type := value.headD 0
              routingKey := (value.drop 13).take routeSize
              payload := (value.drop (afterRoute + 4)).take payloadSize }

/-! ## Transactions -/

structure LmdbStore where
  isOpen : Bool := false
  env : Env Dbi := { db := fun _ => {}, mapSize := 0 }

abbrev StoreM (α : Type) := TxnM Dbi StoreStatus α

/-- An LMDB call that only its fault can make fail. -/
def callAs (what : String) : StoreM Unit := mapError (lmdbError what) call

inductive Finish where
  | commit | abort
  deriving DecidableEq

namespace LmdbStore

/-- One write transaction. -/
def writeTxn {α : Type} (store : LmdbStore) (io : List (Option Fault)) (label : String)
    (body : StoreM (Finish × α)) : StoreStatus × Option α × LmdbStore :=
  let run := (do callAs "mdb_txn_begin"; body : StoreM (Finish × α)).run
    { env := store.env, faults := io }
  match run with
  | .error status => (status, none, store)
  | .ok ((.abort, a), _) => (.success, some a, store)
  | .ok ((.commit, a), t) =>
      match (callAs ("mdb_txn_commit(" ++ label ++ ")")).run t with
      | .error status => (status, none, store)
      | .ok _ => (.success, some a, { store with env := t.env })

/-- One read transaction. -/
def readTxn {α : Type} (store : LmdbStore) (io : List (Option Fault)) (body : StoreM α) :
    Except StoreStatus α :=
  (do callAs "mdb_txn_begin"; body : StoreM α).run' { env := store.env, faults := io }

end LmdbStore

def putBlob (dbi : Dbi) (key value : Str) : StoreM Unit :=
  mapError (lmdbError "mdb_put") (mdbPut dbi key value)

/-- `mdb_get` under the given label: `none` where it finds nothing. -/
def getBlobAs (what : String) (dbi : Dbi) (key : Str) : StoreM (Option Str) :=
  mapError (lmdbError what) (mdbGet dbi key)

def recordNotFound : StoreStatus := .failure .notFound (text "Record not found.")

/-! ## The sequence counter and the consumers -/

def readNextSequence : StoreM (Option UInt64) := do
  match ← getBlobAs "mdb_get(next_sequence)" metaDbi kKeyNextSequence with
  | none => return none
  | some value =>
      failIf (value.length ≠ 8) (corrupted "Invalid next sequence payload size.")
      return some (decodeU64Be value)

def writeNextSequence (nextSequence : UInt64) : StoreM Unit :=
  putBlob metaDbi kKeyNextSequence (encodeU64Be nextSequence)

def reserveNextSequence : StoreM UInt64 := do
  let nextSequence := (← readNextSequence).getD 1
  writeNextSequence (nextSequence + 1)
  return nextSequence

def emptyConsumerStatus : StoreStatus :=
  .failure .invalidArgument (text "Consumer id must not be empty.")

def readConsumerAckSequence (consumerId : Str) : StoreM (Option UInt64) := do
  failIf (consumerId = []) emptyConsumerStatus
  match ← getBlobAs "mdb_get(transport_consumer_ack)" transportConsumersDbi consumerId with
  | none => return none
  | some value =>
      failIf (value.length ≠ 8) (corrupted "Invalid transport consumer ack payload size.")
      return some (decodeU64Be value)

def writeConsumerAckSequence (consumerId : Str) (sequence : UInt64) : StoreM Unit := do
  failIf (consumerId = []) emptyConsumerStatus
  putBlob transportConsumersDbi consumerId (encodeU64Be sequence)

def enqueueTransportRecordInTxn (type : TransportRecordType) (routingKey payload : Str)
    (createdAt : UInt64) : StoreM UInt64 := do
  let sequence ← reserveNextSequence
  putBlob transportDbi (encodeU64Be sequence) (serializeFrame type routingKey payload createdAt)
  return sequence

/-! ## Cursor walks -/

/-- The pairs a cursor of the database walks over. -/
def cursorOpen (what : String) (dbi : Dbi) : StoreM Db := do
  callAs what
  return (← readEnv).db dbi

def cursorDel (what : String) (dbi : Dbi) (key : Str) : StoreM Unit := do
  let _ ← mapError (lmdbError what) (mdbDel dbi key)

/-- One step of a walk that deletes: the key has the given size, and goes when
`drop` picks it. -/
def deleteBody (dbi : Dbi) (size : Nat) (badSize delWhat : String) (drop : Str → Bool)
    (removed : Nat) (key _ : Str) : StoreM (Nat × Bool) := do
  failIf (key.length ≠ size) (corrupted badSize)
  if drop key then
    cursorDel delWhat dbi key
    return (removed + 1, true)
  else return (removed, true)

/-- A walk that deletes, and how many pairs it deleted. -/
def deleteLoop (dbi : Dbi) (size : Nat) (badSize openWhat getWhat delWhat : String)
    (drop : Str → Bool) : StoreM Nat := do
  let db ← cursorOpen openWhat dbi
  cursorLoop (callAs getWhat) (callAs getWhat) (deleteBody dbi size badSize delWhat drop)
    db.entries 0

/-- The two ids of a delta key. -/
def deltaKeyIds (key : Str) : SnapshotId × SnapshotId :=
  (decodeU64Be key, decodeU64Be (key.drop 8))

namespace LmdbStore

/-! ## Opening -/

def initializeDbs : StoreM (Finish × Unit) := do
  callAs "mdb_dbi_open(meta)"
  callAs "mdb_dbi_open(snapshots)"
  callAs "mdb_dbi_open(deltas)"
  callAs "mdb_dbi_open(transport)"
  callAs "mdb_dbi_open(transport_consumers)"
  if (← readNextSequence).isNone then writeNextSequence 1
  return (.commit, ())

/-- `LmdbStoreOptions`; the reader and database limits and the sync flags go to
LMDB alone. -/
structure LmdbStoreOptions where
  directory : Str := []
  mapSizeBytes : UInt64 := 4 * 1024 * 1024 * 1024

/-- The size of the map once the environment is open: LMDB takes its default for
a new environment, the size it has for an old one, and never less than is in use. -/
def mapSizeFor (env : Env Dbi) (requested : UInt64) : UInt64 :=
  let chosen :=
    if requested ≠ 0 then requested else if env.mapSize = 0 then 1048576 else env.mapSize
  max chosen env.bytes.toUInt64

/-- `open`; `directoryError` is the message of a failed `create_directories`. -/
def openStore (store : LmdbStore) (options : LmdbStoreOptions) (directoryError : Option Text)
    (io : List (Option Fault)) : StoreStatus × LmdbStore :=
  if store.isOpen then (.success, store)
  else if options.directory = [] then
    (.failure .invalidArgument (text "LMDB directory must not be empty."), store)
  else
    match directoryError with
    | some message =>
        (.failure .ioFailure (text "Failed to create LMDB directory: " ++ message), store)
    | none =>
        let setup : StoreM Unit := do
          callAs "mdb_env_create"
          callAs "mdb_env_set_mapsize"
          callAs "mdb_env_set_maxdbs"
          callAs "mdb_env_set_maxreaders"
          callAs "mdb_env_open"
        match setup.run { env := store.env, faults := io } with
        | .error status => (status, store)
        | .ok (_, t) =>
            let opened : LmdbStore :=
              { isOpen := true
                env := { store.env with mapSize := mapSizeFor store.env options.mapSizeBytes } }
            let (status, _, initialized) := opened.writeTxn t.faults "open" initializeDbs
            if status.ok then (status, initialized) else (status, store)

def close (store : LmdbStore) : LmdbStore := { store with isOpen := false }

/-! ## Snapshots and deltas -/

/-- The clock readings of one call: for the validator, and for each record enqueued. -/
structure Clock where
  validation : UnixTimestamp := 0
  firstRecord : UInt64 := 0
  secondRecord : UInt64 := 0

def serializeSnapshot (snapshot : Snapshot) : Except StoreStatus Str :=
  (Serialization.serializeSnapshotBinary snapshot).mapError
    (serializationToStoreStatus "serialize_snapshot_binary")

def serializeDelta (delta : DeltaSnapshot) : Except StoreStatus Str :=
  (Serialization.serializeDeltaBinary delta).mapError
    (serializationToStoreStatus "serialize_delta_binary")

def deltaRoute (delta : DeltaSnapshot) : Str :=
  decimal delta.baseSnapshotId.toNat ++ str "->" ++ decimal delta.targetSnapshotId.toNat

/-- A validation that a method makes only when it is asked to. -/
def checkedIf (validateBeforeStore : Bool) (check : Except StoreStatus Unit) :
    Except StoreStatus Unit :=
  if validateBeforeStore then check else .ok ()

/-- A record enqueued only when the caller wants it. -/
def enqueueIf (enqueueTransport : Bool) (type : TransportRecordType) (routingKey payload : Str)
    (createdAt : UInt64) : StoreM Unit :=
  if enqueueTransport then do
    let _ ← enqueueTransportRecordInTxn type routingKey payload createdAt
    return ()
  else return ()

/-- A method that prepares what it stores before it opens its transaction. -/
def prepared {α : Type} (store : LmdbStore) (prepare : Except StoreStatus α)
    (write : α → StoreStatus × LmdbStore) : StoreStatus × LmdbStore :=
  match prepare with
  | .error status => (status, store)
  | .ok a => write a

/-- A method that ends with its one write transaction. -/
def committing (store : LmdbStore) (io : List (Option Fault)) (label : String)
    (body : StoreM (Finish × Unit)) : StoreStatus × LmdbStore :=
  let (status, _, store) := store.writeTxn io label body
  (status, store)

def putSnapshot (store : LmdbStore) (snapshot : Snapshot) (validateBeforeStore : Bool)
    (clock : Clock) (io : List (Option Fault)) : StoreStatus × LmdbStore :=
  store.prepared
    (do
      failIf (store.isOpen = false) notOpenStatus
      checkedIf validateBeforeStore (validateSnapshotForStore clock.validation snapshot)
      serializeSnapshot snapshot)
    fun payload => store.committing io "put_snapshot" do
      putBlob snapshotsDbi (encodeU64Be snapshot.snapshotId) payload
      return (.commit, ())

def putSnapshotWithTransport (store : LmdbStore) (snapshot : Snapshot) (enqueueTransport : Bool)
    (validateBeforeStore : Bool) (clock : Clock) (io : List (Option Fault)) :
    StoreStatus × LmdbStore :=
  store.prepared
    (do
      failIf (store.isOpen = false) notOpenStatus
      checkedIf validateBeforeStore (validateSnapshotForStore clock.validation snapshot)
      serializeSnapshot snapshot)
    fun payload => store.committing io "put_snapshot_with_transport" do
      putBlob snapshotsDbi (encodeU64Be snapshot.snapshotId) payload
      enqueueIf enqueueTransport .snapshot snapshot.hostIdentifier payload clock.firstRecord
      return (.commit, ())

def getSnapshot (store : LmdbStore) (snapshotId : SnapshotId) (validateAfterRead : Bool)
    (now : UnixTimestamp) (io : List (Option Fault)) : Except StoreStatus Snapshot := do
  failIf (store.isOpen = false) notOpenStatus
  let payload ← store.readTxn io do
    let found ← getBlobAs "mdb_get" snapshotsDbi (encodeU64Be snapshotId)
    found.elim (throw recordNotFound) pure
  let snapshot ← (Serialization.deserializeSnapshotBinary payload).mapError
    (serializationToStoreStatus "deserialize_snapshot_binary")
  checkedIf validateAfterRead (validateSnapshotForStore now snapshot)
  return snapshot

def putDelta (store : LmdbStore) (delta : DeltaSnapshot) (base target : Option Snapshot)
    (validateBeforeStore : Bool) (io : List (Option Fault)) : StoreStatus × LmdbStore :=
  store.prepared
    (do
      failIf (store.isOpen = false) notOpenStatus
      checkedIf validateBeforeStore (validateDeltaForStore delta base target)
      serializeDelta delta)
    fun payload => store.committing io "put_delta" do
      putBlob deltasDbi (makeDeltaKey delta.baseSnapshotId delta.targetSnapshotId) payload
      return (.commit, ())

def putSnapshotAndDeltaWithTransport (store : LmdbStore) (snapshot : Snapshot)
    (delta : DeltaSnapshot) (base : Option Snapshot) (enqueueTransport : Bool)
    (validateBeforeStore : Bool) (clock : Clock) (io : List (Option Fault)) :
    StoreStatus × LmdbStore :=
  store.prepared
    (do
      failIf (store.isOpen = false) notOpenStatus
      checkedIf validateBeforeStore do
        validateSnapshotForStore clock.validation snapshot
        validateDeltaForStore delta base (some snapshot)
      let snapshotPayload ← serializeSnapshot snapshot
      let deltaPayload ← serializeDelta delta
      return (snapshotPayload, deltaPayload))
    fun payloads => store.committing io "put_snapshot_and_delta_with_transport" do
      putBlob snapshotsDbi (encodeU64Be snapshot.snapshotId) payloads.1
      putBlob deltasDbi (makeDeltaKey delta.baseSnapshotId delta.targetSnapshotId) payloads.2
      enqueueIf enqueueTransport .snapshot snapshot.hostIdentifier payloads.1 clock.firstRecord
      enqueueIf enqueueTransport .delta (deltaRoute delta) payloads.2 clock.secondRecord
      return (.commit, ())

def getDelta (store : LmdbStore) (baseSnapshotId targetSnapshotId : SnapshotId)
    (validateAfterRead : Bool) (io : List (Option Fault)) : Except StoreStatus DeltaSnapshot := do
  failIf (store.isOpen = false) notOpenStatus
  let payload ← store.readTxn io do
    let found ← getBlobAs "mdb_get" deltasDbi (makeDeltaKey baseSnapshotId targetSnapshotId)
    found.elim (throw recordNotFound) pure
  let delta ← (Serialization.deserializeDeltaBinary payload).mapError
    (serializationToStoreStatus "deserialize_delta_binary")
  checkedIf validateAfterRead (validateDeltaForStore delta none none)
  return delta

/-! ## The outbox -/

def enqueueTransportRecord (store : LmdbStore) (type : TransportRecordType)
    (routingKey payload : Str) (createdAt : UInt64) (io : List (Option Fault)) :
    StoreStatus × LmdbStore :=
  if !store.isOpen then (notOpenStatus, store)
  else
    store.committing io "enqueue_transport_record" do
      let _ ← enqueueTransportRecordInTxn type routingKey payload createdAt
      return (.commit, ())

def enqueueSnapshot (store : LmdbStore) (snapshot : Snapshot) (validateBeforeStore : Bool)
    (clock : Clock) (io : List (Option Fault)) : StoreStatus × LmdbStore :=
  store.prepared
    (do
      checkedIf validateBeforeStore (validateSnapshotForStore clock.validation snapshot)
      serializeSnapshot snapshot)
    fun payload => store.enqueueTransportRecord .snapshot snapshot.hostIdentifier payload
      clock.firstRecord io

def enqueueDelta (store : LmdbStore) (delta : DeltaSnapshot) (base target : Option Snapshot)
    (validateBeforeStore : Bool) (clock : Clock) (io : List (Option Fault)) :
    StoreStatus × LmdbStore :=
  store.prepared
    (do
      checkedIf validateBeforeStore (validateDeltaForStore delta base target)
      serializeDelta delta)
    fun payload => store.enqueueTransportRecord .delta (deltaRoute delta) payload
      clock.firstRecord io

def registerTransportConsumer (store : LmdbStore) (consumerId : Str) (io : List (Option Fault)) :
    StoreStatus × LmdbStore :=
  if !store.isOpen then (notOpenStatus, store)
  else if consumerId = [] then (emptyConsumerStatus, store)
  else
    store.committing io "register_transport_consumer" do
      match ← readConsumerAckSequence consumerId with
      | none =>
          writeConsumerAckSequence consumerId 0
          return (.commit, ())
      | some _ => return (.abort, ())

/-- The records of the outbox from behind the ack on. -/
def pendingRange (outbox : Db) (lastAckedSequence : UInt64) : List (Str × Str) :=
  if lastAckedSequence = 0 then outbox.entries
  else outbox.seek (encodeU64Be (lastAckedSequence + 1))

/-- The walk over them, `records` being what it has so far: it stops once it holds
`maxItems`. -/
def fetchBody (maxItems : Nat) (records : List TransportRecord) (key value : Str) :
    StoreM (List TransportRecord × Bool) := do
  if maxItems ≤ records.length then return (records, false)
  else
    failIf (key.length ≠ 8) (corrupted "Invalid transport key size.")
    match parseFrame (decodeU64Be key) value with
    | .error status => throw status
    | .ok record => return (records ++ [record], true)

/-- The records that a vector takes: each is two words, a byte with its padding, a string and
a vector. -/
def maxRecords : Nat := maxSize 80

/-- The transaction of `fetch_transport_batch_for_consumer`; `none` is the `std::length_error`
of the `reserve` for the records. -/
def fetchTxn (consumerId : Str) (maxItems : Nat) : StoreM (Option (List TransportRecord)) := do
  let acked ← readConsumerAckSequence consumerId
  let db ← cursorOpen "mdb_cursor_open(transport)" transportDbi
  if maxRecords < maxItems then return none
  else
    let records ← cursorLoop (callAs "mdb_cursor_get(fetch_transport_batch)")
      (callAs "mdb_cursor_get(fetch_transport_batch)") (fetchBody maxItems)
      (pendingRange db (acked.getD 0)) []
    return some records

/-- `none` where it throws. -/
def fetchTransportBatchForConsumer (store : LmdbStore) (consumerId : Str) (maxItems : Nat)
    (io : List (Option Fault)) : Except StoreStatus (Option (List TransportRecord)) := do
  failIf (store.isOpen = false) notOpenStatus
  failIf (consumerId = []) emptyConsumerStatus
  if maxItems = 0 then return some []
  else store.readTxn io (fetchTxn consumerId maxItems)

def ackTransportUntilForConsumer (store : LmdbStore) (consumerId : Str)
    (inclusiveSequence : UInt64) (io : List (Option Fault)) : StoreStatus × LmdbStore :=
  if !store.isOpen then (notOpenStatus, store)
  else if consumerId = [] then (emptyConsumerStatus, store)
  else
    store.committing io "ack_transport_until_for_consumer" do
      let stored ← readConsumerAckSequence consumerId
      let currentAck := stored.getD 0
      let updatedAck := max currentAck inclusiveSequence
      if stored.isNone || updatedAck != currentAck then
        writeConsumerAckSequence consumerId updatedAck
        return (.commit, ())
      else return (.abort, ())

/-- The walk over the consumers: the least ack, `none` before the first one. -/
def minAckBody (minAcked : Option UInt64) (_ value : Str) :
    StoreM (Option UInt64 × Bool) := do
  failIf (value.length ≠ 8) (corrupted "Invalid transport consumer ack payload size.")
  let consumerAck := decodeU64Be value
  match minAcked with
  | none => return (some consumerAck, true)
  | some least => return (some (if consumerAck < least then consumerAck else least), true)

def compactBody (minAcked : UInt64) (_ : Unit) (key _ : Str) : StoreM (Unit × Bool) := do
  failIf (key.length ≠ 8) (corrupted "Invalid transport key size.")
  if minAcked < decodeU64Be key then return ((), false)
  else
    cursorDel "mdb_cursor_del(compact_transport_records)" transportDbi key
    return ((), true)

def compactTransportUpToMinAcked (store : LmdbStore) (io : List (Option Fault)) :
    StoreStatus × LmdbStore :=
  if !store.isOpen then (notOpenStatus, store)
  else
    store.committing io "compact_transport_up_to_min_acked" do
      let consumers ← cursorOpen "mdb_cursor_open(compact_transport_consumers)"
        transportConsumersDbi
      let minAcked ← cursorLoop (callAs "mdb_cursor_get(compact_transport_consumers)")
        (callAs "mdb_cursor_get(compact_transport_consumers_next)") minAckBody
        consumers.entries none
      if minAcked.getD 0 = 0 then return (.abort, ())
      else
        let records ← cursorOpen "mdb_cursor_open(compact_transport_records)" transportDbi
        cursorLoop (callAs "mdb_cursor_get(compact_transport_records_next)")
          (callAs "mdb_cursor_get(compact_transport_records_next)")
          (compactBody (minAcked.getD 0)) records.entries ()
        return (.commit, ())

/-! ## Deletion and retention -/

/-- How many snapshots and deltas a call removed. -/
structure CleanupStats where
  snapshotsRemoved : Nat := 0
  deltasRemoved : Nat := 0
  deriving DecidableEq, Repr

/-- A delta key that names the snapshot. -/
def namesSnapshot (snapshotId : SnapshotId) (key : Str) : Bool :=
  (deltaKeyIds key).1 == snapshotId || (deltaKeyIds key).2 == snapshotId

def deleteSnapshot (store : LmdbStore) (snapshotId : SnapshotId) (io : List (Option Fault)) :
    StoreStatus × CleanupStats × LmdbStore :=
  if !store.isOpen then (notOpenStatus, {}, store)
  else if snapshotId = 0 then
    (.failure .invalidArgument (text "Snapshot id must be non-zero."), {}, store)
  else
    let (status, stats, store) := store.writeTxn io "delete_snapshot" do
      let found ← mapError (lmdbError "mdb_del(delete_snapshot:snapshot)")
        (mdbDel snapshotsDbi (encodeU64Be snapshotId))
      failIf (found = false) (StoreStatus.failure .notFound (text "Snapshot not found."))
      let deltasRemoved ← deleteLoop deltasDbi 16 "Invalid delta key size."
        "mdb_cursor_open(delete_snapshot:deltas)" "mdb_cursor_get(delete_snapshot:deltas)"
        "mdb_cursor_del(delete_snapshot:delta)" (namesSnapshot snapshotId)
      return (.commit, ({ snapshotsRemoved := 1, deltasRemoved := deltasRemoved } : CleanupStats))
    (status, stats.getD {}, store)

structure SnapshotRetentionItem where
  snapshotId : SnapshotId
  createdAt : UnixTimestamp
  deriving DecidableEq, Repr

/-- Newest first. -/
def retentionLess (lhs rhs : SnapshotRetentionItem) : Bool :=
  if lhs.createdAt = rhs.createdAt then decide (rhs.snapshotId < lhs.snapshotId)
  else decide (rhs.createdAt < lhs.createdAt)

def retentionBody (items : List SnapshotRetentionItem) (key value : Str) :
    StoreM (List SnapshotRetentionItem × Bool) := do
  failIf (key.length ≠ 8) (corrupted "Invalid snapshot key size.")
  match Serialization.deserializeSnapshotBinary value with
  | .error e =>
      throw (serializationToStoreStatus "deserialize_snapshot_binary(apply_snapshot_retention)" e)
  | .ok snapshot =>
      return (items ++ [{ snapshotId := decodeU64Be key, createdAt := snapshot.createdAt }], true)

/-- The ids of the newest items. -/
def retainedIds (keepLatestSnapshots : Nat) (items : List SnapshotRetentionItem) :
    List SnapshotId :=
  ((sortBy retentionLess items).take keepLatestSnapshots).map SnapshotRetentionItem.snapshotId

/-- A snapshot key whose id is not kept. -/
def dropSnapshot (retained : List SnapshotId) (key : Str) : Bool :=
  !retained.contains (decodeU64Be key)

/-- A delta key one of whose ids is not kept. -/
def dropDelta (retained : List SnapshotId) (key : Str) : Bool :=
  !(retained.contains (deltaKeyIds key).1 && retained.contains (deltaKeyIds key).2)

def applySnapshotRetention (store : LmdbStore) (keepLatestSnapshots : Nat)
    (io : List (Option Fault)) : StoreStatus × CleanupStats × LmdbStore :=
  if !store.isOpen then (notOpenStatus, {}, store)
  else
    let (status, stats, store) := store.writeTxn io "apply_snapshot_retention" do
      let snapshots ← cursorOpen "mdb_cursor_open(apply_snapshot_retention:snapshots)" snapshotsDbi
      let items ← cursorLoop (callAs "mdb_cursor_get(apply_snapshot_retention:snapshots)")
        (callAs "mdb_cursor_get(apply_snapshot_retention:snapshots)")
        retentionBody snapshots.entries []
      if items.length ≤ keepLatestSnapshots then return (.abort, ({} : CleanupStats))
      else
        let retained := retainedIds keepLatestSnapshots items
        let snapshotsRemoved ← deleteLoop snapshotsDbi 8 "Invalid snapshot key size."
          "mdb_cursor_open(apply_snapshot_retention:delete_snapshots)"
          "mdb_cursor_get(apply_snapshot_retention:delete_snapshots)"
          "mdb_cursor_del(apply_snapshot_retention:snapshot)" (dropSnapshot retained)
        let deltasRemoved ← deleteLoop deltasDbi 16 "Invalid delta key size."
          "mdb_cursor_open(apply_snapshot_retention:deltas)"
          "mdb_cursor_get(apply_snapshot_retention:deltas)"
          "mdb_cursor_del(apply_snapshot_retention:delta)" (dropDelta retained)
        return (.commit, { snapshotsRemoved := snapshotsRemoved, deltasRemoved := deltasRemoved })
    (status, stats.getD {}, store)

end LmdbStore

end ServerStorage.Muninn
