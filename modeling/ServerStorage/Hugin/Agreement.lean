/-
# `ServerStorage.Hugin.Agreement` — what Muninn enqueues is what Hugin decodes

A snapshot or delta goes through the payload codec, the frame of the outbox, base64 and
the JSON of a reply, and comes out of `validate_and_decode` as it went in.  Each stage is
undone by the next one's reader; what is left to show of the consumer is that none of its
checks is stricter than what the producer promised.
-/
import ServerStorage.Hugin.MessageValidator
import ServerStorage.Muninn.Records
import ServerStorage.Muninn.Processor
import ServerStorage.Shared.CrudSpec

namespace ServerStorage.Hugin

open Lib Lmdb Crud ServerStorage.Muninn Dbi

/-! ## What is sent -/

/-- A value of which Muninn enqueues a record. -/
inductive Captured where
  | snapshot (snapshot : Snapshot)
  | delta (delta : DeltaSnapshot)

namespace Captured

def type : Captured → TransportRecordType
  | snapshot _ => .snapshot
  | delta _ => .delta

def routingKey : Captured → Str
  | snapshot s => s.hostIdentifier
  | delta d => LmdbStore.deltaRoute d

def serialized : Captured → Except StoreStatus Str
  | snapshot s => LmdbStore.serializeSnapshot s
  | delta d => LmdbStore.serializeDelta d

/-- It passes Muninn's validation, a delta with whatever snapshots are at hand, and its
host identifier is UTF-8. -/
def Sound : Captured → Prop
  | snapshot s => snapshotErrors s = false ∧ Json.validUtf8 s.hostIdentifier = true
  | delta d => ∃ base target, (validateDelta d base target).hasErrors = false

/-- It passes Muninn's validation. -/
def Valid : Captured → Prop
  | snapshot s => snapshotErrors s = false
  | delta d => ∃ base target, (validateDelta d base target).hasErrors = false

theorem Sound.valid : ∀ {item : Captured}, item.Sound → item.Valid
  | snapshot _, h => h.1
  | delta _, h => h

/-- What Hugin makes of a frame that carries it. -/
def validated (frame : MuninnFrame) : Captured → ValidatedRecord
  | snapshot s => { frame := frame, snapshot := some s }
  | delta d => { frame := frame, delta := some d }

end Captured

/-- The step succeeds, and enqueues a record of the item under the sequence. -/
inductive Enqueues (store : LmdbStore) : StoreOp → Captured → UInt64 → Prop
  | enqueueSnapshot {snapshot : Snapshot} {validate : Bool} {clock : LmdbStore.Clock}
      {io : List (Option Fault)} :
      (store.enqueueSnapshot snapshot validate clock io).1.ok = true →
      Enqueues store (.enqueueSnapshot snapshot validate clock io) (.snapshot snapshot)
        (nextSequenceOf store.env)
  | enqueueDelta {delta : DeltaSnapshot} {base target : Option Snapshot} {validate : Bool}
      {clock : LmdbStore.Clock} {io : List (Option Fault)} :
      (store.enqueueDelta delta base target validate clock io).1.ok = true →
      Enqueues store (.enqueueDelta delta base target validate clock io) (.delta delta)
        (nextSequenceOf store.env)
  | putSnapshot {snapshot : Snapshot} {validate : Bool} {clock : LmdbStore.Clock}
      {io : List (Option Fault)} :
      (store.putSnapshotWithTransport snapshot true validate clock io).1.ok = true →
      Enqueues store (.putSnapshotWithTransport snapshot true validate clock io)
        (.snapshot snapshot) (nextSequenceOf store.env)
  | putTarget {snapshot : Snapshot} {delta : DeltaSnapshot} {base : Option Snapshot}
      {validate : Bool} {clock : LmdbStore.Clock} {io : List (Option Fault)} :
      (store.putSnapshotAndDeltaWithTransport snapshot delta base true validate clock io).1.ok =
        true →
      Enqueues store (.putSnapshotAndDeltaWithTransport snapshot delta base true validate clock io)
        (.snapshot snapshot) (nextSequenceOf store.env)
  | putDelta {snapshot : Snapshot} {delta : DeltaSnapshot} {base : Option Snapshot}
      {validate : Bool} {clock : LmdbStore.Clock} {io : List (Option Fault)} :
      (store.putSnapshotAndDeltaWithTransport snapshot delta base true validate clock io).1.ok =
        true →
      Enqueues store (.putSnapshotAndDeltaWithTransport snapshot delta base true validate clock io)
        (.delta delta) (nextSequenceOf store.env + 1)

/-- The record of the item, as it stands in the outbox. -/
structure Framed (env : Env Dbi) (item : Captured) (sequence : UInt64) (payload : Str)
    (createdAt : UInt64) : Prop where
  encoded : item.serialized = .ok payload
  frame : outboxFrame env sequence =
    some (serializeFrame item.type item.routingKey payload createdAt)
  size : (serializeFrame item.type item.routingKey payload createdAt).length ≤ maxDataSize

/-! ## Into the outbox -/

theorem nextSequenceOf_withCapture (env : Env Dbi) (snapshot : Snapshot) (delta : DeltaSnapshot)
    (payload payload' : Str) :
    nextSequenceOf (LmdbStore.withCapture env snapshot delta payload payload') =
      nextSequenceOf env :=
  ((sameTransport_withSnapshot ..).trans (sameTransport_withDelta ..)).nextSequenceOf

theorem self_ne_succ (n : UInt64) : n ≠ n + 1 := by
  intro h
  have := congrArg (· - n) h
  simp at this

/-- What a step that enqueues leaves in the outbox. -/
theorem Enqueues.framed {store : LmdbStore} {op : StoreOp} {item : Captured} {sequence : UInt64}
    (h : Enqueues store op item sequence) :
    ∃ payload createdAt, Framed (op.run store).env item sequence payload createdAt := by
  cases h with
  | @enqueueSnapshot snapshot validate clock io hok =>
      obtain ⟨payload, hpayload, henv, -, hsize⟩ :=
        LmdbStore.writes_ok (LmdbStore.enqueueSnapshot_writes store snapshot validate clock io) hok
      refine ⟨payload, clock.firstRecord, hpayload, ?_, hsize⟩
      rw [StoreOp.run, henv, outboxFrame_enqueued, if_pos rfl]
      rfl
  | @enqueueDelta delta base target validate clock io hok =>
      obtain ⟨payload, hpayload, henv, -, hsize⟩ :=
        LmdbStore.writes_ok (LmdbStore.enqueueDelta_writes store delta base target validate clock io) hok
      refine ⟨payload, clock.firstRecord, hpayload, ?_, hsize⟩
      rw [StoreOp.run, henv, outboxFrame_enqueued, if_pos rfl]
      rfl
  | @putSnapshot snapshot validate clock io hok =>
      obtain ⟨payload, hpayload, henv, hsize⟩ :=
        LmdbStore.writes_ok (LmdbStore.putSnapshotWithTransport_writes store snapshot true validate clock io)
          hok
      refine ⟨payload, clock.firstRecord, hpayload, ?_, hsize rfl⟩
      rw [StoreOp.run, henv, enqueuedIf, if_pos rfl, outboxFrame_enqueued, if_pos]
      · rfl
      · exact (sameTransport_withSnapshot ..).nextSequenceOf.symm
  | @putTarget snapshot delta base validate clock io hok =>
      obtain ⟨payload, payload', hpayload, hpayload', henv, hsize⟩ := LmdbStore.writes_ok
        (LmdbStore.putSnapshotAndDelta_writes store snapshot delta base true validate clock io) hok
      refine ⟨payload, clock.firstRecord, hpayload, ?_, (hsize rfl).1⟩
      have hcapture := nextSequenceOf_withCapture store.env snapshot delta payload payload'
      rw [StoreOp.run, henv, enqueuedIf, if_pos rfl, enqueuedIf, if_pos rfl, outboxFrame_enqueued,
        nextSequenceOf_enqueued, hcapture, if_neg (self_ne_succ _), outboxFrame_enqueued,
        if_pos hcapture.symm]
      rfl
  | @putDelta snapshot delta base validate clock io hok =>
      obtain ⟨payload, payload', hpayload, hpayload', henv, hsize⟩ := LmdbStore.writes_ok
        (LmdbStore.putSnapshotAndDelta_writes store snapshot delta base true validate clock io) hok
      refine ⟨payload', clock.secondRecord, hpayload', ?_, (hsize rfl).2⟩
      have hcapture := nextSequenceOf_withCapture store.env snapshot delta payload payload'
      rw [StoreOp.run, henv, enqueuedIf, if_pos rfl, enqueuedIf, if_pos rfl, outboxFrame_enqueued,
        nextSequenceOf_enqueued, hcapture, if_pos rfl]
      rfl

/-! ## Out of the outbox -/

theorem Framed.numbered {env : Env Dbi} {item : Captured} {sequence createdAt : UInt64}
    {payload : Str} (h : Framed env item sequence payload createdAt) (hnumbered : Numbered env) :
    0 < sequence ∧ sequence < nextSequenceOf env := by
  have hkeys := hnumbered.keys _ (Db.get_eq_some.mp h.frame)
  rw [decodeU64Be_encodeU64Be] at hkeys
  exact hkeys.2

/-- However the store went on, a record fetched under the sequence is the item's. -/
theorem Framed.fetched {env : Env Dbi} {item : Captured} {sequence createdAt : UInt64}
    {payload : Str} {bound : Nat} {store : LmdbStore} {consumerId : Str} {maxItems : Nat}
    {io : List (Option Fault)} {records : List TransportRecord} {record : TransportRecord}
    (h : Framed env item sequence payload createdAt) (hnumbered : Numbered env)
    (hgrows : Grows bound env store.env)
    (hfetch : store.fetchTransportBatchForConsumer consumerId maxItems io = .ok (some records))
    (hmem : record ∈ records) (hsequence : record.sequence = sequence) :
    record = { sequence := sequence, createdAt := createdAt, type := item.type.value
               routingKey := item.routingKey, payload := payload } := by
  obtain ⟨e, he, hlength, hparse⟩ := (LmdbStore.fetchTransportBatch_ok hfetch).source hmem
  have hkey : decodeU64Be e.1 = sequence := (parseFrame_sequence hparse).symm.trans hsequence
  have hlt := (h.numbered hnumbered).2
  have hold : e ∈ (env.db transportDbi).entries := by
    refine (hgrows.records e (LmdbStore.pending_subset (List.mem_of_mem_take he))).resolve_right ?_
    rintro ⟨-, hge, -⟩
    exact absurd (hkey ▸ hge) (not_le.mpr hlt)
  have hframe : (env.db transportDbi).get (encodeU64Be sequence) = some e.2 := by
    rw [← hkey, encodeU64Be_decodeU64Be hlength]
    exact Db.get_eq_some.mpr hold
  have heq : e.2 = serializeFrame item.type item.routingKey payload createdAt :=
    Option.some.inj (hframe.symm.trans h.frame)
  rw [hkey, heq, parseFrame_serializeFrame h.size] at hparse
  exact (Except.ok.inj hparse).symm

/-! ## Into Hugin -/

theorem splitArrow_append {text : Str} (htext : ∀ c ∈ text, c ≠ 45) (rest : Str) :
    splitArrow (text ++ 45 :: 62 :: rest) = some (text, rest) := by
  induction text with
  | nil => rfl
  | cons c text ih =>
      obtain ⟨hc, htext⟩ := List.forall_mem_cons.mp htext
      rw [List.cons_append, splitArrow, ih htext]
      · rfl
      · intro tail heq _
        exact hc heq

theorem arrow_bytes : str "->" = [45, 62] := by decide

theorem decimal_ne_arrow {n : Nat} {c : UInt8} (h : c ∈ decimal n) : c ≠ 45 := by
  rintro rfl
  have hrange := range_of_isDigit (isDigit_of_mem_decimal h)
  exact absurd hrange.1 (by decide)

theorem splitArrow_route (delta : DeltaSnapshot) :
    splitArrow (LmdbStore.deltaRoute delta) =
      some (decimal delta.baseSnapshotId.toNat, decimal delta.targetSnapshotId.toNat) := by
  rw [LmdbStore.deltaRoute, arrow_bytes, List.append_assoc]
  exact splitArrow_append (fun _ hc => decimal_ne_arrow hc) _

/-- The route Muninn writes is the one Hugin reads. -/
theorem validateDeltaRoutingKey_route (delta : DeltaSnapshot) :
    validateDeltaRoutingKey (LmdbStore.deltaRoute delta) delta = .success := by
  rw [validateDeltaRoutingKey, splitArrow_route]
  dsimp only
  rw [stoull_decimal_eq, stoull_decimal_eq]
  exact if_neg (by simp)

theorem Captured.routingKey_utf8 {item : Captured} (h : item.Sound) :
    Json.validUtf8 item.routingKey = true := by
  cases item with
  | snapshot s => exact h.2
  | delta d =>
      refine validUtf8_ascii fun c hc => ?_
      have hdigit : ∀ {n : Nat}, c ∈ decimal n → c < 0x80 := fun hmem => by
        have hrange := range_of_isDigit (isDigit_of_mem_decimal hmem)
        exact UInt8.lt_iff_toNat_lt.mpr (lt_of_le_of_lt hrange.2 (by decide))
      rcases List.mem_append.mp hc with hc | hc
      · rcases List.mem_append.mp hc with hc | hc
        · exact hdigit hc
        · rw [arrow_bytes] at hc
          rcases List.mem_cons.mp hc with rfl | hc
          · decide
          · rw [List.mem_singleton.mp hc]
            decide
      · exact hdigit hc

/-- The message of a record of the item is decoded to the item. -/
theorem Captured.decoded {item : Captured} {sequence createdAt : UInt64} {payload : Str}
    (hvalid : item.Valid) (hpayload : item.serialized = .ok payload) :
    ∃ frame, frameOf (CrudCommandProcessor.toMessage
        { sequence := sequence, createdAt := createdAt, type := item.type.value
          routingKey := item.routingKey, payload := payload }) = some frame ∧
      frame.type.value = item.type.value ∧ frame.routingKey = item.routingKey ∧
      validateAndDecode frame [] = .ok (item.validated frame) := by
  cases item with
  | snapshot s =>
      refine ⟨{ type := .snapshot, createdAtUnixSeconds := createdAt
                routingKey := s.hostIdentifier, payload := payload }, ?_, rfl, rfl, ?_⟩
      · show (base64Decode (base64Encode payload)).map _ = _
        rw [base64Decode_encode]
        rfl
      · show validateSnapshotFrame _ _ = _
        rw [validateSnapshotFrame,
          Serialization.deserializeSnapshotBinary_serialize (LmdbStore.serializeSnapshot_ok hpayload)]
        dsimp only
        rw [show snapshotErrors s = false from hvalid, if_neg (by decide), if_neg (by simp),
          if_neg (by simp)]
        rfl
  | delta d =>
      obtain ⟨base, target, hvalid⟩ := hvalid
      refine ⟨{ type := .delta, createdAtUnixSeconds := createdAt
                routingKey := LmdbStore.deltaRoute d, payload := payload }, ?_, rfl, rfl, ?_⟩
      · show (base64Decode (base64Encode payload)).map _ = _
        rw [base64Decode_encode]
        rfl
      · show validateDeltaFrame _ = _
        rw [validateDeltaFrame,
          Serialization.deserializeDeltaBinary_serialize (LmdbStore.serializeDelta_ok hpayload)]
        dsimp only
        rw [hasErrors_validateDelta_alone hvalid, if_neg (by decide),
          validateDeltaRoutingKey_route, if_neg (by decide)]
        rfl

/-! ## The result -/

/-- The store after a step, and how it goes on from there. -/
theorem runOps_split {pre post : List StoreOp} {op : StoreOp}
    (h : demands (pre ++ op :: post) < 2 ^ 64 - 1) :
    Numbered (op.run (runOps {} pre)).env ∧ ∃ bound,
      Grows bound (op.run (runOps {} pre)).env (runOps {} (pre ++ op :: post)).env := by
  have hmiddle : op.run (runOps {} pre) = runOps {} (pre ++ [op]) := by
    rw [runOps_append]
    rfl
  have hend : runOps {} (pre ++ op :: post) = runOps (runOps {} (pre ++ [op])) post := by
    rw [← runOps_append, List.append_assoc, List.singleton_append]
  have hone : (nextSequenceOf ({} : LmdbStore).env).toNat = 1 := rfl
  have hdemands : demands (pre ++ op :: post) = demands (pre ++ [op]) + demands post := by
    rw [demands, demands, demands, ← List.sum_append, ← List.map_append, List.append_assoc,
      List.singleton_append]
  have hfirst := runOps_grows (pre ++ [op]) {} (by omega)
  have hle := hfirst.bounded
  rw [max_eq_right (Nat.le_add_right _ _)] at hle
  rw [hmiddle, hend]
  exact ⟨(numbered_empty 0).grows hfirst, _, runOps_grows _ _ (by omega)⟩

/-- However a store went on after a sound item was enqueued, every reply that brings its
record to Hugin is read there, and the record is accepted as exactly that item.  `wire`
is `parse` after `dump`; the other records of the reply are such that it can be written
and read at all. -/
theorem producer_consumer_agree {pre post : List StoreOp} {op : StoreOp} {item : Captured}
    {sequence : UInt64} (hroom : demands (pre ++ op :: post) < 2 ^ 64 - 1) (hsound : item.Sound)
    (henqueues : Enqueues (runOps {} pre) op item sequence)
    {consumerId : Str} {maxItems : Nat} {io : List (Option Fault)}
    {messages : List TransportRecordMessage}
    (hbatch : CrudCommandProcessor.appendTransportRecords (runOps {} (pre ++ op :: post))
      consumerId maxItems io = .ok (some messages))
    (hbare : ∀ op' ∈ pre ++ op :: post, op'.bare ≠ some [])
    (hothers : ∀ m ∈ messages, m.sequence ≠ sequence → Json.validUtf8 m.routingKey = true)
    {wire : Json → Option Json} (hwire : ∀ msg : CrudResultMessage,
      msg.toJson.dumps = true → wire msg.toJson = some msg.toJson)
    {result : CrudResultMessage} (hrecords : result.records = messages)
    (hversion : result.protocolVersion = kProtocolVersion) (hid : result.requestId ≠ [])
    (hutf8 : Json.validUtf8 result.requestId = true ∧ Json.validUtf8 result.message = true) :
    ∃ json received, wire result.toJson = some json ∧
      parseCrudResult json = .ok (some received) ∧ received.records = messages ∧
      ∀ m ∈ received.records, m.sequence = sequence →
        m.recordType = item.type.value ∧ m.routingKey = item.routingKey ∧
        ∃ frame, frameOf m = some frame ∧ frame.type.value = item.type.value ∧
          frame.routingKey = item.routingKey ∧
          validateAndDecode frame [] = .ok (item.validated frame) := by
  obtain ⟨payload, createdAt, hframed⟩ := henqueues.framed
  obtain ⟨hnumbered, bound, hgrows⟩ := runOps_split hroom
  obtain ⟨records, hfetch, rfl⟩ := CrudCommandProcessor.appendTransportRecords_ok hbatch
  have hitem : ∀ m ∈ records.map CrudCommandProcessor.toMessage, m.sequence = sequence →
      m = CrudCommandProcessor.toMessage
        { sequence := sequence, createdAt := createdAt, type := item.type.value
          routingKey := item.routingKey, payload := payload } := by
    intro m hm hsequence
    obtain ⟨record, hmem, rfl⟩ := List.mem_map.mp hm
    rw [hframed.fetched hnumbered hgrows hfetch hmem hsequence]
  have hreadable : ∀ m ∈ result.records, (m.sequence ≠ 0 ∧ m.payloadB64 ≠ []) ∧ m.Utf8 := by
    intro m hm
    rw [hrecords] at hm
    obtain ⟨record, hmem, hrecord⟩ := List.mem_map.mp hm
    have hzero : m.sequence ≠ 0 :=
      hrecord ▸ sequence_ne_zero (hnumbered.grows hgrows) hfetch hmem
    have hascii : Json.validUtf8 m.payloadB64 = true :=
      hrecord ▸ validUtf8_ascii (base64Encode_ascii record.payload)
    have hpayload : m.payloadB64 ≠ [] := ((servable_runOps hroom hbare).messages hbatch m hm).2
    refine ⟨⟨hzero, hpayload⟩, ?_, hascii⟩
    by_cases hsequence : m.sequence = sequence
    · rw [hitem m hm hsequence]
      exact Captured.routingKey_utf8 hsound
    · exact hothers m hm hsequence
  refine ⟨result.toJson, result, hwire result ?_, ?_, hrecords, ?_⟩
  · exact dumps_crudResult hutf8.1 hutf8.2 fun m hm => (hreadable m hm).2
  · exact parseCrudResult_toJson hversion hid fun m hm => (hreadable m hm).1
  · intro m hm hsequence
    rw [hitem m (hrecords ▸ hm) hsequence]
    exact ⟨rfl, rfl, Captured.decoded hsound.valid hframed.encoded⟩

/-! ### A capture with its delta -/

def sentRoot : FileEntry :=
  { id := 1, normalizedPath := str "/r", name := str "r", type := .directory }

def sentFile : FileEntry :=
  { id := 2, parentId := 1, normalizedPath := str "/r/x", name := str "x" }

def sentBase : Snapshot :=
  { snapshotId := 1, createdAt := 10, hostIdentifier := str "h", rootEntryId := 1
    entries := [sentRoot] }

def sentTarget : Snapshot :=
  { sentBase with snapshotId := 2, createdAt := 20, entries := [sentRoot, sentFile] }

def sentDelta : DeltaSnapshot :=
  { baseSnapshotId := 1, targetSnapshotId := 2, addedEntries := [sentFile] }

def sending : StoreOp :=
  .putSnapshotAndDeltaWithTransport sentTarget sentDelta (some sentBase) true true {} []

def opening : List StoreOp := [.openStore { directory := str "d" } none []]

theorem producer_consumer_agree_delta :
    ∃ json received, parseCrudResult json = .ok (some received) ∧
      received.records.map TransportRecordMessage.sequence = [1, 2] ∧
      ∀ m ∈ received.records, m.sequence = 2 → ∃ frame, frameOf m = some frame ∧
        validateAndDecode frame [] = .ok { frame := frame, delta := some sentDelta } := by
  have hbatch : (CrudCommandProcessor.appendTransportRecords (runOps {} (opening ++ [sending]))
      (str "c") 64 []).toOption.any (fun found => found.any fun messages =>
        (messages.map TransportRecordMessage.sequence == [1, 2]) &&
          messages.all fun m => Json.validUtf8 m.routingKey) = true := by
    decide +kernel
  cases h : CrudCommandProcessor.appendTransportRecords (runOps {} (opening ++ [sending]))
      (str "c") 64 [] with
  | error e =>
      rw [h] at hbatch
      exact absurd hbatch Bool.false_ne_true
  | ok found =>
      rw [h] at hbatch
      obtain ⟨messages, hfound, hbatch⟩ :=
        (Option.any_eq_true _ _).mp (show found.any _ = true from hbatch)
      rw [hfound] at h
      obtain ⟨hsequences, hall⟩ := (Bool.and_eq_true _ _).mp hbatch
      have hsequence : nextSequenceOf (runOps {} opening).env + 1 = 2 := by decide +kernel
      have henqueues : Enqueues (runOps {} opening) sending (.delta sentDelta) 2 :=
        hsequence ▸ .putDelta (by decide +kernel)
      have hsound : (Captured.delta sentDelta).Sound :=
        ⟨some sentBase, some sentTarget, by decide +kernel⟩
      have hid : str "q" ≠ [] := by decide
      have hutf8 : Json.validUtf8 (str "q") = true ∧ Json.validUtf8 (str "ok") = true := by
        decide +kernel
      obtain ⟨json, received, -, hparse, hrecords, hdecoded⟩ := @producer_consumer_agree
        opening [] sending (.delta sentDelta) 2 (by decide +kernel) hsound henqueues
        (str "c") 64 [] messages h (by decide +kernel)
        (fun m hm _ => List.all_eq_true.mp hall m hm)
        (fun json => if json.dumps then some json else none) (fun msg hmsg => if_pos hmsg)
        { requestId := str "q", ok := true, message := str "ok", records := messages }
        rfl rfl hid hutf8
      refine ⟨json, received, hparse, hrecords ▸ beq_iff_eq.mp hsequences, fun m hm htwo => ?_⟩
      obtain ⟨-, -, frame, hframe, -, -, hvalid⟩ := hdecoded m hm htwo
      exact ⟨frame, hframe, hvalid⟩

end ServerStorage.Hugin
