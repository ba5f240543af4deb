/-
# `ServerStorage.Muninn.Records` — what a batch is made of

The counter never gives out zero, and what is enqueued is a snapshot or a delta in bytes,
or else bytes a caller hands over as they are.  So the records of a batch have a sequence
and a payload, over every run whose callers hand over no empty bytes.
-/
import ServerStorage.Muninn.Allocation
import ServerStorage.Muninn.CodecSpec
import ServerStorage.Shared.CrudSpec

namespace ServerStorage.Muninn

open Lib Lmdb Dbi Crud Relation LmdbStore

/-! ## The invariant -/

theorem Serialized.ne_nil {payload : Str} (h : Serialized payload) : payload ≠ [] := by
  rintro rfl
  rcases h with ⟨snapshot, h⟩ | ⟨delta, h⟩
  · have hread := Serialization.deserializeSnapshotBinary_serialize (serializeSnapshot_ok h)
    cases hread
  · have hread := Serialization.deserializeDeltaBinary_serialize (serializeDelta_ok h)
    cases hread

/-- No empty payload is let in. -/
def loadedGuard : Guard where
  ack _ _ := True
  enqueue _ := True
  payload bytes := bytes ≠ []
  serialized _ h := h.ne_nil

/-- Every frame of the outbox is the frame of a record with a payload. -/
def Loaded (env : Env Dbi) : Prop :=
  ∀ e ∈ (env.db transportDbi).entries, ∃ type routingKey payload createdAt,
    e.2 = serializeFrame type routingKey payload createdAt ∧ e.2.length ≤ maxDataSize ∧
      payload ≠ []

theorem loaded_empty (mapSize : UInt64) : Loaded { db := fun _ => {}, mapSize := mapSize } :=
  fun _ h => absurd h (by simp)

theorem Loaded.step {env env' : Env Dbi} (h : Loaded env)
    (hstep : OutboxStep loadedGuard env env') : Loaded env' := by
  cases hstep with
  | ack _ _ => rw [Loaded, outbox_acked]; exact h
  | register _ _ => rw [Loaded, outbox_acked]; exact h
  | @enqueue type routingKey payload createdAt hsize _ hpayload =>
      intro e he
      rw [outbox_enqueued, Db.mem_put] at he
      rcases he with rfl | ⟨he, -⟩
      · exact ⟨type, routingKey, payload, createdAt, rfl, hsize, hpayload⟩
      · exact h e he
  | compact _ =>
      intro e he
      rw [outbox_compacted, Db.mem_filter] at he
      exact h e he.1
  | setCounter _ => rw [Loaded, outbox_counted]; exact h
  | other hsame => rw [Loaded, hsame.2.1]; exact h

theorem Loaded.run {env env' : Env Dbi} (h : Loaded env)
    (hrun : OutboxRun loadedGuard env env') : Loaded env' := by
  induction hrun with
  | refl => exact h
  | tail _ hstep ih => exact ih.step hstep

/-! ## A batch -/

theorem sequence_ne_zero {store : LmdbStore} {consumerId : Str} {maxItems : Nat}
    {io : List (Option Fault)} {records : List TransportRecord} {record : TransportRecord}
    (hnumbered : Numbered store.env)
    (hfetch : store.fetchTransportBatchForConsumer consumerId maxItems io = .ok (some records))
    (hmem : record ∈ records) : record.sequence ≠ 0 := by
  obtain ⟨e, he, -, hparse⟩ := (fetchTransportBatch_ok hfetch).source hmem
  obtain ⟨-, hpos, -⟩ := hnumbered.keys e (pending_subset (List.mem_of_mem_take he))
  rw [parseFrame_sequence hparse]
  exact hpos.ne'

theorem payload_ne_nil {store : LmdbStore} {consumerId : Str} {maxItems : Nat}
    {io : List (Option Fault)} {records : List TransportRecord} {record : TransportRecord}
    (hloaded : Loaded store.env)
    (hfetch : store.fetchTransportBatchForConsumer consumerId maxItems io = .ok (some records))
    (hmem : record ∈ records) : record.payload ≠ [] := by
  obtain ⟨e, he, -, hparse⟩ := (fetchTransportBatch_ok hfetch).source hmem
  obtain ⟨type, routingKey, payload, createdAt, heq, hsize, hpayload⟩ :=
    hloaded e (pending_subset (List.mem_of_mem_take he))
  rw [heq] at hparse hsize
  rw [parseFrame_serializeFrame hsize] at hparse
  obtain rfl := Except.ok.inj hparse
  exact hpayload

/-- What every record of a batch has. -/
structure Servable (env : Env Dbi) : Prop where
  numbered : Numbered env
  loaded : Loaded env

theorem Servable.messages {store : LmdbStore} (h : Servable store.env) {consumerId : Str}
    {maxItems : Nat} {io : List (Option Fault)} {messages : List TransportRecordMessage}
    (hbatch : CrudCommandProcessor.appendTransportRecords store consumerId maxItems io =
      .ok (some messages)) : ∀ m ∈ messages, m.sequence ≠ 0 ∧ m.payloadB64 ≠ [] := by
  obtain ⟨records, hfetch, rfl⟩ := CrudCommandProcessor.appendTransportRecords_ok hbatch
  intro m hm
  obtain ⟨record, hrecord, rfl⟩ := List.mem_map.mp hm
  exact ⟨sequence_ne_zero h.numbered hfetch hrecord,
    fun hnil => payload_ne_nil h.loaded hfetch hrecord (base64Encode_eq_nil.mp hnil)⟩

/-! ## Runs -/

theorem StoreOp.loaded {op : StoreOp} {store : LmdbStore} (h : Loaded store.env)
    (hbare : op.bare ≠ some []) : Loaded (op.run store).env := by
  refine h.run (StoreOp.outboxRun (fun _ => trivial)
    ⟨fun _ _ _ => trivial, fun _ _ _ => trivial, fun payload heq => ?_, fun _ => trivial⟩)
  rintro rfl
  exact hbare heq

theorem runOps_loaded : ∀ {ops : List StoreOp} {store : LmdbStore}, Loaded store.env →
    (∀ op ∈ ops, op.bare ≠ some []) → Loaded (runOps store ops).env
  | [], _, h, _ => h
  | _ :: _, _, h, hbare => by
      obtain ⟨hop, hrest⟩ := List.forall_mem_cons.mp hbare
      have hrun := runOps_loaded (StoreOp.loaded h hop) hrest
      exact hrun

theorem servable_runOps {ops : List StoreOp} (hroom : demands ops < 2 ^ 64 - 1)
    (hbare : ∀ op ∈ ops, op.bare ≠ some []) : Servable (runOps {} ops).env := by
  have hone : (nextSequenceOf ({} : LmdbStore).env).toNat = 1 := rfl
  exact ⟨(numbered_empty 0).grows (runOps_grows ops {} (by omega)),
    runOps_loaded (loaded_empty 0) hbare⟩

end ServerStorage.Muninn
