/-
# `ServerStorage.Muninn.StoreSpec` — what each method of the store does to it

One lemma per method: it fails and the store is as before, or it succeeds and the
environment is the given one.  The environments a commit leads to have names
(`enqueued`, `acked`, `compacted`, …), with what they hold beside them, so that no
later proof opens a transaction again.
-/
import ServerStorage.Muninn.LmdbStore

namespace ServerStorage.Muninn

open Lib Lmdb Dbi

/-! ## Frames -/

@[simp] theorem encodeSize_length (n : Nat) : (encodeSize n).length = 4 := by
  simp [encodeSize]

theorem decodeSize_encodeSize {n : Nat} (h : n < 2 ^ 32) : decodeSize (encodeSize n) = n := by
  have hw : (n.toUInt32.toUInt64).toNat = n := by simpa using Nat.mod_eq_of_lt h
  have hhigh : [0, 0, 0, 0] ++ encodeSize n = encodeU64Be n.toUInt32.toUInt64 := by
    rw [encodeSize, encodeU64Be_eq, hw]
    simp only [beDigits, List.drop_succ_cons, List.drop_zero, List.cons_append, List.nil_append,
      List.cons.injEq, and_true]
    refine ⟨?_, ?_, ?_, ?_⟩ <;> apply UInt8.toNat_inj.mp <;> simp <;> omega
  rw [decodeSize, hhigh, decodeU64Be_encodeU64Be, hw]

theorem slice_append {a b : Str} (c : Str) {n m : Nat} (ha : a.length = n) (hb : b.length = m) :
    ((a ++ b ++ c).drop n).take m = b := by
  rw [← ha, ← hb, List.append_assoc, List.drop_left, List.take_left]

/-- A frame whose sizes fit their fields reads back as what it was written from. -/
theorem parseFrame_serializeFrame_of_lt {type : TransportRecordType} {routingKey payload : Str}
    {createdAt sequence : UInt64} (hroute : routingKey.length < 2 ^ 32)
    (hpayload : payload.length < 2 ^ 32) :
    parseFrame sequence (serializeFrame type routingKey payload createdAt) =
      .ok { sequence := sequence, createdAt := createdAt, type := type.value
            routingKey := routingKey, payload := payload } := by
  set frame := serializeFrame type routingKey payload createdAt with hframe
  have hlen : frame.length = 17 + routingKey.length + payload.length := by
    simp [hframe, serializeFrame]; omega
  have hcreated : (frame.drop 1).take 8 = encodeU64Be createdAt := by
    simp [hframe, serializeFrame, List.take_append]
  have hrouteSize : (frame.drop 9).take 4 = encodeSize routingKey.length := by
    have := slice_append (a := type.value :: encodeU64Be createdAt)
      (b := encodeSize routingKey.length) (routingKey ++ encodeSize payload.length ++ payload)
      (n := 9) (m := 4) (by simp) (by simp)
    simpa [hframe, serializeFrame] using this
  have hkey : (frame.drop 13).take routingKey.length = routingKey := by
    have := slice_append (a := type.value :: encodeU64Be createdAt ++ encodeSize routingKey.length)
      (b := routingKey) (encodeSize payload.length ++ payload) (n := 13) (by simp) rfl
    simpa [hframe, serializeFrame] using this
  have hsize : (frame.drop (13 + routingKey.length)).take 4 = encodeSize payload.length := by
    have := slice_append
      (a := type.value :: encodeU64Be createdAt ++ encodeSize routingKey.length ++ routingKey)
      (b := encodeSize payload.length) payload (n := 13 + routingKey.length) (m := 4)
      (by simp; omega) (by simp)
    simpa [hframe, serializeFrame] using this
  have hblock : (frame.drop (13 + routingKey.length + 4)).take payload.length = payload := by
    have := slice_append
      (a := type.value :: encodeU64Be createdAt ++ encodeSize routingKey.length ++ routingKey ++
        encodeSize payload.length)
      (b := payload) [] (n := 13 + routingKey.length + 4) (by simp; omega) rfl
    simpa [hframe, serializeFrame] using this
  simp only [parseFrame, hrouteSize, decodeSize_encodeSize hroute, hsize,
    decodeSize_encodeSize hpayload, hlen, hcreated, hkey, hblock, decodeU64Be_encodeU64Be]
  rw [if_neg (by omega), if_neg (by omega), if_neg (by omega)]
  rfl

/-- A frame that LMDB takes as a value reads back as what it was written from. -/
theorem parseFrame_serializeFrame {type : TransportRecordType} {routingKey payload : Str}
    {createdAt sequence : UInt64}
    (h : (serializeFrame type routingKey payload createdAt).length ≤ maxDataSize) :
    parseFrame sequence (serializeFrame type routingKey payload createdAt) =
      .ok { sequence := sequence, createdAt := createdAt, type := type.value
            routingKey := routingKey, payload := payload } := by
  have hlen : (serializeFrame type routingKey payload createdAt).length =
      17 + routingKey.length + payload.length := by
    simp [serializeFrame]; omega
  rw [hlen, maxDataSize] at h
  exact parseFrame_serializeFrame_of_lt (by omega) (by omega)

theorem parseFrame_sequence {sequence : UInt64} {value : Str} {record : TransportRecord}
    (h : parseFrame sequence value = .ok record) : record.sequence = sequence := by
  rw [parseFrame] at h
  split at h
  · cases h
  · dsimp only at h
    split at h
    · cases h
    · split at h
      · cases h
      · obtain rfl := Except.ok.inj h
        rfl

/-! ## What the environment holds -/

def nextSequenceOf (env : Env Dbi) : UInt64 :=
  (((env.db metaDbi).get kKeyNextSequence).map decodeU64Be).getD 1

def storedAck (env : Env Dbi) (consumerId : Str) : Option UInt64 :=
  ((env.db transportConsumersDbi).get consumerId).map decodeU64Be

/-- The frame of the outbox record with the sequence. -/
def outboxFrame (env : Env Dbi) (sequence : UInt64) : Option Str :=
  (env.db transportDbi).get (encodeU64Be sequence)

def snapshotStored (env : Env Dbi) (snapshotId : SnapshotId) : Prop :=
  ((env.db snapshotsDbi).get (encodeU64Be snapshotId)).isSome

def deltaStored (env : Env Dbi) (base target : SnapshotId) : Prop :=
  ((env.db deltasDbi).get (makeDeltaKey base target)).isSome

/-! ## What a commit leads to -/

def acked (env : Env Dbi) (consumerId : Str) (sequence : UInt64) : Env Dbi :=
  env.set transportConsumersDbi
    ((env.db transportConsumersDbi).put consumerId (encodeU64Be sequence))

def counted (env : Env Dbi) (nextSequence : UInt64) : Env Dbi :=
  env.set metaDbi ((env.db metaDbi).put kKeyNextSequence (encodeU64Be nextSequence))

def enqueued (env : Env Dbi) (frame : Str) : Env Dbi :=
  (counted env (nextSequenceOf env + 1)).set transportDbi
    ((env.db transportDbi).put (encodeU64Be (nextSequenceOf env)) frame)

def withSnapshot (env : Env Dbi) (snapshotId : SnapshotId) (payload : Str) : Env Dbi :=
  env.set snapshotsDbi ((env.db snapshotsDbi).put (encodeU64Be snapshotId) payload)

def withDelta (env : Env Dbi) (base target : SnapshotId) (payload : Str) : Env Dbi :=
  env.set deltasDbi ((env.db deltasDbi).put (makeDeltaKey base target) payload)

/-- The record is enqueued, where it is wanted. -/
def enqueuedIf (enqueue : Bool) (env : Env Dbi) (frame : Str) : Env Dbi :=
  if enqueue then enqueued env frame else env

/-- The least ack stored. -/
def minAcked (env : Env Dbi) : Option UInt64 :=
  ((env.db transportConsumersDbi).entries.map fun e => decodeU64Be e.2).min?

/-- The records up to the ack are gone. -/
def compacted (env : Env Dbi) (ack : UInt64) : Env Dbi :=
  env.set transportDbi ((env.db transportDbi).filter fun k => encodeU64Be ack < k)

/-- The pairs of a database whose key `drop` picks are gone. -/
def dropped (env : Env Dbi) (dbi : Dbi) (drop : Str → Bool) : Env Dbi :=
  env.set dbi ((env.db dbi).filter fun k => !drop k)

/-! ## The steps of a transaction -/

abbrev Failed (status : StoreStatus) : Prop := status.ok = false

theorem failed_failure {code : StoreErrorCode} (h : code ≠ .ok) (message : Text) (rc : Int) :
    Failed (.failure code message rc) :=
  beq_eq_false_iff_ne.mpr h

theorem failed_lmdbError (what : String) (fault : Fault) : Failed (lmdbError what fault) :=
  failed_failure (by decide) _ _

theorem failed_corrupted (message : String) : Failed (corrupted message) :=
  failed_failure (by decide) _ _

theorem failed_emptyConsumer : Failed emptyConsumerStatus := failed_failure (by decide) _ _

theorem callAs_ok {what : String} {t t' : Txn Dbi} {u : Unit}
    (h : (callAs what).run t = .ok (u, t')) : t'.env = t.env :=
  call_ok (run_mapError_ok.mp h)

theorem raises_callAs (what : String) : Raises Failed (callAs what) :=
  .mapError (failed_lmdbError what)

theorem raises_putBlob (dbi : Dbi) (key value : Str) : Raises Failed (putBlob dbi key value) :=
  .mapError (failed_lmdbError _)

theorem readNextSequence_ok {t t' : Txn Dbi} {r : Option UInt64}
    (h : readNextSequence.run t = .ok (r, t')) : r.getD 1 = nextSequenceOf t.env ∧
      (r = none ↔ (t.env.db metaDbi).get kKeyNextSequence = none) ∧ t'.env = t.env := by
  obtain ⟨found, t₁, hget, h⟩ := run_bind_ok.mp h
  obtain ⟨rfl, henv⟩ := mdbGet_ok (run_mapError_ok.mp hget)
  rw [nextSequenceOf]
  cases hfound : (t.env.db metaDbi).get kKeyNextSequence with
  | none =>
      rw [hfound] at h
      obtain ⟨rfl, rfl⟩ := run_pure_ok.mp h
      exact ⟨rfl, by simp, henv⟩
  | some value =>
      rw [hfound] at h
      obtain ⟨_, t₂, hfail, h⟩ := run_bind_ok.mp h
      obtain ⟨-, rfl⟩ := run_failIf_ok.mp hfail
      obtain ⟨rfl, rfl⟩ := run_pure_ok.mp h
      exact ⟨rfl, by simp, henv⟩

theorem raises_readNextSequence : Raises Failed readNextSequence := by
  refine .bind (.mapError (failed_lmdbError _)) fun found => ?_
  cases found with
  | none => exact .pure _
  | some value => exact .bind (.failIf (failed_corrupted _)) fun _ => .pure _

theorem readConsumerAckSequence_ok {consumerId : Str} {t t' : Txn Dbi} {r : Option UInt64}
    (h : (readConsumerAckSequence consumerId).run t = .ok (r, t')) :
    r = storedAck t.env consumerId ∧ t'.env = t.env := by
  obtain ⟨_, t₁, hfail, h⟩ := run_bind_ok.mp h
  obtain ⟨-, rfl⟩ := run_failIf_ok.mp hfail
  obtain ⟨found, t₁, hget, h⟩ := run_bind_ok.mp h
  obtain ⟨rfl, henv⟩ := mdbGet_ok (run_mapError_ok.mp hget)
  rw [storedAck]
  cases hfound : (t.env.db transportConsumersDbi).get consumerId with
  | none =>
      rw [hfound] at h
      obtain ⟨rfl, rfl⟩ := run_pure_ok.mp h
      exact ⟨rfl, henv⟩
  | some value =>
      rw [hfound] at h
      obtain ⟨_, t₂, hfail, h⟩ := run_bind_ok.mp h
      obtain ⟨-, rfl⟩ := run_failIf_ok.mp hfail
      obtain ⟨rfl, rfl⟩ := run_pure_ok.mp h
      exact ⟨rfl, henv⟩

theorem raises_readConsumerAckSequence (consumerId : Str) :
    Raises Failed (readConsumerAckSequence consumerId) := by
  refine .bind (.failIf failed_emptyConsumer) fun _ =>
    .bind (.mapError (failed_lmdbError _)) fun found => ?_
  cases found with
  | none => exact .pure _
  | some value => exact .bind (.failIf (failed_corrupted _)) fun _ => .pure _

theorem writeConsumerAckSequence_ok {consumerId : Str} {sequence : UInt64} {t t' : Txn Dbi}
    {u : Unit} (h : (writeConsumerAckSequence consumerId sequence).run t = .ok (u, t')) :
    t'.env = acked t.env consumerId sequence ∧ t'.env.bytes ≤ t.env.mapSize.toNat := by
  obtain ⟨_, t₁, hfail, h⟩ := run_bind_ok.mp h
  obtain ⟨-, rfl⟩ := run_failIf_ok.mp hfail
  obtain ⟨henv, hbytes, -⟩ := mdbPut_ok (run_mapError_ok.mp h)
  exact ⟨henv, hbytes⟩

theorem raises_writeConsumerAckSequence (consumerId : Str) (sequence : UInt64) :
    Raises Failed (writeConsumerAckSequence consumerId sequence) :=
  .bind (.failIf failed_emptyConsumer) fun _ => raises_putBlob _ _ _

theorem enqueueTransportRecordInTxn_ok {type : TransportRecordType} {routingKey payload : Str}
    {createdAt sequence : UInt64} {t t' : Txn Dbi}
    (h : (enqueueTransportRecordInTxn type routingKey payload createdAt).run t =
      .ok (sequence, t')) :
    sequence = nextSequenceOf t.env ∧
      t'.env = enqueued t.env (serializeFrame type routingKey payload createdAt) ∧
      t'.env.bytes ≤ t.env.mapSize.toNat ∧
      (serializeFrame type routingKey payload createdAt).length ≤ maxDataSize := by
  obtain ⟨seq, t₁, hreserve, h⟩ := run_bind_ok.mp h
  obtain ⟨_, t₂, hput, h⟩ := run_bind_ok.mp h
  obtain ⟨rfl, rfl⟩ := run_pure_ok.mp h
  obtain ⟨next, t₃, hread, hreserve⟩ := run_bind_ok.mp hreserve
  obtain ⟨_, t₄, hwrite, hreserve⟩ := run_bind_ok.mp hreserve
  obtain ⟨rfl, rfl⟩ := run_pure_ok.mp hreserve
  obtain ⟨hnext, -, henv₃⟩ := readNextSequence_ok hread
  obtain ⟨henv₄, -⟩ := mdbPut_ok (run_mapError_ok.mp hwrite)
  obtain ⟨henv₂, hbytes, -, -, hsize⟩ := mdbPut_ok (run_mapError_ok.mp hput)
  rw [henv₃, hnext] at henv₄
  refine ⟨hnext, ?_, ?_, hsize⟩
  · rw [henv₂, henv₄, hnext, enqueued, counted, Env.set_db_ne (by decide)]
  · rw [henv₄] at hbytes
    exact hbytes

theorem raises_enqueueTransportRecordInTxn (type : TransportRecordType)
    (routingKey payload : Str) (createdAt : UInt64) :
    Raises Failed (enqueueTransportRecordInTxn type routingKey payload createdAt) := by
  refine .bind ?_ fun sequence => .bind (raises_putBlob _ _ _) fun _ => .pure _
  exact .bind raises_readNextSequence fun _ => .bind (raises_putBlob _ _ _) fun _ => .pure _

/-! ## Write and read transactions -/

namespace LmdbStore

/-- A write transaction fails and leaves the store, or its body runs through and
asks for the abort or the commit that follows. -/
theorem writeTxn_cases {α : Type} {body : StoreM (Finish × α)} (hbody : Raises Failed body)
    (store : LmdbStore) (io : List (Option Fault)) (label : String) :
    (∃ status, Failed status ∧ store.writeTxn io label body = (status, none, store)) ∨
    (∃ a t t', t.env = store.env ∧ body.run t = .ok ((.abort, a), t') ∧
      store.writeTxn io label body = (.success, some a, store)) ∨
    ∃ a t t', t.env = store.env ∧ body.run t = .ok ((.commit, a), t') ∧
      store.writeTxn io label body = (.success, some a, { store with env := t'.env }) := by
  rw [writeTxn]
  have hraises : Raises Failed (do callAs "mdb_txn_begin"; body) :=
    .bind (raises_callAs _) fun _ => hbody
  cases hrun : (do callAs "mdb_txn_begin"; body : StoreM (Finish × α)).run
      { env := store.env, faults := io } with
  | error status => exact .inl ⟨status, hraises _ _ hrun, rfl⟩
  | ok r =>
      obtain ⟨⟨finish, a⟩, t'⟩ := r
      obtain ⟨_, t, hbegin, hrun⟩ := run_bind_ok.mp hrun
      have henv : t.env = store.env := callAs_ok hbegin
      cases finish with
      | abort => exact .inr (.inl ⟨a, t, t', henv, hrun, rfl⟩)
      | commit =>
          cases hcommit : (callAs ("mdb_txn_commit(" ++ label ++ ")")).run t' with
          | error status =>
              refine .inl ⟨status, raises_callAs _ _ _ hcommit, ?_⟩
              simp only [hcommit]
          | ok r =>
              refine .inr (.inr ⟨a, t, t', henv, hrun, ?_⟩)
              simp only [hcommit]

theorem readTxn_ok {α : Type} {body : StoreM α} {store : LmdbStore} {io : List (Option Fault)}
    {a : α} (h : store.readTxn io body = .ok a) :
    ∃ t t', t.env = store.env ∧ body.run t = .ok (a, t') := by
  rw [readTxn, StateT.run'] at h
  cases hrun : (do callAs "mdb_txn_begin"; body : StoreM α) { env := store.env, faults := io } with
  | error status =>
      rw [hrun] at h
      exact absurd h (by simp [Functor.map, Except.map])
  | ok r =>
      obtain ⟨a', t'⟩ := r
      rw [hrun] at h
      obtain rfl : a' = a := by simpa [Functor.map, Except.map] using h
      obtain ⟨_, t, hbegin, hrun⟩ := run_bind_ok.mp hrun
      exact ⟨t, t', callAs_ok hbegin, hrun⟩

theorem refuses_readTxn {α : Type} {body : StoreM α} (hbody : Raises Failed body)
    (store : LmdbStore) (io : List (Option Fault)) : Refuses Failed (store.readTxn io body) := by
  intro status h
  rw [readTxn, StateT.run'] at h
  have hraises : Raises Failed (do callAs "mdb_txn_begin"; body) :=
    .bind (raises_callAs _) fun _ => hbody
  cases hrun : (do callAs "mdb_txn_begin"; body : StoreM α) { env := store.env, faults := io } with
  | ok r =>
      rw [hrun] at h
      exact absurd h (by simp [Functor.map, Except.map])
  | error e =>
      rw [hrun] at h
      obtain rfl : e = status := by simpa [Functor.map, Except.map] using h
      exact hraises _ _ hrun

/-! ## The outbox -/

/-- What a method that writes may do: fail and change nothing, or succeed and reach
an environment `next` allows. -/
def Writes (store : LmdbStore) (result : StoreStatus × LmdbStore) (next : Env Dbi → Prop) :
    Prop :=
  (Failed result.1 ∧ result.2 = store) ∨
    (result.1 = .success ∧ store.isOpen = true ∧ ∃ env, next env ∧
      result.2 = { store with env := env })

/-- A method whose last step is a write transaction. -/
theorem writes_of_txn {α : Type} {body : StoreM (Finish × α)} {store : LmdbStore}
    {io : List (Option Fault)} {label : String} {next : Env Dbi → Prop}
    (hopen : store.isOpen = true) (hraises : Raises Failed body)
    (hcommit : ∀ a t t', t.env = store.env → body.run t = .ok ((.commit, a), t') → next t'.env)
    (habort : ∀ a t t', t.env = store.env → body.run t = .ok ((.abort, a), t') →
      next store.env) :
    store.Writes ((store.writeTxn io label body).1, (store.writeTxn io label body).2.2) next := by
  rcases writeTxn_cases hraises store io label with
    ⟨status, hfailed, hrun⟩ | ⟨a, t, t', ht, hbody, hrun⟩ | ⟨a, t, t', ht, hbody, hrun⟩
  · rw [hrun]
    exact .inl ⟨hfailed, rfl⟩
  · rw [hrun]
    exact .inr ⟨rfl, hopen, store.env, habort a t t' ht hbody, rfl⟩
  · rw [hrun]
    exact .inr ⟨rfl, hopen, t'.env, hcommit a t t' ht hbody, rfl⟩

/-- A method that does nothing on a store that is not open. -/
theorem writes_notOpen (store : LmdbStore) (next : Env Dbi → Prop) :
    store.Writes (notOpenStatus, store) next :=
  .inl ⟨failed_failure (by decide) _ _, rfl⟩

theorem writes_ok {store : LmdbStore} {result : StoreStatus × LmdbStore} {next : Env Dbi → Prop}
    (h : store.Writes result next) (hok : result.1.ok = true) : next result.2.env := by
  rcases h with ⟨hfailed, -⟩ | ⟨-, -, env, hnext, hresult⟩
  · exact absurd hok (by rw [show result.1.ok = false from hfailed]; decide)
  · rw [hresult]
    exact hnext

theorem run_commit_ok {t t' : Txn Dbi} {a : Unit} {finish : Finish}
    (h : (pure (finish, ()) : StoreM (Finish × Unit)).run t = .ok ((.commit, a), t')) :
    finish = .commit ∧ t = t' :=
  ⟨congrArg Prod.fst (run_pure_ok.mp h).1, (run_pure_ok.mp h).2⟩

theorem writes_prepared {α : Type} {store : LmdbStore} {prepare : Except StoreStatus α}
    {write : α → StoreStatus × LmdbStore} {next : Env Dbi → Prop}
    (hprepare : Refuses Failed prepare)
    (hwrite : ∀ a, prepare = .ok a → store.Writes (write a) next) :
    store.Writes (store.prepared prepare write) next := by
  cases h : prepare with
  | error status => exact .inl ⟨hprepare status h, rfl⟩
  | ok a => exact hwrite a h

theorem enqueueTransportRecord_writes (store : LmdbStore) (type : TransportRecordType)
    (routingKey payload : Str) (createdAt : UInt64) (io : List (Option Fault)) :
    store.Writes (store.enqueueTransportRecord type routingKey payload createdAt io) fun env =>
      env = enqueued store.env (serializeFrame type routingKey payload createdAt) ∧
      env.bytes ≤ store.env.mapSize.toNat ∧
      (serializeFrame type routingKey payload createdAt).length ≤ maxDataSize := by
  rw [enqueueTransportRecord]
  cases hopen : store.isOpen with
  | false => exact writes_notOpen _ _
  | true =>
      refine writes_of_txn hopen
        (.bind (raises_enqueueTransportRecordInTxn _ _ _ _) fun _ => .pure _) ?_ ?_
      · intro a t t' ht h
        obtain ⟨seq, t₁, henqueue, h⟩ := run_bind_ok.mp h
        obtain ⟨-, rfl⟩ := run_commit_ok h
        exact ht ▸ (enqueueTransportRecordInTxn_ok henqueue).2
      · intro a t t' ht h
        obtain ⟨seq, t₁, henqueue, h⟩ := run_bind_ok.mp h
        exact absurd (run_pure_ok.mp h).1 (by simp)

theorem registerTransportConsumer_writes (store : LmdbStore) (consumerId : Str)
    (io : List (Option Fault)) :
    store.Writes (store.registerTransportConsumer consumerId io) fun env => consumerId ≠ [] ∧
      ((storedAck store.env consumerId ≠ none ∧ env = store.env) ∨
        (storedAck store.env consumerId = none ∧ env = acked store.env consumerId 0)) := by
  rw [registerTransportConsumer]
  cases hopen : store.isOpen with
  | false => exact writes_notOpen _ _
  | true =>
      by_cases hempty : consumerId = []
      · simp only [hempty, if_true]
        exact .inl ⟨failed_emptyConsumer, rfl⟩
      · simp only [hempty, if_false]
        refine writes_of_txn hopen ?_ ?_ ?_
        · refine .bind (raises_readConsumerAckSequence _) fun stored => ?_
          cases stored with
          | none => exact .bind (raises_writeConsumerAckSequence _ _) fun _ => .pure _
          | some _ => exact .pure _
        · intro a t t' ht h
          obtain ⟨stored, t₁, hread, h⟩ := run_bind_ok.mp h
          obtain ⟨rfl, henv⟩ := readConsumerAckSequence_ok hread
          cases hstored : storedAck t.env consumerId with
          | none =>
              rw [hstored] at h
              obtain ⟨_, t₂, hwrite, h⟩ := run_bind_ok.mp h
              obtain ⟨-, rfl⟩ := run_commit_ok h
              have hwritten := (writeConsumerAckSequence_ok hwrite).1
              rw [henv, ht] at hwritten
              exact ⟨hempty, .inr ⟨ht ▸ hstored, hwritten⟩⟩
          | some ack =>
              rw [hstored] at h
              exact absurd (run_pure_ok.mp h).1 (by simp)
        · intro a t t' ht h
          obtain ⟨stored, t₁, hread, h⟩ := run_bind_ok.mp h
          obtain ⟨rfl, henv⟩ := readConsumerAckSequence_ok hread
          cases hstored : storedAck t.env consumerId with
          | none =>
              rw [hstored] at h
              obtain ⟨_, t₂, hwrite, h⟩ := run_bind_ok.mp h
              exact absurd (run_pure_ok.mp h).1 (by simp)
          | some ack => exact ⟨hempty, .inl ⟨ht ▸ (by rw [hstored]; simp), rfl⟩⟩

theorem ackTransportUntil_writes (store : LmdbStore) (consumerId : Str) (sequence : UInt64)
    (io : List (Option Fault)) :
    store.Writes (store.ackTransportUntilForConsumer consumerId sequence io) fun env =>
      consumerId ≠ [] ∧
      ((∃ ack, storedAck store.env consumerId = some ack ∧ sequence ≤ ack ∧ env = store.env) ∨
        ((∀ ack, storedAck store.env consumerId = some ack → ack < sequence) ∧
          env = acked store.env consumerId
            (max ((storedAck store.env consumerId).getD 0) sequence))) := by
  rw [ackTransportUntilForConsumer]
  cases hopen : store.isOpen with
  | false => exact writes_notOpen _ _
  | true =>
      by_cases hempty : consumerId = []
      · simp only [hempty, if_true]
        exact .inl ⟨failed_emptyConsumer, rfl⟩
      · simp only [hempty, if_false]
        refine writes_of_txn hopen ?_ ?_ ?_
        · refine .bind (raises_readConsumerAckSequence _) fun stored => ?_
          split
          · exact .bind (raises_writeConsumerAckSequence _ _) fun _ => .pure _
          · exact .pure _
        · intro a t t' ht h
          obtain ⟨stored, t₁, hread, h⟩ := run_bind_ok.mp h
          obtain ⟨rfl, henv⟩ := readConsumerAckSequence_ok hread
          split at h
          next hmoved =>
            obtain ⟨_, t₂, hwrite, h⟩ := run_bind_ok.mp h
            obtain ⟨-, rfl⟩ := run_commit_ok h
            have hwritten := (writeConsumerAckSequence_ok hwrite).1
            rw [henv, ht] at hwritten
            refine ⟨hempty, .inr ⟨fun ack hstored => ?_, hwritten⟩⟩
            rw [ht] at hmoved
            simpa [hstored] using hmoved
          · exact absurd (run_pure_ok.mp h).1 (by simp)
        · intro a t t' ht h
          obtain ⟨stored, t₁, hread, h⟩ := run_bind_ok.mp h
          obtain ⟨rfl, henv⟩ := readConsumerAckSequence_ok hread
          split at h
          · obtain ⟨_, t₂, hwrite, h⟩ := run_bind_ok.mp h
            exact absurd (run_pure_ok.mp h).1 (by simp)
          next hkept =>
            refine ⟨hempty, .inl ?_⟩
            rw [ht] at hkept
            cases hstored : storedAck store.env consumerId with
            | none => simp [hstored] at hkept
            | some ack =>
                refine ⟨ack, rfl, ?_, rfl⟩
                simpa [hstored] using hkept

/-! ## Snapshots and deltas -/

theorem refuses_notOpen (c : Prop) [Decidable c] :
    Refuses Failed (failIf c notOpenStatus : Except StoreStatus Unit) :=
  .failIf (failed_failure (by decide) _ _)

theorem refuses_checkedIf {validate : Bool} {check : Except StoreStatus Unit}
    (h : Refuses Failed check) : Refuses Failed (checkedIf validate check) := by
  rw [checkedIf]
  split
  · exact h
  · exact .ok ()

theorem refuses_validateSnapshot (now : UnixTimestamp) (snapshot : Snapshot) :
    Refuses Failed (validateSnapshotForStore now snapshot) := by
  rw [validateSnapshotForStore]
  split
  · exact .error (failed_failure (by decide) _ _)
  · exact .ok ()

theorem refuses_validateDelta (delta : DeltaSnapshot) (base target : Option Snapshot) :
    Refuses Failed (validateDeltaForStore delta base target) := by
  rw [validateDeltaForStore]
  split
  · exact .error (failed_failure (by decide) _ _)
  · exact .ok ()

theorem refuses_serializeSnapshot (snapshot : Snapshot) :
    Refuses Failed (serializeSnapshot snapshot) :=
  .mapError fun _ => failed_failure (by decide) _ _

theorem refuses_serializeDelta (delta : DeltaSnapshot) : Refuses Failed (serializeDelta delta) :=
  .mapError fun _ => failed_failure (by decide) _ _

theorem serializeSnapshot_ok {snapshot : Snapshot} {payload : Str}
    (h : serializeSnapshot snapshot = .ok payload) :
    Serialization.serializeSnapshotBinary snapshot = .ok payload := by
  rw [serializeSnapshot] at h
  cases hserialize : Serialization.serializeSnapshotBinary snapshot with
  | error e => simp [hserialize, Except.mapError] at h
  | ok bytes => simpa [hserialize, Except.mapError] using h

theorem serializeDelta_ok {delta : DeltaSnapshot} {payload : Str}
    (h : serializeDelta delta = .ok payload) :
    Serialization.serializeDeltaBinary delta = .ok payload := by
  rw [serializeDelta] at h
  cases hserialize : Serialization.serializeDeltaBinary delta with
  | error e => simp [hserialize, Except.mapError] at h
  | ok bytes => simpa [hserialize, Except.mapError] using h

theorem enqueueIf_ok {enqueue : Bool} {type : TransportRecordType} {routingKey payload : Str}
    {createdAt : UInt64} {t t' : Txn Dbi} {u : Unit}
    (h : (enqueueIf enqueue type routingKey payload createdAt).run t = .ok (u, t')) :
    t'.env = enqueuedIf enqueue t.env (serializeFrame type routingKey payload createdAt) ∧
      (enqueue = true →
        (serializeFrame type routingKey payload createdAt).length ≤ maxDataSize) := by
  cases enqueue with
  | false =>
      obtain ⟨-, rfl⟩ := run_pure_ok.mp h
      exact ⟨rfl, fun h => absurd h (by simp)⟩
  | true =>
      obtain ⟨seq, t₁, henqueue, h⟩ := run_bind_ok.mp h
      obtain ⟨-, rfl⟩ := run_pure_ok.mp h
      obtain ⟨-, henv, -, hsize⟩ := enqueueTransportRecordInTxn_ok henqueue
      exact ⟨henv, fun _ => hsize⟩

theorem raises_enqueueIf (enqueue : Bool) (type : TransportRecordType) (routingKey payload : Str)
    (createdAt : UInt64) : Raises Failed (enqueueIf enqueue type routingKey payload createdAt) := by
  rw [enqueueIf]
  split
  · exact .bind (raises_enqueueTransportRecordInTxn _ _ _ _) fun _ => .pure _
  · exact .pure _

theorem putBlob_ok {dbi : Dbi} {key value : Str} {t t' : Txn Dbi} {u : Unit}
    (h : (putBlob dbi key value).run t = .ok (u, t')) :
    t'.env = t.env.set dbi ((t.env.db dbi).put key value) :=
  (mdbPut_ok (run_mapError_ok.mp h)).1

theorem putSnapshot_writes (store : LmdbStore) (snapshot : Snapshot) (validate : Bool)
    (clock : Clock) (io : List (Option Fault)) :
    store.Writes (store.putSnapshot snapshot validate clock io) fun env =>
      ∃ payload, serializeSnapshot snapshot = .ok payload ∧
        env = withSnapshot store.env snapshot.snapshotId payload := by
  refine writes_prepared (.bind (refuses_notOpen _) fun _ =>
    .bind (refuses_checkedIf (refuses_validateSnapshot _ _)) fun _ =>
      refuses_serializeSnapshot _) fun payload h => ?_
  obtain ⟨_, hopen, h⟩ := except_bind_ok.mp h
  obtain ⟨_, -, hpayload⟩ := except_bind_ok.mp h
  refine writes_of_txn (by simpa using except_failIf_ok.mp hopen)
    (.bind (raises_putBlob _ _ _) fun _ => .pure _) ?_ ?_
  · intro a t t' ht h
    obtain ⟨_, t₁, hput, h⟩ := run_bind_ok.mp h
    obtain ⟨-, rfl⟩ := run_commit_ok h
    exact ⟨payload, hpayload, by rw [putBlob_ok hput, ht]; rfl⟩
  · intro a t t' ht h
    obtain ⟨_, t₁, hput, h⟩ := run_bind_ok.mp h
    exact absurd (run_pure_ok.mp h).1 (by simp)

theorem putSnapshotWithTransport_writes (store : LmdbStore) (snapshot : Snapshot)
    (enqueue validate : Bool) (clock : Clock) (io : List (Option Fault)) :
    store.Writes (store.putSnapshotWithTransport snapshot enqueue validate clock io) fun env =>
      ∃ payload, serializeSnapshot snapshot = .ok payload ∧
        env = enqueuedIf enqueue (withSnapshot store.env snapshot.snapshotId payload)
          (serializeFrame .snapshot snapshot.hostIdentifier payload clock.firstRecord) ∧
        (enqueue = true → (serializeFrame .snapshot snapshot.hostIdentifier payload
          clock.firstRecord).length ≤ maxDataSize) := by
  refine writes_prepared (.bind (refuses_notOpen _) fun _ =>
    .bind (refuses_checkedIf (refuses_validateSnapshot _ _)) fun _ =>
      refuses_serializeSnapshot _) fun payload h => ?_
  obtain ⟨_, hopen, h⟩ := except_bind_ok.mp h
  obtain ⟨_, -, hpayload⟩ := except_bind_ok.mp h
  refine writes_of_txn (by simpa using except_failIf_ok.mp hopen)
    (.bind (raises_putBlob _ _ _) fun _ => .bind (raises_enqueueIf _ _ _ _ _) fun _ => .pure _)
    ?_ ?_
  · intro a t t' ht h
    obtain ⟨_, t₁, hput, h⟩ := run_bind_ok.mp h
    obtain ⟨_, t₂, henqueue, h⟩ := run_bind_ok.mp h
    obtain ⟨-, rfl⟩ := run_commit_ok h
    obtain ⟨henv, hsize⟩ := enqueueIf_ok henqueue
    rw [putBlob_ok hput, ht] at henv
    exact ⟨payload, hpayload, henv, hsize⟩
  · intro a t t' ht h
    obtain ⟨_, t₁, hput, h⟩ := run_bind_ok.mp h
    obtain ⟨_, t₂, henqueue, h⟩ := run_bind_ok.mp h
    exact absurd (run_pure_ok.mp h).1 (by simp)

theorem putDelta_writes (store : LmdbStore) (delta : DeltaSnapshot)
    (base target : Option Snapshot) (validate : Bool) (io : List (Option Fault)) :
    store.Writes (store.putDelta delta base target validate io) fun env =>
      ∃ payload, serializeDelta delta = .ok payload ∧
        env = withDelta store.env delta.baseSnapshotId delta.targetSnapshotId payload := by
  refine writes_prepared (.bind (refuses_notOpen _) fun _ =>
    .bind (refuses_checkedIf (refuses_validateDelta _ _ _)) fun _ =>
      refuses_serializeDelta _) fun payload h => ?_
  obtain ⟨_, hopen, h⟩ := except_bind_ok.mp h
  obtain ⟨_, -, hpayload⟩ := except_bind_ok.mp h
  refine writes_of_txn (by simpa using except_failIf_ok.mp hopen)
    (.bind (raises_putBlob _ _ _) fun _ => .pure _) ?_ ?_
  · intro a t t' ht h
    obtain ⟨_, t₁, hput, h⟩ := run_bind_ok.mp h
    obtain ⟨-, rfl⟩ := run_commit_ok h
    exact ⟨payload, hpayload, by rw [putBlob_ok hput, ht]; rfl⟩
  · intro a t t' ht h
    obtain ⟨_, t₁, hput, h⟩ := run_bind_ok.mp h
    exact absurd (run_pure_ok.mp h).1 (by simp)

/-- The environment of a capture with its delta, before anything is enqueued. -/
def withCapture (env : Env Dbi) (snapshot : Snapshot) (delta : DeltaSnapshot)
    (snapshotPayload deltaPayload : Str) : Env Dbi :=
  withDelta (withSnapshot env snapshot.snapshotId snapshotPayload) delta.baseSnapshotId
    delta.targetSnapshotId deltaPayload

theorem putSnapshotAndDelta_writes (store : LmdbStore) (snapshot : Snapshot)
    (delta : DeltaSnapshot) (base : Option Snapshot) (enqueue validate : Bool) (clock : Clock)
    (io : List (Option Fault)) :
    store.Writes (store.putSnapshotAndDeltaWithTransport snapshot delta base enqueue validate
        clock io) fun env =>
      ∃ snapshotPayload deltaPayload, serializeSnapshot snapshot = .ok snapshotPayload ∧
        serializeDelta delta = .ok deltaPayload ∧
        env = enqueuedIf enqueue
          (enqueuedIf enqueue (withCapture store.env snapshot delta snapshotPayload deltaPayload)
            (serializeFrame .snapshot snapshot.hostIdentifier snapshotPayload clock.firstRecord))
          (serializeFrame .delta (deltaRoute delta) deltaPayload clock.secondRecord) ∧
        (enqueue = true →
          (serializeFrame .snapshot snapshot.hostIdentifier snapshotPayload
            clock.firstRecord).length ≤ maxDataSize ∧
          (serializeFrame .delta (deltaRoute delta) deltaPayload clock.secondRecord).length ≤
            maxDataSize) := by
  refine writes_prepared (.bind (refuses_notOpen _) fun _ =>
    .bind (refuses_checkedIf (.bind (refuses_validateSnapshot _ _) fun _ =>
      refuses_validateDelta _ _ _)) fun _ => .bind (refuses_serializeSnapshot _) fun _ =>
        .bind (refuses_serializeDelta _) fun _ => .ok _) fun payloads h => ?_
  obtain ⟨_, hopen, h⟩ := except_bind_ok.mp h
  obtain ⟨_, -, h⟩ := except_bind_ok.mp h
  obtain ⟨snapshotPayload, hsnapshot, h⟩ := except_bind_ok.mp h
  obtain ⟨deltaPayload, hdelta, h⟩ := except_bind_ok.mp h
  obtain rfl := Except.ok.inj h
  refine writes_of_txn (by simpa using except_failIf_ok.mp hopen)
    (.bind (raises_putBlob _ _ _) fun _ => .bind (raises_putBlob _ _ _) fun _ =>
      .bind (raises_enqueueIf _ _ _ _ _) fun _ => .bind (raises_enqueueIf _ _ _ _ _) fun _ =>
        .pure _) ?_ ?_
  · intro a t t' ht h
    obtain ⟨_, t₁, hput₁, h⟩ := run_bind_ok.mp h
    obtain ⟨_, t₂, hput₂, h⟩ := run_bind_ok.mp h
    obtain ⟨_, t₃, henqueue₁, h⟩ := run_bind_ok.mp h
    obtain ⟨_, t₄, henqueue₂, h⟩ := run_bind_ok.mp h
    obtain ⟨-, rfl⟩ := run_commit_ok h
    obtain ⟨henv₃, hsize₁⟩ := enqueueIf_ok henqueue₁
    obtain ⟨henv₄, hsize₂⟩ := enqueueIf_ok henqueue₂
    rw [henv₃, putBlob_ok hput₂, putBlob_ok hput₁, ht] at henv₄
    exact ⟨snapshotPayload, deltaPayload, hsnapshot, hdelta, henv₄,
      fun h => ⟨hsize₁ h, hsize₂ h⟩⟩
  · intro a t t' ht h
    obtain ⟨_, t₁, hput₁, h⟩ := run_bind_ok.mp h
    obtain ⟨_, t₂, hput₂, h⟩ := run_bind_ok.mp h
    obtain ⟨_, t₃, henqueue₁, h⟩ := run_bind_ok.mp h
    obtain ⟨_, t₄, henqueue₂, h⟩ := run_bind_ok.mp h
    exact absurd (run_pure_ok.mp h).1 (by simp)

theorem enqueueSnapshot_writes (store : LmdbStore) (snapshot : Snapshot) (validate : Bool)
    (clock : Clock) (io : List (Option Fault)) :
    store.Writes (store.enqueueSnapshot snapshot validate clock io) fun env =>
      ∃ payload, serializeSnapshot snapshot = .ok payload ∧
        env = enqueued store.env
          (serializeFrame .snapshot snapshot.hostIdentifier payload clock.firstRecord) ∧
        env.bytes ≤ store.env.mapSize.toNat ∧
        (serializeFrame .snapshot snapshot.hostIdentifier payload clock.firstRecord).length ≤
          maxDataSize := by
  refine writes_prepared (.bind (refuses_checkedIf
    (refuses_validateSnapshot _ _)) fun _ => refuses_serializeSnapshot _)
    fun payload h => ?_
  obtain ⟨_, -, hpayload⟩ := except_bind_ok.mp h
  exact (enqueueTransportRecord_writes store _ _ _ _ io).imp id fun ⟨hok, hopen, env,
    hnext, hstore⟩ => ⟨hok, hopen, env, ⟨payload, hpayload, hnext⟩, hstore⟩

theorem enqueueDelta_writes (store : LmdbStore) (delta : DeltaSnapshot)
    (base target : Option Snapshot) (validate : Bool) (clock : Clock)
    (io : List (Option Fault)) :
    store.Writes (store.enqueueDelta delta base target validate clock io) fun env =>
      ∃ payload, serializeDelta delta = .ok payload ∧
        env = enqueued store.env
          (serializeFrame .delta (deltaRoute delta) payload clock.firstRecord) ∧
        env.bytes ≤ store.env.mapSize.toNat ∧
        (serializeFrame .delta (deltaRoute delta) payload clock.firstRecord).length ≤
          maxDataSize := by
  refine writes_prepared (.bind (refuses_checkedIf
    (refuses_validateDelta _ _ _)) fun _ => refuses_serializeDelta _)
    fun payload h => ?_
  obtain ⟨_, -, hpayload⟩ := except_bind_ok.mp h
  exact (enqueueTransportRecord_writes store _ _ _ _ io).imp id fun ⟨hok, hopen, env,
    hnext, hstore⟩ => ⟨hok, hopen, env, ⟨payload, hpayload, hnext⟩, hstore⟩

/-! ## Cursor walks -/

theorem cursorOpen_ok {what : String} {dbi : Dbi} {t t' : Txn Dbi} {db : Db}
    (h : (cursorOpen what dbi).run t = .ok (db, t')) : db = t.env.db dbi ∧ t'.env = t.env := by
  obtain ⟨_, t₁, hcall, h⟩ := run_bind_ok.mp h
  obtain ⟨env, t₂, hread, h⟩ := run_bind_ok.mp h
  obtain ⟨rfl, rfl⟩ := readEnv_ok.mp hread
  obtain ⟨rfl, rfl⟩ := run_pure_ok.mp h
  rw [callAs_ok hcall]
  exact ⟨rfl, rfl⟩

theorem raises_cursorOpen (what : String) (dbi : Dbi) : Raises Failed (cursorOpen what dbi) :=
  .bind (raises_callAs _) fun _ => .bind .readEnv fun _ => .pure _

theorem cursorDel_ok {what : String} {dbi : Dbi} {key : Str} {t t' : Txn Dbi} {u : Unit}
    (h : (cursorDel what dbi key).run t = .ok (u, t')) :
    t'.env = t.env.set dbi ((t.env.db dbi).erase key) := by
  obtain ⟨found, t₁, hdel, h⟩ := run_bind_ok.mp h
  obtain ⟨-, rfl⟩ := run_pure_ok.mp h
  exact (mdbDel_ok (run_mapError_ok.mp hdel)).1

theorem raises_cursorDel (what : String) (dbi : Dbi) (key : Str) :
    Raises Failed (cursorDel what dbi key) :=
  .bind (.mapError (failed_lmdbError _)) fun _ => .pure _

/-- The records read off the given pairs, in their order. -/
def ReadAs (entries : List (Str × Str)) (records : List TransportRecord) : Prop :=
  List.Forall₂ (fun e record => e.1.length = 8 ∧ parseFrame (decodeU64Be e.1) e.2 = .ok record)
    entries records

/-- The pairs of the outbox from behind the ack of the consumer on. -/
def pending (env : Env Dbi) (consumerId : Str) : List (Str × Str) :=
  pendingRange (env.db transportDbi) ((storedAck env consumerId).getD 0)

theorem pending_subset {env : Env Dbi} {c : Str} {e : Str × Str} (h : e ∈ pending env c) :
    e ∈ (env.db transportDbi).entries := by
  rw [pending, pendingRange] at h
  split at h
  · exact h
  · exact (Db.mem_seek.mp h).1

/-- What a record read was read from. -/
theorem ReadAs.source {entries : List (Str × Str)} {records : List TransportRecord}
    {record : TransportRecord} (h : ReadAs entries records) (hmem : record ∈ records) :
    ∃ e ∈ entries, e.1.length = 8 ∧ parseFrame (decodeU64Be e.1) e.2 = .ok record := by
  induction h with
  | nil => exact absurd hmem List.not_mem_nil
  | cons hread _ ih =>
      rcases List.mem_cons.mp hmem with rfl | hmem
      · exact ⟨_, List.mem_cons_self, hread⟩
      · obtain ⟨e, he, hparse⟩ := ih hmem
        exact ⟨e, List.mem_cons_of_mem _ he, hparse⟩

/-- A batch is the first records pending, up to the limit, which is one a vector can meet. -/
theorem fetchTxn_ok {consumerId : Str} {maxItems : Nat} {t t' : Txn Dbi}
    {records : List TransportRecord}
    (h : (fetchTxn consumerId maxItems).run t = .ok (some records, t')) :
    maxItems ≤ maxRecords ∧ ReadAs ((pending t.env consumerId).take maxItems) records := by
  obtain ⟨stored, t₁, hread, h⟩ := run_bind_ok.mp h
  obtain ⟨rfl, henv₁⟩ := readConsumerAckSequence_ok hread
  obtain ⟨db, t₂, hopen, h⟩ := run_bind_ok.mp h
  obtain ⟨rfl, henv₂⟩ := cursorOpen_ok hopen
  rw [henv₁] at h
  by_cases hlimit : maxRecords < maxItems
  · rw [if_pos hlimit] at h
    obtain ⟨hnone, -⟩ := run_pure_ok.mp h
    cases hnone
  rw [if_neg hlimit] at h
  refine ⟨not_lt.mp hlimit, ?_⟩
  obtain ⟨got, t₃, hloop, hpure⟩ := run_bind_ok.mp h
  obtain ⟨hgot, -⟩ := run_pure_ok.mp hpure
  rw [← Option.some.inj hgot]
  change StateT.run (cursorLoop _ _ _ (pending t.env consumerId) []) t₂ = _ at hloop
  refine cursorLoop_ok
    (I := fun rest got _ => ∃ done, pending t.env consumerId = done ++ rest ∧
      ReadAs done got ∧ got.length ≤ maxItems)
    (Q := fun got _ => ReadAs ((pending t.env consumerId).take maxItems) got)
    ?_ ?_ (fun _ _ _ => callAs_ok) (fun _ _ _ => callAs_ok)
    ⟨[], rfl, List.Forall₂.nil, Nat.zero_le _⟩ hloop
  · rintro got _ ⟨done, hdone, hgot, hle⟩
    rw [hdone, List.append_nil, List.take_of_length_le (hgot.length_eq ▸ hle)]
    exact hgot
  · rintro e rest got t s' more t' ⟨done, hdone, hgot, hle⟩ hbody
    rw [fetchBody] at hbody
    split at hbody
    next hfull =>
      obtain ⟨heq, -⟩ := run_pure_ok.mp hbody
      obtain ⟨rfl, rfl⟩ := Prod.mk.inj heq
      have hlen : done.length = maxItems := hgot.length_eq.trans (le_antisymm hle hfull)
      simp only [Bool.false_eq_true, if_false]
      rw [hdone, ← hlen, List.take_left]
      exact hgot
    next hroom =>
      obtain ⟨_, t₃, hfail, hbody⟩ := run_bind_ok.mp hbody
      obtain ⟨hsize, rfl⟩ := run_failIf_ok.mp hfail
      cases hparse : parseFrame (decodeU64Be e.1) e.2 with
      | error status =>
          rw [hparse] at hbody
          exact absurd hbody run_throw_ok
      | ok record =>
          rw [hparse] at hbody
          obtain ⟨heq, -⟩ := run_pure_ok.mp hbody
          obtain ⟨rfl, rfl⟩ := Prod.mk.inj heq
          simp only [if_true]
          refine ⟨done ++ [e], by rw [hdone]; simp, ?_, ?_⟩
          · exact List.rel_append hgot
              (List.Forall₂.cons ⟨not_not.mp hsize, hparse⟩ List.Forall₂.nil)
          · rw [List.length_append]
            exact Nat.lt_of_not_le hroom

theorem fetchTransportBatch_ok {store : LmdbStore} {consumerId : Str} {maxItems : Nat}
    {io : List (Option Fault)} {records : List TransportRecord}
    (h : store.fetchTransportBatchForConsumer consumerId maxItems io = .ok (some records)) :
    ReadAs ((pending store.env consumerId).take maxItems) records := by
  obtain ⟨_, -, h⟩ := except_bind_ok.mp h
  obtain ⟨_, -, h⟩ := except_bind_ok.mp h
  split at h
  next hzero =>
    obtain rfl := Option.some.inj (Except.ok.inj h)
    rw [hzero, List.take_zero]
    exact List.Forall₂.nil
  next =>
    obtain ⟨t, t', ht, hrun⟩ := readTxn_ok h
    exact ht ▸ (fetchTxn_ok hrun).2

theorem runs_callAs (what : String) (env : Env Dbi) : Runs (callAs what) env () env :=
  .mapError (.call env)

theorem runs_cursorOpen (what : String) (dbi : Dbi) (env : Env Dbi) :
    Runs (cursorOpen what dbi) env (env.db dbi) env :=
  .bind (runs_callAs _ _) (.bind rfl (.pure _ _))

theorem writeTxn_nil {α : Type} {store : LmdbStore} {body : StoreM (Finish × α)} (finish : Finish)
    (a : α) (env : Env Dbi) {label : String} (h : Runs body store.env (finish, a) env) :
    (store.writeTxn [] label body).1 = .success := by
  have hrun : Runs (do callAs "mdb_txn_begin"; body) store.env (finish, a) env :=
    .bind (runs_callAs _ _) h
  have hrun' : (do callAs "mdb_txn_begin"; body : StoreM (Finish × α)).run
      { env := store.env, faults := [] } = .ok ((finish, a), { env := env, faults := [] }) := hrun
  rw [writeTxn, hrun']
  cases finish with
  | abort => rfl
  | commit => rfl

theorem runs_readConsumerAckSequence {env : Env Dbi} {consumerId : Str} (hid : consumerId ≠ [])
    (hack : ∀ v, (env.db transportConsumersDbi).get consumerId = some v → v.length = 8) :
    Runs (readConsumerAckSequence consumerId) env (storedAck env consumerId) env := by
  refine .bind (.failIf env hid) (.bind (.mapError (.mdbGet env hid)) ?_)
  rw [storedAck]
  cases hfound : (env.db transportConsumersDbi).get consumerId with
  | none => exact .pure env _
  | some v => exact .bind (.failIf env (not_not.mpr (hack v hfound))) (.pure env _)

/-- The walk of a fetch whose first records can all be read. -/
theorem runs_fetchLoop {env : Env Dbi} {maxItems : Nat} {what : String} :
    ∀ {entries : List (Str × Str)} {records got : List TransportRecord},
      ReadAs (entries.take (maxItems - got.length)) records → got.length ≤ maxItems →
      Runs (cursorLoop (callAs what) (callAs what) (fetchBody maxItems) entries got) env
        (got ++ records) env
  | [], _, got, hread, _ => by
      rw [List.take_nil] at hread
      cases hread
      rw [List.append_nil]
      exact .bind (runs_callAs _ env) (.pure env _)
  | e :: entries, _, got, hread, hle => by
      refine .bind (runs_callAs _ env) ?_
      by_cases hfull : maxItems ≤ got.length
      · have hbody : Runs (fetchBody maxItems got e.1 e.2) env (got, false) env := by
          rw [fetchBody, if_pos hfull]
          exact .pure env _
        rw [Nat.sub_eq_zero_of_le hfull, List.take_zero] at hread
        cases hread
        rw [List.append_nil]
        exact .bind hbody (.pure env _)
      · have hlt : got.length < maxItems := Nat.lt_of_not_le hfull
        have hsub : maxItems - got.length = (maxItems - (got.length + 1)) + 1 := by omega
        rw [hsub, List.take_succ_cons] at hread
        obtain _ | @⟨_, record, _, records, ⟨hsize, hparse⟩, hread⟩ := hread
        have hbody : Runs (fetchBody maxItems got e.1 e.2) env (got ++ [record], true) env := by
          rw [fetchBody, if_neg hfull]
          refine .bind (.failIf env (not_not.mpr hsize)) ?_
          rw [hparse]
          exact .pure env _
        rw [List.append_cons]
        have hlength : (got ++ [record]).length = got.length + 1 := List.length_append
        refine .bind hbody (runs_fetchLoop ?_ ?_)
        · rw [hlength]
          exact hread
        · rw [hlength]
          exact hlt

/-- A limit that a vector cannot meet is refused, by an exception or for another reason. -/
theorem fetchTransportBatch_le {store : LmdbStore} {consumerId : Str} {maxItems : Nat}
    {io : List (Option Fault)} {records : List TransportRecord}
    (h : store.fetchTransportBatchForConsumer consumerId maxItems io = .ok (some records)) :
    maxItems ≤ maxRecords := by
  obtain ⟨_, -, h⟩ := except_bind_ok.mp h
  obtain ⟨_, -, h⟩ := except_bind_ok.mp h
  split at h
  next hzero => exact hzero.le.trans (Nat.zero_le _)
  next =>
    obtain ⟨t, t', -, hrun⟩ := readTxn_ok h
    exact (fetchTxn_ok hrun).1

/-- Up to that limit nothing is thrown. -/
theorem fetchTransportBatch_some {store : LmdbStore} {consumerId : Str} {maxItems : Nat}
    {io : List (Option Fault)} {got : Option (List TransportRecord)}
    (hlimit : maxItems ≤ maxRecords)
    (h : store.fetchTransportBatchForConsumer consumerId maxItems io = .ok got) :
    ∃ records, got = some records := by
  obtain ⟨_, -, h⟩ := except_bind_ok.mp h
  obtain ⟨_, -, h⟩ := except_bind_ok.mp h
  split at h
  · exact ⟨[], (Except.ok.inj h).symm⟩
  · obtain ⟨t, t', -, h⟩ := readTxn_ok h
    obtain ⟨_, _, -, h⟩ := run_bind_ok.mp h
    obtain ⟨_, _, -, h⟩ := run_bind_ok.mp h
    rw [if_neg (not_lt.mpr hlimit)] at h
    obtain ⟨records, _, -, h⟩ := run_bind_ok.mp h
    exact ⟨records, (run_pure_ok.mp h).1.symm⟩

section
variable {store : LmdbStore} {consumerId : Str} {maxItems : Nat} {records : List TransportRecord}

/-- Where no call fails, a fetch comes to its `reserve`. -/
theorem fetchTransportBatch_runs {got : Option (List TransportRecord)}
    (hopen : store.isOpen = true) (hid : consumerId ≠ []) (hzero : maxItems ≠ 0)
    (hack : ∀ v, (store.env.db transportConsumersDbi).get consumerId = some v → v.length = 8)
    (hloop : Runs (if maxRecords < maxItems then return none
      else do
        let records ← cursorLoop (callAs "mdb_cursor_get(fetch_transport_batch)")
          (callAs "mdb_cursor_get(fetch_transport_batch)") (fetchBody maxItems)
          (pending store.env consumerId) []
        return some records) store.env got store.env) :
    store.fetchTransportBatchForConsumer consumerId maxItems [] = .ok got := by
  refine except_bind_ok.mpr ⟨(), except_failIf_ok.mpr (by simp [hopen]), ?_⟩
  refine except_bind_ok.mpr ⟨(), except_failIf_ok.mpr hid, ?_⟩
  rw [if_neg hzero]
  have hrun : Runs (do callAs "mdb_txn_begin"; fetchTxn consumerId maxItems) store.env
      got store.env :=
    .bind (runs_callAs _ _) (.bind (runs_readConsumerAckSequence hid hack)
      (.bind (runs_cursorOpen _ _ _) hloop))
  exact congrArg (fun r => Prod.fst <$> r) hrun

/-- It returns the first records pending, where they can be read. -/
theorem fetchTransportBatch_first (hopen : store.isOpen = true) (hid : consumerId ≠ [])
    (hlimit : maxItems ≤ maxRecords)
    (hread : ReadAs ((pending store.env consumerId).take maxItems) records)
    (hack : ∀ v, (store.env.db transportConsumersDbi).get consumerId = some v → v.length = 8) :
    store.fetchTransportBatchForConsumer consumerId maxItems [] = .ok (some records) := by
  by_cases hzero : maxItems = 0
  · rw [hzero, List.take_zero] at hread
    cases hread
    refine except_bind_ok.mpr ⟨(), except_failIf_ok.mpr (by simp [hopen]), ?_⟩
    refine except_bind_ok.mpr ⟨(), except_failIf_ok.mpr hid, ?_⟩
    rw [if_pos hzero]
    rfl
  · refine fetchTransportBatch_runs hopen hid hzero hack ?_
    rw [if_neg (not_lt.mpr hlimit)]
    exact .bind (runs_fetchLoop hread (Nat.zero_le _)) (.pure _ _)

theorem fetchTransportBatch_nil (hopen : store.isOpen = true) (hid : consumerId ≠ [])
    (hlimit : maxItems ≤ maxRecords) (hread : ReadAs (pending store.env consumerId) records)
    (hack : ∀ v, (store.env.db transportConsumersDbi).get consumerId = some v → v.length = 8) :
    store.fetchTransportBatchForConsumer consumerId maxItems [] =
      .ok (some (records.take maxItems)) :=
  fetchTransportBatch_first hopen hid hlimit (List.forall₂_take maxItems hread) hack

end

/-! ## Walks that delete -/

/-- The environment when the walk over `dbi` has come past `done`. -/
def Walked (before : Env Dbi) (dbi : Dbi) (drop : Str → Bool) (done : List (Str × Str))
    (env : Env Dbi) : Prop :=
  env = before.set dbi
    ((before.db dbi).filter fun k => !(drop k && done.any fun e => e.1 == k))

theorem walked_nil (env : Env Dbi) (dbi : Dbi) (drop : Str → Bool) :
    Walked env dbi drop [] env := by
  simp [Walked, Db.filter_true]

theorem Walked.keep {before env : Env Dbi} {dbi : Dbi} {drop : Str → Bool}
    {done : List (Str × Str)} {e : Str × Str} (h : Walked before dbi drop done env)
    (hkeep : drop e.1 = false) : Walked before dbi drop (done ++ [e]) env := by
  rw [Walked, h]
  congr 1
  refine Db.filter_congr fun x _ => ?_
  by_cases hx : e.1 = x.1
  · simp [← hx, hkeep]
  · have hne : (e.1 == x.1) = false := beq_eq_false_iff_ne.mpr hx
    simp [hne]

theorem Walked.drop {before env : Env Dbi} {dbi : Dbi} {drop : Str → Bool}
    {done : List (Str × Str)} {e : Str × Str} (h : Walked before dbi drop done env)
    (hdrop : drop e.1 = true) :
    Walked before dbi drop (done ++ [e]) (env.set dbi ((env.db dbi).erase e.1)) := by
  rw [Walked] at h
  rw [Walked, h, Env.set_db_self, Env.set_set, Db.erase_filter]
  congr 1
  refine Db.filter_congr fun x _ => ?_
  by_cases hx : x.1 = e.1
  · simp [hx, hdrop]
  · have hne : (e.1 == x.1) = false := beq_eq_false_iff_ne.mpr (Ne.symm hx)
    simp [hne, bne_iff_ne.mpr hx]

theorem walked_all {before env : Env Dbi} {dbi : Dbi} {drop : Str → Bool}
    (h : Walked before dbi drop (before.db dbi).entries env) : env = dropped before dbi drop := by
  rw [h, dropped]
  congr 1
  refine Db.filter_congr fun x hx => ?_
  have hany : ((before.db dbi).entries.any fun e => e.1 == x.1) = true :=
    List.any_eq_true.mpr ⟨x, hx, beq_self_eq_true _⟩
  rw [hany, Bool.and_true]

theorem deleteLoop_ok {dbi : Dbi} {size : Nat} {badSize openWhat getWhat delWhat : String}
    {drop : Str → Bool} {t t' : Txn Dbi} {removed : Nat}
    (h : (deleteLoop dbi size badSize openWhat getWhat delWhat drop).run t = .ok (removed, t')) :
    t'.env = dropped t.env dbi drop ∧
      removed = ((t.env.db dbi).entries.filter fun e => drop e.1).length ∧
      ∀ e ∈ (t.env.db dbi).entries, e.1.length = size := by
  obtain ⟨db, t₁, hopen, h⟩ := run_bind_ok.mp h
  obtain ⟨rfl, henv⟩ := cursorOpen_ok hopen
  refine cursorLoop_ok
    (I := fun rest n env => ∃ done, (t.env.db dbi).entries = done ++ rest ∧
      Walked t.env dbi drop done env ∧ n = (done.filter fun e => drop e.1).length ∧
      ∀ e ∈ done, e.1.length = size)
    (Q := fun n env => env = dropped t.env dbi drop ∧
      n = ((t.env.db dbi).entries.filter fun e => drop e.1).length ∧
      ∀ e ∈ (t.env.db dbi).entries, e.1.length = size)
    ?_ ?_ (fun _ _ _ => callAs_ok) (fun _ _ _ => callAs_ok)
    ⟨[], rfl, henv ▸ walked_nil _ _ _, rfl, fun _ h => absurd h List.not_mem_nil⟩ h
  · rintro n env ⟨done, hdone, hwalked, hn, hsize⟩
    rw [List.append_nil] at hdone
    subst hdone
    exact ⟨walked_all hwalked, hn, hsize⟩
  · rintro e rest n t₂ n' more t₃ ⟨done, hdone, hwalked, hn, hsize⟩ hbody
    obtain ⟨_, t₄, hfail, hbody⟩ := run_bind_ok.mp hbody
    obtain ⟨hlen, rfl⟩ := run_failIf_ok.mp hfail
    have hsize' : ∀ x ∈ done ++ [e], x.1.length = size := by
      intro x hx
      rcases List.mem_append.mp hx with hx | hx
      · exact hsize x hx
      · exact List.mem_singleton.mp hx ▸ not_not.mp hlen
    have hsplit : (t.env.db dbi).entries = (done ++ [e]) ++ rest := by rw [hdone]; simp
    cases hdrop : drop e.1 with
    | true =>
        rw [hdrop, if_pos rfl] at hbody
        obtain ⟨_, t₅, hdel, hbody⟩ := run_bind_ok.mp hbody
        obtain ⟨heq, rfl⟩ := run_pure_ok.mp hbody
        obtain ⟨rfl, rfl⟩ := Prod.mk.inj heq
        rw [if_pos rfl, cursorDel_ok hdel]
        refine ⟨done ++ [e], hsplit, hwalked.drop hdrop, ?_, hsize'⟩
        rw [hn, List.filter_append, List.length_append]
        simp [hdrop]
    | false =>
        rw [hdrop, if_neg (by simp)] at hbody
        obtain ⟨heq, rfl⟩ := run_pure_ok.mp hbody
        obtain ⟨rfl, rfl⟩ := Prod.mk.inj heq
        rw [if_pos rfl]
        refine ⟨done ++ [e], hsplit, hwalked.keep hdrop, ?_, hsize'⟩
        rw [hn, List.filter_append, List.length_append]
        simp [hdrop]

theorem raises_deleteLoop (dbi : Dbi) (size : Nat) (badSize openWhat getWhat delWhat : String)
    (drop : Str → Bool) :
    Raises Failed (deleteLoop dbi size badSize openWhat getWhat delWhat drop) := by
  refine .bind (raises_cursorOpen _ _) fun db =>
    .cursorLoop (fun n k v => ?_) (raises_callAs _) (raises_callAs _)
  refine .bind (.failIf (failed_corrupted _)) fun _ => ?_
  split
  · exact .bind (raises_cursorDel _ _ _) fun _ => .pure _
  · exact .pure _

/-! ## Compaction -/

theorem min?_append_singleton {l : List UInt64} {m a : UInt64} (h : l.min? = some m) :
    (l ++ [a]).min? = some (if a < m then a else m) := by
  cases l with
  | nil => exact absurd h (by simp)
  | cons x l =>
      rw [List.min?_cons', Option.some_inj] at h
      rw [List.cons_append, List.min?_cons', List.foldl_append, h, Option.some_inj]
      show min m a = _
      split
      next hlt => exact min_eq_right hlt.le
      next hge => exact min_eq_left (not_lt.mp hge)

/-- The walk over the consumers finds the least ack. -/
theorem minAckLoop_ok {what what' : String} {entries : List (Str × Str)} {t t' : Txn Dbi}
    {r : Option UInt64}
    (h : (cursorLoop (callAs what) (callAs what') minAckBody entries none).run t = .ok (r, t')) :
    r = (entries.map fun e => decodeU64Be e.2).min? ∧ t'.env = t.env := by
  refine cursorLoop_ok
    (I := fun rest least env => env = t.env ∧ ∃ done, entries = done ++ rest ∧
      least = (done.map fun e => decodeU64Be e.2).min?)
    (Q := fun least env => least = (entries.map fun e => decodeU64Be e.2).min? ∧ env = t.env)
    ?_ ?_ (fun _ _ _ => callAs_ok) (fun _ _ _ => callAs_ok) ⟨rfl, [], rfl, rfl⟩ h
  · rintro least env ⟨henv, done, hdone, hleast⟩
    rw [List.append_nil] at hdone
    exact ⟨hdone ▸ hleast, henv⟩
  · rintro e rest least t₁ least' more t₂ ⟨henv, done, hdone, hleast⟩ hbody
    obtain ⟨_, t₃, hfail, hbody⟩ := run_bind_ok.mp hbody
    obtain ⟨-, rfl⟩ := run_failIf_ok.mp hfail
    have hsplit : entries = (done ++ [e]) ++ rest := by rw [hdone]; simp
    cases hl : least with
    | none =>
        rw [hl] at hbody hleast
        obtain ⟨heq, rfl⟩ := run_pure_ok.mp hbody
        obtain ⟨rfl, rfl⟩ := Prod.mk.inj heq
        obtain rfl : done = [] := by
          simpa using (List.min?_eq_none_iff.mp hleast.symm)
        exact ⟨henv, [] ++ [e], hsplit, rfl⟩
    | some m =>
        rw [hl] at hbody hleast
        obtain ⟨heq, rfl⟩ := run_pure_ok.mp hbody
        obtain ⟨rfl, rfl⟩ := Prod.mk.inj heq
        refine ⟨henv, done ++ [e], hsplit, ?_⟩
        rw [List.map_append, List.map_singleton]
        exact (min?_append_singleton hleast.symm).symm

theorem raises_minAckBody (least : Option UInt64) (k v : Str) :
    Raises Failed (minAckBody least k v) := by
  refine .bind (.failIf (failed_corrupted _)) fun _ => ?_
  cases least with
  | none => exact .pure _
  | some m => exact .pure _

theorem raises_compactBody (ack : UInt64) (u : Unit) (k v : Str) :
    Raises Failed (compactBody ack u k v) := by
  refine .bind (.failIf (failed_corrupted _)) fun _ => ?_
  split
  · exact .pure _
  · exact .bind (raises_cursorDel _ _ _) fun _ => .pure _

/-- The walk over the records, which are in key order, deletes those up to the ack. -/
theorem compactLoop_ok {what what' : String} {ack : UInt64} {t t' : Txn Dbi} {u : Unit}
    (h : (cursorLoop (callAs what) (callAs what') (compactBody ack)
      (t.env.db transportDbi).entries ()).run t = .ok (u, t')) :
    t'.env = compacted t.env ack := by
  have hcompacted : compacted t.env ack =
      dropped t.env transportDbi fun k => decide (k ≤ encodeU64Be ack) := by
    simp only [compacted, dropped, ← not_lt, decide_not, Bool.not_not]
  have hle : ∀ k : Str, k.length = 8 → (decodeU64Be k ≤ ack ↔ k ≤ encodeU64Be ack) := by
    intro k hk
    rw [← encodeU64Be_le, encodeU64Be_decodeU64Be hk]
  refine cursorLoop_ok
    (I := fun rest _ env => ∃ done, (t.env.db transportDbi).entries = done ++ rest ∧
      (∀ e ∈ done, e.1 ≤ encodeU64Be ack) ∧
      Walked t.env transportDbi (fun k => decide (k ≤ encodeU64Be ack)) done env)
    (Q := fun _ env => env = compacted t.env ack)
    ?_ ?_ (fun _ _ _ => callAs_ok) (fun _ _ _ => callAs_ok)
    ⟨[], rfl, fun _ h => absurd h List.not_mem_nil, walked_nil _ _ _⟩ h
  · rintro _ env ⟨done, hdone, -, hwalked⟩
    rw [List.append_nil] at hdone
    subst hdone
    exact hcompacted ▸ walked_all hwalked
  · rintro e rest _ t₁ s more t₂ ⟨done, hdone, hacked, hwalked⟩ hbody
    obtain ⟨_, t₃, hfail, hbody⟩ := run_bind_ok.mp hbody
    obtain ⟨hsize, rfl⟩ := run_failIf_ok.mp hfail
    have hkey := hle e.1 (not_not.mp hsize)
    split at hbody
    next hgt =>
      obtain ⟨heq, rfl⟩ := run_pure_ok.mp hbody
      obtain ⟨rfl, rfl⟩ := Prod.mk.inj heq
      simp only [Bool.false_eq_true, if_false]
      -- this record and all behind it stay
      rw [hcompacted, hwalked, dropped]
      congr 1
      refine Db.filter_congr fun x hx => ?_
      rw [hdone] at hx
      rcases List.mem_append.mp hx with hx | hx
      · have hany : (done.any fun e => e.1 == x.1) = true :=
          List.any_eq_true.mpr ⟨x, hx, beq_self_eq_true _⟩
        rw [hany, Bool.and_true]
      · have hsorted := (t.env.db transportDbi).sorted
        rw [hdone] at hsorted
        have hbehind : e.1 ≤ x.1 := by
          rcases List.mem_cons.mp hx with rfl | hx
          · exact le_rfl
          · exact ((List.pairwise_cons.mp (List.pairwise_append.mp hsorted).2.1).1 x hx).le
        have hnot : ¬ x.1 ≤ encodeU64Be ack := fun hxle =>
          not_lt.mpr (hkey.mpr (hbehind.trans hxle)) hgt
        simp [hnot]
    next hle' =>
      obtain ⟨_, t₅, hdel, hbody⟩ := run_bind_ok.mp hbody
      obtain ⟨heq, rfl⟩ := run_pure_ok.mp hbody
      obtain ⟨rfl, rfl⟩ := Prod.mk.inj heq
      have hdrop := hkey.mp (not_lt.mp hle')
      rw [if_pos rfl, cursorDel_ok hdel]
      refine ⟨done ++ [e], by rw [hdone]; simp, ?_, hwalked.drop (decide_eq_true hdrop)⟩
      intro x hx
      rcases List.mem_append.mp hx with hx | hx
      · exact hacked x hx
      · exact List.mem_singleton.mp hx ▸ hdrop

/-- Compaction leaves the records behind the least ack, where that is not zero. -/
theorem compactTransport_writes (store : LmdbStore) (io : List (Option Fault)) :
    store.Writes (store.compactTransportUpToMinAcked io) fun env =>
      ((minAcked store.env).getD 0 = 0 ∧ env = store.env) ∨
      ((minAcked store.env).getD 0 ≠ 0 ∧
        env = compacted store.env ((minAcked store.env).getD 0)) := by
  rw [compactTransportUpToMinAcked]
  cases hopen : store.isOpen with
  | false => exact writes_notOpen _ _
  | true =>
      refine writes_of_txn hopen ?_ ?_ ?_
      · refine .bind (raises_cursorOpen _ _) fun consumers =>
          .bind (.cursorLoop raises_minAckBody (raises_callAs _) (raises_callAs _))
            fun least => ?_
        split
        · exact .pure _
        · exact .bind (raises_cursorOpen _ _) fun records =>
            .bind (.cursorLoop (raises_compactBody _) (raises_callAs _) (raises_callAs _))
              fun _ => .pure _
      · intro a t t' ht h
        obtain ⟨consumers, t₁, hopen₁, h⟩ := run_bind_ok.mp h
        obtain ⟨rfl, henv₁⟩ := cursorOpen_ok hopen₁
        obtain ⟨least, t₂, hleast, h⟩ := run_bind_ok.mp h
        obtain ⟨rfl, henv₂⟩ := minAckLoop_ok hleast
        rw [ht] at h
        change StateT.run (if (minAcked store.env).getD 0 = 0 then _ else _) t₂ = _ at h
        split at h
        · exact absurd (run_pure_ok.mp h).1 (by simp)
        next hne =>
          obtain ⟨records, t₃, hopen₂, h⟩ := run_bind_ok.mp h
          obtain ⟨rfl, henv₃⟩ := cursorOpen_ok hopen₂
          obtain ⟨_, t₄, hloop, h⟩ := run_bind_ok.mp h
          obtain ⟨-, rfl⟩ := run_commit_ok h
          rw [← henv₃] at hloop
          have hcompacted := compactLoop_ok hloop
          rw [henv₃, henv₂, henv₁, ht] at hcompacted
          exact .inr ⟨hne, hcompacted⟩
      · intro a t t' ht h
        obtain ⟨consumers, t₁, hopen₁, h⟩ := run_bind_ok.mp h
        obtain ⟨rfl, henv₁⟩ := cursorOpen_ok hopen₁
        obtain ⟨least, t₂, hleast, h⟩ := run_bind_ok.mp h
        obtain ⟨rfl, henv₂⟩ := minAckLoop_ok hleast
        rw [ht] at h
        change StateT.run (if (minAcked store.env).getD 0 = 0 then _ else _) t₂ = _ at h
        split at h
        next hzero => exact .inl ⟨hzero, rfl⟩
        next =>
          obtain ⟨records, t₃, hopen₂, h⟩ := run_bind_ok.mp h
          obtain ⟨_, t₄, hloop, h⟩ := run_bind_ok.mp h
          exact absurd (run_pure_ok.mp h).1 (by simp)

/-! ## Deletion and retention -/

/-- The snapshot is gone, and every delta that names it. -/
def withoutSnapshot (env : Env Dbi) (snapshotId : SnapshotId) : Env Dbi :=
  dropped
    (env.set snapshotsDbi ((env.db snapshotsDbi).erase (encodeU64Be snapshotId)))
    deltasDbi (namesSnapshot snapshotId)

/-- What a method that counts what it removes may do: fail, change and count nothing, or
succeed and reach an environment `next` allows with its count. -/
def Cleans (store : LmdbStore) (result : StoreStatus × CleanupStats × LmdbStore)
    (next : CleanupStats → Env Dbi → Prop) : Prop :=
  (Failed result.1 ∧ result.2.1 = {} ∧ result.2.2 = store) ∨
    (result.1 = .success ∧ store.isOpen = true ∧ ∃ env, next result.2.1 env ∧
      result.2.2 = { store with env := env })

theorem Cleans.writes {store : LmdbStore} {result : StoreStatus × CleanupStats × LmdbStore}
    {next : CleanupStats → Env Dbi → Prop} (h : store.Cleans result next) :
    store.Writes (result.1, result.2.2) fun env => next result.2.1 env := by
  rcases h with ⟨hfailed, -, heq⟩ | ⟨hok, hopen, env, hnext, heq⟩
  · exact .inl ⟨hfailed, heq⟩
  · exact .inr ⟨hok, hopen, env, hnext, heq⟩

theorem cleans_of_txn {body : StoreM (Finish × CleanupStats)} {store : LmdbStore}
    {io : List (Option Fault)} {label : String} {next : CleanupStats → Env Dbi → Prop}
    (hopen : store.isOpen = true) (hraises : Raises Failed body)
    (hcommit : ∀ a t t', t.env = store.env → body.run t = .ok ((.commit, a), t') → next a t'.env)
    (habort : ∀ a t t', t.env = store.env → body.run t = .ok ((.abort, a), t') →
      next a store.env) :
    store.Cleans ((store.writeTxn io label body).1,
      ((store.writeTxn io label body).2.1).getD {}, (store.writeTxn io label body).2.2) next := by
  rcases writeTxn_cases hraises store io label with
    ⟨status, hfailed, hrun⟩ | ⟨a, t, t', ht, hbody, hrun⟩ | ⟨a, t, t', ht, hbody, hrun⟩
  · rw [hrun]
    exact .inl ⟨hfailed, rfl, rfl⟩
  · rw [hrun]
    exact .inr ⟨rfl, hopen, store.env, habort a t t' ht hbody, rfl⟩
  · rw [hrun]
    exact .inr ⟨rfl, hopen, t'.env, hcommit a t t' ht hbody, rfl⟩

theorem cleans_notOpen (store : LmdbStore) (next : CleanupStats → Env Dbi → Prop) :
    store.Cleans (notOpenStatus, {}, store) next :=
  .inl ⟨failed_failure (by decide) _ _, rfl, rfl⟩

/-- The pairs of a database whose key is picked. -/
def countKeys (db : Db) (pick : Str → Bool) : Nat := (db.entries.filter fun e => pick e.1).length

theorem deleteSnapshot_cleans (store : LmdbStore) (snapshotId : SnapshotId)
    (io : List (Option Fault)) :
    store.Cleans (store.deleteSnapshot snapshotId io) fun stats env =>
      snapshotId ≠ 0 ∧ snapshotStored store.env snapshotId ∧
        (∀ e ∈ (store.env.db deltasDbi).entries, e.1.length = 16) ∧
        env = withoutSnapshot store.env snapshotId ∧
        stats = { snapshotsRemoved := 1
                  deltasRemoved :=
                    countKeys (store.env.db deltasDbi) (namesSnapshot snapshotId) } := by
  rw [deleteSnapshot]
  cases hopen : store.isOpen with
  | false => exact cleans_notOpen _ _
  | true =>
      by_cases hzero : snapshotId = 0
      · simp only [hzero, if_true]
        exact .inl ⟨failed_failure (by decide) _ _, rfl, rfl⟩
      · simp only [hzero, if_false]
        refine cleans_of_txn hopen ?_ ?_ ?_
        · exact .bind (.mapError (failed_lmdbError _)) fun found =>
            .bind (.failIf (failed_failure (by decide) _ _)) fun _ =>
              .bind (raises_deleteLoop _ _ _ _ _ _ _) fun _ => .pure _
        · intro a t t' ht h
          obtain ⟨found, t₁, hdel, h⟩ := run_bind_ok.mp h
          obtain ⟨henv₁, hfound⟩ := mdbDel_ok (run_mapError_ok.mp hdel)
          obtain ⟨_, t₂, hfail, h⟩ := run_bind_ok.mp h
          obtain ⟨hstored, rfl⟩ := run_failIf_ok.mp hfail
          obtain ⟨removed, t₃, hloop, h⟩ := run_bind_ok.mp h
          obtain ⟨heq, rfl⟩ := run_pure_ok.mp h
          obtain ⟨-, rfl⟩ := Prod.mk.inj heq
          obtain ⟨henv₃, hremoved, hsize⟩ := deleteLoop_ok hloop
          rw [henv₁, ht] at henv₃
          rw [henv₁, ht, Env.set_db_ne (by decide)] at hremoved hsize
          rw [hfound, Bool.not_eq_false, ht] at hstored
          exact ⟨hzero, hstored, hsize, henv₃, by rw [hremoved, countKeys]⟩
        · intro a t t' ht h
          obtain ⟨found, t₁, hdel, h⟩ := run_bind_ok.mp h
          obtain ⟨_, t₂, hfail, h⟩ := run_bind_ok.mp h
          obtain ⟨removed, t₃, hloop, h⟩ := run_bind_ok.mp h
          exact absurd (run_pure_ok.mp h).1 (by simp)

theorem deleteSnapshot_writes (store : LmdbStore) (snapshotId : SnapshotId)
    (io : List (Option Fault)) :
    store.Writes ((store.deleteSnapshot snapshotId io).1, (store.deleteSnapshot snapshotId io).2.2)
      fun env => snapshotStored store.env snapshotId ∧ env = withoutSnapshot store.env snapshotId :=
    by
  rcases (deleteSnapshot_cleans store snapshotId io).writes with
    hfailed | ⟨hok, hopen, env, ⟨-, hstored, -, henv, -⟩, heq⟩
  · exact .inl hfailed
  · exact .inr ⟨hok, hopen, env, ⟨hstored, henv⟩, heq⟩

/-- The items the first walk of the retention reads. -/
def RetentionItems (entries : List (Str × Str)) (items : List SnapshotRetentionItem) : Prop :=
  List.Forall₂ (fun e item => e.1.length = 8 ∧ item.snapshotId = decodeU64Be e.1 ∧
    ∃ snapshot, Serialization.deserializeSnapshotBinary e.2 = .ok snapshot ∧
      item.createdAt = snapshot.createdAt) entries items

theorem retentionLoop_ok {what what' : String} {entries : List (Str × Str)} {t t' : Txn Dbi}
    {items : List SnapshotRetentionItem}
    (h : (cursorLoop (callAs what) (callAs what') retentionBody entries []).run t =
      .ok (items, t')) : RetentionItems entries items ∧ t'.env = t.env := by
  refine cursorLoop_ok
    (I := fun rest got env => env = t.env ∧ ∃ done, entries = done ++ rest ∧
      RetentionItems done got)
    (Q := fun got env => RetentionItems entries got ∧ env = t.env)
    ?_ ?_ (fun _ _ _ => callAs_ok) (fun _ _ _ => callAs_ok)
    ⟨rfl, [], rfl, List.Forall₂.nil⟩ h
  · rintro got env ⟨henv, done, hdone, hgot⟩
    rw [List.append_nil] at hdone
    exact ⟨hdone ▸ hgot, henv⟩
  · rintro e rest got t₁ got' more t₂ ⟨henv, done, hdone, hgot⟩ hbody
    obtain ⟨_, t₃, hfail, hbody⟩ := run_bind_ok.mp hbody
    obtain ⟨hsize, rfl⟩ := run_failIf_ok.mp hfail
    cases hread : Serialization.deserializeSnapshotBinary e.2 with
    | error status =>
        rw [hread] at hbody
        exact absurd hbody run_throw_ok
    | ok snapshot =>
        rw [hread] at hbody
        obtain ⟨heq, rfl⟩ := run_pure_ok.mp hbody
        obtain ⟨rfl, rfl⟩ := Prod.mk.inj heq
        refine ⟨henv, done ++ [e], by rw [hdone]; simp, List.rel_append hgot ?_⟩
        exact List.Forall₂.cons ⟨not_not.mp hsize, rfl, snapshot, hread, rfl⟩ List.Forall₂.nil

theorem raises_retentionBody (items : List SnapshotRetentionItem) (k v : Str) :
    Raises Failed (retentionBody items k v) := by
  refine .bind (.failIf (failed_corrupted _)) fun _ => ?_
  split
  · exact .throw (failed_failure (by decide) _ _)
  · exact .pure _

/-- What is kept when only the given snapshots are. -/
def retained (env : Env Dbi) (ids : List SnapshotId) : Env Dbi :=
  dropped (dropped env snapshotsDbi (dropSnapshot ids)) deltasDbi (dropDelta ids)

theorem applySnapshotRetention_cleans (store : LmdbStore) (keep : Nat)
    (io : List (Option Fault)) :
    store.Cleans (store.applySnapshotRetention keep io) fun stats env =>
      ∃ items, RetentionItems (store.env.db snapshotsDbi).entries items ∧
        ((items.length ≤ keep ∧ stats = {} ∧ env = store.env) ∨
          (keep < items.length ∧ env = retained store.env (retainedIds keep items) ∧
            stats = { snapshotsRemoved := countKeys (store.env.db snapshotsDbi)
                        (dropSnapshot (retainedIds keep items))
                      deltasRemoved := countKeys (store.env.db deltasDbi)
                        (dropDelta (retainedIds keep items)) })) := by
  rw [applySnapshotRetention]
  cases hopen : store.isOpen with
  | false => exact cleans_notOpen _ _
  | true =>
      refine cleans_of_txn hopen ?_ ?_ ?_
      · refine .bind (raises_cursorOpen _ _) fun snapshots =>
          .bind (.cursorLoop raises_retentionBody (raises_callAs _) (raises_callAs _))
            fun items => ?_
        split
        · exact .pure _
        · exact .bind (raises_deleteLoop _ _ _ _ _ _ _) fun _ =>
            .bind (raises_deleteLoop _ _ _ _ _ _ _) fun _ => .pure _
      · intro a t t' ht h
        obtain ⟨snapshots, t₁, hopen₁, h⟩ := run_bind_ok.mp h
        obtain ⟨rfl, henv₁⟩ := cursorOpen_ok hopen₁
        obtain ⟨items, t₂, hitems, h⟩ := run_bind_ok.mp h
        obtain ⟨hitems, henv₂⟩ := retentionLoop_ok hitems
        split at h
        · exact absurd (run_pure_ok.mp h).1 (by simp)
        next hmore =>
          obtain ⟨_, t₃, hloop₁, h⟩ := run_bind_ok.mp h
          obtain ⟨_, t₄, hloop₂, h⟩ := run_bind_ok.mp h
          obtain ⟨heq, rfl⟩ := run_pure_ok.mp h
          obtain ⟨-, rfl⟩ := Prod.mk.inj heq
          obtain ⟨henv₃, hremoved₁, -⟩ := deleteLoop_ok hloop₁
          obtain ⟨henv₄, hremoved₂, -⟩ := deleteLoop_ok hloop₂
          rw [henv₃, dropped, Env.set_db_ne (by decide), henv₂, henv₁, ht] at hremoved₂
          rw [henv₂, henv₁, ht] at hremoved₁
          rw [henv₃, henv₂, henv₁, ht] at henv₄
          exact ⟨items, ht ▸ hitems, .inr ⟨not_le.mp hmore, henv₄, by
            rw [hremoved₁, hremoved₂, countKeys, countKeys]⟩⟩
      · intro a t t' ht h
        obtain ⟨snapshots, t₁, hopen₁, h⟩ := run_bind_ok.mp h
        obtain ⟨rfl, henv₁⟩ := cursorOpen_ok hopen₁
        obtain ⟨items, t₂, hitems, h⟩ := run_bind_ok.mp h
        obtain ⟨hitems, henv₂⟩ := retentionLoop_ok hitems
        split at h
        next hfew =>
          obtain ⟨heq, -⟩ := run_pure_ok.mp h
          exact ⟨items, ht ▸ hitems, .inl ⟨hfew, (Prod.mk.inj heq).2.symm, rfl⟩⟩
        next =>
          obtain ⟨_, t₃, hloop₁, h⟩ := run_bind_ok.mp h
          obtain ⟨_, t₄, hloop₂, h⟩ := run_bind_ok.mp h
          exact absurd (run_pure_ok.mp h).1 (by simp)

theorem applySnapshotRetention_writes (store : LmdbStore) (keep : Nat)
    (io : List (Option Fault)) :
    store.Writes
      ((store.applySnapshotRetention keep io).1, (store.applySnapshotRetention keep io).2.2)
      fun env => ∃ items, RetentionItems (store.env.db snapshotsDbi).entries items ∧
        ((items.length ≤ keep ∧ env = store.env) ∨
          (keep < items.length ∧ env = retained store.env (retainedIds keep items))) := by
  rcases (applySnapshotRetention_cleans store keep io).writes with
    hfailed | ⟨hok, hopen, env, ⟨items, hitems, hnext⟩, heq⟩
  · exact .inl hfailed
  · refine .inr ⟨hok, hopen, env, ⟨items, hitems, ?_⟩, heq⟩
    rcases hnext with ⟨hfew, -, henv⟩ | ⟨hmore, henv, -⟩
    · exact .inl ⟨hfew, henv⟩
    · exact .inr ⟨hmore, henv⟩

/-! ## Opening -/

/-- The environment as `open` finds it, under its new map size. -/
def resized (env : Env Dbi) (mapSizeBytes : UInt64) : Env Dbi :=
  { env with mapSize := mapSizeFor env mapSizeBytes }

/-- The counter is set where there is none. -/
def initialized (env : Env Dbi) : Env Dbi :=
  if (env.db metaDbi).get kKeyNextSequence = none then counted env 1 else env

theorem initializeDbs_ok {t t' : Txn Dbi} {finish : Finish} {u : Unit}
    (h : initializeDbs.run t = .ok ((finish, u), t')) :
    finish = .commit ∧ t'.env = initialized t.env := by
  obtain ⟨_, t₁, h₁, h⟩ := run_bind_ok.mp h
  obtain ⟨_, t₂, h₂, h⟩ := run_bind_ok.mp h
  obtain ⟨_, t₃, h₃, h⟩ := run_bind_ok.mp h
  obtain ⟨_, t₄, h₄, h⟩ := run_bind_ok.mp h
  obtain ⟨_, t₅, h₅, h⟩ := run_bind_ok.mp h
  obtain ⟨found, t₆, hread, h⟩ := run_bind_ok.mp h
  obtain ⟨-, hnone, h₆⟩ := readNextSequence_ok hread
  rw [callAs_ok h₅, callAs_ok h₄, callAs_ok h₃, callAs_ok h₂, callAs_ok h₁] at h₆ hnone
  rw [initialized]
  cases found with
  | none =>
      rw [if_pos (hnone.mp rfl)]
      obtain ⟨_, t₇, hwrite, h⟩ := run_bind_ok.mp h
      obtain ⟨heq, rfl⟩ := run_pure_ok.mp h
      exact ⟨(Prod.mk.inj heq).1.symm, by rw [putBlob_ok hwrite, h₆]; rfl⟩
  | some next =>
      rw [if_neg fun hn => absurd (hnone.mpr hn) (by simp)]
      obtain ⟨heq, rfl⟩ := run_pure_ok.mp h
      exact ⟨(Prod.mk.inj heq).1.symm, h₆⟩

theorem raises_initializeDbs : Raises Failed initializeDbs := by
  refine .bind (raises_callAs _) fun _ => .bind (raises_callAs _) fun _ =>
    .bind (raises_callAs _) fun _ => .bind (raises_callAs _) fun _ =>
      .bind (raises_callAs _) fun _ => .bind raises_readNextSequence fun found => ?_
  cases found with
  | none => exact .bind (raises_putBlob _ _ _) fun _ => .pure _
  | some next => exact .pure _

/-- Opening fails and changes nothing, or the store is open under its new map size. -/
theorem openStore_cases (store : LmdbStore) (options : LmdbStoreOptions)
    (directoryError : Option Text) (io : List (Option Fault)) :
    (Failed (store.openStore options directoryError io).1 ∧
      (store.openStore options directoryError io).2 = store) ∨
    ((store.openStore options directoryError io).1 = .success ∧ store.isOpen = true ∧
      (store.openStore options directoryError io).2 = store) ∨
    ((store.openStore options directoryError io).1 = .success ∧ store.isOpen = false ∧
      (store.openStore options directoryError io).2 =
        { isOpen := true, env := initialized (resized store.env options.mapSizeBytes) }) := by
  unfold openStore
  split
  next hopen => exact .inr (.inl ⟨rfl, hopen, rfl⟩)
  next hclosed =>
    split
    · exact .inl ⟨failed_failure (by decide) _ _, rfl⟩
    · cases directoryError with
      | some message => exact .inl ⟨failed_failure (by decide) _ _, rfl⟩
      | none =>
          have hsetup : Raises Failed (do
              callAs "mdb_env_create"; callAs "mdb_env_set_mapsize"
              callAs "mdb_env_set_maxdbs"; callAs "mdb_env_set_maxreaders"
              callAs "mdb_env_open") :=
            .bind (raises_callAs _) fun _ => .bind (raises_callAs _) fun _ =>
              .bind (raises_callAs _) fun _ => .bind (raises_callAs _) fun _ => raises_callAs _
          dsimp only
          split
          next status hrun => exact .inl ⟨hsetup _ _ hrun, rfl⟩
          next t hrun =>
            rcases writeTxn_cases raises_initializeDbs
                { isOpen := true, env := resized store.env options.mapSizeBytes } t.faults "open"
              with ⟨status, hfailed, hinit⟩ | ⟨a, t₁, t₂, ht, hbody, hinit⟩ |
                ⟨a, t₁, t₂, ht, hbody, hinit⟩
            · left
              simp only [resized] at hinit
              have hok : status.ok = false := hfailed
              rw [hinit]
              simp only [hok]
              exact ⟨hfailed, rfl⟩
            · exact absurd (initializeDbs_ok hbody).1 (by simp)
            · refine .inr (.inr ?_)
              have henv := (initializeDbs_ok hbody).2
              rw [ht] at henv
              simp only [resized] at hinit henv ⊢
              rw [hinit, henv]
              exact ⟨rfl, by simpa using hclosed, rfl⟩

end LmdbStore

end ServerStorage.Muninn
