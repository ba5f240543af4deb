/-
# `ServerStorage.Muninn.StoreTwin` — the store's methods on two stores that are alike

The two stores differ in the acks of some hidden consumers and in nothing else.  Every
method that asks for none of these acks returns the same on both and leaves them alike,
whatever faults come; registering a hidden consumer does too, since it asks only whether
an ack is there.
-/
import ServerStorage.Lib.Twin
import ServerStorage.Muninn.Processor
import ServerStorage.Muninn.StoreSpec

namespace ServerStorage.Muninn

open Lib Lmdb Dbi Crud

variable {hidden : Str → Prop}

/-- Environments that differ in the acks of hidden consumers. -/
abbrev Acks (hidden : Str → Prop) : Env Dbi → Env Dbi → Prop :=
  Env.Paired transportConsumersDbi hidden

structure StoresAlike (hidden : Str → Prop) (store store' : LmdbStore) : Prop where
  isOpen : store.isOpen = store'.isOpen
  env : Acks hidden store.env store'.env

/-- The computation does the same on both. -/
def Steady (hidden : Str → Prop) {α : Type} (m : StoreM α) : Prop := Twin (Acks hidden) Eq m m

/-! ## Inside a transaction -/

theorem steady_callAs (what : String) : Steady hidden (callAs what) := .mapError .call

theorem steady_putBlob (dbi : Dbi) (key value : Str) : Steady hidden (putBlob dbi key value) := by
  refine .mapError (.mdbPut rfl ?_)
  split
  · exact .refl _
  · rfl

theorem steady_getBlobAs {what : String} {dbi : Dbi} {key : Str}
    (hkey : dbi = transportConsumersDbi → ¬ hidden key) : Steady hidden (getBlobAs what dbi key) :=
  .mapError (.mdbGet hkey)

theorem steady_readNextSequence : Steady hidden readNextSequence := by
  refine .step (steady_getBlobAs nofun) fun found => ?_
  cases found with
  | none => exact .pure rfl
  | some value => exact .failIf .rfl fun _ => .pure rfl

theorem steady_enqueueTransportRecordInTxn (type : TransportRecordType)
    (routingKey payload : Str) (createdAt : UInt64) :
    Steady hidden (enqueueTransportRecordInTxn type routingKey payload createdAt) := by
  refine .step ?_ fun sequence => .step (steady_putBlob _ _ _) fun _ => .pure rfl
  exact .step steady_readNextSequence fun _ => .step (steady_putBlob _ _ _) fun _ => .pure rfl

theorem steady_readConsumerAckSequence {consumerId : Str} (hshown : ¬ hidden consumerId) :
    Steady hidden (readConsumerAckSequence consumerId) := by
  refine .failIf .rfl fun _ => .step (steady_getBlobAs fun _ => hshown) fun found => ?_
  cases found with
  | none => exact .pure rfl
  | some value => exact .failIf .rfl fun _ => .pure rfl

/-- Whether an ack is there is the same for every consumer. -/
theorem twin_readConsumerAckSequence (consumerId : Str) :
    Twin (Acks hidden) (fun ack ack' => ack.isSome = ack'.isSome)
      (readConsumerAckSequence consumerId) (readConsumerAckSequence consumerId) := by
  refine .failIf .rfl fun _ => .bind (.mapError (.mdbGet_length _)) fun found found' h => ?_
  cases found with
  | none =>
      cases found' with
      | none => exact .pure rfl
      | some value' => cases h
  | some value =>
      cases found' with
      | none => cases h
      | some value' => exact .failIf (by rw [Option.some.inj h]) fun _ => .pure rfl

theorem steady_writeConsumerAckSequence (consumerId : Str) (sequence : UInt64) :
    Steady hidden (writeConsumerAckSequence consumerId sequence) :=
  .failIf .rfl fun _ => steady_putBlob _ _ _

theorem steady_cursorOpen {what : String} {dbi : Dbi} (hdbi : dbi ≠ transportConsumersDbi) :
    Steady hidden (cursorOpen what dbi) :=
  .step (steady_callAs _) fun _ => .bind .readEnv fun _ _ h => .pure (h.1.others dbi hdbi)

theorem steady_deleteLoop {dbi : Dbi} (hdbi : dbi ≠ transportConsumersDbi) (size : Nat)
    (badSize openWhat getWhat delWhat : String) (drop : Str → Bool) :
    Steady hidden (deleteLoop dbi size badSize openWhat getWhat delWhat drop) := by
  refine .step (steady_cursorOpen hdbi) fun db =>
    .cursorLoop (steady_callAs _) (steady_callAs _) (fun removed key _ => ?_) _ _
  refine .failIf .rfl fun _ => ?_
  split
  · exact .step (.step (.mapError (.mdbDel hdbi key)) fun _ => .pure rfl) fun _ => .pure rfl
  · exact .pure rfl

namespace LmdbStore

theorem steady_enqueueIf (enqueueTransport : Bool) (type : TransportRecordType)
    (routingKey payload : Str) (createdAt : UInt64) :
    Steady hidden (enqueueIf enqueueTransport type routingKey payload createdAt) := by
  rw [enqueueIf]
  split
  · exact .step (steady_enqueueTransportRecordInTxn _ _ _ _) fun _ => .pure rfl
  · exact .pure rfl

theorem steady_fetchTxn {consumerId : Str} (hshown : ¬ hidden consumerId) (maxItems : Nat) :
    Steady hidden (fetchTxn consumerId maxItems) := by
  refine .step (steady_readConsumerAckSequence hshown) fun acked =>
    .step (steady_cursorOpen (by decide)) fun db => ?_
  split
  · exact .pure rfl
  · refine .step (.cursorLoop (steady_callAs _) (steady_callAs _) (fun records key value => ?_)
      _ _) fun _ => .pure rfl
    rw [fetchBody]
    split
    · exact .pure rfl
    · refine .failIf .rfl fun _ => ?_
      split
      · exact .throw _
      · exact .pure rfl

/-! ## Transactions -/

/-- Two results of a method that writes: the same answer, and stores alike. -/
structure Mirrors (hidden : Str → Prop) {α : Type} (r r' : StoreStatus × α × LmdbStore) :
    Prop where
  status : r.1 = r'.1
  answer : r.2.1 = r'.2.1
  store : StoresAlike hidden r.2.2 r'.2.2

theorem writeTxn_mirrors {α : Type} {store store' : LmdbStore} (h : StoresAlike hidden store store')
    {body body' : StoreM (Finish × α)} (hbody : Twin (Acks hidden) Eq body body')
    (io : List (Option Fault)) (label : String) :
    Mirrors hidden (store.writeTxn io label body) (store'.writeTxn io label body') := by
  have hrun : Twin (Acks hidden) Eq (do callAs "mdb_txn_begin"; body : StoreM (Finish × α))
      (do callAs "mdb_txn_begin"; body') := .step (steady_callAs _) fun _ => hbody
  have hends := hrun { env := store.env, faults := io } { env := store'.env, faults := io } h.env rfl
  rw [writeTxn, writeTxn]
  generalize (do callAs "mdb_txn_begin"; body : StoreM (Finish × α)).run
    { env := store.env, faults := io } = r at hends
  generalize (do callAs "mdb_txn_begin"; body' : StoreM (Finish × α)).run
    { env := store'.env, faults := io } = r' at hends
  cases hends with
  | error status => exact ⟨rfl, rfl, h⟩
  | @ok a _ t t' hresult henv hfaults =>
      subst hresult
      obtain ⟨finish, a⟩ := a
      cases finish with
      | abort => exact ⟨rfl, rfl, h⟩
      | commit =>
          have hcommit := @steady_callAs hidden ("mdb_txn_commit(" ++ label ++ ")") t t' henv hfaults
          dsimp only
          generalize (callAs ("mdb_txn_commit(" ++ label ++ ")")).run t = c at hcommit
          generalize (callAs ("mdb_txn_commit(" ++ label ++ ")")).run t' = c' at hcommit
          cases hcommit with
          | error status => exact ⟨rfl, rfl, h⟩
          | ok => exact ⟨rfl, rfl, h.isOpen, henv⟩

theorem answer_mirrors {α : Type} {r r' : StoreStatus × Option α × LmdbStore}
    (h : Mirrors hidden r r') (default : α) :
    Mirrors hidden (r.1, r.2.1.getD default, r.2.2) (r'.1, r'.2.1.getD default, r'.2.2) :=
  ⟨h.status, by rw [h.answer], h.store⟩

theorem readTxn_steady {α : Type} {store store' : LmdbStore} (h : StoresAlike hidden store store')
    {body : StoreM α} (hbody : Steady hidden body) (io : List (Option Fault)) :
    store.readTxn io body = store'.readTxn io body := by
  have hrun : Steady hidden (do callAs "mdb_txn_begin"; body : StoreM α) :=
    .step (steady_callAs _) fun _ => hbody
  have hends := hrun { env := store.env, faults := io } { env := store'.env, faults := io } h.env rfl
  rw [readTxn, readTxn, StateT.run'_eq, StateT.run'_eq]
  generalize (do callAs "mdb_txn_begin"; body : StoreM α).run
    { env := store.env, faults := io } = r at hends
  generalize (do callAs "mdb_txn_begin"; body : StoreM α).run
    { env := store'.env, faults := io } = r' at hends
  cases hends with
  | error e => rfl
  | ok hresult => exact congrArg Except.ok hresult

/-! ## Methods -/

/-- The same for a method that answers with its status alone. -/
structure Keeps (hidden : Str → Prop) (r r' : StoreStatus × LmdbStore) : Prop where
  status : r.1 = r'.1
  store : StoresAlike hidden r.2 r'.2

section
variable {store store' : LmdbStore} (h : StoresAlike hidden store store')
include h

theorem committing_keeps {body body' : StoreM (Finish × Unit)}
    (hbody : Twin (Acks hidden) Eq body body') (io : List (Option Fault)) (label : String) :
    Keeps hidden (store.committing io label body) (store'.committing io label body') := by
  have hmirrors := writeTxn_mirrors h hbody io label
  exact ⟨hmirrors.status, hmirrors.store⟩

/-- A method refused before it opens a transaction. -/
theorem keeps_refused (status : StoreStatus) : Keeps hidden (status, store) (status, store') :=
  ⟨rfl, h⟩

theorem prepared_keeps {α : Type} {prepare prepare' : Except StoreStatus α}
    {write write' : α → StoreStatus × LmdbStore} (hprepare : prepare = prepare')
    (hwrite : ∀ a, Keeps hidden (write a) (write' a)) :
    Keeps hidden (store.prepared prepare write) (store'.prepared prepare' write') := by
  subst hprepare
  cases prepare with
  | error status => exact keeps_refused h status
  | ok a => exact hwrite a

theorem putSnapshotWithTransport_keeps (snapshot : Snapshot) (enqueue validate : Bool)
    (clock : Clock) (io : List (Option Fault)) :
    Keeps hidden (store.putSnapshotWithTransport snapshot enqueue validate clock io)
      (store'.putSnapshotWithTransport snapshot enqueue validate clock io) := by
  refine prepared_keeps h (by rw [h.isOpen]) fun payload => committing_keeps h ?_ _ _
  exact .step (steady_putBlob _ _ _) fun _ => .step (steady_enqueueIf _ _ _ _ _) fun _ => .pure rfl

theorem putSnapshotAndDelta_keeps (snapshot : Snapshot) (delta : DeltaSnapshot)
    (base : Option Snapshot) (enqueue validate : Bool) (clock : Clock)
    (io : List (Option Fault)) :
    Keeps hidden
      (store.putSnapshotAndDeltaWithTransport snapshot delta base enqueue validate clock io)
      (store'.putSnapshotAndDeltaWithTransport snapshot delta base enqueue validate clock io) := by
  refine prepared_keeps h (by rw [h.isOpen]) fun payloads => committing_keeps h ?_ _ _
  exact .step (steady_putBlob _ _ _) fun _ => .step (steady_putBlob _ _ _) fun _ =>
    .step (steady_enqueueIf _ _ _ _ _) fun _ => .step (steady_enqueueIf _ _ _ _ _) fun _ =>
      .pure rfl

theorem getSnapshot_same (snapshotId : SnapshotId) (validate : Bool) (now : UnixTimestamp)
    (io : List (Option Fault)) :
    store.getSnapshot snapshotId validate now io = store'.getSnapshot snapshotId validate now io := by
  have hbody : Steady hidden (do
      let found ← getBlobAs "mdb_get" snapshotsDbi (encodeU64Be snapshotId)
      found.elim (throw recordNotFound) pure) := by
    refine .step (steady_getBlobAs nofun) fun found => ?_
    cases found with
    | none => exact .throw _
    | some payload => exact .pure rfl
  rw [getSnapshot, getSnapshot, h.isOpen, readTxn_steady h hbody]

theorem registerTransportConsumer_keeps (consumerId : Str) (io : List (Option Fault)) :
    Keeps hidden (store.registerTransportConsumer consumerId io)
      (store'.registerTransportConsumer consumerId io) := by
  rw [registerTransportConsumer, registerTransportConsumer, h.isOpen]
  split
  · exact keeps_refused h _
  · split
    · exact keeps_refused h _
    · refine committing_keeps h (.bind (twin_readConsumerAckSequence _) fun ack ack' hsome => ?_) _ _
      cases ack with
      | none =>
          cases ack' with
          | none => exact .step (steady_writeConsumerAckSequence _ _) fun _ => .pure rfl
          | some _ => cases hsome
      | some _ =>
          cases ack' with
          | none => cases hsome
          | some _ => exact .pure rfl

theorem ackTransportUntil_keeps {consumerId : Str} (hshown : ¬ hidden consumerId)
    (sequence : UInt64) (io : List (Option Fault)) :
    Keeps hidden (store.ackTransportUntilForConsumer consumerId sequence io)
      (store'.ackTransportUntilForConsumer consumerId sequence io) := by
  rw [ackTransportUntilForConsumer, ackTransportUntilForConsumer, h.isOpen]
  split
  · exact keeps_refused h _
  · split
    · exact keeps_refused h _
    · refine committing_keeps h (.step (steady_readConsumerAckSequence hshown) fun ack => ?_) _ _
      dsimp only
      split
      · exact .step (steady_writeConsumerAckSequence _ _) fun _ => .pure rfl
      · exact .pure rfl

theorem fetchTransportBatch_same {consumerId : Str} (hshown : ¬ hidden consumerId)
    (maxItems : Nat) (io : List (Option Fault)) :
    store.fetchTransportBatchForConsumer consumerId maxItems io =
      store'.fetchTransportBatchForConsumer consumerId maxItems io := by
  rw [fetchTransportBatchForConsumer, fetchTransportBatchForConsumer, h.isOpen,
    readTxn_steady h (steady_fetchTxn hshown maxItems)]

theorem deleteSnapshot_mirrors (snapshotId : SnapshotId) (io : List (Option Fault)) :
    Mirrors hidden (store.deleteSnapshot snapshotId io) (store'.deleteSnapshot snapshotId io) := by
  rw [deleteSnapshot, deleteSnapshot, h.isOpen]
  split
  · exact ⟨rfl, rfl, h⟩
  · split
    · exact ⟨rfl, rfl, h⟩
    · refine answer_mirrors (writeTxn_mirrors h ?_ _ _) _
      refine .step (.mapError (.mdbDel (by decide) _)) fun found => .failIf .rfl fun _ => ?_
      exact .step (steady_deleteLoop (by decide) _ _ _ _ _ _) fun _ => .pure rfl

theorem applySnapshotRetention_mirrors (keep : Nat) (io : List (Option Fault)) :
    Mirrors hidden (store.applySnapshotRetention keep io)
      (store'.applySnapshotRetention keep io) := by
  rw [applySnapshotRetention, applySnapshotRetention, h.isOpen]
  split
  · exact ⟨rfl, rfl, h⟩
  · refine answer_mirrors (writeTxn_mirrors h (.step (steady_cursorOpen (by decide)) fun db =>
      .step (.cursorLoop (steady_callAs _) (steady_callAs _) (fun items key value => ?_) _ _)
        fun items => ?_) _ _) _
    · refine .failIf .rfl fun _ => ?_
      split
      · exact .throw _
      · exact .pure rfl
    · split
      · exact .pure rfl
      · exact .step (steady_deleteLoop (by decide) _ _ _ _ _ _) fun _ =>
          .step (steady_deleteLoop (by decide) _ _ _ _ _ _) fun _ => .pure rfl

end

end LmdbStore

/-! ## The acks of a hidden consumer -/

/-- The consumer has an ack on record. -/
def Registered (env : Env Dbi) (consumerId : Str) : Prop :=
  ∃ v, (env.db transportConsumersDbi).get consumerId = some v ∧ v.length = 8

theorem StoresAlike.refl {store : LmdbStore} (hfits : store.env.Fits) :
    StoresAlike hidden store store := ⟨rfl, .refl _, hfits⟩

theorem StoresAlike.symm {store store' : LmdbStore} (h : StoresAlike hidden store store') :
    StoresAlike hidden store' store := ⟨h.isOpen.symm, h.env.symm⟩

theorem StoresAlike.trans {store store' store'' : LmdbStore}
    (h : StoresAlike hidden store store') (h' : StoresAlike hidden store' store'') :
    StoresAlike hidden store store'' := ⟨h.isOpen.trans h'.isOpen, h.env.trans h'.env⟩

theorem Registered.alike {env env' : Env Dbi} {consumerId : Str} (h : Registered env consumerId)
    (halike : Acks hidden env env') : Registered env' consumerId := by
  obtain ⟨v, hv, hlength⟩ := h
  have hget := (halike.1.get consumerId).1
  rw [hv, Option.map_some, eq_comm, Option.map_eq_some_iff] at hget
  obtain ⟨v', hv', hlength'⟩ := hget
  exact ⟨v', hv', hlength'.trans hlength⟩

namespace LmdbStore

section
variable {store : LmdbStore} {consumerId : Str}

/-- An ack, whatever comes of it, changes nothing but the consumer's own entry. -/
theorem ackTransportUntil_alike (hfits : store.env.Fits) (hhidden : hidden consumerId)
    (hregistered : Registered store.env consumerId) (sequence : UInt64)
    (io : List (Option Fault)) :
    StoresAlike hidden (store.ackTransportUntilForConsumer consumerId sequence io).2 store := by
  obtain ⟨v, hv, hlength⟩ := hregistered
  rcases ackTransportUntil_writes store consumerId sequence io with
    ⟨-, heq⟩ | ⟨-, -, env, ⟨-, ⟨_, -, -, rfl⟩ | ⟨-, rfl⟩⟩, heq⟩
  · rw [heq]
    exact .refl hfits
  · rw [heq]
    exact .refl hfits
  · rw [heq]
    exact ⟨rfl, .overwrite hfits hhidden hv (by rw [encodeU64Be_length, hlength])⟩

/-- Where no call fails, the ack of a registered consumer is stored. -/
theorem ackTransportUntil_nil (hopen : store.isOpen = true) (hid : consumerId ≠ [])
    (hfits : store.env.Fits) (hregistered : Registered store.env consumerId)
    (sequence : UInt64) :
    (store.ackTransportUntilForConsumer consumerId sequence []).1 = .success := by
  obtain ⟨v, hv, hlength⟩ := hregistered
  have hread : Runs (readConsumerAckSequence consumerId) store.env
      (storedAck store.env consumerId) store.env :=
    runs_readConsumerAckSequence hid fun w hw => by
      rw [← Option.some.inj (hv.symm.trans hw), hlength]
  have hwrite : ∀ ack, Runs (writeConsumerAckSequence consumerId ack) store.env ()
      (acked store.env consumerId ack) := by
    intro ack
    have hmem := Db.get_eq_some.mp hv
    have hsame : (acked store.env consumerId ack).Paired transportConsumersDbi (· = consumerId)
        store.env := .overwrite hfits rfl hv (by rw [encodeU64Be_length, hlength])
    refine .bind (.failIf _ hid) (.mapError (.mdbPut _ ⟨hid, hfits.keys _ _ hmem, ?_⟩ ?_))
    · rw [encodeU64Be_length]
      decide
    · exact hsame.2.bytes
  rw [ackTransportUntilForConsumer, hopen, if_neg (by decide), if_neg hid]
  by_cases hraises : (storedAck store.env consumerId).isNone ||
      max ((storedAck store.env consumerId).getD 0) sequence !=
        (storedAck store.env consumerId).getD 0
  · refine writeTxn_nil .commit () (acked store.env consumerId
      (max ((storedAck store.env consumerId).getD 0) sequence)) (.bind hread ?_)
    dsimp only
    rw [if_pos hraises]
    exact .bind (hwrite _) (.pure _ _)
  · refine writeTxn_nil .abort () store.env (.bind hread ?_)
    dsimp only
    rw [if_neg hraises]
    exact .pure _ _

/-- So both stores accept it, or refuse it, alike. -/
theorem ackTransportUntil_hidden {store' : LmdbStore} (h : StoresAlike hidden store store')
    (hhidden : hidden consumerId) (hregistered : Registered store.env consumerId)
    (sequence : UInt64) :
    Keeps hidden (store.ackTransportUntilForConsumer consumerId sequence [])
      (store'.ackTransportUntilForConsumer consumerId sequence []) := by
  have hregistered' := hregistered.alike h.env
  have hfits' := h.env.2.of_alike h.env.1
  refine ⟨?_, ((ackTransportUntil_alike h.env.2 hhidden hregistered _ _).trans h).trans
    (ackTransportUntil_alike hfits' hhidden hregistered' _ _).symm⟩
  cases hopen : store.isOpen with
  | false =>
      rw [ackTransportUntilForConsumer, ackTransportUntilForConsumer, ← h.isOpen, hopen]
      rfl
  | true =>
      by_cases hid : consumerId = []
      · rw [ackTransportUntilForConsumer, ackTransportUntilForConsumer, ← h.isOpen, hopen, hid]
        rfl
      · rw [ackTransportUntil_nil hopen hid h.env.2 hregistered,
          ackTransportUntil_nil (h.isOpen ▸ hopen) hid hfits' hregistered']

/-- An ack that is read has eight bytes. -/
theorem readConsumerAckSequence_length {t t' : Txn Dbi} {ack : Option UInt64}
    (h : (readConsumerAckSequence consumerId).run t = .ok (ack, t')) {v : Str}
    (hv : (t.env.db transportConsumersDbi).get consumerId = some v) : v.length = 8 := by
  obtain ⟨_, t₁, hempty, h⟩ := run_bind_ok.mp h
  obtain ⟨-, rfl⟩ := run_failIf_ok.mp hempty
  obtain ⟨found, t₂, hget, h⟩ := run_bind_ok.mp h
  obtain ⟨rfl, -⟩ := mdbGet_ok (run_mapError_ok.mp hget)
  rw [hv] at h
  obtain ⟨_, t₃, hfail, -⟩ := run_bind_ok.mp h
  exact not_not.mp (run_failIf_ok.mp hfail).1

theorem registered_acked (env : Env Dbi) (consumerId : Str) (ack : UInt64) :
    Registered (acked env consumerId ack) consumerId := by
  refine ⟨encodeU64Be ack, ?_, encodeU64Be_length _⟩
  rw [acked, Env.set_db_self, Db.get_put, if_pos rfl]

/-- A consumer that could register is on record. -/
theorem registerTransportConsumer_registered (store : LmdbStore) (consumerId : Str)
    (io : List (Option Fault)) :
    store.Writes (store.registerTransportConsumer consumerId io) fun env =>
      Registered env consumerId := by
  rw [registerTransportConsumer]
  cases hopen : store.isOpen with
  | false => exact writes_notOpen _ _
  | true =>
      by_cases hempty : consumerId = []
      · simp only [hempty, if_true]
        exact .inl ⟨failed_emptyConsumer, rfl⟩
      · simp only [hempty, if_false]
        refine writes_of_txn hopen ?_ ?_ ?_
        · refine .bind (raises_readConsumerAckSequence _) fun stored => ?_
          cases stored with
          | none => exact .bind (raises_writeConsumerAckSequence _ _) fun _ => .pure _
          | some _ => exact .pure _
        · intro a t t' _ h
          obtain ⟨stored, t₁, -, h⟩ := run_bind_ok.mp h
          cases stored with
          | none =>
              obtain ⟨_, t₂, hwrite, h⟩ := run_bind_ok.mp h
              obtain ⟨-, rfl⟩ := run_commit_ok h
              rw [(writeConsumerAckSequence_ok hwrite).1]
              exact registered_acked _ _ _
          | some ack => exact absurd (run_pure_ok.mp h).1 (by simp)
        · intro a t t' ht h
          obtain ⟨stored, t₁, hread, h⟩ := run_bind_ok.mp h
          cases stored with
          | none =>
              obtain ⟨_, t₂, _, h⟩ := run_bind_ok.mp h
              exact absurd (run_pure_ok.mp h).1 (by simp)
          | some ack =>
              have hstored := (readConsumerAckSequence_ok hread).1
              obtain ⟨v, hv, -⟩ := Option.map_eq_some_iff.mp hstored.symm
              exact ⟨v, ht ▸ hv, readConsumerAckSequence_length hread hv⟩

end

end LmdbStore

/-! ## Commands -/

namespace IndexingPipeline

variable {store store' : LmdbStore}

theorem captureSnapshot_alike (h : StoresAlike hidden store store') (rawScan : RawScanResult)
    (enqueue : Bool) (io : CaptureIo) :
    Option.Rel (fun r r' => r.1 = r'.1 ∧ StoresAlike hidden r.2 r'.2)
      (captureSnapshot store rawScan enqueue io) (captureSnapshot store' rawScan enqueue io) := by
  rw [captureSnapshot, captureSnapshot]
  cases scanned rawScan io.scanned with
  | none => exact .none
  | some result =>
      refine .some ?_
      rw [storeSnapshot, storeSnapshot]
      split
      · exact ⟨rfl, h⟩
      · have hput := LmdbStore.putSnapshotWithTransport_keeps h result.snapshotBuild.snapshot
          enqueue false io.clock io.writeFaults
        dsimp only
        rw [hput.status]
        split
        · exact ⟨rfl, hput.store⟩
        · exact ⟨rfl, hput.store⟩

theorem captureSnapshotAndDelta_alike (h : StoresAlike hidden store store')
    (rawScan : RawScanResult) (baseSnapshotId : SnapshotId) (enqueue : Bool) (io : CaptureIo) :
    Option.Rel (fun r r' => r.1 = r'.1 ∧ StoresAlike hidden r.2 r'.2)
      (captureSnapshotAndDelta store rawScan baseSnapshotId enqueue io)
      (captureSnapshotAndDelta store' rawScan baseSnapshotId enqueue io) := by
  rw [captureSnapshotAndDelta, captureSnapshotAndDelta]
  cases scanned rawScan io.scanned with
  | none => exact .none
  | some result =>
      refine .some ?_
      have hplan : basedOn store result baseSnapshotId enqueue io =
          basedOn store' result baseSnapshotId enqueue io := by
        rw [basedOn, basedOn, LmdbStore.getSnapshot_same h]
      rw [hplan]
      cases basedOn store' result baseSnapshotId enqueue io with
      | done result => exact ⟨rfl, h⟩
      | put result base delta =>
        have hput := LmdbStore.putSnapshotAndDelta_keeps h result.snapshotBuild.snapshot delta
          (some base) enqueue false io.clock io.writeFaults
        simp only [storeUpdate]
        rw [hput.status]
        split
        · exact ⟨rfl, hput.store⟩
        · exact ⟨rfl, hput.store⟩

end IndexingPipeline

namespace CrudCommandProcessor

/-- The results of a command: the same, unless the consumer is hidden. -/
structure Answers (hidden : Str → Prop) (consumerId : Str)
    (r r' : Option CrudResultMessage × LmdbStore) : Prop where
  result : ¬ hidden consumerId → r.1 = r'.1
  store : StoresAlike hidden r.2 r'.2

section
variable {store store' : LmdbStore} (h : StoresAlike hidden store store')
  (options : CrudServerOptions) (scan : Str → RawScanResult) (command : CrudCommandMessage)
  (consumerId : Str) (io : CommandIo)
include h

theorem withBatch_answers (result : CrudResultMessage) (message : String) :
    Answers hidden consumerId
      (withBatch options store command consumerId io result message, store)
      (withBatch options store' command consumerId io result message, store') := by
  refine ⟨fun hshown => ?_, h⟩
  dsimp only
  rw [withBatch, withBatch, appendTransportRecords, appendTransportRecords,
    LmdbStore.fetchTransportBatch_same h hshown]

theorem finishCapture_answers (failed result : CrudResultMessage) (message : String) :
    Answers hidden consumerId
      (finishCapture options store command consumerId io failed result message)
      (finishCapture options store' command consumerId io failed result message) := by
  have hretain : LmdbStore.Keeps hidden (retain options store io) (retain options store' io) := by
    rw [retain, retain]
    split
    · have hmirrors := LmdbStore.applySnapshotRetention_mirrors h
        options.retentionKeepLatestSnapshots io.retention
      exact ⟨hmirrors.status, hmirrors.store⟩
    · exact ⟨rfl, h⟩
  rw [finishCapture, finishCapture]
  dsimp only
  rw [hretain.status]
  split
  · exact ⟨fun _ => rfl, hretain.store⟩
  · exact withBatch_answers hretain.store options command consumerId io result message

theorem delete_answers (result : CrudResultMessage) :
    Answers hidden consumerId (delete store command io result)
      (delete store' command io result) := by
  rw [delete, delete]
  split
  · exact ⟨fun _ => rfl, h⟩
  · have hmirrors := LmdbStore.deleteSnapshot_mirrors h command.snapshotId io.delete
    dsimp only
    rw [hmirrors.status]
    split
    · exact ⟨fun _ => rfl, hmirrors.store⟩
    · exact ⟨fun _ => rfl, hmirrors.store⟩

theorem create_answers (result : CrudResultMessage) :
    Option.Rel (Answers hidden consumerId)
      (create options scan store command consumerId io result)
      (create options scan store' command consumerId io result) := by
  rw [create, create]
  split
  · exact .some ⟨fun _ => rfl, h⟩
  next rootPath _ =>
    have hcapture := IndexingPipeline.captureSnapshot_alike h (scan rootPath) true io.capture
    generalize IndexingPipeline.captureSnapshot store (scan rootPath) true io.capture = r at hcapture
    generalize IndexingPipeline.captureSnapshot store' (scan rootPath) true io.capture = r'
      at hcapture
    cases hcapture with
    | none => exact .none
    | @some a b hab =>
        obtain ⟨pipeline, next⟩ := a
        obtain ⟨pipeline', next'⟩ := b
        obtain ⟨rfl, hnext⟩ := hab
        simp only [Option.bind_eq_bind, Option.bind_some]
        split
        · exact .some ⟨fun _ => rfl, hnext⟩
        · exact .some (finishCapture_answers hnext options command consumerId io _ _ _)

theorem update_answers (result : CrudResultMessage) :
    Option.Rel (Answers hidden consumerId)
      (update options scan store command consumerId io result)
      (update options scan store' command consumerId io result) := by
  rw [update, update]
  split
  · exact .some ⟨fun _ => rfl, h⟩
  next rootPath _ =>
    split
    · exact .some ⟨fun _ => rfl, h⟩
    · have hcapture := IndexingPipeline.captureSnapshotAndDelta_alike h (scan rootPath)
        (updateBase command) true io.capture
      generalize IndexingPipeline.captureSnapshotAndDelta store (scan rootPath)
        (updateBase command) true io.capture = r at hcapture
      generalize IndexingPipeline.captureSnapshotAndDelta store' (scan rootPath)
        (updateBase command) true io.capture = r' at hcapture
      cases hcapture with
      | none => exact .none
      | @some a b hab =>
          obtain ⟨pipeline, next⟩ := a
          obtain ⟨pipeline', next'⟩ := b
          obtain ⟨rfl, hnext⟩ := hab
          simp only [Option.bind_eq_bind, Option.bind_some]
          split
          · exact .some ⟨fun _ => rfl, hnext⟩
          · exact .some (finishCapture_answers hnext options command consumerId io _ _ _)

theorem operate_answers (result : CrudResultMessage) :
    Option.Rel (Answers hidden consumerId)
      (operate options scan store command consumerId io result)
      (operate options scan store' command consumerId io result) := by
  rw [operate, operate]
  cases command.operation with
  | read => exact .some (withBatch_answers h options command consumerId io result "ok")
  | create => exact create_answers h options scan command consumerId io result
  | update => exact update_answers h options scan command consumerId io result
  | delete => exact .some (delete_answers h command consumerId io result)

theorem ackOf_shown (hshown : ¬ hidden consumerId) :
    LmdbStore.Keeps hidden (ackOf store command consumerId io)
      (ackOf store' command consumerId io) := by
  rw [ackOf, ackOf]
  split
  · exact LmdbStore.ackTransportUntil_keeps h hshown _ _
  · exact ⟨rfl, h⟩

theorem ackOf_hidden (hhidden : hidden consumerId) (hregistered : Registered store.env consumerId)
    (hio : io.ack = []) :
    LmdbStore.Keeps hidden (ackOf store command consumerId io)
      (ackOf store' command consumerId io) := by
  rw [ackOf, ackOf, hio]
  split
  · exact LmdbStore.ackTransportUntil_hidden h hhidden hregistered _
  · exact ⟨rfl, h⟩

omit h in
/-- A command whose ack the stores take alike. -/
theorem process_answers
    (hack : LmdbStore.Keeps hidden (ackOf store command consumerId io)
      (ackOf store' command consumerId io)) :
    Option.Rel (Answers hidden consumerId)
      (process options scan store command consumerId io)
      (process options scan store' command consumerId io) := by
  rw [process, process]
  dsimp only
  rw [hack.status]
  split
  · exact .some ⟨fun _ => rfl, hack.store⟩
  · split
    · exact .some ⟨fun _ => rfl, hack.store⟩
    · exact operate_answers hack.store options scan command consumerId io _

end

end CrudCommandProcessor

end ServerStorage.Muninn
