/-
# `ServerStorage.Muninn.Wording` — where a command has text to answer with

What the store says is ASCII and the rest are literals, so all that an answer can have that
is no UTF-8 is a routing key: one found in the outbox, or the host of a capture.
-/
import ServerStorage.Muninn.BuilderSpec
import ServerStorage.Muninn.CommandSpec
import ServerStorage.Muninn.Outbox
import ServerStorage.Muninn.StoreTwin
import ServerStorage.Shared.CrudSpec

namespace ServerStorage.Muninn

open Lib Lmdb Dbi LmdbStore Crud

theorem utf8_text (t : Text) : Json.validUtf8 t.bytes = true := validUtf8_ascii t.ascii

/-! ## The first records pending -/

/-- The routing keys of the records that can be read are UTF-8. -/
def Worded (entries : List (Str × Str)) : Prop :=
  ∀ e ∈ entries, ∀ record, parseFrame (decodeU64Be e.1) e.2 = .ok record →
    Json.validUtf8 record.routingKey = true

theorem worded_iff {entries : List (Str × Str)} {records : List TransportRecord}
    (h : ReadAs entries records) :
    Worded entries ↔ ∀ record ∈ records, Json.validUtf8 record.routingKey = true := by
  constructor
  · intro hworded record hmem
    obtain ⟨e, he, -, hparse⟩ := h.source hmem
    exact hworded e he record hparse
  · intro hutf8
    induction h with
    | nil => exact fun e he => absurd he List.not_mem_nil
    | cons hread _ ih =>
        obtain ⟨hfirst, hrest⟩ := List.forall_mem_cons.mp hutf8
        intro e he record hparse
        rcases List.mem_cons.mp he with rfl | he
        · obtain rfl := Except.ok.inj (hread.2.symm.trans hparse)
          exact hfirst
        · exact ih hrest e he record hparse

section
variable {k v : Str} {x : Str × Str}

/-- A pair more pushes others out of the first ones, and brings only itself in. -/
theorem mem_take_insertEntry {l : List (Str × Str)} {n : Nat}
    (h : x ∈ (insertEntry k v l).take n) : x = (k, v) ∨ x ∈ l.take n := by
  induction l generalizing n with
  | nil => exact .inl (List.mem_singleton.mp (List.mem_of_mem_take h))
  | cons e rest ih =>
      cases n with
      | zero =>
          rw [List.take_zero] at h
          exact absurd h List.not_mem_nil
      | succ n =>
      rw [insertEntry] at h
      split at h
      · rw [List.take_succ_cons, List.mem_cons] at h
        exact h.imp_right fun h => List.take_subset_take_left _ (Nat.le_succ n) h
      split at h
      · rw [List.take_succ_cons, List.mem_cons] at h
        exact h.imp_right fun h => List.mem_cons_of_mem _ h
      · rw [List.take_succ_cons, List.mem_cons] at h
        rcases h with rfl | h
        · exact .inr List.mem_cons_self
        · exact (ih h).imp_right fun h => List.mem_cons_of_mem _ h

/-- So it is behind a key from which a cursor starts. -/
theorem mem_take_seek_insertEntry {key : Str} {l : List (Str × Str)} {n : Nat}
    (h : x ∈ ((insertEntry k v l).dropWhile fun e => e.1 < key).take n) :
    x = (k, v) ∨ x ∈ (l.dropWhile fun e => e.1 < key).take n := by
  have hskip : ∀ (e : Str × Str) (l : List (Str × Str)), e.1 < key →
      (e :: l).dropWhile (fun e => e.1 < key) = l.dropWhile fun e => e.1 < key :=
    fun e l he => List.dropWhile_cons_of_pos (decide_eq_true he)
  have hstop : ∀ (e : Str × Str) (l : List (Str × Str)), ¬ e.1 < key →
      (e :: l).dropWhile (fun e => e.1 < key) = e :: l :=
    fun e l he => List.dropWhile_cons_of_neg (by simpa using he)
  induction l with
  | nil =>
      have hmem := (List.dropWhile_sublist _).subset (List.mem_of_mem_take h)
      exact .inl (List.mem_singleton.mp hmem)
  | cons e rest ih =>
      by_cases he : e.1 < key
      · rw [hskip e rest he]
        rw [insertEntry] at h
        split at h
        next hk =>
          rw [hskip (k, v) _ (hk.trans he), hskip e rest he] at h
          exact .inr h
        split at h
        next hk =>
          rw [hskip (k, v) _ (hk ▸ he)] at h
          exact .inr h
        next =>
          rw [hskip e _ he] at h
          exact ih h
      · rw [hstop e rest he]
        by_cases hk : k < key
        · rw [insertEntry, if_pos (hk.trans_le (not_lt.mp he)), hskip (k, v) _ hk,
            hstop e rest he] at h
          exact .inr h
        · have hwhole : (insertEntry k v (e :: rest)).dropWhile (fun e => e.1 < key) =
              insertEntry k v (e :: rest) := by
            rw [insertEntry]
            split
            · exact hstop _ _ hk
            split
            · exact hstop _ _ hk
            · exact hstop _ _ he
          rw [hwhole] at h
          exact mem_take_insertEntry h

end

/-- The first records pending stay worded, for every consumer. -/
def KeepsWorded (env env' : Env Dbi) : Prop :=
  ∀ c n, Worded ((pending env c).take n) → Worded ((pending env' c).take n)

section
variable {env env' env'' : Env Dbi}

theorem KeepsWorded.refl : KeepsWorded env env := fun _ _ h => h

theorem KeepsWorded.trans (h : KeepsWorded env env') (h' : KeepsWorded env' env'') :
    KeepsWorded env env'' :=
  fun c n hworded => h' c n (h c n hworded)

theorem SameTransport.keepsWorded (h : SameTransport env env') : KeepsWorded env env' := by
  intro c n hworded
  rw [pending, h.2.1, storedAck_congr h.2.2]
  exact hworded

theorem keepsWorded_enqueued {type : TransportRecordType} {routingKey payload : Str}
    {createdAt : UInt64} (hutf8 : Json.validUtf8 routingKey = true)
    (hsize : (serializeFrame type routingKey payload createdAt).length ≤ maxDataSize) :
    KeepsWorded env (enqueued env (serializeFrame type routingKey payload createdAt)) := by
  intro c n hworded x hx record hparse
  set key := encodeU64Be (nextSequenceOf env)
  set frame := serializeFrame type routingKey payload createdAt
  have hmem : x = (key, frame) ∨ x ∈ (pending env c).take n := by
    have hput : ((enqueued env frame).db transportDbi).entries =
        insertEntry key frame (env.db transportDbi).entries := by
      rw [enqueued, Env.set_db_self]
      rfl
    rw [pending, storedAck_congr (consumers_enqueued env frame), pendingRange] at hx
    rw [pending, pendingRange]
    split at hx
    next hzero =>
      rw [if_pos hzero]
      rw [hput] at hx
      exact mem_take_insertEntry hx
    next hpos =>
      rw [if_neg hpos]
      rw [Db.seek, hput] at hx
      exact mem_take_seek_insertEntry hx
  rcases hmem with rfl | hmem
  · rw [parseFrame_serializeFrame hsize] at hparse
    obtain rfl := Except.ok.inj hparse
    exact hutf8
  · exact hworded x hmem record hparse

theorem keepsWorded_enqueuedIf {enqueue : Bool} {type : TransportRecordType}
    {routingKey payload : Str} {createdAt : UInt64} (hutf8 : Json.validUtf8 routingKey = true)
    (hsize : enqueue = true →
      (serializeFrame type routingKey payload createdAt).length ≤ maxDataSize) :
    KeepsWorded env (enqueuedIf enqueue env (serializeFrame type routingKey payload createdAt)) := by
  rw [enqueuedIf]
  split
  next henqueue => exact keepsWorded_enqueued hutf8 (hsize henqueue)
  next => exact .refl

theorem utf8_deltaRoute (delta : DeltaSnapshot) : Json.validUtf8 (deltaRoute delta) = true := by
  refine validUtf8_ascii fun b hb => ?_
  rw [deltaRoute, List.mem_append, List.mem_append] at hb
  rcases hb with (hb | hb) | hb
  · exact ascii_decimal _ b hb
  · exact ascii_sevenBit ['-', '>'] b hb
  · exact ascii_decimal _ b hb

end

/-! ## Captures -/

section
variable {store store' : LmdbStore} {rawScan : RawScanResult} {pipeline : PipelineResult}
  {baseSnapshotId : SnapshotId} {enqueue : Bool} {io : CaptureIo}

theorem Writes.keepsWorded {result : StoreStatus × LmdbStore} {next : Env Dbi → Prop}
    (h : store.Writes result next) (hnext : ∀ env, next env → KeepsWorded store.env env) :
    KeepsWorded store.env result.2.env := by
  rcases h with ⟨-, heq⟩ | ⟨-, -, env, henv, heq⟩
  · rw [heq]
    exact .refl
  · rw [heq]
    exact hnext env henv

theorem captureSnapshot_keepsWorded (hutf8 : Json.validUtf8 rawScan.hostIdentifier = true)
    (h : IndexingPipeline.captureSnapshot store rawScan enqueue io = some (pipeline, store')) :
    KeepsWorded store.env store'.env := by
  obtain ⟨result, hscan, h⟩ := Option.bind_eq_some_iff.mp h
  obtain ⟨built, hbuilt, hmade⟩ := Option.bind_eq_some_iff.mp hscan
  obtain rfl := Option.some.inj hmade
  obtain rfl := congrArg Prod.snd (Option.some.inj h)
  rw [IndexingPipeline.storeSnapshot]
  split
  · exact .refl
  · have hput : KeepsWorded store.env (store.putSnapshotWithTransport built.snapshot enqueue false
        io.clock io.writeFaults).2.env := by
      refine Writes.keepsWorded (putSnapshotWithTransport_writes store built.snapshot enqueue false
        io.clock io.writeFaults) fun env henv => ?_
      obtain ⟨payload, -, rfl, hsize⟩ := henv
      refine (sameTransport_withSnapshot _ _ _).keepsWorded.trans
        (keepsWorded_enqueuedIf ?_ hsize)
      rw [(SnapshotBuilder.build_header hbuilt).2.2]
      exact hutf8
    dsimp only
    split <;> exact hput

theorem captureSnapshotAndDelta_keepsWorded
    (hutf8 : Json.validUtf8 rawScan.hostIdentifier = true)
    (h : IndexingPipeline.captureSnapshotAndDelta store rawScan baseSnapshotId enqueue io =
      some (pipeline, store')) : KeepsWorded store.env store'.env := by
  obtain ⟨result, hscan, h⟩ := Option.bind_eq_some_iff.mp h
  obtain ⟨built, hbuilt, hmade⟩ := Option.bind_eq_some_iff.mp hscan
  have hfresh := IndexingPipeline.fresh_scanned hscan
  obtain rfl := Option.some.inj hmade
  obtain rfl := congrArg Prod.snd (Option.some.inj h)
  rcases IndexingPipeline.basedOn_cases store baseSnapshotId enqueue io hfresh with
    ⟨given, hplan, -⟩ | ⟨given, base, delta, hplan, -⟩ | ⟨given, base, hplan, -, -, -, hbuild, -⟩
  · rw [hplan]
    exact .refl
  · rw [hplan]
    exact .refl
  · rw [hplan, IndexingPipeline.storeUpdate, hbuild]
    have hput : KeepsWorded store.env (store.putSnapshotAndDeltaWithTransport built.snapshot
        (DeltaEngine.compute base built.snapshot) (some base) enqueue false io.clock
        io.writeFaults).2.env := by
      refine Writes.keepsWorded (putSnapshotAndDelta_writes store built.snapshot
        (DeltaEngine.compute base built.snapshot) (some base) enqueue false io.clock
        io.writeFaults) fun env henv => ?_
      obtain ⟨payload, deltaPayload, -, -, rfl, hsize⟩ := henv
      have hsame : SameTransport store.env (withCapture store.env built.snapshot
          (DeltaEngine.compute base built.snapshot) payload deltaPayload) :=
        (sameTransport_withSnapshot _ _ _).trans (sameTransport_withDelta _ _ _ _)
      refine (hsame.keepsWorded.trans (keepsWorded_enqueuedIf ?_ fun h => (hsize h).1)).trans
        (keepsWorded_enqueuedIf (utf8_deltaRoute _) fun h => (hsize h).2)
      rw [(SnapshotBuilder.build_header hbuilt).2.2]
      exact hutf8
    dsimp only
    split <;> exact hput

theorem retain_keepsWorded {options : CrudServerOptions} {io : CommandIo} :
    KeepsWorded store.env (CrudCommandProcessor.retain options store io).2.env := by
  rw [CrudCommandProcessor.retain]
  split
  · rcases applySnapshotRetention_writes store options.retentionKeepLatestSnapshots
      io.retention with ⟨-, heq⟩ | ⟨-, -, env, ⟨items, -, ⟨-, rfl⟩ | ⟨-, rfl⟩⟩, heq⟩
    · dsimp only
      rw [show (store.applySnapshotRetention _ _).2.2 = store from heq]
      exact .refl
    · dsimp only
      rw [show (store.applySnapshotRetention _ _).2.2 = _ from heq]
      exact .refl
    · dsimp only
      rw [show (store.applySnapshotRetention _ _).2.2 = _ from heq]
      exact ((sameTransport_set _ _ (.inl rfl)).trans
        (sameTransport_set _ _ (.inr rfl))).keepsWorded
  · exact .refl

end

/-! ## Commands -/

namespace CrudCommandProcessor

/-- The first records that a batch of the command is made of, behind what its ack leaves
acked. -/
def firstPending (options : CrudServerOptions) (env : Env Dbi) (consumerId : Str)
    (command : CrudCommandMessage) : List (Str × Str) :=
  (pendingRange (env.db transportDbi)
    (max ((storedAck env consumerId).getD 0) command.ackSequence)).take (batchSize options command)

/-- The capture of the command comes to an end, and has its host in UTF-8. -/
def Scannable (options : CrudServerOptions) (scan : Str → RawScanResult)
    (command : CrudCommandMessage) : Prop :=
  ∀ rootPath, resolveRootPath command.rootPath options = some rootPath →
    (SnapshotBuilder.build (scan rootPath)).isSome ∧
      Json.validUtf8 (scan rootPath).hostIdentifier = true

/-- The batch that the command asks for, where it may run, is one that a vector can hold and
that is UTF-8, unless a read does not come through it at all. -/
def Batchable (options : CrudServerOptions) (scan : Str → RawScanResult) (env : Env Dbi)
    (consumerId : Str) (command : CrudCommandMessage) : Prop :=
  match command.operation with
  | .read =>
      batchSize options command ≤ maxRecords ∧
        ((∃ records, ReadAs (firstPending options env consumerId command) records) →
          Worded (firstPending options env consumerId command))
  | .create | .update =>
      options.allowRemoteMutatingCommands = true →
        Scannable options scan command ∧ batchSize options command ≤ maxRecords ∧
          Worded (firstPending options env consumerId command)
  | .delete => True

/-- An answer that can be written out. -/
def Spoken (answer : Option CrudResultMessage) : Prop :=
  ∃ result, answer = some result ∧ Json.validUtf8 result.message = true ∧
    ∀ record ∈ result.records, Json.validUtf8 record.routingKey = true

variable {options : CrudServerOptions} {scan : Str → RawScanResult} {store store' : LmdbStore}
  {command : CrudCommandMessage} {consumerId : Str} {io : CommandIo}
  {failed result : CrudResultMessage} {answer : Option CrudResultMessage} {message : String}

theorem spoken_of_nil (hrecords : result.records = [])
    (hutf8 : Json.validUtf8 result.message = true) : Spoken (some result) := by
  refine ⟨result, rfl, hutf8, fun record hmem => ?_⟩
  rw [hrecords] at hmem
  exact absurd hmem List.not_mem_nil

theorem batchSize_pos : 1 ≤ batchSize options command := by
  rw [batchSize]
  split
  · exact le_max_left _ _
  next hne =>
    refine Nat.one_le_iff_ne_zero.mpr fun hzero => hne ?_
    have hsame : command.outboxBatchSize.toNat = (0 : UInt32).toNat := hzero
    exact UInt32.toNat_inj.mp hsame

theorem withBatch_spoken (hrecords : result.records = [])
    (hmessage : Json.validUtf8 (str message) = true)
    (hlimit : batchSize options command ≤ maxRecords)
    (hworded : ∀ records,
      ReadAs ((pending store.env consumerId).take (batchSize options command)) records →
        Worded ((pending store.env consumerId).take (batchSize options command))) :
    Spoken (withBatch options store command consumerId io result message) := by
  have hsize : max 1 (batchSize options command) = batchSize options command :=
    max_eq_right batchSize_pos
  rw [withBatch]
  cases hbatch : appendTransportRecords store consumerId (batchSize options command) io.fetch with
  | error status => exact spoken_of_nil hrecords (utf8_text _)
  | ok found =>
      cases found with
      | none =>
          obtain ⟨got, hfetch, hnone⟩ := except_bind_ok.mp hbatch
          obtain ⟨records, rfl⟩ := fetchTransportBatch_some (hsize.le.trans hlimit) hfetch
          cases hnone
      | some messages =>
          obtain ⟨records, hfetch, rfl⟩ := appendTransportRecords_ok hbatch
          have hread := fetchTransportBatch_ok hfetch
          rw [hsize] at hread
          refine ⟨_, rfl, hmessage, fun record hmem => ?_⟩
          obtain ⟨stored, hstored, rfl⟩ := List.mem_map.mp hmem
          exact (worded_iff hread).mp (hworded records hread) stored hstored

/-- What is pending once the ack of the command is stored. -/
theorem pending_ackOf (hok : (ackOf store command consumerId io).1.ok = true) :
    (pending (ackOf store command consumerId io).2.env consumerId).take
      (batchSize options command) = firstPending options store.env consumerId command := by
  rw [firstPending, pending]
  congr 2
  · rw [ackOf]
    split
    · rcases ackTransportUntil_writes store consumerId command.ackSequence io.ack with
        ⟨-, heq⟩ | ⟨-, -, env, ⟨-, ⟨_, -, -, rfl⟩ | ⟨-, rfl⟩⟩, heq⟩
      · rw [heq]
      · rw [heq]
      · rw [heq]
        exact Env.set_db_ne (by decide)
    · rfl
  · rw [ackOf] at hok ⊢
    split
    next hpos =>
      rw [if_pos hpos] at hok
      rcases ackTransportUntil_writes store consumerId command.ackSequence io.ack with
        ⟨hfailed, -⟩ | ⟨-, -, env, ⟨-, ⟨ack, hack, hle, rfl⟩ | ⟨-, rfl⟩⟩, heq⟩
      · exact absurd hok (Bool.eq_false_iff.mp hfailed)
      · rw [heq, hack]
        exact (max_eq_left hle).symm
      · rw [heq, storedAck_acked]
        rfl
    next hzero =>
      exact (max_eq_left (not_lt.mp fun h =>
        hzero ((UInt64.zero_le).trans_lt h))).symm

theorem finishCapture_spoken (hfailed : failed.records = []) (hrecords : result.records = [])
    (hmessage : Json.validUtf8 (str message) = true)
    (hlimit : batchSize options command ≤ maxRecords)
    (hworded : Worded ((pending store.env consumerId).take (batchSize options command))) :
    Spoken (finishCapture options store command consumerId io failed result message).1 := by
  rw [finishCapture]
  dsimp only
  split
  · exact spoken_of_nil hfailed (utf8_text _)
  · exact withBatch_spoken hrecords hmessage hlimit fun _ _ => retain_keepsWorded _ _ hworded

theorem utf8_pipelineErrorMessage (pipeline : PipelineResult) :
    Json.validUtf8 (pipelineErrorMessage pipeline) = true := by
  rw [pipelineErrorMessage]
  split
  · exact utf8_text _
  split
  · exact utf8_text _
  split
  · exact utf8_text _
  split
  · exact utf8_text _
  split
  · rfl
  split
  · rfl
  · rfl

section
variable (hscan : Scannable options scan command)
  (hrecords : result.records = []) (hlimit : batchSize options command ≤ maxRecords)
  (hworded : Worded ((pending store.env consumerId).take (batchSize options command)))
include hscan hrecords hlimit hworded

theorem create_spoken
    (h : create options scan store command consumerId io result = some (answer, store')) :
    Spoken answer := by
  rw [create] at h
  cases hroot : resolveRootPath command.rootPath options with
  | none =>
      rw [hroot] at h
      obtain ⟨rfl, -⟩ := Prod.mk.inj (Option.some.inj h)
      exact spoken_of_nil hrecords (by rfl)
  | some rootPath =>
      rw [hroot] at h
      obtain ⟨⟨pipeline, store₁⟩, hcapture, h⟩ := Option.bind_eq_some_iff.mp h
      dsimp only at h
      split at h
      · obtain ⟨rfl, -⟩ := Prod.mk.inj (Option.some.inj h)
        exact spoken_of_nil hrecords (utf8_pipelineErrorMessage pipeline)
      · obtain rfl : _ = answer := congrArg Prod.fst (Option.some.inj h)
        exact finishCapture_spoken hrecords hrecords (by rfl) hlimit
          (captureSnapshot_keepsWorded (hscan rootPath hroot).2 hcapture _ _ hworded)

theorem update_spoken
    (h : update options scan store command consumerId io result = some (answer, store')) :
    Spoken answer := by
  rw [update] at h
  cases hroot : resolveRootPath command.rootPath options with
  | none =>
      rw [hroot] at h
      obtain ⟨rfl, -⟩ := Prod.mk.inj (Option.some.inj h)
      exact spoken_of_nil hrecords (by rfl)
  | some rootPath =>
      rw [hroot] at h
      dsimp only at h
      split at h
      · obtain ⟨rfl, -⟩ := Prod.mk.inj (Option.some.inj h)
        exact spoken_of_nil hrecords (by rfl)
      · obtain ⟨⟨pipeline, store₁⟩, hcapture, h⟩ := Option.bind_eq_some_iff.mp h
        dsimp only at h
        split at h
        · obtain ⟨rfl, -⟩ := Prod.mk.inj (Option.some.inj h)
          exact spoken_of_nil hrecords (utf8_pipelineErrorMessage pipeline)
        · obtain rfl : _ = answer := congrArg Prod.fst (Option.some.inj h)
          exact finishCapture_spoken hrecords hrecords (by rfl) hlimit
            (captureSnapshotAndDelta_keepsWorded (hscan rootPath hroot).2 hcapture _ _ hworded)

end

theorem delete_spoken (hrecords : result.records = []) :
    Spoken (delete store command io result).1 := by
  rw [delete]
  split
  · exact spoken_of_nil hrecords (by rfl)
  · dsimp only
    split
    · exact spoken_of_nil hrecords (utf8_text _)
    · exact spoken_of_nil hrecords (by rfl)

theorem utf8_remoteMutatingRefusal {refusal : Str}
    (h : remoteMutatingRefusal options command = some refusal) :
    Json.validUtf8 refusal = true := by
  rw [remoteMutatingRefusal] at h
  split at h
  · cases h
  · obtain rfl := Option.some.inj h
    cases command.operation <;> decide +kernel

theorem allowed_of_none (h : remoteMutatingRefusal options command = none)
    (hop : command.operation ≠ .read) : options.allowRemoteMutatingCommands = true := by
  rw [remoteMutatingRefusal] at h
  split at h
  next hallowed => exact hallowed.resolve_right hop
  next => cases h

/-- A command is answered in UTF-8 where its batch can be. -/
theorem process_spoken (hbatch : Batchable options scan store.env consumerId command)
    (h : process options scan store command consumerId io = some (answer, store')) :
    Spoken answer := by
  rw [process] at h
  dsimp only at h
  cases hack : (ackOf store command consumerId io).1.ok with
  | false =>
      rw [hack] at h
      obtain ⟨rfl, -⟩ := Prod.mk.inj (Option.some.inj h)
      exact spoken_of_nil rfl (utf8_text _)
  | true =>
  rw [hack, if_neg (show ¬(!true) = true from Bool.false_ne_true)] at h
  cases hrefusal : remoteMutatingRefusal options command with
  | some refusal =>
      rw [hrefusal] at h
      obtain ⟨rfl, -⟩ := Prod.mk.inj (Option.some.inj h)
      exact spoken_of_nil rfl (utf8_remoteMutatingRefusal hrefusal)
  | none =>
  rw [hrefusal] at h
  dsimp only at h
  have hpending := @pending_ackOf options store command consumerId io hack
  rw [operate] at h
  rw [Batchable] at hbatch
  cases hop : command.operation with
  | read =>
      rw [hop] at h hbatch
      obtain ⟨rfl, -⟩ := Prod.mk.inj (Option.some.inj h)
      refine withBatch_spoken rfl (by rfl) hbatch.1 fun records hread => ?_
      rw [hpending] at hread ⊢
      exact hbatch.2 ⟨records, hread⟩
  | create =>
      rw [hop] at h hbatch
      obtain ⟨hscan, hlimit, hworded⟩ :=
        hbatch (allowed_of_none hrefusal (by rw [hop]; decide))
      exact create_spoken hscan rfl hlimit (hpending ▸ hworded) h
  | update =>
      rw [hop] at h hbatch
      obtain ⟨hscan, hlimit, hworded⟩ :=
        hbatch (allowed_of_none hrefusal (by rw [hop]; decide))
      exact update_spoken hscan rfl hlimit (hpending ▸ hworded) h
  | delete =>
      rw [hop] at h
      obtain rfl : _ = answer := congrArg Prod.fst (Option.some.inj h)
      exact delete_spoken rfl

theorem scanned_some {rootPath : Str} {now : UnixTimestamp}
    (h : (SnapshotBuilder.build (scan rootPath)).isSome) :
    ∃ pipeline, IndexingPipeline.scanned (scan rootPath) now = some pipeline := by
  obtain ⟨built, hbuilt⟩ := Option.isSome_iff_exists.mp h
  exact ⟨_, Option.bind_eq_some_iff.mpr ⟨built, hbuilt, rfl⟩⟩

theorem create_isSome (hscan : Scannable options scan command) :
    (create options scan store command consumerId io result).isSome := by
  rw [create]
  split
  · rfl
  next rootPath hroot =>
    obtain ⟨pipeline, hscanned⟩ := scanned_some (hscan rootPath hroot).1
    rw [IndexingPipeline.captureSnapshot, hscanned]
    simp only [Option.bind_eq_bind, Option.bind_some, Option.pure_def]
    split <;> rfl

theorem update_isSome (hscan : Scannable options scan command) :
    (update options scan store command consumerId io result).isSome := by
  rw [update]
  split
  · rfl
  next rootPath hroot =>
    split
    · rfl
    · obtain ⟨pipeline, hscanned⟩ := scanned_some (hscan rootPath hroot).1
      rw [IndexingPipeline.captureSnapshotAndDelta, hscanned]
      simp only [Option.bind_eq_bind, Option.bind_some, Option.pure_def]
      split <;> rfl

/-- And it comes to an end. -/
theorem process_isSome (hbatch : Batchable options scan store.env consumerId command) :
    (process options scan store command consumerId io).isSome := by
  rw [process]
  dsimp only
  split
  · rfl
  split
  · rfl
  next hrefusal =>
    rw [operate]
    rw [Batchable] at hbatch
    cases hop : command.operation with
    | read => rfl
    | create =>
        rw [hop] at hbatch
        exact create_isSome
          (hbatch (allowed_of_none hrefusal (by rw [hop]; decide))).1
    | update =>
        rw [hop] at hbatch
        exact update_isSome
          (hbatch (allowed_of_none hrefusal (by rw [hop]; decide))).1
    | delete => rfl

/-- The command can be answered whatever its consumer has acked. -/
def AlwaysBatchable (options : CrudServerOptions) (scan : Str → RawScanResult) (env : Env Dbi)
    (command : CrudCommandMessage) : Prop :=
  command.operation ≠ .delete → options.allowRemoteMutatingCommands = true →
    Scannable options scan command ∧ batchSize options command ≤ maxRecords ∧
      Worded (env.db transportDbi).entries

theorem AlwaysBatchable.batchable {env env' : Env Dbi}
    (h : AlwaysBatchable options scan env command) (hop : command.operation ≠ .read)
    (hsame : env'.db transportDbi = env.db transportDbi) :
    Batchable options scan env' consumerId command := by
  have hworded : Worded (env.db transportDbi).entries →
      Worded (firstPending options env' consumerId command) := by
    intro hall e he
    rw [firstPending, hsame, pendingRange] at he
    have hmem := List.mem_of_mem_take he
    split at hmem
    · exact hall e hmem
    · exact hall e (Db.mem_seek.mp hmem).1
  rw [AlwaysBatchable] at h
  rw [Batchable]
  cases hkind : command.operation with
  | read => exact absurd hkind hop
  | delete => trivial
  | create =>
      intro hallow
      obtain ⟨hscan, hlimit, hall⟩ := h (by rw [hkind]; decide) hallow
      exact ⟨hscan, hlimit, hworded hall⟩
  | update =>
      intro hallow
      obtain ⟨hscan, hlimit, hall⟩ := h (by rw [hkind]; decide) hallow
      exact ⟨hscan, hlimit, hworded hall⟩

/-! ## Reads, where no call fails -/

end CrudCommandProcessor

end ServerStorage.Muninn
