/-
# `ServerStorage.Muninn.Delivery` — what a fetch returns and what a compaction removes

Both walk the outbox in the order of its keys, which is that of the sequences.  A fetch
starts behind the ack of its consumer, at a key computed as `ack + 1`: exact for every ack
but the last, whose successor is 0.  A compaction stops behind the least ack of all
consumers, so what it removes every consumer has acked.
-/
import ServerStorage.Muninn.Allocation
import ServerStorage.Muninn.AckBound

namespace ServerStorage.Muninn

open Lib Lmdb Dbi LmdbStore

/-! ## The outbox as records -/

/-- The records from a sequence on. -/
def fromSequence (sequence : UInt64) (records : List TransportRecord) : List TransportRecord :=
  records.filter fun record => decide (sequence ≤ record.sequence)

/-- The records behind an ack. -/
def behindAck (ack : UInt64) (records : List TransportRecord) : List TransportRecord :=
  records.filter fun record => decide (ack < record.sequence)

namespace LmdbStore

section
variable {env : Env Dbi} {entries : List (Str × Str)} {records records' : List TransportRecord}

/-- The records the outbox holds: all its pairs, each readable. -/
def OutboxHolds (env : Env Dbi) (records : List TransportRecord) : Prop :=
  ReadAs (env.db transportDbi).entries records

theorem ReadAs.keys (h : ReadAs entries records) :
    entries.map Prod.fst = records.map fun record => encodeU64Be record.sequence := by
  induction h with
  | nil => rfl
  | cons hread _ ih =>
      rw [List.map_cons, List.map_cons, ih, parseFrame_sequence hread.2,
        encodeU64Be_decodeU64Be hread.1]

theorem ReadAs.unique (h : ReadAs entries records) (h' : ReadAs entries records') :
    records = records' := by
  refine List.right_unique_forall₂' (fun e record record' hread hread' => ?_) h h'
  exact Except.ok.inj (hread.2.symm.trans hread'.2)

theorem ReadAs.fromSequence (h : ReadAs entries records) (sequence : UInt64) :
    ReadAs (entries.filter fun e => decide (encodeU64Be sequence ≤ e.1))
      (fromSequence sequence records) := by
  refine List.rel_filter (fun e record hread => ?_) h
  have hkey : e.1 = encodeU64Be record.sequence := by
    rw [parseFrame_sequence hread.2, encodeU64Be_decodeU64Be hread.1]
  show decide (encodeU64Be sequence ≤ e.1) = true ↔ decide (sequence ≤ record.sequence) = true
  rw [decide_eq_true_eq, decide_eq_true_eq, hkey, encodeU64Be_le]

/-- The records stand in the order of their sequences, each sequence once. -/
theorem OutboxHolds.sorted (h : OutboxHolds env records) :
    (records.map TransportRecord.sequence).Pairwise (· < ·) := by
  have hsorted : ((env.db transportDbi).entries.map Prod.fst).Pairwise (· < ·) :=
    List.pairwise_map.mpr (env.db transportDbi).sorted
  rw [ReadAs.keys h, List.pairwise_map] at hsorted
  rw [List.pairwise_map]
  exact hsorted.imp encodeU64Be_lt.mp

/-- What a fetch walks over: everything for ack 0, and else from the successor of the ack. -/
theorem OutboxHolds.pending (h : OutboxHolds env records) (c : Str) :
    ReadAs (pending env c)
      (if (storedAck env c).getD 0 = 0 then records
        else Muninn.fromSequence ((storedAck env c).getD 0 + 1) records) := by
  rw [LmdbStore.pending, pendingRange]
  split
  · exact h
  · rw [Db.seek_eq_filter]
    exact ReadAs.fromSequence h _

end

end LmdbStore

/-! ## A batch -/

/-- The ack has a successor, or there is no record; and no record is numbered 0 where the
ack does not show that it was acked. -/
def AckInRange (ack : UInt64) (records : List TransportRecord) : Prop :=
  (ack = 0 → ∀ record ∈ records, record.sequence ≠ 0) ∧ (ack + 1 = 0 → records = [])

theorem succ_le_iff {a b : UInt64} (h : a + 1 ≠ 0) : a + 1 ≤ b ↔ a < b := by
  have hnat : (a.toNat + 1) % 2 ^ 64 ≠ 0 := fun hzero =>
    h (UInt64.toNat_inj.mp ((UInt64.toNat_add a 1).trans hzero))
  have ha := a.toNat_lt
  have hroom : a.toNat + 1 < 2 ^ 64 := by omega
  rw [UInt64.le_iff_toNat_le, toNat_succ hroom, UInt64.lt_iff_toNat_lt]
  exact Iff.rfl

/-- There is no number behind the last. -/
theorem not_lt_of_last {a b : UInt64} (h : a + 1 = 0) : ¬ a < b := by
  have hnat : (a.toNat + 1) % 2 ^ 64 = 0 := (UInt64.toNat_add a 1).symm.trans (congrArg _ h)
  have hb := b.toNat_lt
  rw [UInt64.lt_iff_toNat_lt]
  omega

theorem fromSequence_of_inRange {ack : UInt64} {records : List TransportRecord}
    (h : AckInRange ack records) :
    (if ack = 0 then records else fromSequence (ack + 1) records) = behindAck ack records := by
  split
  next hzero =>
    subst hzero
    refine (List.filter_eq_self.mpr fun record hrecord => decide_eq_true ?_).symm
    exact UInt64.pos_iff_ne_zero.mpr (h.1 rfl record hrecord)
  next =>
    by_cases hlast : ack + 1 = 0
    · rw [h.2 hlast]
      rfl
    · exact List.filter_congr fun record _ => decide_eq_decide.mpr (succ_le_iff hlast)

/-- A batch is exact: it is made of the first records behind the ack, in ascending order;
where no call fails it is returned, and where calls may fail no other is. -/
def BatchExact (store : LmdbStore) (records : List TransportRecord) (consumerId : Str)
    (maxItems : Nat) : Prop :=
  let batch := (behindAck ((storedAck store.env consumerId).getD 0) records).take maxItems
  (batch.map TransportRecord.sequence).Pairwise (· < ·) ∧
    store.fetchTransportBatchForConsumer consumerId maxItems [] = .ok (some batch) ∧
    ∀ io got, store.fetchTransportBatchForConsumer consumerId maxItems io = .ok got →
      got = some batch

/-- An exact batch skips nothing: where all that a fetch walks over is the whole outbox,
the first record of the outbox is behind the ack. -/
theorem behindAck_of_take {ack : UInt64} {records : List TransportRecord} {maxItems : Nat}
    (hpos : maxItems ≠ 0)
    (hsorted : (records.map TransportRecord.sequence).Pairwise (· < ·))
    (h : records.take maxItems = (behindAck ack records).take maxItems) :
    ∀ record ∈ records, ack < record.sequence := by
  intro record hrecord
  obtain ⟨n, rfl⟩ := Nat.exists_eq_succ_of_ne_zero hpos
  cases records with
  | nil => cases hrecord
  | cons first rest =>
      have hfirst : first ∈ (behindAck ack (first :: rest)).take (n + 1) := by
        rw [← h, List.take_succ_cons]
        exact List.mem_cons_self
      have hlt := of_decide_eq_true (List.mem_filter.mp (List.mem_of_mem_take hfirst)).2
      rw [List.map_cons, List.pairwise_cons] at hsorted
      rcases List.mem_cons.mp hrecord with rfl | hrest
      · exact hlt
      · exact hlt.trans (hsorted.1 _ (List.mem_map_of_mem hrest))

/-- **A fetch is exact** up to a limit that a vector can meet, and up to an ack of `2 ^ 64 - 1`,
behind which it starts again at 0. -/
theorem batchExact_iff {store : LmdbStore} {records : List TransportRecord} {consumerId : Str}
    (maxItems : Nat) (hopen : store.isOpen = true) (hid : consumerId ≠ [])
    (houtbox : OutboxHolds store.env records) (hacks : AcksReadable store.env) :
    BatchExact store records consumerId maxItems ↔
      maxItems = 0 ∨ maxItems ≤ maxRecords ∧
        AckInRange ((storedAck store.env consumerId).getD 0) records := by
  by_cases hlimit : maxItems ≤ maxRecords
  case neg =>
    -- The `reserve` throws.
    refine iff_of_false (fun h => hlimit (fetchTransportBatch_le h.2.1)) ?_
    rintro (hzero | h)
    · exact hlimit (hzero.le.trans (Nat.zero_le _))
    · exact hlimit h.1
  rw [and_iff_right hlimit]
  have hpending := houtbox.pending consumerId
  have hfetch : store.fetchTransportBatchForConsumer consumerId maxItems [] =
      .ok (some (List.take maxItems _)) :=
    fetchTransportBatch_nil hopen hid hlimit hpending fun v hv =>
      (hacks _ (Db.get_eq_some.mp hv)).2
  have hany : ∀ io got, store.fetchTransportBatchForConsumer consumerId maxItems io = .ok got →
      store.fetchTransportBatchForConsumer consumerId maxItems [] = .ok got := by
    intro io got hgot
    obtain ⟨records, rfl⟩ := fetchTransportBatch_some hlimit hgot
    have hread := fetchTransportBatch_ok hgot
    rw [hfetch, ReadAs.unique hread (List.forall₂_take maxItems hpending)]
  rw [BatchExact]
  generalize (storedAck store.env consumerId).getD 0 = ack at hpending hfetch ⊢
  constructor
  · rintro ⟨-, hexact, -⟩
    refine or_iff_not_imp_left.mpr fun hpos => ?_
    have htake := Option.some.inj (Except.ok.inj (hfetch.symm.trans hexact))
    constructor
    · intro hzero record hrecord hseq
      rw [if_pos hzero] at htake
      have hlt := behindAck_of_take hpos houtbox.sorted htake record hrecord
      exact absurd (hseq ▸ hlt) (UInt64.not_lt_zero)
    · intro hlast
      have hne : ack ≠ 0 := by
        rintro rfl
        exact absurd hlast (by decide)
      have hall : fromSequence (ack + 1) records = records :=
        List.filter_eq_self.mpr fun record _ => decide_eq_true (hlast ▸ UInt64.zero_le)
      rw [if_neg hne, hall] at htake
      cases records with
      | nil => rfl
      | cons first rest =>
          have hlt := behindAck_of_take hpos houtbox.sorted htake first List.mem_cons_self
          exact absurd hlt (not_lt_of_last hlast)
  · intro hrange
    have htake : (if ack = 0 then records else fromSequence (ack + 1) records).take maxItems =
        (behindAck ack records).take maxItems := by
      rcases hrange with rfl | hrange
      · rfl
      · rw [fromSequence_of_inRange hrange]
    rw [htake] at hfetch
    refine ⟨?_, hfetch, fun io got hgot => ?_⟩
    · refine houtbox.sorted.sublist (List.Sublist.map _ ?_)
      exact (List.take_sublist _ _).trans List.filter_sublist
    · exact Except.ok.inj ((hany io got hgot).symm.trans hfetch)

/-! ### One record, and two acks -/

/-- A store with one record, and an ack of one consumer. -/
def oneRecordStore (ack : UInt64) : LmdbStore :=
  { isOpen := true
    env := acked
      (enqueued { db := fun _ => {}, mapSize := 1048576 } (serializeFrame .snapshot (str "h") [1] 0))
      (str "c") ack }

def oneRecord : TransportRecord := { sequence := 1, routingKey := str "h", payload := [1] }

theorem oneRecordStore_holds (ack : UInt64) : OutboxHolds (oneRecordStore ack).env [oneRecord] :=
  List.Forall₂.cons ⟨rfl, parseFrame_serializeFrame (by decide)⟩ List.Forall₂.nil

theorem oneRecordStore_acks (ack : UInt64) : AcksReadable (oneRecordStore ack).env :=
  AcksReadable.setAck (fun _ h => absurd h List.not_mem_nil) (by decide) ack

theorem batchExact_iff_first : BatchExact (oneRecordStore 0) [oneRecord] (str "c") 1 := by
  refine (batchExact_iff 1 rfl (by decide) (oneRecordStore_holds 0) (oneRecordStore_acks 0)).mpr
    (.inr ⟨by decide, fun _ => by decide, fun h => ?_⟩)
  have hack : storedAck (oneRecordStore 0).env (str "c") = some 0 := by decide +kernel
  rw [hack] at h
  exact absurd h (by decide)

/-- Behind the last ack stands the record again. -/
theorem not_batchExact_last :
    OutboxHolds (oneRecordStore 18446744073709551615).env [oneRecord] ∧
      ¬ BatchExact (oneRecordStore 18446744073709551615) [oneRecord] (str "c") 1 := by
  refine ⟨oneRecordStore_holds _, fun h => ?_⟩
  have hfetch : (oneRecordStore 18446744073709551615).fetchTransportBatchForConsumer (str "c") 1
      [] = .ok (some [oneRecord]) := by decide +kernel
  have hack : storedAck (oneRecordStore 18446744073709551615).env (str "c") =
      some 18446744073709551615 := by decide +kernel
  have hexact := hfetch.symm.trans h.2.1
  rw [hack] at hexact
  exact absurd (Option.some.inj (Except.ok.inj hexact)) (by decide)

/-! ## Compaction -/

/-- Some consumer is registered, and all of them have acked the sequence. -/
def AckedByAll (env : Env Dbi) (sequence : UInt64) : Prop :=
  (∃ c a, storedAck env c = some a) ∧ ∀ c a, storedAck env c = some a → sequence ≤ a

section
variable {env : Env Dbi}

theorem minAcked_eq_some {least : UInt64} (h : minAcked env = some least) (sequence : UInt64) :
    AckedByAll env sequence ↔ sequence ≤ least := by
  obtain ⟨hmem, hle⟩ := List.min?_eq_some_iff.mp h
  constructor
  · intro hall
    obtain ⟨e, he, rfl⟩ := List.mem_map.mp hmem
    exact hall.2 e.1 _ (congrArg (Option.map decodeU64Be) (Db.get_eq_some.mpr he))
  · intro hsequence
    obtain ⟨e, he, hack⟩ := List.mem_map.mp hmem
    have hstored : storedAck env e.1 = some least := by
      rw [storedAck, Db.get_eq_some.mpr he, Option.map_some, hack]
    refine ⟨⟨e.1, least, hstored⟩, fun c a ha => hsequence.trans ?_⟩
    have hmin := minAcked_le ha
    rwa [h] at hmin

theorem minAcked_eq_none (h : minAcked env = none) (c : Str) : storedAck env c = none := by
  have hnil := List.map_eq_nil_iff.mp (List.min?_eq_none_iff.mp h)
  have hget : (env.db transportConsumersDbi).get c = none :=
    Db.get_eq_none.mpr fun v hv => by
      rw [hnil] at hv
      cases hv
  rw [storedAck, hget]
  rfl

end

/-- What a compaction may do: fail and leave the store, or succeed and remove just the
records that every consumer has acked. -/
def CompactsExactly (store : LmdbStore) (result : StoreStatus × LmdbStore) : Prop :=
  (result.1.ok = false ∧ result.2 = store) ∨
    (result.1.ok = true ∧ result.2.isOpen = store.isOpen ∧
      (∀ dbi, dbi ≠ transportDbi → result.2.env.db dbi = store.env.db dbi) ∧
      ∀ e, e ∈ (result.2.env.db transportDbi).entries ↔
        e ∈ (store.env.db transportDbi).entries ∧ ¬ AckedByAll store.env (decodeU64Be e.1))

theorem compactTransport_exact {store : LmdbStore} (hnumbered : Numbered store.env)
    (io : List (Option Fault)) : CompactsExactly store (store.compactTransportUpToMinAcked io) := by
  rcases compactTransport_writes store io with ⟨hfailed, hsame⟩ | ⟨hok, -, env, henv, hstore⟩
  · exact .inl ⟨hfailed, hsame⟩
  refine .inr ⟨by rw [hok]; rfl, by rw [hstore], ?_⟩
  rw [hstore]
  show (∀ dbi, dbi ≠ transportDbi → env.db dbi = store.env.db dbi) ∧
    ∀ e, e ∈ (env.db transportDbi).entries ↔
      e ∈ (store.env.db transportDbi).entries ∧ ¬ AckedByAll store.env (decodeU64Be e.1)
  rcases henv with ⟨hzero, rfl⟩ | ⟨hne, rfl⟩
  · -- the least ack is 0, or there is none: nothing goes
    refine ⟨fun _ _ => rfl, fun e => (and_iff_left_of_imp fun he hall => ?_).symm⟩
    cases hleast : minAcked store.env with
    | none =>
        obtain ⟨c, a, ha⟩ := hall.1
        rw [minAcked_eq_none hleast c] at ha
        cases ha
    | some least =>
        rw [hleast, Option.getD_some] at hzero
        have hle := (minAcked_eq_some hleast _).mp hall
        exact absurd (hnumbered.keys e he).2.1 (not_lt.mpr (hzero ▸ hle))
  · obtain ⟨least, hleast⟩ : ∃ least, minAcked store.env = some least := by
      cases hleast : minAcked store.env with
      | none =>
          rw [hleast] at hne
          exact absurd rfl hne
      | some least => exact ⟨least, rfl⟩
    refine ⟨fun dbi hdbi => Env.set_db_ne hdbi, fun e => ?_⟩
    rw [hleast, Option.getD_some, outbox_compacted, Db.mem_filter, minAcked_eq_some hleast]
    refine and_congr_right fun he => ?_
    have hkey := encodeU64Be_decodeU64Be (hnumbered.keys e he).1
    rw [decide_eq_true_eq, ← hkey, encodeU64Be_lt, decodeU64Be_encodeU64Be, not_le]

/-- Where no call fails, a compaction succeeds. -/
theorem compactTransport_nil {store : LmdbStore} (hopen : store.isOpen = true)
    (hkeys : ∀ e ∈ (store.env.db transportDbi).entries, e.1.length = 8)
    (hacks : AcksReadable store.env) :
    (store.compactTransportUpToMinAcked []).1.ok = true := by
  have hmin : ∀ e ∈ (store.env.db transportConsumersDbi).entries, ∀ least env,
      ∃ r env', Runs (minAckBody least e.1 e.2) env r env' := by
    intro e he least env
    have hsize := Runs.failIf (e := corrupted "Invalid transport consumer ack payload size.") env
      (not_not.mpr (hacks e he).2)
    cases least with
    | none => exact ⟨_, env, .bind hsize (.pure env _)⟩
    | some least => exact ⟨_, env, .bind hsize (.pure env _)⟩
  have hcompact : ∀ ack, ∀ e ∈ (store.env.db transportDbi).entries, ∀ u env,
      ∃ r env', Runs (compactBody ack u e.1 e.2) env r env' := by
    intro ack e he u env
    have hsize := hkeys e he
    rw [compactBody]
    split
    · exact ⟨_, env, .bind (.failIf env (not_not.mpr hsize)) (.pure env _)⟩
    · have hne : e.1 ≠ [] := by
        rintro hnil
        rw [hnil] at hsize
        cases hsize
      have hdel : Runs (cursorDel "mdb_cursor_del(compact_transport_records)" transportDbi e.1)
          env () (env.set transportDbi ((env.db transportDbi).erase e.1)) :=
        .bind (.mapError (.mdbDel env hne)) (.pure _ _)
      exact ⟨_, _, .bind (.failIf env (not_not.mpr hsize)) (.bind hdel (.pure _ _))⟩
  obtain ⟨least, env₁, hleast⟩ := Runs.cursorLoop (runs_callAs
    "mdb_cursor_get(compact_transport_consumers_next)") hmin none store.env
    (runs_callAs "mdb_cursor_get(compact_transport_consumers)" _)
  obtain rfl : env₁ = store.env := (minAckLoop_ok hleast).2
  obtain ⟨u, env₂, hrecords⟩ := Runs.cursorLoop (runs_callAs
    "mdb_cursor_get(compact_transport_records_next)") (hcompact (least.getD 0)) () store.env
    (runs_callAs "mdb_cursor_get(compact_transport_records_next)" _)
  have hopens : ∀ what dbi, Runs (cursorOpen what dbi) store.env (store.env.db dbi) store.env :=
    fun what dbi => .bind (runs_callAs what _) (.bind rfl (.pure _ _))
  rw [compactTransportUpToMinAcked, if_neg (by rw [hopen]; decide)]
  show (store.writeTxn [] _ _).1.ok = true
  by_cases hzero : least.getD 0 = 0
  · refine congrArg StoreStatus.ok (writeTxn_nil .abort () store.env ?_)
    refine .bind (hopens _ _) (.bind hleast ?_)
    rw [if_pos hzero]
    exact .pure _ _
  · refine congrArg StoreStatus.ok (writeTxn_nil .commit () env₂ ?_)
    refine .bind (hopens _ _) (.bind hleast ?_)
    rw [if_neg hzero]
    exact .bind (hopens _ _) (.bind hrecords (.pure _ _))

/-- **Compaction is exact and safe.**  In every state a run reaches that enqueues fewer than
`2 ^ 64 - 1` records, a compaction removes the records every consumer has acked and nothing
else; and a record that was there while a consumer was registered is there as long as the
consumer has not acked it. -/
theorem compaction_exact {ops : List StoreOp} (h : demands ops < 2 ^ 64 - 1) :
    (∀ io, CompactsExactly (runOps {} ops) ((runOps {} ops).compactTransportUpToMinAcked io)) ∧
      ((runOps {} ops).isOpen = true →
        ((runOps {} ops).compactTransportUpToMinAcked []).1.ok = true) ∧
      ∀ pre post, ops = pre ++ post → ∀ c ack s frame,
        storedAck (runOps {} pre).env c = some ack → outboxFrame (runOps {} pre).env s = some frame →
        ∃ ack', storedAck (runOps {} ops).env c = some ack' ∧
          (s ≤ ack' ∨ outboxFrame (runOps {} ops).env s = some frame) := by
  have hroom : (nextSequenceOf ({} : LmdbStore).env).toNat + demands ops < 2 ^ 64 := by
    show 1 + demands ops < 2 ^ 64
    omega
  have hnumbered := (numbered_empty 0).grows (runOps_grows ops {} hroom)
  have hacks : AcksReadable (runOps {} ops).env :=
    AcksReadable.run (fun _ h => absurd h List.not_mem_nil) (runOps_within hroom ops {} le_rfl)
  refine ⟨compactTransport_exact hnumbered, fun hopen =>
    compactTransport_nil hopen (fun e he => (hnumbered.keys e he).1) hacks, ?_⟩
  rintro pre post rfl c ack s frame hack hframe
  have hsplit : demands (pre ++ post) = demands pre + demands post := by
    rw [demands, List.map_append, List.sum_append]
    rfl
  rw [hsplit] at hroom
  have hpre := runOps_grows pre {} (by omega)
  have hlt : s < nextSequenceOf (runOps {} pre).env := by
    have hkey := ((numbered_empty 0).grows hpre).keys _ (Db.get_eq_some.mp hframe)
    rw [decodeU64Be_encodeU64Be] at hkey
    exact hkey.2.2
  have hle := hpre.bounded
  rw [max_eq_right (Nat.le_add_right _ _)] at hle
  have hwaits : Waits c s frame (runOps {} pre).env := ⟨hlt, ack, hack, .inr hframe⟩
  rw [runOps_append]
  refine (hwaits.run (fun env henqueue => ?_)
    (runOps_within hroom post (runOps {} pre) (by omega))).waits
  exact lt_of_le_of_lt henqueue hroom

theorem compaction_exact_acking :
    storedAck (runOps {} (ackingRun 1)).env (CrudWebsocketSession.consumerIdOf bridgeHello) = some 1 ∧
      CompactsExactly (runOps {} (ackingRun 1))
        ((runOps {} (ackingRun 1)).compactTransportUpToMinAcked []) ∧
      ((runOps {} (ackingRun 1)).compactTransportUpToMinAcked []).1.ok = true := by
  have hdemands : demands (ackingRun 1) = 1 := by decide +kernel
  have hexact := compaction_exact (show demands (ackingRun 1) < 2 ^ 64 - 1 by
    rw [hdemands]
    decide)
  exact ⟨by decide +kernel, hexact.1 [], hexact.2.1 (by decide +kernel)⟩

end ServerStorage.Muninn
