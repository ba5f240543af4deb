/-
# `ServerStorage.Muninn.AckBound` — acks behind the sequence counter

A consumer is given the records behind its ack, so an ack from beyond the counter
hides every record up to it.  Nothing in the store compares the two: the invariant
that keeps them apart (`Behind`) survives exactly the acks that were below the
counter when they came.
-/
import ServerStorage.Muninn.StoreRuns

namespace ServerStorage.Muninn

open Lib Lmdb Dbi Crud Relation LmdbStore

/-! ## The invariant -/

/-- Every ack is below the counter, every record is, and both can be read. -/
structure Behind (env : Env Dbi) : Prop where
  counter : 0 < nextSequenceOf env
  acks : ∀ c a, storedAck env c = some a → a < nextSequenceOf env
  records : ∀ e ∈ (env.db transportDbi).entries, e.1.length = 8 ∧
    decodeU64Be e.1 < nextSequenceOf env ∧ ∃ record, parseFrame (decodeU64Be e.1) e.2 = .ok record
  consumers : ∀ e ∈ (env.db transportConsumersDbi).entries, e.1 ≠ [] ∧ e.2.length = 8

/-- The acks are below the counter, and the counter is not at its end. -/
def behindGuard : Guard where
  ack env sequence := sequence < nextSequenceOf env
  enqueue env := (nextSequenceOf env).toNat + 1 < 2 ^ 64

theorem behind_empty (mapSize : UInt64) : Behind { db := fun _ => {}, mapSize := mapSize } where
  counter := by rw [show nextSequenceOf _ = 1 from rfl]; decide
  acks _ _ h := absurd h (by simp [storedAck, Db.get])
  records _ h := absurd h (by simp)
  consumers _ h := absurd h (by simp)

theorem Behind.setAck {env : Env Dbi} (h : Behind env) {c : Str} {a : UInt64} (hc : c ≠ [])
    (ha : a < nextSequenceOf env) : Behind (acked env c a) where
  counter := by rw [nextSequenceOf_acked]; exact h.counter
  acks c' a' hack := by
    rw [storedAck_acked] at hack
    rw [nextSequenceOf_acked]
    split at hack
    · exact Option.some.inj hack ▸ ha
    · exact h.acks c' a' hack
  records := by
    rw [outbox_acked, nextSequenceOf_acked]
    exact h.records
  consumers := AcksReadable.setAck h.consumers hc a

theorem Behind.step {env env' : Env Dbi} (h : Behind env) (hstep : OutboxStep behindGuard env env') :
    Behind env' := by
  cases hstep with
  | @ack c a hc ha =>
      refine h.setAck hc (max_lt ?_ ha)
      cases hstored : storedAck env c with
      | none => exact h.counter
      | some b => exact h.acks c b hstored
  | register hc _ => exact h.setAck hc h.counter
  | @enqueue type routingKey payload createdAt hsize hroom =>
      have hnext := lt_succ hroom
      exact
        { counter := by rw [nextSequenceOf_enqueued]; exact h.counter.trans hnext
          acks := fun c a hack => by
            rw [storedAck_congr (consumers_enqueued _ _)] at hack
            rw [nextSequenceOf_enqueued]
            exact (h.acks c a hack).trans hnext
          records := fun e he => by
            rw [outbox_enqueued, Db.mem_put] at he
            rw [nextSequenceOf_enqueued]
            rcases he with rfl | ⟨he, -⟩
            · simp only [decodeU64Be_encodeU64Be]
              exact ⟨encodeU64Be_length _, hnext, _, parseFrame_serializeFrame hsize⟩
            · obtain ⟨hlen, hlt, hparse⟩ := h.records e he
              exact ⟨hlen, hlt.trans hnext, hparse⟩
          consumers := by rw [consumers_enqueued]; exact h.consumers }
  | compact _ =>
      exact
        { counter := by rw [nextSequenceOf_compacted]; exact h.counter
          acks := fun c a hack => by
            rw [storedAck_congr (consumers_compacted _ _)] at hack
            rw [nextSequenceOf_compacted]
            exact h.acks c a hack
          records := fun e he => by
            rw [outbox_compacted, Db.mem_filter] at he
            rw [nextSequenceOf_compacted]
            exact h.records e he.1
          consumers := by rw [consumers_compacted]; exact h.consumers }
  | setCounter hnone =>
      have hone : nextSequenceOf env = 1 := by rw [nextSequenceOf, hnone]; rfl
      exact
        { counter := by rw [nextSequenceOf_counted]; decide
          acks := fun c a hack => by
            rw [storedAck_congr (consumers_counted _ _)] at hack
            rw [nextSequenceOf_counted, ← hone]
            exact h.acks c a hack
          records := fun e he => by
            rw [outbox_counted] at he
            rw [nextSequenceOf_counted, ← hone]
            exact h.records e he
          consumers := by rw [consumers_counted]; exact h.consumers }
  | other hsame =>
      exact
        { counter := by rw [hsame.nextSequenceOf]; exact h.counter
          acks := fun c a hack => by
            rw [storedAck_congr hsame.2.2] at hack
            rw [hsame.nextSequenceOf]
            exact h.acks c a hack
          records := by rw [hsame.2.1, hsame.nextSequenceOf]; exact h.records
          consumers := by rw [hsame.2.2]; exact h.consumers }

theorem Behind.run {env env' : Env Dbi} (h : Behind env) (hrun : OutboxRun behindGuard env env') :
    Behind env' := by
  induction hrun with
  | refl => exact h
  | tail _ hstep ih => exact ih.step hstep

/-! ## A record waits for its ack -/

/-- The consumer has acked the record, or the record is still in the outbox. -/
structure Waits (consumerId : Str) (sequence : UInt64) (frame : Str) (env : Env Dbi) : Prop where
  enqueued : sequence < nextSequenceOf env
  waits : ∃ ack, storedAck env consumerId = some ack ∧
    (sequence ≤ ack ∨ outboxFrame env sequence = some frame)

theorem Waits.step {guard : Guard} {c : Str} {s : UInt64} {frame : Str} {env env' : Env Dbi}
    (hguard : ∀ env, guard.enqueue env → (nextSequenceOf env).toNat + 1 < 2 ^ 64)
    (h : Waits c s frame env) (hstep : OutboxStep guard env env') : Waits c s frame env' := by
  obtain ⟨hlt, ack, hack, hwaits⟩ := h
  cases hstep with
  | @ack c' a hc ha =>
      refine ⟨by rw [nextSequenceOf_acked]; exact hlt, ?_⟩
      by_cases hcc : c = c'
      · subst hcc
        refine ⟨_, by rw [storedAck_acked, if_pos rfl], ?_⟩
        rw [hack, Option.getD_some, outboxFrame, outbox_acked]
        exact hwaits.imp_left fun hle => hle.trans (le_max_left _ _)
      · refine ⟨ack, by rw [storedAck_acked, if_neg hcc, hack], ?_⟩
        rw [outboxFrame, outbox_acked]
        exact hwaits
  | @register c' hc hnone =>
      refine ⟨by rw [nextSequenceOf_acked]; exact hlt, ack, ?_, ?_⟩
      · rw [storedAck_acked, if_neg (fun hcc => by rw [← hcc, hack] at hnone; simp at hnone), hack]
      · rw [outboxFrame, outbox_acked]
        exact hwaits
  | @enqueue type routingKey payload createdAt hsize hroom =>
      have hnext := lt_succ (hguard env hroom)
      refine ⟨by rw [nextSequenceOf_enqueued]; exact hlt.trans hnext, ack, ?_, ?_⟩
      · rw [storedAck_congr (consumers_enqueued _ _), hack]
      · refine hwaits.imp_right fun hframe => ?_
        rw [outboxFrame, outbox_enqueued, Db.get_put, if_neg, ← outboxFrame, hframe]
        exact fun heq => hlt.ne (encodeU64Be_inj.mp heq)
  | compact hne =>
      refine ⟨by rw [nextSequenceOf_compacted]; exact hlt, ack, ?_, ?_⟩
      · rw [storedAck_congr (consumers_compacted _ _), hack]
      · rcases hwaits with hle | hframe
        · exact .inl hle
        · by_cases hle : s ≤ ack
          · exact .inl hle
          · right
            -- the least ack is at most this consumer's
            have hmin := minAcked_le hack
            rw [outboxFrame, outbox_compacted, Db.get_filter, if_pos, ← outboxFrame, hframe]
            exact decide_eq_true (encodeU64Be_lt.mpr (hmin.trans_lt (not_le.mp hle)))
  | setCounter hnone =>
      have hone : nextSequenceOf env = 1 := by rw [nextSequenceOf, hnone]; rfl
      refine ⟨by rw [nextSequenceOf_counted, ← hone]; exact hlt, ack, ?_, ?_⟩
      · rw [storedAck_congr (consumers_counted _ _), hack]
      · rw [outboxFrame, outbox_counted]
        exact hwaits
  | other hsame =>
      refine ⟨by rw [hsame.nextSequenceOf]; exact hlt, ack, ?_, ?_⟩
      · rw [storedAck_congr hsame.2.2, hack]
      · rw [outboxFrame, hsame.2.1]
        exact hwaits

theorem Waits.run {guard : Guard} {c : Str} {s : UInt64} {frame : Str} {env env' : Env Dbi}
    (hguard : ∀ env, guard.enqueue env → (nextSequenceOf env).toNat + 1 < 2 ^ 64)
    (h : Waits c s frame env) (hrun : OutboxRun guard env env') : Waits c s frame env' := by
  induction hrun with
  | refl => exact h
  | tail _ hstep ih => exact ih.step hguard hstep

/-! ## New records -/

/-- A run keeps every consumer's ack or raises it, and its new records are numbered
from the counter on. -/
theorem run_grows {env env' : Env Dbi} (hrun : OutboxRun behindGuard env env') :
    nextSequenceOf env ≤ nextSequenceOf env' ∧
      (∀ c a, storedAck env c = some a → ∃ b, storedAck env' c = some b ∧ a ≤ b) ∧
      ∀ s, outboxFrame env s = none → outboxFrame env' s ≠ none → nextSequenceOf env ≤ s := by
  induction hrun with
  | refl => exact ⟨le_rfl, fun c a h => ⟨a, h, le_rfl⟩, fun s h h' => absurd h h'⟩
  | @tail env₁ env₂ _ hstep ih =>
      obtain ⟨hcounter, hacks, hnew⟩ := ih
      cases hstep with
      | @ack c' a' hc ha =>
          refine ⟨by rw [nextSequenceOf_acked]; exact hcounter, fun c a h => ?_, fun s h h' => ?_⟩
          · obtain ⟨b, hb, hle⟩ := hacks c a h
            rw [storedAck_acked]
            split
            next heq =>
              subst heq
              refine ⟨_, rfl, hle.trans ?_⟩
              rw [hb]
              exact le_max_left _ _
            next => exact ⟨b, hb, hle⟩
          · rw [outboxFrame, outbox_acked] at h'
            exact hnew s h h'
      | @register c' hc hnone =>
          refine ⟨by rw [nextSequenceOf_acked]; exact hcounter, fun c a h => ?_, fun s h h' => ?_⟩
          · obtain ⟨b, hb, hle⟩ := hacks c a h
            refine ⟨b, ?_, hle⟩
            rw [storedAck_acked, if_neg, hb]
            rintro rfl
            exact absurd (hb.symm.trans hnone) (by simp)
          · rw [outboxFrame, outbox_acked] at h'
            exact hnew s h h'
      | enqueue hsize hroom =>
          have hle := (lt_succ hroom).le
          refine ⟨by rw [nextSequenceOf_enqueued]; exact hcounter.trans hle, fun c a h => ?_,
            fun s h h' => ?_⟩
          · rw [storedAck_congr (consumers_enqueued _ _)]
            exact hacks c a h
          · rw [outboxFrame, outbox_enqueued, Db.get_put] at h'
            split at h'
            next heq => rw [encodeU64Be_inj.mp heq]; exact hcounter
            next => exact hnew s h h'
      | compact _ =>
          refine ⟨by rw [nextSequenceOf_compacted]; exact hcounter, fun c a h => ?_,
            fun s h h' => hnew s h fun hnone => h' ?_⟩
          · rw [storedAck_congr (consumers_compacted _ _)]
            exact hacks c a h
          · rw [outboxFrame, outbox_compacted, Db.get_filter, ← outboxFrame, hnone, ite_self]
      | setCounter hnone =>
          have hone : nextSequenceOf env₁ = 1 := by rw [nextSequenceOf, hnone]; rfl
          refine ⟨by rw [nextSequenceOf_counted, ← hone]; exact hcounter, fun c a h => ?_,
            fun s h h' => ?_⟩
          · rw [storedAck_congr (consumers_counted _ _)]
            exact hacks c a h
          · rw [outboxFrame, outbox_counted] at h'
            exact hnew s h h'
      | other hsame =>
          refine ⟨by rw [hsame.nextSequenceOf]; exact hcounter, fun c a h => ?_,
            fun s h h' => ?_⟩
          · rw [storedAck_congr hsame.2.2]
            exact hacks c a h
          · rw [outboxFrame, hsame.2.1] at h'
            exact hnew s h h'

/-! ## Fetching what waits -/

theorem readAs_exists : ∀ (entries : List (Str × Str)),
    (∀ e ∈ entries, e.1.length = 8 ∧ ∃ record, parseFrame (decodeU64Be e.1) e.2 = .ok record) →
    ∃ records, ReadAs entries records
  | [], _ => ⟨[], List.Forall₂.nil⟩
  | e :: entries, h => by
      obtain ⟨hlen, record, hparse⟩ := h e List.mem_cons_self
      obtain ⟨records, hread⟩ := readAs_exists entries fun x hx => h x (List.mem_cons_of_mem _ hx)
      exact ⟨record :: records, List.Forall₂.cons ⟨hlen, hparse⟩ hread⟩

theorem ReadAs.mem {entries : List (Str × Str)} {records : List TransportRecord} {s : UInt64}
    {frame : Str} {record : TransportRecord} (h : ReadAs entries records)
    (hmem : (encodeU64Be s, frame) ∈ entries) (hparse : parseFrame s frame = .ok record) :
    record ∈ records := by
  induction h with
  | nil => exact absurd hmem List.not_mem_nil
  | cons hread _ ih =>
      rcases List.mem_cons.mp hmem with rfl | hmem
      · rw [decodeU64Be_encodeU64Be, hparse] at hread
        rw [Except.ok.inj hread.2]
        exact List.mem_cons_self
      · exact List.mem_cons_of_mem _ (ih hmem)

/-- The records pending are those behind the ack, unless the ack is the last number. -/
theorem mem_pending {env : Env Dbi} {c : Str} {s : UInt64} {frame : Str}
    (hlt : (storedAck env c).getD 0 < s) (hframe : outboxFrame env s = some frame) :
    (encodeU64Be s, frame) ∈ pending env c := by
  have hmem := Db.get_eq_some.mp hframe
  rw [pending, pendingRange]
  split
  · exact hmem
  · refine Db.mem_seek.mpr ⟨hmem, encodeU64Be_le.mpr ?_⟩
    have hs := s.toNat_lt
    have hnat := UInt64.lt_iff_toNat_lt.mp hlt
    rw [UInt64.le_iff_toNat_le, toNat_succ (by omega)]
    exact hnat

/-- A record that waits is in every batch large enough to hold all that do, up to what a
vector holds. -/
theorem Waits.fetched {c : Str} {s : UInt64} {frame : Str} {store : LmdbStore}
    (h : Waits c s frame store.env) (hbehind : Behind store.env) (hopen : store.isOpen = true)
    (hlt : (storedAck store.env c).getD 0 < s) :
    ∃ record, parseFrame s frame = .ok record ∧
      ∀ maxItems, (pending store.env c).length ≤ maxItems → maxItems ≤ maxRecords →
        ∃ records, store.fetchTransportBatchForConsumer c maxItems [] = .ok (some records) ∧
          record ∈ records := by
  obtain ⟨ack, hack, hwaits⟩ := h.waits
  rw [hack, Option.getD_some] at hlt
  have hframe := hwaits.resolve_left (not_le.mpr hlt)
  have hmem := mem_pending (by rw [hack, Option.getD_some]; exact hlt) hframe
  obtain ⟨-, -, record, hparse⟩ := hbehind.records _ (pending_subset hmem)
  rw [decodeU64Be_encodeU64Be] at hparse
  obtain ⟨records, hread⟩ := readAs_exists (pending store.env c) fun e he =>
    ⟨(hbehind.records e (pending_subset he)).1, (hbehind.records e (pending_subset he)).2.2⟩
  obtain ⟨v, hv, -⟩ := Option.map_eq_some_iff.mp hack
  have hid := (hbehind.consumers _ (Db.get_eq_some.mp hv)).1
  refine ⟨record, hparse, fun maxItems hall hlimit =>
    ⟨records, ?_, ReadAs.mem hread hmem hparse⟩⟩
  rw [LmdbStore.fetchTransportBatch_nil hopen hid hlimit hread, List.take_of_length_le]
  · exact hread.length_eq ▸ hall
  · exact fun v hv => (hbehind.consumers _ (Db.get_eq_some.mp hv)).2

/-! ## Runs of the store -/

namespace StoreOp

/-- The step's ack is below the counter, and the counter does not reach its end. -/
def allowed (op : StoreOp) (store : LmdbStore) : Bool :=
  decide (op.ackOf < nextSequenceOf store.env) &&
    (op.demand == 0 || decide ((nextSequenceOf store.env).toNat + op.demand < 2 ^ 64))

end StoreOp

/-- Every step of the run is allowed where it is made. -/
def allowedRun : LmdbStore → List StoreOp → Bool
  | _, [] => true
  | store, op :: rest => op.allowed store && allowedRun (op.run store) rest

/-- An allowed step is a run of outbox steps, each allowed. -/
theorem StoreOp.run_outboxRun {op : StoreOp} {store : LmdbStore}
    (h : op.allowed store = true) : OutboxRun behindGuard store.env (op.run store).env := by
  rw [allowed, Bool.and_eq_true, Bool.or_eq_true, beq_iff_eq, decide_eq_true_eq,
    decide_eq_true_eq] at h
  obtain ⟨hack, hroom⟩ := h
  refine StoreOp.outboxRun (fun _ => hack)
    ⟨fun hne env heq => ?_, fun htwo env heq => ?_, fun _ _ => trivial, fun _ => trivial⟩
  · have hlt := hroom.resolve_left hne
    show (nextSequenceOf env).toNat + 1 < 2 ^ 64
    rw [heq]
    omega
  · have hlt := hroom.resolve_left (by omega)
    show (nextSequenceOf env).toNat + 1 < 2 ^ 64
    rcases heq with heq | heq
    · rw [heq]
      omega
    · rw [heq, toNat_succ (by omega)]
      omega

theorem runOps_outboxRun : ∀ {ops : List StoreOp} {store : LmdbStore},
    allowedRun store ops = true → OutboxRun behindGuard store.env (runOps store ops).env
  | [], _, _ => .refl
  | op :: rest, store, h => by
      obtain ⟨hop, hrest⟩ := (Bool.and_eq_true _ _).mp h
      exact (StoreOp.run_outboxRun hop).trans (runOps_outboxRun hrest)

theorem allowedRun_append : ∀ {pre post : List StoreOp} {store : LmdbStore},
    allowedRun store (pre ++ post) = true →
      allowedRun store pre = true ∧ allowedRun (runOps store pre) post = true
  | [], _, _, h => ⟨rfl, h⟩
  | op :: pre, post, store, h => by
      obtain ⟨hop, hrest⟩ := (Bool.and_eq_true _ _).mp h
      obtain ⟨hpre, hpost⟩ := allowedRun_append hrest
      exact ⟨(Bool.and_eq_true _ _).mpr ⟨hop, hpre⟩, hpost⟩

/-! ## The result -/

/-- In a run from the empty store all of whose acks are below the counter when they
come, every ack stays below it; and a record enqueued after an ack was stored is
numbered above that ack and, as long as the consumer has not acked it, is in its
next batch large enough for all that is pending, up to what a vector holds. -/
theorem ack_never_hides {ops : List StoreOp} (h : allowedRun {} ops = true) :
    (∀ c a, storedAck (runOps {} ops).env c = some a → a < nextSequenceOf (runOps {} ops).env) ∧
    ∀ pre op post, ops = pre ++ op :: post →
      ∀ c a s frame, storedAck (runOps {} pre).env c = some a →
        outboxFrame (runOps {} pre).env s = none →
        outboxFrame (op.run (runOps {} pre)).env s = some frame →
        a < s ∧
        ((storedAck (runOps {} ops).env c).getD 0 < s → (runOps {} ops).isOpen = true →
          ∃ record, parseFrame s frame = .ok record ∧
            ∀ maxItems, (pending (runOps {} ops).env c).length ≤ maxItems →
              maxItems ≤ maxRecords →
              ∃ records, (runOps {} ops).fetchTransportBatchForConsumer c maxItems [] =
                .ok (some records) ∧ record ∈ records) := by
  have hbehind : Behind (runOps {} ops).env :=
    (behind_empty 0).run (runOps_outboxRun h)
  refine ⟨hbehind.acks, fun pre op post hops c a s frame hack hnone hsome => ?_⟩
  subst hops
  obtain ⟨hpre, hrest⟩ := allowedRun_append h
  obtain ⟨hop, hpost⟩ := (Bool.and_eq_true _ _).mp hrest
  have hrunop := StoreOp.run_outboxRun hop
  have hbefore : Behind (runOps {} pre).env := (behind_empty 0).run (runOps_outboxRun hpre)
  have hafter := hbefore.run hrunop
  obtain ⟨-, hacks, hnew⟩ := run_grows hrunop
  have hge := hnew s hnone (by rw [hsome]; simp)
  refine ⟨(hbefore.acks c a hack).trans_le hge, fun hlt hopen => ?_⟩
  obtain ⟨b, hb, -⟩ := hacks c a hack
  have hrecord := hafter.records _ (Db.get_eq_some.mp hsome)
  rw [decodeU64Be_encodeU64Be] at hrecord
  have hwaits : Waits c s frame (op.run (runOps {} pre)).env :=
    ⟨hrecord.2.1, b, hb, .inr hsome⟩
  have hend : runOps {} (pre ++ op :: post) = runOps (op.run (runOps {} pre)) post :=
    runOps_append _ _ _
  rw [hend] at hbehind hlt hopen ⊢
  have hwaits := hwaits.run (fun _ hroom => hroom) (runOps_outboxRun hpost)
  exact hwaits.fetched hbehind hopen hlt

/-! ### A run below the counter, and one beyond it -/

theorem ackingRun_below :
    allowedRun {} (ackingRun 1 ++ [newRecord]) = true ∧
      storedAck (runOps {} (ackingRun 1)).env
        (CrudWebsocketSession.consumerIdOf bridgeHello) = some 1 ∧
      outboxFrame (runOps {} (ackingRun 1)).env 2 = none ∧
      outboxFrame (newRecord.run (runOps {} (ackingRun 1))).env 2 =
        some (serializeFrame .snapshot (str "h") [1] 0) ∧
      ((storedAck (runOps {} (ackingRun 1 ++ [newRecord])).env
        (CrudWebsocketSession.consumerIdOf bridgeHello)).getD 0 < 2) ∧
      (runOps {} (ackingRun 1 ++ [newRecord])).isOpen = true := by
  decide +kernel

theorem ack_never_hides_acking :
    storedAck (runOps {} (ackingRun 1)).env (CrudWebsocketSession.consumerIdOf bridgeHello) = some 1 ∧ (1 : UInt64) < 2 ∧
      ∃ record, parseFrame 2 (serializeFrame .snapshot (str "h") [1] 0) = .ok record ∧
        ∀ maxItems, (pending (runOps {} (ackingRun 1 ++ [newRecord])).env (CrudWebsocketSession.consumerIdOf bridgeHello)).length ≤
            maxItems → maxItems ≤ maxRecords →
          ∃ records, (runOps {} (ackingRun 1 ++ [newRecord])).fetchTransportBatchForConsumer
            (CrudWebsocketSession.consumerIdOf bridgeHello) maxItems [] = .ok (some records) ∧
              record ∈ records := by
  obtain ⟨hallowed, hack, hnone, hsome, hpending, hopen⟩ := ackingRun_below
  obtain ⟨hlt, hfetched⟩ :=
    (@ack_never_hides (ackingRun 1 ++ [newRecord]) hallowed).2 (ackingRun 1)
      newRecord [] rfl (CrudWebsocketSession.consumerIdOf bridgeHello) 1 2 (serializeFrame .snapshot (str "h") [1] 0) hack
      hnone hsome
  exact ⟨hack, hlt, hfetched hpending hopen⟩

theorem ackingRun_beyond :
    storedAck (runOps {} (ackingRun 5)).env
        (CrudWebsocketSession.consumerIdOf bridgeHello) = some 5 ∧
      nextSequenceOf (runOps {} (ackingRun 5)).env ≤ 5 ∧
      outboxFrame (runOps {} (ackingRun 5)).env 2 = none ∧
      outboxFrame (runOps {} (ackingRun 5 ++ [newRecord])).env 2 =
        some (serializeFrame .snapshot (str "h") [1] 0) := by
  decide +kernel

/-- An ack from beyond the counter is stored, and the next record stays behind it. -/
theorem ack_hides_beyond :
    (¬ ∀ c a, storedAck (runOps {} (ackingRun 5)).env c = some a →
      a < nextSequenceOf (runOps {} (ackingRun 5)).env) ∧
      storedAck (runOps {} (ackingRun 5)).env (CrudWebsocketSession.consumerIdOf bridgeHello) =
        some 5 ∧
      outboxFrame (runOps {} (ackingRun 5)).env 2 = none ∧
      outboxFrame (runOps {} (ackingRun 5 ++ [newRecord])).env 2 =
        some (serializeFrame .snapshot (str "h") [1] 0) ∧
      (runOps {} (ackingRun 5 ++ [newRecord])).fetchTransportBatchForConsumer
        (CrudWebsocketSession.consumerIdOf bridgeHello) 64 [] = .ok (some []) := by
  obtain ⟨hack, hcounter, hnone, hsome⟩ := ackingRun_beyond
  exact ⟨fun hall => not_lt.mpr hcounter (hall _ 5 hack), hack, hnone, hsome, rfl⟩

end ServerStorage.Muninn
