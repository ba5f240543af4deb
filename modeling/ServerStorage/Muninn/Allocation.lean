/-
# `ServerStorage.Muninn.Allocation` — how sequences are given out

The counter is read and raised in the transaction that puts the record, so every
record that is new after a step is numbered from the counter before it on; compaction
and reopening leave the counter.  Over a run the numbers given out only grow.
-/
import ServerStorage.Muninn.StoreRuns

namespace ServerStorage.Muninn

open Lib Lmdb Dbi Crud Relation LmdbStore

/-! ## The invariant -/

/-- Every ack is allowed, and records as long as the counter stays within the bound. -/
def withinGuard (bound : Nat) : Guard where
  ack _ _ := True
  enqueue env := (nextSequenceOf env).toNat + 1 ≤ bound

/-- Every key of the outbox is a sequence below the counter. -/
structure Numbered (env : Env Dbi) : Prop where
  counter : 0 < nextSequenceOf env
  keys : ∀ e ∈ (env.db transportDbi).entries, e.1.length = 8 ∧ 0 < decodeU64Be e.1 ∧
    decodeU64Be e.1 < nextSequenceOf env

theorem numbered_empty (mapSize : UInt64) : Numbered { db := fun _ => {}, mapSize := mapSize } where
  counter := by rw [show nextSequenceOf _ = 1 from rfl]; decide
  keys _ h := absurd h (by simp)

/-- What a run does to counter and outbox. -/
structure Grows (bound : Nat) (env env' : Env Dbi) : Prop where
  counter : nextSequenceOf env ≤ nextSequenceOf env'
  bounded : (nextSequenceOf env').toNat ≤ max (nextSequenceOf env).toNat bound
  records : ∀ e ∈ (env'.db transportDbi).entries, e ∈ (env.db transportDbi).entries ∨
    (e.1.length = 8 ∧ nextSequenceOf env ≤ decodeU64Be e.1 ∧
      decodeU64Be e.1 < nextSequenceOf env')

theorem Grows.refl (bound : Nat) (env : Env Dbi) : Grows bound env env :=
  ⟨le_rfl, le_max_left _ _, fun _ h => .inl h⟩

/-- A step that leaves counter and outbox, or only drops records. -/
theorem Grows.drop {bound : Nat} {env env' : Env Dbi}
    (hcounter : nextSequenceOf env' = nextSequenceOf env)
    (hrecords : ∀ e ∈ (env'.db transportDbi).entries, e ∈ (env.db transportDbi).entries) :
    Grows bound env env' :=
  ⟨hcounter.ge, hcounter ▸ le_max_left _ _, fun e he => .inl (hrecords e he)⟩

theorem OutboxStep.grows {bound : Nat} (hbound : bound < 2 ^ 64) {env env' : Env Dbi}
    (h : OutboxStep (withinGuard bound) env env') : Grows bound env env' := by
  cases h with
  | ack => exact .drop (nextSequenceOf_acked ..) fun e he => by rwa [outbox_acked] at he
  | register => exact .drop (nextSequenceOf_acked ..) fun e he => by rwa [outbox_acked] at he
  | enqueue hsize hroom _ =>
      have hroom : (nextSequenceOf env).toNat + 1 ≤ bound := hroom
      have hnext := toNat_succ (n := nextSequenceOf env) (by omega)
      have hlt := lt_succ (n := nextSequenceOf env) (by omega)
      refine ⟨by rw [nextSequenceOf_enqueued]; exact hlt.le, ?_, fun e he => ?_⟩
      · rw [nextSequenceOf_enqueued, hnext]
        exact hroom.trans (le_max_right _ _)
      · rw [outbox_enqueued, Db.mem_put] at he
        rcases he with rfl | ⟨he, -⟩
        · right
          rw [nextSequenceOf_enqueued]
          simp only [decodeU64Be_encodeU64Be]
          exact ⟨encodeU64Be_length _, le_rfl, hlt⟩
        · exact .inl he
  | compact _ =>
      exact .drop (nextSequenceOf_compacted ..) fun e he => by
        rw [outbox_compacted, Db.mem_filter] at he
        exact he.1
  | setCounter hnone =>
      have hone : nextSequenceOf env = 1 := by rw [nextSequenceOf, hnone]; rfl
      exact .drop (by rw [nextSequenceOf_counted, hone]) fun e he => by rwa [outbox_counted] at he
  | other hsame => exact .drop hsame.nextSequenceOf fun e he => by rwa [hsame.2.1] at he

theorem OutboxRun.grows {bound : Nat} (hbound : bound < 2 ^ 64) {env env' : Env Dbi}
    (h : OutboxRun (withinGuard bound) env env') : Grows bound env env' := by
  induction h with
  | refl => exact .refl _ _
  | tail _ hstep ih =>
      have hnext := hstep.grows hbound
      refine ⟨ih.counter.trans hnext.counter, ?_, fun e he => ?_⟩
      · exact hnext.bounded.trans (max_le ih.bounded (le_max_right _ _))
      · rcases hnext.records e he with he | ⟨hlen, hge, hlt⟩
        · refine (ih.records e he).imp_right fun ⟨hlen, hge, hlt⟩ => ?_
          exact ⟨hlen, hge, hlt.trans_le hnext.counter⟩
        · exact .inr ⟨hlen, ih.counter.trans hge, hlt⟩

theorem Numbered.grows {bound : Nat} {env env' : Env Dbi} (h : Numbered env)
    (hgrows : Grows bound env env') : Numbered env' := by
  refine ⟨h.counter.trans_le hgrows.counter, fun e he => ?_⟩
  rcases hgrows.records e he with he | ⟨hlen, hge, hlt⟩
  · obtain ⟨hlen, hpos, hlt⟩ := h.keys e he
    exact ⟨hlen, hpos, hlt.trans_le hgrows.counter⟩
  · exact ⟨hlen, h.counter.trans_le hge, hlt⟩

/-! ## Runs -/

/-- A step enqueues no more than it was asked to. -/
theorem StoreOp.within {bound : Nat} (op : StoreOp) (store : LmdbStore)
    (h : (nextSequenceOf store.env).toNat + op.demand ≤ bound) (hbound : bound < 2 ^ 64) :
    OutboxRun (withinGuard bound) store.env (op.run store).env := by
  refine StoreOp.outboxRun (fun _ => trivial)
    ⟨fun hne env heq => ?_, fun htwo env heq => ?_, fun _ _ => trivial, fun _ => trivial⟩
  · show (nextSequenceOf env).toNat + 1 ≤ bound
    rw [heq]
    omega
  · show (nextSequenceOf env).toNat + 1 ≤ bound
    rcases heq with heq | heq
    · rw [heq]
      omega
    · rw [heq, toNat_succ (by omega)]
      omega

def demands (ops : List StoreOp) : Nat := (ops.map StoreOp.demand).sum

theorem runOps_within {bound : Nat} (hbound : bound < 2 ^ 64) :
    ∀ (ops : List StoreOp) (store : LmdbStore),
      (nextSequenceOf store.env).toNat + demands ops ≤ bound →
        OutboxRun (withinGuard bound) store.env (runOps store ops).env
  | [], _, _ => .refl
  | op :: rest, store, h => by
      rw [demands, List.map_cons, List.sum_cons] at h
      have hroom : (nextSequenceOf store.env).toNat + op.demand < 2 ^ 64 := by omega
      have hle := ((op.within store le_rfl hroom).grows hroom).bounded
      rw [max_eq_right (Nat.le_add_right _ _)] at hle
      have hop := op.within store (by omega) hbound
      exact hop.trans (runOps_within hbound rest (op.run store) (by rw [demands]; omega))

theorem runOps_grows (ops : List StoreOp) (store : LmdbStore)
    (h : (nextSequenceOf store.env).toNat + demands ops < 2 ^ 64) :
    Grows ((nextSequenceOf store.env).toNat + demands ops) store.env (runOps store ops).env :=
  (runOps_within h ops store le_rfl).grows h

/-! ## The result -/

/-- The sequences of the records that are new, or other than before. -/
def newSequences (before after : Env Dbi) : List UInt64 :=
  ((after.db transportDbi).entries.filter fun e => e ∉ (before.db transportDbi).entries).map
    fun e => decodeU64Be e.1

/-- The sequences a run gives out, in its order. -/
def allocated : LmdbStore → List StoreOp → List UInt64
  | _, [] => []
  | store, op :: rest =>
      newSequences store.env (op.run store).env ++ allocated (op.run store) rest

theorem mem_newSequences {bound : Nat} {env env' : Env Dbi} (h : Grows bound env env')
    {s : UInt64} (hs : s ∈ newSequences env env') :
    nextSequenceOf env ≤ s ∧ s < nextSequenceOf env' := by
  obtain ⟨e, he, rfl⟩ := List.mem_map.mp hs
  obtain ⟨hmem, hnew⟩ := List.mem_filter.mp he
  exact ((h.records e hmem).resolve_left (of_decide_eq_true hnew)).2

theorem newSequences_sorted {bound : Nat} {env env' : Env Dbi} (h : Numbered env)
    (hgrows : Grows bound env env') : (newSequences env env').Pairwise (· < ·) := by
  rw [newSequences, List.pairwise_map]
  refine ((env'.db transportDbi).sorted.filter _).imp_of_mem fun {a b} ha hb hlt => ?_
  have hkeys := (h.grows hgrows).keys
  rw [← encodeU64Be_lt, encodeU64Be_decodeU64Be (hkeys a (List.mem_filter.mp ha).1).1,
    encodeU64Be_decodeU64Be (hkeys b (List.mem_filter.mp hb).1).1]
  exact hlt

theorem allocated_sorted : ∀ (ops : List StoreOp) {store : LmdbStore}, Numbered store.env →
    (nextSequenceOf store.env).toNat + demands ops < 2 ^ 64 →
      (allocated store ops).Pairwise (· < ·) ∧
        ∀ s ∈ allocated store ops, nextSequenceOf store.env ≤ s
  | [], _, _, _ => ⟨List.Pairwise.nil, fun _ h => absurd h List.not_mem_nil⟩
  | op :: rest, store, hnumbered, h => by
      rw [demands, List.map_cons, List.sum_cons] at h
      have hroom : (nextSequenceOf store.env).toNat + op.demand < 2 ^ 64 := by omega
      have hop := (op.within store le_rfl hroom).grows hroom
      have hle := hop.bounded
      rw [max_eq_right (Nat.le_add_right _ _)] at hle
      obtain ⟨hsorted, hfrom⟩ := allocated_sorted rest (hnumbered.grows hop)
        (by rw [demands]; omega)
      refine ⟨List.pairwise_append.mpr ⟨newSequences_sorted hnumbered hop, hsorted, ?_⟩, ?_⟩
      · intro s hs t ht
        exact (mem_newSequences hop hs).2.trans_le (hfrom t ht)
      · intro s hs
        rcases List.mem_append.mp hs with hs | hs
        · exact (mem_newSequences hop hs).1
        · exact hop.counter.trans (hfrom s hs)

/-- In a run from the empty store that enqueues fewer than `2^64 - 1` records, the
sequences given out strictly increase, every key of the outbox is below the counter,
and the counter never decreases. -/
theorem sequences_increase {ops : List StoreOp} (h : demands ops < 2 ^ 64 - 1) :
    (allocated {} ops).Pairwise (· < ·) ∧
      (∀ e ∈ ((runOps {} ops).env.db transportDbi).entries, ∃ s : UInt64,
        e.1 = encodeU64Be s ∧ 1 ≤ s ∧ s < nextSequenceOf (runOps {} ops).env) ∧
      ∀ pre post, ops = pre ++ post →
        nextSequenceOf (runOps {} pre).env ≤ nextSequenceOf (runOps {} ops).env := by
  have hone : (nextSequenceOf ({} : LmdbStore).env).toNat = 1 := rfl
  have hroom : (nextSequenceOf ({} : LmdbStore).env).toNat + demands ops < 2 ^ 64 := by omega
  have hnumbered := (numbered_empty 0).grows (runOps_grows _ _ hroom)
  refine ⟨(allocated_sorted _ (numbered_empty 0) hroom).1, fun e he => ?_, fun pre post hops => ?_⟩
  · obtain ⟨hlen, hpos, hlt⟩ := hnumbered.keys e he
    exact ⟨decodeU64Be e.1, (encodeU64Be_decodeU64Be hlen).symm,
      UInt64.le_iff_toNat_le.mpr (UInt64.lt_iff_toNat_lt.mp hpos), hlt⟩
  · subst hops
    rw [demands, List.map_append, List.sum_append] at h
    have hpre := runOps_grows pre {} (by rw [demands]; omega)
    have hle := hpre.bounded
    rw [max_eq_right (Nat.le_add_right _ _)] at hle
    rw [runOps_append]
    exact (runOps_grows post _ (by rw [demands] at hle ⊢; omega)).counter

/-- One record is enqueued, acked and compacted; after a reopening comes another. -/
def compactingRun : List StoreOp :=
  ackingRun 1 ++
    [.compactTransport [], .close, .openStore { directory := str "d" } none [], newRecord]

theorem sequences_increase_compacting :
    demands compactingRun = 2 ∧ allocated {} compactingRun = [1, 2] ∧
      (allocated {} compactingRun).Pairwise (· < ·) := by
  have hdemands : demands compactingRun = 2 := by decide +kernel
  exact ⟨hdemands, by decide +kernel, (sequences_increase (by rw [hdemands]; decide)).1⟩

end ServerStorage.Muninn
