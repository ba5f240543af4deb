/-
# `ServerStorage.Muninn.Retention` — retention keeps exactly the newest

In every state the methods of the store can reach, each snapshot stored can be read back
under its id (`Readable`).  There retention finds them all, and what it keeps is the first
part of their order, newest first.  That part is determined, so that two retentions come
to the one with the smaller bound.
-/
import ServerStorage.Muninn.Cleanup

namespace ServerStorage.Muninn

open Lib Lmdb Dbi LmdbStore

/-! ## The states the store can reach -/

/-- The methods that write, with any arguments. -/
inductive StoreMethod where
  | openStore (options : LmdbStoreOptions) (directoryError : Option Text) (io : List (Option Fault))
  | close
  | putSnapshot (snapshot : Snapshot) (validate : Bool) (clock : Clock) (io : List (Option Fault))
  | putSnapshotWithTransport (snapshot : Snapshot) (enqueue validate : Bool) (clock : Clock)
      (io : List (Option Fault))
  | putDelta (delta : DeltaSnapshot) (base target : Option Snapshot) (validate : Bool)
      (io : List (Option Fault))
  | putSnapshotAndDelta (snapshot : Snapshot) (delta : DeltaSnapshot) (base : Option Snapshot)
      (enqueue validate : Bool) (clock : Clock) (io : List (Option Fault))
  | enqueueSnapshot (snapshot : Snapshot) (validate : Bool) (clock : Clock)
      (io : List (Option Fault))
  | enqueueDelta (delta : DeltaSnapshot) (base target : Option Snapshot) (validate : Bool)
      (clock : Clock) (io : List (Option Fault))
  | registerTransportConsumer (consumerId : Str) (io : List (Option Fault))
  | ackTransportUntil (consumerId : Str) (inclusiveSequence : UInt64) (io : List (Option Fault))
  | compactTransport (io : List (Option Fault))
  | applySnapshotRetention (keepLatestSnapshots : Nat) (io : List (Option Fault))
  | deleteSnapshot (snapshotId : SnapshotId) (io : List (Option Fault))

def StoreMethod.run (store : LmdbStore) : StoreMethod → LmdbStore
  | openStore options directoryError io => (store.openStore options directoryError io).2
  | close => store.close
  | putSnapshot snapshot validate clock io => (store.putSnapshot snapshot validate clock io).2
  | putSnapshotWithTransport snapshot enqueue validate clock io =>
      (store.putSnapshotWithTransport snapshot enqueue validate clock io).2
  | putDelta delta base target validate io => (store.putDelta delta base target validate io).2
  | putSnapshotAndDelta snapshot delta base enqueue validate clock io =>
      (store.putSnapshotAndDeltaWithTransport snapshot delta base enqueue validate clock io).2
  | enqueueSnapshot snapshot validate clock io =>
      (store.enqueueSnapshot snapshot validate clock io).2
  | enqueueDelta delta base target validate clock io =>
      (store.enqueueDelta delta base target validate clock io).2
  | registerTransportConsumer consumerId io => (store.registerTransportConsumer consumerId io).2
  | ackTransportUntil consumerId inclusiveSequence io =>
      (store.ackTransportUntilForConsumer consumerId inclusiveSequence io).2
  | compactTransport io => (store.compactTransportUpToMinAcked io).2
  | applySnapshotRetention keep io => (store.applySnapshotRetention keep io).2.2
  | deleteSnapshot snapshotId io => (store.deleteSnapshot snapshotId io).2.2

/-- The store after the methods, from one that was never opened. -/
def reached (methods : List StoreMethod) : LmdbStore := methods.foldl StoreMethod.run {}

/-- Every snapshot can be read, under a key that is its id, and every delta key has two ids. -/
structure Readable (env : Env Dbi) : Prop where
  snapshots : ∀ e ∈ (env.db snapshotsDbi).entries, e.1.length = 8 ∧
    ∃ snapshot, Serialization.deserializeSnapshotBinary e.2 = .ok snapshot ∧
      snapshot.snapshotId = decodeU64Be e.1
  deltas : ∀ e ∈ (env.db deltasDbi).entries, e.1.length = 16

section
variable {env env' : Env Dbi}

theorem Readable.congr (h : Readable env) (hsnapshots : env'.db snapshotsDbi = env.db snapshotsDbi)
    (hdeltas : env'.db deltasDbi = env.db deltasDbi) : Readable env' where
  snapshots := hsnapshots ▸ h.snapshots
  deltas := hdeltas ▸ h.deltas

theorem Readable.withSnapshot (h : Readable env) {snapshot : Snapshot} {payload : Str}
    (hpayload : serializeSnapshot snapshot = .ok payload) :
    Readable (withSnapshot env snapshot.snapshotId payload) where
  snapshots e he := by
    rw [Muninn.withSnapshot, Env.set_db_self] at he
    rcases Db.mem_put.mp he with rfl | ⟨he, -⟩
    · exact ⟨encodeU64Be_length _, snapshot,
        Serialization.deserializeSnapshotBinary_serialize (serializeSnapshot_ok hpayload),
        (decodeU64Be_encodeU64Be _).symm⟩
    · exact h.snapshots e he
  deltas e he := by
    rw [Muninn.withSnapshot, Env.set_db_ne (by decide)] at he
    exact h.deltas e he

theorem Readable.withDelta (h : Readable env) (base target : SnapshotId) (payload : Str) :
    Readable (withDelta env base target payload) where
  snapshots e he := by
    rw [Muninn.withDelta, Env.set_db_ne (by decide)] at he
    exact h.snapshots e he
  deltas e he := by
    rw [Muninn.withDelta, Env.set_db_self] at he
    rcases Db.mem_put.mp he with rfl | ⟨he, -⟩
    · rfl
    · exact h.deltas e he

/-- A table that lost some of its pairs. -/
theorem Readable.filter (h : Readable env) (keep keep' : Str → Bool)
    (hsnapshots : env'.db snapshotsDbi = (env.db snapshotsDbi).filter keep)
    (hdeltas : env'.db deltasDbi = (env.db deltasDbi).filter keep') : Readable env' where
  snapshots e he := by
    rw [hsnapshots] at he
    exact h.snapshots e (Db.mem_filter.mp he).1
  deltas e he := by
    rw [hdeltas] at he
    exact h.deltas e (Db.mem_filter.mp he).1

theorem Readable.acked (h : Readable env) (consumerId : Str) (sequence : UInt64) :
    Readable (acked env consumerId sequence) :=
  h.congr (Env.set_db_ne (by decide)) (Env.set_db_ne (by decide))

theorem Readable.counted (h : Readable env) (nextSequence : UInt64) :
    Readable (counted env nextSequence) :=
  h.congr (Env.set_db_ne (by decide)) (Env.set_db_ne (by decide))

theorem Readable.enqueued (h : Readable env) (frame : Str) : Readable (enqueued env frame) :=
  (h.counted _).congr (Env.set_db_ne (by decide)) (Env.set_db_ne (by decide))

theorem Readable.enqueuedIf (h : Readable env) (enqueue : Bool) (frame : Str) :
    Readable (enqueuedIf enqueue env frame) := by
  cases enqueue with
  | false => exact h
  | true => exact h.enqueued frame

theorem Readable.compacted (h : Readable env) (ack : UInt64) : Readable (compacted env ack) :=
  h.congr (Env.set_db_ne (by decide)) (Env.set_db_ne (by decide))

theorem Readable.retained (h : Readable env) (ids : List SnapshotId) : Readable (retained env ids) :=
  h.filter (fun key => !dropSnapshot ids key) (fun key => !dropDelta ids key)
    (by rw [LmdbStore.retained, dropped, Env.set_db_ne (by decide), dropped, Env.set_db_self])
    (by rw [LmdbStore.retained, dropped, Env.set_db_self, dropped, Env.set_db_ne (by decide)])

theorem Readable.initialized (h : Readable env) (size : UInt64) :
    Readable (initialized (resized env size)) := by
  have hresized : Readable (resized env size) := h.congr rfl rfl
  rw [LmdbStore.initialized]
  split
  · exact hresized.counted 1
  · exact hresized

end

/-- A method that writes what can be read. -/
theorem readable_of_writes {store : LmdbStore} {result : StoreStatus × LmdbStore}
    {next : Env Dbi → Prop} (h : Readable store.env) (hwrites : store.Writes result next)
    (hnext : ∀ env, next env → Readable env) : Readable result.2.env := by
  rcases hwrites with ⟨-, heq⟩ | ⟨-, -, env, henv, heq⟩
  · rw [heq]
    exact h
  · rw [heq]
    exact hnext env henv

theorem Readable.step {store : LmdbStore} (h : Readable store.env) (method : StoreMethod) :
    Readable (method.run store).env := by
  cases method with
  | openStore options directoryError io =>
      rcases openStore_cases store options directoryError io with
        ⟨-, heq⟩ | ⟨-, -, heq⟩ | ⟨-, -, heq⟩
      · rw [StoreMethod.run, heq]
        exact h
      · rw [StoreMethod.run, heq]
        exact h
      · rw [StoreMethod.run, heq]
        exact h.initialized _
  | close => exact h
  | putSnapshot snapshot validate clock io =>
      refine readable_of_writes h (putSnapshot_writes store snapshot validate clock io) ?_
      rintro env ⟨payload, hpayload, rfl⟩
      exact h.withSnapshot hpayload
  | putSnapshotWithTransport snapshot enqueue validate clock io =>
      refine readable_of_writes h
        (putSnapshotWithTransport_writes store snapshot enqueue validate clock io) ?_
      rintro env ⟨payload, hpayload, rfl, -⟩
      exact (h.withSnapshot hpayload).enqueuedIf _ _
  | putDelta delta base target validate io =>
      refine readable_of_writes h (putDelta_writes store delta base target validate io) ?_
      rintro env ⟨payload, -, rfl⟩
      exact h.withDelta _ _ _
  | putSnapshotAndDelta snapshot delta base enqueue validate clock io =>
      refine readable_of_writes h
        (putSnapshotAndDelta_writes store snapshot delta base enqueue validate clock io) ?_
      rintro env ⟨payload, payload', hpayload, -, rfl, -⟩
      exact (((h.withSnapshot hpayload).withDelta _ _ _).enqueuedIf _ _).enqueuedIf _ _
  | enqueueSnapshot snapshot validate clock io =>
      refine readable_of_writes h (enqueueSnapshot_writes store snapshot validate clock io) ?_
      rintro env ⟨payload, -, rfl, -⟩
      exact h.enqueued _
  | enqueueDelta delta base target validate clock io =>
      refine readable_of_writes h (enqueueDelta_writes store delta base target validate clock io) ?_
      rintro env ⟨payload, -, rfl, -⟩
      exact h.enqueued _
  | registerTransportConsumer consumerId io =>
      refine readable_of_writes h (registerTransportConsumer_writes store consumerId io) ?_
      rintro env ⟨-, ⟨-, rfl⟩ | ⟨-, rfl⟩⟩
      · exact h
      · exact h.acked _ _
  | ackTransportUntil consumerId sequence io =>
      refine readable_of_writes h (ackTransportUntil_writes store consumerId sequence io) ?_
      rintro env ⟨-, ⟨-, -, -, rfl⟩ | ⟨-, rfl⟩⟩
      · exact h
      · exact h.acked _ _
  | compactTransport io =>
      refine readable_of_writes h (compactTransport_writes store io) ?_
      rintro env (⟨-, rfl⟩ | ⟨-, rfl⟩)
      · exact h
      · exact h.compacted _
  | applySnapshotRetention keep io =>
      refine readable_of_writes h (applySnapshotRetention_writes store keep io) ?_
      rintro env ⟨items, -, ⟨-, rfl⟩ | ⟨-, rfl⟩⟩
      · exact h
      · exact h.retained _
  | deleteSnapshot snapshotId io =>
      refine readable_of_writes h (deleteSnapshot_writes store snapshotId io) ?_
      rintro env ⟨hstored, rfl⟩
      have hdeleted := withoutSnapshot_deleted hstored
      exact h.filter _ _ hdeleted.snapshots hdeleted.deltas

theorem readable_reached (methods : List StoreMethod) : Readable (reached methods).env := by
  have hall : ∀ {store : LmdbStore}, Readable store.env →
      Readable (methods.foldl StoreMethod.run store).env := by
    induction methods with
    | nil => exact fun h => h
    | cons method methods ih => exact fun h => ih (h.step method)
  exact hall ⟨fun _ h => absurd h List.not_mem_nil, fun _ h => absurd h List.not_mem_nil⟩

/-! ## What is kept -/

def readSnapshot (e : Str × Str) : Option (SnapshotId × Snapshot) :=
  match Serialization.deserializeSnapshotBinary e.2 with
  | .ok snapshot => some (decodeU64Be e.1, snapshot)
  | .error _ => none

/-- The snapshots stored, under their ids. -/
def snapshotsIn (env : Env Dbi) : List (SnapshotId × Snapshot) :=
  (env.db snapshotsDbi).entries.filterMap readSnapshot

/-- The `k` of a list that are newer than all its others. -/
structure Newest (k : Nat) (l kept : List (SnapshotId × Snapshot)) : Prop where
  subset : ∀ x ∈ kept, x ∈ l
  nodup : kept.Nodup
  count : kept.length = k
  newer : ∀ x ∈ kept, ∀ y ∈ l, y ∉ kept → Archive.Newer x y

/-- The snapshots kept stay with the deltas between them, and what goes is counted. -/
structure Keeps (kept : List SnapshotId) (before after : Env Dbi) (stats : CleanupStats) :
    Prop where
  snapshots : after.db snapshotsDbi =
    (before.db snapshotsDbi).filter fun key => kept.contains (decodeU64Be key)
  deltas : after.db deltasDbi = (before.db deltasDbi).filter fun key =>
    kept.contains (deltaKeyIds key).1 && kept.contains (deltaKeyIds key).2
  others : ∀ dbi, dbi ≠ snapshotsDbi → dbi ≠ deltasDbi → after.db dbi = before.db dbi
  mapSize : after.mapSize = before.mapSize
  snapshotsRemoved : stats.snapshotsRemoved + (after.db snapshotsDbi).entries.length =
    (before.db snapshotsDbi).entries.length
  deltasRemoved : stats.deltasRemoved + (after.db deltasDbi).entries.length =
    (before.db deltasDbi).entries.length

section
variable {env env' after after' : Env Dbi} {stats stats' : CleanupStats} {ids : List SnapshotId}
  {l kept kept' : List (SnapshotId × Snapshot)} {k : Nat}

theorem filterMap_readSnapshot {entries : List (Str × Str)} (h : List.Forall₂ (fun e x =>
      x.1 = decodeU64Be e.1 ∧ Serialization.deserializeSnapshotBinary e.2 = .ok x.2) entries l) :
    entries.filterMap readSnapshot = l := by
  induction h with
  | nil => rfl
  | @cons e x entries l hread _ ih =>
      have hsome : readSnapshot e = some x := by
        rw [readSnapshot, hread.2, ← hread.1]
      rw [List.filterMap_cons_some hsome, ih]

/-- The first walk of the retention reads the snapshots stored. -/
theorem retentionItems_snapshotsIn {items : List SnapshotRetentionItem}
    (h : RetentionItems (env.db snapshotsDbi).entries items) :
    items = (snapshotsIn env).map retentionItem ∧
      (snapshotsIn env).length = (env.db snapshotsDbi).entries.length := by
  obtain ⟨l, rfl, hl⟩ := retentionItems_eq h
  have hsame : snapshotsIn env = l := filterMap_readSnapshot hl
  rw [hsame]
  exact ⟨rfl, hl.length_eq.symm⟩

/-- Keys of eight bytes stand for ids of their own. -/
theorem decoded_nodup {db : Db} (h : ∀ e ∈ db.entries, e.1.length = 8) :
    (db.entries.map fun e => decodeU64Be e.1).Nodup := by
  have hdistinct := db.sorted.imp fun hlt => hlt.ne
  refine List.pairwise_map.mpr (hdistinct.imp_of_mem fun {a b} ha hb hne heq => hne ?_)
  rw [← encodeU64Be_decodeU64Be (h a ha), heq, encodeU64Be_decodeU64Be (h b hb)]

theorem snapshotsIn_nodup (h : Readable env) : ((snapshotsIn env).map Prod.fst).Nodup := by
  refine nodup_map_filterMap (fun e x hx => ?_) (decoded_nodup fun e he => (h.snapshots e he).1)
  rw [readSnapshot] at hx
  split at hx
  · rw [← Option.some.inj hx]
  · cases hx

theorem newer_irrefl {x y : SnapshotId × Snapshot} (h : Archive.Newer x y)
    (h' : Archive.Newer y x) : False := by
  have hxy := retentionLess_iff.mp (retentionLess_item.mpr h)
  have hyx := retentionLess_iff.mp (retentionLess_item.mpr h')
  exact hxy.asymm hyx

/-- The ids that retention retains are those of the newest snapshots. -/
theorem retainedIds_newest (hl : (l.map Prod.fst).Nodup) (hk : k ≤ l.length) :
    Newest k l (l.filter fun x => (retainedIds k (l.map retentionItem)).contains x.1) ∧
      ∀ id, id ∈ retainedIds k (l.map retentionItem) ↔
        id ∈ (l.filter fun x => (retainedIds k (l.map retentionItem)).contains x.1).map
          Prod.fst := by
  set items := l.map retentionItem with hitems
  have hids : (items.map SnapshotRetentionItem.snapshotId).Nodup := by
    rw [hitems, List.map_map]
    exact hl
  have hperm := sortBy_perm retentionLess items
  have hsorted := retention_sorted hids
  have hsplit := List.take_append_drop k (sortBy retentionLess items)
  -- an item is among the first when its id is among theirs
  have hfirst : ∀ x ∈ l, x.1 ∈ retainedIds k items ↔
      retentionItem x ∈ (sortBy retentionLess items).take k := by
    intro x hx
    rw [retainedIds, List.mem_map]
    constructor
    · rintro ⟨item, hitem, hid⟩
      have hmem := hperm.mem_iff.mp (List.mem_of_mem_take hitem)
      have heq : item = retentionItem x :=
        List.inj_on_of_nodup_map hids hmem (List.mem_map_of_mem hx) hid
      exact heq ▸ hitem
    · exact fun h => ⟨_, h, rfl⟩
  have hkept : ∀ x, x ∈ l.filter (fun x => (retainedIds k items).contains x.1) ↔
      x ∈ l ∧ retentionItem x ∈ (sortBy retentionLess items).take k := by
    intro x
    rw [List.mem_filter, List.contains_iff_mem]
    exact and_congr_right (hfirst x)
  have hmem : ∀ id, id ∈ retainedIds k items ↔
      id ∈ (l.filter fun x => (retainedIds k items).contains x.1).map Prod.fst := by
    intro id
    rw [List.mem_map]
    constructor
    · intro hid
      obtain ⟨item, hitem, rfl⟩ := List.mem_map.mp hid
      obtain ⟨x, hx, rfl⟩ := List.mem_map.mp (hperm.mem_iff.mp (List.mem_of_mem_take hitem))
      exact ⟨x, (hkept x).mpr ⟨hx, hitem⟩, rfl⟩
    · rintro ⟨x, hx, rfl⟩
      exact List.contains_iff_mem.mp (List.mem_filter.mp hx).2
  have hnodup : (retainedIds k items).Nodup := by
    have htake := (List.take_sublist k (sortBy retentionLess items)).map
      SnapshotRetentionItem.snapshotId
    exact htake.nodup ((hperm.map SnapshotRetentionItem.snapshotId).nodup_iff.mpr hids)
  have hfilter : ((l.filter fun x => (retainedIds k items).contains x.1).map Prod.fst).Nodup :=
    (List.filter_sublist.map Prod.fst).nodup hl
  refine ⟨⟨fun x hx => (List.mem_filter.mp hx).1, hfilter.of_map, ?_, ?_⟩, hmem⟩
  · have hlength := ((List.perm_ext_iff_of_nodup hfilter hnodup).mpr fun id =>
      (hmem id).symm).length_eq
    rw [List.length_map] at hlength
    rw [hlength, retainedIds, List.length_map, List.length_take, hperm.length_eq, hitems,
      List.length_map, min_eq_left hk]
  · intro x hx y hy hnot
    have hxfirst := ((hkept x).mp hx).2
    have hyrest : retentionItem y ∈ (sortBy retentionLess items).drop k := by
      have hall := hperm.mem_iff.mpr (List.mem_map_of_mem hy)
      rw [← hsplit, List.mem_append] at hall
      exact hall.resolve_left fun h => hnot ((hkept y).mpr ⟨hy, h⟩)
    rw [← hsplit] at hsorted
    exact retentionLess_item.mp ((List.pairwise_append.mp hsorted).2.2 _ hxfirst _ hyrest)

/-- The newest ones are determined. -/
theorem Newest.unique (h : Newest k l kept) (h' : Newest k l kept') {x : SnapshotId × Snapshot}
    (hx : x ∈ kept) : x ∈ kept' := by
  by_contra hnot
  -- as many on both sides, so that one of the others takes the place of `x`
  have hother : ∃ y ∈ kept', y ∉ kept := by
    by_contra hall
    have hsub : kept' ⊆ kept := fun y hy => by
      by_contra hy'
      exact hall ⟨y, hy, hy'⟩
    have hperm := (h'.nodup.subperm hsub).perm_of_length_le
      (h.count.trans h'.count.symm).le
    exact hnot (hperm.mem_iff.mpr hx)
  obtain ⟨y, hy, hykept⟩ := hother
  exact newer_irrefl (h.newer x hx y (h'.subset y hy) hykept)
    (h'.newer y hy x (h.subset x hx) hnot)

/-- What is kept of what was kept. -/
theorem Newest.trans {k₁ k₂ : Nat} (h : Newest k₁ l kept) (h' : Newest k₂ kept kept') :
    Newest k₂ l kept' where
  subset x hx := h.subset x (h'.subset x hx)
  nodup := h'.nodup
  count := h'.count
  newer x hx y hy hnot := by
    by_cases hykept : y ∈ kept
    · exact h'.newer x hx y hykept hnot
    · exact h.newer x (h'.subset x hx) y hy hykept

theorem Newest.congr {l' : List (SnapshotId × Snapshot)} (h : Newest k l kept)
    (hl : ∀ x, x ∈ l' ↔ x ∈ l) : Newest k l' kept where
  subset x hx := (hl x).mpr (h.subset x hx)
  nodup := h.nodup
  count := h.count
  newer x hx y hy hnot := h.newer x hx y ((hl y).mp hy) hnot

theorem contains_congr {ids ids' : List SnapshotId} (h : ∀ id, id ∈ ids ↔ id ∈ ids')
    (id : SnapshotId) : ids.contains id = ids'.contains id := by
  rw [Bool.eq_iff_iff, List.contains_iff_mem, List.contains_iff_mem, h]

/-- What is kept determines the state. -/
theorem Keeps.unique {ids' : List SnapshotId} (h : Keeps ids env after stats)
    (h' : Keeps ids' env after' stats') (hids : ∀ id, id ∈ ids ↔ id ∈ ids') : after = after' := by
  have hdb : after.db = after'.db := by
    funext dbi
    by_cases hs : dbi = snapshotsDbi
    · rw [hs, h.snapshots, h'.snapshots]
      exact Db.filter_congr fun e _ => contains_congr hids _
    · by_cases hd : dbi = deltasDbi
      · rw [hd, h.deltas, h'.deltas]
        exact Db.filter_congr fun e _ => by rw [contains_congr hids, contains_congr hids]
      · rw [h.others dbi hs hd, h'.others dbi hs hd]
  cases after
  cases after'
  exact congrArg₂ Env.mk hdb (h.mapSize.trans h'.mapSize.symm)

end

/-! ## Retention -/

section
variable {store : LmdbStore} {k : Nat} {io : List (Option Fault)}

theorem retained_keeps (env : Env Dbi) (ids : List SnapshotId) :
    Keeps ids env (LmdbStore.retained env ids)
      { snapshotsRemoved := countKeys (env.db snapshotsDbi) (dropSnapshot ids)
        deltasRemoved := countKeys (env.db deltasDbi) (dropDelta ids) } := by
  have hsnapshots : (LmdbStore.retained env ids).db snapshotsDbi =
      (env.db snapshotsDbi).filter fun key => !dropSnapshot ids key := by
    rw [LmdbStore.retained, dropped, Env.set_db_ne (by decide), dropped, Env.set_db_self]
  have hdeltas : (LmdbStore.retained env ids).db deltasDbi =
      (env.db deltasDbi).filter fun key => !dropDelta ids key := by
    rw [LmdbStore.retained, dropped, Env.set_db_self, dropped, Env.set_db_ne (by decide)]
  refine ⟨?_, ?_, fun dbi hs hd => ?_, rfl, ?_, ?_⟩
  · rw [hsnapshots]
    exact Db.filter_congr fun e _ => by rw [dropSnapshot, Bool.not_not]
  · rw [hdeltas]
    exact Db.filter_congr fun e _ => by rw [dropDelta, Bool.not_not]
  · rw [LmdbStore.retained, dropped, Env.set_db_ne hd, dropped, Env.set_db_ne hs]
  · rw [hsnapshots]
    exact countKeys_add_filter _ _
  · rw [hdeltas]
    exact countKeys_add_filter _ _

/-- What retention does, where the snapshots can be read. -/
def Retains (k : Nat) (before : Env Dbi) (stats : CleanupStats) (after : Env Dbi) : Prop :=
  if k < (snapshotsIn before).length then
    ∃ kept, Newest k (snapshotsIn before) kept ∧ Keeps (kept.map Prod.fst) before after stats
  else stats = {} ∧ after = before

theorem applySnapshotRetention_retains (h : Readable store.env) (k : Nat)
    (io : List (Option Fault)) :
    store.Cleans (store.applySnapshotRetention k io) (Retains k store.env) := by
  rcases applySnapshotRetention_cleans store k io with
    hfailed | ⟨hok, hopen, env, ⟨items, hitems, hnext⟩, heq⟩
  · exact .inl hfailed
  · refine .inr ⟨hok, hopen, env, ?_, heq⟩
    obtain ⟨rfl, -⟩ := retentionItems_snapshotsIn hitems
    rw [List.length_map] at hnext
    rw [Retains]
    rcases hnext with ⟨hfew, hstats, henv⟩ | ⟨hmore, rfl, hstats⟩
    · rw [if_neg (not_lt.mpr hfew)]
      exact ⟨hstats, henv⟩
    · rw [if_pos hmore, hstats]
      obtain ⟨hnewest, hids⟩ := retainedIds_newest (snapshotsIn_nodup h) hmore.le
      refine ⟨_, hnewest, ?_⟩
      have hkeeps := retained_keeps store.env
        (retainedIds k ((snapshotsIn store.env).map retentionItem))
      exact { hkeeps with
        snapshots := hkeeps.snapshots.trans
          (Db.filter_congr fun e _ => contains_congr hids _)
        deltas := hkeeps.deltas.trans
          (Db.filter_congr fun e _ => by rw [contains_congr hids, contains_congr hids]) }

/-- Where the snapshots can be read and no call fails, retention goes through. -/
theorem applySnapshotRetention_nil (hopen : store.isOpen = true) (h : Readable store.env)
    (k : Nat) : (store.applySnapshotRetention k []).1 = .success := by
  have hbody : ∀ e ∈ (store.env.db snapshotsDbi).entries,
      ∀ (items : List SnapshotRetentionItem) (env : Env Dbi), ∃ r env',
        Runs (retentionBody items e.1 e.2) env r env' := by
    intro e he items env
    obtain ⟨hsize, snapshot, hread, -⟩ := h.snapshots e he
    refine ⟨(items ++ [{ snapshotId := decodeU64Be e.1, createdAt := snapshot.createdAt }], true),
      env, .bind (.failIf env (not_not.mpr hsize)) ?_⟩
    rw [hread]
    exact .pure _ _
  obtain ⟨items, env₁, hloop⟩ := Runs.cursorLoop
    (runs_callAs "mdb_cursor_get(apply_snapshot_retention:snapshots)") hbody [] store.env
    (runs_callAs "mdb_cursor_get(apply_snapshot_retention:snapshots)" store.env)
  obtain rfl : env₁ = store.env := (retentionLoop_ok hloop).2
  have hopens := runs_cursorOpen "mdb_cursor_open(apply_snapshot_retention:snapshots)" snapshotsDbi
    store.env
  rw [applySnapshotRetention, hopen, if_neg (by decide)]
  by_cases hfew : items.length ≤ k
  · refine writeTxn_nil .abort {} store.env (.bind hopens (.bind hloop ?_))
    rw [if_pos hfew]
    exact .pure _ _
  · obtain ⟨removed, env₂, hloop₁⟩ := runs_deleteLoop snapshotsDbi 8
      "Invalid snapshot key size." "mdb_cursor_open(apply_snapshot_retention:delete_snapshots)"
      "mdb_cursor_get(apply_snapshot_retention:delete_snapshots)"
      "mdb_cursor_del(apply_snapshot_retention:snapshot)" (dropSnapshot (retainedIds k items))
      (by decide) fun e he => (h.snapshots e he).1
    have henv₂ : env₂ = dropped store.env snapshotsDbi (dropSnapshot (retainedIds k items)) :=
      (deleteLoop_ok hloop₁).1
    have hkeys : ∀ e ∈ (env₂.db deltasDbi).entries, e.1.length = 16 := by
      rw [henv₂, dropped, Env.set_db_ne (by decide)]
      exact h.deltas
    obtain ⟨removed', env₃, hloop₂⟩ := runs_deleteLoop deltasDbi 16 "Invalid delta key size."
      "mdb_cursor_open(apply_snapshot_retention:deltas)"
      "mdb_cursor_get(apply_snapshot_retention:deltas)"
      "mdb_cursor_del(apply_snapshot_retention:delta)" (dropDelta (retainedIds k items))
      (by decide) hkeys
    refine writeTxn_nil .commit { snapshotsRemoved := removed, deltasRemoved := removed' } env₃
      (.bind hopens (.bind hloop ?_))
    rw [if_neg hfew]
    exact .bind hloop₁ (.bind hloop₂ (.pure _ _))

/-! ### Two in a row -/

theorem mem_snapshotsIn_kept {env after : Env Dbi} {stats : CleanupStats}
    {kept : List (SnapshotId × Snapshot)} (hl : ((snapshotsIn env).map Prod.fst).Nodup)
    (hkept : ∀ x ∈ kept, x ∈ snapshotsIn env) (h : Keeps (kept.map Prod.fst) env after stats)
    (x : SnapshotId × Snapshot) : x ∈ snapshotsIn after ↔ x ∈ kept := by
  have hid : ∀ {e : Str × Str}, readSnapshot e = some x → x.1 = decodeU64Be e.1 := by
    intro e he
    rw [readSnapshot] at he
    split at he
    · rw [← Option.some.inj he]
    · cases he
  rw [snapshotsIn, List.mem_filterMap, h.snapshots]
  constructor
  · rintro ⟨e, he, hread⟩
    obtain ⟨hmem, hcontains⟩ := Db.mem_filter.mp he
    rw [List.contains_iff_mem, ← hid hread] at hcontains
    obtain ⟨y, hy, heq⟩ := List.mem_map.mp hcontains
    have hx : x ∈ snapshotsIn env := List.mem_filterMap.mpr ⟨e, hmem, hread⟩
    rwa [← List.inj_on_of_nodup_map hl (hkept y hy) hx heq]
  · intro hx
    obtain ⟨e, he, hread⟩ := List.mem_filterMap.mp (hkept x hx)
    refine ⟨e, Db.mem_filter.mpr ⟨he, ?_⟩, hread⟩
    rw [List.contains_iff_mem, ← hid hread]
    exact List.mem_map_of_mem hx

theorem Keeps.trans {env env₁ env₂ : Env Dbi} {stats stats' : CleanupStats}
    {ids ids' : List SnapshotId} (h : Keeps ids env env₁ stats) (h' : Keeps ids' env₁ env₂ stats')
    (hsub : ∀ id ∈ ids', id ∈ ids) : ∃ stats'', Keeps ids' env env₂ stats'' := by
  have hboth : ∀ id, (ids.contains id && ids'.contains id) = ids'.contains id := by
    intro id
    rw [Bool.eq_iff_iff, Bool.and_eq_true, List.contains_iff_mem, List.contains_iff_mem]
    exact ⟨And.right, fun hid => ⟨hsub id hid, hid⟩⟩
  have hfilter : ∀ (db : Db) (p q : Str → Bool), (db.filter p).filter q =
      db.filter fun key => p key && q key := fun db p q =>
    Db.ext_get fun key => by
      rw [Db.get_filter, Db.get_filter, Db.get_filter]
      cases q key <;> simp
  refine ⟨{ snapshotsRemoved := stats.snapshotsRemoved + stats'.snapshotsRemoved
            deltasRemoved := stats.deltasRemoved + stats'.deltasRemoved }, ?_⟩
  refine ⟨?_, ?_, fun dbi hs hd => (h'.others dbi hs hd).trans (h.others dbi hs hd),
    h'.mapSize.trans h.mapSize, ?_, ?_⟩
  · rw [h'.snapshots, h.snapshots, hfilter]
    exact Db.filter_congr fun e _ => hboth _
  · rw [h'.deltas, h.deltas, hfilter]
    refine Db.filter_congr fun e _ => ?_
    rw [Bool.and_assoc, Bool.and_left_comm (ids.contains _) (ids'.contains _), ← Bool.and_assoc,
      hboth, hboth]
  · rw [← h.snapshotsRemoved, ← h'.snapshotsRemoved]
    exact (Nat.add_assoc _ _ _)
  · rw [← h.deltasRemoved, ← h'.deltasRemoved]
    exact (Nat.add_assoc _ _ _)

theorem Retains.unique {env env₁ env₂ : Env Dbi} {stats stats' : CleanupStats}
    (h : Retains k env stats env₁) (h' : Retains k env stats' env₂) : env₁ = env₂ := by
  rw [Retains] at h h'
  split at h
  next hmore =>
    rw [if_pos hmore] at h'
    obtain ⟨kept, hnewest, hkeeps⟩ := h
    obtain ⟨kept', hnewest', hkeeps'⟩ := h'
    have hsame : ∀ x, x ∈ kept ↔ x ∈ kept' :=
      fun x => ⟨hnewest.unique hnewest', hnewest'.unique hnewest⟩
    exact hkeeps.unique hkeeps' fun id => by simp only [List.mem_map, hsame]
  next hfew =>
    rw [if_neg hfew] at h'
    rw [h.2, h'.2]

/-- Retention after retention is retention with the smaller bound. -/
theorem Retains.trans {env env₁ env₂ : Env Dbi} {stats stats' : CleanupStats} {k' : Nat}
    (hl : ((snapshotsIn env).map Prod.fst).Nodup) (h : Retains k env stats env₁)
    (h' : Retains k' env₁ stats' env₂) : ∃ stats'', Retains (min k k') env stats'' env₂ := by
  have hcases := h
  rw [Retains] at hcases
  split at hcases
  next hmore =>
    obtain ⟨kept, hnewest, hkeeps⟩ := hcases
    have hmem := mem_snapshotsIn_kept hl hnewest.subset hkeeps
    have hl₁ : (snapshotsIn env₁).length = k := by
      have hnodup : (snapshotsIn env₁).Nodup := by
        rw [snapshotsIn, hkeeps.snapshots]
        exact (((List.filter_sublist.filterMap readSnapshot).map Prod.fst).nodup hl).of_map
      rw [← hnewest.count]
      exact ((List.perm_ext_iff_of_nodup hnodup hnewest.nodup).mpr hmem).length_eq
    rw [Retains, hl₁] at h'
    split at h'
    next hless =>
      obtain ⟨kept', hnewest', hkeeps'⟩ := h'
      have hinner : Newest k' kept kept' := hnewest'.congr fun x => (hmem x).symm
      obtain ⟨stats'', hboth⟩ := hkeeps.trans hkeeps' fun id hid => by
        obtain ⟨x, hx, rfl⟩ := List.mem_map.mp hid
        exact List.mem_map_of_mem (hinner.subset x hx)
      refine ⟨stats'', ?_⟩
      rw [min_eq_right hless.le, Retains, if_pos (hless.trans hmore)]
      exact ⟨kept', hnewest.trans hinner, hboth⟩
    next hnot =>
      rw [h'.2, min_eq_left (not_lt.mp hnot)]
      exact ⟨stats, h⟩
  next hfew =>
    rw [hcases.2] at h'
    rcases le_total k k' with hle | hle
    · rw [Retains, if_neg (not_lt.mpr ((not_lt.mp hfew).trans hle))] at h'
      rw [h'.2, min_eq_left hle]
      exact ⟨stats, hcases.2 ▸ h⟩
    · rw [min_eq_right hle]
      exact ⟨stats', h'⟩

/-- In every state the store can reach, retention keeps exactly the newest snapshots and the deltas
between them, and counts the others; and two retentions come to one. -/
theorem retention_exact (methods : List StoreMethod) (k : Nat) (io : List (Option Fault)) :
    let store := reached methods
    let result := store.applySnapshotRetention k io
    ((result.1.ok = false ∧ result.2.1 = {} ∧ result.2.2 = store) ∨
      (result.1 = .success ∧ result.2.2.isOpen = store.isOpen ∧
        if k < (store.env.db snapshotsDbi).entries.length then
          ∃ kept, Newest k (snapshotsIn store.env) kept ∧
            Keeps (kept.map Prod.fst) store.env result.2.2.env result.2.1
        else result.2.1 = {} ∧ result.2.2 = store)) ∧
    (snapshotsIn store.env).length = (store.env.db snapshotsDbi).entries.length ∧
    (store.isOpen = true → io = [] → result.1 = .success) ∧
    ∀ (k' : Nat) (io' io'' : List (Option Fault)), result.1.ok = true →
      (result.2.2.applySnapshotRetention k' io').1.ok = true →
      (store.applySnapshotRetention (min k k') io'').1.ok = true →
      (result.2.2.applySnapshotRetention k' io').2.2 =
        (store.applySnapshotRetention (min k k') io'').2.2 := by
  intro store result
  have hreadable : Readable store.env := readable_reached methods
  have hlength : (snapshotsIn store.env).length = (store.env.db snapshotsDbi).entries.length := by
    have hkeys : ∀ e ∈ (store.env.db snapshotsDbi).entries, (readSnapshot e).isSome = true := by
      intro e he
      obtain ⟨-, snapshot, hread, -⟩ := hreadable.snapshots e he
      rw [readSnapshot, hread]
      rfl
    exact List.filterMap_length_eq_length.mpr hkeys
  have hretains := applySnapshotRetention_retains hreadable k io
  refine ⟨?_, hlength, ?_, ?_⟩
  · rcases hretains with hfailed | ⟨hok, -, env, hnext, heq⟩
    · exact .inl hfailed
    · refine .inr ⟨hok, by rw [show result.2.2 = _ from heq], ?_⟩
      rw [Retains, hlength] at hnext
      split at hnext
      next hmore =>
        rw [if_pos hmore, show result.2.2 = _ from heq]
        exact hnext
      next hfew =>
        rw [if_neg hfew, show result.2.2 = _ from heq]
        exact ⟨hnext.1, by rw [hnext.2]⟩
  · rintro hopen rfl
    exact applySnapshotRetention_nil hopen hreadable k
  · intro k' io' io'' hok hok' hok''
    have hreadable' : Readable result.2.2.env :=
      hreadable.step (.applySnapshotRetention k io)
    have hsucceeds : ∀ {s : LmdbStore} {r : StoreStatus × CleanupStats × LmdbStore}
        {next : CleanupStats → Env Dbi → Prop}, s.Cleans r next → r.1.ok = true →
        ∃ env, next r.2.1 env ∧ r.2.2 = { s with env := env } := by
      intro s r next hcleans hok
      rcases hcleans with ⟨hfailed, -⟩ | ⟨-, -, hnext⟩
      · exact absurd hok (by rw [show r.1.ok = false from hfailed]; decide)
      · exact hnext
    obtain ⟨env₁, hnext₁, heq₁⟩ := hsucceeds hretains hok
    obtain ⟨env₂, hnext₂, heq₂⟩ :=
      hsucceeds (applySnapshotRetention_retains hreadable' k' io') hok'
    obtain ⟨env₃, hnext₃, heq₃⟩ :=
      hsucceeds (applySnapshotRetention_retains hreadable (min k k') io'') hok''
    rw [show result.2.2 = _ from heq₁] at hnext₂ heq₂
    obtain ⟨stats, hboth⟩ := hnext₁.trans (snapshotsIn_nodup hreadable) hnext₂
    rw [show result.2.2 = _ from heq₁, heq₂, heq₃, hboth.unique hnext₃]

/-- Two snapshots of the same second. -/
def twoPut : List StoreMethod :=
  [.openStore { directory := str "d" } none [],
    .putSnapshot { snapshotId := 7, createdAt := 5 } false {} [],
    .putSnapshot { snapshotId := 9, createdAt := 5 } false {} []]

theorem retention_exact_two : ∃ kept, Newest 1 (snapshotsIn (reached twoPut).env) kept ∧
    Keeps (kept.map Prod.fst) (reached twoPut).env
      ((reached twoPut).applySnapshotRetention 1 []).2.2.env
      ((reached twoPut).applySnapshotRetention 1 []).2.1 := by
  have hopen : (reached twoPut).isOpen = true := rfl
  have hmore : 1 < ((reached twoPut).env.db snapshotsDbi).entries.length := by decide +kernel
  obtain ⟨hcases, -, hsuccess, -⟩ := retention_exact twoPut 1 []
  have hok := hsuccess hopen rfl
  rcases hcases with ⟨hfailed, -⟩ | ⟨-, -, hkept⟩
  · rw [hok] at hfailed
    cases hfailed
  · rwa [if_pos hmore] at hkept

end

end ServerStorage.Muninn
