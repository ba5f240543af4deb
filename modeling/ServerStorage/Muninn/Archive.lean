/-
# `ServerStorage.Muninn.Archive` — the store as a map

Abstractly the store is a map from ids to snapshots and one from pairs of ids to deltas.
A put sets one value, or one of each; a deletion takes a snapshot and the deltas that name
it; retention keeps the newest snapshots and the deltas between them.  The store refines
this: what it returns is what the map has, and its read path never rejects it.
-/
import ServerStorage.Lib.Table
import ServerStorage.Muninn.Captures
import ServerStorage.Muninn.CodecSpec

namespace ServerStorage.Muninn

open Lib Lmdb Dbi LmdbStore

/-! ## The archive -/

structure Archive where
  snapshots : SnapshotId → Option Snapshot := fun _ => none
  deltas : SnapshotId × SnapshotId → Option DeltaSnapshot := fun _ => none

namespace Archive

def withSnapshot (m : Archive) (snapshot : Snapshot) : Archive :=
  { m with snapshots := Function.update m.snapshots snapshot.snapshotId (some snapshot) }

def withDelta (m : Archive) (delta : DeltaSnapshot) : Archive :=
  { m with
    deltas := Function.update m.deltas (delta.baseSnapshotId, delta.targetSnapshotId)
      (some delta) }

def without (m : Archive) (snapshotId : SnapshotId) : Archive where
  snapshots id := if id = snapshotId then none else m.snapshots id
  deltas ids := if ids.1 = snapshotId ∨ ids.2 = snapshotId then none else m.deltas ids

def stored (m : Archive) : Set (SnapshotId × Snapshot) := { x | m.snapshots x.1 = some x.2 }

/-- Created later, or at the same time under a larger id. -/
def Newer (x y : SnapshotId × Snapshot) : Prop :=
  y.2.createdAt < x.2.createdAt ∨ (x.2.createdAt = y.2.createdAt ∧ y.1 < x.1)

/-- The ids of the newest snapshots: fewer than the given number are newer. -/
def newest (m : Archive) (keepLatestSnapshots : Nat) : Set SnapshotId :=
  { id | ∃ snapshot, m.snapshots id = some snapshot ∧
    { x ∈ m.stored | Newer x (id, snapshot) }.ncard < keepLatestSnapshots }

open Classical in
noncomputable def pruned (m : Archive) (keepLatestSnapshots : Nat) : Archive :=
  if m.stored.ncard ≤ keepLatestSnapshots then m
  else
    { snapshots := fun id => if id ∈ m.newest keepLatestSnapshots then m.snapshots id else none
      deltas := fun ids =>
        if ids.1 ∈ m.newest keepLatestSnapshots ∧ ids.2 ∈ m.newest keepLatestSnapshots then
          m.deltas ids
        else none }

end Archive

/-! ## Its operations -/

/-- The puts validate; the other methods are those that take from the two tables. -/
inductive ArchiveOp where
  | openStore (options : LmdbStoreOptions) (directoryError : Option Text) (io : List (Option Fault))
  | close
  | putSnapshot (snapshot : Snapshot) (clock : Clock) (io : List (Option Fault))
  | putSnapshotWithTransport (snapshot : Snapshot) (enqueue : Bool) (clock : Clock)
      (io : List (Option Fault))
  | putDelta (delta : DeltaSnapshot) (base target : Option Snapshot) (io : List (Option Fault))
  | putSnapshotAndDelta (snapshot : Snapshot) (delta : DeltaSnapshot) (base : Option Snapshot)
      (enqueue : Bool) (clock : Clock) (io : List (Option Fault))
  | deleteSnapshot (snapshotId : SnapshotId) (io : List (Option Fault))
  | applySnapshotRetention (keepLatestSnapshots : Nat) (io : List (Option Fault))

namespace ArchiveOp

def run (store : LmdbStore) : ArchiveOp → StoreStatus × LmdbStore
  | openStore options directoryError io => store.openStore options directoryError io
  | close => (.success, store.close)
  | putSnapshot snapshot clock io => store.putSnapshot snapshot true clock io
  | putSnapshotWithTransport snapshot enqueue clock io =>
      store.putSnapshotWithTransport snapshot enqueue true clock io
  | putDelta delta base target io => store.putDelta delta base target true io
  | putSnapshotAndDelta snapshot delta base enqueue clock io =>
      store.putSnapshotAndDeltaWithTransport snapshot delta base enqueue true clock io
  | deleteSnapshot snapshotId io =>
      let (status, _, store) := store.deleteSnapshot snapshotId io
      (status, store)
  | applySnapshotRetention keepLatestSnapshots io =>
      let (status, _, store) := store.applySnapshotRetention keepLatestSnapshots io
      (status, store)

/-- What the operation does to the map, when it succeeds. -/
noncomputable def apply (m : Archive) : ArchiveOp → Archive
  | openStore .. | close => m
  | putSnapshot snapshot _ _ | putSnapshotWithTransport snapshot _ _ _ => m.withSnapshot snapshot
  | putDelta delta _ _ _ => m.withDelta delta
  | putSnapshotAndDelta snapshot delta _ _ _ _ => (m.withSnapshot snapshot).withDelta delta
  | deleteSnapshot snapshotId _ => m.without snapshotId
  | applySnapshotRetention keepLatestSnapshots _ => m.pruned keepLatestSnapshots

end ArchiveOp

/-- The store and the map side by side. -/
structure Archived where
  store : LmdbStore := {}
  archive : Archive := {}

noncomputable def Archived.act (s : Archived) (op : ArchiveOp) : Archived :=
  let (status, store) := op.run s.store
  { store := store, archive := if status.ok then op.apply s.archive else s.archive }

noncomputable def Archived.run (ops : List ArchiveOp) : Archived := ops.foldl Archived.act {}

/-! ## The refinement -/

/-- The bytes of a snapshot that passes the validation of a read. -/
def SnapshotBytes (payload : Str) (snapshot : Snapshot) : Prop :=
  Serialization.serializeSnapshotBinary snapshot = .ok payload ∧ snapshotErrors snapshot = false

def DeltaBytes (payload : Str) (delta : DeltaSnapshot) : Prop :=
  Serialization.serializeDeltaBinary delta = .ok payload ∧
    (validateDelta delta none none).hasErrors = false

structure Refines (env : Env Dbi) (m : Archive) : Prop where
  snapshots : Table encodeU64Be SnapshotBytes (env.db snapshotsDbi) m.snapshots
  deltas : Table (fun ids => makeDeltaKey ids.1 ids.2) DeltaBytes (env.db deltasDbi) m.deltas

theorem refines_empty (mapSize : UInt64) : Refines { db := fun _ => {}, mapSize := mapSize } {} :=
  ⟨.empty _ _, .empty _ _⟩

section
variable {env env' : Env Dbi} {m : Archive}

/-- A step that leaves snapshots and deltas. -/
theorem Refines.congr (h : Refines env m) (hsnapshots : env'.db snapshotsDbi = env.db snapshotsDbi)
    (hdeltas : env'.db deltasDbi = env.db deltasDbi) : Refines env' m where
  snapshots := hsnapshots ▸ h.snapshots
  deltas := hdeltas ▸ h.deltas

theorem Refines.withSnapshot (h : Refines env m) {snapshot : Snapshot} {payload : Str}
    (hbytes : SnapshotBytes payload snapshot) :
    Refines (withSnapshot env snapshot.snapshotId payload) (m.withSnapshot snapshot) where
  snapshots := by
    rw [Muninn.withSnapshot, Env.set_db_self]
    exact h.snapshots.put (fun _ _ => encodeU64Be_inj.mp) hbytes
  deltas := by
    rw [Muninn.withSnapshot, Env.set_db_ne (by decide)]
    exact h.deltas

theorem Refines.withDelta (h : Refines env m) {delta : DeltaSnapshot} {payload : Str}
    (hbytes : DeltaBytes payload delta) :
    Refines (withDelta env delta.baseSnapshotId delta.targetSnapshotId payload)
      (m.withDelta delta) where
  snapshots := by
    rw [Muninn.withDelta, Env.set_db_ne (by decide)]
    exact h.snapshots
  deltas := by
    rw [Muninn.withDelta, Env.set_db_self]
    exact h.deltas.put (k := (delta.baseSnapshotId, delta.targetSnapshotId))
      (fun _ _ heq => Prod.ext_iff.mpr (makeDeltaKey_inj.mp heq)) hbytes

theorem Refines.enqueuedIf (h : Refines env m) (enqueue : Bool) (frame : Str) :
    Refines (enqueuedIf enqueue env frame) m := by
  cases enqueue with
  | false => exact h
  | true =>
      refine h.congr ?_ ?_ <;>
        rw [Muninn.enqueuedIf, if_pos rfl, enqueued, Env.set_db_ne (by decide), counted,
          Env.set_db_ne (by decide)]

theorem Refines.without (h : Refines env m) (id : SnapshotId) :
    Refines (withoutSnapshot env id) (m.without id) where
  snapshots := by
    rw [withoutSnapshot, dropped, Env.set_db_ne (by decide), Env.set_db_self]
    have herase := h.snapshots.filter fun k => k != encodeU64Be id
    refine ⟨fun k => ?_, herase.keys⟩
    have hget := herase.get k
    show Option.Rel SnapshotBytes _ (if k = id then none else m.snapshots k)
    by_cases heq : k = id
    · rw [if_neg (by simp [heq])] at hget
      rw [if_pos heq]
      exact hget
    · rw [if_pos (by simpa [encodeU64Be_inj] using heq)] at hget
      rw [if_neg heq]
      exact hget
  deltas := by
    rw [withoutSnapshot, dropped, Env.set_db_self, Env.set_db_ne (by decide)]
    have hdrop := h.deltas.filter fun k => !namesSnapshot id k
    refine ⟨fun ids => ?_, hdrop.keys⟩
    have hget := hdrop.get ids
    show Option.Rel DeltaBytes _ (if ids.1 = id ∨ ids.2 = id then none else m.deltas ids)
    have hnames : namesSnapshot id (makeDeltaKey ids.1 ids.2) = true ↔
        ids.1 = id ∨ ids.2 = id := by
      rw [namesSnapshot, deltaKeyIds_makeDeltaKey, Bool.or_eq_true, beq_iff_eq, beq_iff_eq]
    by_cases heq : ids.1 = id ∨ ids.2 = id
    · rw [if_neg (by rw [hnames.mpr heq]; decide)] at hget
      rw [if_pos heq]
      exact hget
    · rw [if_pos (by rw [Bool.eq_false_iff.mpr (mt hnames.mp heq)]; rfl)] at hget
      rw [if_neg heq]
      exact hget

end

/-! ## Retention -/

/-- What the retention orders by: newest first. -/
def retentionKey (item : SnapshotRetentionItem) : Lex (Int × Int) :=
  toLex (-item.createdAt.toInt, -(item.snapshotId.toNat : Int))

/-- The item the retention makes of a snapshot stored. -/
def retentionItem (x : SnapshotId × Snapshot) : SnapshotRetentionItem :=
  { snapshotId := x.1, createdAt := x.2.createdAt }

theorem retentionLess_eq_true {x y : SnapshotRetentionItem} :
    retentionLess x y = true ↔ y.createdAt < x.createdAt ∨
      (x.createdAt = y.createdAt ∧ y.snapshotId < x.snapshotId) := by
  rw [retentionLess]
  by_cases heq : x.createdAt = y.createdAt
  · rw [if_pos heq, or_iff_right (by simp [heq]), and_iff_right heq]
    exact decide_eq_true_iff
  · rw [if_neg heq, or_iff_left (fun h => heq h.1)]
    exact decide_eq_true_iff

theorem retentionLess_iff {x y : SnapshotRetentionItem} :
    retentionLess x y = true ↔ retentionKey x < retentionKey y := by
  rw [retentionLess_eq_true, retentionKey, retentionKey, Prod.Lex.toLex_lt_toLex,
    Int64.lt_iff_toInt_lt, UInt64.lt_iff_toNat_lt, ← Int64.toInt_inj]
  omega

theorem retentionLess_item {x y : SnapshotId × Snapshot} :
    retentionLess (retentionItem x) (retentionItem y) = true ↔ Archive.Newer x y :=
  retentionLess_eq_true

/-- Items with ids of their own are sorted strictly. -/
theorem retention_sorted {items : List SnapshotRetentionItem}
    (hids : (items.map SnapshotRetentionItem.snapshotId).Nodup) :
    (sortBy retentionLess items).Pairwise fun x y => retentionLess x y = true := by
  have hle := @sortBy_pairwise _ _ _ retentionLess retentionKey
    (fun x y h => (retentionLess_iff.mp h).le)
    (fun x y h => not_lt.mp (mt retentionLess_iff.mpr (by simp [h]))) items
  have hne : (sortBy retentionLess items).Pairwise fun x y => x.snapshotId ≠ y.snapshotId :=
    List.pairwise_map.mp
      (((sortBy_perm retentionLess items).map SnapshotRetentionItem.snapshotId).nodup_iff.mpr hids)
  refine (hle.and hne).imp fun {x y} ⟨hxy, hid⟩ => retentionLess_iff.mpr (lt_of_le_of_ne hxy ?_)
  intro heq
  have hsnd : -(x.snapshotId.toNat : Int) = -(y.snapshotId.toNat : Int) := congrArg Prod.snd heq
  exact hid (UInt64.toNat_inj.mp (by omega))

theorem mem_retainedIds {l : List (SnapshotId × Snapshot)} (hl : (l.map Prod.fst).Nodup)
    {keep : Nat} {id : SnapshotId} :
    id ∈ retainedIds keep (l.map retentionItem) ↔ ∃ snapshot, (id, snapshot) ∈ l ∧
      l.countP (fun x => retentionLess (retentionItem x) (retentionItem (id, snapshot))) < keep := by
  set items := l.map retentionItem with hitems
  have hids : (items.map SnapshotRetentionItem.snapshotId).Nodup := by
    rw [hitems, List.map_map]
    exact hl
  have hperm := sortBy_perm retentionLess items
  have hsorted := retention_sorted hids
  have hasymm : ∀ {x y}, retentionLess x y = true → retentionLess y x = false := fun h =>
    Bool.eq_false_iff.mpr fun h' => (retentionLess_iff.mp h).asymm (retentionLess_iff.mp h')
  have htake : ∀ x ∈ items, x ∈ (sortBy retentionLess items).take keep ↔
      items.countP (retentionLess · x) < keep := fun x hx => by
    rw [mem_take_iff_countP hasymm hsorted (hperm.mem_iff.mpr hx), hperm.countP_eq]
  have hcount : ∀ x, items.countP (retentionLess · x) =
      l.countP fun y => retentionLess (retentionItem y) x := fun x => by
    rw [hitems, List.countP_map]
    rfl
  rw [retainedIds, List.mem_map]
  constructor
  · rintro ⟨item, hitem, rfl⟩
    have hmem := hperm.mem_iff.mp (List.mem_of_mem_take hitem)
    obtain ⟨x, hx, rfl⟩ := List.mem_map.mp hmem
    exact ⟨x.2, hx, hcount _ ▸ (htake _ hmem).mp hitem⟩
  · rintro ⟨snapshot, hmem, hlt⟩
    have hitem : retentionItem (id, snapshot) ∈ items := List.mem_map_of_mem hmem
    exact ⟨_, (htake _ hitem).mpr (hcount _ ▸ hlt), rfl⟩

theorem ncard_eq_length {α : Type} {s : Set α} {l : List α} (hl : l.Nodup)
    (h : ∀ x, x ∈ l ↔ x ∈ s) : s.ncard = l.length := by
  classical
  have hs : s = ↑l.toFinset := by
    ext x
    rw [Finset.mem_coe, List.mem_toFinset, h]
  rw [hs, Set.ncard_coe_finset, List.toFinset_card_of_nodup hl]

/-- The snapshots the first walk read, and what it made of them. -/
theorem retentionItems_eq {entries : List (Str × Str)} {items : List SnapshotRetentionItem}
    (h : RetentionItems entries items) :
    ∃ l : List (SnapshotId × Snapshot), items = l.map retentionItem ∧
      List.Forall₂ (fun e x => x.1 = decodeU64Be e.1 ∧
        Serialization.deserializeSnapshotBinary e.2 = .ok x.2) entries l := by
  induction h with
  | nil => exact ⟨[], rfl, .nil⟩
  | @cons e item entries items hitem _ ih =>
      obtain ⟨-, hid, snapshot, hread, hcreated⟩ := hitem
      obtain ⟨l, rfl, hl⟩ := ih
      refine ⟨(item.snapshotId, snapshot) :: l, ?_, .cons ⟨hid, hread⟩ hl⟩
      rw [List.map_cons, retentionItem, ← hcreated]

/-- What the store keeps is what the archive does. -/
theorem Refines.pruned {env env' : Env Dbi} {m : Archive} (h : Refines env m) {keep : Nat}
    {items : List SnapshotRetentionItem}
    (hitems : RetentionItems (env.db snapshotsDbi).entries items)
    (henv : (items.length ≤ keep ∧ env' = env) ∨
      (keep < items.length ∧ env' = retained env (retainedIds keep items))) :
    Refines env' (m.pruned keep) := by
  obtain ⟨l, rfl, hl⟩ := retentionItems_eq hitems
  obtain ⟨hnodup, hmem⟩ := h.snapshots.read (fun {k v a x} hstored hx => by
    obtain ⟨hid, hread⟩ := hx
    rw [Serialization.deserializeSnapshotBinary_serialize hstored.1] at hread
    rw [decodeU64Be_encodeU64Be] at hid
    exact Prod.ext hid (Except.ok.inj hread).symm) hl
  have hstored : m.stored.ncard = l.length := ncard_eq_length (hnodup.of_map _) hmem
  have hnewest : ∀ id, id ∈ retainedIds keep (l.map retentionItem) ↔ id ∈ m.newest keep := by
    intro id
    rw [mem_retainedIds hnodup]
    refine exists_congr fun snapshot => and_congr (hmem (id, snapshot)) ?_
    rw [List.countP_eq_length_filter]
    rw [ncard_eq_length (l := l.filter fun x => retentionLess (retentionItem x)
      (retentionItem (id, snapshot))) ((hnodup.of_map _).filter _) fun x => ?_]
    rw [List.mem_filter, hmem, retentionLess_item]
    rfl
  rw [List.length_map] at henv
  rw [Archive.pruned, hstored]
  rcases henv with ⟨hle, rfl⟩ | ⟨hlt, rfl⟩
  · rw [if_pos hle]
    exact h
  · rw [if_neg (not_le.mpr hlt)]
    have hcontains : ∀ id, (retainedIds keep (l.map retentionItem)).contains id = true ↔
        id ∈ m.newest keep := fun id => List.contains_iff_mem.trans (hnewest id)
    constructor
    · rw [retained, dropped, Env.set_db_ne (by decide), dropped, Env.set_db_self]
      have hdrop := h.snapshots.filter fun k => !dropSnapshot (retainedIds keep
        (l.map retentionItem)) k
      refine ⟨fun id => ?_, hdrop.keys⟩
      have hget := hdrop.get id
      rw [dropSnapshot, decodeU64Be_encodeU64Be, Bool.not_not] at hget
      by_cases hid : id ∈ m.newest keep
      · rw [if_pos ((hcontains id).mpr hid)] at hget
        dsimp only
        rw [if_pos hid]
        exact hget
      · rw [if_neg (mt (hcontains id).mp hid)] at hget
        dsimp only
        rw [if_neg hid]
        exact hget
    · rw [retained, dropped, Env.set_db_self, dropped, Env.set_db_ne (by decide)]
      have hdrop := h.deltas.filter fun k => !dropDelta (retainedIds keep (l.map retentionItem)) k
      refine ⟨fun ids => ?_, hdrop.keys⟩
      have hget := hdrop.get ids
      rw [dropDelta, deltaKeyIds_makeDeltaKey, Bool.not_not] at hget
      have hboth : ((retainedIds keep (l.map retentionItem)).contains ids.1 &&
          (retainedIds keep (l.map retentionItem)).contains ids.2) = true ↔
          ids.1 ∈ m.newest keep ∧ ids.2 ∈ m.newest keep := by
        rw [Bool.and_eq_true, hcontains, hcontains]
      by_cases hids : ids.1 ∈ m.newest keep ∧ ids.2 ∈ m.newest keep
      · rw [if_pos (hboth.mpr hids)] at hget
        dsimp only
        rw [if_pos hids]
        exact hget
      · rw [if_neg (mt hboth.mp hids)] at hget
        dsimp only
        rw [if_neg hids]
        exact hget

/-! ## The steps -/

/-- A put that validates and succeeds has validated. -/
theorem prepared_checked {α : Type} {store : LmdbStore} {check : Except StoreStatus Unit}
    {rest : Except StoreStatus α} {write : α → StoreStatus × LmdbStore}
    (hcheck : Refuses Failed check)
    (h : (store.prepared (do
      failIf (store.isOpen = false) notOpenStatus
      checkedIf true check
      rest) write).1.ok = true) : check = .ok () := by
  cases hrun : check with
  | ok u => rfl
  | error status =>
      have hprepare : ∃ status', Failed status' ∧ (do
          failIf (store.isOpen = false) notOpenStatus
          checkedIf true check
          rest : Except StoreStatus α) = .error status' := by
        by_cases hopen : store.isOpen = false
        · exact ⟨notOpenStatus, failed_failure (by decide) _ _, by rw [failIf, if_pos hopen]; rfl⟩
        · refine ⟨status, hcheck _ hrun, ?_⟩
          rw [failIf, if_neg hopen, checkedIf, if_pos rfl, hrun]
          rfl
      obtain ⟨status', hfailed, hprepare⟩ := hprepare
      rw [hprepare] at h
      have hok : status'.ok = true := h
      exact absurd hok (by rw [show status'.ok = false from hfailed]; decide)

theorem validateSnapshotForStore_ok {now : UnixTimestamp} {snapshot : Snapshot} {u : Unit}
    (h : validateSnapshotForStore now snapshot = .ok u) : snapshotErrors snapshot = false := by
  rw [validateSnapshotForStore] at h
  split at h
  · cases h
  next hvalid =>
    rw [hasErrors_validateSnapshotAt] at hvalid
    exact Bool.eq_false_iff.mpr hvalid

theorem validateDeltaForStore_ok {delta : DeltaSnapshot} {base target : Option Snapshot} {u : Unit}
    (h : validateDeltaForStore delta base target = .ok u) :
    (validateDelta delta none none).hasErrors = false := by
  rw [validateDeltaForStore] at h
  split at h
  · cases h
  next hvalid => exact hasErrors_validateDelta_alone (Bool.eq_false_iff.mpr hvalid)

theorem Refines.initialized {env : Env Dbi} {m : Archive} (h : Refines env m) (size : UInt64) :
    Refines (initialized (resized env size)) m := by
  rw [LmdbStore.initialized]
  split
  · exact h.congr (Env.set_db_ne (by decide)) (Env.set_db_ne (by decide))
  · exact h.congr rfl rfl

/-- One operation: the store and the map take it side by side. -/
theorem Archived.act_refines {s : Archived} (h : Refines s.store.env s.archive) (op : ArchiveOp) :
    Refines (s.act op).store.env (s.act op).archive := by
  have hwrites : ∀ {result : StoreStatus × LmdbStore} {next : Env Dbi → Prop} {m : Archive},
      s.store.Writes result next →
      (result.1.ok = true → ∀ env, next env → Refines env m) →
      Refines result.2.env (if result.1.ok then m else s.archive) := by
    intro result next m hresult hnext
    rcases hresult with ⟨hfailed, hstore⟩ | ⟨hok, -, env, henv, hstore⟩
    · rw [show result.1.ok = false from hfailed, hstore]
      exact h
    · rw [hok, hstore]
      exact hnext (by rw [hok]; rfl) env henv
  cases op with
  | openStore options directoryError io =>
      show Refines (s.store.openStore options directoryError io).2.env
        (if (s.store.openStore options directoryError io).1.ok then s.archive else s.archive)
      rw [ite_self]
      rcases openStore_cases s.store options directoryError io with
        ⟨-, hstore⟩ | ⟨-, -, hstore⟩ | ⟨-, -, hstore⟩
      · rw [hstore]
        exact h
      · rw [hstore]
        exact h
      · rw [hstore]
        exact h.initialized _
  | close => exact h
  | putSnapshot snapshot clock io =>
      refine hwrites (putSnapshot_writes s.store snapshot true clock io) fun hok env hnext => ?_
      obtain ⟨payload, hpayload, rfl⟩ := hnext
      have hvalid := prepared_checked (refuses_validateSnapshot _ _) hok
      exact h.withSnapshot ⟨serializeSnapshot_ok hpayload, validateSnapshotForStore_ok hvalid⟩
  | putSnapshotWithTransport snapshot enqueue clock io =>
      refine hwrites (putSnapshotWithTransport_writes s.store snapshot enqueue true clock io)
        fun hok env hnext => ?_
      obtain ⟨payload, hpayload, rfl, -⟩ := hnext
      have hvalid := prepared_checked (refuses_validateSnapshot _ _) hok
      exact (h.withSnapshot
        ⟨serializeSnapshot_ok hpayload, validateSnapshotForStore_ok hvalid⟩).enqueuedIf _ _
  | putDelta delta base target io =>
      refine hwrites (putDelta_writes s.store delta base target true io) fun hok env hnext => ?_
      obtain ⟨payload, hpayload, rfl⟩ := hnext
      have hvalid := prepared_checked (refuses_validateDelta _ _ _) hok
      exact h.withDelta ⟨serializeDelta_ok hpayload, validateDeltaForStore_ok hvalid⟩
  | putSnapshotAndDelta snapshot delta base enqueue clock io =>
      refine hwrites (putSnapshotAndDelta_writes s.store snapshot delta base enqueue true clock io)
        fun hok env hnext => ?_
      obtain ⟨payload, payload', hpayload, hpayload', rfl, -⟩ := hnext
      have hvalid := prepared_checked
        (.bind (refuses_validateSnapshot _ _) fun _ => refuses_validateDelta _ _ _) hok
      obtain ⟨_, hsnapshot, hdelta⟩ := except_bind_ok.mp hvalid
      exact ((h.withSnapshot
        ⟨serializeSnapshot_ok hpayload, validateSnapshotForStore_ok hsnapshot⟩).withDelta
          ⟨serializeDelta_ok hpayload', validateDeltaForStore_ok hdelta⟩).enqueuedIf _ _ |>.enqueuedIf
            _ _
  | deleteSnapshot snapshotId io =>
      refine hwrites (deleteSnapshot_writes s.store snapshotId io) fun _ env hnext => ?_
      obtain ⟨-, rfl⟩ := hnext
      exact h.without snapshotId
  | applySnapshotRetention keep io =>
      refine hwrites (applySnapshotRetention_writes s.store keep io) fun _ env hnext => ?_
      obtain ⟨items, hitems, henv⟩ := hnext
      exact h.pruned hitems henv

theorem Archived.run_refines (ops : List ArchiveOp) :
    Refines (Archived.run ops).store.env (Archived.run ops).archive := by
  have hrun : ∀ (ops : List ArchiveOp) (s : Archived), Refines s.store.env s.archive →
      Refines (ops.foldl Archived.act s).store.env (ops.foldl Archived.act s).archive := by
    intro ops
    induction ops with
    | nil => exact fun s h => h
    | cons op ops ih => exact fun s h => ih _ (Archived.act_refines h op)
  exact hrun ops {} (refines_empty 0)

/-! ## Reading -/

theorem readTxn_bind {α β : Type} {store : LmdbStore} {x : StoreM α} {f : α → StoreM β} {a : α}
    {env : Env Dbi} (hx : Runs x store.env a env) :
    store.readTxn [] (x >>= f) = (f a).run' { env := env, faults := [] } := by
  have hbegin : (callAs "mdb_txn_begin").run { env := store.env, faults := [] } =
      .ok ((), { env := store.env, faults := [] }) := runs_callAs _ _
  rw [readTxn, StateT.run'_eq, StateT.run_bind, hbegin]
  show Prod.fst <$> (x >>= f).run { env := store.env, faults := [] } = _
  rw [StateT.run_bind, hx, StateT.run'_eq]
  rfl

/-- The transaction of a read, where no call fails. -/
theorem readTxn_blob {store : LmdbStore} {dbi : Dbi} {key : Str} (hkey : key ≠ []) :
    store.readTxn [] (do
      let found ← getBlobAs "mdb_get" dbi key
      found.elim (throw recordNotFound) pure) =
      ((store.env.db dbi).get key).elim (.error recordNotFound) .ok := by
  have hget : Runs (getBlobAs "mdb_get" dbi key) store.env ((store.env.db dbi).get key)
      store.env := .mapError (.mdbGet store.env hkey)
  rw [readTxn_bind hget]
  cases (store.env.db dbi).get key with
  | none => rfl
  | some payload => rfl

/-- A read of what is there: decoding and checking it does not fail. -/
theorem read_ok {α : Type} {decoded : Except SerializationError α} (operation : String) {a : α}
    (check : α → Except StoreStatus Unit) (validate : Bool) (hdecoded : decoded = .ok a)
    (hcheck : check a = .ok ()) :
    (do
      let value ← decoded.mapError (serializationToStoreStatus operation)
      checkedIf validate (check value)
      return value : Except StoreStatus α) = .ok a := by
  subst hdecoded
  cases validate with
  | false => rfl
  | true =>
      show (check a >>= fun _ => .ok a) = .ok a
      rw [hcheck]
      rfl

theorem Refines.getSnapshot {store : LmdbStore} {m : Archive} (h : Refines store.env m)
    (id : SnapshotId) (validate : Bool) (now : UnixTimestamp) :
    store.getSnapshot id validate now [] =
      if store.isOpen then (m.snapshots id).elim (.error recordNotFound) .ok
      else .error notOpenStatus := by
  have hkey : encodeU64Be id ≠ [] := by
    intro hnil
    simpa [hnil] using encodeU64Be_length id
  rw [LmdbStore.getSnapshot, readTxn_blob hkey]
  cases hopen : store.isOpen with
  | false => rfl
  | true =>
      have hget := h.snapshots.get id
      cases hfound : (store.env.db snapshotsDbi).get (encodeU64Be id) with
      | none =>
          rw [hfound] at hget
          cases hm : m.snapshots id with
          | none => rfl
          | some snapshot =>
              rw [hm] at hget
              cases hget
      | some payload =>
          obtain ⟨snapshot, hm, hserialize, hvalid⟩ := h.snapshots.found hfound
          have hcheck : validateSnapshotForStore now snapshot = .ok () := by
            rw [validateSnapshotForStore, hasErrors_validateSnapshotAt, hvalid]
            rfl
          have hread := read_ok "deserialize_snapshot_binary" (validateSnapshotForStore now)
            validate (Serialization.deserializeSnapshotBinary_serialize hserialize) hcheck
          rw [hm]
          exact except_bind_ok.mpr ⟨(), rfl, except_bind_ok.mpr ⟨payload, rfl, hread⟩⟩

theorem Refines.getDelta {store : LmdbStore} {m : Archive} (h : Refines store.env m)
    (base target : SnapshotId) (validate : Bool) :
    store.getDelta base target validate [] =
      if store.isOpen then (m.deltas (base, target)).elim (.error recordNotFound) .ok
      else .error notOpenStatus := by
  have hkey : makeDeltaKey base target ≠ [] := by
    intro hnil
    simpa [hnil, makeDeltaKey] using congrArg List.length hnil
  rw [LmdbStore.getDelta, readTxn_blob hkey]
  cases hopen : store.isOpen with
  | false => rfl
  | true =>
      have hget := h.deltas.get (base, target)
      cases hfound : (store.env.db deltasDbi).get (makeDeltaKey base target) with
      | none =>
          rw [hfound] at hget
          cases hm : m.deltas (base, target) with
          | none => rfl
          | some delta =>
              rw [hm] at hget
              cases hget
      | some payload =>
          obtain ⟨delta, hm, hserialize, hvalid⟩ := h.deltas.found (k := (base, target)) hfound
          have hcheck : validateDeltaForStore delta none none = .ok () := by
            rw [validateDeltaForStore, hvalid]
            rfl
          have hread := read_ok "deserialize_delta_binary"
            (fun delta => validateDeltaForStore delta none none) validate
            (Serialization.deserializeDeltaBinary_serialize hserialize) hcheck
          rw [hm]
          exact except_bind_ok.mpr ⟨(), rfl, except_bind_ok.mpr ⟨payload, rfl, hread⟩⟩

/-- After every run from the empty store, a read returns what the map has: with or without
validation, at any time, and `NotFound` where the map has nothing. -/
theorem store_refines_map (ops : List ArchiveOp) (validate : Bool) (now : UnixTimestamp) :
    let s := Archived.run ops
    (∀ id, s.store.getSnapshot id validate now [] =
      if s.store.isOpen then (s.archive.snapshots id).elim (.error recordNotFound) .ok
      else .error notOpenStatus) ∧
    ∀ base target, s.store.getDelta base target validate [] =
      if s.store.isOpen then (s.archive.deltas (base, target)).elim (.error recordNotFound) .ok
      else .error notOpenStatus := by
  intro s
  have h := Archived.run_refines ops
  exact ⟨fun id => h.getSnapshot id validate now, fun base target => h.getDelta base target validate⟩

end ServerStorage.Muninn
