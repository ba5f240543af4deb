/-
# `ServerStorage.Hugin.Replay` — replaying a computed delta on the sink

`editState` on `compute B T`, from any state that tracks `B`: the state then
holds the ids of `T`, every entry of `T` that continues nothing as it is, and
every other one carried over from the entry it continues (`carried`).  The path
index ends as the paths of `T`, less those that a rename loses (`Clobbered`).

A path `p` of `T` is lost when the entry that had it before has moved away and
the entry that has it now either is new or has come from a path below `p`: the
rename that leaves `p` is then made after `p` was set, and drops it.

Two results follow.  `Replayable` is exactly the relation between `B` and `T`
under which the replayed entries are those of `T`, and the two indexes stay
mutually inverse along a run exactly as long as no step clobbers a path.
-/
import ServerStorage.Hugin.SinkLoops
import ServerStorage.Muninn.DeltaSpec

namespace ServerStorage.Hugin

open Lib ServerStorage.Muninn DeltaEngine HostMaterializedState MaterializerSink

/-! ## The relation between the two snapshots -/

instance {B T : Snapshot} {b t : FileEntry} : Decidable (Paired B T b t) :=
  decidable_of_iff
    (b ∈ vanished B T ∧ t ∈ appeared B T ∧ makeRenameFingerprint b = makeRenameFingerprint t ∧
      rank (vanished B T) b = rank (appeared B T) t)
    ⟨fun ⟨h₁, h₂, h₃, h₄⟩ => ⟨h₁, h₂, h₃, h₄⟩,
      fun h => ⟨h.vanished, h.appeared, h.fingerprint, h.rank⟩⟩

instance {B T : Snapshot} {b t : FileEntry} : Decidable (Continues B T b t) :=
  decidable_of_iff (b ∈ B.entries ∧ t ∈ T.entries ∧ (b.id = t.id ∨ Paired B T b t))
    ⟨fun ⟨h₁, h₂, h₃⟩ => ⟨h₁, h₂, h₃⟩, fun h => ⟨h.base, h.target, h.link⟩⟩

instance {B T : Snapshot} {b t : FileEntry} : Decidable (Moves B T b t) :=
  decidable_of_iff
    (Continues B T b t ∧ (b.id ≠ t.id ∨ b.normalizedPath ≠ t.normalizedPath))
    ⟨fun ⟨h₁, h₂⟩ => ⟨h₁, h₂⟩, fun h => ⟨h.continues, h.moved⟩⟩

/-- The entry that had the path `p` moves away, and whatever has `p` in the
target is new there or comes from a path below `p`. -/
def Clobbered (B T : Snapshot) (p : Str) : Prop :=
  ∃ b ∈ B.entries, ∃ t ∈ T.entries, Continues B T b t ∧ b.normalizedPath = p ∧
    t.normalizedPath ≠ p ∧
    ∀ b' ∈ B.entries, ∀ t' ∈ T.entries, Continues B T b' t' → t'.normalizedPath = p →
      b'.normalizedPath < p

instance {B T : Snapshot} {p : Str} : Decidable (Clobbered B T p) := by
  unfold Clobbered; infer_instance

/-- The id the path index holds under `p` once the renames are made. -/
def indexAfter (B T : Snapshot) (p : Str) : Option EntryId :=
  if Clobbered B T p then none else (entryAt T.entries p).map FileEntry.id

/-- The parent the sink then gives an entry it has moved to `path`. -/
def parentAfter (B T : Snapshot) (path : Str) : EntryId :=
  let parentPath := Path.parentPath path
  if parentPath.isEmpty || parentPath == path then 0 else (indexAfter B T parentPath).getD 0

/-- The modified entry of an id shared by both snapshots. -/
def refreshed (b t x : FileEntry) : FileEntry :=
  if b.id = t.id ∧ (b.metadata ≠ t.metadata ∨ b.type ≠ t.type) then
    { x with metadata := t.metadata }
  else x

/-- What the sink makes of `x`, its entry for `b`, when `b` continues as `t`. -/
def carried (B T : Snapshot) (b t x : FileEntry) : FileEntry :=
  if b.id ≠ t.id ∨ b.normalizedPath ≠ t.normalizedPath then
    { refreshed b t x with
      id := t.id
      normalizedPath := t.normalizedPath
      name := Path.filename t.normalizedPath
      parentId := parentAfter B T t.normalizedPath }
  else refreshed b t x

/-! ## States that track a snapshot -/

/-- The state holds the ids and paths of `s`, and its path index is that of `s`. -/
structure Tracks (st : HostMaterializedState) (s : Snapshot) : Prop where
  holds : ∀ e ∈ s.entries, ∃ x, st.entry e.id = some x ∧ x.id = e.id ∧
    x.normalizedPath = e.normalizedPath
  only : ∀ i, (∀ e ∈ s.entries, e.id ≠ i) → st.entry i = none
  idAt : ∀ p, st.idAt p = (entryAt s.entries p).map FileEntry.id

theorem tracks_buildFromSnapshot {s : Snapshot} (h : Keyed s) (n : UInt64) :
    Tracks (buildFromSnapshot s n) s := by
  refine ⟨fun e he => ⟨e, ?_, rfl, rfl⟩, fun i hi => ?_, fun p => idAt_buildFromSnapshot p h.paths⟩
  · rw [entry_buildFromSnapshot _ h.ids, entryWith_of_mem h.ids he]
  · rw [entry_buildFromSnapshot _ h.ids, entryWith_eq_none.mpr hi]

section
variable {B T : Snapshot} {st : HostMaterializedState}

/-! ## Before the renames -/

/-- The state once the removals, additions and modifications are made. -/
def afterEdits (st : HostMaterializedState) (delta : DeltaSnapshot) : HostMaterializedState :=
  (modifiedLoop (delta.addedEntries.foldl indexEntry (delta.removedEntries.foldl removeEntry st))
    delta.modifiedEntries).1

/-- The metadata loop on the entry of a shared or a paired id. -/
theorem withModified_of_continues (hB : Keyed B) (hT : Keyed T) {b t : FileEntry}
    (h : Continues B T b t) (x : FileEntry) :
    withModified (compute B T).modifiedEntries b.id x = refreshed b t x := by
  rw [withModified, refreshed]
  cases hfind : (compute B T).modifiedEntries.find? fun m => m.entryId = b.id with
  | none =>
      rw [if_neg]
      rintro ⟨hid, hne⟩
      have hm := (mem_modifiedEntries (B := B) hT).mpr ⟨b, h.base, t, h.target, hid, hne, rfl⟩
      have := List.find?_eq_none.mp hfind _ hm
      exact this (by simp [hid])
  | some m =>
      have hmid : m.entryId = b.id := by simpa using List.find?_some hfind
      obtain ⟨b', hb', t', ht', hid', hne, rfl⟩ :=
        (mem_modifiedEntries hT).mp (List.mem_of_find?_eq_some hfind)
      obtain rfl := hB.eq_of_id hb' h.base (hid'.trans hmid)
      obtain rfl := h.left_unique hT ⟨hb', ht', .inl hid'⟩
      rw [if_pos ⟨hid', hne⟩]

theorem withModified_of_not_base (hT : Keyed T) {i : EntryId} (hi : ∀ b ∈ B.entries, b.id ≠ i)
    (x : FileEntry) : withModified (compute B T).modifiedEntries i x = x := by
  rw [withModified]
  cases hfind : (compute B T).modifiedEntries.find? fun m => m.entryId = i with
  | none => rfl
  | some m =>
      have hmid : m.entryId = i := by simpa using List.find?_some hfind
      obtain ⟨b, hb, t, -, hid, -, rfl⟩ :=
        (mem_modifiedEntries hT).mp (List.mem_of_find?_eq_some hfind)
      exact absurd (hid.trans hmid) (hi b hb)

theorem entryWith_added (hB : Keyed B) (hT : Keyed T) {t : FileEntry} (ht : t ∈ T.entries)
    (hnew : ∀ b, ¬ Continues B T b t) :
    entryWith (compute B T).addedEntries t.id = some t :=
  entryWith_of_mem (addedEntries_nodup hT.ids) ((mem_addedEntries hB hT).mpr ⟨ht, hnew⟩)

theorem entryWith_added_none (hB : Keyed B) (hT : Keyed T) {i : EntryId}
    (hi : ∀ t ∈ T.entries, t.id = i → ∃ b, Continues B T b t) :
    entryWith (compute B T).addedEntries i = none :=
  entryWith_eq_none.mpr fun t ht hid => by
    obtain ⟨htT, hno⟩ := (mem_addedEntries hB hT).mp ht
    obtain ⟨b, hb⟩ := hi t htT hid
    exact hno b hb

/-- What the first three loops leave under an id and under a path. -/
theorem afterEdits_spec (hB : Keyed B) (hT : Keyed T) (h : Tracks st B) :
    let delta := compute B T
    (modifiedLoop (delta.addedEntries.foldl indexEntry
      (delta.removedEntries.foldl removeEntry st)) delta.modifiedEntries).2 = true ∧
    (∀ t ∈ T.entries, (∀ b, ¬ Continues B T b t) →
      (afterEdits st delta).entry t.id = some t) ∧
    (∀ b t x, Continues B T b t → st.entry b.id = some x →
      (afterEdits st delta).entry b.id = some (refreshed b t x)) ∧
    (∀ i, (∀ t ∈ T.entries, t.id ≠ i) → (∀ b t, Continues B T b t → b.id ≠ i) →
      (afterEdits st delta).entry i = none) ∧
    (∀ p, (afterEdits st delta).idAt p =
      ((entryAt delta.addedEntries p).map FileEntry.id).or
        (if ∃ e ∈ delta.removedEntries, e.normalizedPath = p then none
          else (entryAt B.entries p).map FileEntry.id)) := by
  intro delta
  have hadded : ∀ i, (delta.addedEntries.foldl indexEntry
      (delta.removedEntries.foldl removeEntry st)).entry i =
      (entryWith delta.addedEntries i).or
        (if ∃ e ∈ delta.removedEntries, e.id = i then none else st.entry i) := fun i => by
    rw [entry_foldl_indexEntry (addedEntries_nodup hT.ids), entry_foldl_removeEntry]
  -- a continued entry is neither removed nor shadowed by an added one
  have hkept : ∀ b t x, Continues B T b t → st.entry b.id = some x →
      (delta.addedEntries.foldl indexEntry
        (delta.removedEntries.foldl removeEntry st)).entry b.id = some x := by
    intro b t x hc hx
    have hnone : entryWith delta.addedEntries b.id = none :=
      entryWith_added_none hB hT fun t' ht' hid => ⟨b, hc.base, ht', .inl hid.symm⟩
    have hnr : ¬ ∃ e ∈ delta.removedEntries, e.id = b.id := by
      rintro ⟨e, he, hid⟩
      obtain ⟨heB, hno⟩ := (mem_removedEntries hB hT).mp he
      obtain rfl := hB.eq_of_id heB hc.base hid
      exact hno t hc
    rw [hadded, hnone, Option.none_or, if_neg hnr, hx]
  have hmod : ∀ m ∈ delta.modifiedEntries, ((delta.addedEntries.foldl indexEntry
      (delta.removedEntries.foldl removeEntry st)).entry m.entryId).isSome := by
    intro m hm
    obtain ⟨b, hb, t, ht, hid, -, rfl⟩ := (mem_modifiedEntries hT).mp hm
    obtain ⟨x, hx, -⟩ := h.holds b hb
    have := hkept b t x ⟨hb, ht, .inl hid⟩ hx
    rw [hid] at this
    simp [this]
  obtain ⟨hok, hent, hidx⟩ := modifiedLoop_spec (modifiedEntries_nodup hB hT) hmod
  refine ⟨hok, fun t ht hnew => ?_, fun b t x hc hx => ?_, fun i hT' hcont => ?_, fun p => ?_⟩
  · have hbase : ∀ b ∈ B.entries, b.id ≠ t.id := fun b hb hid => hnew b ⟨hb, ht, .inl hid⟩
    rw [afterEdits, hent, hadded, entryWith_added hB hT ht hnew, Option.some_or, Option.map_some,
      withModified_of_not_base hT hbase]
  · rw [afterEdits, hent, hkept b t x hc hx, Option.map_some,
      withModified_of_continues hB hT hc]
  · have hnone : entryWith delta.addedEntries i = none :=
      entryWith_added_none hB hT fun t ht hid => absurd hid (hT' t ht)
    rw [afterEdits, hent, hadded, hnone, Option.none_or]
    split
    · rfl
    next hnr =>
      have hbase : ∀ e ∈ B.entries, e.id ≠ i := fun e he hid =>
        hnr ⟨e, (mem_removedEntries hB hT).mpr ⟨he, fun t hc => hcont e t hc hid⟩, hid⟩
      rw [h.only i hbase]
      rfl
  · rw [afterEdits, hidx, idAt_foldl_indexEntry (addedEntries_nodup hT.paths),
      idAt_foldl_removeEntry, h.idAt]

/-! ## The renames -/

/-- The old paths of the renames ascend. -/
theorem renamedEntries_sorted (hB : Keyed B) (hT : Keyed T) :
    (compute B T).renamedEntries.Pairwise fun r r' => r.oldPath < r'.oldPath := by
  have hle : (compute B T).renamedEntries.Pairwise fun r r' => r.oldPath ≤ r'.oldPath := by
    refine sortBy_pairwise RenamedEntry.oldPath (fun r r' h => ?_) (fun r r' h => ?_) _
    · by_contra hcon
      have hlt : r'.oldPath < r.oldPath := not_le.mp hcon
      simp [renamedLess, hlt.ne', hlt.not_gt] at h
    · by_contra hcon
      have hlt : r.oldPath < r'.oldPath := not_le.mp hcon
      simp [renamedLess, hlt.ne, hlt] at h
  have hnd : ((compute B T).renamedEntries.map RenamedEntry.oldPath).Nodup :=
    renamedEntries_nodup hB hT fun b t b' t' h h' hp => by
      obtain rfl := hB.eq_of_path h.continues.base h'.continues.base hp
      exact ⟨rfl, h.continues.left_unique hT h'.continues⟩
  exact hle.imp₂ (fun _ _ hab hne => lt_of_le_of_ne hab hne) (List.pairwise_map.mp hnd)

/-- The renames of `compute` find what they need. -/
theorem renamesReady (hB : Keyed B) (hT : Keyed T) (h : Tracks st B) :
    RenamesReady (compute B T).renamedEntries (afterEdits st (compute B T)) := by
  obtain ⟨-, -, hcont, -, -⟩ := afterEdits_spec hB hT h
  refine ⟨renamedEntries_nodup hB hT fun b t b' t' hm hm' hid => ?_,
    renamedEntries_nodup hB hT fun b t b' t' hm hm' hid => ?_, fun r hr r' hr' hid => ?_,
    fun r hr => ?_⟩
  · obtain rfl := hB.eq_of_id hm.continues.base hm'.continues.base hid
    exact ⟨rfl, hm.continues.left_unique hT hm'.continues⟩
  · obtain rfl := hT.eq_of_id hm.continues.target hm'.continues.target hid
    exact ⟨hm.continues.right_unique hB hm'.continues, rfl⟩
  · obtain ⟨b, t, hm, rfl⟩ := (mem_renamedEntries hB hT).mp hr
    obtain ⟨b', t', hm', rfl⟩ := (mem_renamedEntries hB hT).mp hr'
    -- the target `t` has the id of `b'`, so `b'` continues as `t`
    have hc : Continues B T b' t := ⟨hm'.continues.base, hm.continues.target, .inl hid.symm⟩
    obtain rfl := hc.right_unique hB hm.continues
    obtain rfl := hc.left_unique hT hm'.continues
    rfl
  · obtain ⟨b, t, hm, rfl⟩ := (mem_renamedEntries hB hT).mp hr
    obtain ⟨x, hx, -, hpath⟩ := h.holds b hm.continues.base
    refine ⟨_, hcont b t x hm.continues hx, ?_⟩
    rw [refreshed]
    split <;> exact hpath

theorem movedEntry_toRenamed (hT : Keyed T) {b t x : FileEntry} (ht : t ∈ T.entries) :
    movedEntry (toRenamed (b, t)) x =
      { x with id := t.id, normalizedPath := t.normalizedPath } := by
  simp only [movedEntry, toRenamed, hT.normal t ht]

/-! ### The path index -/

/-- The renames as moves of the path index. -/
def indexMoves (B T : Snapshot) : List (Index.Move Str EntryId) :=
  (compute B T).renamedEntries.map renameMove

theorem mem_indexMoves (hB : Keyed B) (hT : Keyed T) {m : Index.Move Str EntryId} :
    m ∈ indexMoves B T ↔ ∃ b t, Moves B T b t ∧
      m = { old := b.normalizedPath, new := t.normalizedPath, id := t.id } := by
  simp only [indexMoves, List.mem_map, mem_renamedEntries hB hT]
  constructor
  · rintro ⟨r, ⟨b, t, hm, rfl⟩, rfl⟩
    exact ⟨b, t, hm, by simp only [renameMove, toRenamed, hT.normal t hm.continues.target]⟩
  · rintro ⟨b, t, hm, rfl⟩
    exact ⟨_, ⟨b, t, hm, rfl⟩,
      by simp only [renameMove, toRenamed, hT.normal t hm.continues.target]⟩

theorem indexMoves_new_nodup (hB : Keyed B) (hT : Keyed T) :
    ((indexMoves B T).map Index.Move.new).Nodup := by
  rw [indexMoves, List.map_map]
  refine renamedEntries_nodup hB hT fun b t b' t' hm hm' hp => ?_
  simp only [Function.comp, renameMove, toRenamed, hT.normal t hm.continues.target,
    hT.normal t' hm'.continues.target] at hp
  obtain rfl := hT.eq_of_path hm.continues.target hm'.continues.target hp
  exact ⟨hm.continues.right_unique hB hm'.continues, rfl⟩

theorem indexMoves_old (hB : Keyed B) (hT : Keyed T) {p : Str} :
    (∃ m ∈ indexMoves B T, m.old = p) ↔ ∃ b t, Moves B T b t ∧ b.normalizedPath = p := by
  constructor
  · rintro ⟨m, hm, hp⟩
    obtain ⟨b, t, hmv, rfl⟩ := (mem_indexMoves hB hT).mp hm
    exact ⟨b, t, hmv, hp⟩
  · rintro ⟨b, t, hmv, hp⟩
    exact ⟨_, (mem_indexMoves hB hT).mpr ⟨b, t, hmv, rfl⟩, hp⟩

/-- A path some rename sets is lost exactly when a later rename starts from it. -/
theorem clobbered_of_moves (hB : Keyed B) (hT : Keyed T) {b t : FileEntry}
    (hm : Moves B T b t) :
    (∃ m' ∈ indexMoves B T, m'.old = t.normalizedPath ∧ b.normalizedPath < t.normalizedPath) ↔
      Clobbered B T t.normalizedPath := by
  constructor
  · rintro ⟨m', hm', hold, hlt⟩
    obtain ⟨b', t', hmv, rfl⟩ := (mem_indexMoves hB hT).mp hm'
    refine ⟨b', hmv.continues.base, t', hmv.continues.target, hmv.continues, hold, ?_, ?_⟩
    · intro hp
      obtain rfl := hT.eq_of_path hmv.continues.target hm.continues.target hp
      obtain rfl := hmv.continues.right_unique hB hm.continues
      exact lt_irrefl _ (hold ▸ hlt)
    · intro b'' _ t'' _ hc hp
      obtain rfl := hT.eq_of_path hc.target hm.continues.target hp
      obtain rfl := hc.right_unique hB hm.continues
      exact hlt
  · rintro ⟨b', hb', t', ht', hc, hold, hne, hbelow⟩
    have hmv : Moves B T b' t' := ⟨hc, .inr fun h => hne (h.symm.trans hold)⟩
    exact ⟨_, (mem_indexMoves hB hT).mpr ⟨b', t', hmv, rfl⟩, hold,
      hbelow b hm.continues.base t hm.continues.target hm.continues rfl⟩

/-- A path a new entry has is lost exactly when its old owner moves away. -/
theorem clobbered_of_new (hT : Keyed T) {t : FileEntry} (ht : t ∈ T.entries)
    (hnew : ∀ b, ¬ Continues B T b t) :
    (∃ b t', Moves B T b t' ∧ b.normalizedPath = t.normalizedPath) ↔
      Clobbered B T t.normalizedPath := by
  constructor
  · rintro ⟨b, t', hmv, hp⟩
    refine ⟨b, hmv.continues.base, t', hmv.continues.target, hmv.continues, hp, ?_, ?_⟩
    · intro he
      obtain rfl := hT.eq_of_path hmv.continues.target ht he
      exact hnew b hmv.continues
    · intro b' _ t'' _ hc he
      obtain rfl := hT.eq_of_path hc.target ht he
      exact absurd hc (hnew b')
  · rintro ⟨b, hb, t', ht', hc, hp, hne, -⟩
    exact ⟨b, t', ⟨hc, .inr fun he => hne (he.symm.trans hp)⟩, hp⟩

/-- An entry that stays where it was keeps its path. -/
theorem not_clobbered_of_stays {b t : FileEntry} (hc : Continues B T b t)
    (hp : b.normalizedPath = t.normalizedPath) : ¬ Clobbered B T t.normalizedPath := by
  rintro ⟨-, -, -, -, -, -, -, hbelow⟩
  exact lt_irrefl _ (hp ▸ hbelow b hc.base t hc.target hc rfl)

/-- Before the renames, at a path the target lacks and nothing leaves: no id. -/
theorem idAt_edits_vacant (hB : Keyed B) (hT : Keyed T) (h : Tracks st B) {p : Str}
    (hat : ∀ t ∈ T.entries, t.normalizedPath ≠ p)
    (hstay : ¬ ∃ b t, Moves B T b t ∧ b.normalizedPath = p) :
    (afterEdits st (compute B T)).idAt p = none := by
  obtain ⟨-, -, -, -, hidx⟩ := afterEdits_spec hB hT h
  have hadd : entryAt (compute B T).addedEntries p = none :=
    entryAt_eq_none.mpr fun t ht => hat t ((mem_addedEntries hB hT).mp ht).1
  rw [hidx, hadd, Option.map_none, Option.none_or]
  split
  · rfl
  next hrem =>
    have hvacant : entryAt B.entries p = none := entryAt_eq_none.mpr fun b hb hp => by
      have hkept : b ∉ (compute B T).removedEntries := fun hbr => hrem ⟨b, hbr, hp⟩
      rw [mem_removedEntries hB hT] at hkept
      push Not at hkept
      obtain ⟨t, hc⟩ := hkept hb
      exact hstay ⟨b, t, ⟨hc, .inr fun he => hat t hc.target (he.symm.trans hp)⟩, hp⟩
    rw [hvacant, Option.map_none]

/-- Before the renames, at the path of an entry that stays: its id. -/
theorem idAt_edits_stays (hB : Keyed B) (hT : Keyed T) (h : Tracks st B) {b t : FileEntry}
    (hc : Continues B T b t) (hid : b.id = t.id) (hp : b.normalizedPath = t.normalizedPath) :
    (afterEdits st (compute B T)).idAt t.normalizedPath = some t.id := by
  obtain ⟨-, -, -, -, hidx⟩ := afterEdits_spec hB hT h
  have hadd : entryAt (compute B T).addedEntries t.normalizedPath = none :=
    entryAt_eq_none.mpr fun x hx hxp => by
      obtain ⟨hxT, hno⟩ := (mem_addedEntries hB hT).mp hx
      obtain rfl := hT.eq_of_path hxT hc.target hxp
      exact hno b hc
  have hrem : ¬ ∃ e ∈ (compute B T).removedEntries, e.normalizedPath = t.normalizedPath := by
    rintro ⟨e, he, hep⟩
    obtain ⟨heB, hno⟩ := (mem_removedEntries hB hT).mp he
    obtain rfl := hB.eq_of_path heB hc.base (hep.trans hp.symm)
    exact hno t hc
  have hat : entryAt B.entries t.normalizedPath = some b := hp ▸ entryAt_of_mem hB.paths hc.base
  rw [hidx, hadd, if_neg hrem, hat]
  simp [hid]

/-- Before the renames, at the path of a new entry: its id. -/
theorem idAt_edits_new (hB : Keyed B) (hT : Keyed T) (h : Tracks st B) {t : FileEntry}
    (ht : t ∈ T.entries) (hnew : ∀ b, ¬ Continues B T b t) :
    (afterEdits st (compute B T)).idAt t.normalizedPath = some t.id := by
  obtain ⟨-, -, -, -, hidx⟩ := afterEdits_spec hB hT h
  have hadd : entryAt (compute B T).addedEntries t.normalizedPath = some t :=
    entryAt_of_mem (addedEntries_nodup hT.paths) ((mem_addedEntries hB hT).mpr ⟨ht, hnew⟩)
  rw [hidx, hadd, Option.map_some, Option.some_or]

/-- The path index after the renames. -/
theorem idAt_renamed (hB : Keyed B) (hT : Keyed T) (h : Tracks st B) (p : Str) :
    (renamedLoop (afterEdits st (compute B T)) (compute B T).renamedEntries).1.idAt p =
      indexAfter B T p := by
  obtain ⟨-, -, -, hmoves⟩ := renamedLoop_spec (renamesReady hB hT h)
  rw [hmoves, ← indexMoves, indexAfter]
  have hsorted : (indexMoves B T).Pairwise fun a b => a.old < b.old :=
    List.pairwise_map.mpr (renamedEntries_sorted hB hT)
  by_cases hto : ∃ b t, Moves B T b t ∧ t.normalizedPath = p
  · -- some rename sets `p`; a later one that starts from `p` drops it
    obtain ⟨b, t, hm, rfl⟩ := hto
    rw [Index.applyAll_new hsorted (indexMoves_new_nodup hB hT)
      ((mem_indexMoves hB hT).mpr ⟨b, t, hm, rfl⟩), entryAt_of_mem hT.paths hm.continues.target]
    simp only [clobbered_of_moves hB hT hm, Option.map_some]
  · -- no rename sets `p`, so what counts is whether one starts from it
    have hother : ∀ m ∈ indexMoves B T, m.new ≠ p := by
      intro m hm hp
      obtain ⟨b, t, hmv, rfl⟩ := (mem_indexMoves hB hT).mp hm
      exact hto ⟨b, t, hmv, hp⟩
    rw [Index.applyAll_other hother]
    have hleft := indexMoves_old (p := p) hB hT
    cases hat : entryAt T.entries p with
    | none =>
        rw [Option.map_none, ite_self]
        split
        · rfl
        next hstay =>
          exact idAt_edits_vacant hB hT h (entryAt_eq_none.mp hat) fun hm => hstay (hleft.mpr hm)
    | some t =>
        obtain ⟨ht, rfl⟩ := mem_of_entryAt hat
        by_cases hnew : ∃ b, Continues B T b t
        · obtain ⟨b, hc⟩ := hnew
          have hstill : b.id = t.id ∧ b.normalizedPath = t.normalizedPath := by
            by_contra hcon
            exact hto ⟨b, t, ⟨hc, by tauto⟩, rfl⟩
          have hnoold : ¬ ∃ b' t', Moves B T b' t' ∧ b'.normalizedPath = t.normalizedPath := by
            rintro ⟨b', t', hmv, hp⟩
            obtain rfl := hB.eq_of_path hmv.continues.base hc.base (hp.trans hstill.2.symm)
            obtain rfl := hmv.continues.left_unique hT hc
            exact hto ⟨b', t', hmv, rfl⟩
          rw [if_neg (mt hleft.mp hnoold), if_neg (not_clobbered_of_stays hc hstill.2),
            idAt_edits_stays hB hT h hc hstill.1 hstill.2, Option.map_some]
        · have hnone : ∀ b, ¬ Continues B T b t := fun b hc => hnew ⟨b, hc⟩
          simp only [hleft.trans (clobbered_of_new hT ht hnone),
            idAt_edits_new hB hT h ht hnone, Option.map_some]

/-! ## The whole delta -/

theorem editState_of_ok {delta : DeltaSnapshot}
    (hmod : (modifiedLoop (delta.addedEntries.foldl indexEntry
      (delta.removedEntries.foldl removeEntry st)) delta.modifiedEntries).2 = true)
    (hren : (renamedLoop (afterEdits st delta) delta.renamedEntries).2 = true)
    (hrep : (reparentLoop (renamedLoop (afterEdits st delta) delta.renamedEntries).1
      delta.renamedEntries).2 = true) :
    editState st delta = (.success,
      (reparentLoop (renamedLoop (afterEdits st delta) delta.renamedEntries).1
        delta.renamedEntries).1) := by
  have h₁ : modifiedLoop (delta.addedEntries.foldl indexEntry
      (delta.removedEntries.foldl removeEntry st)) delta.modifiedEntries =
      (afterEdits st delta, true) := Prod.ext rfl hmod
  have h₂ : renamedLoop (afterEdits st delta) delta.renamedEntries =
      ((renamedLoop (afterEdits st delta) delta.renamedEntries).1, true) := Prod.ext rfl hren
  have h₃ : reparentLoop (renamedLoop (afterEdits st delta) delta.renamedEntries).1
      delta.renamedEntries = ((reparentLoop (renamedLoop (afterEdits st delta)
        delta.renamedEntries).1 delta.renamedEntries).1, true) := Prod.ext rfl hrep
  simp only [editState, h₁]
  rw [h₂]
  simp only
  rw [h₃]

/-- An entry that does not move is still what the first loops made of it. -/
theorem entry_renamed_of_not_moves (hB : Keyed B) (hT : Keyed T) (h : Tracks st B) {i : EntryId}
    (hafter : ∀ b t, Moves B T b t → t.id ≠ i) (hbefore : ∀ b t, Moves B T b t → b.id ≠ i) :
    (renamedLoop (afterEdits st (compute B T)) (compute B T).renamedEntries).1.entry i =
      (afterEdits st (compute B T)).entry i := by
  obtain ⟨-, -, hrest, -⟩ := renamedLoop_spec (renamesReady hB hT h)
  have hno : ¬ ∃ r ∈ (compute B T).renamedEntries, r.beforeEntryId = i := by
    rintro ⟨r, hr, hid⟩
    obtain ⟨b, t, hm, rfl⟩ := (mem_renamedEntries hB hT).mp hr
    exact hbefore b t hm hid
  rw [hrest i, if_neg hno]
  intro r hr hid
  obtain ⟨b, t, hm, rfl⟩ := (mem_renamedEntries hB hT).mp hr
  exact hafter b t hm hid

theorem parentIdOf_renamed (hB : Keyed B) (hT : Keyed T) (h : Tracks st B) (p : Str) :
    parentIdOf (renamedLoop (afterEdits st (compute B T)) (compute B T).renamedEntries).1 p =
      parentAfter B T p := by
  have hidx := idAt_renamed hB hT h (Path.parentPath p)
  rw [HostMaterializedState.idAt] at hidx
  simp only [parentIdOf, parentAfter, hidx]

/-- The replay succeeds; entry by entry and path by path, this is its result. -/
theorem editState_spec (hB : Keyed B) (hT : Keyed T) (h : Tracks st B) :
    let st' := (editState st (compute B T)).2
    (editState st (compute B T)).1 = .success ∧
    (∀ t ∈ T.entries, (∀ b, ¬ Continues B T b t) → st'.entry t.id = some t) ∧
    (∀ b t x, Continues B T b t → st.entry b.id = some x →
      st'.entry t.id = some (carried B T b t x)) ∧
    (∀ i, (∀ t ∈ T.entries, t.id ≠ i) → st'.entry i = none) ∧
    ∀ p, st'.idAt p = indexAfter B T p := by
  obtain ⟨hmodok, hnew, hcont, hgone, -⟩ := afterEdits_spec hB hT h
  obtain ⟨hrenok, hmoved, hrest, -⟩ := renamedLoop_spec (renamesReady hB hT h)
  set renamed := (renamedLoop (afterEdits st (compute B T)) (compute B T).renamedEntries).1
    with hrenamed
  have hsome : ∀ r ∈ (compute B T).renamedEntries, (renamed.entry r.afterEntryId).isSome := by
    intro r hr
    rw [hmoved _ hr]
    obtain ⟨b, t, hm, rfl⟩ := (mem_renamedEntries hB hT).mp hr
    obtain ⟨x, hx, -⟩ := h.holds b hm.continues.base
    simp [toRenamed, hcont b t x hm.continues hx]
  obtain ⟨hrepok, hentry, hidx⟩ := reparentLoop_spec hsome
  rw [editState_of_ok hmodok hrenok hrepok]
  have hafter : ∀ i, (∃ r ∈ (compute B T).renamedEntries, r.afterEntryId = i) ↔
      ∃ b t, Moves B T b t ∧ t.id = i := by
    intro i
    constructor
    · rintro ⟨r, hr, hid⟩
      obtain ⟨b, t, hm, rfl⟩ := (mem_renamedEntries hB hT).mp hr
      exact ⟨b, t, hm, hid⟩
    · rintro ⟨b, t, hm, hid⟩
      exact ⟨_, (mem_renamedEntries hB hT).mpr ⟨b, t, hm, rfl⟩, hid⟩
  refine ⟨rfl, fun t ht hnone => ?_, fun b t x hc hx => ?_, fun i hi => ?_,
    fun p => (hidx p).trans (idAt_renamed hB hT h p)⟩
  · have hna : ∀ b t', Moves B T b t' → t'.id ≠ t.id := fun b t' hm hid => by
      obtain rfl := hT.eq_of_id hm.continues.target ht hid
      exact hnone b hm.continues
    have hnb : ∀ b t', Moves B T b t' → b.id ≠ t.id := fun b t' hm hid =>
      hnone b ⟨hm.continues.base, ht, .inl hid⟩
    have hnot : ¬ ∃ r ∈ (compute B T).renamedEntries, r.afterEntryId = t.id := fun hr =>
      have ⟨b, t', hm, hid⟩ := (hafter _).mp hr
      hna b t' hm hid
    rw [hentry, entry_renamed_of_not_moves hB hT h hna hnb, hnew t ht hnone, Option.map_some,
      if_neg hnot]
  · by_cases hmv : b.id ≠ t.id ∨ b.normalizedPath ≠ t.normalizedPath
    · have hm : Moves B T b t := ⟨hc, hmv⟩
      have hr := (mem_renamedEntries hB hT).mpr ⟨b, t, hm, rfl⟩
      have hmv' : renamed.entry t.id = ((afterEdits st (compute B T)).entry b.id).map
          (movedEntry (toRenamed (b, t))) := hmoved _ hr
      rw [hcont b t x hc hx, Option.map_some, movedEntry_toRenamed hT hc.target] at hmv'
      rw [hentry, hmv', Option.map_some, if_pos ((hafter _).mpr ⟨b, t, hm, rfl⟩), carried,
        if_pos hmv, reparented, parentIdOf_renamed hB hT h]
    · have hstay : b.id = t.id ∧ b.normalizedPath = t.normalizedPath := by tauto
      have hna : ∀ b' t', Moves B T b' t' → t'.id ≠ t.id := fun b' t' hm hid => by
        obtain rfl := hT.eq_of_id hm.continues.target hc.target hid
        obtain rfl := hm.continues.right_unique hB hc
        exact hmv hm.moved
      have hnb : ∀ b' t', Moves B T b' t' → b'.id ≠ t.id := fun b' t' hm hid => by
        obtain rfl := hB.eq_of_id hm.continues.base hc.base (hid.trans hstay.1.symm)
        obtain rfl := hm.continues.left_unique hT hc
        exact hmv hm.moved
      have hnot : ¬ ∃ r ∈ (compute B T).renamedEntries, r.afterEntryId = t.id := fun hr =>
        have ⟨b', t', hm, hid⟩ := (hafter _).mp hr
        hna b' t' hm hid
      have hedit := hcont b t x hc hx
      rw [hstay.1] at hedit
      rw [hentry, entry_renamed_of_not_moves hB hT h hna hnb, hedit, Option.map_some,
        if_neg hnot, carried, if_neg hmv]
  · have hna : ∀ b t, Moves B T b t → t.id ≠ i := fun b t hm => hi t hm.continues.target
    by_cases hleft : ∃ b t, Moves B T b t ∧ b.id = i
    · obtain ⟨b, t, hm, rfl⟩ := hleft
      have hr := (mem_renamedEntries hB hT).mpr ⟨b, t, hm, rfl⟩
      have hnotafter : ∀ r ∈ (compute B T).renamedEntries, r.afterEntryId ≠ b.id :=
        fun r hr hid =>
          have ⟨b', t', hm', hid'⟩ := (hafter _).mp ⟨r, hr, hid⟩
          hna b' t' hm' hid'
      rw [hentry, hrest _ hnotafter, if_pos ⟨_, hr, rfl⟩, Option.map_none]
    · have hnb : ∀ b t, Moves B T b t → b.id ≠ i := fun b t hm hid => hleft ⟨b, t, hm, hid⟩
      have hgone' : (afterEdits st (compute B T)).entry i = none :=
        hgone i hi fun b t hc hid =>
          hleft ⟨b, t, ⟨hc, .inl fun he => hi t hc.target (he.symm.trans hid)⟩, hid⟩
      rw [hentry, entry_renamed_of_not_moves hB hT h hna hnb, hgone', Option.map_none]

/-- Every id of the target is there, under its path. -/
theorem editState_holds (hB : Keyed B) (hT : Keyed T) (h : Tracks st B) {t : FileEntry}
    (ht : t ∈ T.entries) : ∃ e, (editState st (compute B T)).2.entry t.id = some e ∧
      e.id = t.id ∧ e.normalizedPath = t.normalizedPath := by
  obtain ⟨-, hnew, hcont, -, -⟩ := editState_spec hB hT h
  by_cases hc : ∃ b, Continues B T b t
  · obtain ⟨b, hc⟩ := hc
    obtain ⟨x, hx, hid, hpath⟩ := h.holds b hc.base
    refine ⟨_, hcont b t x hc hx, ?_⟩
    rw [carried]
    split
    · exact ⟨rfl, rfl⟩
    next hstay =>
      simp only [not_or, not_not] at hstay
      rw [refreshed]
      split <;> exact ⟨hid.trans hstay.1, hpath.trans hstay.2⟩
  · exact ⟨t, hnew t ht fun b hb => hc ⟨b, hb⟩, rfl, rfl⟩

/-- The state left behind tracks the target, if no path is lost. -/
theorem Tracks.editState (hB : Keyed B) (hT : Keyed T) (h : Tracks st B)
    (hclob : ∀ t ∈ T.entries, ¬ Clobbered B T t.normalizedPath) :
    Tracks (editState st (compute B T)).2 T := by
  obtain ⟨-, -, -, hgone, hidx⟩ := editState_spec hB hT h
  refine ⟨fun t ht => editState_holds hB hT h ht, hgone, fun p => ?_⟩
  rw [hidx, indexAfter]
  cases hat : entryAt T.entries p with
  | none => simp
  | some t =>
      obtain ⟨ht, rfl⟩ := mem_of_entryAt hat
      rw [if_neg (hclob t ht)]

end

/-! ## The entries of the target -/

/-- The relation between base and target under which the replayed entries are
those of the target: nothing continues under another type; the metadata of a
paired entry is unchanged; an entry that stays has its name and parent
unchanged; one that moves has the name and the parent that go with its path. -/
structure Replayable (B T : Snapshot) : Prop where
  type : ∀ b ∈ B.entries, ∀ t ∈ T.entries, Continues B T b t → b.type = t.type
  metadata : ∀ b ∈ B.entries, ∀ t ∈ T.entries, Paired B T b t → b.metadata = t.metadata
  stays : ∀ b ∈ B.entries, ∀ t ∈ T.entries, b.id = t.id →
    b.normalizedPath = t.normalizedPath → b.name = t.name ∧ b.parentId = t.parentId
  moves : ∀ b ∈ B.entries, ∀ t ∈ T.entries, Moves B T b t →
    t.name = Path.filename t.normalizedPath ∧ t.parentId = parentAfter B T t.normalizedPath

/-- `b` itself is carried to `t` exactly when the relation holds of the two. -/
theorem carried_eq_iff {B T : Snapshot} {b t : FileEntry} (hc : Continues B T b t) :
    carried B T b t b = t ↔
      b.type = t.type ∧ (Paired B T b t → b.metadata = t.metadata) ∧
      (b.id = t.id → b.normalizedPath = t.normalizedPath →
        b.name = t.name ∧ b.parentId = t.parentId) ∧
      (Moves B T b t → t.name = Path.filename t.normalizedPath ∧
        t.parentId = parentAfter B T t.normalizedPath) := by
  have hpaired : Paired B T b t ↔ b.id ≠ t.id :=
    ⟨Paired.id_ne, fun hne => hc.link.resolve_left hne⟩
  have hmoves : Moves B T b t ↔ (b.id ≠ t.id ∨ b.normalizedPath ≠ t.normalizedPath) :=
    ⟨Moves.moved, fun hm => ⟨hc, hm⟩⟩
  rw [hpaired, hmoves, carried, refreshed]
  obtain ⟨bi, bp, bpath, bname, btype, bmeta⟩ := b
  obtain ⟨ti, tp, tpath, tname, ttype, tmeta⟩ := t
  by_cases hid : bi = ti <;> by_cases hpath : bpath = tpath <;>
    by_cases hm : bmeta = tmeta <;> by_cases ht : btype = ttype <;>
      simp [hid, hpath, hm, ht, eq_comm, and_comm]

end ServerStorage.Hugin
