/-
# `ServerStorage.Muninn.DeltaLaws` — the algebra of `compute` and `invert`

Under either setting of the heuristic the lists of `compute` are determined by their
members, since every list is sorted by a key that occurs in it once.  So two deltas are
equal when their lists have the same members, and the laws are read off the members:
`invert` gives the delta the other way round, and the order of the entries is of no
account.
-/
import ServerStorage.Muninn.DeltaSpec

namespace ServerStorage.Muninn

open Lib DeltaEngine

variable {o : DeltaOptions} {B T B' T' : Snapshot} {b t : FileEntry}

/-! ## The pairing under either setting -/

/-- The heuristic is on and pairs the two. -/
structure Linked (o : DeltaOptions) (B T : Snapshot) (b t : FileEntry) : Prop where
  on : o.enableRenameHeuristic = true
  paired : Paired B T b t

theorem pairing_on (h : o.enableRenameHeuristic = true) (B T : Snapshot) :
    pairing B T o = pairing B T {} := by
  rw [pairing, if_pos h]
  rfl

theorem pairing_off (h : o.enableRenameHeuristic = false) (B T : Snapshot) :
    pairing B T o = { removed := vanished B T, added := appeared B T } := by
  rw [pairing, if_neg (by rw [h]; exact Bool.false_ne_true), unmatchedRemoved_eq,
    unmatchedAdded_eq]

theorem mem_pairing_renamed (hB : Keyed B) (hT : Keyed T) :
    (b, t) ∈ (pairing B T o).renamed ↔ Linked o B T b t := by
  cases hon : o.enableRenameHeuristic with
  | true =>
      rw [pairing_on hon, mem_pairing hB hT]
      exact ⟨fun h => ⟨hon, h⟩, fun h => h.paired⟩
  | false =>
      rw [pairing_off hon]
      exact iff_of_false List.not_mem_nil fun h => by cases hon.symm.trans h.on

/-- Every unmatched entry is in one pair or in none. -/
theorem pairing_partition (o : DeltaOptions) (B T : Snapshot) :
    ((pairing B T o).renamed.map Prod.fst ++ (pairing B T o).removed).Perm (vanished B T) ∧
      ((pairing B T o).renamed.map Prod.snd ++ (pairing B T o).added).Perm
        (appeared B T) := by
  cases hon : o.enableRenameHeuristic with
  | true =>
      rw [pairing_on hon]
      exact pairing_perm B T
  | false =>
      rw [pairing_off hon]
      exact ⟨.refl _, .refl _⟩

/-- What is left of a list without repetition when a part of it is taken out. -/
theorem mem_rest {α : Type} {l taken rest : List α} (h : (taken ++ rest).Perm l) (hl : l.Nodup)
    {a : α} : a ∈ rest ↔ a ∈ l ∧ a ∉ taken := by
  have hdisjoint := (List.nodup_append'.mp (h.nodup_iff.mpr hl)).2.2
  rw [← h.mem_iff, List.mem_append]
  constructor
  · intro hrest
    exact ⟨.inr hrest, fun htaken => hdisjoint htaken hrest⟩
  · rintro ⟨htaken | hrest, hnot⟩
    · exact absurd htaken hnot
    · exact hrest

theorem mem_pairing_removed (hB : Keyed B) (hT : Keyed T) :
    b ∈ (pairing B T o).removed ↔ b ∈ vanished B T ∧ ∀ t, ¬ Linked o B T b t := by
  rw [mem_rest (pairing_partition o B T).1 (nodup_onlyIn hB.ids T).of_map, List.mem_map]
  simp only [Prod.exists, exists_and_right, exists_eq_right, mem_pairing_renamed hB hT, not_exists]

theorem mem_pairing_added (hB : Keyed B) (hT : Keyed T) :
    t ∈ (pairing B T o).added ↔ t ∈ appeared B T ∧ ∀ b, ¬ Linked o B T b t := by
  rw [mem_rest (pairing_partition o B T).2 (nodup_onlyIn hT.ids B).of_map, List.mem_map]
  simp only [Prod.exists, exists_eq_right, mem_pairing_renamed hB hT, not_exists]

/-! ## The renames -/

/-- The pairs the renames are made of, before they are sorted. -/
def movesUnder (o : DeltaOptions) (B T : Snapshot) : List (FileEntry × FileEntry) :=
  movedCommon B T ++ (pairing B T o).renamed

/-- One id under two paths, or a pair of the heuristic. -/
inductive Renames (o : DeltaOptions) (B T : Snapshot) (b t : FileEntry) : Prop
  | common (base : b ∈ B.entries) (target : t ∈ T.entries) (id : b.id = t.id)
      (path : b.normalizedPath ≠ t.normalizedPath)
  | linked (link : Linked o B T b t)

theorem mem_movesUnder (hB : Keyed B) (hT : Keyed T) :
    (b, t) ∈ movesUnder o B T ↔ Renames o B T b t := by
  rw [movesUnder, List.mem_append, mem_movedCommon hT, mem_pairing_renamed hB hT]
  constructor
  · rintro (⟨hb, ht, hid, hpath⟩ | h)
    · exact .common hb ht hid hpath
    · exact .linked h
  · intro h
    cases h with
    | common hb ht hid hpath => exact .inl ⟨hb, ht, hid, hpath⟩
    | linked h => exact .inr h

theorem Renames.continues (h : Renames o B T b t) : Continues B T b t := by
  cases h with
  | common hb ht hid _ => exact ⟨hb, ht, .inl hid⟩
  | linked h => exact h.paired.continues

/-- A rename of the heuristic is one of the default options, and of the others only the pairs of
one id are left. -/
theorem movesUnder_sublist (o : DeltaOptions) (B T : Snapshot) :
    (movesUnder o B T).Sublist (moves B T) := by
  cases hon : o.enableRenameHeuristic with
  | true =>
      rw [movesUnder, pairing_on hon]
      exact .refl _
  | false =>
      rw [movesUnder, pairing_off hon]
      exact (List.Sublist.refl _).append (List.nil_sublist _)

theorem movesUnder_nodup (hB : Keyed B) (hT : Keyed T) : (movesUnder o B T).Nodup :=
  (movesUnder_sublist o B T).nodup (moves_nodup hB hT)

/-- A key that either side of a pair determines occurs once. -/
theorem movesUnder_keys (hB : Keyed B) (hT : Keyed T) {κ : Type} {f : RenamedEntry → κ}
    (hf : ∀ {b t b' t'}, Renames o B T b t → Renames o B T b' t' →
      f (toRenamed (b, t)) = f (toRenamed (b', t')) → b = b' ∨ t = t') :
    (((movesUnder o B T).map toRenamed).map f).Nodup := by
  rw [List.map_map]
  refine (movesUnder_nodup hB hT).map_on ?_
  rintro ⟨b, t⟩ h ⟨b', t'⟩ h' hkey
  have hbt := (mem_movesUnder hB hT).mp h
  have hbt' := (mem_movesUnder hB hT).mp h'
  rcases hf hbt hbt' hkey with rfl | rfl
  · rw [hbt.continues.left_unique hT hbt'.continues]
  · rw [hbt.continues.right_unique hB hbt'.continues]

/-! ## Deltas and the members of their lists -/

namespace DeltaEngine

/-- The delta of `compute` before `sort_delta`. -/
def unsorted (base target : Snapshot) (options : DeltaOptions) : DeltaSnapshot :=
  { schema := kCurrentSchemaHeader
    baseSnapshotId := base.snapshotId
    targetSnapshotId := target.snapshotId
    addedEntries := (pairing base target options).added
    removedEntries := (pairing base target options).removed
    modifiedEntries := modifiedCommon base target
    renamedEntries :=
      renamedCommon base target ++ (pairing base target options).renamed.map toRenamed }

def flipModified (m : ModifiedEntry) : ModifiedEntry :=
  { entryId := m.entryId, before := m.after, after := m.before }

def flipRenamed (r : RenamedEntry) : RenamedEntry :=
  { beforeEntryId := r.afterEntryId, afterEntryId := r.beforeEntryId
    oldPath := r.newPath, newPath := r.oldPath }

/-- The delta of `invert` before `sort_delta`. -/
def flipped (delta : DeltaSnapshot) : DeltaSnapshot :=
  { schema := delta.schema
    baseSnapshotId := delta.targetSnapshotId
    targetSnapshotId := delta.baseSnapshotId
    addedEntries := delta.removedEntries
    removedEntries := delta.addedEntries
    modifiedEntries := delta.modifiedEntries.map flipModified
    renamedEntries := delta.renamedEntries.map flipRenamed }

theorem compute_eq (base target : Snapshot) (options : DeltaOptions) :
    compute base target options = sortDelta (unsorted base target options) := rfl

theorem invert_eq (delta : DeltaSnapshot) : invert delta = sortDelta (flipped delta) := rfl

end DeltaEngine

/-- Each list has a key that occurs in it once. -/
structure Listed (d : DeltaSnapshot) : Prop where
  added : (d.addedEntries.map FileEntry.normalizedPath).Nodup
  removed : (d.removedEntries.map FileEntry.normalizedPath).Nodup
  modified : (d.modifiedEntries.map ModifiedEntry.entryId).Nodup
  oldPaths : (d.renamedEntries.map RenamedEntry.oldPath).Nodup
  newPaths : (d.renamedEntries.map RenamedEntry.newPath).Nodup

/-- The same header, and the same members in each list. -/
structure SameMembers (d d' : DeltaSnapshot) : Prop where
  schema : d.schema = d'.schema
  baseId : d.baseSnapshotId = d'.baseSnapshotId
  targetId : d.targetSnapshotId = d'.targetSnapshotId
  added : ∀ e, e ∈ d.addedEntries ↔ e ∈ d'.addedEntries
  removed : ∀ e, e ∈ d.removedEntries ↔ e ∈ d'.removedEntries
  modified : ∀ m, m ∈ d.modifiedEntries ↔ m ∈ d'.modifiedEntries
  renamed : ∀ r, r ∈ d.renamedEntries ↔ r ∈ d'.renamedEntries

theorem entryLess_le {a b : FileEntry} (h : entryLess a b = true) :
    a.normalizedPath ≤ b.normalizedPath := by
  rw [entryLess] at h
  split at h
  next heq => exact heq.le
  next => exact (of_decide_eq_true h).le

theorem le_of_not_entryLess {a b : FileEntry} (h : entryLess a b = false) :
    b.normalizedPath ≤ a.normalizedPath := by
  rw [entryLess] at h
  split at h
  next heq => exact heq.ge
  next => exact not_lt.mp (of_decide_eq_false h)

theorem renamedLess_le {a b : RenamedEntry} (h : renamedLess a b = true) :
    a.oldPath ≤ b.oldPath := by
  rw [renamedLess] at h
  split at h
  next heq => exact heq.le
  next => exact (of_decide_eq_true h).le

theorem le_of_not_renamedLess {a b : RenamedEntry} (h : renamedLess a b = false) :
    b.oldPath ≤ a.oldPath := by
  rw [renamedLess] at h
  split at h
  next heq => exact heq.ge
  next => exact not_lt.mp (of_decide_eq_false h)

/-- Sorting makes of the members one delta. -/
theorem sortDelta_ext {d d' : DeltaSnapshot} (hd : Listed d) (hd' : Listed d')
    (h : SameMembers d d') : sortDelta d = sortDelta d' := by
  have hadded : sortBy entryLess d.addedEntries = sortBy entryLess d'.addedEntries :=
    sortBy_ext FileEntry.normalizedPath (fun _ _ => entryLess_le) (fun _ _ => le_of_not_entryLess)
      hd.added hd'.added h.added
  have hremoved : sortBy entryLess d.removedEntries = sortBy entryLess d'.removedEntries :=
    sortBy_ext FileEntry.normalizedPath (fun _ _ => entryLess_le) (fun _ _ => le_of_not_entryLess)
      hd.removed hd'.removed h.removed
  have hmodified : sortBy modifiedLess d.modifiedEntries = sortBy modifiedLess d'.modifiedEntries :=
    sortBy_ext ModifiedEntry.entryId (fun _ _ hlt => (of_decide_eq_true hlt).le)
      (fun _ _ hge => not_lt.mp (of_decide_eq_false hge)) hd.modified hd'.modified h.modified
  have hrenamed : sortBy renamedLess d.renamedEntries = sortBy renamedLess d'.renamedEntries :=
    sortBy_ext RenamedEntry.oldPath (fun _ _ => renamedLess_le) (fun _ _ => le_of_not_renamedLess)
      hd.oldPaths hd'.oldPaths h.renamed
  rw [sortDelta, sortDelta, hadded, hremoved, hmodified, hrenamed, h.schema, h.baseId, h.targetId]

theorem Listed.sorted {d : DeltaSnapshot} (h : Listed d) : Listed (sortDelta d) where
  added := ((sortBy_perm _ _).map _).nodup_iff.mpr h.added
  removed := ((sortBy_perm _ _).map _).nodup_iff.mpr h.removed
  modified := ((sortBy_perm _ _).map _).nodup_iff.mpr h.modified
  oldPaths := ((sortBy_perm _ _).map _).nodup_iff.mpr h.oldPaths
  newPaths := ((sortBy_perm _ _).map _).nodup_iff.mpr h.newPaths

theorem Listed.flipped {d : DeltaSnapshot} (h : Listed d) : Listed (flipped d) where
  added := h.removed
  removed := h.added
  modified := by
    show ((d.modifiedEntries.map flipModified).map ModifiedEntry.entryId).Nodup
    rw [List.map_map]
    exact h.modified
  oldPaths := by
    show ((d.renamedEntries.map flipRenamed).map RenamedEntry.oldPath).Nodup
    rw [List.map_map]
    exact h.newPaths
  newPaths := by
    show ((d.renamedEntries.map flipRenamed).map RenamedEntry.newPath).Nodup
    rw [List.map_map]
    exact h.oldPaths

theorem renamed_unsorted (o : DeltaOptions) (B T : Snapshot) :
    (unsorted B T o).renamedEntries = (movesUnder o B T).map toRenamed := by
  rw [movesUnder, List.map_append, ← renamedCommon_eq]
  rfl

theorem removed_keys {κ : Type} {f : FileEntry → κ} (hB : (B.entries.map f).Nodup) :
    ((pairing B T o).removed.map f).Nodup := by
  have hperm := ((pairing_partition o B T).1.map f).nodup_iff.mpr (nodup_onlyIn hB T)
  rw [List.map_append] at hperm
  exact (List.nodup_append.mp hperm).2.1

theorem added_keys {κ : Type} {f : FileEntry → κ} (hT : (T.entries.map f).Nodup) :
    ((pairing B T o).added.map f).Nodup := by
  have hperm := ((pairing_partition o B T).2.map f).nodup_iff.mpr (nodup_onlyIn hT B)
  rw [List.map_append] at hperm
  exact (List.nodup_append.mp hperm).2.1

theorem modifiedCommon_keys (hB : Keyed B) (hT : Keyed T) :
    ((modifiedCommon B T).map ModifiedEntry.entryId).Nodup :=
  ((sortBy_perm modifiedLess _).map _).nodup_iff.mp (modifiedEntries_nodup hB hT)

theorem listed_unsorted (hB : Keyed B) (hT : Keyed T) : Listed (unsorted B T o) where
  added := added_keys hT.paths
  removed := removed_keys hB.paths
  modified := modifiedCommon_keys hB hT
  oldPaths := by
    rw [renamed_unsorted]
    exact movesUnder_keys hB hT fun h h' hkey =>
      .inl (hB.eq_of_path h.continues.base h'.continues.base hkey)
  newPaths := by
    rw [renamed_unsorted]
    exact movesUnder_keys hB hT fun h h' hkey =>
      .inr (hT.eq_of_path h.continues.target h'.continues.target hkey)

/-! ### What the lists hold -/

theorem mem_unsorted_modified (hT : Keyed T) {m : ModifiedEntry} :
    m ∈ (unsorted B T o).modifiedEntries ↔
      ∃ b ∈ B.entries, ∃ t ∈ T.entries, b.id = t.id ∧
        (b.metadata ≠ t.metadata ∨ b.type ≠ t.type) ∧
        m = { entryId := t.id, before := b.metadata, after := t.metadata } := by
  rw [← mem_modifiedEntries hT]
  exact mem_sortBy.symm

theorem mem_unsorted_renamed (hB : Keyed B) (hT : Keyed T) {r : RenamedEntry} :
    r ∈ (unsorted B T o).renamedEntries ↔ ∃ b t, Renames o B T b t ∧ r = toRenamed (b, t) := by
  rw [renamed_unsorted, List.mem_map]
  constructor
  · rintro ⟨⟨b, t⟩, hmem, rfl⟩
    exact ⟨b, t, (mem_movesUnder hB hT).mp hmem, rfl⟩
  · rintro ⟨b, t, h, rfl⟩
    exact ⟨(b, t), (mem_movesUnder hB hT).mpr h, rfl⟩

/-! ## The delta the other way round -/

theorem Paired.swap (h : Paired B T b t) : Paired T B t b :=
  ⟨h.appeared, h.vanished, h.fingerprint.symm, h.rank.symm⟩

theorem Linked.swap (h : Linked o B T b t) : Linked o T B t b := ⟨h.on, h.paired.swap⟩

theorem Renames.swap (h : Renames o B T b t) : Renames o T B t b := by
  cases h with
  | common hb ht hid hpath => exact .common ht hb hid.symm hpath.symm
  | linked h => exact .linked h.swap

theorem mem_removed_swap (hB : Keyed B) (hT : Keyed T) {e : FileEntry} :
    e ∈ (pairing B T o).removed ↔ e ∈ (pairing T B o).added := by
  rw [mem_pairing_removed hB hT, mem_pairing_added hT hB]
  exact and_congr Iff.rfl (forall_congr' fun _ => not_congr ⟨Linked.swap, Linked.swap⟩)

/-- A modification that is flipped is one of the other delta. -/
theorem modified_flip (hT : Keyed T) (hB : Keyed B) {m : ModifiedEntry}
    (h : m ∈ (unsorted B T o).modifiedEntries) :
    flipModified m ∈ (unsorted T B o).modifiedEntries := by
  obtain ⟨b, hb, t, ht, hid, hne, rfl⟩ := (mem_unsorted_modified hT).mp h
  refine (mem_unsorted_modified hB).mpr ⟨t, ht, b, hb, hid.symm, ?_, ?_⟩
  · exact hne.imp Ne.symm Ne.symm
  · rw [flipModified, hid]

theorem renamed_flip (hB : Keyed B) (hT : Keyed T) {r : RenamedEntry}
    (h : r ∈ (unsorted B T o).renamedEntries) :
    flipRenamed r ∈ (unsorted T B o).renamedEntries := by
  obtain ⟨b, t, hbt, rfl⟩ := (mem_unsorted_renamed hB hT).mp h
  exact (mem_unsorted_renamed hT hB).mpr ⟨t, b, hbt.swap, rfl⟩

theorem sameMembers_flipped (hB : Keyed B) (hT : Keyed T) :
    SameMembers (flipped (compute B T o)) (unsorted T B o) where
  schema := rfl
  baseId := rfl
  targetId := rfl
  added _ := mem_sortBy.trans (mem_removed_swap hB hT)
  removed _ := mem_sortBy.trans (mem_removed_swap hT hB).symm
  modified m := by
    refine List.mem_map.trans ⟨?_, fun h => ?_⟩
    · rintro ⟨m, h, rfl⟩
      exact modified_flip hT hB (mem_sortBy.mp h)
    · exact ⟨flipModified m, mem_sortBy.mpr (modified_flip hB hT h), rfl⟩
  renamed r := by
    refine List.mem_map.trans ⟨?_, fun h => ?_⟩
    · rintro ⟨r, h, rfl⟩
      exact renamed_flip hB hT (mem_sortBy.mp h)
    · exact ⟨flipRenamed r, mem_sortBy.mpr (renamed_flip hT hB h), rfl⟩

theorem invert_keyed (hB : Keyed B) (hT : Keyed T) :
    invert (compute B T o) = compute T B o := by
  rw [invert_eq, compute_eq T B]
  exact sortDelta_ext (listed_unsorted hB hT).sorted.flipped (listed_unsorted hT hB)
    (sameMembers_flipped hB hT)

/-- Inverting the delta of two valid snapshots gives the delta the other way round, and inverting
it twice gives it back. -/
theorem invert_compute (hB : snapshotErrors B = false) (hT : snapshotErrors T = false)
    (o : DeltaOptions) :
    invert (compute B T o) = compute T B o ∧ invert (invert (compute B T o)) = compute B T o := by
  have hB := keyed_of_snapshotErrors hB
  have hT := keyed_of_snapshotErrors hT
  refine ⟨invert_keyed hB hT, ?_⟩
  rw [invert_keyed hB hT, invert_keyed hT hB]

/-! ### A file moved into a folder -/

def rootEntry : FileEntry :=
  { id := 1, normalizedPath := str "/r", name := str "r", type := .directory }

def folderEntry : FileEntry :=
  { id := 2, parentId := 1, normalizedPath := str "/r/d", name := str "d", type := .directory }

def movedBefore : Snapshot :=
  { snapshotId := 1, hostIdentifier := str "h", rootEntryId := 1
    entries := [rootEntry, folderEntry,
      { id := 3, parentId := 1, normalizedPath := str "/r/x", name := str "x" }] }

def movedAfter : Snapshot :=
  { snapshotId := 2, hostIdentifier := str "h", rootEntryId := 1
    entries := [rootEntry, folderEntry,
      { id := 4, parentId := 2, normalizedPath := str "/r/d/x", name := str "x" }] }

theorem moved_valid : snapshotErrors movedBefore = false ∧ snapshotErrors movedAfter = false := by
  decide +kernel

example : (compute movedBefore movedAfter).renamedEntries =
    [{ beforeEntryId := 3, afterEntryId := 4, oldPath := str "/r/x", newPath := str "/r/d/x" }] := by
  rfl

theorem invert_compute_moved :
    invert (compute movedBefore movedAfter {}) = compute movedAfter movedBefore {} ∧
      invert (invert (compute movedBefore movedAfter {})) = compute movedBefore movedAfter {} :=
  invert_compute moved_valid.1 moved_valid.2 {}

/-! ## The order of the entries -/

theorem Keyed.perm (hB : Keyed B) (h : B'.entries.Perm B.entries) : Keyed B' where
  ids := ((h.map FileEntry.id).nodup_iff).mpr hB.ids
  paths := ((h.map FileEntry.normalizedPath).nodup_iff).mpr hB.paths
  normal e he := hB.normal e (h.mem_iff.mp he)

theorem onlyIn_perm (hB : B'.entries.Perm B.entries) (hT : T'.entries.Perm T.entries) :
    (onlyIn B' T').Perm (onlyIn B T) := by
  have hsame : ∀ e : FileEntry, (∀ x ∈ T'.entries, x.id ≠ e.id) ↔ ∀ x ∈ T.entries, x.id ≠ e.id :=
    fun e => forall_congr' fun x => imp_congr_left hT.mem_iff
  exact (hB.filter _).trans
    (.of_eq (List.filter_congr fun e _ => decide_eq_decide.mpr (hsame e)))

/-- Another order of the base and of the target. -/
structure Reordered (B T B' T' : Snapshot) : Prop where
  base : B'.entries.Perm B.entries
  target : T'.entries.Perm T.entries

theorem Reordered.symm (h : Reordered B T B' T') : Reordered B' T' B T :=
  ⟨h.base.symm, h.target.symm⟩

theorem Reordered.paired (h : Reordered B T B' T') (hp : Paired B T b t) : Paired B' T' b t where
  vanished := (onlyIn_perm h.base h.target).mem_iff.mpr hp.vanished
  appeared := (onlyIn_perm h.target h.base).mem_iff.mpr hp.appeared
  fingerprint := hp.fingerprint
  rank := (rank_perm (onlyIn_perm h.base h.target) b).trans
    (hp.rank.trans (rank_perm (onlyIn_perm h.target h.base) t).symm)

theorem Reordered.linked_iff (h : Reordered B T B' T') :
    Linked o B' T' b t ↔ Linked o B T b t :=
  ⟨fun hl => ⟨hl.on, h.symm.paired hl.paired⟩, fun hl => ⟨hl.on, h.paired hl.paired⟩⟩

theorem Reordered.renames (h : Reordered B T B' T') (hr : Renames o B T b t) :
    Renames o B' T' b t := by
  cases hr with
  | common hb ht hid hpath =>
      exact .common (h.base.mem_iff.mpr hb) (h.target.mem_iff.mpr ht) hid hpath
  | linked hl => exact .linked (h.linked_iff.mpr hl)

theorem sameMembers_reordered (hB : Keyed B) (hT : Keyed T) (h : Reordered B T B' T')
    (hbase : B'.snapshotId = B.snapshotId) (htarget : T'.snapshotId = T.snapshotId) :
    SameMembers (unsorted B' T' o) (unsorted B T o) where
  schema := rfl
  baseId := hbase
  targetId := htarget
  added t := by
    show t ∈ (pairing B' T' o).added ↔ t ∈ (pairing B T o).added
    rw [mem_pairing_added (hB.perm h.base) (hT.perm h.target), mem_pairing_added hB hT]
    exact and_congr (onlyIn_perm h.target h.base).mem_iff
      (forall_congr' fun _ => not_congr h.linked_iff)
  removed b := by
    show b ∈ (pairing B' T' o).removed ↔ b ∈ (pairing B T o).removed
    rw [mem_pairing_removed (hB.perm h.base) (hT.perm h.target), mem_pairing_removed hB hT]
    exact and_congr (onlyIn_perm h.base h.target).mem_iff
      (forall_congr' fun _ => not_congr h.linked_iff)
  modified m := by
    rw [mem_unsorted_modified (hT.perm h.target), mem_unsorted_modified hT]
    simp only [h.base.mem_iff, h.target.mem_iff]
  renamed r := by
    rw [mem_unsorted_renamed (hB.perm h.base) (hT.perm h.target), mem_unsorted_renamed hB hT]
    exact exists₂_congr fun _ _ => and_congr_left' ⟨h.symm.renames, h.renames⟩

/-- The delta of two valid snapshots is the same however their entries are ordered. -/
theorem compute_reordered (hB : snapshotErrors B = false) (hT : snapshotErrors T = false)
    (o : DeltaOptions) {l l' : List FileEntry} (hl : l.Perm B.entries) (hl' : l'.Perm T.entries) :
    compute { B with entries := l } { T with entries := l' } o = compute B T o := by
  have hB := keyed_of_snapshotErrors hB
  have hT := keyed_of_snapshotErrors hT
  have h : Reordered B T { B with entries := l } { T with entries := l' } := ⟨hl, hl'⟩
  exact sortDelta_ext (listed_unsorted (hB.perm h.base) (hT.perm h.target)) (listed_unsorted hB hT)
    (sameMembers_reordered hB hT h rfl rfl)

theorem compute_reordered_moved :
    compute { movedBefore with entries := movedBefore.entries.reverse }
        { movedAfter with entries := movedAfter.entries.reverse } {} =
      compute movedBefore movedAfter {} :=
  compute_reordered moved_valid.1 moved_valid.2 {} (List.reverse_perm _) (List.reverse_perm _)

end ServerStorage.Muninn
