/-
# `ServerStorage.Muninn.RenamePairs` — the heuristic, class by class

The heuristic drops no entry and uses none twice; and within one fingerprint the renames
are the zip of the two path-ordered lists of that fingerprint.
-/
import ServerStorage.Muninn.DeltaLaws

namespace ServerStorage.Muninn

open Lib DeltaEngine

variable {o : DeltaOptions} {B T : Snapshot} {b t : FileEntry} {f : RenameFingerprint}

/-! ## No entry is lost or used twice -/

theorem mem_renamed_compute (hB : Keyed B) (hT : Keyed T) {r : RenamedEntry} :
    r ∈ (compute B T o).renamedEntries ↔ ∃ b t, Renames o B T b t ∧ r = toRenamed (b, t) :=
  mem_sortBy.trans (mem_unsorted_renamed hB hT)

/-- The keys of the renames, for a key that one side determines. -/
theorem renamed_compute_keys (hB : Keyed B) (hT : Keyed T) {κ : Type} {f : RenamedEntry → κ}
    (hf : ∀ {b t b' t'}, Renames o B T b t → Renames o B T b' t' →
      f (toRenamed (b, t)) = f (toRenamed (b', t')) → b = b' ∨ t = t') :
    ((compute B T o).renamedEntries.map f).Nodup := by
  refine ((sortBy_perm renamedLess (unsorted B T o).renamedEntries).map f).nodup_iff.mpr ?_
  rw [renamed_unsorted]
  exact movesUnder_keys hB hT hf

theorem removed_compute_keys {κ : Type} {f : FileEntry → κ} (hB : (B.entries.map f).Nodup) :
    ((compute B T o).removedEntries.map f).Nodup :=
  ((sortBy_perm entryLess _).map f).nodup_iff.mpr (removed_keys hB)

theorem added_compute_keys {κ : Type} {f : FileEntry → κ} (hT : (T.entries.map f).Nodup) :
    ((compute B T o).addedEntries.map f).Nodup :=
  ((sortBy_perm entryLess _).map f).nodup_iff.mpr (added_keys hT)

theorem mem_removed_compute (hB : Keyed B) (hT : Keyed T) :
    b ∈ (compute B T o).removedEntries ↔ b ∈ vanished B T ∧ ∀ t, ¬ Linked o B T b t :=
  mem_sortBy.trans (mem_pairing_removed hB hT)

theorem mem_added_compute (hB : Keyed B) (hT : Keyed T) :
    t ∈ (compute B T o).addedEntries ↔ t ∈ appeared B T ∧ ∀ b, ¬ Linked o B T b t :=
  mem_sortBy.trans (mem_pairing_added hB hT)

/-- A rename whose source the target lacks is one of the heuristic. -/
theorem Renames.linked_of_vanished (h : Renames o B T b t) (hb : b ∈ vanished B T) :
    Linked o B T b t := by
  cases h with
  | common _ ht hid _ => exact absurd hid.symm ((mem_onlyIn.mp hb).2 t ht)
  | linked h => exact h

/-- Ids of the base that the delta takes away: each of them once. -/
theorem leaving_nodup (hB : Keyed B) (hT : Keyed T) :
    ((compute B T o).removedEntries.map FileEntry.id ++
      (compute B T o).renamedEntries.map RenamedEntry.beforeEntryId).Nodup := by
  refine List.nodup_append'.mpr ⟨removed_compute_keys hB.ids, renamed_compute_keys hB hT
    fun h h' hkey => .inl (hB.eq_of_id h.continues.base h'.continues.base hkey), ?_⟩
  intro i hremoved hrenamed
  obtain ⟨b, hb, rfl⟩ := List.mem_map.mp hremoved
  obtain ⟨r, hr, hid⟩ := List.mem_map.mp hrenamed
  obtain ⟨b', t, hbt, rfl⟩ := (mem_renamed_compute hB hT).mp hr
  obtain ⟨hvanished, hnot⟩ := (mem_removed_compute hB hT).mp hb
  obtain rfl : b' = b := hB.eq_of_id hbt.continues.base (mem_onlyIn.mp hvanished).1 hid
  exact hnot t (hbt.linked_of_vanished hvanished)

theorem mem_leaving (hB : Keyed B) (hT : Keyed T) (hb : b ∈ vanished B T) :
    b.id ∈ (compute B T o).removedEntries.map FileEntry.id ++
      (compute B T o).renamedEntries.map RenamedEntry.beforeEntryId := by
  by_cases hlinked : ∃ t, Linked o B T b t
  · obtain ⟨t, h⟩ := hlinked
    exact List.mem_append_right _ (List.mem_map.mpr
      ⟨toRenamed (b, t), (mem_renamed_compute hB hT).mpr ⟨b, t, .linked h, rfl⟩, rfl⟩)
  · exact List.mem_append_left _ (List.mem_map_of_mem
      ((mem_removed_compute hB hT).mpr ⟨hb, not_exists.mp hlinked⟩))

/-- An id that only the base has leaves once, as a removal or as the source of a rename. -/
theorem leaves_once (hB : Keyed B) (hT : Keyed T) (hb : b ∈ vanished B T) :
    ((compute B T o).removedEntries.map FileEntry.id ++
      (compute B T o).renamedEntries.map RenamedEntry.beforeEntryId).count b.id = 1 :=
  List.count_eq_one_of_mem (leaving_nodup hB hT) (mem_leaving hB hT hb)

/-- An id that only the target has arrives once: the delta the other way round, where it
leaves. -/
theorem arrives_once (hB : Keyed B) (hT : Keyed T) (ht : t ∈ appeared B T) :
    ((compute B T o).addedEntries.map FileEntry.id ++
      (compute B T o).renamedEntries.map RenamedEntry.afterEntryId).count t.id = 1 := by
  have hback : invert (compute T B o) = compute B T o := invert_keyed hT hB
  have hadded : (compute B T o).addedEntries.Perm (compute T B o).removedEntries := by
    rw [← hback]
    exact sortBy_perm _ _
  have hrenamed : ((compute B T o).renamedEntries.map RenamedEntry.afterEntryId).Perm
      ((compute T B o).renamedEntries.map RenamedEntry.beforeEntryId) := by
    have hperm := (sortBy_perm renamedLess
      ((compute T B o).renamedEntries.map flipRenamed)).map RenamedEntry.afterEntryId
    rw [List.map_map] at hperm
    rw [← hback]
    exact hperm
  rw [((hadded.map FileEntry.id).append hrenamed).count_eq]
  exact leaves_once hT hB ht

/-! ## One fingerprint -/

/-- The entries of one fingerprint, in path order. -/
def fingerprintClass (l : List FileEntry) (f : RenameFingerprint) : List FileEntry :=
  (sortBy byPath l).filter fun e => makeRenameFingerprint e = f

theorem mem_fingerprintClass {l : List FileEntry} :
    b ∈ fingerprintClass l f ↔ b ∈ l ∧ makeRenameFingerprint b = f := by
  rw [fingerprintClass, List.mem_filter, mem_sortBy, decide_eq_true_iff]

theorem fingerprintClass_sorted {l : List FileEntry}
    (h : (l.map FileEntry.normalizedPath).Nodup) :
    (fingerprintClass l f).Pairwise fun a b => a.normalizedPath < b.normalizedPath :=
  (sorted_byPath h).filter _

/-- An entry stands in its class at its rank. -/
theorem getElem?_fingerprintClass {l : List FileEntry}
    (h : (l.map FileEntry.normalizedPath).Nodup) {i : Nat} :
    (fingerprintClass l f)[i]? = some b ↔
      b ∈ l ∧ makeRenameFingerprint b = f ∧ rank l b = i := by
  rw [getElem?_iff_countP (fingerprintClass_sorted h), mem_fingerprintClass, and_assoc]
  refine and_congr_right fun _ => and_congr_right fun hf => ?_
  refine Eq.congr_left ?_
  rw [fingerprintClass, List.countP_filter, (sortBy_perm byPath l).countP_eq, rank]
  refine List.countP_congr fun a _ => ?_
  simp only [Bool.and_eq_true, decide_eq_true_eq, hf, and_comm]

/-- Two entries of one class stand opposite each other when the heuristic links them. -/
theorem mem_zip_fingerprintClass (hon : o.enableRenameHeuristic = true) (hB : Keyed B)
    (hT : Keyed T) :
    (b, t) ∈ (fingerprintClass (vanished B T) f).zip (fingerprintClass (appeared B T) f) ↔
      Linked o B T b t ∧ makeRenameFingerprint b = f := by
  have hR := nodup_onlyIn hB.paths T
  have hA := nodup_onlyIn hT.paths B
  simp only [List.mem_iff_getElem?, List.getElem?_zip_eq_some]
  constructor
  · rintro ⟨i, hb, ht⟩
    obtain ⟨hb, hbf, hbi⟩ := (getElem?_fingerprintClass hR).mp hb
    obtain ⟨ht, htf, hti⟩ := (getElem?_fingerprintClass hA).mp ht
    exact ⟨⟨hon, hb, ht, hbf.trans htf.symm, hbi.trans hti.symm⟩, hbf⟩
  · rintro ⟨h, hf⟩
    refine ⟨rank (vanished B T) b, (getElem?_fingerprintClass hR).mpr ⟨h.paired.vanished, hf, rfl⟩,
      (getElem?_fingerprintClass hA).mpr ⟨h.paired.appeared, ?_, h.paired.rank.symm⟩⟩
    exact h.paired.fingerprint.symm.trans hf

theorem renamed_sorted (hB : Keyed B) (hT : Keyed T) :
    (compute B T o).renamedEntries.Pairwise fun r s => r.oldPath < s.oldPath := by
  have hle := sortBy_pairwise RenamedEntry.oldPath (fun _ _ => renamedLess_le)
    (fun _ _ => le_of_not_renamedLess) (unsorted B T o).renamedEntries
  have hne := List.pairwise_map.mp (listed_unsorted (o := o) hB hT).sorted.oldPaths
  exact hle.imp₂ (fun _ _ hab hne => lt_of_le_of_ne hab hne) hne

/-- The renames that one condition picks, when it picks those of one class. -/
theorem filter_renamed (hon : o.enableRenameHeuristic = true) (hB : Keyed B) (hT : Keyed T)
    {p : RenamedEntry → Bool}
    (hp : ∀ {b t}, Renames o B T b t →
      (p (toRenamed (b, t)) = true ↔ Linked o B T b t ∧ makeRenameFingerprint b = f)) :
    (compute B T o).renamedEntries.filter p =
      ((fingerprintClass (vanished B T) f).zip (fingerprintClass (appeared B T) f)).map
        toRenamed := by
  refine eq_of_increasing ((renamed_sorted hB hT).filter p) ?_ fun r => ?_
  · refine List.pairwise_map.mpr ?_
    exact pairwise_zip _ (fingerprintClass_sorted (nodup_onlyIn hB.paths T))
  · rw [List.mem_filter, mem_renamed_compute hB hT, List.mem_map]
    constructor
    · rintro ⟨⟨b, t, hbt, rfl⟩, hpick⟩
      exact ⟨(b, t), (mem_zip_fingerprintClass hon hB hT).mpr ((hp hbt).mp hpick), rfl⟩
    · rintro ⟨⟨b, t⟩, hmem, rfl⟩
      have h := (mem_zip_fingerprintClass hon hB hT).mp hmem
      exact ⟨⟨b, t, .linked h.1, rfl⟩, (hp (.linked h.1)).mpr h⟩

/-- An entry of the base whose id is that of an entry of a class is that entry. -/
theorem mem_class_ids {s : Snapshot} (hs : Keyed s) {l : List FileEntry}
    (hl : ∀ e ∈ l, e ∈ s.entries) (hb : b ∈ s.entries) :
    b.id ∈ (fingerprintClass l f).map FileEntry.id ↔ b ∈ l ∧ makeRenameFingerprint b = f := by
  rw [List.mem_map]
  constructor
  · rintro ⟨e, he, hid⟩
    obtain ⟨hel, hef⟩ := mem_fingerprintClass.mp he
    obtain rfl := hs.eq_of_id (hl e hel) hb hid
    exact ⟨hel, hef⟩
  · intro h
    exact ⟨b, mem_fingerprintClass.mpr h, rfl⟩

theorem renames_from_class (hon : o.enableRenameHeuristic = true) (hB : Keyed B)
    (hT : Keyed T) :
    (compute B T o).renamedEntries.filter
        (fun r => r.beforeEntryId ∈ (fingerprintClass (vanished B T) f).map FileEntry.id) =
      ((fingerprintClass (vanished B T) f).zip (fingerprintClass (appeared B T) f)).map
        toRenamed := by
  refine filter_renamed hon hB hT fun {b t} hbt => ?_
  rw [decide_eq_true_iff]
  refine (mem_class_ids hB (fun e he => (mem_onlyIn.mp he).1) hbt.continues.base).trans ?_
  exact and_congr_left' ⟨hbt.linked_of_vanished, fun h => h.paired.vanished⟩

theorem renames_into_class (hon : o.enableRenameHeuristic = true) (hB : Keyed B)
    (hT : Keyed T) :
    (compute B T o).renamedEntries.filter
        (fun r => r.afterEntryId ∈ (fingerprintClass (appeared B T) f).map FileEntry.id) =
      ((fingerprintClass (vanished B T) f).zip (fingerprintClass (appeared B T) f)).map
        toRenamed := by
  refine filter_renamed hon hB hT fun {b t} hbt => ?_
  rw [decide_eq_true_iff]
  refine (mem_class_ids hT (fun e he => (mem_onlyIn.mp he).1) hbt.continues.target).trans ?_
  constructor
  · rintro ⟨ht, hf⟩
    have hlink := (hbt.swap.linked_of_vanished ht).swap
    exact ⟨hlink, hlink.paired.fingerprint.trans hf⟩
  · rintro ⟨hlink, hf⟩
    exact ⟨hlink.paired.appeared, hlink.paired.fingerprint.symm.trans hf⟩

/-- With the heuristic on, every id of one side only is accounted for once, and within one
fingerprint the renames pair the two sides in path order, as many as the shorter side has
entries. -/
theorem rename_heuristic_exact (hB : snapshotErrors B = false) (hT : snapshotErrors T = false) :
    let d := compute B T { enableRenameHeuristic := true }
    (∀ b ∈ B.entries, (∀ t ∈ T.entries, t.id ≠ b.id) →
      (d.removedEntries.map FileEntry.id ++
        d.renamedEntries.map RenamedEntry.beforeEntryId).count b.id = 1) ∧
    (∀ t ∈ T.entries, (∀ b ∈ B.entries, b.id ≠ t.id) →
      (d.addedEntries.map FileEntry.id ++
        d.renamedEntries.map RenamedEntry.afterEntryId).count t.id = 1) ∧
    ∀ f : RenameFingerprint,
      let baseOnly := fingerprintClass (onlyIn B T) f
      let targetOnly := fingerprintClass (onlyIn T B) f
      let sources := d.renamedEntries.filter fun r => r.beforeEntryId ∈ baseOnly.map FileEntry.id
      let targets := d.renamedEntries.filter fun r => r.afterEntryId ∈ targetOnly.map FileEntry.id
      sources = (baseOnly.zip targetOnly).map toRenamed ∧ targets = sources ∧
        sources.length = min baseOnly.length targetOnly.length := by
  have hB := keyed_of_snapshotErrors hB
  have hT := keyed_of_snapshotErrors hT
  refine ⟨fun b hb hid => leaves_once hB hT (mem_onlyIn.mpr ⟨hb, hid⟩),
    fun t ht hid => arrives_once hB hT (mem_onlyIn.mpr ⟨ht, hid⟩), fun f => ?_⟩
  have hfrom := renames_from_class (f := f) (o := { enableRenameHeuristic := true }) rfl hB hT
  have hinto := renames_into_class (f := f) (o := { enableRenameHeuristic := true }) rfl hB hT
  refine ⟨hfrom, hinto.trans hfrom.symm, ?_⟩
  refine (congrArg List.length hfrom).trans ?_
  rw [List.length_map, List.length_zip]
  rfl

theorem rename_heuristic_exact_moved :
    let d := compute movedBefore movedAfter { enableRenameHeuristic := true }
    (∀ b ∈ movedBefore.entries, (∀ t ∈ movedAfter.entries, t.id ≠ b.id) →
      (d.removedEntries.map FileEntry.id ++
        d.renamedEntries.map RenamedEntry.beforeEntryId).count b.id = 1) ∧
    (∀ t ∈ movedAfter.entries, (∀ b ∈ movedBefore.entries, b.id ≠ t.id) →
      (d.addedEntries.map FileEntry.id ++
        d.renamedEntries.map RenamedEntry.afterEntryId).count t.id = 1) ∧
    ∀ f : RenameFingerprint,
      let baseOnly := fingerprintClass (onlyIn movedBefore movedAfter) f
      let targetOnly := fingerprintClass (onlyIn movedAfter movedBefore) f
      let sources := d.renamedEntries.filter fun r => r.beforeEntryId ∈ baseOnly.map FileEntry.id
      let targets := d.renamedEntries.filter fun r => r.afterEntryId ∈ targetOnly.map FileEntry.id
      sources = (baseOnly.zip targetOnly).map toRenamed ∧ targets = sources ∧
        sources.length = min baseOnly.length targetOnly.length :=
  rename_heuristic_exact moved_valid.1 moved_valid.2

end ServerStorage.Muninn
