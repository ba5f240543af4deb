/-
# `ServerStorage.Muninn.DeltaValid` — what `compute` produces, `validate_delta` accepts

The validator asks of the change lists that no id occurs twice in one of them, that they
do not contradict one another, and that every id occurs in the snapshot it is said to be
of.  All of it follows from what the lists of `compute` hold.
-/
import ServerStorage.Muninn.RenamePairs
import ServerStorage.Muninn.Archive

namespace ServerStorage.Muninn

open Lib Lmdb DeltaEngine ValidationReport LmdbStore IndexingPipeline

variable {o : DeltaOptions} {B T : Snapshot}

/-! ## The passes of the validator, one by one -/

theorem duplicateLoop_ok {α κ : Type} [BEq κ] [LawfulBEq κ] {key : α → κ}
    {issue : α → ValidationIssue} : ∀ {l : List α} {seen : List κ},
      (l.map key).Nodup ∧ (∀ a ∈ l, key a ∉ seen) →
        (duplicateLoop key issue seen l).hasErrors = false := by
  intro l
  induction l with
  | nil => exact fun _ => rfl
  | cons a l ih =>
      intro seen h
      obtain ⟨ha, hl⟩ := fresh_cons.mpr h
      have hnew : seen.contains (key a) = false := by
        rw [List.contains_eq_mem]
        exact decide_eq_false ha
      rw [duplicateLoop, hasErrors_append, hasErrors_report, hnew, ih hl]
      rfl

theorem renamedLoopIssues_ok {delta : DeltaSnapshot} : ∀ {l : List RenamedEntry}
    {oldIds newIds : List EntryId} {targets : List Str},
      ((l.map RenamedEntry.beforeEntryId).Nodup ∧ ∀ r ∈ l, r.beforeEntryId ∉ oldIds) →
      ((l.map RenamedEntry.afterEntryId).Nodup ∧ ∀ r ∈ l, r.afterEntryId ∉ newIds) →
      ((l.map RenamedEntry.newPath).Nodup ∧ ∀ r ∈ l, r.newPath ∉ targets) →
        (renamedLoopIssues delta oldIds newIds targets l).hasErrors = false := by
  intro l
  induction l with
  | nil => exact fun _ _ _ => rfl
  | cons r l ih =>
      intro oldIds newIds targets hold hnew hpath
      obtain ⟨hr, hold⟩ := fresh_cons.mpr hold
      obtain ⟨hr', hnew⟩ := fresh_cons.mpr hnew
      obtain ⟨hp, hpath⟩ := fresh_cons.mpr hpath
      have hseen : oldIds.contains r.beforeEntryId = false := by
        rw [List.contains_eq_mem]
        exact decide_eq_false hr
      have hseen' : newIds.contains r.afterEntryId = false := by
        rw [List.contains_eq_mem]
        exact decide_eq_false hr'
      have htaken : targets.contains r.newPath = false := by
        rw [List.contains_eq_mem]
        exact decide_eq_false hp
      rw [renamedLoopIssues, hseen, hseen', htaken, hasErrors_append, hasErrors_append,
        hasErrors_report, hasErrors_report]
      exact ih hold hnew hpath

/-- No id is added and taken away, or changed and either of these. -/
theorem conflictIssues_ok {delta : DeltaSnapshot}
    (hremoved : ∀ a ∈ delta.addedEntries, ∀ r ∈ delta.removedEntries, r.id ≠ a.id)
    (hadded : ∀ a ∈ delta.addedEntries, ∀ m ∈ delta.modifiedEntries, m.entryId ≠ a.id)
    (hmodified : ∀ r ∈ delta.removedEntries, ∀ m ∈ delta.modifiedEntries, m.entryId ≠ r.id) :
    (conflictIssues delta).hasErrors = false := by
  have habsent : ∀ {α : Type} {key : α → EntryId} {l : List α} {i : EntryId},
      (∀ a ∈ l, key a ≠ i) → (l.map key).contains i = false := fun {α key l i} h => by
    rw [List.contains_eq_mem, decide_eq_false_iff_not, List.mem_map]
    exact fun ⟨a, ha, heq⟩ => h a ha heq
  rw [conflictIssues, hasErrors_append, Bool.or_eq_false_iff]
  simp only [hasErrors, List.any_flatMap, List.any_eq_false]
  constructor
  · intro i hi
    obtain ⟨a, ha, rfl⟩ := List.mem_map.mp (List.mem_dedup.mp hi)
    rw [habsent (hremoved a ha), habsent (hadded a ha)]
    exact Bool.false_ne_true
  · intro i hi
    obtain ⟨r, hr, rfl⟩ := List.mem_map.mp (List.mem_dedup.mp hi)
    rw [habsent (hmodified r hr)]
    exact Bool.false_ne_true

theorem missingIssues_ok {α : Type} {s : Snapshot} {id : α → EntryId} {path : α → Str}
    {code : ValidationErrorCode} {message : String} {l : List α}
    (h : ∀ a ∈ l, ∃ e ∈ s.entries, e.id = id a) :
    (missingIssues s id path code message l).hasErrors = false := by
  simp only [missingIssues, hasErrors, List.any_flatMap, List.any_eq_false]
  intro a ha
  obtain ⟨e, he, hid⟩ := h a ha
  have hmem : (s.entries.map FileEntry.id).contains (id a) = true := by
    rw [List.contains_eq_mem]
    exact decide_eq_true (List.mem_map.mpr ⟨e, he, hid⟩)
  rw [hmem]
  exact Bool.false_ne_true

/-! ## The lists of `compute` -/

theorem mem_modified_compute (hT : Keyed T) {m : ModifiedEntry}
    (h : m ∈ (compute B T o).modifiedEntries) :
    ∃ b ∈ B.entries, ∃ t ∈ T.entries, b.id = m.entryId ∧ t.id = m.entryId := by
  obtain ⟨b, hb, t, ht, hid, -, rfl⟩ := (mem_unsorted_modified (o := o) hT).mp (mem_sortBy.mp h)
  exact ⟨b, hb, t, ht, hid, rfl⟩

theorem baseIssues_compute (hB : Keyed B) (hT : Keyed T) :
    (baseIssues (compute B T o) B).hasErrors = false := by
  rw [baseIssues, hasErrors_append, hasErrors_append, missingIssues_ok, missingIssues_ok,
    missingIssues_ok]
  · rfl
  · intro r hr
    obtain ⟨b, t, h, rfl⟩ := (mem_renamed_compute hB hT).mp hr
    exact ⟨b, h.continues.base, rfl⟩
  · intro m hm
    obtain ⟨b, hb, t, ht, hid, -⟩ := mem_modified_compute hT hm
    exact ⟨b, hb, hid⟩
  · intro e he
    exact ⟨e, (mem_onlyIn.mp ((mem_removed_compute hB hT).mp he).1).1, rfl⟩

theorem targetIssues_compute (hB : Keyed B) (hT : Keyed T) :
    (targetIssues (compute B T o) T).hasErrors = false := by
  rw [targetIssues, hasErrors_append, hasErrors_append, missingIssues_ok, missingIssues_ok,
    missingIssues_ok]
  · rfl
  · intro r hr
    obtain ⟨b, t, h, rfl⟩ := (mem_renamed_compute hB hT).mp hr
    exact ⟨t, h.continues.target, rfl⟩
  · intro m hm
    obtain ⟨b, hb, t, ht, -, hid⟩ := mem_modified_compute hT hm
    exact ⟨t, ht, hid⟩
  · intro e he
    exact ⟨e, (mem_onlyIn.mp ((mem_added_compute hB hT).mp he).1).1, rfl⟩

theorem conflictIssues_compute (hB : Keyed B) (hT : Keyed T) :
    (conflictIssues (compute B T o)).hasErrors = false := by
  refine conflictIssues_ok (fun a ha r hr => ?_) (fun a ha m hm => ?_) fun r hr m hm => ?_
  · have happeared := mem_onlyIn.mp ((mem_added_compute hB hT).mp ha).1
    have hvanished := mem_onlyIn.mp ((mem_removed_compute hB hT).mp hr).1
    exact happeared.2 r hvanished.1
  · have happeared := mem_onlyIn.mp ((mem_added_compute hB hT).mp ha).1
    obtain ⟨b, hb, t, ht, hid, -⟩ := mem_modified_compute hT hm
    exact hid ▸ happeared.2 b hb
  · have hvanished := mem_onlyIn.mp ((mem_removed_compute hB hT).mp hr).1
    obtain ⟨b, hb, t, ht, -, hid⟩ := mem_modified_compute hT hm
    exact hid ▸ hvanished.2 t ht

theorem renamedLoopIssues_compute (hB : Keyed B) (hT : Keyed T) (delta : DeltaSnapshot) :
    (renamedLoopIssues delta [] [] [] (compute B T o).renamedEntries).hasErrors = false := by
  refine renamedLoopIssues_ok ⟨?_, nofun⟩ ⟨?_, nofun⟩ ⟨?_, nofun⟩
  · exact renamed_compute_keys hB hT fun h h' hkey =>
      .inl (hB.eq_of_id h.continues.base h'.continues.base hkey)
  · exact renamed_compute_keys hB hT fun h h' hkey =>
      .inr (hT.eq_of_id h.continues.target h'.continues.target hkey)
  · exact renamed_compute_keys hB hT fun h h' hkey =>
      .inr (hT.eq_of_path h.continues.target h'.continues.target hkey)

/-- The delta of two valid snapshots is valid, under either setting of the heuristic. -/
theorem validateDelta_compute (hB : snapshotErrors B = false) (hT : snapshotErrors T = false) :
    (validateDelta (compute B T o) (some B) (some T)).hasErrors = false := by
  have hbase : ((compute B T o).baseSnapshotId == 0) = false :=
    beq_eq_false_iff_ne.mpr (snapshotErrors_iff.mp hB).header.id
  have htarget : ((compute B T o).targetSnapshotId == 0) = false :=
    beq_eq_false_iff_ne.mpr (snapshotErrors_iff.mp hT).header.id
  have hB := keyed_of_snapshotErrors hB
  have hT := keyed_of_snapshotErrors hT
  have hadded : ∀ issue, (duplicateLoop FileEntry.id issue []
      (compute B T o).addedEntries).hasErrors = false := fun _ =>
    duplicateLoop_ok ⟨added_compute_keys hT.ids, fun _ _ => List.not_mem_nil⟩
  have hremoved : ∀ issue, (duplicateLoop FileEntry.id issue []
      (compute B T o).removedEntries).hasErrors = false := fun _ =>
    duplicateLoop_ok ⟨removed_compute_keys hB.ids, fun _ _ => List.not_mem_nil⟩
  have hmodified : ∀ issue, (duplicateLoop ModifiedEntry.entryId issue []
      (compute B T o).modifiedEntries).hasErrors = false := fun _ =>
    duplicateLoop_ok ⟨(listed_unsorted hB hT).sorted.modified, fun _ _ => List.not_mem_nil⟩
  simp only [validateDelta, hasErrors_append, hasErrors_report, hbase, htarget, Option.map_some,
    Option.getD_some, hadded, hremoved, hmodified, renamedLoopIssues_compute hB hT,
    conflictIssues_compute hB hT, baseIssues_compute hB hT, targetIssues_compute hB hT]
  simp

/-- The delta that a capture without changes reports. -/
theorem validateDelta_unchanged (hB : snapshotErrors B = false) :
    (validateDelta { schema := kCurrentSchemaHeader, baseSnapshotId := B.snapshotId
                     targetSnapshotId := B.snapshotId } (some B) (some B)).hasErrors = false := by
  have hid : (B.snapshotId == 0) = false :=
    beq_eq_false_iff_ne.mpr (snapshotErrors_iff.mp hB).header.id
  simp only [validateDelta, hasErrors_append, hasErrors_report, hid]
  simp [duplicateLoop, renamedLoopIssues, conflictIssues, baseIssues, targetIssues, missingIssues]

/-! ## The captures -/

section
variable {store store' : LmdbStore} {rawScan : RawScanResult} {result : PipelineResult}
  {now : UnixTimestamp} {io : CaptureIo} {baseSnapshotId : SnapshotId} {enqueueTransport : Bool}

/-- A scan whose validation passes has a valid snapshot. -/
theorem scanned_valid (h : IndexingPipeline.scanned rawScan now = some result)
    (hvalid : result.snapshotValidation.ok = true) :
    snapshotErrors result.snapshotBuild.snapshot = false := by
  obtain ⟨built, -, h⟩ := Option.bind_eq_some_iff.mp h
  obtain rfl := Option.some.inj h
  have herrors := hasErrors_validateSnapshotAt now built.snapshot
  exact herrors.symm.trans ((Bool.not_eq_true' _).mp hvalid)

theorem getSnapshot_valid {base : Snapshot} {faults : List (Option Fault)}
    (h : store.getSnapshot baseSnapshotId true now faults = .ok base) :
    snapshotErrors base = false := by
  obtain ⟨_, -, h⟩ := except_bind_ok.mp h
  obtain ⟨payload, -, h⟩ := except_bind_ok.mp h
  obtain ⟨snapshot, -, h⟩ := except_bind_ok.mp h
  obtain ⟨_, hcheck, h⟩ := except_bind_ok.mp h
  obtain rfl := Except.ok.inj h
  rw [checkedIf, if_pos rfl] at hcheck
  exact validateSnapshotForStore_ok hcheck

/-- The delta a capture computes is valid, or there is none. -/
theorem withBase_valid
    (hvalid : snapshotErrors result.snapshotBuild.snapshot = false)
    (hB : snapshotErrors B = false) :
    (storeUpdate store (withBase result B enqueueTransport) enqueueTransport io).1.deltaValidation.ok
      = true := by
  have hdelta : (validateDelta (compute B result.snapshotBuild.snapshot) (some B)
      (some result.snapshotBuild.snapshot)).ok = true :=
    (Bool.not_eq_true' _).mpr (validateDelta_compute hB hvalid)
  have hsame := (Bool.not_eq_true' _).mpr (validateDelta_unchanged hB)
  rw [withBase]
  dsimp only
  rw [hdelta, if_neg (show ¬ (!true) = true from Bool.false_ne_true)]
  split
  · exact hsame
  · rw [storeUpdate]
    dsimp only
    split
    · exact hdelta
    · exact hdelta

/-- The delta of two valid snapshots passes its validation, whatever the setting of the heuristic;
and no capture fails the validation of its delta. -/
theorem computed_delta_valid :
    (∀ (B T : Snapshot) (o : DeltaOptions), snapshotErrors B = false → snapshotErrors T = false →
      (validateDelta (compute B T o) (some B) (some T)).hasErrors = false) ∧
    ∀ (store : LmdbStore) (rawScan : RawScanResult) (baseSnapshotId : SnapshotId)
      (enqueueTransport : Bool) (io : CaptureIo) (result : PipelineResult) (store' : LmdbStore),
      captureSnapshotAndDelta store rawScan baseSnapshotId enqueueTransport io =
        some (result, store') → result.deltaValidation.ok = true := by
  refine ⟨fun B T o => validateDelta_compute, ?_⟩
  intro store rawScan baseSnapshotId enqueueTransport io result store' h
  obtain ⟨built, hscan, h⟩ := Option.bind_eq_some_iff.mp h
  obtain rfl : (storeUpdate store (basedOn store built baseSnapshotId enqueueTransport io)
    enqueueTransport io).1 = result := congrArg Prod.fst (Option.some.inj h)
  have hempty : built.deltaValidation = [] := by
    obtain ⟨_, -, h⟩ := Option.bind_eq_some_iff.mp hscan
    rw [← Option.some.inj h]
  rw [basedOn]
  split
  · exact congrArg ValidationReport.ok hempty
  next hok =>
    rw [Bool.not_eq_true', Bool.not_eq_false] at hok
    cases hbase : store.getSnapshot baseSnapshotId true io.baseRead io.readFaults with
    | error status => exact congrArg ValidationReport.ok hempty
    | ok base => exact withBase_valid (scanned_valid hscan hok) (getSnapshot_valid hbase)

theorem computed_delta_valid_moved :
    (validateDelta (compute movedBefore movedAfter { enableRenameHeuristic := false })
      (some movedBefore) (some movedAfter)).hasErrors = false :=
  computed_delta_valid.1 _ _ _ moved_valid.1 moved_valid.2

end

end ServerStorage.Muninn
