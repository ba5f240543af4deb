/-
# `ServerStorage.Muninn.WellFormed` — what `validate_snapshot` decides

A snapshot is well formed when its header is acceptable, its entries have ids and paths of
their own, and the parent ids make them a tree of directories under one root.  The passes
find an error exactly when it is not: each pass gets a lemma that says what its silence
means, and the verdict is their conjunction.
-/
import ServerStorage.Muninn.GraphPass

namespace ServerStorage.Muninn

open Lib Relation ValidationReport

variable {s : Snapshot}

/-- The fields of the snapshot itself. -/
structure HeaderOk (s : Snapshot) : Prop where
  id : s.snapshotId ≠ 0
  schema : isValidSchema s.schema = true
  notTooNew : s.schema.major ≤ kCurrentSchemaHeader.major
  notTooOld : kCurrentSchemaHeader.minReaderMajor ≤ s.schema.major
  host : s.hostIdentifier ≠ []
  entries : s.entries ≠ []

/-- The path and the type of one entry. -/
structure EntryOk (e : FileEntry) : Prop where
  nonempty : e.normalizedPath ≠ []
  absolute : Path.isAbsolute e.normalizedPath = true
  normal : Path.lexicallyNormal e.normalizedPath = e.normalizedPath
  noTraversal : hasPathTraversal e.normalizedPath = false
  type : e.type.value ≤ EntryType.special.value

structure WellFormed (s : Snapshot) : Prop where
  header : HeaderOk s
  entry : ∀ e ∈ s.entries, EntryOk e
  id_ne : ∀ e ∈ s.entries, e.id ≠ 0
  ids : (s.entries.map FileEntry.id).Nodup
  paths : (s.entries.map FileEntry.normalizedPath).Nodup
  root : ∃ r ∈ s.entries, r.id = s.rootEntryId ∧ r.type = .directory ∧ r.parentId = 0
  parent : ∀ e ∈ s.entries, e.id ≠ s.rootEntryId → e.parentId ≠ 0 ∧
    ∃ p ∈ s.entries, p.id = e.parentId ∧ p.type = .directory
  acyclic : Acyclic s

/-! ## The passes, one by one -/

/-- The root entry the header pass looks up. -/
def RootOk (s : Snapshot) : Prop :=
  ∃ r, s.entries.find? (fun e => e.id = s.rootEntryId) = some r ∧ r.type = .directory ∧
    r.parentId = 0

theorem headerPass_ok :
    (headerPass s).hasErrors = false ↔ HeaderOk s ∧ s.rootEntryId ≠ 0 ∧ RootOk s := by
  rw [headerPass]
  by_cases hempty : s.entries = []
  · have hne : ¬ HeaderOk s := fun h => h.entries hempty
    simp [hempty, hne]
  · rw [if_neg (by rwa [List.isEmpty_iff])]
    cases hfind : s.entries.find? fun e => e.id = s.rootEntryId with
    | none =>
        have hne : ¬ RootOk s := fun ⟨r, hr, _⟩ => by
          rw [hfind] at hr
          cases hr
        simp [hne]
    | some r =>
        have hroot : RootOk s ↔ r.type = .directory ∧ r.parentId = 0 := by
          rw [RootOk, hfind]
          simp
        have hheader : HeaderOk s ↔ s.snapshotId ≠ 0 ∧ isValidSchema s.schema = true ∧
            s.schema.major ≤ kCurrentSchemaHeader.major ∧
            kCurrentSchemaHeader.minReaderMajor ≤ s.schema.major ∧ s.hostIdentifier ≠ [] :=
          ⟨fun h => ⟨h.id, h.schema, h.notTooNew, h.notTooOld, h.host⟩,
            fun ⟨h₁, h₂, h₃, h₄, h₅⟩ => ⟨h₁, h₂, h₃, h₄, h₅, hempty⟩⟩
        rw [hroot, hheader]
        simp [entryIssue]
        tauto

theorem identityIssues_ok {ids : List EntryId} {e : FileEntry} :
    (identityIssues s ids e).hasErrors = false ↔
      e.id ≠ 0 ∧ e.id ∉ ids ∧ (e.id ≠ s.rootEntryId → e.parentId ≠ 0) := by
  simp [identityIssues, entryIssue]

theorem pathIssues_ok {paths : List Str} {e : FileEntry} (hne : e.normalizedPath ≠ []) :
    (pathIssues s paths e).hasErrors = false ↔ EntryOk e ∧ e.normalizedPath ∉ paths := by
  have hiff : EntryOk e ↔ Path.isAbsolute e.normalizedPath = true ∧
      Path.lexicallyNormal e.normalizedPath = e.normalizedPath ∧
      hasPathTraversal e.normalizedPath = false ∧ e.type.value ≤ EntryType.special.value :=
    ⟨fun h => ⟨h.absolute, h.normal, h.noTraversal, h.type⟩, fun ⟨h₁, h₂, h₃, h₄⟩ => ⟨hne, h₁, h₂, h₃, h₄⟩⟩
  rw [hiff, pathIssues]
  simp [entryIssue]
  tauto

/-- A loop that hands down the keys met so far: the keys are new, and distinct. -/
theorem fresh_cons {α κ : Type} {key : α → κ} {seen : List κ} {a : α} {l : List α} :
    (key a ∉ seen ∧ (l.map key).Nodup ∧ ∀ b ∈ l, key b ∉ key a :: seen) ↔
      ((a :: l).map key).Nodup ∧ ∀ b ∈ a :: l, key b ∉ seen := by
  rw [List.map_cons, List.nodup_cons, List.forall_mem_cons]
  constructor
  · rintro ⟨ha, hnd, hl⟩
    refine ⟨⟨fun hmem => ?_, hnd⟩, ha, fun b hb hseen => hl b hb (List.mem_cons_of_mem _ hseen)⟩
    obtain ⟨b, hb, heq⟩ := List.mem_map.mp hmem
    exact hl b hb (heq ▸ List.mem_cons_self)
  · rintro ⟨⟨hne, hnd⟩, ha, hl⟩
    refine ⟨ha, hnd, fun b hb hmem => ?_⟩
    rcases List.mem_cons.mp hmem with heq | hseen
    · exact hne (heq ▸ List.mem_map_of_mem hb)
    · exact hl b hb hseen

theorem identityLoop_ok : ∀ {l : List FileEntry} {ids : List EntryId},
    (identityLoop s ids l).hasErrors = false ↔
      (∀ e ∈ l, e.id ≠ 0 ∧ (e.id ≠ s.rootEntryId → e.parentId ≠ 0)) ∧
      (l.map FileEntry.id).Nodup ∧ ∀ e ∈ l, e.id ∉ ids := by
  intro l
  induction l with
  | nil => simp [identityLoop]
  | cons e l ih =>
      intro ids
      rw [identityLoop, hasErrors_append, Bool.or_eq_false_iff, identityIssues_ok, ih,
        ← fresh_cons, List.forall_mem_cons]
      tauto

theorem pathLoop_ok : ∀ {l : List FileEntry} {paths : List Str},
    (pathLoop s paths l).hasErrors = false ↔
      (∀ e ∈ l, EntryOk e) ∧
      (l.map FileEntry.normalizedPath).Nodup ∧ ∀ e ∈ l, e.normalizedPath ∉ paths := by
  intro l
  induction l with
  | nil => simp [pathLoop]
  | cons e l ih =>
      intro paths
      rw [pathLoop]
      split
      case isTrue hempty =>
        have hne : ¬ EntryOk e := fun h => h.nonempty (List.isEmpty_iff.mp hempty)
        simp [hasErrors, hne]
      case isFalse hempty =>
        rw [hasErrors_append, Bool.or_eq_false_iff, ih, ← fresh_cons, List.forall_mem_cons,
          pathIssues_ok (fun h => hempty (List.isEmpty_iff.mpr h))]
        tauto

/-- The parent the graph pass looks up. -/
def ParentOk (s : Snapshot) (e : FileEntry) : Prop :=
  e.parentId ≠ 0 ∧ ∃ p, buildEntryIndex s e.parentId = some p ∧ p.type = .directory

theorem parentIssues_ok {e : FileEntry} :
    (parentIssues s e).hasErrors = false ↔ e.id ≠ s.rootEntryId → ParentOk s e := by
  rw [parentIssues]
  split
  case isTrue hroot => simp [hroot]
  case isFalse hroot =>
    split
    case isTrue hzero => simp [ParentOk, entryIssue, hroot, hzero]
    case isFalse hzero =>
      cases hparent : buildEntryIndex s e.parentId with
      | none => simp [ParentOk, entryIssue, hroot, hparent]
      | some p => simp [ParentOk, entryIssue, hroot, hzero, hparent]

theorem hasErrors_flatMap {α : Type} {issues : α → ValidationReport} {l : List α} :
    hasErrors (l.flatMap issues) = false ↔ ∀ a ∈ l, (issues a).hasErrors = false := by
  rw [hasErrors, List.any_flatMap, List.any_eq_false]
  simp only [Bool.not_eq_true]
  rfl

theorem disconnectedIssues_ok : (disconnectedIssues s).hasErrors = false := by
  rw [disconnectedIssues]
  split
  · rfl
  · exact hasErrors_flatMap.mpr fun _ _ => by simp

theorem graphPass_ok (hne : s.entries ≠ []) :
    (graphPass s).hasErrors = false ↔
      (∀ e ∈ s.entries, e.id ≠ s.rootEntryId → ParentOk s e) ∧ Acyclic s := by
  rw [graphPass, if_neg (by rwa [List.isEmpty_iff]), hasErrors_append, hasErrors_append,
    disconnectedIssues_ok, Bool.or_false, Bool.or_eq_false_iff, hasErrors_flatMap, dfsIssues_ok]
  simp only [parentIssues_ok]

/-! ## The lookups, when ids are distinct -/

theorem find_id_iff (hids : (s.entries.map FileEntry.id).Nodup) {l : List FileEntry}
    (hl : l.Perm s.entries) {i : EntryId} {e : FileEntry} :
    l.find? (fun e => e.id = i) = some e ↔ e ∈ s.entries ∧ e.id = i := by
  have hfound : ∀ {x : FileEntry}, l.find? (fun e => e.id = i) = some x →
      x ∈ s.entries ∧ x.id = i := fun h =>
    ⟨hl.mem_iff.mp (List.mem_of_find?_eq_some h), by simpa using List.find?_some h⟩
  constructor
  · exact hfound
  · rintro ⟨he, rfl⟩
    cases hfind : l.find? fun x => x.id = e.id with
    | none => simpa using List.find?_eq_none.mp hfind e (hl.mem_iff.mpr he)
    | some x =>
        obtain ⟨hx, hid⟩ := hfound hfind
        rw [List.inj_on_of_nodup_map hids hx he hid]

theorem rootOk_iff (hids : (s.entries.map FileEntry.id).Nodup) :
    RootOk s ↔ ∃ r ∈ s.entries, r.id = s.rootEntryId ∧ r.type = .directory ∧ r.parentId = 0 := by
  simp only [RootOk, find_id_iff hids (.refl _), and_assoc]

theorem parentOk_iff (hids : (s.entries.map FileEntry.id).Nodup) {e : FileEntry} :
    ParentOk s e ↔ e.parentId ≠ 0 ∧
      ∃ p ∈ s.entries, p.id = e.parentId ∧ p.type = .directory := by
  simp only [ParentOk, buildEntryIndex, find_id_iff hids (List.reverse_perm _), and_assoc]

/-! ## The verdict -/

theorem snapshotErrors_iff : snapshotErrors s = false ↔ WellFormed s := by
  rw [snapshotErrors, hasErrors_append, hasErrors_append, hasErrors_append]
  simp only [Bool.or_eq_false_iff, headerPass_ok, identityPass, identityLoop_ok, pathPass,
    pathLoop_ok]
  constructor
  · rintro ⟨⟨⟨⟨hheader, -, hroot⟩, hidentity, hids, -⟩, hentry, hpaths, -⟩, hgraph⟩
    obtain ⟨hparent, hacyclic⟩ := (graphPass_ok hheader.entries).mp hgraph
    exact ⟨hheader, hentry, fun e he => (hidentity e he).1, hids, hpaths,
      (rootOk_iff hids).mp hroot, fun e he hne => (parentOk_iff hids).mp (hparent e he hne),
      hacyclic⟩
  · rintro ⟨hheader, hentry, hid, hids, hpaths, hroot, hparent, hacyclic⟩
    obtain ⟨r, hr, hrid, -⟩ := id hroot
    refine ⟨⟨⟨⟨hheader, hrid ▸ hid r hr, (rootOk_iff hids).mpr hroot⟩,
      fun e he => ⟨hid e he, fun hne => (hparent e he hne).1⟩, hids, ?_⟩,
      hentry, hpaths, ?_⟩, (graphPass_ok hheader.entries).mpr ⟨fun e he hne => ?_, hacyclic⟩⟩
    · exact fun _ _ => List.not_mem_nil
    · exact fun _ _ => List.not_mem_nil
    · exact (parentOk_iff hids).mpr (hparent e he hne)

/-- There is no way up that never ends: the ancestors of an entry are finitely many. -/
theorem WellFormed.ancestors_wellFounded (h : WellFormed s) :
    WellFounded fun a b : { v // v ∈ entryIds s } => TransGen (ParentStep s) b.1 a.1 := by
  have : IsTrans { v // v ∈ entryIds s } fun a b => TransGen (ParentStep s) b.1 a.1 :=
    ⟨fun _ _ _ hab hbc => hbc.trans hab⟩
  have : Std.Irrefl fun a b : { v // v ∈ entryIds s } => TransGen (ParentStep s) b.1 a.1 :=
    ⟨fun a => h.acyclic a.1⟩
  exact Finite.wellFounded_of_trans_of_irrefl _

/-- Every entry reaches the root. -/
theorem WellFormed.reaches_root (h : WellFormed s) :
    ∀ e ∈ s.entries, ReflTransGen (ParentStep s) e.id s.rootEntryId := by
  have hall : ∀ v : { v // v ∈ entryIds s }, ReflTransGen (ParentStep s) v.1 s.rootEntryId := by
    intro v
    induction v using h.ancestors_wellFounded.induction with
    | _ v ih =>
        obtain ⟨e, he, hev⟩ := List.mem_map.mp v.2
        by_cases hroot : e.id = s.rootEntryId
        · rw [← hev, hroot]
        · obtain ⟨hne, p, hp, hpid, -⟩ := h.parent e he hroot
          have hstep : ParentStep s v.1 p.id := ⟨e, he, hev, hpid.symm, hpid ▸ hne⟩
          exact .head hstep (ih ⟨p.id, List.mem_map_of_mem hp⟩ (.single hstep))
  exact fun e he => hall ⟨e.id, List.mem_map_of_mem he⟩

/-- **`validate_snapshot` decides well-formedness**, and in what it accepts every entry
reaches the root by its parents. -/
theorem validateSnapshot_decides (now : UnixTimestamp) (s : Snapshot) :
    ((validateSnapshotAt now s).hasErrors = false ↔ WellFormed s) ∧
      ((validateSnapshotAt now s).hasErrors = false →
        ∀ e ∈ s.entries, ReflTransGen (ParentStep s) e.id s.rootEntryId) := by
  rw [hasErrors_validateSnapshotAt, snapshotErrors_iff]
  exact ⟨.rfl, WellFormed.reaches_root⟩

example : (validateSnapshotAt 0
    { snapshotId := 1, hostIdentifier := str "h", rootEntryId := 7
      entries := [
        { id := 7, normalizedPath := str "/a", name := str "a", type := .directory },
        { id := 8, parentId := 7, normalizedPath := str "/a/b", name := str "b" }] }).hasErrors =
    false := by
  decide +kernel

end ServerStorage.Muninn
