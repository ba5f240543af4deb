/-
# `ServerStorage.Muninn.BuilderSpec` — what the snapshot builder returns

The first pass is a derivation: one raw entry after the other, a path once only, each under
an id that no entry before it has.  What is proved of a built snapshot is proved along it.
-/
import ServerStorage.Muninn.Builder

namespace ServerStorage.Muninn.SnapshotBuilder

open Lib

/-! ## Stable ids -/

theorem candidateId_ne (key : Str) : candidateId key ≠ 0 := by
  rw [candidateId]
  split
  · decide
  next h => exact h

theorem stableIdLoop_fresh {baseKey normalizedPath : Str} {usedIds : List EntryId} :
    ∀ {fuel : Nat} {salt : UInt32} {key : Str} {id : EntryId} {collisions : Nat},
      stableIdLoop baseKey normalizedPath usedIds fuel salt key = some (id, collisions) →
        id ≠ 0 ∧ id ∉ usedIds
  | 0, _, _, _, _, h => by cases h
  | fuel + 1, salt, key, id, collisions, h => by
      rw [stableIdLoop] at h
      split at h
      next hused =>
        obtain ⟨⟨id', collisions'⟩, hloop, heq⟩ := Option.map_eq_some_iff.mp h
        cases heq
        exact stableIdLoop_fresh hloop
      next hfree =>
        cases h
        exact ⟨candidateId_ne key, by simpa using hfree⟩

theorem generateStableId_fresh {entry : RawEntry} {normalizedPath : Str} {usedIds : List EntryId}
    {id : EntryId} {collisions : List BuildDiagnostic}
    (h : generateStableId entry normalizedPath usedIds = some (id, collisions)) :
    id ≠ 0 ∧ id ∉ usedIds := by
  obtain ⟨⟨id', n⟩, hloop, heq⟩ := Option.map_eq_some_iff.mp h
  cases heq
  exact stableIdLoop_fresh hloop

/-! ## The first pass -/

/-- The entry a raw entry becomes, before its parent is known. -/
def toEntry (raw : RawEntry) (id : EntryId) : FileEntry :=
  { id := id
    normalizedPath := normalizePathLexical raw.normalizedPath
    name := if raw.name.isEmpty then filenameFromPath (normalizePathLexical raw.normalizedPath)
      else raw.name
    type := raw.type
    metadata := raw.metadata }

/-- The entries that the rest of a scan adds to those done, the last of which comes first. -/
inductive Adds : List FileEntry → List RawEntry → List FileEntry → Prop
  | nil {done : List FileEntry} : Adds done [] []
  | duplicate {done : List FileEntry} {raw : RawEntry} {rest : List RawEntry}
      {added : List FileEntry} :
      normalizePathLexical raw.normalizedPath ∈ done.map FileEntry.normalizedPath →
      Adds done rest added → Adds done (raw :: rest) added
  | entry {done : List FileEntry} {raw : RawEntry} {rest : List RawEntry} {added : List FileEntry}
      {id : EntryId} {collisions : List BuildDiagnostic} :
      normalizePathLexical raw.normalizedPath ∉ done.map FileEntry.normalizedPath →
      generateStableId raw (normalizePathLexical raw.normalizedPath) (done.map FileEntry.id) =
        some (id, collisions) →
      Adds (toEntry raw id :: done) rest added → Adds done (raw :: rest) (toEntry raw id :: added)

theorem any_path_iff {done : List FileEntry} {path : Str} :
    (done.any fun e => e.normalizedPath = path) = true ↔ path ∈ done.map FileEntry.normalizedPath := by
  simp only [List.any_eq_true, decide_eq_true_eq, List.mem_map]

theorem entriesLoop_adds : ∀ {l : List RawEntry} {done entries : List FileEntry}
    {diagnostics : List BuildDiagnostic}, entriesLoop done l = some (entries, diagnostics) →
      ∃ added, entries = done.reverse ++ added ∧ Adds done l added
  | [], done, entries, diagnostics, h => by
      cases h
      exact ⟨[], (List.append_nil _).symm, .nil⟩
  | raw :: rest, done, entries, diagnostics, h => by
      rw [entriesLoop] at h
      split at h
      next hdone =>
        obtain ⟨⟨entries', diagnostics'⟩, hloop, heq⟩ := Option.map_eq_some_iff.mp h
        cases heq
        obtain ⟨added, hentries, hadds⟩ := entriesLoop_adds hloop
        exact ⟨added, hentries, .duplicate (any_path_iff.mp hdone) hadds⟩
      next hfresh =>
        obtain ⟨⟨id, collisions⟩, hid, h⟩ := Option.bind_eq_some_iff.mp h
        obtain ⟨⟨entries', diagnostics'⟩, hloop, heq⟩ := Option.bind_eq_some_iff.mp h
        cases heq
        obtain ⟨added, rfl, hadds⟩ := entriesLoop_adds hloop
        exact ⟨toEntry raw id :: added, by rw [List.reverse_cons, List.append_assoc]; rfl,
          .entry (mt any_path_iff.mpr hfresh) hid hadds⟩

/-- Ids and paths are each there once, and no id is zero. -/
structure Distinct (entries : List FileEntry) : Prop where
  id_ne : ∀ e ∈ entries, e.id ≠ 0
  ids : (entries.map FileEntry.id).Nodup
  paths : (entries.map FileEntry.normalizedPath).Nodup

theorem Distinct.perm {entries entries' : List FileEntry} (h : Distinct entries)
    (hperm : entries.Perm entries') : Distinct entries' where
  id_ne e he := h.id_ne e (hperm.mem_iff.mpr he)
  ids := (hperm.map _).nodup_iff.mp h.ids
  paths := (hperm.map _).nodup_iff.mp h.paths

theorem Adds.distinct {done added : List FileEntry} {l : List RawEntry} (h : Adds done l added)
    (hdone : Distinct done) : Distinct (done ++ added) := by
  induction h with
  | nil => rwa [List.append_nil]
  | duplicate _ _ ih => exact ih hdone
  | @entry done raw rest added id collisions hpath hid _ ih =>
      obtain ⟨hne, hfresh⟩ := generateStableId_fresh hid
      have hstep : Distinct (toEntry raw id :: done) :=
        { id_ne := by
            rintro e he
            rcases List.mem_cons.mp he with rfl | he
            · exact hne
            · exact hdone.id_ne e he
          ids := List.nodup_cons.mpr ⟨hfresh, hdone.ids⟩
          paths := List.nodup_cons.mpr ⟨hpath, hdone.paths⟩ }
      exact (ih hstep).perm List.perm_middle.symm

/-- The paths of the scan are the paths of the entries. -/
theorem Adds.paths {done added : List FileEntry} {l : List RawEntry} (h : Adds done l added)
    {path : Str} :
    path ∈ (done ++ added).map FileEntry.normalizedPath ↔
      path ∈ done.map FileEntry.normalizedPath ∨
        ∃ raw ∈ l, normalizePathLexical raw.normalizedPath = path := by
  induction h with
  | nil => simp
  | @duplicate done raw rest added hpath _ ih =>
      rw [ih]
      constructor
      · rintro (h | ⟨raw', hraw, h⟩)
        · exact Or.inl h
        · exact Or.inr ⟨raw', List.mem_cons_of_mem _ hraw, h⟩
      · rintro (h | ⟨raw', hraw, h⟩)
        · exact Or.inl h
        · rcases List.mem_cons.mp hraw with rfl | hraw
          · exact Or.inl (h ▸ hpath)
          · exact Or.inr ⟨raw', hraw, h⟩
  | @entry done raw rest added id collisions _ _ _ ih =>
      have hmiddle : path ∈ (done ++ toEntry raw id :: added).map FileEntry.normalizedPath ↔
          path ∈ (toEntry raw id :: done ++ added).map FileEntry.normalizedPath :=
        (List.perm_middle.map _).mem_iff
      rw [hmiddle, ih, List.map_cons, List.mem_cons]
      constructor
      · rintro ((rfl | h) | ⟨raw', hraw, h⟩)
        · exact Or.inr ⟨raw, List.mem_cons_self, rfl⟩
        · exact Or.inl h
        · exact Or.inr ⟨raw', List.mem_cons_of_mem _ hraw, h⟩
      · rintro (h | ⟨raw', hraw, h⟩)
        · exact Or.inl (Or.inr h)
        · rcases List.mem_cons.mp hraw with rfl | hraw
          · exact Or.inl (Or.inl h.symm)
          · exact Or.inr ⟨raw', hraw, h⟩

/-- Every entry comes from the scan. -/
theorem Adds.made {done added : List FileEntry} {l : List RawEntry} (h : Adds done l added) :
    ∀ e ∈ added, ∃ raw ∈ l, ∃ id, e = toEntry raw id := by
  induction h with
  | nil => exact nofun
  | duplicate _ _ ih =>
      intro e he
      obtain ⟨raw, hraw, id, heq⟩ := ih e he
      exact ⟨raw, List.mem_cons_of_mem _ hraw, id, heq⟩
  | entry _ _ _ ih =>
      intro e he
      rcases List.mem_cons.mp he with rfl | he
      · exact ⟨_, List.mem_cons_self, _, rfl⟩
      · obtain ⟨raw, hraw, id, heq⟩ := ih e he
        exact ⟨raw, List.mem_cons_of_mem _ hraw, id, heq⟩

/-! ## The second pass -/

def parentMissing (path : Str) : BuildDiagnostic :=
  { code := .parentPathMissing, severity := .error
    message := "Parent path not found while building snapshot entry graph.", path := path }

/-- The parent of an entry that is not the root. -/
def HasParent (entries : List FileEntry) (diagnostics : List BuildDiagnostic) (e : FileEntry) :
    Prop :=
  (∃ p ∈ entries, p.normalizedPath = parentFromPath e.normalizedPath ∧ e.parentId = p.id) ∨
    ((∀ p ∈ entries, p.normalizedPath ≠ parentFromPath e.normalizedPath) ∧ e.parentId = 0 ∧
      parentMissing e.normalizedPath ∈ diagnostics)

def link (normalizedRootPath : Str) (entries : List FileEntry) (e : FileEntry) : FileEntry :=
  { e with parentId := (parentOf normalizedRootPath entries e).1 }

theorem link_map {α : Type} {normalizedRootPath : Str} {entries l : List FileEntry}
    {f : FileEntry → α} (hf : ∀ (e : FileEntry) (id : EntryId), f { e with parentId := id } = f e) :
    (l.map (link normalizedRootPath entries)).map f = l.map f := by
  rw [List.map_map]
  exact List.map_congr_left fun e _ => hf e _

theorem parentOf_hasParent {normalizedRootPath : Str} {entries : List FileEntry} {e : FileEntry}
    (hroot : e.normalizedPath ≠ normalizedRootPath) :
    (∃ p ∈ entries, p.normalizedPath = parentFromPath e.normalizedPath ∧
        (parentOf normalizedRootPath entries e).1 = p.id) ∨
      ((∀ p ∈ entries, p.normalizedPath ≠ parentFromPath e.normalizedPath) ∧
        (parentOf normalizedRootPath entries e).1 = 0 ∧
        parentMissing e.normalizedPath ∈ (parentOf normalizedRootPath entries e).2) := by
  cases hfind : entries.find? fun p => p.normalizedPath = parentFromPath e.normalizedPath with
  | some p =>
      have hparent : parentOf normalizedRootPath entries e = (p.id, []) := by
        simp only [parentOf, if_neg hroot, hfind]
      rw [hparent]
      exact Or.inl ⟨p, List.mem_of_find?_eq_some hfind, by simpa using List.find?_some hfind, rfl⟩
  | none =>
      have hparent : parentOf normalizedRootPath entries e =
          (0, [parentMissing e.normalizedPath]) := by
        simp only [parentOf, if_neg hroot, hfind, parentMissing]
      rw [hparent]
      refine Or.inr ⟨fun p hp => ?_, rfl, List.mem_singleton_self _⟩
      simpa using List.find?_eq_none.mp hfind p hp

/-- An entry that has been linked has its parent among the linked entries. -/
theorem link_hasParent {normalizedRootPath : Str} {entries : List FileEntry} {e : FileEntry}
    (he : e ∈ entries) (hroot : e.normalizedPath ≠ normalizedRootPath)
    {diagnostics : List BuildDiagnostic}
    (hdiagnostics : ∀ d ∈ entries.flatMap fun e => (parentOf normalizedRootPath entries e).2,
      d ∈ diagnostics) :
    HasParent (entries.map (link normalizedRootPath entries)) diagnostics
      (link normalizedRootPath entries e) := by
  rcases @parentOf_hasParent _ entries _ hroot with ⟨p, hp, hpath, hid⟩ | ⟨hnone, hid, hmem⟩
  · exact Or.inl ⟨_, List.mem_map_of_mem hp, hpath, hid⟩
  · refine Or.inr ⟨fun p hp => ?_, hid, hdiagnostics _ (List.mem_flatMap.mpr ⟨e, he, hmem⟩)⟩
    obtain ⟨q, hq, rfl⟩ := List.mem_map.mp hp
    exact hnone q hq

/-- The entry at the root path is the root; without one the first entry is. -/
inductive IsRoot (normalizedRootPath : Str) :
    List FileEntry → EntryId → List FileEntry → Prop
  | found {entries : List FileEntry} {root : FileEntry} :
      root ∈ entries → root.normalizedPath = normalizedRootPath →
      IsRoot normalizedRootPath entries root.id entries
  | empty : IsRoot normalizedRootPath [] 0 []
  | fallback {first : FileEntry} {rest : List FileEntry} :
      (∀ e ∈ first :: rest, e.normalizedPath ≠ normalizedRootPath) →
      IsRoot normalizedRootPath (first :: rest) first.id ({ first with parentId := 0 } :: rest)

theorem rootOf_isRoot (normalizedRootPath : Str) (entries : List FileEntry) :
    IsRoot normalizedRootPath entries (rootOf normalizedRootPath entries).1
      (rootOf normalizedRootPath entries).2.1 := by
  cases hfind : entries.find? fun e => e.normalizedPath = normalizedRootPath with
  | some root =>
      simp only [rootOf, hfind]
      exact .found (List.mem_of_find?_eq_some hfind) (by simpa using List.find?_some hfind)
  | none =>
      cases entries with
      | nil => exact .empty
      | cons first rest =>
          simp only [rootOf, hfind]
          exact .fallback fun e he => by simpa using List.find?_eq_none.mp hfind e he

/-- What `build` returns, from the entries of its first pass. -/
theorem build_some {scan : RawScanResult} {options : BuildOptions} {result : BuildResult}
    (h : build scan options = some result) :
    ∃ entries, Adds [] (sortBy (fun lhs rhs : RawEntry =>
        decide (lhs.normalizedPath < rhs.normalizedPath)) scan.entries) entries ∧
      IsRoot (normalizePathLexical scan.rootPath)
        (entries.map (link (normalizePathLexical scan.rootPath) entries))
        result.snapshot.rootEntryId result.snapshot.entries ∧
      ∀ d ∈ entries.flatMap fun e => (parentOf (normalizePathLexical scan.rootPath) entries e).2,
        d ∈ result.diagnostics := by
  obtain ⟨⟨entries, diagnostics⟩, hloop, h⟩ := Option.bind_eq_some_iff.mp h
  obtain ⟨added, hentries, hadds⟩ := entriesLoop_adds hloop
  obtain rfl : entries = added := hentries
  have hroot := rootOf_isRoot (normalizePathLexical scan.rootPath)
    (entries.map (link (normalizePathLexical scan.rootPath) entries))
  cases h
  refine ⟨entries, hadds, ?_, fun d hd => ?_⟩
  · split <;> exact hroot
  · exact List.mem_append_left _ (List.mem_append_right _ hd)

/-! ## A built snapshot -/

structure Sound (scan : RawScanResult) (result : BuildResult) : Prop where
  distinct : Distinct result.snapshot.entries
  paths : ∀ path, path ∈ result.snapshot.entries.map FileEntry.normalizedPath ↔
    ∃ raw ∈ scan.entries, normalizePathLexical raw.normalizedPath = path
  parent : ∀ e ∈ result.snapshot.entries, e.id ≠ result.snapshot.rootEntryId →
    HasParent result.snapshot.entries result.diagnostics e
  root : result.snapshot.entries ≠ [] →
    ∃ r ∈ result.snapshot.entries, r.id = result.snapshot.rootEntryId

section
variable {normalizedRootPath : Str} {entries linked : List FileEntry} {rootEntryId : EntryId}

/-- Choosing the root changes no id and no path. -/
theorem IsRoot.map_eq {α : Type} {f : FileEntry → α}
    (hf : ∀ (e : FileEntry) (id : EntryId), f { e with parentId := id } = f e)
    (h : IsRoot normalizedRootPath entries rootEntryId linked) : linked.map f = entries.map f := by
  cases h with
  | found => rfl
  | empty => rfl
  | fallback => rw [List.map_cons, List.map_cons, hf]

theorem IsRoot.exists_root (h : IsRoot normalizedRootPath entries rootEntryId linked)
    (hne : linked ≠ []) : ∃ r ∈ linked, r.id = rootEntryId := by
  cases h with
  | found hroot _ => exact ⟨_, hroot, rfl⟩
  | empty => exact absurd rfl hne
  | fallback => exact ⟨_, List.mem_cons_self, rfl⟩

theorem Distinct.of_map_eq (h : Distinct entries)
    (hids : linked.map FileEntry.id = entries.map FileEntry.id)
    (hpaths : linked.map FileEntry.normalizedPath = entries.map FileEntry.normalizedPath) :
    Distinct linked where
  id_ne e he hzero := by
    have hmem : e.id ∈ entries.map FileEntry.id := hids ▸ List.mem_map_of_mem he
    obtain ⟨e', he', heq⟩ := List.mem_map.mp hmem
    exact h.id_ne e' he' (heq.trans hzero)
  ids := hids ▸ h.ids
  paths := hpaths ▸ h.paths

/-- Every entry but the root keeps the parent it was linked to. -/
theorem IsRoot.parent {diagnostics : List BuildDiagnostic}
    (h : IsRoot normalizedRootPath entries rootEntryId linked) (hdistinct : Distinct entries)
    (hparent : ∀ e ∈ entries, e.normalizedPath ≠ normalizedRootPath →
      HasParent entries diagnostics e) {e : FileEntry} (he : e ∈ linked)
    (hne : e.id ≠ rootEntryId) : HasParent linked diagnostics e := by
  cases h with
  | @found _ root hroot hpath =>
      refine hparent e he fun hpath' => hne ?_
      rw [List.inj_on_of_nodup_map hdistinct.paths he hroot (hpath'.trans hpath.symm)]
  | empty => cases he
  | @fallback first rest hnone =>
      rcases List.mem_cons.mp he with rfl | he
      · exact absurd rfl hne
      rcases hparent e (List.mem_cons_of_mem _ he) (hnone e (List.mem_cons_of_mem _ he)) with
        ⟨p, hp, hpath, hid⟩ | ⟨hmissing, hid, hmem⟩
      · rcases List.mem_cons.mp hp with rfl | hp
        · exact Or.inl ⟨_, List.mem_cons_self, hpath, hid⟩
        · exact Or.inl ⟨p, List.mem_cons_of_mem _ hp, hpath, hid⟩
      · refine Or.inr ⟨fun p hp => ?_, hid, hmem⟩
        rcases List.mem_cons.mp hp with rfl | hp
        · exact hmissing first List.mem_cons_self
        · exact hmissing p (List.mem_cons_of_mem _ hp)

end

theorem build_sound {scan : RawScanResult} {options : BuildOptions} {result : BuildResult}
    (h : build scan options = some result) : Sound scan result := by
  obtain ⟨entries, hadds, hroot, hdiagnostics⟩ := build_some h
  have hentries : Distinct entries :=
    hadds.distinct { id_ne := nofun, ids := List.nodup_nil, paths := List.nodup_nil }
  have hlinked : Distinct (entries.map (link (normalizePathLexical scan.rootPath) entries)) :=
    hentries.of_map_eq (link_map fun _ _ => rfl) (link_map fun _ _ => rfl)
  have hpaths := (hroot.map_eq (f := FileEntry.normalizedPath) fun _ _ => rfl).trans
    (link_map fun _ _ => rfl)
  refine
    { distinct := hlinked.of_map_eq (hroot.map_eq fun _ _ => rfl) (hroot.map_eq fun _ _ => rfl)
      paths := fun path => ?_
      parent := fun e he hne => hroot.parent hlinked (fun e' he' hpath => ?_) he hne
      root := hroot.exists_root }
  · rw [hpaths]
    refine (@Adds.paths _ _ _ hadds path).trans ?_
    simp only [List.map_nil, List.not_mem_nil, false_or, mem_sortBy]
  · obtain ⟨x, hx, rfl⟩ := List.mem_map.mp he'
    exact link_hasParent hx hpath hdiagnostics

/-- An entry of a built snapshot, its parent apart, is what a raw entry becomes. -/
theorem build_made {scan : RawScanResult} {options : BuildOptions} {result : BuildResult}
    (h : build scan options = some result) {e : FileEntry} (he : e ∈ result.snapshot.entries) :
    ∃ raw ∈ scan.entries, ∃ id, { e with parentId := 0 } = toEntry raw id := by
  obtain ⟨entries, hadds, hroot, -⟩ := build_some h
  have hsame := (hroot.map_eq (f := fun e => { e with parentId := 0 }) fun _ _ => rfl).trans
    (link_map fun _ _ => rfl)
  have hmem := hsame ▸ List.mem_map_of_mem (f := fun e : FileEntry => { e with parentId := 0 }) he
  obtain ⟨x, hx, heq⟩ := List.mem_map.mp hmem
  obtain ⟨raw, hraw, id, rfl⟩ := hadds.made x hx
  exact ⟨raw, mem_sortBy.mp hraw, id, heq.symm⟩

/-- The entry at the root path of the scan is the root. -/
theorem build_root {scan : RawScanResult} {options : BuildOptions} {result : BuildResult}
    (h : build scan options = some result) {raw : RawEntry} (hraw : raw ∈ scan.entries)
    (hpath : normalizePathLexical raw.normalizedPath = normalizePathLexical scan.rootPath) :
    ∃ r ∈ result.snapshot.entries, r.id = result.snapshot.rootEntryId ∧
      r.normalizedPath = normalizePathLexical scan.rootPath ∧ r.parentId = 0 := by
  have hmem := ((build_sound h).paths _).mpr ⟨raw, hraw, hpath⟩
  obtain ⟨entries, -, hroot, -⟩ := build_some h
  rw [hroot.map_eq (f := FileEntry.normalizedPath) fun _ _ => rfl] at hmem
  generalize hlinked : entries.map (link (normalizePathLexical scan.rootPath) entries) = linked
    at hroot hmem
  generalize result.snapshot.rootEntryId = rootEntryId, result.snapshot.entries = final at hroot ⊢
  cases hroot with
  | @found _ r hr hrpath =>
      refine ⟨r, hr, rfl, hrpath, ?_⟩
      rw [← hlinked] at hr
      obtain ⟨e, -, rfl⟩ := List.mem_map.mp hr
      have hrootPath : e.normalizedPath = normalizePathLexical scan.rootPath := hrpath
      show (parentOf _ entries e).1 = 0
      rw [parentOf, if_pos hrootPath]
  | empty => cases hmem
  | fallback hnone =>
      obtain ⟨e, he, heq⟩ := List.mem_map.mp hmem
      exact absurd heq (hnone e he)

theorem computeSnapshotId_ne (snapshot : Snapshot) : computeSnapshotId snapshot ≠ 0 := by
  simp only [computeSnapshotId]
  split
  · decide
  next h => exact h

/-- The fields of the snapshot itself. -/
theorem build_header {scan : RawScanResult} {options : BuildOptions} {result : BuildResult}
    (h : build scan options = some result) :
    result.snapshot.snapshotId ≠ 0 ∧ result.snapshot.schema = kCurrentSchemaHeader ∧
      result.snapshot.hostIdentifier = scan.hostIdentifier := by
  obtain ⟨⟨entries, diagnostics⟩, -, h⟩ := Option.bind_eq_some_iff.mp h
  simp only [Option.pure_def, Option.some.injEq] at h
  rw [← h]
  by_cases hid : options.snapshotId = 0
  · simp only [if_pos hid]
    exact ⟨computeSnapshotId_ne _, trivial, trivial⟩
  · simp only [if_neg hid]
    exact ⟨hid, trivial, trivial⟩

/-- The order of the scan does not matter where its paths differ. -/
theorem build_perm {scan : RawScanResult} {options : BuildOptions} {entries : List RawEntry}
    (hperm : entries.Perm scan.entries) (hnodup : (scan.entries.map RawEntry.normalizedPath).Nodup) :
    build { scan with entries := entries } options = build scan options := by
  have hsorted : sortBy (fun lhs rhs : RawEntry =>
      decide (lhs.normalizedPath < rhs.normalizedPath)) entries =
      sortBy (fun lhs rhs : RawEntry =>
        decide (lhs.normalizedPath < rhs.normalizedPath)) scan.entries :=
    sortBy_ext RawEntry.normalizedPath (fun _ _ h => le_of_lt (of_decide_eq_true h))
      (fun _ _ h => not_lt.mp (of_decide_eq_false h))
      ((hperm.map _).nodup_iff.mpr hnodup) hnodup fun _ => hperm.mem_iff
  rw [build, build, hsorted]

/-- What `build` promises of every scan on which it returns. -/
theorem build_structure :
    (∀ scan options result, build scan options = some result → Sound scan result) ∧
    ∀ (scan : RawScanResult) (options : BuildOptions) (entries : List RawEntry),
      entries.Perm scan.entries → (scan.entries.map RawEntry.normalizedPath).Nodup →
      build { scan with entries := entries } options = build scan options :=
  ⟨fun _ _ _ h => build_sound h, fun _ _ _ hperm hnodup => build_perm hperm hnodup⟩

/-- A root with a file in it, the file first. -/
def fileFirst : RawScanResult :=
  { rootPath := str "/r"
    entries :=
      [{ normalizedPath := str "/r/f", parentPath := str "/r", name := str "f" },
        { normalizedPath := str "/r", parentPath := str "/", name := str "r"
          type := .directory }] }

theorem build_structure_fileFirst : ∃ result, build fileFirst = some result ∧
    Sound fileFirst result ∧
    result.snapshot.entries.map FileEntry.normalizedPath = [str "/r", str "/r/f"] ∧
    build { fileFirst with entries := fileFirst.entries.reverse } = some result := by
  have hbuild : ((build fileFirst).map fun result =>
      result.snapshot.entries.map FileEntry.normalizedPath) = some [str "/r", str "/r/f"] := by
    decide +kernel
  obtain ⟨result, h, hpaths⟩ := Option.map_eq_some_iff.mp hbuild
  exact ⟨result, h, build_structure.1 _ _ _ h, hpaths,
    (build_structure.2 _ _ _ (List.reverse_perm _) (by decide +kernel)).trans h⟩

end ServerStorage.Muninn.SnapshotBuilder
