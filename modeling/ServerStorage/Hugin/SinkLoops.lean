/-
# `ServerStorage.Hugin.SinkLoops` — what each loop of the sink does to the indexes

The edits of `applyDelta` are described by their effect on two functions, the
entry stored under an id and the id stored under a path.  One-step equations
come first (`entry_*`, `idAt_*`), then one statement for each loop.  The rename
loop is where the order matters: on the path index it is exactly a sequence of
moves (`Index.applyAll`), one for each rename, in the order of the list.
-/
import ServerStorage.Hugin.Materializer
import ServerStorage.Lib.Index

namespace ServerStorage.Hugin

open Lib ServerStorage.Muninn

namespace HostMaterializedState

/-- The entry under an id. -/
def entry (st : HostMaterializedState) (i : EntryId) : Option FileEntry :=
  st.entriesById.lookup i

/-- The id under a path. -/
def idAt (st : HostMaterializedState) (p : Str) : Option EntryId := st.idByPath.lookup p

end HostMaterializedState

open HostMaterializedState

/-! ## Single edits -/

section
variable {st : HostMaterializedState} {e : FileEntry} {i : EntryId} {p : Str}

theorem lookup_insert_ite {α β : Type} [DecidableEq α] (m : Finmap fun _ : α => β) (a k : α)
    (b : β) : (m.insert a b).lookup k = if k = a then some b else m.lookup k := by
  by_cases h : k = a
  · subst h; simp
  · simp [h, Finmap.lookup_insert_of_ne m h]

theorem lookup_erase_ite {α β : Type} [DecidableEq α] (m : Finmap fun _ : α => β) (a k : α) :
    (m.erase a).lookup k = if k = a then none else m.lookup k := by
  by_cases h : k = a
  · subst h; simp
  · simp [h, Finmap.lookup_erase_ne h]

@[simp] theorem entry_indexEntry :
    (st.indexEntry e).entry i = if i = e.id then some e else st.entry i :=
  lookup_insert_ite _ _ _ _

@[simp] theorem idAt_indexEntry :
    (st.indexEntry e).idAt p = if p = e.normalizedPath then some e.id else st.idAt p :=
  lookup_insert_ite _ _ _ _

@[simp] theorem entry_removeEntry :
    (st.removeEntry e).entry i = if i = e.id then none else st.entry i :=
  lookup_erase_ite _ _ _

@[simp] theorem idAt_removeEntry :
    (st.removeEntry e).idAt p = if p = e.normalizedPath then none else st.idAt p :=
  lookup_erase_ite _ _ _

/-- The entry a rename stores: `e` under its new id and path. -/
def movedEntry (r : RenamedEntry) (e : FileEntry) : FileEntry :=
  { e with id := r.afterEntryId, normalizedPath := Path.lexicallyNormal r.newPath }

@[simp] theorem entry_renameEntry {r : RenamedEntry} :
    (renameEntry st r e).entry i =
      if i = r.afterEntryId then some (movedEntry r e)
      else if i = r.beforeEntryId then none else st.entry i := by
  simp only [renameEntry, entry]
  by_cases hne : r.afterEntryId = r.beforeEntryId
  · simp only [hne, ne_eq, not_true_eq_false, if_false, lookup_insert_ite]
    by_cases hi : i = r.beforeEntryId <;> simp [hi, movedEntry, hne]
  · simp only [ne_eq, hne, not_false_eq_true, if_true, lookup_erase_ite, lookup_insert_ite]
    by_cases hi : i = r.beforeEntryId
    · simp [hi, Ne.symm hne]
    · simp [hi, movedEntry]

@[simp] theorem idAt_renameEntry {r : RenamedEntry} :
    (renameEntry st r e).idAt p =
      if p = Path.lexicallyNormal r.newPath then some r.afterEntryId
      else if p = e.normalizedPath then none else st.idAt p := by
  simp only [renameEntry, idAt, lookup_insert_ite, lookup_erase_ite]

end

/-! ## The loops over added and removed entries -/

theorem entry_foldl_removeEntry {i : EntryId} :
    ∀ (l : List FileEntry) (st : HostMaterializedState),
      (l.foldl removeEntry st).entry i = if ∃ e ∈ l, e.id = i then none else st.entry i
  | [], st => by simp
  | e :: l, st => by
      rw [List.foldl_cons, entry_foldl_removeEntry l, entry_removeEntry]
      by_cases h : i = e.id <;> simp [h, eq_comm]

theorem idAt_foldl_removeEntry {p : Str} :
    ∀ (l : List FileEntry) (st : HostMaterializedState),
      (l.foldl removeEntry st).idAt p =
        if ∃ e ∈ l, e.normalizedPath = p then none else st.idAt p
  | [], st => by simp
  | e :: l, st => by
      rw [List.foldl_cons, idAt_foldl_removeEntry l, idAt_removeEntry]
      by_cases h : p = e.normalizedPath <;> simp [h, eq_comm]

/-- The entry of a list with the given id. -/
def entryWith (l : List FileEntry) (i : EntryId) : Option FileEntry :=
  l.find? fun e => e.id = i

/-- The entry of a list at the given path. -/
def entryAt (l : List FileEntry) (p : Str) : Option FileEntry :=
  l.find? fun e => e.normalizedPath = p

theorem mem_of_entryWith {l : List FileEntry} {i : EntryId} {e : FileEntry}
    (h : entryWith l i = some e) : e ∈ l ∧ e.id = i :=
  ⟨List.mem_of_find?_eq_some h, by simpa using List.find?_some h⟩

theorem mem_of_entryAt {l : List FileEntry} {p : Str} {e : FileEntry}
    (h : entryAt l p = some e) : e ∈ l ∧ e.normalizedPath = p :=
  ⟨List.mem_of_find?_eq_some h, by simpa using List.find?_some h⟩

theorem entryWith_eq_none {l : List FileEntry} {i : EntryId} :
    entryWith l i = none ↔ ∀ e ∈ l, e.id ≠ i := by
  simp [entryWith, List.find?_eq_none]

theorem entryAt_eq_none {l : List FileEntry} {p : Str} :
    entryAt l p = none ↔ ∀ e ∈ l, e.normalizedPath ≠ p := by
  simp [entryAt, List.find?_eq_none]

/-- Where a key repeats nowhere, looking up an element's key finds the element. -/
theorem find?_of_nodup {α κ : Type} [DecidableEq κ] (key : α → κ) :
    ∀ {l : List α} {a : α}, (l.map key).Nodup → a ∈ l → l.find? (fun x => key x = key a) = some a
  | [], _, _, ha => nomatch ha
  | x :: l, a, hnd, ha => by
      simp only [List.map_cons, List.nodup_cons, List.mem_map, not_exists, not_and] at hnd
      rcases List.mem_cons.mp ha with rfl | ha
      · simp
      · have hne : key x ≠ key a := fun h => hnd.1 a ha h.symm
        simp [hne, find?_of_nodup key hnd.2 ha]

theorem entryWith_of_mem {l : List FileEntry} {e : FileEntry} (h : (l.map FileEntry.id).Nodup)
    (he : e ∈ l) : entryWith l e.id = some e :=
  find?_of_nodup FileEntry.id h he

theorem entryAt_of_mem {l : List FileEntry} {e : FileEntry}
    (h : (l.map FileEntry.normalizedPath).Nodup) (he : e ∈ l) :
    entryAt l e.normalizedPath = some e :=
  find?_of_nodup FileEntry.normalizedPath h he

theorem entry_foldl_indexEntry {i : EntryId} :
    ∀ {l : List FileEntry} {st : HostMaterializedState}, (l.map FileEntry.id).Nodup →
      (l.foldl indexEntry st).entry i = (entryWith l i).or (st.entry i)
  | [], st, _ => by simp [entryWith]
  | e :: l, st, h => by
      obtain ⟨he, hl⟩ := List.nodup_cons.mp h
      rw [List.foldl_cons, entry_foldl_indexEntry hl, entry_indexEntry]
      by_cases hi : i = e.id
      · have hnone : entryWith l i = none :=
          entryWith_eq_none.mpr fun x hx hxi => he (List.mem_map.mpr ⟨x, hx, hxi.trans hi⟩)
        rw [hnone, entryWith, List.find?_cons_of_pos (by simp [hi])]
        simp [hi]
      · have hskip : entryWith (e :: l) i = entryWith l i := by simp [entryWith, Ne.symm hi]
        rw [if_neg hi, hskip]

theorem idAt_foldl_indexEntry {p : Str} :
    ∀ {l : List FileEntry} {st : HostMaterializedState},
      (l.map FileEntry.normalizedPath).Nodup →
        (l.foldl indexEntry st).idAt p = ((entryAt l p).map FileEntry.id).or (st.idAt p)
  | [], st, _ => by simp [entryAt]
  | e :: l, st, h => by
      obtain ⟨he, hl⟩ := List.nodup_cons.mp h
      rw [List.foldl_cons, idAt_foldl_indexEntry hl, idAt_indexEntry]
      by_cases hp : p = e.normalizedPath
      · have hnone : entryAt l p = none :=
          entryAt_eq_none.mpr fun x hx hxp => he (List.mem_map.mpr ⟨x, hx, hxp.trans hp⟩)
        rw [hnone, entryAt, List.find?_cons_of_pos (by simp [hp])]
        simp [hp]
      · have hskip : entryAt (e :: l) p = entryAt l p := by simp [entryAt, Ne.symm hp]
        rw [if_neg hp, hskip]

/-- `build_from_snapshot` on distinct ids and paths. -/
theorem entry_buildFromSnapshot {s : Snapshot} {n : UInt64} (i : EntryId)
    (h : (s.entries.map FileEntry.id).Nodup) :
    (buildFromSnapshot s n).entry i = entryWith s.entries i := by
  rw [buildFromSnapshot, entry_foldl_indexEntry h]
  simp [HostMaterializedState.entry]

theorem idAt_buildFromSnapshot {s : Snapshot} {n : UInt64} (p : Str)
    (h : (s.entries.map FileEntry.normalizedPath).Nodup) :
    (buildFromSnapshot s n).idAt p = (entryAt s.entries p).map FileEntry.id := by
  rw [buildFromSnapshot, idAt_foldl_indexEntry h]
  simp [HostMaterializedState.idAt]

/-! ## The loop over modified entries -/

/-- The metadata a list of modifications leaves an entry with. -/
def withModified (l : List ModifiedEntry) (i : EntryId) (e : FileEntry) : FileEntry :=
  match l.find? fun m => m.entryId = i with
  | some m => { e with metadata := m.after }
  | none => e

theorem modifiedLoop_spec : ∀ {l : List ModifiedEntry} {st : HostMaterializedState},
    (l.map ModifiedEntry.entryId).Nodup → (∀ m ∈ l, (st.entry m.entryId).isSome) →
      (modifiedLoop st l).2 = true ∧
      (∀ i, (modifiedLoop st l).1.entry i = (st.entry i).map (withModified l i)) ∧
      (∀ p, (modifiedLoop st l).1.idAt p = st.idAt p)
  | [], st, _, _ => by
      refine ⟨rfl, fun i => ?_, fun _ => rfl⟩
      cases h : st.entry i <;> simp [modifiedLoop, withModified, h]
  | m :: l, st, hnd, hsome => by
      obtain ⟨hm, hnd⟩ := List.nodup_cons.mp hnd
      obtain ⟨e, he⟩ := Option.isSome_iff_exists.mp (hsome m List.mem_cons_self)
      have hlookup : st.entriesById.lookup m.entryId = some e := he
      simp only [modifiedLoop, hlookup]
      set st' : HostMaterializedState :=
        { st with
          entriesById := st.entriesById.insert m.entryId { e with metadata := m.after } } with hst'
      have hentry : ∀ i, st'.entry i =
          if i = m.entryId then some { e with metadata := m.after } else st.entry i :=
        fun i => lookup_insert_ite _ _ _ _
      have hsome' : ∀ m' ∈ l, (st'.entry m'.entryId).isSome := by
        intro m' hm'
        rw [hentry]
        split
        · rfl
        · exact hsome m' (List.mem_cons_of_mem _ hm')
      obtain ⟨hok, hent, hidx⟩ := modifiedLoop_spec hnd hsome'
      refine ⟨hok, fun i => ?_, fun p => (hidx p).trans rfl⟩
      rw [hent, hentry]
      by_cases hi : i = m.entryId
      · subst hi
        have hnone : l.find? (fun x => decide (x.entryId = m.entryId)) = none := by
          rw [List.find?_eq_none]
          intro x hx hxe
          exact hm (List.mem_map.mpr ⟨x, hx, by simpa using hxe⟩)
        simp [he, withModified, hnone]
      · have hskip : withModified (m :: l) i = withModified l i := by
          funext x
          simp [withModified, Ne.symm hi]
        rw [if_neg hi, hskip]

/-! ## The rename loop -/

/-- The move a rename makes on the path index. -/
def renameMove (r : RenamedEntry) : Index.Move Str EntryId :=
  { old := r.oldPath, new := Path.lexicallyNormal r.newPath, id := r.afterEntryId }

/-- What the renames need to find: distinct sources, distinct targets, no target
that is the source of another rename, and every source at its recorded path. -/
structure RenamesReady (l : List RenamedEntry) (st : HostMaterializedState) : Prop where
  before : (l.map RenamedEntry.beforeEntryId).Nodup
  after : (l.map RenamedEntry.afterEntryId).Nodup
  apart : ∀ r ∈ l, ∀ r' ∈ l, r.afterEntryId = r'.beforeEntryId → r = r'
  source : ∀ r ∈ l, ∃ e, st.entry r.beforeEntryId = some e ∧ e.normalizedPath = r.oldPath

theorem RenamesReady.tail {r : RenamedEntry} {l : List RenamedEntry} {st : HostMaterializedState}
    {e : FileEntry} (h : RenamesReady (r :: l) st) : RenamesReady l (renameEntry st r e) := by
  obtain ⟨hb, hbl⟩ := List.nodup_cons.mp h.before
  obtain ⟨ha, hal⟩ := List.nodup_cons.mp h.after
  refine ⟨hbl, hal, fun x hx y hy => h.apart x (List.mem_cons_of_mem _ hx) y
    (List.mem_cons_of_mem _ hy), fun x hx => ?_⟩
  obtain ⟨ex, hex, hpath⟩ := h.source x (List.mem_cons_of_mem _ hx)
  have hxb : x.beforeEntryId ≠ r.beforeEntryId := fun he =>
    hb (List.mem_map.mpr ⟨x, hx, he⟩)
  have hxa : x.beforeEntryId ≠ r.afterEntryId := fun he => by
    have := h.apart r List.mem_cons_self x (List.mem_cons_of_mem _ hx) he.symm
    exact hxb (this ▸ rfl)
  exact ⟨ex, by rw [entry_renameEntry, if_neg hxa, if_neg hxb, hex], hpath⟩

/-- The rename loop succeeds; every source reappears under its target id and
path, and the path index undergoes the moves one after the other. -/
theorem renamedLoop_spec : ∀ {l : List RenamedEntry} {st : HostMaterializedState},
    RenamesReady l st →
      (renamedLoop st l).2 = true ∧
      (∀ r ∈ l, (renamedLoop st l).1.entry r.afterEntryId =
        (st.entry r.beforeEntryId).map (movedEntry r)) ∧
      (∀ i, (∀ r ∈ l, r.afterEntryId ≠ i) → (renamedLoop st l).1.entry i =
        if ∃ r ∈ l, r.beforeEntryId = i then none else st.entry i) ∧
      (∀ p, (renamedLoop st l).1.idAt p = Index.applyAll st.idAt (l.map renameMove) p)
  | [], st, _ => 
      ⟨rfl, fun _ hr => absurd hr List.not_mem_nil, fun i _ => by simp [renamedLoop], fun _ => rfl⟩
  | r :: l, st, h => by
      obtain ⟨e, he, hpath⟩ := h.source r List.mem_cons_self
      have hsource : renameSource st r = some e := by
        have : st.entriesById.lookup r.beforeEntryId = some e := he
        simp [renameSource, this]
      obtain ⟨hok, hmoved, hrest, hidx⟩ := renamedLoop_spec (h.tail (e := e))
      obtain ⟨ha, -⟩ := List.nodup_cons.mp h.after
      obtain ⟨hb, -⟩ := List.nodup_cons.mp h.before
      simp only [renamedLoop, hsource]
      refine ⟨hok, ?_, ?_, ?_⟩
      · intro x hx
        rcases List.mem_cons.mp hx with rfl | hxl
        · -- no later rename starts from the id just stored
          have hnone : ¬ ∃ y ∈ l, y.beforeEntryId = x.afterEntryId := by
            rintro ⟨y, hy, hyb⟩
            have := h.apart x List.mem_cons_self y (List.mem_cons_of_mem _ hy) hyb.symm
            exact hb (List.mem_map.mpr ⟨y, hy, this ▸ rfl⟩)
          rw [hrest _ fun y hy hya => ha (List.mem_map.mpr ⟨y, hy, hya⟩), if_neg hnone]
          simp [he]
        · rw [hmoved x hxl, entry_renameEntry]
          have hxb : x.beforeEntryId ≠ r.beforeEntryId := fun hxr =>
            hb (List.mem_map.mpr ⟨x, hxl, hxr⟩)
          have hxa : x.beforeEntryId ≠ r.afterEntryId := fun hxr =>
            hxb (h.apart r List.mem_cons_self x (List.mem_cons_of_mem _ hxl) hxr.symm ▸ rfl)
          rw [if_neg hxa, if_neg hxb]
      · intro i hi
        have hri : i ≠ r.afterEntryId := fun hir => hi r List.mem_cons_self hir.symm
        rw [hrest i fun y hy => hi y (List.mem_cons_of_mem _ hy), entry_renameEntry, if_neg hri]
        by_cases hrb : i = r.beforeEntryId
        · simp [hrb]
        · have hrb' : r.beforeEntryId ≠ i := fun h' => hrb h'.symm
          simp only [List.mem_cons, exists_eq_or_imp, hrb', false_or, if_neg hrb]
      · intro p
        rw [hidx]
        have hfirst : (renameEntry st r e).idAt = (renameMove r).apply st.idAt := by
          funext q
          rw [idAt_renameEntry, hpath]
          rfl
        rw [hfirst]
        rfl

/-! ## The loop that renames and reparents -/

/-- The entry the second rename loop stores. -/
def reparented (st : HostMaterializedState) (e : FileEntry) : FileEntry :=
  { e with name := Path.filename e.normalizedPath, parentId := parentIdOf st e.normalizedPath }

theorem parentIdOf_congr {st st' : HostMaterializedState} (h : ∀ p, st.idAt p = st'.idAt p)
    (p : Str) : parentIdOf st p = parentIdOf st' p := by
  have hp : st.idByPath.lookup (Path.parentPath p) = st'.idByPath.lookup (Path.parentPath p) :=
    h _
  simp only [parentIdOf, hp]

theorem reparentLoop_spec : ∀ {l : List RenamedEntry} {st : HostMaterializedState},
    (∀ r ∈ l, (st.entry r.afterEntryId).isSome) →
      (reparentLoop st l).2 = true ∧
      (∀ i, (reparentLoop st l).1.entry i =
        (st.entry i).map fun e =>
          if ∃ r ∈ l, r.afterEntryId = i then reparented st e else e) ∧
      (∀ p, (reparentLoop st l).1.idAt p = st.idAt p)
  | [], st, _ => ⟨rfl, fun i => by simp [reparentLoop], fun _ => rfl⟩
  | r :: l, st, h => by
      obtain ⟨e, he⟩ := Option.isSome_iff_exists.mp (h r List.mem_cons_self)
      have hlookup : st.entriesById.lookup r.afterEntryId = some e := he
      simp only [reparentLoop, hlookup]
      set st' : HostMaterializedState :=
        { st with
          entriesById := st.entriesById.insert r.afterEntryId
            { e with
              name := Path.filename e.normalizedPath
              parentId := parentIdOf st e.normalizedPath } } with hst'
      have hentry : ∀ i, st'.entry i =
          if i = r.afterEntryId then some (reparented st e) else st.entry i :=
        fun i => lookup_insert_ite _ _ _ _
      have hidx' : ∀ p, st'.idAt p = st.idAt p := fun _ => rfl
      have hsome' : ∀ x ∈ l, (st'.entry x.afterEntryId).isSome := by
        intro x hx
        rw [hentry]
        split
        · rfl
        · exact h x (List.mem_cons_of_mem _ hx)
      obtain ⟨hok, hent, hidx⟩ := reparentLoop_spec hsome'
      refine ⟨hok, fun i => ?_, fun p => (hidx p).trans (hidx' p)⟩
      have hsame : ∀ x, reparented st' x = reparented st x := fun x => by
        simp only [reparented, parentIdOf_congr hidx']
      rw [hent, hentry]
      by_cases hi : i = r.afterEntryId
      · subst hi
        simp only [if_true, Option.map_some, he, hsame, List.mem_cons, exists_eq_or_imp, true_or]
        split <;> rfl
      · have hi' : r.afterEntryId ≠ i := fun h' => hi h'.symm
        simp only [if_neg hi, List.mem_cons, exists_eq_or_imp, hi', false_or, hsame]

end ServerStorage.Hugin
