/-
# `ServerStorage.Hugin.DeltaEdits` — a delta as one list of edits

The five loops of `apply_delta` are one run over one list: removals, additions,
modifications, renames, and the renamed entries once more for their parents.  An edit that
does not find its id ends the run, and what the edits before it did stays done.  So a
delta that fails leaves its host as it was exactly when those edits come to nothing, as they
do where each of them changes nothing; and the host is the one the delta is for exactly when
no fallback is needed.
-/
import ServerStorage.Hugin.SinkLoops

namespace ServerStorage.Hugin

open Lib ServerStorage.Muninn HostMaterializedState MaterializerSink

/-! ## Edits -/

inductive Edit where
  | remove (entry : FileEntry)
  | add (entry : FileEntry)
  | modify (modified : ModifiedEntry)
  | rename (renamed : RenamedEntry)
  | reparent (renamed : RenamedEntry)

/-- What an edit makes of a state: nothing where its id is missing. -/
def Edit.apply (state : HostMaterializedState) : Edit → Option HostMaterializedState
  | remove entry => some (state.removeEntry entry)
  | add entry => some (state.indexEntry entry)
  | modify modified =>
      (state.entriesById.lookup modified.entryId).map fun entry =>
        { state with
          entriesById := state.entriesById.insert modified.entryId
            { entry with metadata := modified.after } }
  | rename renamed => (renameSource state renamed).map (renameEntry state renamed)
  | reparent renamed =>
      (state.entriesById.lookup renamed.afterEntryId).map fun entry =>
        { state with
          entriesById := state.entriesById.insert renamed.afterEntryId (reparented state entry) }

/-- The edits of a delta, in the order in which they are made. -/
def edits (delta : DeltaSnapshot) : List Edit :=
  delta.removedEntries.map .remove ++ delta.addedEntries.map .add ++
    delta.modifiedEntries.map .modify ++ delta.renamedEntries.map .rename ++
    delta.renamedEntries.map .reparent

/-- The state a run of edits comes to, and whether it comes to its end. -/
def applyEdits : HostMaterializedState → List Edit → HostMaterializedState × Bool
  | state, [] => (state, true)
  | state, edit :: rest =>
      match edit.apply state with
      | none => (state, false)
      | some next => applyEdits next rest

/-- The delta comes to an edit whose id is missing, with the state at `reached`. -/
def StopsAt (state : HostMaterializedState) (delta : DeltaSnapshot)
    (reached : HostMaterializedState) : Prop :=
  ∃ pre edit post, edits delta = pre ++ edit :: post ∧ applyEdits state pre = (reached, true) ∧
    edit.apply reached = none

section
variable {state reached : HostMaterializedState}

theorem applyEdits_append : ∀ {l l' : List Edit} {state : HostMaterializedState},
    applyEdits state (l ++ l') =
      if (applyEdits state l).2 then applyEdits (applyEdits state l).1 l' else applyEdits state l
  | [], _, _ => rfl
  | edit :: l, l', state => by
      rw [List.cons_append, applyEdits, applyEdits]
      cases edit.apply state with
      | none => rfl
      | some next => exact applyEdits_append

/-- A run that does not come to its end has come to a missing id. -/
theorem applyEdits_stops : ∀ {l : List Edit} {state : HostMaterializedState},
    applyEdits state l = (reached, false) ↔
      ∃ pre edit post, l = pre ++ edit :: post ∧ applyEdits state pre = (reached, true) ∧
        edit.apply reached = none
  | [], state => by
      constructor
      · intro h
        cases h
      · rintro ⟨pre, edit, post, h, -⟩
        cases pre <;> cases h
  | first :: l, state => by
      rw [applyEdits]
      cases hfirst : first.apply state with
      | none =>
          constructor
          · intro h
            obtain ⟨rfl, -⟩ := Prod.mk.inj h
            exact ⟨[], first, l, rfl, rfl, hfirst⟩
          · rintro ⟨pre, edit, post, hsplit, hpre, hnone⟩
            cases pre with
            | nil =>
                obtain ⟨rfl, -⟩ := Prod.mk.inj hpre
                rfl
            | cons first' pre =>
                obtain ⟨rfl, -⟩ := List.cons.inj hsplit
                rw [applyEdits, hfirst] at hpre
                cases hpre
      | some next =>
          refine (applyEdits_stops (l := l)).trans ?_
          constructor
          · rintro ⟨pre, edit, post, rfl, hpre, hnone⟩
            refine ⟨first :: pre, edit, post, rfl, ?_, hnone⟩
            rw [applyEdits, hfirst]
            exact hpre
          · rintro ⟨pre, edit, post, hsplit, hpre, hnone⟩
            cases pre with
            | nil =>
                obtain ⟨rfl, -⟩ := List.cons.inj hsplit
                obtain ⟨rfl, -⟩ := Prod.mk.inj hpre
                rw [hfirst] at hnone
                cases hnone
            | cons first' pre =>
                obtain ⟨rfl, rfl⟩ := List.cons.inj hsplit
                rw [applyEdits, hfirst] at hpre
                exact ⟨pre, edit, post, rfl, hpre, hnone⟩

/-! ## The loops as runs of edits -/

theorem applyEdits_remove : ∀ {l : List FileEntry} {state : HostMaterializedState},
    applyEdits state (l.map .remove) = (l.foldl removeEntry state, true)
  | [], _ => rfl
  | e :: l, state => by
      rw [List.map_cons, List.foldl_cons, applyEdits, Edit.apply]
      exact applyEdits_remove

theorem applyEdits_add : ∀ {l : List FileEntry} {state : HostMaterializedState},
    applyEdits state (l.map .add) = (l.foldl indexEntry state, true)
  | [], _ => rfl
  | e :: l, state => by
      rw [List.map_cons, List.foldl_cons, applyEdits, Edit.apply]
      exact applyEdits_add

theorem applyEdits_modify : ∀ {l : List ModifiedEntry} {state : HostMaterializedState},
    applyEdits state (l.map .modify) = modifiedLoop state l
  | [], _ => rfl
  | modified :: l, state => by
      rw [List.map_cons, applyEdits, modifiedLoop, Edit.apply]
      cases state.entriesById.lookup modified.entryId with
      | none => rfl
      | some entry => exact applyEdits_modify

theorem applyEdits_rename : ∀ {l : List RenamedEntry} {state : HostMaterializedState},
    applyEdits state (l.map .rename) = renamedLoop state l
  | [], _ => rfl
  | renamed :: l, state => by
      rw [List.map_cons, applyEdits, renamedLoop, Edit.apply]
      cases renameSource state renamed with
      | none => rfl
      | some entry => exact applyEdits_rename

theorem applyEdits_reparent : ∀ {l : List RenamedEntry} {state : HostMaterializedState},
    applyEdits state (l.map .reparent) = reparentLoop state l
  | [], _ => rfl
  | renamed :: l, state => by
      rw [List.map_cons, applyEdits, reparentLoop, Edit.apply]
      cases state.entriesById.lookup renamed.afterEntryId with
      | none => rfl
      | some entry => exact applyEdits_reparent

/-- The edits of `apply_delta` are this run, its verdict whether the run comes to its end. -/
theorem editState_eq (state : HostMaterializedState) (delta : DeltaSnapshot) :
    ((editState state delta).2, (editState state delta).1.ok) = applyEdits state (edits delta) := by
  rw [editState, edits]
  simp only [List.append_assoc]
  rw [applyEdits_append, applyEdits_remove, if_pos rfl, applyEdits_append, applyEdits_add,
    if_pos rfl, applyEdits_append, applyEdits_modify]
  cases modifiedLoop _ delta.modifiedEntries with
  | mk modified verdict =>
  cases verdict with
  | false => rfl
  | true =>
  rw [if_pos rfl, applyEdits_append, applyEdits_rename]
  dsimp only
  cases renamedLoop modified delta.renamedEntries with
  | mk renamed verdict =>
  cases verdict with
  | false => rfl
  | true =>
  rw [if_pos rfl, applyEdits_reparent]
  dsimp only
  cases reparentLoop renamed delta.renamedEntries with
  | mk reparented verdict =>
  cases verdict <;> rfl

theorem editState_stops {state reached : HostMaterializedState} {delta : DeltaSnapshot} :
    (editState state delta).1.ok = false ∧ (editState state delta).2 = reached ↔
      StopsAt state delta reached := by
  refine Iff.trans ?_ applyEdits_stops
  rw [← editState_eq]
  constructor
  · rintro ⟨hok, rfl⟩
    rw [hok]
  · intro h
    obtain ⟨hstate, hok⟩ := Prod.mk.inj h
    exact ⟨hok, hstate⟩

end

/-! ## Edits by their ids -/

/-- The ids that are present. -/
def idsOf (state : HostMaterializedState) : Finset EntryId := state.entriesById.keys

/-- What an edit makes of the ids that are present: nothing where its own is missing. -/
def Edit.ids (present : Finset EntryId) : Edit → Option (Finset EntryId)
  | remove entry => some (present.erase entry.id)
  | add entry => some (insert entry.id present)
  | modify modified => if modified.entryId ∈ present then some present else none
  | rename renamed =>
      if renamed.beforeEntryId ∈ present ∨ renamed.afterEntryId ∈ present then
        some (insert renamed.afterEntryId (present.erase renamed.beforeEntryId))
      else none
  | reparent renamed => if renamed.afterEntryId ∈ present then some present else none

/-- No edit misses its id. -/
def AllFound : Finset EntryId → List Edit → Prop
  | _, [] => True
  | present, edit :: rest => ∃ next, edit.ids present = some next ∧ AllFound next rest

/-- The edit finds its id and changes nothing. -/
def Edit.Idle (state : HostMaterializedState) : Edit → Prop
  | remove entry => state.entry entry.id = none ∧ state.idAt entry.normalizedPath = none
  | add entry =>
      state.entry entry.id = some entry ∧ state.idAt entry.normalizedPath = some entry.id
  | modify modified =>
      ∃ entry, state.entry modified.entryId = some entry ∧ entry.metadata = modified.after
  | rename renamed =>
      (renamed.afterEntryId = renamed.beforeEntryId ∨ state.entry renamed.beforeEntryId = none) ∧
        ∃ entry, state.entry renamed.afterEntryId = some entry ∧
          entry.id = renamed.afterEntryId ∧
          entry.normalizedPath = Path.lexicallyNormal renamed.newPath ∧
          state.idAt entry.normalizedPath = some renamed.afterEntryId
  | reparent renamed =>
      ∃ entry, state.entry renamed.afterEntryId = some entry ∧
        entry.name = Path.filename entry.normalizedPath ∧
        entry.parentId = parentIdOf state entry.normalizedPath

/-- The edits before the first one whose id is missing change nothing. -/
def StopsIdle (state : HostMaterializedState) (l : List Edit) : Prop :=
  ∃ pre edit post, l = pre ++ edit :: post ∧ (∀ earlier ∈ pre, earlier.Idle state) ∧
    edit.ids (idsOf state) = none

section
variable {state next reached : HostMaterializedState} {edit : Edit}

theorem mem_idsOf {i : EntryId} : i ∈ idsOf state ↔ (state.entry i).isSome = true := by
  rw [idsOf, Finmap.mem_keys, entry, Finmap.lookup_isSome]

theorem mem_idsOf_of {i : EntryId} {found : FileEntry} (h : state.entry i = some found) :
    i ∈ idsOf state := by
  rw [mem_idsOf, h]
  rfl

theorem not_mem_idsOf {i : EntryId} : i ∉ idsOf state ↔ state.entry i = none := by
  rw [mem_idsOf, Bool.not_eq_true, Option.isSome_eq_false_iff, Option.isNone_iff_eq_none]

theorem renameSource_isSome {renamed : RenamedEntry} :
    (renameSource state renamed).isSome = true ↔
      renamed.beforeEntryId ∈ idsOf state ∨ renamed.afterEntryId ∈ idsOf state := by
  rw [mem_idsOf, mem_idsOf, renameSource, entry, entry]
  cases state.entriesById.lookup renamed.beforeEntryId with
  | none => simp
  | some found => simp

theorem idsOf_insert {i : EntryId} {found : FileEntry} (h : state.entry i = some found)
    (changed : FileEntry) :
    idsOf { state with entriesById := state.entriesById.insert i changed } = idsOf state := by
  ext j
  rw [mem_idsOf, mem_idsOf, entry, lookup_insert_ite]
  by_cases hj : j = i
  · rw [if_pos hj, hj, h]
    exact iff_of_true rfl rfl
  · rw [if_neg hj]
    exact Iff.rfl

/-- The ids present change as the edit says, and the edit fails as they say. -/
theorem Edit.apply_ids : (edit.apply state).map idsOf = edit.ids (idsOf state) := by
  cases edit with
  | remove e =>
      refine congrArg some (Finset.ext fun i => ?_)
      rw [mem_idsOf, entry_removeEntry, Finset.mem_erase, mem_idsOf]
      by_cases hi : i = e.id <;> simp [hi]
  | add e =>
      refine congrArg some (Finset.ext fun i => ?_)
      rw [mem_idsOf, entry_indexEntry, Finset.mem_insert, mem_idsOf]
      by_cases hi : i = e.id <;> simp [hi]
  | modify modified =>
      rw [Edit.apply, Edit.ids]
      cases h : state.entriesById.lookup modified.entryId with
      | none => rw [if_neg (not_mem_idsOf.mpr h), Option.map_none, Option.map_none]
      | some found =>
          rw [if_pos (mem_idsOf_of h)]
          exact congrArg some (idsOf_insert h _)
  | rename renamed =>
      rw [Edit.apply, Edit.ids]
      cases h : renameSource state renamed with
      | none =>
          rw [if_neg (mt renameSource_isSome.mpr (by rw [h]; exact Bool.false_ne_true)),
            Option.map_none, Option.map_none]
      | some found =>
          rw [if_pos (renameSource_isSome.mp (by rw [h]; rfl))]
          refine congrArg some (Finset.ext fun i => ?_)
          rw [mem_idsOf, entry_renameEntry, Finset.mem_insert, Finset.mem_erase, mem_idsOf]
          by_cases hafter : i = renamed.afterEntryId
          · simp [hafter]
          · by_cases hbefore : i = renamed.beforeEntryId <;> simp [hafter, hbefore]
  | reparent renamed =>
      rw [Edit.apply, Edit.ids]
      cases h : state.entriesById.lookup renamed.afterEntryId with
      | none => rw [if_neg (not_mem_idsOf.mpr h), Option.map_none, Option.map_none]
      | some found =>
          rw [if_pos (mem_idsOf_of h)]
          exact congrArg some (idsOf_insert h _)

/-- The run comes to its end exactly where no id is missing. -/
theorem allFound_iff : ∀ {l : List Edit} {state : HostMaterializedState},
    AllFound (idsOf state) l ↔ (applyEdits state l).2 = true := by
  intro l
  induction l with
  | nil => exact fun {state} => iff_of_true trivial rfl
  | cons edit l ih =>
      intro state
      rw [AllFound, applyEdits, ← Edit.apply_ids]
      cases edit.apply state with
      | none =>
          refine iff_of_false ?_ Bool.false_ne_true
          rintro ⟨next, h, -⟩
          cases h
      | some next =>
          rw [← ih]
          constructor
          · rintro ⟨present, h, hrest⟩
            rw [Option.some.inj h]
            exact hrest
          · exact fun hrest => ⟨idsOf next, rfl, hrest⟩

theorem insert_same {α β : Type} [DecidableEq α] {m : Finmap fun _ : α => β} {a : α} {b : β}
    (h : m.lookup a = some b) : m.insert a b = m := by
  refine Finmap.ext_lookup fun k => ?_
  rw [lookup_insert_ite]
  split
  next hk => rw [hk, h]
  next => rfl

theorem erase_absent {α β : Type} [DecidableEq α] {m : Finmap fun _ : α => β} {a : α}
    (h : m.lookup a = none) : m.erase a = m := by
  refine Finmap.ext_lookup fun k => ?_
  rw [lookup_erase_ite]
  split
  next hk => rw [hk, h]
  next => rfl

/-- An idle edit is made, and leaves the state. -/
theorem Edit.Idle.apply (h : edit.Idle state) : edit.apply state = some state := by
  cases edit with
  | remove e =>
      obtain ⟨hentry, hpath⟩ := h
      rw [Edit.apply, removeEntry, erase_absent hentry, erase_absent hpath]
  | add e =>
      obtain ⟨hentry, hpath⟩ := h
      rw [Edit.apply, indexEntry, insert_same hentry, insert_same hpath]
  | modify modified =>
      obtain ⟨found, hfound, hsame⟩ := h
      rw [Edit.apply, show state.entriesById.lookup modified.entryId = some found from hfound,
        Option.map_some, ← hsame, insert_same hfound]
  | rename renamed =>
      obtain ⟨hids, found, hfound, hid, hpath, hat⟩ := h
      have hsource : renameSource state renamed = some found := by
        rw [renameSource]
        rcases hids with heq | hnone
        · rw [← heq, show state.entriesById.lookup renamed.afterEntryId = some found from hfound]
        · rw [show state.entriesById.lookup renamed.beforeEntryId = none from hnone]
          exact hfound
      have hmoved : ({ found with
          id := renamed.afterEntryId
          normalizedPath := Path.lexicallyNormal renamed.newPath } : FileEntry) = found := by
        rw [← hid, ← hpath]
      rw [Edit.apply, hsource, Option.map_some, renameEntry, hmoved, insert_same hfound, ← hpath]
      have hindex : (state.idByPath.erase found.normalizedPath).insert found.normalizedPath
          renamed.afterEntryId = state.idByPath := by
        refine Finmap.ext_lookup fun p => ?_
        rw [lookup_insert_ite, lookup_erase_ite]
        split
        next hp => rw [hp]; exact hat.symm
        next hp => rfl
      rw [hindex]
      rcases hids with heq | hnone
      · rw [if_neg (not_not_intro heq)]
      · rw [erase_absent hnone, ite_self]
  | reparent renamed =>
      obtain ⟨found, hfound, hname, hparent⟩ := h
      have hsame : reparented state found = found := by
        rw [reparented, ← hname, ← hparent]
      rw [Edit.apply, show state.entriesById.lookup renamed.afterEntryId = some found from hfound,
        Option.map_some, hsame, insert_same hfound]

theorem applyEdits_idle : ∀ {l : List Edit}, (∀ edit ∈ l, edit.Idle state) →
    applyEdits state l = (state, true) := by
  intro l
  induction l with
  | nil => exact fun _ => rfl
  | cons edit l ih =>
      intro h
      obtain ⟨hedit, hrest⟩ := List.forall_mem_cons.mp h
      rw [applyEdits, hedit.apply]
      exact ih hrest

end

/-! ## The host a delta is for -/

/-- The first host on the delta's base, in the order of the table. -/
def Fallback (sink : MaterializerSink) (delta : DeltaSnapshot) (host : Str)
    (state : HostMaterializedState) : Prop :=
  (∃ pre post, sink.states.entries = pre ++ ⟨host, state⟩ :: post ∧
    ∀ e ∈ pre, e.2.lastSnapshotId ≠ delta.baseSnapshotId) ∧
  state.lastSnapshotId = delta.baseSnapshotId

/-- The delta is taken to `host`, by its name or by its base. -/
def Resolves (sink : MaterializerSink) (hostId : Str) (delta : DeltaSnapshot) (host : Str)
    (state : HostMaterializedState) : Prop :=
  (hostId ≠ [] ∧ host = hostId ∧ sink.states.lookup hostId = some state) ∨
    ((hostId = [] ∨ hostId ∉ sink.states) ∧ Fallback sink delta host state)

section
variable {sink : MaterializerSink} {hostId host : Str} {delta : DeltaSnapshot}
  {state : HostMaterializedState} {sequence : UInt64}

theorem Fallback.lookup (h : Fallback sink delta host state) :
    sink.states.lookup host = some state := by
  obtain ⟨⟨pre, post, hsplit, -⟩, -⟩ := h
  refine AList.mem_lookup_iff.mpr ?_
  rw [hsplit]
  exact List.mem_append_right _ List.mem_cons_self

theorem Resolves.lookup (h : Resolves sink hostId delta host state) :
    sink.states.lookup host = some state := by
  obtain ⟨-, rfl, h⟩ | ⟨-, h⟩ := h
  · exact h
  · exact h.lookup

theorem find?_eq_some_fallback :
    ((sink.states.entries.find? fun h => h.2.lastSnapshotId = delta.baseSnapshotId).map
        fun h => (h.1, h.2)) = some (host, state) ↔ Fallback sink delta host state := by
  rw [Option.map_eq_some_iff]
  constructor
  · rintro ⟨⟨host', state'⟩, hfind, hpair⟩
    obtain ⟨rfl, rfl⟩ := Prod.mk.inj hpair
    obtain ⟨hbase, pre, post, hsplit, hpre⟩ := List.find?_eq_some_iff_append.mp hfind
    exact ⟨⟨pre, post, hsplit, fun e he => by simpa using hpre e he⟩, of_decide_eq_true hbase⟩
  · rintro ⟨⟨pre, post, hsplit, hpre⟩, hbase⟩
    refine ⟨⟨host, state⟩, ?_, rfl⟩
    exact List.find?_eq_some_iff_append.mpr
      ⟨decide_eq_true hbase, pre, post, hsplit, fun e he => by simpa using hpre e he⟩

theorem resolveHost_eq_some :
    resolveHost sink hostId delta = some (host, state) ↔
      Resolves sink hostId delta host state := by
  rw [resolveHost]
  cases hempty : hostId.isEmpty with
  | true =>
      have hnil : hostId = [] := List.isEmpty_iff.mp hempty
      refine find?_eq_some_fallback.trans ⟨fun h => .inr ⟨.inl hnil, h⟩, ?_⟩
      rintro (⟨hne, -⟩ | ⟨-, h⟩)
      · exact absurd hnil hne
      · exact h
  | false =>
      have hne : hostId ≠ [] := fun h => by rw [h] at hempty; cases hempty
      rw [if_neg Bool.false_ne_true]
      cases hlookup : sink.states.lookup hostId with
      | none =>
          have habsent : hostId ∉ sink.states := AList.lookup_eq_none.mp hlookup
          refine find?_eq_some_fallback.trans ⟨fun h => .inr ⟨.inr habsent, h⟩, ?_⟩
          rintro (⟨-, -, h⟩ | ⟨-, h⟩)
          · rw [hlookup] at h
            cases h
          · exact h
      | some found =>
          have hmem : hostId ∈ sink.states := AList.lookup_isSome.mp (by rw [hlookup]; rfl)
          constructor
          · intro h
            obtain ⟨rfl, rfl⟩ := Prod.mk.inj (Option.some.inj h)
            exact .inl ⟨hne, rfl, hlookup⟩
          · rintro (⟨-, rfl, h⟩ | ⟨hnil | habsent, -⟩)
            · rw [hlookup] at h
              obtain rfl := Option.some.inj h
              rfl
            · exact absurd hnil hne
            · exact absurd hmem habsent

theorem Resolves.unique {host' : Str} {state' : HostMaterializedState}
    (h : Resolves sink hostId delta host state) (h' : Resolves sink hostId delta host' state') :
    host = host' ∧ state = state' := by
  have hsame := resolveHost_eq_some.mpr h
  rw [resolveHost_eq_some.mpr h'] at hsame
  obtain ⟨rfl, rfl⟩ := Prod.mk.inj (Option.some.inj hsame)
  exact ⟨rfl, rfl⟩

theorem StopsAt.unique {reached reached' : HostMaterializedState}
    (h : StopsAt state delta reached) (h' : StopsAt state delta reached') : reached = reached' :=
  (editState_stops.mpr h).2.symm.trans (editState_stops.mpr h').2

/-! ## What `apply_delta` does -/

/-- What a call of `apply_delta` comes to. -/
inductive Applied (sink : MaterializerSink) (hostId : Str) (sequence : UInt64)
    (delta : DeltaSnapshot) : Status × MaterializerSink → Prop
  /-- No host, or a host that is not on the delta's base. -/
  | refused (status : Status) (hno : ∀ host state, Resolves sink hostId delta host state →
      state.lastSnapshotId ≠ delta.baseSnapshotId) (hfails : status.ok = false) :
      Applied sink hostId sequence delta (status, sink)
  | stopped (status : Status) (host : Str) (state reached : HostMaterializedState)
      (hhost : Resolves sink hostId delta host state)
      (hbase : state.lastSnapshotId = delta.baseSnapshotId)
      (hstops : StopsAt state delta reached) (hfails : status.ok = false) :
      Applied sink hostId sequence delta
        (status, { sink with states := sink.states.insert host reached })
  | applied (host : Str) (state : HostMaterializedState)
      (hhost : Resolves sink hostId delta host state)
      (hbase : state.lastSnapshotId = delta.baseSnapshotId)
      (hruns : ∀ reached, ¬ StopsAt state delta reached) (edited : HostMaterializedState)
      (hedited : edited.lastSnapshotId = delta.targetSnapshotId) :
      Applied sink hostId sequence delta
        (.success, { states := sink.states.insert host edited, lastUpdatedHostId := host })

theorem applyDelta_applied (sink : MaterializerSink) (hostId : Str) (sequence : UInt64)
    (delta : DeltaSnapshot) :
    Applied sink hostId sequence delta (sink.applyDelta hostId sequence delta) := by
  rw [applyDelta]
  cases hres : resolveHost sink hostId delta with
  | none =>
      refine .refused _ (fun host state h => ?_) rfl
      rw [resolveHost_eq_some.mpr h] at hres
      cases hres
  | some found =>
  obtain ⟨host, state⟩ := found
  have hhost := resolveHost_eq_some.mp hres
  by_cases hbase : state.lastSnapshotId = delta.baseSnapshotId
  · dsimp only
    rw [if_neg (not_not_intro hbase)]
    cases hok : (editState state delta).1.ok with
    | true =>
        rw [if_pos rfl]
        refine .applied host state hhost hbase (fun reached h => ?_) _ rfl
        rw [(editState_stops.mpr h).1] at hok
        cases hok
    | false =>
        rw [if_neg Bool.false_ne_true]
        exact .stopped _ host state _ hhost hbase (editState_stops.mp ⟨hok, rfl⟩) hok
  · dsimp only
    rw [if_pos hbase]
    refine .refused _ (fun host' state' h => ?_) rfl
    rw [resolveHost_eq_some.mpr h] at hres
    obtain ⟨rfl, rfl⟩ := Prod.mk.inj (Option.some.inj hres)
    exact hbase

theorem lookup_insert_host {reached : HostMaterializedState} (h : Str) :
    (sink.states.insert host reached).lookup h =
      if h = host then some reached else sink.states.lookup h := by
  by_cases heq : h = host
  · rw [if_pos heq, heq, AList.lookup_insert]
  · rw [if_neg heq, AList.lookup_insert_ne heq]

/-- The hosts' states in `after` are those in `before`. -/
def SameStates (before after : MaterializerSink) : Prop :=
  ∀ h, after.states.lookup h = before.states.lookup h

theorem sameStates_insert {reached : HostMaterializedState}
    (h : sink.states.lookup host = some state) :
    SameStates sink { sink with states := sink.states.insert host reached } ↔ reached = state := by
  constructor
  · intro hsame
    have hhost := hsame host
    rw [AList.lookup_insert, h] at hhost
    exact Option.some.inj hhost
  · rintro rfl h'
    rw [lookup_insert_host]
    by_cases heq : h' = host
    · rw [if_pos heq, heq, h]
    · rw [if_neg heq]

/-! ## Failure -/

/-- A failed call leaves every host's state. -/
def AtomicOnFailure (before : MaterializerSink) (outcome : Status × MaterializerSink) : Prop :=
  outcome.1.ok = false → SameStates before outcome.2

/-- A failed delta leaves its host as it was exactly when the edits before the first missing
id come to nothing: one edit that tells is enough for a half-applied delta. -/
theorem applyDelta_atomic_iff (sink : MaterializerSink) (hostId : Str) (sequence : UInt64)
    (delta : DeltaSnapshot) :
    AtomicOnFailure sink (sink.applyDelta hostId sequence delta) ↔
      ∀ host state reached, Resolves sink hostId delta host state →
        state.lastSnapshotId = delta.baseSnapshotId → StopsAt state delta reached →
        reached = state := by
  have hcase := applyDelta_applied sink hostId sequence delta
  generalize sink.applyDelta hostId sequence delta = outcome at hcase
  cases hcase with
  | refused status hno hfails =>
      constructor
      · intro _ host state reached hhost hbase _
        exact absurd hbase (hno host state hhost)
      · intro _ _ h
        rfl
  | stopped status host state reached hhost hbase hstops hfails =>
      constructor
      · intro hatomic host' state' reached' hhost' _ hstops'
        obtain ⟨rfl, rfl⟩ := hhost.unique hhost'
        obtain rfl := hstops.unique hstops'
        exact (sameStates_insert hhost.lookup).mp (hatomic hfails)
      · intro hnothing _
        exact (sameStates_insert hhost.lookup).mpr
          (hnothing host state reached hhost hbase hstops)
  | applied host state hhost hbase hruns edited hedited =>
      constructor
      · intro _ host' state' reached' hhost' _ hstops'
        obtain ⟨rfl, rfl⟩ := hhost.unique hhost'
        exact absurd hstops' (hruns reached')
      · intro _ hok
        cases hok

/-- A failed delta leaves every host's state where no id is missing, and where the edits before
the first one whose id is missing change nothing. -/
theorem applyDelta_atomic_of_idle (sink : MaterializerSink) (hostId : Str) (sequence : UInt64)
    (delta : DeltaSnapshot)
    (h : ∀ host state, Resolves sink hostId delta host state →
      state.lastSnapshotId = delta.baseSnapshotId →
      AllFound (idsOf state) (edits delta) ∨ StopsIdle state (edits delta)) :
    AtomicOnFailure sink (sink.applyDelta hostId sequence delta) := by
  refine (applyDelta_atomic_iff sink hostId sequence delta).mpr
    fun host state reached hhost hbase hstops => ?_
  have hends := applyEdits_stops.mpr hstops
  rcases h host state hhost hbase with hall | ⟨pre, edit, post, hsplit, hidle, hmissing⟩
  · rw [allFound_iff, hends] at hall
    cases hall
  · rw [← Edit.apply_ids, Option.map_eq_none_iff] at hmissing
    exact hstops.unique ⟨pre, edit, post, hsplit, applyEdits_idle hidle, hmissing⟩

/-- One host with one entry. -/
def singleSink : MaterializerSink where
  states := (∅ : AList fun _ : Str => HostMaterializedState).insert (str "host")
    (buildFromSnapshot
      { snapshotId := 1, hostIdentifier := str "host",
        entries := [{ id := 7, normalizedPath := str "/data" }] } 1)
  lastUpdatedHostId := str "host"

/-- The entry is removed before the modification of an unknown id is refused. -/
def halfDelta : DeltaSnapshot where
  baseSnapshotId := 1
  targetSnapshotId := 2
  removedEntries := [{ id := 7, normalizedPath := str "/data" }]
  modifiedEntries := [{ entryId := 9 }]

theorem not_applyDelta_atomic :
    ¬ ∀ (sink : MaterializerSink) (hostId : Str) (sequence : UInt64) (delta : DeltaSnapshot),
      AtomicOnFailure sink (sink.applyDelta hostId sequence delta) := by
  intro h
  have hsame := h singleSink (str "host") 2 halfDelta (by decide +kernel) (str "host")
  have hentry := congrArg (Option.bind · fun state => state.entry 7) hsame
  exact absurd hentry (by decide +kernel)

/-- The removal of an entry that is not there, and the modification of another. -/
def idleDelta : DeltaSnapshot where
  baseSnapshotId := 1
  targetSnapshotId := 2
  removedEntries := [{ id := 8, normalizedPath := str "/none" }]
  modifiedEntries := [{ entryId := 9 }]

theorem applyDelta_atomic_of_idle_removal :
    (singleSink.applyDelta (str "host") 2 idleDelta).1.ok = false ∧
      SameStates singleSink (singleSink.applyDelta (str "host") 2 idleDelta).2 := by
  have hfails : (singleSink.applyDelta (str "host") 2 idleDelta).1.ok = false := by decide +kernel
  refine ⟨hfails, applyDelta_atomic_of_idle singleSink (str "host") 2 idleDelta ?_ hfails⟩
  intro host state hhost _
  have hstate : singleSink.states.lookup (str "host") = some (buildFromSnapshot
      { snapshotId := 1, hostIdentifier := str "host",
        entries := [{ id := 7, normalizedPath := str "/data" }] } 1) := AList.lookup_insert _
  have hnamed : Resolves singleSink (str "host") idleDelta (str "host") _ :=
    .inl ⟨by decide, rfl, hstate⟩
  obtain ⟨-, rfl⟩ := hhost.unique hnamed
  refine .inr ⟨[.remove { id := 8, normalizedPath := str "/none" }], .modify { entryId := 9 }, [],
    rfl, List.forall_mem_singleton.mpr ⟨?_, ?_⟩, ?_⟩
  · decide +kernel
  · decide +kernel
  · decide +kernel

/-! ## Other hosts -/

theorem exists_fallback (h : sink.states.lookup host = some state)
    (hbase : state.lastSnapshotId = delta.baseSnapshotId) :
    ∃ host' state', Fallback sink delta host' state' := by
  have hmem : Sigma.mk host state ∈ sink.states.entries := AList.mem_lookup_iff.mp h
  have hfound := List.find?_isSome
    (p := fun e : Sigma fun _ : Str => HostMaterializedState =>
      decide (e.2.lastSnapshotId = delta.baseSnapshotId)) |>.mpr
    ⟨⟨host, state⟩, hmem, decide_eq_true hbase⟩
  obtain ⟨⟨host', state'⟩, hfind⟩ := Option.isSome_iff_exists.mp hfound
  exact ⟨host', state', find?_eq_some_fallback.mp (by rw [hfind]; rfl)⟩

end

/-- A call for `hostId` leaves the other hosts, and fails without effect where `hostId` has
no state. -/
def TouchesOnly (hostId : Str) (before : MaterializerSink) (outcome : Status × MaterializerSink) :
    Prop :=
  (∀ h, h ≠ hostId → outcome.2.states.lookup h = before.states.lookup h) ∧
    (hostId ∉ before.states → outcome.1.ok = false ∧ SameStates before outcome.2 ∧
      outcome.2.lastUpdatedHostId = before.lastUpdatedHostId)

/-- A delta named for a host stays with that host as long as the host has a state: where it
has none, the search by base must find nothing, or a host on which the delta stops before
its first edit that tells. -/
theorem applyDelta_touchesOnly_iff (sink : MaterializerSink) (hostId : Str) (sequence : UInt64)
    (delta : DeltaSnapshot) (hne : hostId ≠ []) :
    TouchesOnly hostId sink (sink.applyDelta hostId sequence delta) ↔
      hostId ∈ sink.states ∨
      (∀ host state, sink.states.lookup host = some state →
        state.lastSnapshotId ≠ delta.baseSnapshotId) ∨
      ∃ host state, Fallback sink delta host state ∧ StopsAt state delta state := by
  have hcase := applyDelta_applied sink hostId sequence delta
  generalize sink.applyDelta hostId sequence delta = outcome at hcase
  by_cases hmem : hostId ∈ sink.states
  · -- the host is found by its name, and only its state is written
    refine ⟨fun _ => .inl hmem, fun _ => ⟨fun h hother => ?_, fun habsent => absurd hmem habsent⟩⟩
    have hname : ∀ {host state}, Resolves sink hostId delta host state → h ≠ host := by
      rintro host state (⟨-, rfl, -⟩ | ⟨hnil | habsent, -⟩)
      · exact hother
      · exact absurd hnil hne
      · exact absurd hmem habsent
    cases hcase with
    | refused => rfl
    | stopped _ host state reached hhost =>
        exact (lookup_insert_host h).trans (if_neg (hname hhost))
    | applied host state hhost =>
        exact (lookup_insert_host h).trans (if_neg (hname hhost))
  · have hfall : ∀ {host state}, Fallback sink delta host state →
        Resolves sink hostId delta host state := fun h => .inr ⟨.inr hmem, h⟩
    cases hcase with
    | refused status hno hfails =>
        refine ⟨fun _ => .inr (.inl fun host state hlookup hbase => ?_),
          fun _ => ⟨fun h _ => rfl, fun _ => ⟨hfails, fun h => rfl, rfl⟩⟩⟩
        obtain ⟨host', state', hfirst⟩ := exists_fallback hlookup hbase
        exact hno host' state' (hfall hfirst) hfirst.2
    | stopped status host state reached hhost hbase hstops hfails =>
        have hfirst : Fallback sink delta host state := by
          obtain ⟨-, rfl, hlookup⟩ | ⟨-, hfirst⟩ := hhost
          · exact absurd (AList.lookup_isSome.mp (by rw [hlookup]; rfl)) hmem
          · exact hfirst
        constructor
        · rintro ⟨-, hsilent⟩
          obtain rfl := (sameStates_insert hfirst.lookup).mp (hsilent hmem).2.1
          exact .inr (.inr ⟨host, reached, hfirst, hstops⟩)
        · rintro (habs | hno | ⟨host', state', hfirst', hstops'⟩)
          · exact absurd habs hmem
          · exact absurd hbase (hno host state hfirst.lookup)
          · obtain ⟨rfl, rfl⟩ := hhost.unique (hfall hfirst')
            obtain rfl := hstops.unique hstops'
            have hsame := (sameStates_insert hfirst.lookup).mpr rfl
            exact ⟨fun h _ => hsame h, fun _ => ⟨hfails, hsame, rfl⟩⟩
    | applied host state hhost hbase hruns edited hedited =>
        constructor
        · rintro ⟨-, hsilent⟩
          cases (hsilent hmem).1
        · rintro (habs | hno | ⟨host', state', hfirst', hstops'⟩)
          · exact absurd habs hmem
          · exact absurd hbase (hno host state hhost.lookup)
          · obtain ⟨rfl, rfl⟩ := hhost.unique (hfall hfirst')
            exact absurd hstops' (hruns state)

/-- Another host on base 1, and a delta that stops at once: it is taken there and does
nothing. -/
theorem applyDelta_touchesOnly_iff_stopped :
    str "other" ≠ [] ∧
      TouchesOnly (str "other") singleSink (singleSink.applyDelta (str "other") 2
        { baseSnapshotId := 1, modifiedEntries := [{ entryId := 9 }] }) := by
  have hne : str "other" ≠ [] := by decide
  refine ⟨hne, (applyDelta_touchesOnly_iff singleSink (str "other") 2 _ hne).mpr
    (.inr (.inr ⟨str "host", _, ⟨⟨[], [], rfl, fun _ h => nomatch h⟩, rfl⟩, ?_⟩))⟩
  exact ⟨[], .modify { entryId := 9 }, [], rfl, rfl, by decide +kernel⟩

/-- The delta of a host without a state is applied to another one. -/
theorem not_applyDelta_touchesOnly :
    ¬ ∀ (sink : MaterializerSink) (hostId : Str) (sequence : UInt64) (delta : DeltaSnapshot),
      hostId ≠ [] → TouchesOnly hostId sink (sink.applyDelta hostId sequence delta) := by
  intro h
  have hsilent := (h singleSink (str "other") 2 { baseSnapshotId := 1, targetSnapshotId := 2 }
    (by decide)).2 (by decide +kernel)
  exact absurd hsilent.1 (by decide +kernel)

end ServerStorage.Hugin
