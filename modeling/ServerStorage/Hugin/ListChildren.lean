/-
# `ServerStorage.Hugin.ListChildren` — `list_children` of `sinks/materializer_sink.cpp`

A listing is asked for by path, goes through the path index to an id and collects the
entries with that parent id from a map in no particular order (`EntryOrder`).  On a
snapshot that was built and has no errors this comes to the hierarchy of the paths.
-/
import ServerStorage.Muninn.Unchanged
import ServerStorage.Hugin.SinkLoops

namespace ServerStorage.Hugin

open Lib ServerStorage.Muninn SnapshotBuilder

/-! ## The listing -/

/-- An order in which the entries of a map are walked over. -/
structure EntryOrder where
  values : Finmap (fun _ : EntryId => FileEntry) → List FileEntry
  values_eq : ∀ map, (values map : Multiset FileEntry) = map.entries.map Sigma.snd

/-- The comparator of the sort. -/
def listsBefore (lhs rhs : FileEntry) : Bool :=
  let lhsDirectory := lhs.type == .directory
  let rhsDirectory := rhs.type == .directory
  if lhsDirectory != rhsDirectory then lhsDirectory else decide (lhs.name < rhs.name)

def normalizedParent (parentPath : Str) : Str :=
  if parentPath.isEmpty then str "/" else Path.lexicallyNormal parentPath

/-- The part of `list_children` that reads the state of the host. -/
def HostMaterializedState.listChildren (order : EntryOrder) (state : HostMaterializedState)
    (parentPath : Str) : Except Status (List FileEntry) :=
  match state.idByPath.lookup (normalizedParent parentPath) with
  | none => .error (.failure .notFound "Parent path not found in materialized state.")
  | some parentId =>
      match state.entriesById.lookup parentId with
      | none => .error (.failure .notFound "Parent entry not found in materialized state.")
      | some parent =>
          if parent.type ≠ .directory then
            .error (.failure .validationError "Parent path is not a directory.")
          else
            .ok (sortBy listsBefore
              ((order.values state.entriesById).filter fun entry => entry.parentId = parent.id))

def MaterializerSink.listChildren (order : EntryOrder) (sink : MaterializerSink)
    (hostId parentPath : Str) : Except Status (List FileEntry) :=
  if hostId.isEmpty then .error (.failure .invalidArgument "Host id is empty.")
  else
    match sink.states.lookup hostId with
    | none => .error (.failure .notFound "Host state not found.")
    | some state => state.listChildren order parentPath

/-- Directories come first, and of two of a kind the lesser name. -/
def ListedBefore (a b : FileEntry) : Prop :=
  (b.type = .directory → a.type = .directory) ∧
    ((a.type = .directory ↔ b.type = .directory) → a.name ≤ b.name)

/-! ## The order -/

/-- What the comparator orders by. -/
def listingKey (entry : FileEntry) : Nat ×ₗ Str :=
  toLex (if entry.type = .directory then 0 else 1, entry.name)

theorem listsBefore_iff {a b : FileEntry} : listsBefore a b = true ↔ listingKey a < listingKey b := by
  rw [listsBefore, listingKey, listingKey, Prod.Lex.toLex_lt_toLex]
  by_cases ha : a.type = .directory
  · by_cases hb : b.type = .directory <;> simp [ha, hb]
  · by_cases hb : b.type = .directory <;> simp [ha, hb]

theorem listedBefore_of_le {a b : FileEntry} (h : listingKey a ≤ listingKey b) :
    ListedBefore a b := by
  rw [listingKey, listingKey, Prod.Lex.toLex_le_toLex] at h
  refine ⟨fun hb => ?_, fun hsame => ?_⟩
  · by_contra ha
    simp [ha, hb] at h
  · by_cases ha : a.type = .directory
    · simpa [ha, hsame.mp ha] using h
    · have hb : ¬ b.type = .directory := fun hb => ha (hsame.mpr hb)
      simpa [ha, hb] using h

theorem sorted_listing (entries : List FileEntry) :
    (sortBy listsBefore entries).Pairwise ListedBefore :=
  (sortBy_pairwise listingKey (fun _ _ h => (listsBefore_iff.mp h).le)
    (fun _ _ h => not_lt.mp fun hlt => absurd (listsBefore_iff.mpr hlt) (by rw [h]; decide))
    entries).imp listedBefore_of_le

/-! ## The walk over the map -/

section
variable {s : Snapshot} {n : UInt64}

theorem mem_values (order : EntryOrder) (map : Finmap fun _ : EntryId => FileEntry) {e : FileEntry} :
    e ∈ order.values map ↔ ∃ id, map.lookup id = some e := by
  rw [← Multiset.mem_coe, order.values_eq, Multiset.mem_map]
  constructor
  · rintro ⟨⟨id, e⟩, hmem, rfl⟩
    exact ⟨id, Finmap.mem_lookup_iff.mpr hmem⟩
  · rintro ⟨id, hlookup⟩
    exact ⟨⟨id, e⟩, Finmap.mem_lookup_iff.mp hlookup, rfl⟩

/-- The walk meets the entries of the snapshot, each once. -/
theorem values_built (order : EntryOrder) (hids : (s.entries.map FileEntry.id).Nodup) :
    (order.values (buildFromSnapshot s n).entriesById).Nodup ∧
      ∀ e, e ∈ order.values (buildFromSnapshot s n).entriesById ↔ e ∈ s.entries := by
  have hlookup : ∀ id, (buildFromSnapshot s n).entriesById.lookup id = entryWith s.entries id :=
    fun id => entry_buildFromSnapshot id hids
  refine ⟨?_, fun e => ?_⟩
  · rw [← Multiset.coe_nodup, order.values_eq]
    refine Multiset.Nodup.map_on (fun a ha b hb hab => ?_) (Finmap.nodup_entries _)
    -- An entry stands under its own id.
    have hid : ∀ a : Sigma fun _ : EntryId => FileEntry,
        a ∈ (buildFromSnapshot s n).entriesById.entries → a.2.id = a.1 := by
      intro a ha
      have hfound := Finmap.mem_lookup_iff.mpr ha
      rw [hlookup] at hfound
      exact (mem_of_entryWith hfound).2
    obtain ⟨i, x⟩ := a
    obtain ⟨j, y⟩ := b
    obtain rfl : x = y := hab
    have hij : i = j := (hid _ ha).symm.trans (hid _ hb)
    rw [hij]
  · rw [mem_values]
    constructor
    · rintro ⟨id, hfound⟩
      rw [hlookup] at hfound
      exact (mem_of_entryWith hfound).1
    · intro he
      exact ⟨e.id, (hlookup e.id).trans (entryWith_of_mem hids he)⟩

/-! ## What is listed -/

/-- The entries with this parent id, in the order of the walk. -/
def childrenOf (order : EntryOrder) (state : HostMaterializedState) (parentId : EntryId) :
    List FileEntry :=
  (order.values state.entriesById).filter fun entry => entry.parentId = parentId

/-- A listing is asked for the path of a directory and holds the entries with its id as
their parent's. -/
theorem listChildren_ok (order : EntryOrder) (hids : (s.entries.map FileEntry.id).Nodup)
    (hpaths : (s.entries.map FileEntry.normalizedPath).Nodup) {path : Str}
    {children : List FileEntry} :
    (buildFromSnapshot s n).listChildren order path = .ok children ↔
      ∃ parent ∈ s.entries, parent.normalizedPath = normalizedParent path ∧
        parent.type = .directory ∧
        children = sortBy listsBefore (childrenOf order (buildFromSnapshot s n) parent.id) := by
  rw [HostMaterializedState.listChildren]
  have hid : (buildFromSnapshot s n).idByPath.lookup (normalizedParent path) =
      (entryAt s.entries (normalizedParent path)).map FileEntry.id :=
    idAt_buildFromSnapshot (normalizedParent path) hpaths
  cases hfound : entryAt s.entries (normalizedParent path) with
  | none =>
      rw [hid, hfound]
      refine iff_of_false nofun fun ⟨parent, hmem, hpath, _⟩ => ?_
      exact entryAt_eq_none.mp hfound parent hmem hpath
  | some parent =>
      obtain ⟨hmem, hpath⟩ := mem_of_entryAt hfound
      have hentry : (buildFromSnapshot s n).entriesById.lookup parent.id = some parent :=
        (entry_buildFromSnapshot parent.id hids).trans (entryWith_of_mem hids hmem)
      have honly : ∀ other ∈ s.entries, other.normalizedPath = normalizedParent path →
          other = parent := fun other hother heq =>
        List.inj_on_of_nodup_map hpaths hother hmem (heq.trans hpath.symm)
      rw [hid, hfound]
      show (match (buildFromSnapshot s n).entriesById.lookup parent.id with
        | none => _
        | some parent => _) = _ ↔ _
      rw [hentry]
      show (if _ then _ else _) = _ ↔ _
      split
      next hnot =>
        refine iff_of_false nofun fun ⟨other, hother, heq, hdirectory, _⟩ => hnot ?_
        rw [← honly other hother heq]
        exact hdirectory
      next hdirectory =>
        constructor
        · intro h
          exact ⟨parent, hmem, hpath, not_not.mp hdirectory, (Except.ok.inj h).symm⟩
        · rintro ⟨other, hother, heq, -, rfl⟩
          rw [honly other hother heq]
          rfl

theorem mem_listing (order : EntryOrder) (hids : (s.entries.map FileEntry.id).Nodup)
    {parentId : EntryId} {e : FileEntry} :
    e ∈ sortBy listsBefore (childrenOf order (buildFromSnapshot s n) parentId) ↔
      e ∈ s.entries ∧ e.parentId = parentId := by
  rw [mem_sortBy, childrenOf, List.mem_filter, (values_built order hids).2, decide_eq_true_eq]

end

/-! ## The listings of a host -/

/-- The host that a snapshot is applied for. -/
def resolvedHost (hostId : Str) (snapshot : Snapshot) : Str :=
  if hostId.isEmpty then snapshot.hostIdentifier else hostId

theorem listChildren_applied {sink sink' : MaterializerSink} {hostId : Str} {sequence : UInt64}
    {snapshot : Snapshot} (h : sink.applySnapshot hostId sequence snapshot = (.success, sink'))
    (order : EntryOrder) (path : Str) :
    sink'.listChildren order (resolvedHost hostId snapshot) path =
      (buildFromSnapshot snapshot sequence).listChildren order path := by
  rw [MaterializerSink.applySnapshot] at h
  change (if (resolvedHost hostId snapshot).isEmpty then _ else _) = _ at h
  split at h
  next hempty =>
    have hstatus := congrArg (fun result : Status × MaterializerSink => result.1.ok) h
    exact absurd (show false = true from hstatus) Bool.false_ne_true
  next hhost =>
    obtain rfl := (Prod.mk.inj h).2
    have hlookup : (sink.states.insert (resolvedHost hostId snapshot)
        (buildFromSnapshot snapshot sequence)).lookup (resolvedHost hostId snapshot) =
          some (buildFromSnapshot snapshot sequence) := AList.lookup_insert _
    rw [MaterializerSink.listChildren, if_neg hhost]
    show (match (sink.states.insert (resolvedHost hostId snapshot)
        (buildFromSnapshot snapshot sequence)).lookup (resolvedHost hostId snapshot) with
      | none => _
      | some state => _) = _
    rw [hlookup]

section
variable {scan : RawScanResult} {options : BuildOptions} {result : BuildResult} {now : UnixTimestamp}

/-- The parent of an entry of a built snapshot that is valid stands at the entry's parent path. -/
theorem built_parent (hbuild : build scan options = some result)
    (hvalid : WellFormed result.snapshot) {e : FileEntry} (he : e ∈ result.snapshot.entries)
    (hne : e.id ≠ result.snapshot.rootEntryId) :
    ∃ parent ∈ result.snapshot.entries,
      parent.normalizedPath = parentFromPath e.normalizedPath ∧ e.parentId = parent.id ∧
        parent.type = .directory := by
  obtain ⟨hzero, other, hother, hid, hdirectory⟩ := hvalid.parent e he hne
  rcases (build_sound hbuild).parent e he hne with ⟨parent, hparent, hpath, hlinked⟩ | ⟨-, hlost, -⟩
  · obtain rfl := List.inj_on_of_nodup_map hvalid.ids hother hparent (hid.trans hlinked)
    exact ⟨other, hother, hpath, hlinked, hdirectory⟩
  · exact absurd hlost hzero

/-- Every entry but the root is listed once, for the path of its parent and for no other; a
listing holds nothing else, directories first and then by name. -/
theorem listings_partition (hbuild : build scan options = some result)
    (hvalid : (validateSnapshotAt now result.snapshot).hasErrors = false) (order : EntryOrder)
    {sink sink' : MaterializerSink} {hostId : Str} {sequence : UInt64}
    (happlied : sink.applySnapshot hostId sequence result.snapshot = (.success, sink')) :
    (∀ e ∈ result.snapshot.entries, e.id ≠ result.snapshot.rootEntryId →
      ∃ parent ∈ result.snapshot.entries,
        parent.normalizedPath = parentFromPath e.normalizedPath ∧
        (∃ children, sink'.listChildren order (resolvedHost hostId result.snapshot)
          parent.normalizedPath = .ok children ∧ children.count e = 1) ∧
        ∀ path children, path ≠ [] → Path.lexicallyNormal path = path →
          sink'.listChildren order (resolvedHost hostId result.snapshot) path = .ok children →
            e ∈ children → path = parent.normalizedPath) ∧
    ∀ path children,
      sink'.listChildren order (resolvedHost hostId result.snapshot) path = .ok children →
        (∀ e ∈ children, e ∈ result.snapshot.entries ∧ e.id ≠ result.snapshot.rootEntryId) ∧
          children.Nodup ∧ children.Pairwise ListedBefore := by
  rw [hasErrors_validateSnapshotAt] at hvalid
  have hwell := snapshotErrors_iff.mp hvalid
  have hlisted := fun path => listChildren_applied happlied order path
  have hnodup : ∀ parentId : EntryId, (sortBy listsBefore
      (childrenOf order (buildFromSnapshot result.snapshot sequence) parentId)).Nodup := fun parentId =>
    (sortBy_perm _ _).nodup_iff.mpr ((values_built order hwell.ids).1.filter _)
  have hnormal : ∀ path : Str, path ≠ [] → Path.lexicallyNormal path = path →
      normalizedParent path = path := by
    intro path hne hnormal
    rw [normalizedParent, if_neg (by simpa using hne), hnormal]
  refine ⟨fun e he hne => ?_, fun path children hchildren => ?_⟩
  · obtain ⟨parent, hparent, hpath, hlinked, hdirectory⟩ := built_parent hbuild hwell he hne
    have hok := hwell.entry parent hparent
    refine ⟨parent, hparent, hpath, ⟨sortBy listsBefore
      (childrenOf order (buildFromSnapshot result.snapshot sequence) parent.id), ?_, ?_⟩,
      fun path children hne hnorm hchildren hmem => ?_⟩
    · rw [hlisted]
      exact (listChildren_ok order hwell.ids hwell.paths).mpr
        ⟨parent, hparent, (hnormal _ hok.nonempty hok.normal).symm, hdirectory, rfl⟩
    · exact List.count_eq_one_of_mem (hnodup parent.id)
        ((mem_listing order hwell.ids).mpr ⟨he, hlinked⟩)
    · rw [hlisted] at hchildren
      obtain ⟨other, hother, hat, -, rfl⟩ :=
        (listChildren_ok order hwell.ids hwell.paths).mp hchildren
      have hid := ((mem_listing order hwell.ids).mp hmem).2
      obtain rfl := List.inj_on_of_nodup_map hwell.ids hother hparent (hid.symm.trans hlinked)
      rw [hat, hnormal path hne hnorm]
  · rw [hlisted] at hchildren
    obtain ⟨parent, hparent, -, -, rfl⟩ := (listChildren_ok order hwell.ids hwell.paths).mp hchildren
    refine ⟨fun e he => ?_, hnodup parent.id, sorted_listing _⟩
    obtain ⟨hentry, hid⟩ := (mem_listing order hwell.ids).mp he
    refine ⟨hentry, fun hroot => ?_⟩
    -- The root's parent id is zero, which is nobody's id.
    obtain ⟨root, hrootMem, hrootId, -, hzero⟩ := hwell.root
    obtain rfl := List.inj_on_of_nodup_map hwell.ids hentry hrootMem (hroot.trans hrootId.symm)
    exact hwell.id_ne parent hparent (hid.symm.trans hzero)

end

/-- Some order there is. -/
noncomputable def someOrder : EntryOrder where
  values map := (map.entries.map Sigma.snd).toList
  values_eq _ := Multiset.coe_toList _

theorem listings_partition_file :
    (fileBuild 1).snapshot.entries.length = 2 ∧
      ∀ e ∈ (fileBuild 1).snapshot.entries, e.id ≠ (fileBuild 1).snapshot.rootEntryId →
        ∃ parent ∈ (fileBuild 1).snapshot.entries, ∃ children,
          (MaterializerSink.applySnapshot {} [] 1 (fileBuild 1).snapshot).2.listChildren someOrder
            (resolvedHost [] (fileBuild 1).snapshot) parent.normalizedPath = .ok children ∧
          children.count e = 1 := by
  have happlied : MaterializerSink.applySnapshot {} [] 1 (fileBuild 1).snapshot =
      (.success, (MaterializerSink.applySnapshot {} [] 1 (fileBuild 1).snapshot).2) :=
    Prod.ext (by decide +kernel) rfl
  refine ⟨by decide +kernel, fun e he hne => ?_⟩
  obtain ⟨parent, hparent, -, hchildren, -⟩ := (@listings_partition (fileScan 1) { snapshotId := 1 }
    (fileBuild 1) 1 (by decide +kernel) (by decide +kernel) someOrder _ _ _ _ happlied).1 e he hne
  exact ⟨parent, hparent, hchildren⟩

end ServerStorage.Hugin
