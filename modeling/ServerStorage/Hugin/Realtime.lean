/-
# `ServerStorage.Hugin.Realtime` — the realtime views

The queries of the sink, and the two handlers of `main.cpp` that answer a frontend with them.
A query takes the lock of the sink for itself, so records may be applied between two queries
of one answer; a handler reads the sink as it stands at each of its queries.

A frontend starts without a path and goes into the directories it is shown.  As long as its
host stays at one built snapshot, whatever becomes of the other hosts meanwhile, it comes to
every entry of that snapshot but the root, on one page and once (`browse_complete`).
-/
import ServerStorage.Hugin.ListChildren
import ServerStorage.Hugin.Reconstruct

namespace ServerStorage.Hugin

open Lib Crud Relation ServerStorage.Muninn SnapshotBuilder

/-! ## The queries -/

namespace MaterializerSink

def latestHostId (sink : MaterializerSink) : Except Status Str :=
  if sink.lastUpdatedHostId.isEmpty || (sink.states.lookup sink.lastUpdatedHostId).isNone then
    .error (.failure .notFound "Host state not found.")
  else .ok sink.lastUpdatedHostId

def stateOf (sink : MaterializerSink) (hostId : Str) : Except Status HostMaterializedState :=
  match sink.states.lookup hostId with
  | none => .error (.failure .notFound "Host state not found.")
  | some state => .ok state

/-- The queries that refuse an empty name before they look it up. -/
def namedState (sink : MaterializerSink) (hostId : Str) : Except Status HostMaterializedState :=
  if hostId.isEmpty then .error (.failure .invalidArgument "Host id is empty.")
  else sink.stateOf hostId

def lastSnapshotId (sink : MaterializerSink) (hostId : Str) : Except Status UInt64 :=
  (sink.namedState hostId).map HostMaterializedState.lastSnapshotId

def lastSequence (sink : MaterializerSink) (hostId : Str) : Except Status UInt64 :=
  (sink.namedState hostId).map HostMaterializedState.lastSequence

def entryCount (sink : MaterializerSink) (hostId : Str) : Except Status UInt64 :=
  (sink.stateOf hostId).map fun state => state.entriesById.keys.card.toUInt64

end MaterializerSink

/-- A directory that may be the root: it has no parent, or none that is known. -/
def HostMaterializedState.rootLike (state : HostMaterializedState) (entry : FileEntry) : Bool :=
  entry.type == .directory && !entry.normalizedPath.isEmpty &&
    (entry.parentId == 0 ||
      let parent := Path.parentPath entry.normalizedPath
      parent.isEmpty || (state.idByPath.lookup parent).isNone)

/-- One turn of the loop of `root_path`, with the candidate and its depth. -/
def HostMaterializedState.chooseRoot (depth : Str → UInt64) (state : HostMaterializedState)
    (candidate : Str × UInt64) (entry : FileEntry) : Str × UInt64 :=
  if state.rootLike entry && decide (depth entry.normalizedPath < candidate.2) then
    (entry.normalizedPath, depth entry.normalizedPath)
  else candidate

/-- The depth of a path is taken as the distance between iterators of two different temporary
paths, which C++ leaves open; so `depth` is whatever number that gives. -/
def MaterializerSink.rootPath (order : EntryOrder) (depth : Str → UInt64)
    (sink : MaterializerSink) (hostId : Str) : Except Status Str :=
  match sink.namedState hostId with
  | .error status => .error status
  | .ok state =>
      let root := ((order.values state.entriesById).foldl (state.chooseRoot depth)
        ([], 0xFFFFFFFFFFFFFFFF)).1
      if root.isEmpty then .error (.failure .notFound "Root path not found.") else .ok root

/-! ## The handlers -/

def entryTypeText (type : EntryType) : String :=
  if type = .file then "file"
  else if type = .directory then "directory"
  else if type = .symlink then "symlink"
  else "special"

def realtimeEntry (entry : FileEntry) : Json :=
  jsonObject
    [("id", unsigned entry.id),
     ("parent_id", unsigned entry.parentId),
     ("path", .string entry.normalizedPath),
     ("name", .string entry.name),
     ("type", .string (str (entryTypeText entry.type))),
     ("size_bytes", unsigned entry.metadata.sizeBytes),
     ("created_at", .numberInteger entry.metadata.createdAt),
     ("modified_at", .numberInteger entry.metadata.modifiedAt),
     ("accessed_at", .numberInteger entry.metadata.accessedAt),
     ("permissions", unsigned entry.metadata.permissions.toUInt64)]

section
variable (order : EntryOrder) (depth : Str → UInt64) (sinkAt : Nat → MaterializerSink)
  (requestedHost requestedPath : Str)

/-- Without a host the one updated last is meant. -/
def shownHost : Except Status Str :=
  if requestedHost.isEmpty then (sinkAt 0).latestHostId else .ok requestedHost

/-- Without a path the root is meant. -/
def shownPath (sink : MaterializerSink) (hostId : Str) : Except Status Str :=
  if requestedPath.isEmpty then sink.rootPath order depth hostId else .ok requestedPath

def shownEntries (includeEntries : Bool) (sink : MaterializerSink) (hostId path : Str) :
    Except Status (Option (List FileEntry)) :=
  if includeEntries then (sink.listChildren order hostId path).map some else .ok none

structure RealtimeTree where
  hostId : Str
  path : Str
  snapshotId : UInt64
  entries : List FileEntry

def RealtimeTree.toJson (tree : RealtimeTree) : Json :=
  jsonObject
    [("ok", .boolean true),
     ("host_id", .string tree.hostId),
     ("path", .string tree.path),
     ("snapshot_id", unsigned tree.snapshotId),
     ("entries", .array (tree.entries.map realtimeEntry))]

def realtimeTree : Except Status RealtimeTree := do
  let hostId ← shownHost sinkAt requestedHost
  let path ← shownPath order depth requestedPath (sinkAt 1) hostId
  let children ← (sinkAt 2).listChildren order hostId path
  let snapshotId ← (sinkAt 3).lastSnapshotId hostId
  return { hostId := hostId, path := path, snapshotId := snapshotId, entries := children }

structure RealtimeSnapshot where
  hostId : Str
  snapshotId : UInt64
  lastSequence : UInt64
  entryCount : UInt64
  path : Str
  /-- The entries, where they were asked for. -/
  entries : Option (List FileEntry)

def RealtimeSnapshot.toJson (snapshot : RealtimeSnapshot) : Json :=
  jsonObject
    ([("ok", .boolean true),
      ("host_id", .string snapshot.hostId),
      ("snapshot_id", unsigned snapshot.snapshotId),
      ("last_sequence", unsigned snapshot.lastSequence),
      ("entry_count", unsigned snapshot.entryCount),
      ("path", .string snapshot.path),
      ("include_entries", .boolean snapshot.entries.isSome)] ++
    (snapshot.entries.toList.map fun entries => ("entries", .array (entries.map realtimeEntry))))

def realtimeSnapshot (includeEntries : Bool) : Except Status RealtimeSnapshot := do
  let hostId ← shownHost sinkAt requestedHost
  let snapshotId ← (sinkAt 1).lastSnapshotId hostId
  let lastSequence ← (sinkAt 2).lastSequence hostId
  let entryCount ← (sinkAt 3).entryCount hostId
  let path ← shownPath order depth requestedPath (sinkAt 4) hostId
  let entries ← shownEntries order includeEntries (sinkAt 5) hostId path
  return { hostId := hostId, snapshotId := snapshotId, lastSequence := lastSequence
           entryCount := entryCount, path := path, entries := entries }

end

/-! ## The root -/

section
variable {scan : RawScanResult} {options : BuildOptions} {result : BuildResult} {n : UInt64}
  {depth : Str → UInt64}

/-- Of a built snapshot that is valid, only the root looks like one. -/
theorem rootLike_built (hbuild : build scan options = some result)
    (hvalid : WellFormed result.snapshot) {e : FileEntry} (he : e ∈ result.snapshot.entries) :
    (buildFromSnapshot result.snapshot n).rootLike e = true ↔ e.id = result.snapshot.rootEntryId := by
  constructor
  · intro hlike
    by_contra hne
    obtain ⟨hzero, -⟩ := hvalid.parent e he hne
    obtain ⟨parent, hparent, hpath, -, -⟩ := built_parent hbuild hvalid he hne
    have hnonempty : (Path.parentPath e.normalizedPath).isEmpty = false := by
      have := (hvalid.entry parent hparent).nonempty
      rw [hpath, parentFromPath] at this
      simpa using this
    have hindexed : ((buildFromSnapshot result.snapshot n).idByPath.lookup
        (Path.parentPath e.normalizedPath)).isNone = false := by
      have hat : (buildFromSnapshot result.snapshot n).idByPath.lookup
          (Path.parentPath e.normalizedPath) = _ := idAt_buildFromSnapshot _ hvalid.paths
      rw [hat, ← parentFromPath, ← hpath, entryAt_of_mem hvalid.paths hparent]
      rfl
    simp [HostMaterializedState.rootLike, hzero, hnonempty, hindexed] at hlike
  · intro hroot
    obtain ⟨root, hrootMem, hrootId, hdirectory, hzero⟩ := hvalid.root
    obtain rfl := List.inj_on_of_nodup_map hvalid.ids he hrootMem (hroot.trans hrootId.symm)
    have hnonempty : e.normalizedPath.isEmpty = false := by
      simpa using (hvalid.entry e he).nonempty
    simp [HostMaterializedState.rootLike, hdirectory, hzero, hnonempty]

/-- The loop ends at the one entry that looks like a root. -/
theorem foldl_chooseRoot {state : HostMaterializedState} {root : FileEntry}
    (hroot : state.rootLike root = true) : ∀ {l : List FileEntry} {candidate : Str × UInt64},
      (∀ e ∈ l, state.rootLike e = true → e = root) →
      (candidate = (root.normalizedPath, depth root.normalizedPath) ∨
        root ∈ l ∧ depth root.normalizedPath < candidate.2) →
      l.foldl (state.chooseRoot depth) candidate =
        (root.normalizedPath, depth root.normalizedPath) := by
  intro l
  induction l with
  | nil =>
      intro candidate _ h
      rcases h with h | ⟨hmem, -⟩
      · exact h
      · cases hmem
  | cons e l ih =>
      intro candidate honly h
      obtain ⟨he, hl⟩ := List.forall_mem_cons.mp honly
      rw [List.foldl_cons]
      refine ih hl ?_
      by_cases hlike : state.rootLike e = true
      · obtain rfl := he hlike
        left
        rcases h with rfl | ⟨-, hlt⟩
        · simp [HostMaterializedState.chooseRoot]
        · simp [HostMaterializedState.chooseRoot, hlike, hlt]
      · have hstays : state.chooseRoot depth candidate e = candidate := by
          simp [HostMaterializedState.chooseRoot, hlike]
        rw [hstays]
        rcases h with h | ⟨hmem, hlt⟩
        · exact .inl h
        · refine .inr ⟨(List.mem_cons.mp hmem).resolve_left ?_, hlt⟩
          rintro rfl
          exact hlike hroot

end

/-! ## Browsing -/

/-- The sink has the host at the snapshot. -/
def Shows (host : Str) (s : Snapshot) (n : UInt64) (sink : MaterializerSink) : Prop :=
  sink.states.lookup host = some (buildFromSnapshot s n)

/-- The host of a request: named, or the one updated last. -/
def Means (sinkAt : Nat → MaterializerSink) (requestedHost host : Str) : Prop :=
  requestedHost = host ∨ requestedHost = [] ∧ (sinkAt 0).lastUpdatedHostId = host

/-- The pages of a host that a frontend comes to, the sinks being among the `shown` ones at
every query. -/
inductive Browsed (depth : Str → UInt64) (shown : MaterializerSink → Prop) (host : Str) :
    RealtimeTree → Prop
  | start {order : EntryOrder} {sinkAt : Nat → MaterializerSink} {requestedHost : Str}
      {page : RealtimeTree} : (∀ i, shown (sinkAt i)) → Means sinkAt requestedHost host →
      realtimeTree order depth sinkAt requestedHost [] = .ok page → Browsed depth shown host page
  | enter {order : EntryOrder} {sinkAt : Nat → MaterializerSink} {requestedHost : Str}
      {page next : RealtimeTree} {e : FileEntry} : Browsed depth shown host page →
      e ∈ page.entries → e.type = .directory → (∀ i, shown (sinkAt i)) →
      Means sinkAt requestedHost host →
      realtimeTree order depth sinkAt requestedHost e.normalizedPath = .ok next →
      Browsed depth shown host next

/-- The page of a directory of the snapshot. -/
structure PageOf (host : Str) (s : Snapshot) (n : UInt64) (parent : FileEntry)
    (page : RealtimeTree) : Prop where
  hostId : page.hostId = host
  path : page.path = parent.normalizedPath
  snapshotId : page.snapshotId = s.snapshotId
  entries : ∃ order, page.entries =
    sortBy listsBefore (childrenOf order (buildFromSnapshot s n) parent.id)

section
variable {host : Str} {s : Snapshot} {n : UInt64} {order : EntryOrder} {depth : Str → UInt64}
  {sink : MaterializerSink} {sinkAt : Nat → MaterializerSink} {requestedHost : Str}

theorem namedState_shows (hhost : host ≠ []) (h : Shows host s n sink) :
    sink.namedState host = .ok (buildFromSnapshot s n) := by
  have hempty : host.isEmpty = false := by simpa using hhost
  rw [MaterializerSink.namedState, hempty, MaterializerSink.stateOf, h]
  rfl

theorem listChildren_shows (hhost : host ≠ []) (h : Shows host s n sink) (path : Str) :
    sink.listChildren order host path = (buildFromSnapshot s n).listChildren order path := by
  have hempty : host.isEmpty = false := by simpa using hhost
  rw [MaterializerSink.listChildren, hempty, h]
  rfl

theorem shownHost_means (hhost : host ≠ []) (hshown : ∀ i, Shows host s n (sinkAt i))
    (h : Means sinkAt requestedHost host) : shownHost sinkAt requestedHost = .ok host := by
  rcases h with rfl | ⟨rfl, hlast⟩
  · have hempty : requestedHost.isEmpty = false := by simpa using hhost
    rw [shownHost, hempty]
    rfl
  · have hempty : host.isEmpty = false := by simpa using hhost
    rw [shownHost, MaterializerSink.latestHostId, hlast, hempty, hshown 0]
    rfl

theorem shownPath_given {path : Str} (h : path ≠ []) :
    shownPath order depth path sink host = .ok path := by
  have hempty : path.isEmpty = false := by simpa using h
  rw [shownPath, hempty]
  rfl

/-- A directory that is asked for is shown. -/
theorem realtimeTree_of_path (hvalid : WellFormed s) (hhost : host ≠ [])
    (hshown : ∀ i, Shows host s n (sinkAt i)) (hmeans : Means sinkAt requestedHost host)
    {requestedPath : Str} {parent : FileEntry} (hparent : parent ∈ s.entries)
    (hdirectory : parent.type = .directory)
    (hpath : shownPath order depth requestedPath (sinkAt 1) host = .ok parent.normalizedPath) :
    ∃ page, realtimeTree order depth sinkAt requestedHost requestedPath = .ok page ∧
      PageOf host s n parent page := by
  have hentry := hvalid.entry parent hparent
  have hnormal : normalizedParent parent.normalizedPath = parent.normalizedPath := by
    rw [normalizedParent, if_neg (by simpa using hentry.nonempty), hentry.normal]
  have hchildren : (sinkAt 2).listChildren order host parent.normalizedPath =
      .ok (sortBy listsBefore (childrenOf order (buildFromSnapshot s n) parent.id)) := by
    rw [listChildren_shows hhost (hshown 2)]
    exact (listChildren_ok order hvalid.ids hvalid.paths).mpr
      ⟨parent, hparent, hnormal.symm, hdirectory, rfl⟩
  have hid : (sinkAt 3).lastSnapshotId host = .ok s.snapshotId := by
    rw [MaterializerSink.lastSnapshotId, namedState_shows hhost (hshown 3)]
    exact congrArg Except.ok (buildFromSnapshot_lastSnapshotId s n)
  refine ⟨{ hostId := host, path := parent.normalizedPath, snapshotId := s.snapshotId
            entries := sortBy listsBefore (childrenOf order (buildFromSnapshot s n) parent.id) },
    ?_, ⟨rfl, rfl, rfl, order, rfl⟩⟩
  rw [realtimeTree, shownHost_means hhost hshown hmeans]
  simp only [bind, Except.bind, hpath, hchildren, hid]
  rfl

/-- What is on a page. -/
theorem PageOf.mem_entries (hvalid : WellFormed s) {parent e : FileEntry} {page : RealtimeTree}
    (h : PageOf host s n parent page) :
    e ∈ page.entries ↔ e ∈ s.entries ∧ e.parentId = parent.id := by
  obtain ⟨order, hentries⟩ := h.entries
  rw [hentries]
  exact mem_listing order hvalid.ids

theorem PageOf.nodup (hvalid : WellFormed s) {parent : FileEntry} {page : RealtimeTree}
    (h : PageOf host s n parent page) : page.entries.Nodup := by
  obtain ⟨order, hentries⟩ := h.entries
  rw [hentries]
  exact (sortBy_perm _ _).nodup_iff.mpr ((values_built order hvalid.ids).1.filter _)

end

section
variable {scan : RawScanResult} {options : BuildOptions} {result : BuildResult} {n : UInt64}
  {host : Str} {depth : Str → UInt64} {root : FileEntry} {page : RealtimeTree}

/-- Without a path the root is shown. -/
theorem shownPath_root (hbuild : build scan options = some result)
    (hvalid : WellFormed result.snapshot) (hroot : root ∈ result.snapshot.entries)
    (hid : root.id = result.snapshot.rootEntryId)
    (hdepth : depth root.normalizedPath < 0xFFFFFFFFFFFFFFFF) (hhost : host ≠ [])
    {order : EntryOrder} {sink : MaterializerSink} (hshown : Shows host result.snapshot n sink) :
    shownPath order depth [] sink host = .ok root.normalizedPath := by
  obtain ⟨-, hvalues⟩ := @values_built result.snapshot n order hvalid.ids
  have honly : ∀ e ∈ order.values (buildFromSnapshot result.snapshot n).entriesById,
      (buildFromSnapshot result.snapshot n).rootLike e = true → e = root := by
    intro e he hlike
    have hmem := (hvalues e).mp he
    exact List.inj_on_of_nodup_map hvalid.ids hmem hroot
      (((rootLike_built hbuild hvalid hmem).mp hlike).trans hid.symm)
  have hchosen := @foldl_chooseRoot depth _ root ((rootLike_built hbuild hvalid hroot).mpr hid) _
    ([], 0xFFFFFFFFFFFFFFFF) honly (.inr ⟨(hvalues root).mpr hroot, hdepth⟩)
  have hnonempty : root.normalizedPath.isEmpty = false := by
    simpa using (hvalid.entry root hroot).nonempty
  rw [shownPath, List.isEmpty_nil, if_pos rfl, MaterializerSink.rootPath,
    namedState_shows hhost hshown]
  dsimp only
  rw [hchosen, hnonempty]
  rfl

/-- A page that a frontend comes to is that of a directory of the snapshot. -/
theorem Browsed.pageOf (hbuild : build scan options = some result)
    (hvalid : WellFormed result.snapshot) (hhost : host ≠ [])
    (hdepth : ∀ e ∈ result.snapshot.entries, depth e.normalizedPath < 0xFFFFFFFFFFFFFFFF)
    (h : Browsed depth (Shows host result.snapshot n) host page) :
    ∃ parent ∈ result.snapshot.entries, PageOf host result.snapshot n parent page := by
  induction h with
  | @start order sinkAt requestedHost page hshown hmeans hpage =>
      obtain ⟨root, hroot, hid, hdirectory, -⟩ := hvalid.root
      have hpath := @shownPath_root _ _ _ _ _ _ _ hbuild hvalid hroot hid (hdepth root hroot)
        hhost order _ (hshown 1)
      obtain ⟨page, hok, hpageOf⟩ :=
        realtimeTree_of_path hvalid hhost hshown hmeans hroot hdirectory hpath
      obtain rfl := Except.ok.inj (hpage.symm.trans hok)
      exact ⟨root, hroot, hpageOf⟩
  | @enter order sinkAt requestedHost page next e _ hmem hdirectory hshown hmeans hpage ih =>
      obtain ⟨parent, hparent, hpageOf⟩ := ih
      have he := ((hpageOf.mem_entries hvalid).mp hmem).1
      obtain ⟨next', hok, hnext⟩ := realtimeTree_of_path hvalid hhost hshown hmeans he hdirectory
        (shownPath_given (hvalid.entry e he).nonempty)
      obtain rfl := Except.ok.inj (hpage.symm.trans hok)
      exact ⟨e, he, hnext⟩

/-- Every directory has a page that a frontend comes to. -/
theorem exists_browsed (hbuild : build scan options = some result)
    (hvalid : WellFormed result.snapshot) (hhost : host ≠ [])
    (hdepth : ∀ e ∈ result.snapshot.entries, depth e.normalizedPath < 0xFFFFFFFFFFFFFFFF)
    (order : EntryOrder) {sink : MaterializerSink} (hsink : Shows host result.snapshot n sink)
    {id : EntryId} (h : ReflTransGen (ParentStep result.snapshot) id result.snapshot.rootEntryId) :
    ∀ parent ∈ result.snapshot.entries, parent.id = id → parent.type = .directory →
      ∃ page, Browsed depth (Shows host result.snapshot n) host page ∧
        PageOf host result.snapshot n parent page := by
  have hmeans : Means (fun _ => sink) host host := .inl rfl
  induction h using ReflTransGen.head_induction_on with
  | refl =>
      intro parent hparent hid hdirectory
      have hpath := @shownPath_root _ _ _ _ _ _ _ hbuild hvalid hparent hid (hdepth parent hparent)
        hhost order _ hsink
      obtain ⟨page, hok, hpageOf⟩ := @realtimeTree_of_path host result.snapshot n order depth
        (fun _ => sink) host hvalid hhost (fun _ => hsink) hmeans [] parent hparent hdirectory hpath
      exact ⟨page, .start (fun _ => hsink) hmeans hok, hpageOf⟩
  | head hstep _ ih =>
      intro parent hparent hid hdirectory
      obtain ⟨e, he, heid, hup, hzero⟩ := hstep
      obtain rfl := List.inj_on_of_nodup_map hvalid.ids he hparent (heid.trans hid.symm)
      have hne : e.id ≠ result.snapshot.rootEntryId := by
        intro hroot
        obtain ⟨root, hrootMem, hrootId, -, hrootZero⟩ := hvalid.root
        obtain rfl := List.inj_on_of_nodup_map hvalid.ids he hrootMem (hroot.trans hrootId.symm)
        exact hzero (hup.symm.trans hrootZero)
      obtain ⟨-, above, habove, haboveId, haboveDirectory⟩ := hvalid.parent e he hne
      obtain ⟨page, hbrowsed, hpageOf⟩ :=
        ih above habove (haboveId.trans hup) haboveDirectory
      have hmem : e ∈ page.entries := (hpageOf.mem_entries hvalid).mpr ⟨he, haboveId.symm⟩
      obtain ⟨next, hok, hnext⟩ := @realtimeTree_of_path host result.snapshot n order depth
        (fun _ => sink) host hvalid hhost (fun _ => hsink) hmeans e.normalizedPath e he hdirectory
        (shownPath_given (hvalid.entry e he).nonempty)
      exact ⟨next, .enter hbrowsed hmem hdirectory (fun _ => hsink) hmeans hok, hnext⟩

theorem foldl_indexEntry_lastSequence : ∀ (l : List FileEntry) (state : HostMaterializedState),
    (l.foldl HostMaterializedState.indexEntry state).lastSequence = state.lastSequence := by
  intro l
  induction l with
  | nil => exact fun _ => rfl
  | cons e l ih => exact fun state => ih (state.indexEntry e)

/-- The overview is of the snapshot, and counts its entries. -/
theorem realtimeSnapshot_shows (hvalid : WellFormed result.snapshot) (hhost : host ≠ [])
    {order : EntryOrder} {sinkAt : Nat → MaterializerSink} {requestedHost requestedPath : Str}
    (hshown : ∀ i, Shows host result.snapshot n (sinkAt i))
    (hmeans : Means sinkAt requestedHost host) {includeEntries : Bool} {overview : RealtimeSnapshot}
    (h : realtimeSnapshot order depth sinkAt requestedHost requestedPath includeEntries =
      .ok overview) :
    overview.hostId = host ∧ overview.snapshotId = result.snapshot.snapshotId ∧
      overview.lastSequence = n ∧
      overview.entryCount = result.snapshot.entries.length.toUInt64 := by
  have hcount : (sinkAt 3).entryCount host = .ok result.snapshot.entries.length.toUInt64 := by
    have hkeys : (buildFromSnapshot result.snapshot n).entriesById.keys =
        (result.snapshot.entries.map FileEntry.id).toFinset := by
      ext id
      rw [Finmap.mem_keys, Finmap.mem_iff, List.mem_toFinset]
      constructor
      · rintro ⟨e, he⟩
        have hentry : entryWith result.snapshot.entries id = some e :=
          (entry_buildFromSnapshot id hvalid.ids).symm.trans he
        obtain ⟨hmem, rfl⟩ := mem_of_entryWith hentry
        exact List.mem_map_of_mem hmem
      · intro hmem
        obtain ⟨e, he, rfl⟩ := List.mem_map.mp hmem
        exact ⟨e, (entry_buildFromSnapshot e.id hvalid.ids).trans (entryWith_of_mem hvalid.ids he)⟩
    rw [MaterializerSink.entryCount, MaterializerSink.stateOf, hshown 3]
    show Except.ok (Finset.card _).toUInt64 = _
    rw [hkeys, List.toFinset_card_of_nodup hvalid.ids, List.length_map]
  obtain ⟨hostId, hhostId, h⟩ := Lmdb.except_bind_ok.mp h
  obtain ⟨snapshotId, hsnapshotId, h⟩ := Lmdb.except_bind_ok.mp h
  obtain ⟨lastSequence, hlastSequence, h⟩ := Lmdb.except_bind_ok.mp h
  obtain ⟨entryCount, hentryCount, h⟩ := Lmdb.except_bind_ok.mp h
  obtain ⟨path, -, h⟩ := Lmdb.except_bind_ok.mp h
  obtain ⟨entries, -, h⟩ := Lmdb.except_bind_ok.mp h
  obtain rfl := Except.ok.inj h
  obtain rfl := Except.ok.inj ((shownHost_means hhost hshown hmeans).symm.trans hhostId)
  rw [MaterializerSink.lastSnapshotId, namedState_shows hhost (hshown 1)] at hsnapshotId
  rw [MaterializerSink.lastSequence, namedState_shows hhost (hshown 2)] at hlastSequence
  refine ⟨rfl, ?_, ?_, (Except.ok.inj (hcount.symm.trans hentryCount)).symm⟩
  · exact (Except.ok.inj hsnapshotId).symm.trans (buildFromSnapshot_lastSnapshotId _ _)
  · exact (Except.ok.inj hlastSequence).symm.trans (foldl_indexEntry_lastSequence _ _)

/-- **Browsing is complete.**  While the sink has the host at a built snapshot that is valid, a
frontend that goes into the directories it is shown comes to every entry but the root, to each
on the page of one path and there once; it comes to nothing else, and is told how many
entries there are. -/
theorem browse_complete (hbuild : build scan options = some result) {now : UnixTimestamp}
    (hvalid : (validateSnapshotAt now result.snapshot).hasErrors = false) (hhost : host ≠ [])
    (hdepth : ∀ e ∈ result.snapshot.entries, depth e.normalizedPath < 0xFFFFFFFFFFFFFFFF)
    (order : EntryOrder) {sink : MaterializerSink} (hsink : Shows host result.snapshot n sink) :
    (∀ e ∈ result.snapshot.entries, e.id ≠ result.snapshot.rootEntryId →
      ∃ page, Browsed depth (Shows host result.snapshot n) host page ∧ page.entries.count e = 1 ∧
        ∀ other, Browsed depth (Shows host result.snapshot n) host other → e ∈ other.entries →
          other.path = page.path) ∧
    (∀ page, Browsed depth (Shows host result.snapshot n) host page →
      page.hostId = host ∧ page.snapshotId = result.snapshot.snapshotId ∧
        ∀ e ∈ page.entries, e ∈ result.snapshot.entries ∧
          e.id ≠ result.snapshot.rootEntryId) ∧
    ∀ sinkAt requestedHost requestedPath includeEntries overview,
      (∀ i, Shows host result.snapshot n (sinkAt i)) → Means sinkAt requestedHost host →
      realtimeSnapshot order depth sinkAt requestedHost requestedPath includeEntries =
        .ok overview →
      overview.hostId = host ∧ overview.snapshotId = result.snapshot.snapshotId ∧
        overview.lastSequence = n ∧
        overview.entryCount = result.snapshot.entries.length.toUInt64 := by
  rw [hasErrors_validateSnapshotAt] at hvalid
  have hwell := snapshotErrors_iff.mp hvalid
  refine ⟨?_, ?_, ?_⟩
  · intro e he hne
    obtain ⟨-, parent, hparent, hid, hdirectory⟩ := hwell.parent e he hne
    obtain ⟨page, hbrowsed, hpageOf⟩ := exists_browsed hbuild hwell hhost hdepth order hsink
      (hwell.reaches_root parent hparent) parent hparent rfl hdirectory
    have hmem : e ∈ page.entries := (hpageOf.mem_entries hwell).mpr ⟨he, hid.symm⟩
    refine ⟨page, hbrowsed, List.count_eq_one_of_mem (hpageOf.nodup hwell) hmem, ?_⟩
    intro other hother hmem'
    obtain ⟨parent', hparent', hpageOf'⟩ := hother.pageOf hbuild hwell hhost hdepth
    have hid' := ((hpageOf'.mem_entries hwell).mp hmem').2
    obtain rfl := List.inj_on_of_nodup_map hwell.ids hparent' hparent (hid'.symm.trans hid.symm)
    rw [hpageOf'.path, hpageOf.path]
  · intro page hpage
    obtain ⟨parent, hparent, hpageOf⟩ := hpage.pageOf hbuild hwell hhost hdepth
    refine ⟨hpageOf.hostId, hpageOf.snapshotId, ?_⟩
    intro e hmem
    obtain ⟨he, hid⟩ := (hpageOf.mem_entries hwell).mp hmem
    refine ⟨he, ?_⟩
    intro hroot
    obtain ⟨root, hrootMem, hrootId, -, hzero⟩ := hwell.root
    obtain rfl := List.inj_on_of_nodup_map hwell.ids he hrootMem (hroot.trans hrootId.symm)
    exact hwell.id_ne parent hparent (hid.symm.trans hzero)
  · intro sinkAt requestedHost requestedPath includeEntries overview hshown hmeans hoverview
    exact realtimeSnapshot_shows hwell hhost hshown hmeans hoverview

end

theorem browse_complete_file :
    ∃ e ∈ (fileBuild 1).snapshot.entries, e.id ≠ (fileBuild 1).snapshot.rootEntryId ∧
      ∃ page, Browsed (fun _ => 1) (Shows (str "h") (fileBuild 1).snapshot 1) (str "h") page ∧
        page.entries.count e = 1 := by
  obtain ⟨e, he, hne⟩ : ∃ e ∈ (fileBuild 1).snapshot.entries,
      e.id ≠ (fileBuild 1).snapshot.rootEntryId := by
    decide +kernel
  obtain ⟨page, hbrowsed, hcount, -⟩ := (@browse_complete (fileScan 1) { snapshotId := 1 }
    (fileBuild 1) 1 (str "h") (fun _ => 1) (by decide +kernel) 1 (by decide +kernel) (by decide)
    (fun _ _ => by decide) someOrder
    (MaterializerSink.applySnapshot {} [] 1 (fileBuild 1).snapshot).2
    (AList.lookup_insert _)).1 e he hne
  exact ⟨e, he, hne, page, hbrowsed, hcount⟩

end ServerStorage.Hugin
