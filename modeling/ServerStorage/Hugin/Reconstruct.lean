/-
# `ServerStorage.Hugin.Reconstruct` — a base snapshot, then computed deltas

The two results about the sink and the delta engine together.  One delta: the
entries the sink ends with are those of the target exactly when the two
snapshots are `Replayable`.  A run of deltas: the two indexes of the host are
mutually inverse in every state exactly as long as no step clobbers a path.
-/
import ServerStorage.Hugin.Replay
import ServerStorage.Muninn.Builder

namespace ServerStorage.Hugin

open Lib ServerStorage.Muninn DeltaEngine HostMaterializedState MaterializerSink

/-! ## `apply_delta` on a tracked host -/

theorem foldl_indexEntry_lastSnapshotId :
    ∀ (l : List FileEntry) (st : HostMaterializedState),
      (l.foldl indexEntry st).lastSnapshotId = st.lastSnapshotId
  | [], _ => rfl
  | _ :: l, _ => foldl_indexEntry_lastSnapshotId l _

theorem buildFromSnapshot_lastSnapshotId (s : Snapshot) (n : UInt64) :
    (buildFromSnapshot s n).lastSnapshotId = s.snapshotId :=
  foldl_indexEntry_lastSnapshotId s.entries _

theorem applySnapshot_ok {sink : MaterializerSink} {host : Str} {n : UInt64} {s : Snapshot}
    (hhost : host ≠ []) : sink.applySnapshot host n s = (.success,
      { states := sink.states.insert host (buildFromSnapshot s n), lastUpdatedHostId := host }) := by
  have hne : host.isEmpty = false := by simpa using hhost
  simp [applySnapshot, hne]

/-- The state the sink holds for a host after the delta from `B` to `T`. -/
def deltaResult (st : HostMaterializedState) (B T : Snapshot) (m : UInt64) :
    HostMaterializedState :=
  { (editState st (compute B T)).2 with lastSnapshotId := T.snapshotId, lastSequence := m }

theorem applyDelta_tracked {sink : MaterializerSink} {host : Str} {st : HostMaterializedState}
    {B T : Snapshot} {m : UInt64} (hB : Keyed B) (hT : Keyed T) (hhost : host ≠ [])
    (hst : sink.states.lookup host = some st) (hid : st.lastSnapshotId = B.snapshotId)
    (h : Tracks st B) :
    sink.applyDelta host m (compute B T) = (.success,
      { states := sink.states.insert host (deltaResult st B T m)
        lastUpdatedHostId := host }) := by
  have hne : host.isEmpty = false := by simpa using hhost
  have hbase : st.lastSnapshotId = (compute B T).baseSnapshotId := hid
  have hres : resolveHost sink host (compute B T) = some (host, st) := by
    simp [resolveHost, hne, hst]
  have hok := (editState_spec hB hT h).1
  rw [applyDelta, hres]
  simp only [hbase, ne_eq, not_true_eq_false, if_false, hok, Status.ok_success, if_true]
  rfl

theorem Tracks.deltaResult {st : HostMaterializedState} {B T : Snapshot} (hB : Keyed B)
    (hT : Keyed T) (h : Tracks st B)
    (hclob : ∀ t ∈ T.entries, ¬ Clobbered B T t.normalizedPath) (m : UInt64) :
    Tracks (deltaResult st B T m) T :=
  have h' := h.editState hB hT hclob
  ⟨h'.holds, h'.only, h'.idAt⟩

/-! ## One delta -/

/-- `apply_snapshot(B)`, then `apply_delta` of the delta computed from `B` to `T`. -/
def replayDelta (sink : MaterializerSink) (n m : UInt64) (B T : Snapshot) :
    Status × MaterializerSink :=
  (sink.applySnapshot B.hostIdentifier n B).2.applyDelta B.hostIdentifier m (compute B T)

/-- The delta is accepted, and the entries of the host are then those that
`build_from_snapshot(T)` produces. -/
def Reconstructs (sink : MaterializerSink) (n m : UInt64) (B T : Snapshot) : Prop :=
  (replayDelta sink n m B T).1.ok = true ∧
    ((replayDelta sink n m B T).2.states.lookup B.hostIdentifier).map entriesById =
      some (buildFromSnapshot T m).entriesById

theorem replayDelta_eq {B T : Snapshot} (hB : Keyed B) (hT : Keyed T)
    (hhost : B.hostIdentifier ≠ []) (sink : MaterializerSink) (n m : UInt64) :
    replayDelta sink n m B T = (.success,
      { states := (sink.states.insert B.hostIdentifier (buildFromSnapshot B n)).insert
          B.hostIdentifier (deltaResult (buildFromSnapshot B n) B T m)
        lastUpdatedHostId := B.hostIdentifier }) := by
  rw [replayDelta, applySnapshot_ok hhost]
  exact applyDelta_tracked hB hT hhost (AList.lookup_insert _)
    (buildFromSnapshot_lastSnapshotId B n) (tracks_buildFromSnapshot hB n)

instance {sink : MaterializerSink} {n m : UInt64} {B T : Snapshot} :
    Decidable (Reconstructs sink n m B T) := by
  unfold Reconstructs; infer_instance

instance {B T : Snapshot} : Decidable (Replayable B T) :=
  decidable_of_iff
    ((∀ b ∈ B.entries, ∀ t ∈ T.entries, Continues B T b t → b.type = t.type) ∧
      (∀ b ∈ B.entries, ∀ t ∈ T.entries, Paired B T b t → b.metadata = t.metadata) ∧
      (∀ b ∈ B.entries, ∀ t ∈ T.entries, b.id = t.id →
        b.normalizedPath = t.normalizedPath → b.name = t.name ∧ b.parentId = t.parentId) ∧
      (∀ b ∈ B.entries, ∀ t ∈ T.entries, Moves B T b t →
        t.name = Path.filename t.normalizedPath ∧ t.parentId = parentAfter B T t.normalizedPath))
    ⟨fun ⟨h₁, h₂, h₃, h₄⟩ => ⟨h₁, h₂, h₃, h₄⟩, fun h => ⟨h.type, h.metadata, h.stays, h.moves⟩⟩

theorem replayable_iff_carried {B T : Snapshot} :
    Replayable B T ↔ ∀ b t, Continues B T b t → carried B T b t b = t := by
  constructor
  · intro h b t hc
    exact (carried_eq_iff hc).mpr ⟨h.type b hc.base t hc.target hc,
      h.metadata b hc.base t hc.target, h.stays b hc.base t hc.target,
      h.moves b hc.base t hc.target⟩
  · intro h
    exact
      { type := fun b _ t _ hc => ((carried_eq_iff hc).mp (h b t hc)).1
        metadata := fun b _ t _ hp =>
          ((carried_eq_iff hp.continues).mp (h b t hp.continues)).2.1 hp
        stays := fun b hb t ht hid hpath =>
          have hc : Continues B T b t := ⟨hb, ht, .inl hid⟩
          ((carried_eq_iff hc).mp (h b t hc)).2.2.1 hid hpath
        moves := fun b _ t _ hm =>
          ((carried_eq_iff hm.continues).mp (h b t hm.continues)).2.2.2 hm }

/-- The sink reconstructs the target exactly when the relation between the two
snapshots allows it, whatever the sink held before. -/
theorem reconstructs_iff {B T : Snapshot} (hB : snapshotErrors B = false)
    (hT : snapshotErrors T = false) (sink : MaterializerSink) (n m : UInt64) :
    Reconstructs sink n m B T ↔ Replayable B T := by
  have hkB := keyed_of_snapshotErrors hB
  have hkT := keyed_of_snapshotErrors hT
  have hhost := host_ne_of_snapshotErrors hB
  have htrack : Tracks (buildFromSnapshot B n) B := tracks_buildFromSnapshot hkB n
  obtain ⟨-, hnew, hcont, hgone, -⟩ := editState_spec hkB hkT htrack
  have hsource : ∀ b ∈ B.entries, (buildFromSnapshot B n).entry b.id = some b := fun b hb => by
    rw [entry_buildFromSnapshot _ hkB.ids, entryWith_of_mem hkB.ids hb]
  have htarget : ∀ t ∈ T.entries, (buildFromSnapshot T m).entry t.id = some t := fun t ht => by
    rw [entry_buildFromSnapshot _ hkT.ids, entryWith_of_mem hkT.ids ht]
  rw [Reconstructs, replayDelta_eq hkB hkT hhost, replayable_iff_carried]
  simp only [Status.ok_success, true_and, AList.lookup_insert, Option.map_some, Option.some.injEq]
  constructor
  · intro heq b t hc
    have hleft := hcont b t b hc (hsource b hc.base)
    have hright := htarget t hc.target
    rw [entry, ← heq] at hright
    exact Option.some.inj (hleft.symm.trans hright)
  · intro h
    refine Finmap.ext_lookup fun i => ?_
    by_cases hi : ∃ t ∈ T.entries, t.id = i
    · obtain ⟨t, ht, rfl⟩ := hi
      refine Eq.trans ?_ (htarget t ht).symm
      by_cases hc : ∃ b, Continues B T b t
      · obtain ⟨b, hc⟩ := hc
        exact (hcont b t b hc (hsource b hc.base)).trans (congrArg some (h b t hc))
      · exact hnew t ht fun b hb => hc ⟨b, hb⟩
    · have hi' : ∀ t ∈ T.entries, t.id ≠ i := fun t ht hid => hi ⟨t, ht, hid⟩
      refine (hgone i hi').trans (Eq.symm ?_)
      exact (entry_buildFromSnapshot _ hkT.ids).trans (entryWith_eq_none.mpr hi')

/-! ## A run of deltas -/

/-- The states of the sink along a run: the one it starts from, and the one
after each delta, as long as the deltas are accepted. -/
def statesReached (host : Str) : MaterializerSink → Snapshot → List (UInt64 × Snapshot) →
    List MaterializerSink
  | sink, _, [] => [sink]
  | sink, s, (m, s') :: rest =>
      let r := sink.applyDelta host m (compute s s')
      if r.1.ok then sink :: statesReached host r.2 s' rest else [sink]

theorem mem_statesReached_self (host : Str) (sink : MaterializerSink) (s : Snapshot)
    (rest : List (UInt64 × Snapshot)) : sink ∈ statesReached host sink s rest := by
  cases rest with
  | nil => exact List.mem_singleton_self _
  | cons x rest => rw [statesReached]; split <;> exact List.mem_cons_self

/-- `id_by_path` and `entries_by_id` of the host are mutually inverse. -/
def IndexesAgree (host : Str) (sink : MaterializerSink) : Prop :=
  ∀ st, sink.states.lookup host = some st →
    Index.MutuallyInverse FileEntry.id FileEntry.normalizedPath st.entry st.idAt

/-- No path of the later snapshot is lost by the renames. -/
def KeepsPaths (s s' : Snapshot) : Prop := ∀ t ∈ s'.entries, ¬ Clobbered s s' t.normalizedPath

instance {s s' : Snapshot} : Decidable (KeepsPaths s s') := by
  unfold KeepsPaths; infer_instance

theorem Tracks.mutuallyInverse {st : HostMaterializedState} {s : Snapshot} (hs : Keyed s)
    (h : Tracks st s) :
    Index.MutuallyInverse FileEntry.id FileEntry.normalizedPath st.entry st.idAt := by
  refine ⟨fun i e he => ?_, fun p i hp => ?_⟩
  · by_cases hi : ∃ x ∈ s.entries, x.id = i
    · obtain ⟨x, hx, rfl⟩ := hi
      obtain ⟨y, hy, hid, hpath⟩ := h.holds x hx
      obtain rfl : e = y := Option.some.inj (he.symm.trans hy)
      rw [h.idAt, hpath, entryAt_of_mem hs.paths hx, Option.map_some, hid]
    · have hnone := h.only i fun x hx hid => hi ⟨x, hx, hid⟩
      exact absurd (he.symm.trans hnone) (by simp)
  · rw [h.idAt, Option.map_eq_some_iff] at hp
    obtain ⟨x, hx, rfl⟩ := hp
    obtain ⟨hmem, hpath⟩ := mem_of_entryAt hx
    obtain ⟨y, hy, -, hy'⟩ := h.holds x hmem
    exact ⟨y, hy, hy'.trans hpath⟩

/-- One step: the indexes agree afterwards exactly if no path is lost. -/
theorem mutuallyInverse_deltaResult_iff {st : HostMaterializedState} {B T : Snapshot}
    {m : UInt64} (hB : Keyed B) (hT : Keyed T) (h : Tracks st B) :
    Index.MutuallyInverse FileEntry.id FileEntry.normalizedPath (deltaResult st B T m).entry
      (deltaResult st B T m).idAt ↔ KeepsPaths B T := by
  constructor
  · intro hinv t ht hclob
    obtain ⟨-, -, -, -, hidx⟩ := editState_spec hB hT h
    -- the entry is still there, under the path that is lost
    obtain ⟨e, he, hid, hpath⟩ := editState_holds hB hT h ht
    have hforward := hinv.forward t.id e he
    rw [hpath] at hforward
    have hnone : (editState st (compute B T)).2.idAt t.normalizedPath = none := by
      rw [hidx, indexAfter, if_pos hclob]
    exact absurd (hforward.symm.trans hnone) (by simp)
  · intro hkeep
    exact (h.deltaResult hB hT hkeep m).mutuallyInverse hT

/-- The same along a run: from a host that tracks `s`, the indexes agree in
every state reached exactly if every two snapshots in turn keep their paths. -/
theorem indexesAgree_statesReached_iff {host : Str} (hhost : host ≠ []) :
    ∀ {rest : List (UInt64 × Snapshot)} {s : Snapshot} {sink : MaterializerSink}
      {st : HostMaterializedState}, Keyed s → (∀ x ∈ rest, Keyed x.2) →
      sink.states.lookup host = some st → st.lastSnapshotId = s.snapshotId → Tracks st s →
        ((∀ sink' ∈ statesReached host sink s rest, IndexesAgree host sink') ↔
          (s :: rest.map Prod.snd).IsChain KeepsPaths)
  | [], s, sink, st, hs, _, hst, _, h => by
      have hhere : IndexesAgree host sink := fun st' hst' => by
        obtain rfl := Option.some.inj (hst.symm.trans hst')
        exact h.mutuallyInverse hs
      simp [statesReached, hhere]
  | (m, s') :: rest, s, sink, st, hs, hrest, hst, hid, h => by
      obtain ⟨hs', hrest⟩ := List.forall_mem_cons.mp hrest
      have hhere : IndexesAgree host sink := fun st' hst' => by
        obtain rfl := Option.some.inj (hst.symm.trans hst')
        exact h.mutuallyInverse hs
      have happly := applyDelta_tracked (m := m) hs hs' hhost hst hid h
      have hnext : (sink.states.insert host (deltaResult st s s' m)).lookup host =
          some (deltaResult st s s' m) := AList.lookup_insert _
      simp only [statesReached, happly, Status.ok_success, if_true, List.forall_mem_cons, hhere,
        true_and, List.map_cons, List.isChain_cons_cons]
      by_cases hkeep : KeepsPaths s s'
      · rw [indexesAgree_statesReached_iff hhost hs' hrest hnext rfl
          (h.deltaResult hs hs' hkeep m)]
        exact ⟨fun hchain => ⟨hkeep, hchain⟩, fun hchain => hchain.2⟩
      · -- the first state after the step already breaks the invariant
        refine iff_of_false (fun hall => hkeep ?_) fun hchain => hkeep hchain.1
        exact (mutuallyInverse_deltaResult_iff hs hs' h).mp
          (hall _ (mem_statesReached_self _ _ _ _) _ hnext)

theorem indexesAgree_from_snapshot_iff {s : Snapshot} {rest : List (UInt64 × Snapshot)}
    (hs : Keyed s) (hhost : s.hostIdentifier ≠ []) (hrest : ∀ x ∈ rest, Keyed x.2)
    (sink : MaterializerSink) (n : UInt64) :
    (∀ sink' ∈ statesReached s.hostIdentifier (sink.applySnapshot s.hostIdentifier n s).2 s rest,
        IndexesAgree s.hostIdentifier sink') ↔
      (s :: rest.map Prod.snd).IsChain KeepsPaths := by
  rw [applySnapshot_ok hhost]
  exact indexesAgree_statesReached_iff hhost hs hrest (AList.lookup_insert _)
    (buildFromSnapshot_lastSnapshotId s n) (tracks_buildFromSnapshot hs n)

/-- After a first snapshot, whatever the sink held before, the indexes agree in
every state reached exactly if every two snapshots in turn keep their paths. -/
theorem indexesAgree_run_iff {s : Snapshot} {rest : List (UInt64 × Snapshot)}
    (hs : snapshotErrors s = false) (hrest : ∀ x ∈ rest, snapshotErrors x.2 = false)
    (sink : MaterializerSink) (n : UInt64) :
    (∀ sink' ∈ statesReached s.hostIdentifier (sink.applySnapshot s.hostIdentifier n s).2 s rest,
        IndexesAgree s.hostIdentifier sink') ↔
      (s :: rest.map Prod.snd).IsChain KeepsPaths :=
  indexesAgree_from_snapshot_iff (keyed_of_snapshotErrors hs) (host_ne_of_snapshotErrors hs)
    (fun x hx => keyed_of_snapshotErrors (hrest x hx)) sink n

/-! ## Three trees -/

/-- One raw entry of a scan: everything made at time 5 on device 1. -/
def scanned (path : String) (type : EntryType) (fileId sizeBytes : UInt64) : RawEntry :=
  { normalizedPath := str path
    parentPath := Path.parentPath (str path)
    name := Path.filename (str path)
    type := type
    metadata :=
      { sizeBytes := sizeBytes, createdAt := 5, modifiedAt := 5, accessedAt := 5
        permissions := 0o644, fileId := fileId, deviceId := 1 } }

/-- The same after a move: the change time is later. -/
def afterMove (entry : RawEntry) : RawEntry :=
  { entry with metadata := { entry.metadata with createdAt := 15 } }

/-- The snapshot built of a scan of `/r` on host `h`. -/
def snapshotOf (scannedAt : UnixTimestamp) (entries : List RawEntry) : Snapshot :=
  ((SnapshotBuilder.build
    { hostIdentifier := str "h", rootPath := str "/r", scannedAt := scannedAt
      entries := scanned "/r" .directory 2 0 :: entries }).map BuildResult.snapshot).getD {}

/-- `/r/d/x`. -/
def treeBefore : Snapshot :=
  snapshotOf 10 [scanned "/r/d" .directory 3 0, scanned "/r/d/x" .file 4 7]

/-- The file has grown. -/
def treeGrown : Snapshot :=
  snapshotOf 20 [scanned "/r/d" .directory 3 0, scanned "/r/d/x" .file 4 9]

/-- `/r/d` was moved aside, made anew, and the file moved back into it. -/
def treeRecreated : Snapshot :=
  snapshotOf 20 [scanned "/r/d" .directory 5 64, afterMove (scanned "/r/d/x" .file 4 7)]

/-- `/r/d` was moved to `/r/e`, and a new directory made in its place. -/
def treeRotated : Snapshot :=
  snapshotOf 20 [scanned "/r/d" .directory 5 64, afterMove (scanned "/r/e" .directory 3 0),
    scanned "/r/e/x" .file 4 7]

theorem reconstructs_grown : Reconstructs {} 1 2 treeBefore treeGrown :=
  (reconstructs_iff (by decide +kernel) (by decide +kernel) {} 1 2).mpr (by decide +kernel)

/-- The unchanged file keeps the id of the old directory as its parent. -/
theorem not_reconstructs_recreated :
    snapshotErrors treeBefore = false ∧ snapshotErrors treeRecreated = false ∧
      treeBefore.hostIdentifier = treeRecreated.hostIdentifier ∧
      (replayDelta {} 1 2 treeBefore treeRecreated).1 = .success ∧
      ¬ Reconstructs {} 1 2 treeBefore treeRecreated := by
  decide +kernel

theorem indexesAgree_grown :
    [treeBefore, treeGrown].IsChain KeepsPaths ∧
      ∀ sink' ∈ statesReached treeBefore.hostIdentifier
          (({} : MaterializerSink).applySnapshot treeBefore.hostIdentifier 1 treeBefore).2
          treeBefore [(2, treeGrown)],
        IndexesAgree treeBefore.hostIdentifier sink' := by
  have hrest : ∀ x ∈ [((2 : UInt64), treeGrown)], snapshotErrors x.2 = false := by decide +kernel
  have hkeep : [treeBefore, treeGrown].IsChain KeepsPaths := by decide +kernel
  exact ⟨hkeep, (indexesAgree_run_iff (by decide +kernel) hrest {} 1).mpr hkeep⟩

/-- The new `/r/d` is set first; the rename of the old one then drops the path. -/
theorem not_indexesAgree_rotated :
    snapshotErrors treeBefore = false ∧ snapshotErrors treeRotated = false ∧
      ¬ ∀ sink' ∈ statesReached treeBefore.hostIdentifier
          (({} : MaterializerSink).applySnapshot treeBefore.hostIdentifier 1 treeBefore).2
          treeBefore [(2, treeRotated)],
        IndexesAgree treeBefore.hostIdentifier sink' := by
  have hB : snapshotErrors treeBefore = false := by decide +kernel
  have hT : snapshotErrors treeRotated = false := by decide +kernel
  have hchain : ¬ [treeBefore, treeRotated].IsChain KeepsPaths := by decide +kernel
  have hkT : ∀ x ∈ [((2 : UInt64), treeRotated)], Keyed x.2 := fun x hx => by
    rw [List.mem_singleton.mp hx]
    exact keyed_of_snapshotErrors hT
  refine ⟨hB, hT, fun hall => hchain ?_⟩
  exact (indexesAgree_from_snapshot_iff (keyed_of_snapshotErrors hB)
    (host_ne_of_snapshotErrors hB) hkT {} 1).mp hall

end ServerStorage.Hugin
