/-
# `ServerStorage.Hugin.CaptureReplay` — the records of a run, delivered in order

The snapshot of an update stands before its delta, so when the delta comes the sink is at
the delta's target already, and looks for its base in vain; a delta that leads from an id
to itself is the one exception.
-/
import ServerStorage.Hugin.CaptureRuns
import ServerStorage.Hugin.Reconstruct

namespace ServerStorage.Hugin

open Lib Lmdb Crud ServerStorage.Muninn Dbi LmdbStore DeltaEngine HostMaterializedState
  MaterializerSink

/-! ## A delta on its own target -/

/-- Every id of the snapshot has an entry. -/
def Has (T : Snapshot) (st : HostMaterializedState) : Prop :=
  ∀ t ∈ T.entries, (st.entry t.id).isSome

section
variable {B T : Snapshot} {st : HostMaterializedState}

theorem has_buildFromSnapshot (hT : Keyed T) (n : UInt64) : Has T (buildFromSnapshot T n) := by
  intro t ht
  rw [entry_buildFromSnapshot _ hT.ids, entryWith_of_mem hT.ids ht]
  rfl

theorem Has.removed (hB : Keyed B) (hT : Keyed T) (h : Has T st) :
    Has T ((compute B T).removedEntries.foldl removeEntry st) := by
  intro t ht
  rw [entry_foldl_removeEntry, if_neg]
  · exact h t ht
  · rintro ⟨b, hb, hid⟩
    obtain ⟨hbB, hnone⟩ := (mem_removedEntries hB hT).mp hb
    exact hnone t ⟨hbB, ht, .inl hid⟩

theorem Has.added : ∀ (l : List FileEntry) {st : HostMaterializedState}, Has T st →
    Has T (l.foldl indexEntry st)
  | [], _, h => h
  | e :: l, st, h => by
      refine Has.added l fun t ht => ?_
      rw [entry_indexEntry]
      split
      · rfl
      · exact h t ht

theorem Has.modified (hB : Keyed B) (hT : Keyed T) (h : Has T st) :
    (modifiedLoop st (compute B T).modifiedEntries).2 = true ∧
      Has T (modifiedLoop st (compute B T).modifiedEntries).1 := by
  have hsome : ∀ m ∈ (compute B T).modifiedEntries, (st.entry m.entryId).isSome := by
    intro m hm
    obtain ⟨b, -, t, ht, -, -, rfl⟩ := (mem_modifiedEntries hT).mp hm
    exact h t ht
  obtain ⟨hok, hentry, -⟩ := modifiedLoop_spec (modifiedEntries_nodup hB hT) hsome
  refine ⟨hok, fun t ht => ?_⟩
  rw [hentry, Option.isSome_map]
  exact h t ht

/-- What the renames of a delta are, for the ids of its target. -/
structure LeadsInto (T : Snapshot) (r : RenamedEntry) : Prop where
  after : ∃ t ∈ T.entries, t.id = r.afterEntryId
  before : r.beforeEntryId = r.afterEntryId ∨ ∀ t ∈ T.entries, t.id ≠ r.beforeEntryId

theorem leadsInto_of_moves {b t : FileEntry} (h : Moves B T b t) :
    LeadsInto T (toRenamed (b, t)) := by
  refine ⟨⟨t, h.continues.target, rfl⟩, ?_⟩
  rcases h.continues.link with hid | hpaired
  · exact .inl hid
  · exact .inr (mem_onlyIn.mp hpaired.vanished).2

theorem Has.renamed : ∀ {l : List RenamedEntry} {st : HostMaterializedState},
    (∀ r ∈ l, LeadsInto T r) → Has T st →
      (renamedLoop st l).2 = true ∧ Has T (renamedLoop st l).1
  | [], _, _, h => ⟨rfl, h⟩
  | r :: l, st, hl, h => by
      obtain ⟨hr, hl⟩ := List.forall_mem_cons.mp hl
      have hsource : ∃ e, renameSource st r = some e := by
        rw [renameSource]
        cases hbefore : st.entriesById.lookup r.beforeEntryId with
        | some e => exact ⟨e, rfl⟩
        | none =>
            obtain ⟨t, ht, hid⟩ := hr.after
            obtain ⟨e, he⟩ := Option.isSome_iff_exists.mp (h t ht)
            exact ⟨e, hid ▸ he⟩
      obtain ⟨e, he⟩ := hsource
      rw [renamedLoop, he]
      refine Has.renamed hl fun t ht => ?_
      rw [entry_renameEntry]
      split
      · rfl
      next hne =>
        rw [if_neg]
        · exact h t ht
        · intro hid
          rcases hr.before with heq | hnone
          · exact hne (hid.trans heq)
          · exact hnone t ht hid

/-- The edits of a delta succeed on a state that is at its target. -/
theorem editState_ok_of_has (hB : Keyed B) (hT : Keyed T) (h : Has T st) :
    (editState st (compute B T)).1 = .success := by
  have hadded := Has.added (compute B T).addedEntries (h.removed hB hT)
  obtain ⟨hmodified, hhas⟩ := hadded.modified hB hT
  have hleads : ∀ r ∈ (compute B T).renamedEntries, LeadsInto T r := by
    intro r hr
    obtain ⟨b, t, hmoves, rfl⟩ := (mem_renamedEntries hB hT).mp hr
    exact leadsInto_of_moves hmoves
  obtain ⟨hrenamed, hhas'⟩ := Has.renamed hleads hhas
  have hsome : ∀ r ∈ (compute B T).renamedEntries,
      ((renamedLoop (afterEdits st (compute B T)) (compute B T).renamedEntries).1.entry
        r.afterEntryId).isSome := by
    intro r hr
    obtain ⟨t, ht, hid⟩ := (hleads r hr).after
    exact hid ▸ hhas' t ht
  rw [editState_of_ok hmodified hrenamed (reparentLoop_spec hsome).1]

end

/-! ## A sink with one host -/

/-- The status of the call that a record leads to. -/
def statusOf (sink : MaterializerSink) (record : TransportRecordMessage) : Option Status :=
  match frameOf record with
  | none => none
  | some frame =>
      match validateAndDecode frame [] with
      | .error _ => none
      | .ok validated => some (applyValidated sink record.sequence validated).1

/-- Every call the records lead to succeeds. -/
def allSucceed : MaterializerSink → List TransportRecordMessage → Bool
  | _, [] => true
  | sink, record :: rest =>
      (statusOf sink record).all Status.ok && allSucceed (onRecord sink record) rest

/-- The sink knows the host at most. -/
def Solo (host : Str) (sink : MaterializerSink) : Prop :=
  sink.states.entries = [] ∨ ∃ st, sink.states.entries = [⟨host, st⟩]

theorem Solo.insert {host : Str} {sink : MaterializerSink} (h : Solo host sink)
    (st : HostMaterializedState) : (sink.states.insert host st).entries = [⟨host, st⟩] := by
  rw [AList.entries_insert]
  rcases h with hnil | ⟨st', hone⟩
  · rw [hnil]
    rfl
  · rw [hone]
    exact congrArg (_ :: ·) (List.kerase_cons_eq rfl)

/-- A record that carries an item leads to the item's call. -/
theorem Carries.turn {item : Captured} {record : TransportRecord} (h : Carries item record)
    (hvalid : item.Valid) (sink : MaterializerSink) : ∃ frame,
      statusOf sink (CrudCommandProcessor.toMessage record) =
        some (applyValidated sink record.sequence (item.validated frame)).1 ∧
      onRecord sink (CrudCommandProcessor.toMessage record) =
        (applyValidated sink record.sequence (item.validated frame)).2 := by
  obtain ⟨payload, hpayload, hrecord⟩ := h
  have hdecoded := @Captured.decoded item record.sequence record.createdAt payload hvalid hpayload
  rw [← hrecord] at hdecoded
  obtain ⟨frame, hframe, -, -, hdecode⟩ := hdecoded
  refine ⟨frame, ?_, ?_⟩
  · rw [statusOf, hframe]
    dsimp only
    rw [hdecode]
    rfl
  · rw [onRecord, hframe]
    dsimp only
    rw [hdecode]
    rfl

/-! ## The groups of a run, delivered -/

section
variable {host : Str} {sink : MaterializerSink} {sequence : UInt64} {base target : Snapshot}

/-- The sink with the host at a snapshot. -/
def At (host : Str) (sink : MaterializerSink) (sequence : UInt64) (target : Snapshot) : Prop :=
  sink.states.entries = [⟨host, buildFromSnapshot target sequence⟩]

theorem snapshot_delivered (h : Solo host sink) (hvalid : snapshotErrors target = false)
    (hhost : target.hostIdentifier = host) (frame : MuninnFrame) :
    (applyValidated sink sequence ((Captured.snapshot target).validated frame)).1 = .success ∧
      At host (applyValidated sink sequence ((Captured.snapshot target).validated frame)).2
        sequence target := by
  have hne := host_ne_of_snapshotErrors hvalid
  have happly : applyValidated sink sequence ((Captured.snapshot target).validated frame) =
      sink.applySnapshot target.hostIdentifier sequence target := rfl
  rw [happly, applySnapshot_ok hne, hhost]
  exact ⟨rfl, h.insert _⟩

theorem resolveHost_at (h : At host sink sequence target) (delta : DeltaSnapshot) :
    resolveHost sink [] delta =
      if target.snapshotId = delta.baseSnapshotId then
        some (host, buildFromSnapshot target sequence)
      else none := by
  have hnone : resolveHost sink [] delta = (sink.states.entries.find? fun h =>
      h.2.lastSnapshotId = delta.baseSnapshotId).map fun h => (h.1, h.2) := rfl
  rw [hnone, h, List.find?_cons, buildFromSnapshot_lastSnapshotId]
  by_cases hid : target.snapshotId = delta.baseSnapshotId
  · rw [decide_eq_true hid, if_pos hid]
    rfl
  · rw [decide_eq_false hid, if_neg hid]
    rfl

/-- On its target a delta succeeds when it leads from an id to itself, and fails otherwise. -/
theorem delta_delivered (h : At host sink sequence target) (hB : Keyed base) (hT : Keyed target)
    (sequence' : UInt64) (frame : MuninnFrame) :
    ((applyValidated sink sequence' ((Captured.delta (compute base target)).validated frame)).1.ok =
        true ↔ base.snapshotId = target.snapshotId) ∧
      Solo host
        (applyValidated sink sequence' ((Captured.delta (compute base target)).validated frame)).2 := by
  have happly : applyValidated sink sequence' ((Captured.delta (compute base target)).validated
      frame) = sink.applyDelta [] sequence' (compute base target) := rfl
  have hbase : (compute base target).baseSnapshotId = base.snapshotId := rfl
  have hsolo : Solo host sink := .inr ⟨_, h⟩
  rw [happly, applyDelta, resolveHost_at h, hbase]
  by_cases hid : target.snapshotId = base.snapshotId
  · have hlast : ¬ (buildFromSnapshot target sequence).lastSnapshotId ≠ base.snapshotId :=
      not_not.mpr ((buildFromSnapshot_lastSnapshotId target sequence).trans hid)
    have hok := editState_ok_of_has hB hT (has_buildFromSnapshot hT sequence)
    rw [if_pos hid]
    dsimp only
    rw [if_neg hlast, hok, if_pos Status.ok_success]
    exact ⟨iff_of_true rfl hid.symm, .inr ⟨_, hsolo.insert _⟩⟩
  · rw [if_neg hid]
    exact ⟨iff_of_false Bool.false_ne_true fun heq => hid heq.symm, hsolo⟩

end

theorem allSucceed_cons {item : Captured} {record : TransportRecord}
    {sink : MaterializerSink} (h : Carries item record) (hvalid : item.Valid) :
    ∃ frame, ∀ rest, allSucceed sink (CrudCommandProcessor.toMessage record :: rest) =
      ((applyValidated sink record.sequence (item.validated frame)).1.ok &&
        allSucceed (applyValidated sink record.sequence (item.validated frame)).2 rest) := by
  obtain ⟨frame, hstatus, hnext⟩ := h.turn hvalid sink
  refine ⟨frame, fun rest => ?_⟩
  rw [allSucceed, hstatus, hnext]
  rfl

/-- The records of sound groups are all applied exactly when the groups are harmless. -/
theorem allSucceed_groups {host : Str} : ∀ {groups : List Group} {records : List TransportRecord}
    {sink : MaterializerSink}, (∀ g ∈ groups, g.Sound host) →
      List.Forall₂ Carries (groups.flatMap Group.items) records → Solo host sink →
        (allSucceed sink (records.map CrudCommandProcessor.toMessage) = true ↔
          ∀ g ∈ groups, g.Harmless)
  | [], _, _, _, hcarries, _ => by
      cases hcarries
      exact iff_of_true rfl fun _ hg => absurd hg List.not_mem_nil
  | .full target :: groups, _, sink, hsound, hcarries, hsolo => by
      obtain ⟨hg, hrest⟩ := List.forall_mem_cons.mp hsound
      have htarget : snapshotErrors target = false := hg.target
      have hhost : target.hostIdentifier = host := hg.host
      cases hcarries with
      | cons hrecord hcarries =>
          obtain ⟨frame, hall⟩ := @allSucceed_cons (.snapshot target) _ sink hrecord htarget
          obtain ⟨hok, hat⟩ := snapshot_delivered hsolo htarget hhost frame
          rw [List.map_cons, hall, hok, List.forall_mem_cons,
            ← allSucceed_groups hrest hcarries (.inr ⟨_, hat⟩)]
          exact ⟨fun h => ⟨trivial, h⟩, And.right⟩
  | .update base target :: groups, _, sink, hsound, hcarries, hsolo => by
      obtain ⟨hg, hrest⟩ := List.forall_mem_cons.mp hsound
      obtain ⟨hbase, hdelta⟩ := hg.base base target rfl
      have htarget : snapshotErrors target = false := hg.target
      have hhost : target.hostIdentifier = host := hg.host
      cases hcarries with
      | cons hrecord hcarries =>
      cases hcarries with
      | cons hrecord' hcarries =>
          obtain ⟨frame, hall⟩ := @allSucceed_cons (.snapshot target) _ sink hrecord htarget
          obtain ⟨hok, hat⟩ := snapshot_delivered hsolo htarget hhost frame
          obtain ⟨frame', hall'⟩ := @allSucceed_cons (.delta (compute base target)) _
            (applyValidated sink _ ((Captured.snapshot target).validated frame)).2 hrecord'
            ⟨some base, some target, hdelta⟩
          obtain ⟨hiff, hsolo'⟩ := delta_delivered hat (keyed_of_snapshotErrors hbase)
            (keyed_of_snapshotErrors htarget) _ frame'
          rw [List.map_cons, hall, hok, List.map_cons, hall', List.forall_mem_cons,
            ← allSucceed_groups hrest hcarries hsolo', Status.ok_success, Bool.true_and,
            Bool.and_eq_true, hiff]
          exact Iff.rfl

/-! ## The result -/

/-- The outbox of every run of captures of one host can be read; and delivering it to a new
sink, in its order, makes every call succeed exactly when no capture of the run stores a
delta between two ids. -/
theorem captures_replay_iff {host : Str} {store : LmdbStore}
    (hempty : (store.env.db transportDbi).entries = []) {captures : List CaptureCommand}
    (hhost : ∀ c ∈ captures, c.rawScan.hostIdentifier = host)
    (hroom : (nextSequenceOf store.env).toNat + 2 * captures.length < 2 ^ 64) :
    ∃ records, OutboxHolds (runCaptures store captures).env records ∧
      (allSucceed {} (records.map CrudCommandProcessor.toMessage) = true ↔
        HarmlessRun store captures) := by
  obtain ⟨groups, hqueued, hsound, hharmless⟩ :=
    runCaptures_groups (queued_empty hempty) hhost hroom
  obtain ⟨records, hholds, hcarries⟩ := hqueued.records
  refine ⟨records, hholds, ?_⟩
  rw [hharmless]
  exact allSucceed_groups hsound hcarries (.inl rfl)

/-! ### A full capture, and an update of it -/

def fullTwice : List CaptureCommand := [.create (scanOfSize 10 7) {}, .create (scanOfSize 20 9) {}]

theorem captures_replay_iff_full :
    ∃ records, OutboxHolds (runCaptures storeOpened fullTwice).env records ∧
      (allSucceed {} (records.map CrudCommandProcessor.toMessage) = true ↔
        HarmlessRun storeOpened fullTwice) :=
  captures_replay_iff (by decide +kernel)
    (List.forall_mem_cons.mpr ⟨rfl, List.forall_mem_singleton.mpr rfl⟩) (by decide +kernel)

def updatedOnce : List CaptureCommand :=
  [.create (scanOfSize 10 7) {}, .update (scanOfSize 20 9) (idOf (scanOfSize 10 7)) {}]

/-- The run enqueues three records, and the third one, the delta, is refused. -/
theorem not_captures_replay :
    ∃ records, (runCaptures storeOpened updatedOnce).fetchTransportBatchForConsumer (str "c") 64 []
        = .ok (some records) ∧ records.map TransportRecord.sequence = [1, 2, 3] ∧
      allSucceed {} (records.map CrudCommandProcessor.toMessage) = false := by
  have hrefused : ((runCaptures storeOpened updatedOnce).fetchTransportBatchForConsumer
      (str "c") 64 []).toOption.any (fun found => found.any fun records =>
        records.map TransportRecord.sequence == [1, 2, 3] &&
          !allSucceed {} (records.map CrudCommandProcessor.toMessage)) = true := by
    decide +kernel
  cases h : (runCaptures storeOpened updatedOnce).fetchTransportBatchForConsumer
      (str "c") 64 [] with
  | error status =>
      rw [h] at hrefused
      exact absurd hrefused Bool.false_ne_true
  | ok found =>
      rw [h] at hrefused
      obtain ⟨records, hfound, hrefused⟩ :=
        (Option.any_eq_true _ _).mp (show found.any _ = true from hrefused)
      rw [hfound]
      obtain ⟨hsequences, hall⟩ := (Bool.and_eq_true _ _).mp hrefused
      exact ⟨records, rfl, beq_iff_eq.mp hsequences, (Bool.not_eq_true' _).mp hall⟩

end ServerStorage.Hugin
