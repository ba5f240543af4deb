/-
# `ServerStorage.Hugin.Materializer` — `sinks/materializer_sink.cpp`

The sink keeps, for every host, the entries of its last snapshot by id and an
index from path to id.  `applyDelta` edits both indexes in place, loop by loop,
and leaves by an early return when an id is missing; so each loop here returns
the state it has reached together with its verdict, and a failure keeps the
edits already made.

The inner tables are `unordered_map`s that are only ever looked up, inserted
into and erased from: `Finmap`.  The table of hosts is also iterated (the
fallback of `applyDelta`), so it is an `AList`, whose order is the iteration
order of the map.
-/
import ServerStorage.Muninn.DeltaEngine

namespace ServerStorage.Hugin

open Lib ServerStorage.Muninn

/-! ## `common/status.hpp` -/

inductive ErrorCode where
  | ok | invalidArgument | parseError | unsupportedVersion | storageError | validationError
  | duplicate | gap | notFound | internal
  deriving DecidableEq, Repr

structure Status where
  code : ErrorCode := .ok
  message : Str := []
  deriving DecidableEq, Repr

namespace Status

def ok (s : Status) : Bool := s.code == .ok
def success : Status := {}
def failure (code : ErrorCode) (text : String) : Status := { code := code, message := str text }

@[simp] theorem ok_success : success.ok = true := rfl

end Status

/-! ## The state of one host -/

structure HostMaterializedState where
  lastSequence : UInt64 := 0
  lastSnapshotId : UInt64 := 0
  hostIdentifier : Str := []
  entriesById : Finmap (fun _ : EntryId => FileEntry) := ∅
  idByPath : Finmap (fun _ : Str => EntryId) := ∅
  deriving DecidableEq

namespace HostMaterializedState

def indexEntry (state : HostMaterializedState) (entry : FileEntry) : HostMaterializedState :=
  { state with
    idByPath := state.idByPath.insert entry.normalizedPath entry.id
    entriesById := state.entriesById.insert entry.id entry }

def removeEntry (state : HostMaterializedState) (entry : FileEntry) : HostMaterializedState :=
  { state with
    idByPath := state.idByPath.erase entry.normalizedPath
    entriesById := state.entriesById.erase entry.id }

end HostMaterializedState

open HostMaterializedState

def buildFromSnapshot (snapshot : Snapshot) (sequence : UInt64) : HostMaterializedState :=
  snapshot.entries.foldl indexEntry
    { lastSequence := sequence
      lastSnapshotId := snapshot.snapshotId
      hostIdentifier := snapshot.hostIdentifier }

/-! ## The loops of `apply_delta` -/

/-- The loop over `modified_entries`: `false` is the early return. -/
def modifiedLoop : HostMaterializedState → List ModifiedEntry → HostMaterializedState × Bool
  | state, [] => (state, true)
  | state, modified :: rest =>
      match state.entriesById.lookup modified.entryId with
      | none => (state, false)
      | some entry =>
          modifiedLoop
            { state with
              entriesById := state.entriesById.insert modified.entryId
                { entry with metadata := modified.after } }
            rest

/-- One rename of the first `renamed_entries` loop, with `entry` the entry found
under the old id, or else under the new one. -/
def renameEntry (state : HostMaterializedState) (renamed : RenamedEntry) (entry : FileEntry) :
    HostMaterializedState :=
  let normalizedNewPath := Path.lexicallyNormal renamed.newPath
  let renamedEntry :=
    { entry with id := renamed.afterEntryId, normalizedPath := normalizedNewPath }
  let moved := state.entriesById.insert renamed.afterEntryId renamedEntry
  { state with
    entriesById :=
      if renamed.afterEntryId ≠ renamed.beforeEntryId then moved.erase renamed.beforeEntryId
      else moved
    idByPath :=
      (state.idByPath.erase entry.normalizedPath).insert normalizedNewPath renamed.afterEntryId }

/-- The entry a rename starts from. -/
def renameSource (state : HostMaterializedState) (renamed : RenamedEntry) : Option FileEntry :=
  match state.entriesById.lookup renamed.beforeEntryId with
  | some entry => some entry
  | none => state.entriesById.lookup renamed.afterEntryId

def renamedLoop : HostMaterializedState → List RenamedEntry → HostMaterializedState × Bool
  | state, [] => (state, true)
  | state, renamed :: rest =>
      match renameSource state renamed with
      | none => (state, false)
      | some entry => renamedLoop (renameEntry state renamed entry) rest

/-- The parent id the second `renamed_entries` loop gives an entry at `path`. -/
def parentIdOf (state : HostMaterializedState) (path : Str) : EntryId :=
  let parentPath := Path.parentPath path
  if parentPath.isEmpty || parentPath == path then 0
  else (state.idByPath.lookup parentPath).getD 0

def reparentLoop : HostMaterializedState → List RenamedEntry → HostMaterializedState × Bool
  | state, [] => (state, true)
  | state, renamed :: rest =>
      match state.entriesById.lookup renamed.afterEntryId with
      | none => (state, false)
      | some entry =>
          reparentLoop
            { state with
              entriesById := state.entriesById.insert renamed.afterEntryId
                { entry with
                  name := Path.filename entry.normalizedPath
                  parentId := parentIdOf state entry.normalizedPath } }
            rest

/-! ## The sink -/

structure MaterializerSink where
  states : AList (fun _ : Str => HostMaterializedState) := ∅
  lastUpdatedHostId : Str := []

namespace MaterializerSink

def applySnapshot (sink : MaterializerSink) (hostId : Str) (sequence : UInt64)
    (snapshot : Snapshot) : Status × MaterializerSink :=
  let resolvedHostId := if hostId.isEmpty then snapshot.hostIdentifier else hostId
  if resolvedHostId.isEmpty then (.failure .invalidArgument "Host id is empty.", sink)
  else
    (.success,
      { states := sink.states.insert resolvedHostId (buildFromSnapshot snapshot sequence)
        lastUpdatedHostId := resolvedHostId })

/-- The host a delta is for: the one named, or else the first one in iteration
order whose last snapshot is the delta's base. -/
def resolveHost (sink : MaterializerSink) (hostId : Str) (delta : DeltaSnapshot) :
    Option (Str × HostMaterializedState) :=
  match if hostId.isEmpty then none else sink.states.lookup hostId with
  | some state => some (hostId, state)
  | none =>
      (sink.states.entries.find? fun h => h.2.lastSnapshotId = delta.baseSnapshotId).map
        fun h => (h.1, h.2)

/-- The edits of `apply_delta` to the state of the host it resolved. -/
def editState (state : HostMaterializedState) (delta : DeltaSnapshot) :
    Status × HostMaterializedState :=
  let removed := delta.removedEntries.foldl removeEntry state
  let added := delta.addedEntries.foldl indexEntry removed
  match modifiedLoop added delta.modifiedEntries with
  | (modified, false) =>
      (.failure .validationError "Delta modified entry id is missing in materialized state.",
        modified)
  | (modified, true) =>
      match renamedLoop modified delta.renamedEntries with
      | (renamed, false) =>
          (.failure .validationError "Delta renamed entry id is missing in materialized state.",
            renamed)
      | (renamed, true) =>
          match reparentLoop renamed delta.renamedEntries with
          | (reparented, false) =>
              (.failure .validationError
                "Delta renamed entry target id is missing in materialized state.", reparented)
          | (reparented, true) => (.success, reparented)

def applyDelta (sink : MaterializerSink) (hostId : Str) (sequence : UInt64)
    (delta : DeltaSnapshot) : Status × MaterializerSink :=
  match resolveHost sink hostId delta with
  | none =>
      (.failure .notFound "Cannot apply delta without an existing materialized snapshot state.",
        sink)
  | some (resolvedHostId, state) =>
      if state.lastSnapshotId ≠ delta.baseSnapshotId then
        (.failure .validationError
          "Delta base snapshot id does not match current materialized state.", sink)
      else
        let (status, edited) := editState state delta
        if status.ok then
          (.success,
            { states := sink.states.insert resolvedHostId
                { edited with
                  lastSnapshotId := delta.targetSnapshotId, lastSequence := sequence }
              lastUpdatedHostId := resolvedHostId })
        else
          -- the edits were made in the live maps and stay
          (status, { sink with states := sink.states.insert resolvedHostId edited })

end MaterializerSink

end ServerStorage.Hugin
