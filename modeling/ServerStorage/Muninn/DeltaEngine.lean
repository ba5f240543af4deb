/-
# `ServerStorage.Muninn.DeltaEngine` — `snapshot/delta_engine.cpp`

`compute` compares two snapshots by entry id and then, under its default
options, pairs what is left over by fingerprint.  The first loop of the source
appends to three lists at once; here each list is its own traversal of the same
entries (`renamedCommon`, `modifiedCommon`, `unmatchedRemoved`).

The rename heuristic keeps, for each fingerprint, the indices of the added
entries in path order, and skips those already consumed.  The first index not
yet consumed is the first entry of that fingerprint among those still left, so
`pairLoop` carries the added entries still left in place of the two flag
vectors.
-/
import ServerStorage.Muninn.Model

namespace ServerStorage.Muninn

open Lib

structure DeltaOptions where
  enableRenameHeuristic : Bool := true
  deriving DecidableEq

namespace DeltaEngine

structure RenameFingerprint where
  type : EntryType := .file
  deviceId : UInt64 := 0
  fileId : UInt64 := 0
  sizeBytes : UInt64 := 0
  modifiedAt : UnixTimestamp := 0
  nameHash : UInt64 := 0
  deriving DecidableEq

def makeRenameFingerprint (entry : FileEntry) : RenameFingerprint :=
  let known := entry.metadata.deviceId ≠ 0 ∧ entry.metadata.fileId ≠ 0
  { type := entry.type
    sizeBytes := entry.metadata.sizeBytes
    modifiedAt := entry.metadata.modifiedAt
    nameHash := fnv1a64 entry.name
    deviceId := if known then entry.metadata.deviceId else 0
    fileId := if known then entry.metadata.fileId else 0 }

/-- `index_by_id`: `emplace` keeps the first entry of an id. -/
def indexById (snapshot : Snapshot) (id : EntryId) : Option FileEntry :=
  snapshot.entries.find? fun entry => entry.id = id

/-- The renames of the first loop: same id, different path. -/
def renamedCommon (base target : Snapshot) : List RenamedEntry :=
  base.entries.filterMap fun baseEntry =>
    match indexById target baseEntry.id with
    | none => none
    | some targetEntry =>
        if baseEntry.normalizedPath ≠ targetEntry.normalizedPath then
          some { beforeEntryId := baseEntry.id
                 afterEntryId := targetEntry.id
                 oldPath := baseEntry.normalizedPath
                 newPath := targetEntry.normalizedPath }
        else none

/-- The modifications of the first loop: same id, other metadata or type. -/
def modifiedCommon (base target : Snapshot) : List ModifiedEntry :=
  base.entries.filterMap fun baseEntry =>
    match indexById target baseEntry.id with
    | none => none
    | some targetEntry =>
        if !metadataEquals baseEntry.metadata targetEntry.metadata ||
            baseEntry.type != targetEntry.type then
          some { entryId := targetEntry.id
                 before := baseEntry.metadata
                 after := targetEntry.metadata }
        else none

def unmatchedRemoved (base target : Snapshot) : List FileEntry :=
  base.entries.filter fun entry => (indexById target entry.id).isNone

def unmatchedAdded (base target : Snapshot) : List FileEntry :=
  target.entries.filter fun entry => (indexById base entry.id).isNone

def byPath (lhs rhs : FileEntry) : Bool := decide (lhs.normalizedPath < rhs.normalizedPath)

/-- What the heuristic loop has produced. -/
structure Pairing where
  renamed : List (FileEntry × FileEntry) := []
  removed : List FileEntry := []
  added : List FileEntry := []

/-- The heuristic loop over the removed entries; `left` holds the added entries
not yet consumed, in path order. -/
def pairLoop : List FileEntry → List FileEntry → Pairing
  | [], left => { added := left }
  | removed :: rest, left =>
      match left.find? fun a => makeRenameFingerprint a = makeRenameFingerprint removed with
      | none =>
          let p := pairLoop rest left
          { p with removed := removed :: p.removed }
      | some added =>
          let p := pairLoop rest (left.erase added)
          { p with renamed := (removed, added) :: p.renamed }

def toRenamed (p : FileEntry × FileEntry) : RenamedEntry :=
  { beforeEntryId := p.1.id
    afterEntryId := p.2.id
    oldPath := p.1.normalizedPath
    newPath := p.2.normalizedPath }

/-! ## `sort_delta` -/

def entryLess (lhs rhs : FileEntry) : Bool :=
  if lhs.normalizedPath = rhs.normalizedPath then decide (lhs.id < rhs.id)
  else decide (lhs.normalizedPath < rhs.normalizedPath)

def modifiedLess (lhs rhs : ModifiedEntry) : Bool := decide (lhs.entryId < rhs.entryId)

def renamedLess (lhs rhs : RenamedEntry) : Bool :=
  if lhs.oldPath = rhs.oldPath then
    if lhs.newPath = rhs.newPath then
      if lhs.beforeEntryId = rhs.beforeEntryId then decide (lhs.afterEntryId < rhs.afterEntryId)
      else decide (lhs.beforeEntryId < rhs.beforeEntryId)
    else decide (lhs.newPath < rhs.newPath)
  else decide (lhs.oldPath < rhs.oldPath)

def sortDelta (delta : DeltaSnapshot) : DeltaSnapshot :=
  { delta with
    addedEntries := sortBy entryLess delta.addedEntries
    removedEntries := sortBy entryLess delta.removedEntries
    modifiedEntries := sortBy modifiedLess delta.modifiedEntries
    renamedEntries := sortBy renamedLess delta.renamedEntries }

/-- The pairing `compute` works with: all of the left-over entries in path
order, or no pairs at all when the heuristic is off. -/
def pairing (base target : Snapshot) (options : DeltaOptions) : Pairing :=
  if options.enableRenameHeuristic then
    pairLoop (sortBy byPath (unmatchedRemoved base target))
      (sortBy byPath (unmatchedAdded base target))
  else { removed := unmatchedRemoved base target, added := unmatchedAdded base target }

def compute (base target : Snapshot) (options : DeltaOptions := {}) : DeltaSnapshot :=
  let p := pairing base target options
  sortDelta
    { schema := kCurrentSchemaHeader
      baseSnapshotId := base.snapshotId
      targetSnapshotId := target.snapshotId
      addedEntries := p.added
      removedEntries := p.removed
      modifiedEntries := modifiedCommon base target
      renamedEntries := renamedCommon base target ++ p.renamed.map toRenamed }

def invert (delta : DeltaSnapshot) : DeltaSnapshot :=
  sortDelta
    { schema := delta.schema
      baseSnapshotId := delta.targetSnapshotId
      targetSnapshotId := delta.baseSnapshotId
      addedEntries := delta.removedEntries
      removedEntries := delta.addedEntries
      modifiedEntries := delta.modifiedEntries.map fun m =>
        { entryId := m.entryId, before := m.after, after := m.before }
      renamedEntries := delta.renamedEntries.map fun r =>
        { beforeEntryId := r.afterEntryId
          afterEntryId := r.beforeEntryId
          oldPath := r.newPath
          newPath := r.oldPath } }

end DeltaEngine

/-- `delta_has_changes` (`indexing_pipeline.cpp`). -/
def deltaHasChanges (delta : DeltaSnapshot) : Bool :=
  !delta.addedEntries.isEmpty || !delta.removedEntries.isEmpty ||
    !delta.modifiedEntries.isEmpty || !delta.renamedEntries.isEmpty

end ServerStorage.Muninn
