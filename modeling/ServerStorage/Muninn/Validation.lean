/-
# `ServerStorage.Muninn.Validation` — `domain/validation/validators.cpp`

The five passes over a snapshot and the one over a delta.  A pass of the source
appends to a shared report; here a pass is the list of issues it appends, and
the report is the concatenation in the order in which the validator runs them.

Only issues of severity `error` or `fatal` make a report fail (`hasErrors`).
`TimestampSanityValidationPass` reads the clock and emits warnings only; it is
given the clock value.
-/
import ServerStorage.Muninn.Model

namespace ServerStorage.Muninn

open Lib

inductive ValidationSeverity where
  | info | warning | error | fatal
  deriving DecidableEq, Repr

/-- The codes the passes below report. -/
inductive ValidationErrorCode where
  | snapshotIdZero | snapshotSchemaInvalid | snapshotSchemaTooNew | snapshotSchemaTooOld
  | snapshotTimestampInvalid | snapshotHostIdentifierEmpty | snapshotRootIdZero
  | snapshotEntriesEmpty | snapshotRootMissing | snapshotRootNotDirectory
  | snapshotRootParentNotZero
  | entryIdZero | entryIdDuplicate | entryPathEmpty | entryPathNotAbsolute
  | entryPathNotNormalized | entryPathTraversalDetected | entryNameMismatch
  | entryPermissionsInvalid | entryTypeInvalid | entryTimestampOrderInvalid
  | entryTimestampInFuture
  | parentIdZeroNonRoot | parentMissing | parentNotDirectory | graphCycleDetected
  | graphDisconnectedEntry | graphDuplicatePath | graphMaxDepthExceeded
  | deltaBaseSnapshotIdZero | deltaTargetSnapshotIdZero | deltaBaseEqualsTarget
  | deltaAddedEntryDuplicate | deltaRemovedEntryDuplicate | deltaModifiedEntryDuplicate
  | deltaRenamedEntryDuplicate | deltaConflictingOperations
  | deltaRemovedEntryMissingInBase | deltaAddedEntryMissingInTarget
  | deltaModifiedEntryMissingInBase | deltaModifiedEntryMissingInTarget
  | deltaRenamedOldMissingInBase | deltaRenamedNewMissingInTarget | deltaRenamePathConflict
  deriving DecidableEq, Repr

structure ValidationIssue where
  code : ValidationErrorCode
  severity : ValidationSeverity := .error
  message : String
  snapshotId : Option SnapshotId := none
  entryId : Option EntryId := none
  path : Str := []
  deriving DecidableEq, Repr

abbrev ValidationReport := List ValidationIssue

namespace ValidationReport

def hasErrors (report : ValidationReport) : Bool :=
  report.any fun issue => issue.severity == .error || issue.severity == .fatal

def ok (report : ValidationReport) : Bool := !report.hasErrors

@[simp] theorem hasErrors_nil : hasErrors [] = false := rfl

@[simp] theorem hasErrors_cons (issue : ValidationIssue) (report : ValidationReport) :
    hasErrors (issue :: report) =
      (issue.severity == .error || issue.severity == .fatal || hasErrors report) :=
  rfl

@[simp] theorem hasErrors_append (a b : ValidationReport) :
    hasErrors (a ++ b) = (hasErrors a || hasErrors b) :=
  List.any_append

end ValidationReport

open ValidationErrorCode ValidationReport

/-- An issue of severity `error` about one entry. -/
def entryIssue (snapshot : Snapshot) (entry : FileEntry) (code : ValidationErrorCode)
    (message : String) : ValidationIssue :=
  { code := code, message := message, snapshotId := some snapshot.snapshotId
    entryId := some entry.id, path := entry.normalizedPath }

/-- `[issue]` when `b`, else nothing. -/
def report (b : Bool) (issue : ValidationIssue) : ValidationReport := if b then [issue] else []

@[simp] theorem hasErrors_report {b : Bool} {i : ValidationIssue} :
    hasErrors (report b i) = (b && (i.severity == .error || i.severity == .fatal)) := by
  cases b <;> simp [report, hasErrors]

/-! ## `SnapshotHeaderValidationPass` -/

def headerPass (snapshot : Snapshot) : ValidationReport :=
  report (snapshot.snapshotId == 0)
    { code := snapshotIdZero, message := "Snapshot ID must be non-zero." } ++
  report (!isValidSchema snapshot.schema)
    { code := snapshotSchemaInvalid, message := "Snapshot schema header is invalid."
      snapshotId := some snapshot.snapshotId } ++
  report (decide (kCurrentSchemaHeader.major < snapshot.schema.major))
    { code := snapshotSchemaTooNew
      message := "Snapshot schema major version is newer than this reader supports."
      snapshotId := some snapshot.snapshotId } ++
  report (decide (snapshot.schema.major < kCurrentSchemaHeader.minReaderMajor))
    { code := snapshotSchemaTooOld
      message := "Snapshot schema major version is older than supported minimum."
      snapshotId := some snapshot.snapshotId } ++
  report (decide (snapshot.createdAt ≤ 0))
    { code := snapshotTimestampInvalid, severity := .warning
      message := "Snapshot creation timestamp is unset or invalid."
      snapshotId := some snapshot.snapshotId } ++
  report snapshot.hostIdentifier.isEmpty
    { code := snapshotHostIdentifierEmpty, message := "Snapshot host identifier is empty."
      snapshotId := some snapshot.snapshotId } ++
  report (snapshot.rootEntryId == 0)
    { code := snapshotRootIdZero, message := "Snapshot root entry ID is zero."
      snapshotId := some snapshot.snapshotId } ++
  if snapshot.entries.isEmpty then
    [{ code := snapshotEntriesEmpty, message := "Snapshot entry collection is empty."
       snapshotId := some snapshot.snapshotId }]
  else
    match snapshot.entries.find? fun entry => entry.id = snapshot.rootEntryId with
    | none =>
        [{ code := snapshotRootMissing
           message := "Snapshot root entry ID does not reference any entry."
           snapshotId := some snapshot.snapshotId, entryId := some snapshot.rootEntryId }]
    | some root =>
        report (root.type != .directory)
          (entryIssue snapshot root snapshotRootNotDirectory
            "Snapshot root entry is not a directory.") ++
        report (root.parentId != 0)
          (entryIssue snapshot root snapshotRootParentNotZero
            "Snapshot root entry must have parent ID 0.")

/-! ## `EntryIdentityValidationPass` -/

def identityIssues (snapshot : Snapshot) (ids : List EntryId) (entry : FileEntry) :
    ValidationReport :=
  report (entry.id == 0)
    (entryIssue snapshot entry entryIdZero "Entry ID must be non-zero.") ++
  report (ids.contains entry.id)
    (entryIssue snapshot entry entryIdDuplicate "Duplicate entry ID detected.") ++
  report (entry.id != snapshot.rootEntryId && entry.parentId == 0)
    (entryIssue snapshot entry parentIdZeroNonRoot "Non-root entry has parent ID 0.")

/-- `ids` is the set of ids inserted so far. -/
def identityLoop (snapshot : Snapshot) : List EntryId → List FileEntry → ValidationReport
  | _, [] => []
  | ids, entry :: rest =>
      identityIssues snapshot ids entry ++ identityLoop snapshot (entry.id :: ids) rest

def identityPass (snapshot : Snapshot) : ValidationReport :=
  identityLoop snapshot [] snapshot.entries

/-! ## `PathNormalizationValidationPass` -/

def hasPathTraversal (path : Str) : Bool :=
  (Path.elements path).any fun part => part == Path.dotDot

def pathIssues (snapshot : Snapshot) (uniquePaths : List Str) (entry : FileEntry) :
    ValidationReport :=
  report (!Path.isAbsolute entry.normalizedPath)
    (entryIssue snapshot entry entryPathNotAbsolute "Entry path must be absolute.") ++
  report (Path.lexicallyNormal entry.normalizedPath != entry.normalizedPath)
    (entryIssue snapshot entry entryPathNotNormalized
      "Entry path is not lexically normalized.") ++
  report (hasPathTraversal entry.normalizedPath)
    (entryIssue snapshot entry entryPathTraversalDetected
      "Entry path contains traversal segment '..'.") ++
  report (uniquePaths.contains entry.normalizedPath)
    (entryIssue snapshot entry graphDuplicatePath "Duplicate normalized path detected.") ++
  report (entry.parentId != 0 && entry.name != Path.filename entry.normalizedPath)
    { entryIssue snapshot entry entryNameMismatch "Entry name does not match path filename." with
      severity := .warning } ++
  report (entry.metadata.permissions &&& 0xFFFF0000 != 0)
    { entryIssue snapshot entry entryPermissionsInvalid
        "Entry permissions contain unsupported high bits." with
      severity := .warning } ++
  report (decide (EntryType.special.value < entry.type.value))
    (entryIssue snapshot entry entryTypeInvalid "Entry type value is out of range.")

/-- An empty path is reported alone and is not recorded as seen. -/
def pathLoop (snapshot : Snapshot) : List Str → List FileEntry → ValidationReport
  | _, [] => []
  | uniquePaths, entry :: rest =>
      if entry.normalizedPath.isEmpty then
        { code := entryPathEmpty, message := "Entry path is empty."
          snapshotId := some snapshot.snapshotId, entryId := some entry.id } ::
          pathLoop snapshot uniquePaths rest
      else
        pathIssues snapshot uniquePaths entry ++
          pathLoop snapshot (entry.normalizedPath :: uniquePaths) rest

def pathPass (snapshot : Snapshot) : ValidationReport := pathLoop snapshot [] snapshot.entries

/-! ## `ParentGraphValidationPass` -/

def kMaxReasonableDepth : Nat := 4096

/-- `build_entry_index`: the last entry of an id wins. -/
def buildEntryIndex (snapshot : Snapshot) (id : EntryId) : Option FileEntry :=
  snapshot.entries.reverse.find? fun entry => entry.id = id

/-- `build_children_index`. -/
def childrenOf (snapshot : Snapshot) (id : EntryId) : List EntryId :=
  (snapshot.entries.filter fun entry => entry.parentId ≠ 0 ∧ entry.parentId = id).map
    FileEntry.id

def parentIssues (snapshot : Snapshot) (entry : FileEntry) : ValidationReport :=
  if entry.id = snapshot.rootEntryId then []
  else if entry.parentId = 0 then
    [entryIssue snapshot entry parentIdZeroNonRoot "Non-root entry has parent ID 0."]
  else
    match buildEntryIndex snapshot entry.parentId with
    | none => [entryIssue snapshot entry parentMissing "Entry parent ID does not exist."]
    | some parent =>
        report (parent.type != .directory)
          (entryIssue snapshot entry parentNotDirectory "Entry parent is not a directory.")

inductive Color where
  | white | gray | black
  deriving DecidableEq, Repr

/-- The depth-first search: the colours, and the stack of frames with each
frame's children still to be looked at. -/
structure DfsState where
  colors : EntryId → Option Color
  stack : List (EntryId × List EntryId)
  issues : ValidationReport := []

def DfsState.paint (st : DfsState) (id : EntryId) (color : Color) : DfsState :=
  { st with colors := Function.update st.colors id (some color) }

/-- One turn of `while (!stack.empty())`. -/
def dfsStep (snapshot : Snapshot) (st : DfsState) : DfsState :=
  match st.stack with
  | [] => st
  | (top, children) :: below =>
      let depth :=
        report (decide (kMaxReasonableDepth < st.stack.length))
          { code := graphMaxDepthExceeded, severity := .warning
            message := "Tree depth exceeds configured validation limit."
            snapshotId := some snapshot.snapshotId, entryId := some top }
      let st := { st with issues := st.issues ++ depth }
      match children with
      | [] => { st.paint top .black with stack := below }
      | child :: others =>
          let st := { st with stack := (top, others) :: below }
          match st.colors child with
          | none | some .black => st
          | some .gray =>
              { st with issues := st.issues ++
                [{ code := graphCycleDetected
                   message := "Cycle detected in parent/child graph."
                   snapshotId := some snapshot.snapshotId, entryId := some child }] }
          | some .white =>
              { st.paint child .gray with
                stack := (child, childrenOf snapshot child) :: st.stack }

/-- Each turn pops a frame or uses up one child, so the bound given by
`dfsFuel` is never reached. -/
def dfsRun (snapshot : Snapshot) : Nat → DfsState → DfsState
  | 0, st => st
  | fuel + 1, st => if st.stack.isEmpty then st else dfsRun snapshot fuel (dfsStep snapshot st)

def dfsFuel (snapshot : Snapshot) : Nat := 2 * snapshot.entries.length + 2

def dfsFrom (snapshot : Snapshot) (st : DfsState) (entry : FileEntry) : DfsState :=
  if st.colors entry.id ≠ some .white then st
  else
    dfsRun snapshot (dfsFuel snapshot)
      { st.paint entry.id .gray with stack := [(entry.id, childrenOf snapshot entry.id)] }

def dfsIssues (snapshot : Snapshot) : ValidationReport :=
  let init : DfsState :=
    { colors := fun id => if snapshot.entries.any (fun e => e.id = id) then some .white else none
      stack := [] }
  (snapshot.entries.foldl (dfsFrom snapshot) init).issues

/-- The search for the entries reachable from the root, as a work list. -/
def reachLoop (snapshot : Snapshot) : Nat → List EntryId → List EntryId → List EntryId
  | 0, reachable, _ => reachable
  | _ + 1, reachable, [] => reachable
  | fuel + 1, reachable, current :: stack =>
      let fresh := (childrenOf snapshot current).dedup.filter fun c => !reachable.contains c
      reachLoop snapshot fuel (fresh ++ reachable) (fresh.reverse ++ stack)

def disconnectedIssues (snapshot : Snapshot) : ValidationReport :=
  match buildEntryIndex snapshot snapshot.rootEntryId with
  | none => []
  | some _ =>
      let reachable :=
        reachLoop snapshot (snapshot.entries.length + 1) [snapshot.rootEntryId]
          [snapshot.rootEntryId]
      (snapshot.entries.map FileEntry.id).dedup.flatMap fun id =>
        report (!reachable.contains id)
          { code := graphDisconnectedEntry, severity := .warning
            message := "Entry is not reachable from root."
            snapshotId := some snapshot.snapshotId, entryId := some id
            path := ((buildEntryIndex snapshot id).map FileEntry.normalizedPath).getD [] }

def graphPass (snapshot : Snapshot) : ValidationReport :=
  if snapshot.entries.isEmpty then []
  else
    snapshot.entries.flatMap (parentIssues snapshot) ++ dfsIssues snapshot ++
      disconnectedIssues snapshot

/-! ## `TimestampSanityValidationPass` -/

def timestampPass (now : UnixTimestamp) (snapshot : Snapshot) : ValidationReport :=
  snapshot.entries.flatMap fun entry =>
    let m := entry.metadata
    report (decide (m.modifiedAt < m.createdAt) || decide (m.accessedAt < m.modifiedAt))
      { entryIssue snapshot entry entryTimestampOrderInvalid
          "Entry timestamps are not monotonic: created <= modified <= accessed failed." with
        severity := .warning } ++
    report (decide (now < m.createdAt) || decide (now < m.modifiedAt) || decide (now < m.accessedAt))
      { entryIssue snapshot entry entryTimestampInFuture
          "Entry timestamps are in the future." with
        severity := .warning }

/-! ## `validate_snapshot` -/

def validateSnapshotAt (now : UnixTimestamp) (snapshot : Snapshot) : ValidationReport :=
  headerPass snapshot ++ identityPass snapshot ++ pathPass snapshot ++ graphPass snapshot ++
    timestampPass now snapshot

/-- The verdict of `validate_snapshot`.  The clock decides warnings only
(`hasErrors_validateSnapshotAt`), so the verdict leaves that pass out. -/
def snapshotErrors (snapshot : Snapshot) : Bool :=
  hasErrors (headerPass snapshot ++ identityPass snapshot ++ pathPass snapshot ++
    graphPass snapshot)

theorem timestampPass_hasErrors (now : UnixTimestamp) (snapshot : Snapshot) :
    hasErrors (timestampPass now snapshot) = false := by
  simp only [timestampPass, hasErrors, List.any_flatMap, List.any_eq_false]
  intro entry _
  rw [← hasErrors, hasErrors_append, hasErrors_report, hasErrors_report]
  simp

theorem hasErrors_validateSnapshotAt (now : UnixTimestamp) (snapshot : Snapshot) :
    hasErrors (validateSnapshotAt now snapshot) = snapshotErrors snapshot := by
  rw [validateSnapshotAt, hasErrors_append, timestampPass_hasErrors, Bool.or_false, snapshotErrors]

/-! ## `DeltaReferentialIntegrityPass` -/

/-- The keys that repeat an earlier one, each reported by `issue`. -/
def duplicateLoop {α κ : Type} [BEq κ] (key : α → κ) (issue : α → ValidationIssue) :
    List κ → List α → ValidationReport
  | _, [] => []
  | seen, a :: rest =>
      report (seen.contains (key a)) (issue a) ++ duplicateLoop key issue (key a :: seen) rest

/-- `renamed_new_ids` is not inserted into when the old id already repeats. -/
def renamedLoopIssues (delta : DeltaSnapshot) :
    List EntryId → List EntryId → List Str → List RenamedEntry → ValidationReport
  | _, _, _, [] => []
  | oldIds, newIds, targets, r :: rest =>
      let oldSeen := oldIds.contains r.beforeEntryId
      let issue (code : ValidationErrorCode) (message : String) : ValidationIssue :=
        { code := code, message := message, snapshotId := some delta.targetSnapshotId
          entryId := some r.afterEntryId, path := r.newPath }
      report (oldSeen || newIds.contains r.afterEntryId)
        (issue deltaRenamedEntryDuplicate "Delta contains duplicate rename endpoint IDs.") ++
      report (targets.contains r.newPath)
        (issue deltaRenamePathConflict "Multiple rename operations target the same path.") ++
      renamedLoopIssues delta (r.beforeEntryId :: oldIds)
        (if oldSeen then newIds else r.afterEntryId :: newIds) (r.newPath :: targets) rest

def conflictIssues (delta : DeltaSnapshot) : ValidationReport :=
  let removedIds := delta.removedEntries.map FileEntry.id
  let modifiedIds := delta.modifiedEntries.map ModifiedEntry.entryId
  ((delta.addedEntries.map FileEntry.id).dedup.flatMap fun id =>
    report (removedIds.contains id || modifiedIds.contains id)
      { code := deltaConflictingOperations
        message := "Entry appears in conflicting delta operation sets."
        snapshotId := some delta.targetSnapshotId, entryId := some id }) ++
  removedIds.dedup.flatMap fun id =>
    report (modifiedIds.contains id)
      { code := deltaConflictingOperations
        message := "Removed entry cannot also be marked modified."
        snapshotId := some delta.baseSnapshotId, entryId := some id }

/-- Entries of a change list whose id is missing in `snapshot`. -/
def missingIssues {α : Type} (snapshot : Snapshot) (id : α → EntryId) (path : α → Str)
    (code : ValidationErrorCode) (message : String) (l : List α) : ValidationReport :=
  l.flatMap fun a =>
    report (!(snapshot.entries.map FileEntry.id).contains (id a))
      { code := code, message := message, snapshotId := some snapshot.snapshotId
        entryId := some (id a), path := path a }

def baseIssues (delta : DeltaSnapshot) (base : Snapshot) : ValidationReport :=
  missingIssues base FileEntry.id FileEntry.normalizedPath deltaRemovedEntryMissingInBase
    "Removed entry ID does not exist in base snapshot." delta.removedEntries ++
  missingIssues base ModifiedEntry.entryId (fun _ => []) deltaModifiedEntryMissingInBase
    "Modified entry ID does not exist in base snapshot." delta.modifiedEntries ++
  missingIssues base RenamedEntry.beforeEntryId RenamedEntry.oldPath deltaRenamedOldMissingInBase
    "Rename source entry ID does not exist in base snapshot." delta.renamedEntries

def targetIssues (delta : DeltaSnapshot) (target : Snapshot) : ValidationReport :=
  missingIssues target FileEntry.id FileEntry.normalizedPath deltaAddedEntryMissingInTarget
    "Added entry ID does not exist in target snapshot." delta.addedEntries ++
  missingIssues target ModifiedEntry.entryId (fun _ => []) deltaModifiedEntryMissingInTarget
    "Modified entry ID does not exist in target snapshot." delta.modifiedEntries ++
  missingIssues target RenamedEntry.afterEntryId RenamedEntry.newPath
    deltaRenamedNewMissingInTarget
    "Rename target entry ID does not exist in target snapshot." delta.renamedEntries

def validateDelta (delta : DeltaSnapshot) (base target : Option Snapshot) : ValidationReport :=
  report (delta.baseSnapshotId == 0)
    { code := deltaBaseSnapshotIdZero, message := "Delta base snapshot ID must be non-zero."
      snapshotId := some delta.baseSnapshotId } ++
  report (delta.targetSnapshotId == 0)
    { code := deltaTargetSnapshotIdZero, message := "Delta target snapshot ID must be non-zero."
      snapshotId := some delta.targetSnapshotId } ++
  report (delta.baseSnapshotId == delta.targetSnapshotId && delta.baseSnapshotId != 0)
    { code := deltaBaseEqualsTarget, severity := .warning
      message := "Delta base and target snapshot IDs are identical."
      snapshotId := some delta.baseSnapshotId } ++
  duplicateLoop FileEntry.id
    (fun e => { code := deltaAddedEntryDuplicate
                message := "Delta contains duplicate added entry ID."
                snapshotId := some delta.targetSnapshotId
                entryId := some e.id, path := e.normalizedPath }) [] delta.addedEntries ++
  duplicateLoop FileEntry.id
    (fun e => { code := deltaRemovedEntryDuplicate
                message := "Delta contains duplicate removed entry ID."
                snapshotId := some delta.baseSnapshotId
                entryId := some e.id, path := e.normalizedPath }) [] delta.removedEntries ++
  duplicateLoop ModifiedEntry.entryId
    (fun m => { code := deltaModifiedEntryDuplicate
                message := "Delta contains duplicate modified entry ID."
                snapshotId := some delta.targetSnapshotId
                entryId := some m.entryId }) [] delta.modifiedEntries ++
  renamedLoopIssues delta [] [] [] delta.renamedEntries ++
  conflictIssues delta ++
  (base.map (baseIssues delta)).getD [] ++
  (target.map (targetIssues delta)).getD []

/-- Without its base and target a delta has no more issues than with them. -/
theorem hasErrors_validateDelta_alone {delta : DeltaSnapshot} {base target : Option Snapshot}
    (h : hasErrors (validateDelta delta base target) = false) :
    hasErrors (validateDelta delta none none) = false := by
  rw [validateDelta, hasErrors_append, hasErrors_append,
    Bool.or_eq_false_iff, Bool.or_eq_false_iff] at h
  rw [validateDelta, hasErrors_append, hasErrors_append, h.1.1]
  rfl

end ServerStorage.Muninn
