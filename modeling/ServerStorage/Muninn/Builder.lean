/-
# `ServerStorage.Muninn.Builder` — `snapshot/snapshot_builder.cpp`

A scan becomes a snapshot in two passes: entries in path order, each under an id
hashed from its type and its device and file number (or its path), then the
parent of each entry by the path of its directory.

The loop of `generate_stable_id` has no bound of its own.  Its salt is 32 bits
wide, so after `2^32 + 1` candidates it only repeats itself; `generateStableId`
tries that many and is `none` where the source would not return.
-/
import ServerStorage.Muninn.DeltaEngine

namespace ServerStorage.Muninn

open Lib

/-! ## Raw scans (`filesystem/filesystem_scanner.hpp`) -/

inductive ScanSeverity where
  | info | warning | error | fatal
  deriving DecidableEq, Repr

inductive ScanErrorCode where
  | none | rootPathMissing | rootPathNotDirectory | rootPathResolveFailure | traversalFailure
  | metadataUnavailable | entryLimitExceeded
  deriving DecidableEq, Repr

structure ScanDiagnostic where
  code : ScanErrorCode := .none
  severity : ScanSeverity := .info
  message : String := ""
  path : Str := []
  deriving DecidableEq, Repr

structure RawEntry where
  normalizedPath : Str := []
  parentPath : Str := []
  name : Str := []
  type : EntryType := .file
  metadata : FileMetadata := {}
  deriving DecidableEq, Repr

structure RawScanResult where
  hostIdentifier : Str := []
  rootPath : Str := []
  scannedAt : UnixTimestamp := 0
  entries : List RawEntry := []
  diagnostics : List ScanDiagnostic := []
  deriving DecidableEq, Repr

/-! ## `utils/path_utils.hpp` -/

def normalizePathLexical (path : Str) : Str := Path.lexicallyNormal path
def filenameFromPath (path : Str) : Str := Path.filename path
def parentFromPath (path : Str) : Str := Path.parentPath path

/-! ## Build results -/

inductive BuildSeverity where
  | info | warning | error
  deriving DecidableEq, Repr

inductive BuildDiagnosticCode where
  | none | rootEntryMissing | parentPathMissing | duplicatePath | stableIdCollision
  deriving DecidableEq, Repr

structure BuildDiagnostic where
  code : BuildDiagnosticCode := .none
  severity : BuildSeverity := .info
  message : String := ""
  path : Str := []
  deriving DecidableEq, Repr

structure BuildOptions where
  snapshotId : SnapshotId := 0
  createdAt : UnixTimestamp := 0

structure BuildResult where
  snapshot : Snapshot := {}
  diagnostics : List BuildDiagnostic := []
  deriving DecidableEq, Repr

namespace SnapshotBuilder

/-! ## Stable ids -/

def bar : Str := str "|"

def makeBaseStableKey (entry : RawEntry) (normalizedPath : Str) : Str :=
  decimal entry.type.value.toNat ++ bar ++
    if entry.metadata.deviceId ≠ 0 ∧ entry.metadata.fileId ≠ 0 then
      decimal entry.metadata.deviceId.toNat ++ bar ++ decimal entry.metadata.fileId.toNat
    else normalizedPath

def saltedKey (baseKey normalizedPath : Str) (salt : UInt32) : Str :=
  baseKey ++ str "|path=" ++ normalizedPath ++ str "|salt=" ++ decimal salt.toNat

def candidateId (key : Str) : EntryId := if fnv1a64 key = 0 then 1 else fnv1a64 key

/-- The loop of `generate_stable_id`: the id, and how many candidates were
already in use. -/
def stableIdLoop (baseKey normalizedPath : Str) (usedIds : List EntryId) :
    Nat → UInt32 → Str → Option (EntryId × Nat)
  | 0, _, _ => none
  | fuel + 1, salt, key =>
      let id := candidateId key
      if usedIds.contains id then
        let salt := salt + 1
        (stableIdLoop baseKey normalizedPath usedIds fuel salt
          (saltedKey baseKey normalizedPath salt)).map fun r => (r.1, r.2 + 1)
      else some (id, 0)

def generateStableId (entry : RawEntry) (normalizedPath : Str) (usedIds : List EntryId) :
    Option (EntryId × List BuildDiagnostic) :=
  let baseKey := makeBaseStableKey entry normalizedPath
  (stableIdLoop baseKey normalizedPath usedIds (2 ^ 32 + 1) 0 baseKey).map fun (id, collisions) =>
    (id, List.replicate collisions
      { code := .stableIdCollision, severity := .warning
        message := "Stable ID collision resolved with deterministic salt."
        path := normalizedPath })

/-! ## `compute_snapshot_id` -/

def entryKey (entry : FileEntry) : Str :=
  decimal entry.id.toNat ++ bar ++ decimal entry.parentId.toNat ++ bar ++
  decimal entry.type.value.toNat ++ bar ++ entry.normalizedPath ++ bar ++ entry.name ++ bar ++
  decimal entry.metadata.sizeBytes.toNat ++ bar ++
  decimalInt entry.metadata.createdAt.toInt ++ bar ++
  decimalInt entry.metadata.modifiedAt.toInt ++ bar ++
  decimalInt entry.metadata.accessedAt.toInt ++ bar ++
  decimal entry.metadata.permissions.toNat ++ bar ++ decimal entry.metadata.fileId.toNat ++ bar ++
  decimal entry.metadata.deviceId.toNat ++ bar ++
  (match entry.metadata.contentHash with
    | some h => decimal h.toNat
    | none => str "null") ++ str ";"

def computeSnapshotId (snapshot : Snapshot) : SnapshotId :=
  let key :=
    decimal snapshot.schema.major.toNat ++ bar ++ decimal snapshot.schema.minor.toNat ++ bar ++
    decimal snapshot.schema.patch.toNat ++ bar ++
    decimal snapshot.schema.minReaderMajor.toNat ++ bar ++ snapshot.hostIdentifier ++ bar ++
    decimalInt snapshot.createdAt.toInt ++ bar ++ decimal snapshot.rootEntryId.toNat ++ bar ++
    decimal snapshot.entries.length ++ bar ++ snapshot.entries.flatMap entryKey
  if fnv1a64 key = 0 then 1 else fnv1a64 key

/-! ## `build` -/

/-- The first pass: entries in path order, a path once only. -/
def entriesLoop : List FileEntry → List RawEntry →
    Option (List FileEntry × List BuildDiagnostic)
  | done, [] => some (done.reverse, [])
  | done, raw :: rest =>
      let normalizedPath := normalizePathLexical raw.normalizedPath
      if done.any fun e => e.normalizedPath = normalizedPath then
        (entriesLoop done rest).map fun (entries, diagnostics) =>
          (entries,
            { code := .duplicatePath, severity := .warning
              message := "Duplicate path in scan result ignored."
              path := normalizedPath } :: diagnostics)
      else do
        let (id, collisions) ← generateStableId raw normalizedPath (done.map FileEntry.id)
        let (entries, diagnostics) ← entriesLoop
          ({ id := id
             normalizedPath := normalizedPath
             name := if raw.name.isEmpty then filenameFromPath normalizedPath else raw.name
             type := raw.type
             metadata := raw.metadata } :: done) rest
        return (entries, collisions ++ diagnostics)

/-- The parent of an entry: none for the root, and none with a diagnostic where
the directory is not among the entries. -/
def parentOf (normalizedRootPath : Str) (entries : List FileEntry) (entry : FileEntry) :
    EntryId × List BuildDiagnostic :=
  if entry.normalizedPath = normalizedRootPath then (0, [])
  else
    let parentPath := parentFromPath entry.normalizedPath
    match entries.find? fun e => e.normalizedPath = parentPath with
    | some parent => (parent.id, [])
    | none =>
        (0, [{ code := .parentPathMissing, severity := .error
               message := "Parent path not found while building snapshot entry graph."
               path := entry.normalizedPath }])

/-- The root found by its path, or else the first entry. -/
def rootOf (normalizedRootPath : Str) (entries : List FileEntry) :
    EntryId × List FileEntry × List BuildDiagnostic :=
  match entries.find? fun e => e.normalizedPath = normalizedRootPath, entries with
  | some root, _ => (root.id, entries, [])
  | none, [] => (0, [], [])
  | none, first :: rest =>
      (first.id, { first with parentId := 0 } :: rest,
        [{ code := .rootEntryMissing, severity := .error
           message := "Root entry was not found by root path; selected first entry as fallback."
           path := normalizedRootPath }])

/-- Of raw paths that occur twice, which `std::sort` leaves in any order, the scan's order is
kept. -/
def build (scanResult : RawScanResult) (options : BuildOptions := {}) : Option BuildResult := do
  let sorted := sortBy
    (fun lhs rhs : RawEntry => decide (lhs.normalizedPath < rhs.normalizedPath)) scanResult.entries
  let (entries, diagnostics) ← entriesLoop [] sorted
  let normalizedRootPath := normalizePathLexical scanResult.rootPath
  let linked := entries.map fun e =>
    { e with parentId := (parentOf normalizedRootPath entries e).1 }
  let missing := entries.flatMap fun e => (parentOf normalizedRootPath entries e).2
  let (rootEntryId, linked, fallback) := rootOf normalizedRootPath linked
  let snapshot : Snapshot :=
    { schema := kCurrentSchemaHeader
      snapshotId := options.snapshotId
      createdAt := if options.createdAt ≠ 0 then options.createdAt else scanResult.scannedAt
      hostIdentifier := scanResult.hostIdentifier
      rootEntryId := rootEntryId
      entries := linked }
  return {
    snapshot :=
      if options.snapshotId = 0 then { snapshot with snapshotId := computeSnapshotId snapshot }
      else snapshot
    diagnostics := diagnostics ++ missing ++ fallback }

end SnapshotBuilder

end ServerStorage.Muninn
