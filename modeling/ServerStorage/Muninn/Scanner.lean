/-
# `ServerStorage.Muninn.Scanner` — `filesystem/filesystem_scanner.cpp`

A scan walks a tree of directories in the order in which the iterator yields their entries.
The tree holds what the system answers: of each entry its status, its metadata and what is
listed inside.  An iterator that reports an error is at its end, so the branch of the loop
for an error of `increment` is never taken.
-/
import ServerStorage.Lib.Normal
import ServerStorage.Muninn.Builder
import ServerStorage.Muninn.Wildcard

namespace ServerStorage.Muninn

open Lib

/-! ## What the system answers -/

inductive FileType where
  | regular | directory | symlink | other
  deriving DecidableEq, Repr

structure FileStatus where
  type : FileType := .regular
  permissions : UInt32 := 0
  deriving DecidableEq, Repr

/-- The fields of `struct stat`. -/
structure PosixStat where
  ino : UInt64 := 0
  dev : UInt64 := 0
  ctime : UnixTimestamp := 0
  mtime : UnixTimestamp := 0
  atime : UnixTimestamp := 0
  mode : UInt32 := 0
  deriving DecidableEq, Repr

/-- What comes of opening a directory: permission may be denied, or there is another error. -/
inductive Opening where
  | listed | denied | failed
  deriving DecidableEq, Repr

/-- One entry of the file system; `none` is an error. -/
structure Inode where
  /-- `symlink_status` -/
  status : Option FileStatus := some {}
  /-- Whether a symbolic link leads to a directory. -/
  leadsToDirectory : Bool := false
  fileSize : Option UInt64 := none
  lastWriteTime : Option UnixTimestamp := none
  /-- `lstat` -/
  stat : Option PosixStat := none
  opening : Opening := .listed
  deriving DecidableEq, Repr

/-- The entries of a directory, in the order in which they are listed, with what is listed
inside each; reading a directory may fail on the way. -/
inductive Listing where
  | nil
  | fails
  | entry (name : Path.FileName) (inode : Inode) (inside after : Listing)

/-- The directory a scan is asked for. -/
structure ScanRoot where
  isPresent : Bool := true
  isDirectory : Bool := true
  inode : Inode := {}
  listing : Listing := .nil

/-- The machine a scan runs on; `none` is an error, or a variable that is not set. -/
structure Machine where
  getHostname : Option Str := none
  hostnameVariable : Option Str := none
  computerNameVariable : Option Str := none
  currentPath : Option Path.AbsolutePath := none
  unixNow : UnixTimestamp := 0

structure ScanOptions where
  followSymlinks : Bool := false
  maxEntries : UInt64 := 5000000
  includeGlobs : List Str := []
  excludeGlobs : List Str := []
  caseSensitiveGlobs : Bool := false

namespace LocalFilesystemScanner

def detectHostIdentifier (machine : Machine) : Str :=
  match machine.getHostname, machine.hostnameVariable, machine.computerNameVariable with
  | some hostname, _, _ => hostname
  | none, some hostname, _ => hostname
  | none, none, some computerName => computerName
  | none, none, none => str "unknown-host"

/-- `std::filesystem::absolute`. -/
def absolute (machine : Machine) (path : Str) : Option Str :=
  if Path.isAbsolute path then some path
  else machine.currentPath.map fun directory => Path.join directory.1 path

def normalizeAbsolutePath (machine : Machine) (path : Str) : Option Str :=
  (absolute machine path).map Path.lexicallyNormal

def mapEntryType (status : FileStatus) : EntryType :=
  match status.type with
  | .directory => .directory
  | .symlink => .symlink
  | .regular => .file
  | .other => .special

def tryFillPosixMetadata (inode : Inode) (metadata : FileMetadata) : FileMetadata :=
  match inode.stat with
  | none => metadata
  | some stat =>
      { metadata with
        fileId := stat.ino
        deviceId := stat.dev
        createdAt := stat.ctime
        modifiedAt := stat.mtime
        accessedAt := stat.atime
        permissions := stat.mode &&& 0x0FFF }

def matchesAnyGlob (globs : List Str) (normalizedPath entryName : Str) (caseSensitive : Bool) :
    Bool :=
  globs.any fun glob =>
    !glob.isEmpty &&
      (wildcardMatch glob normalizedPath caseSensitive || wildcardMatch glob entryName caseSensitive)

/-! ## `fill_entry_metadata` -/

def fileSizeOf (status : FileStatus) (inode : Inode) : UInt64 :=
  if mapEntryType status = .file then inode.fileSize.getD 0 else 0

/-- The metadata of an entry: the portable fields, then those of `lstat` over them. -/
def entryMetadata (status : FileStatus) (inode : Inode) : FileMetadata :=
  let metadata : FileMetadata :=
    { permissions := status.permissions, sizeBytes := fileSizeOf status inode }
  let metadata :=
    match inode.lastWriteTime with
    | none => metadata
    | some modified =>
        { metadata with createdAt := modified, modifiedAt := modified, accessedAt := modified }
  tryFillPosixMetadata inode metadata

/-- A regular file whose size cannot be read. -/
def sizeDiagnostics (path : Str) (status : FileStatus) (inode : Inode) : List ScanDiagnostic :=
  if mapEntryType status = .file ∧ inode.fileSize = none then
    [{ code := .metadataUnavailable, severity := .warning, message := "Failed to read file size."
       path := Path.genericString (Path.elements path) }]
  else []

/-! ## `collect_one_entry` -/

/-- What `collect_one_entry` returns: `false`, or `true` with its two results. -/
inductive Collected where
  | stopped (result : RawScanResult)
  | visited (result : RawScanResult) (included disableRecursion : Bool)

def appendDiagnostic (result : RawScanResult) (diagnostic : ScanDiagnostic) : RawScanResult :=
  { result with diagnostics := result.diagnostics ++ [diagnostic] }

def excludedByPolicy (options : ScanOptions) (normalizedPath entryName : Str) (isRoot : Bool) :
    Bool :=
  !isRoot && matchesAnyGlob options.excludeGlobs normalizedPath entryName options.caseSensitiveGlobs

def includedByPolicy (options : ScanOptions) (normalizedPath entryName : Str) (isRoot : Bool) :
    Bool :=
  isRoot || options.includeGlobs.isEmpty ||
    matchesAnyGlob options.includeGlobs normalizedPath entryName options.caseSensitiveGlobs

/-- A directory is left out where it is excluded; anything else must be included too. -/
def includeEntry (options : ScanOptions) (normalizedPath entryName : Str) (isRoot : Bool)
    (status : FileStatus) : Bool :=
  if status.type = .directory then !excludedByPolicy options normalizedPath entryName isRoot
  else includedByPolicy options normalizedPath entryName isRoot &&
    !excludedByPolicy options normalizedPath entryName isRoot

def rawEntry (normalizedPath : Str) (isRoot : Bool) (status : FileStatus) (inode : Inode) :
    RawEntry :=
  { normalizedPath := normalizedPath
    parentPath := if isRoot then [] else Path.parentPath normalizedPath
    name := Path.filename normalizedPath
    type := mapEntryType status
    metadata := entryMetadata status inode }

def statusDiagnostic (normalizedPath : Str) : ScanDiagnostic :=
  { code := .metadataUnavailable, severity := .warning, message := "Failed to read entry status."
    path := normalizedPath }

def limitDiagnostic : ScanDiagnostic :=
  { code := .entryLimitExceeded, severity := .error, message := "Scanner entry limit exceeded." }

def collectOneEntry (machine : Machine) (path : Str) (inode : Inode) (isRoot : Bool)
    (result : RawScanResult) (options : ScanOptions) : Collected :=
  match normalizeAbsolutePath machine path with
  | none =>
      .stopped (appendDiagnostic result
        { code := .rootPathResolveFailure, severity := .error, message := "Failed to normalize path."
          path := Path.genericString (Path.elements path) })
  | some normalizedPath =>
      match inode.status with
      | none => .stopped (appendDiagnostic result (statusDiagnostic normalizedPath))
      | some status =>
          let entryName := Path.filename normalizedPath
          if !includeEntry options normalizedPath entryName isRoot status then
            .visited result false (decide (status.type = .directory) &&
              excludedByPolicy options normalizedPath entryName isRoot)
          else if options.maxEntries.toNat ≤ result.entries.length then
            .stopped (appendDiagnostic result limitDiagnostic)
          else
            .visited
              { result with
                entries := result.entries ++ [rawEntry normalizedPath isRoot status inode]
                diagnostics := result.diagnostics ++ sizeDiagnostics path status inode }
              true false

/-! ## The traversal -/

/-- The iterator enters directories, and links to directories where they are followed. -/
def shouldRecurse (options : ScanOptions) (inode : Inode) : Bool :=
  match inode.status with
  | none => false
  | some status =>
      status.type = .directory ||
        (status.type = .symlink && options.followSymlinks && inode.leadsToDirectory)

/-- The loop over what the iterator yields, and whether it went on to the end. -/
def traverse (machine : Machine) (options : ScanOptions) :
    Str → Listing → RawScanResult → RawScanResult × Bool
  | _, .nil, result => (result, true)
  | _, .fails, result => (result, false)
  | directory, .entry name inode inside after, result =>
      let path := Path.join directory name.1
      match collectOneEntry machine path inode false result options with
      | .stopped result => (result, false)
      | .visited result included disableRecursion =>
          if shouldRecurse options inode && !(!included && disableRecursion) then
            match inode.opening with
            | .denied => traverse machine options directory after result
            | .failed => (result, false)
            | .listed =>
                match traverse machine options path inside result with
                | (result, false) => (result, false)
                | (result, true) => traverse machine options directory after result
          else traverse machine options directory after result

def rawLess (lhs rhs : RawEntry) : Bool :=
  if lhs.normalizedPath = rhs.normalizedPath then decide (lhs.name < rhs.name)
  else decide (lhs.normalizedPath < rhs.normalizedPath)

def sorted (result : RawScanResult) : RawScanResult :=
  { result with entries := sortBy rawLess result.entries }

/-- A scan, and whether it came to the end of what there is to visit. -/
def scanToEnd (machine : Machine) (rootPath : Str) (root : ScanRoot) (options : ScanOptions) :
    RawScanResult × Bool :=
  let result : RawScanResult :=
    { hostIdentifier := detectHostIdentifier machine, scannedAt := machine.unixNow }
  let failed (code : ScanErrorCode) (message : String) : RawScanResult × Bool :=
    (appendDiagnostic result
      { code := code, severity := .fatal, message := message
        path := Path.genericString (Path.elements rootPath) }, false)
  if !root.isPresent then failed .rootPathMissing "Root path does not exist."
  else if !root.isDirectory then failed .rootPathNotDirectory "Root path is not a directory."
  else
    match normalizeAbsolutePath machine rootPath with
    | none => failed .rootPathResolveFailure "Failed to normalize root path."
    | some normalizedRoot =>
        if normalizedRoot = [] then failed .rootPathResolveFailure "Failed to normalize root path."
        else
          match collectOneEntry machine rootPath root.inode true
            { result with rootPath := normalizedRoot } options with
          | .stopped result => (result, false)
          | .visited result _ _ =>
              match root.inode.opening with
              | .denied => (sorted result, true)
              | .failed => (sorted result, false)
              | .listed =>
                  let (result, complete) := traverse machine options rootPath root.listing result
                  (sorted result, complete)

def scan (machine : Machine) (rootPath : Str) (root : ScanRoot) (options : ScanOptions := {}) :
    RawScanResult :=
  (scanToEnd machine rootPath root options).1

end LocalFilesystemScanner

end ServerStorage.Muninn
