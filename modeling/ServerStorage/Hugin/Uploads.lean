/-
# `ServerStorage.Hugin.Uploads` — `api/frontend_api_server.cpp`, the directory upload

What `start` asks of its options, the loop that admits the files of a request, and the
workers that decode and write them.  What the workers share is two counters, a total and
the list of failures; each access is one atomic move.  What becomes of a write is up to the
file system.
-/
import ServerStorage.Hugin.Materializer
import ServerStorage.Lib.Path
import ServerStorage.Lib.Workers
import ServerStorage.Shared.CrudProtocol

namespace ServerStorage.Hugin

open Lib Crud

/-! ## `FrontendApiServer::start` -/

/-- The options of `FrontendApiServerOptions` that `start` checks and uploads read. -/
structure FrontendUploadOptions where
  allowedReadRoot : Str := []
  allowedWriteRoot : Str := []
  maxUploadFileBytes : UInt64 := 16 * 1024 * 1024
  maxUploadDirectoryFiles : UInt64 := 1024
  maxUploadTotalDecodedBytes : UInt64 := 64 * 1024 * 1024
  directoryUploadThreads : UInt64 := 4
  requireJwt : Bool := true
  jwtSecret : Str := []
  deriving DecidableEq, Repr

structure FrontendApiServer where
  options : FrontendUploadOptions
  running : Bool := false
  deriving DecidableEq, Repr

/-- What the system answers: whether there is a directory at a path, its canonical path, and
what comes of listening. -/
structure Platform where
  isDirectory : Str → Bool
  canonical : Str → Option Str
  listen : FrontendUploadOptions → Status

def checkOptions (platform : Platform) (options : FrontendUploadOptions) : Status :=
  if options.requireJwt ∧ options.jwtSecret = [] then
    .failure .invalidArgument "JWT is required but jwt_secret is empty."
  else if options.allowedReadRoot ≠ [] ∧ !platform.isDirectory options.allowedReadRoot then
    .failure .invalidArgument "allowed_read_root must exist and be a directory."
  else if options.allowedWriteRoot ≠ [] ∧ !platform.isDirectory options.allowedWriteRoot then
    .failure .invalidArgument "allowed_write_root must exist and be a directory."
  else if options.maxUploadFileBytes = 0 ∨ options.maxUploadDirectoryFiles = 0 ∨
      options.maxUploadTotalDecodedBytes = 0 then
    .failure .invalidArgument "Upload limits must be positive values."
  else if options.maxUploadFileBytes > options.maxUploadTotalDecodedBytes then
    .failure .invalidArgument
      "max_upload_file_bytes must not exceed max_upload_total_decoded_bytes."
  else .success

def FrontendApiServer.start (platform : Platform) (server : FrontendApiServer) :
    Status × FrontendApiServer :=
  if server.running then (.success, server)
  else
    let checked := checkOptions platform server.options
    if !checked.ok then (checked, server)
    else
      let listening := platform.listen server.options
      if !listening.ok then (listening, server) else (.success, { server with running := true })

/-! ## What a request may be refused with -/

inductive HttpStatus where
  | badRequest | payloadTooLarge | serviceUnavailable
  deriving DecidableEq, Repr

/-- A response that says `ok: false`, or an exception of the standard library. -/
inductive Refusal where
  | respond (status : HttpStatus) (message : String)
  | lengthError
  deriving DecidableEq, Repr

/-- A container is given room for its elements, or `std::length_error` is thrown. -/
def reserve (element count : Nat) : Except Refusal Unit :=
  if count ≤ maxSize element then .ok () else .error .lengthError

/-! ## The size of what is decoded -/

def estimateBase64DecodedSize (encoded : Str) : Option UInt64 :=
  if encoded = [] then some 0
  else
    let len := encoded.length.toUInt64
    if len % 4 ≠ 0 then none
    else
      let padding : UInt64 :=
        (if len ≥ 1 ∧ encoded[(len - 1).toNat]? = some base64Pad then 1 else 0) +
          (if len ≥ 2 ∧ encoded[(len - 2).toNat]? = some base64Pad then 1 else 0)
      some (len / 4 * 3 - padding)

/-! ## The admission loop -/

structure UploadItem where
  relativePath : Str
  contentB64 : Str
  deriving DecidableEq, Repr

def hasParentTraversal (path : Str) : Bool := (Path.elements path).any (· == Path.dotDot)

/-- The two texts of a file of the request. -/
def uploadTexts (file : Json) : Option (Str × Str) :=
  match file.find (str "relative_path"), file.find (str "content_b64") with
  | some (.string relative), some (.string content) => some (relative, content)
  | _, _ => none

/-- One round of the loop, up to the size it estimates.  Each text is copied. -/
def estimateFile (options : FrontendUploadOptions) (file : Json) :
    Except Refusal (UploadItem × UInt64) :=
  match uploadTexts file with
  | none => .error (.respond .badRequest "files[] items require relative_path and content_b64")
  | some (relative, content) => do
      reserve 1 relative.length
      if relative = [] ∨ Path.isAbsolute relative ∨ hasParentTraversal relative then
        .error (.respond .badRequest "relative_path is invalid")
      else do
        reserve 1 content.length
        match estimateBase64DecodedSize content with
        | none => .error (.respond .badRequest "content_b64 has invalid length")
        | some estimated =>
            if estimated > options.maxUploadFileBytes then
              .error (.respond .payloadTooLarge "one file exceeds max_upload_file_bytes")
            else
              .ok ({ relativePath := Path.genericString (Path.elements relative)
                     contentB64 := content }, estimated)

/-- The rest of the round: the running total is compared with what remains beside the file. -/
def admitFile (options : FrontendUploadOptions) (total : UInt64) (file : Json) :
    Except Refusal (UInt64 × UploadItem) := do
  let (item, estimated) ← estimateFile options file
  if total > options.maxUploadTotalDecodedBytes - estimated then
    .error (.respond .payloadTooLarge "request exceeds max_upload_total_decoded_bytes")
  else .ok (total + estimated, item)

def admitFiles (options : FrontendUploadOptions) :
    UInt64 → List UploadItem → List Json → Except Refusal (UInt64 × List UploadItem)
  | total, items, [] => .ok (total, items)
  | total, items, file :: files => do
      let (total, item) ← admitFile options total file
      admitFiles options total (items ++ [item]) files

/-! ## The request -/

/-- What the workers of a request are started with. -/
structure UploadJob where
  destinationDir : Str
  allowedWriteRoot : Option Str
  items : List UploadItem
  workerCount : UInt64
  deriving DecidableEq, Repr

def uploadWorkers (options : FrontendUploadOptions) (body : Json) : Except Refusal UInt64 :=
  let configured := max 1 options.directoryUploadThreads
  match body.find (str "threads") with
  | none => .ok configured
  | some threads =>
      if !threads.isNumberUnsigned && !threads.isNumberInteger then
        .error (.respond .badRequest "threads must be a number")
      else
        let requested := Int64.ofInt threads.integer
        if requested ≤ 0 then .error (.respond .badRequest "threads must be positive")
        else .ok (min requested.toUInt64 configured)

/-- The canonical write root, where there is one. -/
def uploadRoot (platform : Platform) (options : FrontendUploadOptions) :
    Except Refusal (Option Str) :=
  if options.allowedWriteRoot = [] then .ok none
  else
    match platform.canonical options.allowedWriteRoot with
    | none => .error (.respond .serviceUnavailable "write root is misconfigured")
    | some root => .ok (some root)

/-- The size of an `UploadItem`, of two strings. -/
def uploadItemSize : Nat := 64

/-- The size of a `std::thread`. -/
def threadSize : Nat := 8

/-- The handler of a directory upload, up to the start of its workers. -/
def directoryUpload (platform : Platform) (options : FrontendUploadOptions) (body : Json) :
    Except Refusal UploadJob :=
  match body.find (str "destination_dir"), body.find (str "files") with
  | some (.string destination), some (.array files) => do
      reserve uploadItemSize files.length
      if files.length.toUInt64 > options.maxUploadDirectoryFiles then
        .error (.respond .payloadTooLarge "files count exceeds max_upload_directory_files")
      else
        let (_, items) ← admitFiles options 0 [] files
        reserve 1 destination.length
        let root ← uploadRoot platform options
        let workers ← uploadWorkers options body
        reserve threadSize workers.toNat
        return { destinationDir := destination, allowedWriteRoot := root, items := items
                 workerCount := workers }
  | _, _ => .error (.respond .badRequest "destination_dir and files[] are required")

/-! ## The workers -/

inductive UploadFailureReason where
  | invalidContent | fileLimit | totalLimit | outsideRoot | createDirectory | createFile | writeFile
  deriving DecidableEq, Repr

def UploadFailureReason.message : UploadFailureReason → String
  | .invalidContent => "content_b64 is invalid"
  | .fileLimit => "decoded file exceeds max_upload_file_bytes"
  | .totalLimit => "request exceeds max_upload_total_decoded_bytes"
  | .outsideRoot => "target path is outside allowed_write_root"
  | .createDirectory => "failed to create directory"
  | .createFile => "failed to create file"
  | .writeFile => "failed to write file"

structure UploadFailure where
  relativePath : Str
  reason : UploadFailureReason
  deriving DecidableEq, Repr

def UploadFailure.toJson (failure : UploadFailure) : Json :=
  jsonObject
    [("relative_path", .string failure.relativePath),
     ("message", .string (str failure.reason.message))]

/-- What the workers share. -/
structure UploadShared where
  nextIndex : UInt64 := 0
  successCount : UInt64 := 0
  totalDecodedBytes : UInt64 := 0
  failures : List UploadFailure := []
  deriving DecidableEq, Repr

/-- Where a worker stands: before it takes the next index, before it decodes, before each of
its two checks and the access between them, before it writes, before it counts a success or
notes a failure, and at its end. -/
inductive UploadPlace where
  | claiming
  | claimed (item : UploadItem)
  | decoded (item : UploadItem) (bytes : Str)
  | counting (item : UploadItem) (bytes : Str)
  | counted (item : UploadItem) (bytes : Str) (previous : UInt64)
  | writing (item : UploadItem) (bytes : Str)
  | written
  | failing (item : UploadItem) (reason : UploadFailureReason)
  | returned
  deriving DecidableEq, Repr

/-- `items[index]`, or the end of the items. -/
def claimItem (items : List UploadItem) (index : UInt64) : UploadPlace :=
  match items[index.toNat]? with
  | none => .returned
  | some item => .claimed item

def decodeItem (item : UploadItem) : UploadPlace :=
  match base64Decode item.contentB64 with
  | none => .failing item .invalidContent
  | some bytes => .decoded item bytes

def checkFileLimit (options : FrontendUploadOptions) (item : UploadItem) (bytes : Str) :
    UploadPlace :=
  if bytes.length.toUInt64 > options.maxUploadFileBytes then .failing item .fileLimit
  else .counting item bytes

def checkTotalLimit (options : FrontendUploadOptions) (item : UploadItem) (bytes : Str)
    (previous : UInt64) : UploadPlace :=
  if previous > options.maxUploadTotalDecodedBytes ∨
      bytes.length.toUInt64 > options.maxUploadTotalDecodedBytes - previous then
    .failing item .totalLimit
  else .writing item bytes

/-- What may become of a write: success, or one of these failures.  A target outside the
root is found only where there is a root. -/
inductive WriteOutcome (job : UploadJob) : Option UploadFailureReason → Prop
  | success : WriteOutcome job none
  | outsideRoot : job.allowedWriteRoot.isSome → WriteOutcome job (some .outsideRoot)
  | createDirectory : WriteOutcome job (some .createDirectory)
  | createFile : WriteOutcome job (some .createFile)
  | writeFile : WriteOutcome job (some .writeFile)

def afterWrite (item : UploadItem) : Option UploadFailureReason → UploadPlace
  | none => .written
  | some reason => .failing item reason

/-- One atomic move of a worker. -/
inductive UploadMove (options : FrontendUploadOptions) (job : UploadJob) :
    UploadShared → UploadPlace → UploadShared → UploadPlace → Prop
  | claim {shared : UploadShared} : UploadMove options job shared .claiming
      { shared with nextIndex := shared.nextIndex + 1 } (claimItem job.items shared.nextIndex)
  | decode {shared : UploadShared} {item : UploadItem} :
      UploadMove options job shared (.claimed item) shared (decodeItem item)
  | checkFile {shared : UploadShared} {item : UploadItem} {bytes : Str} :
      UploadMove options job shared (.decoded item bytes) shared (checkFileLimit options item bytes)
  | count {shared : UploadShared} {item : UploadItem} {bytes : Str} :
      UploadMove options job shared (.counting item bytes)
        { shared with
          totalDecodedBytes := shared.totalDecodedBytes + bytes.length.toUInt64 }
        (.counted item bytes shared.totalDecodedBytes)
  | checkTotal {shared : UploadShared} {item : UploadItem} {bytes : Str} {previous : UInt64} :
      UploadMove options job shared (.counted item bytes previous) shared
        (checkTotalLimit options item bytes previous)
  | write {shared : UploadShared} {item : UploadItem} {bytes : Str}
      {outcome : Option UploadFailureReason} : WriteOutcome job outcome →
      UploadMove options job shared (.writing item bytes) shared (afterWrite item outcome)
  | succeed {shared : UploadShared} : UploadMove options job shared .written
      { shared with successCount := shared.successCount + 1 } .claiming
  | fail {shared : UploadShared} {item : UploadItem} {reason : UploadFailureReason} :
      UploadMove options job shared (.failing item reason)
        { shared with
          failures := shared.failures ++ [{ relativePath := item.relativePath, reason := reason }] }
        .claiming

/-- The response to a request, when its workers have returned. -/
def UploadJob.response (job : UploadJob) (shared : UploadShared) : Json :=
  jsonObject
    ([("ok", .boolean shared.failures.isEmpty),
      ("destination_dir", .string job.destinationDir),
      ("threads_used", unsigned job.workerCount),
      ("total_files", unsigned job.items.length.toUInt64),
      ("uploaded_files", unsigned shared.successCount),
      ("failed_files", unsigned shared.failures.length.toUInt64),
      ("total_decoded_bytes", unsigned shared.totalDecodedBytes)] ++
    if shared.failures = [] then []
    else [("failures", .array (shared.failures.map UploadFailure.toJson))])

/-- The workers of a job, as they are started. -/
def UploadJob.start (job : UploadJob) : Workers job.workerCount.toNat UploadShared UploadPlace :=
  .start _ {} .claiming

/-- The states any interleaving of the workers comes to. -/
def UploadJob.Reaches (options : FrontendUploadOptions) (job : UploadJob)
    (s : Workers job.workerCount.toNat UploadShared UploadPlace) : Prop :=
  Workers.Run (UploadMove options job) job.start s

end ServerStorage.Hugin
