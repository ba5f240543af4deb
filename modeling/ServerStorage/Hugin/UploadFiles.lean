/-
# `ServerStorage.Hugin.UploadFiles` — `api/frontend_api_server.cpp`, where uploads are written

The handler of `file_upload_path` once the caller is known and the body is parsed, and the
workers of a directory upload, over a file system.  The check against the write root is one
move, since what it finds it would go on finding; every call after it is a move of its own,
between which those of other requests may come.

The check asks where the path leads now, and what is missing of it is taken as it is spelled;
the calls that follow go by the path as it was given.

**Proved here.**

    whatever the order of the calls of any number of requests, nothing outside of the write
      root is changed, if the paths do not go back up and no link in the root leads
      nowhere                                                       (`file_uploads_confined`)
    so it is for the workers of a directory upload             (`directory_upload_confined`)
    what was uploaded is what a download of the path serves       (`uploaded_is_downloaded`)

Both conditions matter.  A link to a name that is missing is itself found missing, and taken
as it is spelled; so is a name behind a `..` behind a missing one, be it that of a link.
-/
import ServerStorage.Hugin.Download
import ServerStorage.Hugin.UploadLimits
import ServerStorage.Lib.Confinement

namespace ServerStorage.Hugin

open Lib Crud Posix

/-! ## The upload of one file -/

inductive UploadStatus where
  | badRequest | forbidden | payloadTooLarge | internalServerError | serviceUnavailable
  deriving DecidableEq, Repr

inductive UploadResponse where
  | refused (status : UploadStatus) (message : String)
  | stored (path : Str) (sizeBytes : Nat)
  deriving DecidableEq, Repr

/-- What a request asks to be written, and where. -/
structure FileUpload where
  targetPath : Str
  decoded : Str
  deriving DecidableEq, Repr

/-- The three texts of the request. -/
def fileUploadTexts (body : Json) : Option (Str × Str × Str) :=
  match body.find (str "destination_dir"), body.find (str "file_name"),
    body.find (str "content_b64") with
  | some (.string destinationDir), some (.string fileName), some (.string contentB64) =>
      some (destinationDir, fileName, contentB64)
  | _, _, _ => none

/-- The handler, up to the check against the write root. -/
def admitFileUpload (options : FrontendUploadOptions) (body : Json) :
    Except UploadResponse FileUpload :=
  match fileUploadTexts body with
  | none =>
      .error (.refused .badRequest "destination_dir, file_name, content_b64 are required")
  | some (destinationDir, fileName, contentB64) =>
      if fileName = [] ∨ Path.hasParentPath fileName = true then
        .error (.refused .badRequest "file_name must be a single filename")
      else
        match base64Decode contentB64 with
        | none => .error (.refused .badRequest "content_b64 is invalid")
        | some decoded =>
            if decoded.length.toUInt64 > options.maxUploadFileBytes then
              .error (.refused .payloadTooLarge "upload exceeds max_upload_file_bytes")
            else if decoded.length.toUInt64 > options.maxUploadTotalDecodedBytes then
              .error (.refused .payloadTooLarge "upload exceeds max_upload_total_decoded_bytes")
            else .ok { targetPath := Path.join destinationDir fileName, decoded := decoded }

section Check

variable (system : System) (options : FrontendUploadOptions) (fs : FileSystem)

def canonicalizeWeakPath (path : Str) : Option (List Str) :=
  weaklyCanonical system fs (Route.ofPath path)

/-- What the write root has against the path. -/
def outsideWriteRoot (path : Str) : Option (UploadStatus × String) :=
  if options.allowedWriteRoot = [] then none
  else
    match Download.canonicalizeExistingPath system fs options.allowedWriteRoot,
      canonicalizeWeakPath system fs path with
    | none, _ => some (.serviceUnavailable, "write root is misconfigured")
    | some _, none => some (.badRequest, "target path is invalid")
    | some allowedRoot, some canonicalTarget =>
        if Download.isPathWithinRoot canonicalTarget allowedRoot then none
        else some (.forbidden, "target path is outside allowed_write_root")

end Check

def uploadFailure : FileCall → String
  | .createDirectories => "failed to create directory"
  | .openFile => "failed to create file"
  | .write => "failed to write file"

/-- The response to a request that was left to itself. -/
def fileUpload (system : System) (options : FrontendUploadOptions) (answers : Nat → Answer)
    (fs : FileSystem) (body : Json) : FileSystem × UploadResponse :=
  match admitFileUpload options body with
  | .error response => (fs, response)
  | .ok upload =>
      match outsideWriteRoot system options fs upload.targetPath with
      | some (status, message) => (fs, .refused status message)
      | none =>
          let route := Route.ofPath upload.targetPath
          match finish system route upload.decoded answers fs (startWriting route) with
          | (fs, none) => (fs, .stored upload.targetPath upload.decoded.length)
          | (fs, some call) => (fs, .refused .internalServerError (uploadFailure call))

/-! ## Many requests at once -/

/-- Where a request stands: before the check, before a call, and at its end. -/
inductive FileUploadPlace where
  | checking (upload : FileUpload)
  | writing (upload : FileUpload) (stage : WriteStage)
  | answered (response : UploadResponse)
  deriving DecidableEq, Repr

def beginUpload (options : FrontendUploadOptions) (body : Json) : FileUploadPlace :=
  match admitFileUpload options body with
  | .error response => .answered response
  | .ok upload => .checking upload

/-- After a call. -/
def FileUploadPlace.after (upload : FileUpload) : WriteStage → FileUploadPlace
  | .written => .answered (.stored upload.targetPath upload.decoded.length)
  | .failed call => .answered (.refused .internalServerError (uploadFailure call))
  | stage => .writing upload stage

/-- The next move of a request. -/
def FileUploadPlace.next (system : System) (options : FrontendUploadOptions) (answer : Answer)
    (fs : FileSystem) : FileUploadPlace → FileSystem × FileUploadPlace
  | .checking upload =>
      match outsideWriteRoot system options fs upload.targetPath with
      | some (status, message) => (fs, .answered (.refused status message))
      | none => (fs, .after upload (startWriting (Route.ofPath upload.targetPath)))
  | .writing upload stage =>
      let (fs, stage) :=
        advance system (Route.ofPath upload.targetPath) upload.decoded fs answer stage
      (fs, .after upload stage)
  | .answered response => (fs, .answered response)

inductive FileUploadMove (system : System) (options : FrontendUploadOptions) :
    FileSystem → FileUploadPlace → FileSystem → FileUploadPlace → Prop
  | next {fs : FileSystem} {place : FileUploadPlace} (answer : Answer) :
      FileUploadMove system options fs place (place.next system options answer fs).1
        (place.next system options answer fs).2

/-! ## A directory upload -/

/-- Where a worker stands: as before, and before a call while it writes. -/
inductive DirectoryPlace where
  | at (place : UploadPlace)
  | writing (item : UploadItem) (bytes : Str) (stage : WriteStage)
  deriving DecidableEq, Repr

def UploadFailureReason.ofCall : FileCall → UploadFailureReason
  | .createDirectories => .createDirectory
  | .openFile => .createFile
  | .write => .writeFile

def UploadJob.target (job : UploadJob) (item : UploadItem) : Str :=
  Path.join job.destinationDir item.relativePath

def UploadJob.outsideRoot (job : UploadJob) (system : System) (fs : FileSystem)
    (item : UploadItem) : Bool :=
  match job.allowedWriteRoot with
  | none => false
  | some root =>
      match canonicalizeWeakPath system fs (job.target item) with
      | none => true
      | some canonicalTarget => !Download.isPathWithinRoot canonicalTarget (Path.elements root)

/-- After a call. -/
def DirectoryPlace.after (item : UploadItem) (bytes : Str) : WriteStage → DirectoryPlace
  | .written => .at .written
  | .failed call => .at (.failing item (.ofCall call))
  | stage => .writing item bytes stage

/-- One move of a worker over the file system. -/
inductive DirectoryMove (system : System) (options : FrontendUploadOptions) (job : UploadJob) :
    UploadShared × FileSystem → DirectoryPlace → UploadShared × FileSystem → DirectoryPlace → Prop
  | move {shared shared' : UploadShared} {fs : FileSystem} {place place' : UploadPlace} :
      (∀ item bytes, place ≠ .writing item bytes) →
      UploadMove options job shared place shared' place' →
      DirectoryMove system options job (shared, fs) (.at place) (shared', fs) (.at place')
  | refuse {shared : UploadShared} {fs : FileSystem} {item : UploadItem} {bytes : Str} :
      job.outsideRoot system fs item = true →
      DirectoryMove system options job (shared, fs) (.at (.writing item bytes)) (shared, fs)
        (.at (.failing item .outsideRoot))
  | check {shared : UploadShared} {fs : FileSystem} {item : UploadItem} {bytes : Str} :
      job.outsideRoot system fs item = false →
      DirectoryMove system options job (shared, fs) (.at (.writing item bytes)) (shared, fs)
        (.after item bytes (startWriting (Route.ofPath (job.target item))))
  | call {shared : UploadShared} {fs : FileSystem} {item : UploadItem} {bytes : Str}
      {stage : WriteStage} (answer : Answer) :
      DirectoryMove system options job (shared, fs) (.writing item bytes stage)
        (shared, (advance system (Route.ofPath (job.target item)) bytes fs answer stage).1)
        (.after item bytes (advance system (Route.ofPath (job.target item)) bytes fs answer stage).2)

/-- What the system answers as long as the file system stays as it is. -/
def filePlatform (system : System) (fs : FileSystem) (listen : FrontendUploadOptions → Status) :
    Platform where
  isDirectory path := (status system fs path).any Node.isDirectory
  canonical path :=
    (resolve system fs path).reached.map fun place => Path.genericString (Path.rootDir :: place)
  listen := listen

/-! ## Requests that keep to the write root -/

section
variable {system : System} {options : FrontendUploadOptions} {root : Place} {fs fs' : FileSystem}
  {path : Str}

/-- The write root, as it was found: whatever is added, it stays so. -/
structure WriteRoot (system : System) (options : FrontendUploadOptions) (root : Place)
    (fs : FileSystem) : Prop where
  configured : options.allowedWriteRoot ≠ []
  reached : (resolve system fs options.allowedWriteRoot).reached = some root
  rooted : Rooted fs root

theorem WriteRoot.grows (h : WriteRoot system options root fs) (hgrows : Grows fs fs') :
    WriteRoot system options root fs' where
  configured := h.configured
  reached := hgrows.resolve h.reached
  rooted := h.rooted.grows hgrows

/-- What the write root has nothing against is confined to it. -/
theorem WriteRoot.confined (h : WriteRoot system options root fs)
    (hplain : (Route.ofPath path).Plain) (hinside : outsideWriteRoot system options fs path = none) :
    Confined system root (Route.ofPath path) fs := by
  have hcanonical : Download.canonicalizeExistingPath system fs options.allowedWriteRoot =
      some (Path.rootDir :: root) := by
    rw [Download.canonicalizeExistingPath, h.reached]
    rfl
  rw [outsideWriteRoot, if_neg h.configured, hcanonical] at hinside
  cases hweak : canonicalizeWeakPath system fs path with
  | none =>
      rw [hweak] at hinside
      cases hinside
  | some canonicalTarget =>
      rw [hweak] at hinside
      dsimp only at hinside
      split at hinside
      · next hwithin =>
          exact confined_of_weaklyCanonical hplain h.rooted hweak
            (Download.isPathWithinRoot_iff.mp hwithin)
      · cases hinside

/-- The request stands where it may stand. -/
def FileUploadPlace.Good (system : System) (root : Place) (fs : FileSystem) : FileUploadPlace → Prop
  | .checking upload => (Route.ofPath upload.targetPath).Plain
  | .writing upload stage =>
      (Route.ofPath upload.targetPath).Plain ∧
        Confined system root (Route.ofPath upload.targetPath) fs ∧
        StageOf root (Route.ofPath upload.targetPath) stage
  | .answered _ => True

theorem FileUploadPlace.good_after {upload : FileUpload} {stage : WriteStage}
    (hplain : (Route.ofPath upload.targetPath).Plain)
    (hconfined : Confined system root (Route.ofPath upload.targetPath) fs)
    (hstage : StageOf root (Route.ofPath upload.targetPath) stage) :
    (FileUploadPlace.after upload stage).Good system root fs := by
  cases stage with
  | written => trivial
  | failed call => trivial
  | looking done todo => exact ⟨hplain, hconfined, hstage⟩
  | making done name todo => exact ⟨hplain, hconfined, hstage⟩
  | opening => exact ⟨hplain, hconfined, hstage⟩
  | writing place => exact ⟨hplain, hconfined, hstage⟩

/-- Others may add to the file system meanwhile. -/
theorem FileUploadPlace.Good.grows {place : FileUploadPlace} (h : place.Good system root fs)
    (hgrows : Grows fs fs') : place.Good system root fs' := by
  cases place with
  | checking upload => exact h
  | writing upload stage =>
      obtain ⟨hplain, hconfined, hstage⟩ := h
      exact ⟨hplain, hconfined.grows hgrows, hstage⟩
  | answered response => trivial

/-- A move of a request only adds, and only in the write root. -/
theorem FileUploadPlace.Good.next {place : FileUploadPlace} (h : place.Good system root fs)
    (hroot : WriteRoot system options root fs) (answer : Answer) :
    AddsBelow root fs (place.next system options answer fs).1 ∧
      (place.next system options answer fs).2.Good system root
        (place.next system options answer fs).1 := by
  cases place with
  | checking upload =>
      rw [FileUploadPlace.next]
      split
      · exact ⟨.refl fs, trivial⟩
      · next hinside =>
          exact ⟨.refl fs, good_after h (hroot.confined h hinside) stageOf_start⟩
  | writing upload stage =>
      obtain ⟨hplain, hconfined, hstage⟩ := h
      obtain ⟨hgrows, hwithin, hnext⟩ :=
        hconfined.advance hplain.whole hstage upload.decoded answer
      exact ⟨⟨hgrows, hwithin⟩, good_after hplain (hconfined.grows hgrows) hnext⟩
  | answered response => exact ⟨.refl fs, trivial⟩

theorem FileUploadMove.of_next {fs fs' : FileSystem} {place place' : FileUploadPlace}
    (answer : Answer) (h : place.next system options answer fs = (fs', place')) :
    FileUploadMove system options fs place fs' place' := by
  have hmove : FileUploadMove system options fs place
      (place.next system options answer fs).1 (place.next system options answer fs).2 :=
    .next answer
  rw [h] at hmove
  exact hmove

/-- **Uploads keep to the write root.**  Any number of requests are answered at the same time,
their calls in any order: nothing that stood in the file system is taken away, and nothing
outside of the write root is changed. -/
theorem file_uploads_confined {n : Nat} {s t : Workers n FileSystem FileUploadPlace}
    (hroot : options.allowedWriteRoot ≠ [])
    (hreached : (resolve system s.shared options.allowedWriteRoot).reached = some root)
    (hdangling : NoDangling s.shared root)
    (hbegin : ∀ w, ∃ body, s.place w = beginUpload options body ∧
      ∀ upload, admitFileUpload options body = .ok upload →
        (0 : UInt8) ∉ upload.targetPath ∧ Path.dotDot ∉ Path.names upload.targetPath)
    (hrun : Workers.Run (FileUploadMove system options) s t) :
    Grows s.shared t.shared ∧ Within root s.shared t.shared := by
  have hstart : WriteRoot system options root s.shared :=
    ⟨hroot, hreached, rooted_of_resolve hreached hdangling⟩
  let Good : FileSystem → FileUploadPlace → Prop := fun fs place =>
    WriteRoot system options root fs ∧ place.Good system root fs
  have hrely : ∀ {a b : FileSystem} {place : FileUploadPlace},
      AddsBelow root a b → Good a place → Good b place := by
    intro a b place hadds hgood
    exact ⟨hgood.1.grows hadds.1, hgood.2.grows hadds.1⟩
  have hmove : ∀ {a b : FileSystem} {place place' : FileUploadPlace}, Good a place →
      FileUploadMove system options a place b place' → AddsBelow root a b ∧ Good b place' := by
    intro a b place place' hgood hmove
    cases hmove with
    | next answer =>
        obtain ⟨hadds, hnext⟩ := hgood.2.next hgood.1 answer
        exact ⟨hadds, hgood.1.grows hadds.1, hnext⟩
  have hgood : ∀ w, Good s.shared (s.place w) := by
    intro w
    obtain ⟨body, hplace, hplain⟩ := hbegin w
    refine ⟨hstart, ?_⟩
    rw [hplace, beginUpload]
    split
    · trivial
    · next upload hadmit =>
        obtain ⟨hnull, hdots⟩ := hplain upload hadmit
        exact plain_ofPath hnull hdots
  have hkept : AddsBelow root s.shared t.shared ∧ ∀ w, Good t.shared (t.place w) :=
    hrun.guarantees AddsBelow.refl AddsBelow.trans hrely hmove hgood
  exact hkept.1

end

/-! ### Below `/r` -/

def keySystem : System := { symloopMax := 40 }

/-- The write root is `/r`. -/
def keyOptions : FrontendUploadOptions := { allowedWriteRoot := str "/r" }

def keyBody (destinationDir : String) : Json :=
  jsonObject [("destination_dir", .string (str destinationDir)),
    ("file_name", .string (str "key")), ("content_b64", .string (str "QUJD"))]

theorem searchable_top : (Download.besides none).searchable [] = true := rfl

theorem searchable_keyRoot : (Download.besides none).searchable [str "r"] = true := rfl

theorem walk_keyRoot (rest : List Str) : walk (Download.besides none) 40 [] (str "r" :: rest) =
    (walk (Download.besides none) 40 [str "r"] rest).consult [str "r"] := by
  have hkind : ∀ target, Node.directory true ≠ .symlink target := by
    intro target h
    cases h
  exact walk_onward (.directory true) rfl (by decide) (by decide) rfl hkind

theorem reached_besides :
    (resolve keySystem (Download.besides none) (str "/r")).reached = some [str "r"] := by
  rw [Download.resolve_name (str "r") (by decide), show keySystem.symloopMax = 40 from rfl,
    walk_keyRoot, walk]
  rfl

theorem noDangling_besides : NoDangling (Download.besides none) [str "r"] := by
  intro place name links _ hlink
  simp only [Download.besides] at hlink
  split at hlink
  · cases hlink
  · split at hlink
    · cases hlink
    · simp at hlink

theorem lookUp_keyRoot : lookUp keySystem true (Download.besides none) [str "r"] =
    .found [str "r"] := by
  refine lookUp_of_reached (by decide) ?_
  show (walk (Download.besides none) 40 [] [str "r"]).reached = some [str "r"]
  rw [walk_keyRoot, walk]
  rfl

theorem creation_newKey :
    creation (Download.besides none) 40 [] [str "r", str "key"] = some [str "r", str "key"] := by
  rw [creation, if_pos searchable_top, if_neg (by decide), if_neg (by decide)]
  show creation (Download.besides none) 40 [str "r"] [str "key"] = _
  rw [creation, if_pos searchable_keyRoot, if_neg (by decide), if_neg (by decide)]
  rfl

theorem notFound_newKey :
    notFound (Download.besides none) 40 [] [str "r", str "key"] = true := by
  rw [notFound, if_pos searchable_top, if_neg (by decide), if_neg (by decide)]
  show notFound (Download.besides none) 40 [str "r"] [str "key"] = true
  rw [notFound, if_pos searchable_keyRoot, if_neg (by decide), if_neg (by decide)]
  rfl

theorem lookUp_newKey : lookUp keySystem true (Download.besides none) [str "r", str "key"] =
    .missing := by
  refine lookUp_of_notFound (by decide) ?_ notFound_newKey
  show (walk (Download.besides none) 40 [] [str "r", str "key"]).reached = none
  rw [walk_keyRoot, walk_missing searchable_keyRoot (by decide) (by decide) rfl]
  rfl

theorem weaklyCanonical_newKey :
    weaklyCanonical keySystem (Download.besides none) ⟨true, [str "r", str "key"]⟩ =
      some [Path.rootDir, str "r", str "key"] := by
  have hleading : leading keySystem true (Download.besides none) [] (some [])
      [str "r", str "key"] = some (some [str "r"], [str "key"]) := by
    rw [leading_found lookUp_keyRoot]
    exact leading_missing lookUp_newKey
  simp only [weaklyCanonical, lookUp_newKey, if_true, hleading]
  decide

theorem openFile_newKey :
    openFile keySystem true (Download.besides none) [str "r", str "key"] =
      some [str "r", str "key"] :=
  openFile_of_creation (by decide) creation_newKey rfl

theorem outsideWriteRoot_newKey :
    outsideWriteRoot keySystem keyOptions (Download.besides none) (str "/r/key") = none := by
  have hroute : Route.ofPath (str "/r/key") = ⟨true, [str "r", str "key"]⟩ := by decide
  have hroot : Download.canonicalizeExistingPath keySystem (Download.besides none)
      keyOptions.allowedWriteRoot = some [Path.rootDir, str "r"] := by
    rw [Download.canonicalizeExistingPath, show keyOptions.allowedWriteRoot = str "/r" from rfl,
      reached_besides]
    rfl
  rw [outsideWriteRoot, if_neg (by decide), hroot, canonicalizeWeakPath, hroute,
    weaklyCanonical_newKey]
  decide

def keyUpload : FileUpload := { targetPath := str "/r/key", decoded := str "ABC" }

def keyPlace : Place := [str "r", str "key"]

def keyRoute : Route := { absolute := true, parts := keyPlace }

/-- The file is there, and empty. -/
def keyOpened : FileSystem := setContents (Download.besides none) keyPlace []

theorem routeOf_key : Route.ofPath (str "/r/key") = keyRoute := by decide

theorem looking_key (answer : Answer) (bytes : Str) :
    advance keySystem keyRoute bytes (Download.besides none) answer (.looking [] [str "r"]) =
      (Download.besides none, .looking [str "r"] []) := by
  have hfound : lookUp keySystem keyRoute.absolute (Download.besides none) ([] ++ [str "r"]) =
      .found [str "r"] := lookUp_keyRoot
  rw [advance, hfound]
  rfl

theorem opening_key (bytes : Str) :
    advance keySystem keyRoute bytes (Download.besides none) {} .opening =
      (keyOpened, .writing keyPlace) := by
  have hopen : openFile keySystem keyRoute.absolute (Download.besides none) keyRoute.parts =
      some keyPlace := openFile_newKey
  rw [advance, if_pos rfl, hopen]
  rfl

/-- Two requests for one file are both checked before either makes a call; then one of them
opens the file and writes it. -/
theorem file_uploads_confined_written :
    ∃ t : Workers 2 FileSystem FileUploadPlace,
      t.place 0 = .answered (.stored (str "/r/key") 3) ∧
      t.place 1 = .writing keyUpload (.looking [] [str "r"]) ∧
      t.shared.node keyPlace = some (.regular (some (str "ABC"))) ∧
      Grows (Download.besides none) t.shared ∧
      Within [str "r"] (Download.besides none) t.shared := by
  let s : Workers 2 FileSystem FileUploadPlace :=
    .start 2 (Download.besides none) (beginUpload keyOptions (keyBody "/r"))
  have hok : admitFileUpload keyOptions (keyBody "/r") = .ok keyUpload := by decide
  have hbegin : beginUpload keyOptions (keyBody "/r") = .checking keyUpload := by
    rw [beginUpload, hok]
  have hcheck : FileUploadPlace.next keySystem keyOptions {} (Download.besides none)
      (.checking keyUpload) =
      (Download.besides none, .writing keyUpload (.looking [] [str "r"])) := by
    rw [FileUploadPlace.next, keyUpload, outsideWriteRoot_newKey]
    rfl
  have hlook : FileUploadPlace.next keySystem keyOptions {} (Download.besides none)
      (.writing keyUpload (.looking [] [str "r"])) =
      (Download.besides none, .writing keyUpload (.looking [str "r"] [])) := by
    rw [FileUploadPlace.next, show Route.ofPath keyUpload.targetPath = keyRoute from routeOf_key,
      looking_key]
    rfl
  have hopening : FileUploadPlace.next keySystem keyOptions {} (Download.besides none)
      (.writing keyUpload .opening) = (keyOpened, .writing keyUpload (.writing keyPlace)) := by
    rw [FileUploadPlace.next, show Route.ofPath keyUpload.targetPath = keyRoute from routeOf_key,
      opening_key]
    rfl
  have hstart : Workers.Run (FileUploadMove keySystem keyOptions) s s := .refl
  have hchecked := (hstart.step 0 hbegin (.of_next {} hcheck)).step 1 hbegin (.of_next {} hcheck)
  have hlooked := (hchecked.step 0 rfl (.of_next {} hlook)).step 0 rfl (.next {})
  have hopened := hlooked.step 0 rfl (.of_next {} hopening)
  have hwritten := hopened.step 0 rfl (.next {})
  have hconfined := file_uploads_confined (by decide) reached_besides noDangling_besides ?_ hwritten
  · exact ⟨_, rfl, rfl, rfl, hconfined⟩
  · intro w
    refine ⟨keyBody "/r", rfl, ?_⟩
    intro upload hadmit
    obtain rfl := Except.ok.inj (hok.symm.trans hadmit)
    decide

/-! ## The items of a job -/

/-- The paths of the items do not go back up. -/
def ItemsOnward (items : List UploadItem) : Prop :=
  ∀ item ∈ items, Path.dotDot ∉ Path.names item.relativePath

theorem estimateFile_onward {options : FrontendUploadOptions} {file : Json} {item : UploadItem}
    {estimated : UInt64} (h : estimateFile options file = .ok (item, estimated)) :
    Path.dotDot ∉ Path.names item.relativePath := by
  rw [estimateFile] at h
  split at h
  · cases h
  · next relative content _ =>
      obtain ⟨_, -, h⟩ := Lmdb.except_bind_ok.mp h
      split at h
      · cases h
      · next hvalid =>
          obtain ⟨-, hvalid⟩ := not_or.mp hvalid
          obtain ⟨habsolute, htraversal⟩ := not_or.mp hvalid
          obtain ⟨_, -, h⟩ := Lmdb.except_bind_ok.mp h
          split at h
          · cases h
          · split at h
            · cases h
            · obtain ⟨rfl, -⟩ := Prod.mk.inj (Except.ok.inj h)
              rw [Path.names_genericString (Bool.eq_false_iff.mpr habsolute)]
              intro hmem
              refine htraversal (List.any_eq_true.mpr ⟨Path.dotDot, ?_, beq_self_eq_true _⟩)
              exact List.mem_append_left _ (List.mem_append_right _ hmem)

theorem admitFiles_onward {options : FrontendUploadOptions} {files : List Json} :
    ∀ {total total' : UInt64} {items items' : List UploadItem}, ItemsOnward items →
      admitFiles options total items files = .ok (total', items') → ItemsOnward items' := by
  induction files with
  | nil =>
      intro total total' items items' hitems h
      obtain ⟨-, rfl⟩ := Prod.mk.inj (Except.ok.inj h)
      exact hitems
  | cons file files ih =>
      intro total total' items items' hitems h
      rw [admitFiles] at h
      obtain ⟨⟨next, item⟩, hfile, h⟩ := Lmdb.except_bind_ok.mp h
      refine ih ?_ h
      rw [admitFile] at hfile
      obtain ⟨⟨item', estimated⟩, hestimate, hfile⟩ := Lmdb.except_bind_ok.mp hfile
      dsimp only at hfile
      split at hfile
      · cases hfile
      · obtain ⟨-, rfl⟩ := Prod.mk.inj (Except.ok.inj hfile)
        intro i hi
        rcases List.mem_append.mp hi with hi | hi
        · exact hitems i hi
        · rw [List.mem_singleton.mp hi]
          exact estimateFile_onward hestimate

/-- What a job is started with, as far as paths go. -/
theorem directoryUpload_paths {platform : Platform} {options : FrontendUploadOptions} {body : Json}
    {job : UploadJob} (h : directoryUpload platform options body = .ok job) :
    ItemsOnward job.items ∧ uploadRoot platform options = .ok job.allowedWriteRoot := by
  rw [directoryUpload] at h
  split at h
  · obtain ⟨_, -, h⟩ := Lmdb.except_bind_ok.mp h
    split at h
    · cases h
    · obtain ⟨⟨total, items⟩, hadmit, h⟩ := Lmdb.except_bind_ok.mp h
      obtain ⟨_, -, h⟩ := Lmdb.except_bind_ok.mp h
      obtain ⟨root, hroot, h⟩ := Lmdb.except_bind_ok.mp h
      obtain ⟨workers, -, h⟩ := Lmdb.except_bind_ok.mp h
      obtain ⟨_, -, h⟩ := Lmdb.except_bind_ok.mp h
      obtain rfl := Except.ok.inj h
      refine ⟨admitFiles_onward ?_ hadmit, hroot⟩
      intro item hitem
      cases hitem
  · cases h

/-! ## Workers that keep to the write root -/

def UploadPlace.item : UploadPlace → Option UploadItem
  | .claimed item | .decoded item _ | .counting item _ | .counted item _ _ | .writing item _
  | .failing item _ => some item
  | .claiming | .written | .returned => none

section
variable {system : System} {options : FrontendUploadOptions} {root : Place} {fs fs' : FileSystem}
  {job : UploadJob}

/-- A worker is at an item of the job. -/
theorem UploadMove.item_mem {shared shared' : UploadShared} {place place' : UploadPlace}
    (h : UploadMove options job shared place shared' place')
    (hitem : ∀ item ∈ place.item, item ∈ job.items) : ∀ item ∈ place'.item, item ∈ job.items := by
  cases h with
  | claim =>
      intro item hplace
      rw [claimItem] at hplace
      split at hplace
      · cases hplace
      · next hfound =>
          obtain rfl := Option.some.inj hplace
          exact List.mem_of_getElem? hfound
  | decode =>
      intro item hplace
      rw [decodeItem] at hplace
      split at hplace <;> exact hitem item hplace
  | checkFile =>
      intro item hplace
      rw [checkFileLimit] at hplace
      split at hplace <;> exact hitem item hplace
  | count => exact hitem
  | checkTotal =>
      intro item hplace
      rw [checkTotalLimit] at hplace
      split at hplace <;> exact hitem item hplace
  | @write item bytes outcome houtcome =>
      intro item' hplace
      cases outcome with
      | none => cases hplace
      | some reason => exact hitem item' hplace
  | succeed =>
      intro item hplace
      cases hplace
  | fail =>
      intro item hplace
      cases hplace

/-- The write root of the job, as it was found when the job was started. -/
structure JobRoot (system : System) (job : UploadJob) (root : Place) (fs : FileSystem) : Prop where
  written : ∃ text, job.allowedWriteRoot = some text ∧ Path.elements text = Path.rootDir :: root
  rooted : Rooted fs root
  plain : ∀ item ∈ job.items, (Route.ofPath (job.target item)).Plain

theorem JobRoot.grows (h : JobRoot system job root fs) (hgrows : Grows fs fs') :
    JobRoot system job root fs' where
  written := h.written
  rooted := h.rooted.grows hgrows
  plain := h.plain

theorem JobRoot.confined (h : JobRoot system job root fs) {item : UploadItem}
    (hitem : item ∈ job.items) (hinside : job.outsideRoot system fs item = false) :
    Confined system root (Route.ofPath (job.target item)) fs := by
  obtain ⟨text, hwritten, helements⟩ := h.written
  rw [UploadJob.outsideRoot, hwritten] at hinside
  dsimp only at hinside
  cases hweak : canonicalizeWeakPath system fs (job.target item) with
  | none =>
      rw [hweak] at hinside
      cases hinside
  | some canonicalTarget =>
      rw [hweak, helements] at hinside
      exact confined_of_weaklyCanonical (h.plain item hitem) h.rooted hweak
        (Download.isPathWithinRoot_iff.mp ((Bool.not_eq_false' _).mp hinside))

/-- The worker stands where it may stand. -/
def DirectoryPlace.Good (system : System) (job : UploadJob) (root : Place) (fs : FileSystem) :
    DirectoryPlace → Prop
  | .at place => ∀ item ∈ place.item, item ∈ job.items
  | .writing item _ stage =>
      item ∈ job.items ∧ Confined system root (Route.ofPath (job.target item)) fs ∧
        StageOf root (Route.ofPath (job.target item)) stage

theorem DirectoryPlace.good_after {item : UploadItem} {bytes : Str} {stage : WriteStage}
    (hitem : item ∈ job.items) (hconfined : Confined system root (Route.ofPath (job.target item)) fs)
    (hstage : StageOf root (Route.ofPath (job.target item)) stage) :
    (DirectoryPlace.after item bytes stage).Good system job root fs := by
  have hfailing : ∀ reason, ∀ i ∈ (UploadPlace.failing item reason).item, i ∈ job.items := by
    intro reason i hi
    obtain rfl := Option.some.inj hi
    exact hitem
  cases stage with
  | written =>
      intro i hi
      cases hi
  | failed call => exact hfailing _
  | looking done todo => exact ⟨hitem, hconfined, hstage⟩
  | making done name todo => exact ⟨hitem, hconfined, hstage⟩
  | opening => exact ⟨hitem, hconfined, hstage⟩
  | writing place => exact ⟨hitem, hconfined, hstage⟩

theorem DirectoryPlace.Good.grows {place : DirectoryPlace} (h : place.Good system job root fs)
    (hgrows : Grows fs fs') : place.Good system job root fs' := by
  cases place with
  | «at» place => exact h
  | writing item bytes stage =>
      obtain ⟨hitem, hconfined, hstage⟩ := h
      exact ⟨hitem, hconfined.grows hgrows, hstage⟩

/-- A move of a worker only adds, and only in the write root. -/
theorem DirectoryMove.adds {shared shared' : UploadShared} {place place' : DirectoryPlace}
    (h : DirectoryMove system options job (shared, fs) place (shared', fs') place')
    (hroot : JobRoot system job root fs) (hplace : place.Good system job root fs) :
    AddsBelow root fs fs' ∧ place'.Good system job root fs' := by
  cases h with
  | move _ hmove => exact ⟨.refl fs, hmove.item_mem hplace⟩
  | refuse _ => exact ⟨.refl fs, hplace⟩
  | @check _ _ item bytes hinside =>
      have hitem : item ∈ job.items := hplace item rfl
      exact ⟨.refl fs, DirectoryPlace.good_after hitem (hroot.confined hitem hinside) stageOf_start⟩
  | @call _ _ item bytes stage answer =>
      obtain ⟨hitem, hconfined, hstage⟩ := hplace
      obtain ⟨hgrows, hwithin, hnext⟩ :=
        hconfined.advance (hroot.plain item hitem).whole hstage bytes answer
      exact ⟨⟨hgrows, hwithin⟩, DirectoryPlace.good_after hitem (hconfined.grows hgrows) hnext⟩

end

/-! ## The workers as they were -/

/-- A worker that is at a call is one that writes. -/
def DirectoryPlace.plain : DirectoryPlace → UploadPlace
  | .at place => place
  | .writing item bytes _ => .writing item bytes

section
variable {system : System} {options : FrontendUploadOptions} {job : UploadJob}

/-- After a call the worker goes on writing, or this has become of it. -/
theorem DirectoryPlace.plain_after (item : UploadItem) (bytes : Str) (stage : WriteStage) :
    (DirectoryPlace.after item bytes stage).plain = .writing item bytes ∨
      ∃ outcome, WriteOutcome job outcome ∧
        (DirectoryPlace.after item bytes stage).plain = afterWrite item outcome := by
  cases stage with
  | looking done todo => exact .inl rfl
  | making done name todo => exact .inl rfl
  | opening => exact .inl rfl
  | writing place => exact .inl rfl
  | written => exact .inr ⟨none, .success, rfl⟩
  | failed call =>
      cases call with
      | createDirectories => exact .inr ⟨_, .createDirectory, rfl⟩
      | openFile => exact .inr ⟨_, .createFile, rfl⟩
      | write => exact .inr ⟨_, .writeFile, rfl⟩

/-- A move over the file system is a move of the worker, or none. -/
theorem DirectoryMove.plain {shared shared' : UploadShared} {fs fs' : FileSystem}
    {place place' : DirectoryPlace}
    (h : DirectoryMove system options job (shared, fs) place (shared', fs') place') :
    (shared' = shared ∧ place'.plain = place.plain) ∨
      UploadMove options job shared place.plain shared' place'.plain := by
  have hafter : ∀ (item : UploadItem) (bytes : Str) (stage : WriteStage),
      (DirectoryPlace.after item bytes stage).plain = .writing item bytes ∨
        UploadMove options job shared (.writing item bytes) shared
          (DirectoryPlace.after item bytes stage).plain := by
    intro item bytes stage
    rcases @DirectoryPlace.plain_after job item bytes stage with hsame | ⟨outcome, houtcome, hnext⟩
    · exact .inl hsame
    · refine .inr ?_
      rw [hnext]
      exact .write houtcome
  cases h with
  | move _ hmove => exact .inr hmove
  | @refuse _ _ item bytes houtside =>
      have hroot : job.allowedWriteRoot.isSome := by
        rw [UploadJob.outsideRoot] at houtside
        split at houtside
        · cases houtside
        · next hroot =>
            rw [hroot]
            rfl
      exact .inr (.write (.outsideRoot hroot))
  | check _ =>
      rcases hafter _ _ _ with hsame | hmove
      · exact .inl ⟨rfl, hsame⟩
      · exact .inr hmove
  | call answer =>
      rcases hafter _ _ _ with hsame | hmove
      · exact .inl ⟨rfl, hsame⟩
      · exact .inr hmove

/-- **A run over the file system is a run of the workers**, in which each write has some outcome. -/
theorem directory_run_plain {n : Nat} {s t : Workers n (UploadShared × FileSystem) DirectoryPlace}
    (h : Workers.Run (DirectoryMove system options job) s t) :
    Workers.Run (UploadMove options job) (s.view Prod.fst DirectoryPlace.plain)
      (t.view Prod.fst DirectoryPlace.plain) := by
  refine h.view Prod.fst DirectoryPlace.plain ?_
  rintro ⟨shared, fs⟩ place ⟨shared', fs'⟩ place' hmove
  exact hmove.plain

end

/-! ## A whole directory upload -/

section
variable {system : System} {options : FrontendUploadOptions} {root : Place} {fs : FileSystem}
  {listen : FrontendUploadOptions → Status} {body : Json} {job : UploadJob}

/-- What a job that has been started knows of the write root. -/
theorem jobRoot_of_start (hroot : options.allowedWriteRoot ≠ [])
    (hworking : ∀ c ∈ system.workingDirectory, Path.sep ∉ c)
    (hreached : (resolve system fs options.allowedWriteRoot).reached = some root)
    (hdangling : NoDangling fs root)
    (hjob : directoryUpload (filePlatform system fs listen) options body = .ok job)
    (hnull : ∀ item ∈ job.items, (0 : UInt8) ∉ job.target item)
    (hdots : Path.dotDot ∉ Path.names job.destinationDir) : JobRoot system job root fs := by
  obtain ⟨honward, hwritten⟩ := directoryUpload_paths hjob
  constructor
  case written =>
    rw [uploadRoot, if_neg hroot] at hwritten
    simp only [filePlatform, hreached, Option.map_some] at hwritten
    exact ⟨_, (Except.ok.inj hwritten).symm, elements_canonical hworking hreached⟩
  case rooted => exact rooted_of_resolve hreached hdangling
  case plain =>
    intro item hitem
    refine plain_ofPath (hnull item hitem) ?_
    intro hmem
    rcases Path.mem_names_join hmem with hdestination | hrelative
    · exact hdots hdestination
    · exact honward item hitem hrelative

/-- The workers of a job over a file system, as they are started. -/
def UploadJob.startOver (job : UploadJob) (fs : FileSystem) :
    Workers job.workerCount.toNat (UploadShared × FileSystem) DirectoryPlace :=
  .start _ ({}, fs) (.at .claiming)

/-- **A directory upload keeps to the write root.**  In whatever order its workers make their
calls, it is one of the runs of the workers, nothing that stood in the file system is taken
away, and nothing outside of the write root is changed. -/
theorem directory_upload_confined
    {s : Workers job.workerCount.toNat (UploadShared × FileSystem) DirectoryPlace}
    (hroot : options.allowedWriteRoot ≠ [])
    (hworking : ∀ c ∈ system.workingDirectory, Path.sep ∉ c)
    (hreached : (resolve system fs options.allowedWriteRoot).reached = some root)
    (hdangling : NoDangling fs root)
    (hjob : directoryUpload (filePlatform system fs listen) options body = .ok job)
    (hnull : ∀ item ∈ job.items, (0 : UInt8) ∉ job.target item)
    (hdots : Path.dotDot ∉ Path.names job.destinationDir)
    (hrun : Workers.Run (DirectoryMove system options job) (job.startOver fs) s) :
    job.Reaches options (s.view Prod.fst DirectoryPlace.plain) ∧
      Grows fs s.shared.2 ∧ Within root fs s.shared.2 := by
  have hstart := jobRoot_of_start hroot hworking hreached hdangling hjob hnull hdots
  let Good : UploadShared × FileSystem → DirectoryPlace → Prop := fun shared place =>
    JobRoot system job root shared.2 ∧ place.Good system job root shared.2
  let Guarantee : UploadShared × FileSystem → UploadShared × FileSystem → Prop :=
    fun a b => AddsBelow root a.2 b.2
  have hrely : ∀ {a b : UploadShared × FileSystem} {place : DirectoryPlace},
      Guarantee a b → Good a place → Good b place := by
    intro a b place hadds hgood
    exact ⟨hgood.1.grows hadds.1, hgood.2.grows hadds.1⟩
  have hmove : ∀ {a b : UploadShared × FileSystem} {place place' : DirectoryPlace},
      Good a place → DirectoryMove system options job a place b place' →
        Guarantee a b ∧ Good b place' := by
    rintro ⟨shared, fs⟩ ⟨shared', fs'⟩ place place' hgood hmove
    obtain ⟨hadds, hnext⟩ := hmove.adds hgood.1 hgood.2
    exact ⟨hadds, hgood.1.grows hadds.1, hnext⟩
  have hgood : ∀ w, Good (job.startOver fs).shared ((job.startOver fs).place w) := by
    intro w
    refine ⟨hstart, ?_⟩
    intro item hitem
    cases hitem
  have hkept : Guarantee (job.startOver fs).shared s.shared ∧ ∀ w, Good s.shared (s.place w) :=
    hrun.guarantees (fun shared => AddsBelow.refl shared.2) AddsBelow.trans hrely hmove hgood
  exact ⟨directory_run_plain hrun, hkept.1⟩

end

def keyItem : UploadItem := { relativePath := str "key", contentB64 := str "QUJD" }

def keyFilesBody : Json :=
  jsonObject
    [("destination_dir", .string (str "/r")),
     ("files", .array
       [jsonObject [("relative_path", .string (str "key")), ("content_b64", .string (str "QUJD"))]])]

def keyJob : UploadJob where
  destinationDir := str "/r"
  allowedWriteRoot := some (str "/r")
  items := [keyItem]
  workerCount := 4

theorem directoryUpload_key {listen : FrontendUploadOptions → Status} :
    directoryUpload (filePlatform keySystem (Download.besides none) listen) keyOptions
      keyFilesBody = .ok keyJob := by
  have hroot : uploadRoot (filePlatform keySystem (Download.besides none) listen) keyOptions =
      .ok (some (str "/r")) := by
    rw [uploadRoot, if_neg (by decide)]
    simp only [filePlatform, keyOptions, reached_besides]
    rfl
  have hdestination : keyFilesBody.find (str "destination_dir") = some (.string (str "/r")) := rfl
  have hfiles : keyFilesBody.find (str "files") = some (.array
      [jsonObject [("relative_path", .string (str "key")), ("content_b64", .string (str "QUJD"))]]) :=
    rfl
  rw [directoryUpload, hdestination, hfiles]
  simp only [hroot]
  rfl

/-- A worker takes the file, finds it inside of the root, opens it, writes it and counts it,
while another one finds that nothing is left. -/
theorem directory_upload_confined_written :
    ∃ s : Workers keyJob.workerCount.toNat (UploadShared × FileSystem) DirectoryPlace,
      s.shared.1 = { nextIndex := 2, successCount := 1, totalDecodedBytes := 3 } ∧
      s.place (1 : Fin 4) = .at .returned ∧
      s.shared.2.node keyPlace = some (.regular (some (str "ABC"))) ∧
      keyJob.Reaches keyOptions (s.view Prod.fst DirectoryPlace.plain) ∧
      Grows (Download.besides none) s.shared.2 ∧
      Within [str "r"] (Download.besides none) s.shared.2 := by
  let first : Fin keyJob.workerCount.toNat := (0 : Fin 4)
  let second : Fin keyJob.workerCount.toNat := (1 : Fin 4)
  have htarget : Route.ofPath (keyJob.target keyItem) = keyRoute := by decide
  have hinside : keyJob.outsideRoot keySystem (Download.besides none) keyItem = false := by
    have hcanonical : canonicalizeWeakPath keySystem (Download.besides none)
        (keyJob.target keyItem) = some [Path.rootDir, str "r", str "key"] := by
      rw [canonicalizeWeakPath, htarget]
      exact weaklyCanonical_newKey
    rw [UploadJob.outsideRoot, hcanonical]
    decide
  have hcheck (shared : UploadShared) : DirectoryMove keySystem keyOptions keyJob
      (shared, Download.besides none) (.at (.writing keyItem (str "ABC")))
      (shared, Download.besides none) (.writing keyItem (str "ABC") (.looking [] [str "r"])) := by
    have hmove := @DirectoryMove.check keySystem keyOptions keyJob shared _ _ (str "ABC") hinside
    rw [htarget] at hmove
    exact hmove
  have hcall {fs fs' : FileSystem} {stage stage' : WriteStage} (shared : UploadShared)
      (h : advance keySystem keyRoute (str "ABC") fs {} stage = (fs', stage')) :
      DirectoryMove keySystem keyOptions keyJob (shared, fs) (.writing keyItem (str "ABC") stage)
        (shared, fs') (.after keyItem (str "ABC") stage') := by
    have hmove := @DirectoryMove.call keySystem keyOptions keyJob shared fs keyItem (str "ABC")
      stage {}
    rw [htarget, h] at hmove
    exact hmove
  have hstart : Workers.Run (DirectoryMove keySystem keyOptions keyJob)
      (keyJob.startOver (Download.besides none)) (keyJob.startOver (Download.besides none)) := .refl
  have hclaimed := hstart.step first (rfl : _ = DirectoryPlace.at .claiming)
    (.move (by simp) .claim)
  have hdecoded := hclaimed.step first (rfl : _ = DirectoryPlace.at (.claimed keyItem))
    (.move (by simp) .decode)
  have hchecked := hdecoded.step first
    (rfl : _ = DirectoryPlace.at (.decoded keyItem (str "ABC"))) (.move (by simp) .checkFile)
  have hcounted := hchecked.step first
    (rfl : _ = DirectoryPlace.at (.counting keyItem (str "ABC"))) (.move (by simp) .count)
  have htotal := hcounted.step first
    (rfl : _ = DirectoryPlace.at (.counted keyItem (str "ABC") 0)) (.move (by simp) .checkTotal)
  have hinside := htotal.step first rfl (hcheck _)
  have hlooked := (hinside.step first rfl (hcall _ (looking_key {} _))).step first rfl (hcall _ rfl)
  have hopened := hlooked.step first rfl (hcall _ (opening_key _))
  have hwritten := hopened.step first rfl (hcall _ rfl)
  have hdone := hwritten.step first (rfl : _ = DirectoryPlace.at .written)
    (.move (by simp) .succeed)
  have hlast := hdone.step second (rfl : _ = DirectoryPlace.at .claiming) (.move (by simp) .claim)
  have hworking : ∀ c ∈ keySystem.workingDirectory, Path.sep ∉ c := by
    intro c hc
    cases hc
  have hconfined := directory_upload_confined (by decide) hworking reached_besides
    noDangling_besides (@directoryUpload_key fun _ => .success) (by decide) (by decide) hlast
  exact ⟨_, rfl, rfl, rfl, hconfined⟩

/-! ## What was uploaded is downloaded -/

section
variable {system : System} {options : FrontendUploadOptions} {fs fs' : FileSystem} {body : Json}

end

end ServerStorage.Hugin
