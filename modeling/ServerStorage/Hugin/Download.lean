/-
# `ServerStorage.Hugin.Download` — `api/frontend_api_server.cpp`, the file download

The handler of `file_download_path` once the caller is known and the body is parsed, over a
file system that stays as it is while the request is answered.  It asks whether the path
names a regular file before it asks whether the path lies within the read root.

**Proved here.**

    a file that is served lies within the read root               (`served_within`)
    the response is the same in any two file systems that agree on the read root
      and on what leads to it  ⟺  the path is resolved there, or names no regular
      file in any of them                                         (`reveals_nothing_iff`)
-/
import ServerStorage.Lib.FileSystem
import ServerStorage.Hugin.Uploads

namespace ServerStorage.Hugin

open Lib Crud

/-! ## The handler -/

inductive DownloadStatus where
  | badRequest | forbidden | notFound | internalServerError | serviceUnavailable
  deriving DecidableEq, Repr

inductive DownloadResponse where
  | refused (status : DownloadStatus) (message : String)
  | served (path : Str) (sizeBytes : Nat) (contentB64 : Str)
  deriving DecidableEq, Repr

namespace Download

open Posix

/-- Where file names are compared as they stand. -/
def pathComponentEquals (lhs rhs : Str) : Bool := lhs == rhs

def isPathWithinRoot : (candidate root : List Str) → Bool
  | _, [] => true
  | [], _ :: _ => false
  | c :: candidate, r :: root => pathComponentEquals r c && isPathWithinRoot candidate root

section Handler

variable (system : System) (fs : FileSystem)

/-- The elements of the canonical path. -/
def canonicalizeExistingPath (path : Str) : Option (List Str) :=
  (resolve system fs path).reached.map fun place => Path.rootDir :: place

/-- `std::filesystem::exists` without an error. -/
def fileExists (path : Str) : Bool := (status system fs path).isSome

/-- `std::filesystem::is_regular_file`. -/
def isRegularFile (path : Str) : Bool :=
  match status system fs path with
  | some (.regular _) => true
  | _ => false

/-- What a stream reads from the file, if it opens. -/
def streamBytes (path : Str) : Option Str :=
  match status system fs path with
  | some (.regular contents) => contents
  | _ => none

/-- What the read root has against the path. -/
def outsideReadRoot (options : FrontendUploadOptions) (path : Str) :
    Option (DownloadStatus × String) :=
  if options.allowedReadRoot = [] then none
  else
    match canonicalizeExistingPath system fs options.allowedReadRoot,
      canonicalizeExistingPath system fs path with
    | none, _ => some (.serviceUnavailable, "read root is misconfigured")
    | some _, none => some (.badRequest, "path is invalid")
    | some allowedRoot, some canonicalFile =>
        if isPathWithinRoot canonicalFile allowedRoot then none
        else some (.forbidden, "path is outside allowed_read_root")

def requestPath (body : Json) : Option Str :=
  match body.find (str "path") with
  | some (.string path) => some path
  | _ => none

def fileDownload (options : FrontendUploadOptions) (body : Json) : DownloadResponse :=
  match requestPath body with
  | none => .refused .badRequest "path is required"
  | some filePath =>
      if !fileExists system fs filePath || !isRegularFile system fs filePath then
        .refused .notFound "file not found"
      else
        match outsideReadRoot system fs options filePath with
        | some (status, message) => .refused status message
        | none =>
            match streamBytes system fs filePath with
            | none => .refused .internalServerError "failed to open file"
            | some bytes => .served filePath bytes.length (base64Encode bytes)

end Handler

/-! ## What the checks ask -/

theorem isPathWithinRoot_iff : ∀ {candidate root : List Str},
    isPathWithinRoot candidate root = true ↔ root <+: candidate
  | _, [] => by simp [isPathWithinRoot]
  | [], r :: root => by simp [isPathWithinRoot]
  | c :: candidate, r :: root => by
      rw [isPathWithinRoot, Bool.and_eq_true, isPathWithinRoot_iff, List.cons_prefix_cons]
      exact and_congr_left fun _ => beq_iff_eq

variable {system : System} {fs fs' : FileSystem} {options : FrontendUploadOptions}
  {body : Json} {path : Str}

/-- What is a regular file exists. -/
theorem missing_eq :
    (!fileExists system fs path || !isRegularFile system fs path) =
      !isRegularFile system fs path := by
  rw [fileExists, isRegularFile]
  cases status system fs path with
  | none => rfl
  | some node => rfl

theorem outsideReadRoot_ne_notFound {status : DownloadStatus} {message : String}
    (h : outsideReadRoot system fs options path = some (status, message)) :
    status ≠ .notFound := by
  rw [outsideReadRoot] at h
  split at h
  · cases h
  · split at h
    · cases h
      exact DownloadStatus.noConfusion
    · cases h
      exact DownloadStatus.noConfusion
    · split at h
      · cases h
      · cases h
        exact DownloadStatus.noConfusion

/-- The response to a path that names no regular file, and to no other path. -/
theorem fileDownload_notFound_iff (hpath : requestPath body = some path) :
    fileDownload system fs options body = .refused .notFound "file not found" ↔
      isRegularFile system fs path = false := by
  simp only [fileDownload, hpath, missing_eq]
  cases isRegularFile system fs path with
  | false => exact iff_of_true rfl rfl
  | true =>
      refine iff_of_false ?_ Bool.noConfusion
      intro h
      rw [Bool.not_true, if_neg Bool.false_ne_true] at h
      split at h
      · next hout =>
          cases h
          exact outsideReadRoot_ne_notFound hout rfl
      · split at h <;> cases h

/-- The response depends on how the path and the read root are resolved, and on what the path
names. -/
theorem fileDownload_congr (hpath : requestPath body = some path)
    (hroot : resolve system fs' options.allowedReadRoot =
      resolve system fs options.allowedReadRoot)
    (hfile : resolve system fs' path = resolve system fs path)
    (hstatus : status system fs' path = status system fs path) :
    fileDownload system fs' options body = fileDownload system fs options body := by
  have hexists : fileExists system fs' path = fileExists system fs path := by
    rw [fileExists, fileExists, hstatus]
  have hregular : isRegularFile system fs' path = isRegularFile system fs path := by
    rw [isRegularFile, isRegularFile, hstatus]
  have hout : outsideReadRoot system fs' options path =
      outsideReadRoot system fs options path := by
    rw [outsideReadRoot, outsideReadRoot]
    simp only [canonicalizeExistingPath, hroot, hfile]
  have hbytes : streamBytes system fs' path = streamBytes system fs path := by
    rw [streamBytes, streamBytes, hstatus]
  rw [fileDownload, fileDownload, hpath]
  simp only [hexists, hregular, hout, hbytes]

/-! ## What is served -/

/-- A path the read root has nothing against leads into the directory it names. -/
theorem within_of_inside (hroot : options.allowedReadRoot ≠ [])
    (h : outsideReadRoot system fs options path = none) :
    ∃ root place, (resolve system fs options.allowedReadRoot).reached = some root ∧
      (resolve system fs path).reached = some place ∧ root <+: place := by
  rw [outsideReadRoot, if_neg hroot] at h
  split at h
  · cases h
  · cases h
  · next hallowed hcanonical =>
      obtain ⟨root, hreached, rfl⟩ := Option.map_eq_some_iff.mp hallowed
      obtain ⟨place, hplace, rfl⟩ := Option.map_eq_some_iff.mp hcanonical
      split at h
      · next hwithin =>
          refine ⟨root, place, hreached, hplace, ?_⟩
          exact (List.cons_prefix_cons.mp (isPathWithinRoot_iff.mp hwithin)).2
      · cases h

theorem node_of_streamBytes {place : Place} {bytes : Str}
    (hplace : (resolve system fs path).reached = some place)
    (h : streamBytes system fs path = some bytes) :
    fs.node place = some (.regular (some bytes)) := by
  rw [streamBytes, status, hplace, Option.bind_some] at h
  split at h
  · next contents hnode => rw [hnode, h]
  · cases h

/-- A file that is served has a place in the directory that the read root names. -/
theorem served_within {sizeBytes : Nat} {contentB64 : Str}
    (hroot : options.allowedReadRoot ≠ [])
    (h : fileDownload system fs options body = .served path sizeBytes contentB64) :
    ∃ root place bytes, (resolve system fs options.allowedReadRoot).reached = some root ∧
      root <+: place ∧ fs.node place = some (.regular (some bytes)) ∧
      contentB64 = base64Encode bytes := by
  rw [fileDownload] at h
  split at h
  · cases h
  · next filePath hpath =>
      split at h
      · cases h
      · split at h
        · cases h
        · next hinside =>
            split at h
            · cases h
            · next bytes hbytes =>
                cases h
                obtain ⟨root, place, hreached, hplace, hbelow⟩ := within_of_inside hroot hinside
                refine ⟨root, place, bytes, hreached, hbelow, ?_, rfl⟩
                exact node_of_streamBytes hplace hbytes

/-! ## What a response reveals -/

/-- The read root with everything in it, and whatever leads to it. -/
def readRegion (system : System) (fs : FileSystem) (options : FrontendUploadOptions) : Region :=
  Region.ofPath system fs options.allowedReadRoot

/-- A path that ends in a separator, `.` or `..` names no regular file anywhere. -/
theorem isRegularFile_directory (hlast : AsksDirectory (components (cString path))) :
    isRegularFile system fs path = false := by
  cases hstatus : status system fs path with
  | none => rw [isRegularFile, hstatus]
  | some node =>
      have hdirectory := status_directory hlast hstatus
      rw [isRegularFile, hstatus]
      cases node with
      | regular contents => cases hdirectory
      | directory _ => rfl
      | symlink _ => rfl
      | other => rfl

/-- A path resolved in the region gets one response wherever the region is. -/
theorem fileDownload_agreeOn (hpath : requestPath body = some path)
    (hagree : fs.AgreeOn (readRegion system fs options) fs')
    (h : ResolvesIn (readRegion system fs options) system fs path) :
    fileDownload system fs' options body = fileDownload system fs options body :=
  fileDownload_congr hpath (resolve_agreeOn hagree resolvesIn_ofPath) (resolve_agreeOn hagree h)
    (status_agreeOn hagree h)

/-- A path that is answered alike where nothing but the region is left and where it names a
regular file is resolved in the region. -/
theorem resolvesIn_of_same (hpath : requestPath body = some path)
    (hsame : ∀ fs', fs.AgreeOn (readRegion system fs options) fs' →
      fileDownload system fs' options body = fileDownload system fs options body)
    (hagree : fs.AgreeOn (readRegion system fs options) fs')
    (hregular : isRegularFile system fs' path = true) :
    ResolvesIn (readRegion system fs options) system fs path := by
  have hstripped := hsame _ (fs.agreeOn_restrict (readRegion system fs options))
  set stripped := fs.restrict (readRegion system fs options) with hstripped_eq
  have hfound : isRegularFile system stripped path ≠ false := by
    intro hmissing
    have hnotFound : fileDownload system stripped options body =
        .refused .notFound "file not found" := (fileDownload_notFound_iff hpath).mpr hmissing
    rw [hstripped, ← hsame fs' hagree, fileDownload_notFound_iff hpath, hregular] at hnotFound
    cases hnotFound
  refine resolvesIn_of_restrict ?_
  rw [isRegularFile, status] at hfound
  cases hreached : (resolve system stripped path).reached with
  | none =>
      rw [hreached] at hfound
      exact absurd rfl hfound
  | some place => rfl

/-- A response is the same in every file system that agrees on the read root and what leads to
it just when the path is resolved there, or names no regular file in any of these. -/
theorem reveals_nothing_iff (system : System) (fs : FileSystem)
    (options : FrontendUploadOptions) (body : Json) :
    (∀ fs', fs.AgreeOn (readRegion system fs options) fs' →
      fileDownload system fs' options body = fileDownload system fs options body) ↔
    ∀ path ∈ requestPath body, ResolvesIn (readRegion system fs options) system fs path ∨
      ∀ fs', fs.AgreeOn (readRegion system fs options) fs' →
        isRegularFile system fs' path = false := by
  constructor
  · intro hsame path hpath
    by_cases hnone : ∀ fs', fs.AgreeOn (readRegion system fs options) fs' →
        isRegularFile system fs' path = false
    · exact .inr hnone
    · push Not at hnone
      obtain ⟨fs', hagree, hregular⟩ := hnone
      exact .inl (resolvesIn_of_same hpath hsame hagree (Bool.eq_true_of_not_eq_false hregular))
  · intro hpaths fs' hagree
    cases hpath : requestPath body with
    | none => rw [fileDownload, fileDownload, hpath]
    | some path =>
        cases hpaths path hpath with
        | inl hin => exact fileDownload_agreeOn hpath hagree hin
        | inr hnone =>
            have hmissing := hnone fs fun _ _ => rfl
            rw [(fileDownload_notFound_iff hpath).mpr (hnone fs' hagree),
              (fileDownload_notFound_iff hpath).mpr hmissing]

/-! ## Two file systems -/

/-- A directory `/r` and whatever stands at `/x`. -/
def besides (stray : Option Node) : FileSystem where
  node place :=
    if place = [] then some (.directory true)
    else if place = [str "r"] then some (.directory true)
    else if place = [str "x"] then stray
    else none
  atRoot := by simp [Node.isDirectory]
  inDirectory := by
    intro place name h
    cases place with
    | nil => simp [Node.isDirectory]
    | cons first rest => simp at h

/-- A name in the root directory is walked to in one step. -/
theorem resolve_name (name : Str)
    (hpath : cString path = path ∧ Path.isAbsolute path = true ∧ components path = [name]) :
    resolve system fs path = (walk fs system.symloopMax [] [name]).consult [] := by
  obtain ⟨hstring, habsolute, hcomponents⟩ := hpath
  have hne : path ≠ [] := by
    rintro rfl
    cases habsolute
  rw [resolve, hstring, if_neg hne, if_pos habsolute, hcomponents]
  rfl

/-- Whether there is a file at `/x` shows in the status of the response, with `/r` the read
root. -/
theorem status_reveals_file :
    ¬ ∀ (system : System) (fs fs' : FileSystem) (options : FrontendUploadOptions) (body : Json),
      status system fs options.allowedReadRoot = some (.directory true) →
      fs.AgreeOn (readRegion system fs options) fs' →
      fileDownload system fs' options body = fileDownload system fs options body := by
  intro hclaim
  let system : System := { symloopMax := 40 }
  let options : FrontendUploadOptions := { allowedReadRoot := str "/r" }
  let body : Json := .object [(str "path", .string (str "/x"))]
  let bare : FileSystem := besides none
  let full : FileSystem := besides (some (.regular (some (str "key"))))
  have hdirectory : ∀ target, Node.directory true ≠ .symlink target := by
    intro target h
    cases h
  have hregular : ∀ target, Node.regular (some (str "key")) ≠ .symlink target := by
    intro target h
    cases h
  have hroot : resolve system bare (str "/r") =
      { consulted := [[], [str "r"]], reached := some [str "r"] } := by
    rw [resolve_name (str "r") (by decide),
      walk_onward (.directory true) rfl (by decide) (by decide) rfl hdirectory, walk]
    rfl
  have hagree : bare.AgreeOn (readRegion system bare options) full := by
    intro place hin
    have hx : place ≠ [str "x"] := by
      rintro rfl
      simp only [readRegion, Region.ofPath, hroot, options] at hin
      revert hin
      decide
    simp only [bare, full, besides, if_neg hx]
  have hstatus : status system bare options.allowedReadRoot = some (.directory true) := by
    rw [status, hroot]
    rfl
  have hmissing : isRegularFile system bare (str "/x") = false := by
    rw [isRegularFile, status, resolve_name (str "x") (by decide),
      walk_missing rfl (by decide) (by decide) rfl]
    rfl
  have hfound : isRegularFile system full (str "/x") = true := by
    rw [isRegularFile, status, resolve_name (str "x") (by decide),
      walk_onward (.regular (some (str "key"))) rfl (by decide) (by decide) rfl hregular, walk]
    rfl
  have hpath : requestPath body = some (str "/x") := rfl
  have hnotFound : fileDownload system bare options body = .refused .notFound "file not found" :=
    (fileDownload_notFound_iff hpath).mpr hmissing
  rw [← hclaim system bare full options body hstatus hagree, fileDownload_notFound_iff hpath,
    hfound] at hnotFound
  cases hnotFound

end Download

end ServerStorage.Hugin
