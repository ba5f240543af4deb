/-
# `ServerStorage.Muninn.ScannerSpec` — what a scan collects

What the iterator yields is a list of visits: nothing of it depends on what has been
collected before.  A scan takes the visits one after the other, up to the first at which it
stops, and collects those that the policy permits.
-/
import ServerStorage.Muninn.Scanner

namespace ServerStorage.Muninn

open Lib LocalFilesystemScanner
open Lib.Path (FileName NormalPath)

/-! ## Visits -/

/-- An entry that the iterator yields: its path as the iterator spells it, its names below the
root, and whether the directory it is listed in was entered through a link. -/
structure Visit where
  path : Str
  names : List FileName
  inode : Inode
  viaLink : Bool := false

/-- The path of an entry below a root. -/
def below (base : NormalPath) (names : List FileName) : NormalPath := { names := base.names ++ names }

def Visit.normalizedPath (base : NormalPath) (v : Visit) : Str := (below base v.names).spell

def Visit.entryName (base : NormalPath) (v : Visit) : Str := Path.filename (v.normalizedPath base)

def isLink (inode : Inode) : Bool := inode.status.any fun status => status.type = .symlink

/-- The policy permits the entry. -/
def Visit.permitted (base : NormalPath) (options : ScanOptions) (v : Visit) : Bool :=
  v.inode.status.any
    (includeEntry options (v.normalizedPath base) (v.entryName base) false)

/-- The iterator goes into the entry: an excluded directory is left out with all it holds. -/
def Visit.entered (base : NormalPath) (options : ScanOptions) (v : Visit) : Bool :=
  shouldRecurse options v.inode &&
    (isLink v.inode || v.permitted base options)

def visits (base : NormalPath) (options : ScanOptions) :
    Str → List FileName → Bool → Listing → List Visit × Bool
  | _, _, _, .nil => ([], true)
  | _, _, _, .fails => ([], false)
  | directory, names, viaLink, .entry name inode inside after =>
      let v : Visit :=
        { path := Path.join directory name.1, names := names ++ [name], inode := inode
          viaLink := viaLink }
      let rest := visits base options directory names viaLink after
      if v.entered base options then
        match inode.opening with
        | .denied => (v :: rest.1, rest.2)
        | .failed => ([v], false)
        | .listed =>
            let deeper := visits base options v.path v.names (isLink inode) inside
            if deeper.2 then (v :: (deeper.1 ++ rest.1), rest.2) else (v :: deeper.1, false)
      else (v :: rest.1, rest.2)

/-! ## Collecting visits -/

def collect (base : NormalPath) (options : ScanOptions) (v : Visit) (result : RawScanResult) :
    RawScanResult × Bool :=
  match v.inode.status with
  | none => (appendDiagnostic result (statusDiagnostic (v.normalizedPath base)), false)
  | some status =>
      if !v.permitted base options then (result, true)
      else if options.maxEntries.toNat ≤ result.entries.length then
        (appendDiagnostic result limitDiagnostic, false)
      else
        ({ result with
            entries := result.entries ++
              [rawEntry (v.normalizedPath base) false status v.inode]
            diagnostics := result.diagnostics ++ sizeDiagnostics v.path status v.inode }, true)

/-- One visit after the other, up to the first at which the scan stops. -/
def collectAll (base : NormalPath) (options : ScanOptions) :
    List Visit → RawScanResult → RawScanResult × Bool
  | [], result => (result, true)
  | v :: rest, result =>
      match collect base options v result with
      | (result, true) => collectAll base options rest result
      | (result, false) => (result, false)

section
variable {machine : Machine} {base : NormalPath} {options : ScanOptions}

/-- A directory with these names below the root. -/
def At (machine : Machine) (base : NormalPath) (directory : Str) (names : List FileName) : Prop :=
  ∃ path, absolute machine directory = some path ∧ Path.isAbsolute path = true ∧
    (Path.normalForm path).names = base.names ++ names

theorem absolute_join {directory path : Str} (name : FileName)
    (h : absolute machine directory = some path) :
    absolute machine (Path.join directory name.1) = some (Path.join path name.1) := by
  rw [absolute] at h ⊢
  rw [Path.isAbsolute_join]
  split at h
  next habsolute =>
    rw [if_pos habsolute, Option.some.inj h]
  next hrelative =>
    rw [if_neg hrelative]
    obtain ⟨current, hcurrent, rfl⟩ := Option.map_eq_some_iff.mp h
    rw [hcurrent, Option.map_some, Path.join_join (Bool.eq_false_iff.mpr hrelative)]

theorem At.join {directory : Str} {names : List FileName} (h : At machine base directory names)
    (name : FileName) : At machine base (Path.join directory name.1) (names ++ [name]) := by
  obtain ⟨path, hpath, habsolute, hnames⟩ := h
  refine ⟨_, absolute_join name hpath, (Path.isAbsolute_join name).trans habsolute, ?_⟩
  rw [Path.normalForm_join habsolute]
  show _ ++ [name] = _
  rw [hnames, List.append_assoc]

/-- The normalized path of what is listed in a directory. -/
theorem At.normalizeAbsolutePath {directory : Str} {names : List FileName}
    (h : At machine base directory names) (name : FileName) :
    normalizeAbsolutePath machine (Path.join directory name.1) =
      some (below base (names ++ [name])).spell := by
  obtain ⟨path, hpath, habsolute, hnames⟩ := h
  have hform : Path.normalForm (Path.join path name.1) = below base (names ++ [name]) := by
    rw [Path.normalForm_join habsolute]
    refine NormalPath.ext ?_ rfl
    show _ ++ [name] = _ ++ (_ ++ _)
    rw [hnames, List.append_assoc]
  rw [LocalFilesystemScanner.normalizeAbsolutePath, absolute_join name hpath, Option.map_some,
    Path.lexicallyNormal_eq ((Path.isAbsolute_join name).trans habsolute), hform]

/-! ## The traversal takes the visits in turn -/

theorem collectAll_append {l l' : List Visit} {result : RawScanResult} :
    collectAll base options (l ++ l') result =
      if (collectAll base options l result).2 then
        collectAll base options l' (collectAll base options l result).1
      else ((collectAll base options l result).1, false) := by
  induction l generalizing result with
  | nil => rfl
  | cons v l ih =>
      rw [List.cons_append, collectAll, collectAll]
      cases hcollect : collect base options v result with
      | mk result' go =>
          cases go with
          | true => exact ih
          | false => rfl

/-- What the loop makes of an entry. -/
inductive Outcome (base : NormalPath) (options : ScanOptions) (v : Visit)
    (result : RawScanResult) : Collected → RawScanResult × Bool → Prop
  | stopped {result' : RawScanResult} :
      Outcome base options v result (.stopped result') (result', false)
  | visited {result' : RawScanResult} {included disableRecursion : Bool} :
      (shouldRecurse options v.inode && !(!included && disableRecursion)) =
        v.entered base options →
      Outcome base options v result (.visited result' included disableRecursion) (result', true)

/-- A directory that is not permitted is one that is excluded, and recursion is disabled; into
anything else the iterator goes or not as the file system has it. -/
theorem recursion_eq {v : Visit} {status : FileStatus} (hstatus : v.inode.status = some status)
    (hpermitted : v.permitted base options = false) :
    (shouldRecurse options v.inode && !(!false && (decide (status.type = .directory) &&
      excludedByPolicy options (v.normalizedPath base) (v.entryName base) false))) =
      v.entered base options := by
  have hinclude : includeEntry options (v.normalizedPath base) (v.entryName base) false status =
      false := by
    rw [Visit.permitted, hstatus] at hpermitted
    exact hpermitted
  have hlink : isLink v.inode = decide (status.type = .symlink) := by rw [isLink, hstatus]; rfl
  rw [Visit.entered, hpermitted, hlink, Bool.or_false]
  rw [includeEntry] at hinclude
  by_cases hdirectory : status.type = .directory
  · rw [if_pos hdirectory, Bool.not_eq_false'] at hinclude
    rw [hinclude, hdirectory]
    simp
  · have hrecurse : shouldRecurse options v.inode =
        (status.type = .symlink && options.followSymlinks && v.inode.leadsToDirectory) := by
      simp [shouldRecurse, hstatus, hdirectory]
    rw [hrecurse]
    by_cases hsymlink : status.type = .symlink
    · simp [hsymlink]
    · simp [hsymlink]

/-- An entry as the loop collects it, next to its visit. -/
theorem collectOneEntry_outcome {v : Visit} {result : RawScanResult}
    (hpath : normalizeAbsolutePath machine v.path = some (v.normalizedPath base)) :
    Outcome base options v result (collectOneEntry machine v.path v.inode false result options)
      (collect base options v result) := by
  cases hstatus : v.inode.status with
  | none =>
      simp only [collectOneEntry, collect, hpath, hstatus]
      exact .stopped
  | some status =>
      have hpermitted : v.permitted base options =
          includeEntry options (v.normalizedPath base) (v.entryName base) false status := by
        rw [Visit.permitted, hstatus]
        rfl
      cases hinclude : includeEntry options (v.normalizedPath base) (v.entryName base) false
        status with
      | false =>
          have hrecursion := recursion_eq hstatus (hpermitted.trans hinclude)
          simp only [collectOneEntry, collect, hpath, hstatus, hpermitted]
          rw [Visit.entryName] at hinclude hrecursion ⊢
          have hleft : (!false) = true := rfl
          rw [hinclude, if_pos hleft, if_pos hleft]
          exact .visited hrecursion
      | true =>
          have hentered : (shouldRecurse options v.inode && !(!true && false)) =
              v.entered base options := by
            rw [Visit.entered, hpermitted, hinclude, Bool.or_true]
            rfl
          have hkept : ¬ (!true) = true := Bool.false_ne_true
          simp only [collectOneEntry, collect, hpath, hstatus, hpermitted]
          rw [Visit.entryName] at hinclude ⊢
          rw [hinclude, if_neg hkept, if_neg hkept]
          by_cases hlimit : options.maxEntries.toNat ≤ result.entries.length
          · rw [if_pos hlimit, if_pos hlimit]
            exact .stopped
          · rw [if_neg hlimit, if_neg hlimit]
            exact .visited hentered

theorem traverse_eq : ∀ {listing : Listing} {directory : Str} {names : List FileName}
    {viaLink : Bool} {result : RawScanResult}, At machine base directory names →
      traverse machine options directory listing result =
        ((collectAll base options (visits base options directory names viaLink listing).1 result).1,
          (collectAll base options (visits base options directory names viaLink listing).1
            result).2 && (visits base options directory names viaLink listing).2)
  | .nil, _, _, _, _, _ => rfl
  | .fails, _, _, _, _, _ => rfl
  | .entry name inode inside after, directory, names, viaLink, result, h => by
      have hdeeper := fun result => @traverse_eq inside _ _ (isLink inode) result (h.join name)
      have hrest := fun result => @traverse_eq after _ _ viaLink result h
      generalize hv : ({ path := Path.join directory name.1, names := names ++ [name]
                         inode := inode, viaLink := viaLink } : Visit) = v
      have hpath : Path.join directory name.1 = v.path := by rw [← hv]
      have hnames : names ++ [name] = v.names := by rw [← hv]
      have hinode : inode = v.inode := by rw [← hv]
      have houtcome := @collectOneEntry_outcome machine base options v result
        (by rw [← hv]; exact h.normalizeAbsolutePath name)
      rw [LocalFilesystemScanner.traverse, visits, hv]
      simp only [hpath, hnames, hinode] at hdeeper ⊢
      generalize collectOneEntry machine v.path v.inode false result options = collected at houtcome ⊢
      cases houtcome' : collect base options v result with
      | mk result' go =>
      rw [houtcome'] at houtcome
      have hcons : ∀ tail, collectAll base options (v :: tail) result =
          if go then collectAll base options tail result' else (result', false) := fun tail => by
        rw [collectAll, houtcome']
        cases go <;> rfl
      cases houtcome with
      | stopped =>
          -- nothing behind this visit is taken
          have hfalse : ∀ tail, collectAll base options (v :: tail) result = (result', false) := hcons
          dsimp only
          cases v.entered base options with
          | false => rw [if_neg Bool.false_ne_true, hfalse]; rfl
          | true =>
              rw [if_pos rfl]
              cases v.inode.opening with
              | denied | failed => dsimp only; rw [hfalse]; rfl
              | listed => dsimp only; split <;> rw [hfalse] <;> rfl
      | visited hentered =>
          have htrue : ∀ tail, collectAll base options (v :: tail) result =
              collectAll base options tail result' := hcons
          dsimp only
          rw [hentered]
          cases v.entered base options with
          | false => rw [if_neg Bool.false_ne_true, if_neg Bool.false_ne_true, htrue, hrest]
          | true =>
              rw [if_pos rfl, if_pos rfl]
              cases v.inode.opening with
              | denied => dsimp only; rw [htrue, hrest]
              | failed =>
                  dsimp only
                  rw [htrue]
                  rfl
              | listed =>
                  dsimp only
                  rw [hdeeper]
                  cases (visits base options v.path v.names (isLink v.inode) inside).2 with
                  | false =>
                      rw [if_neg Bool.false_ne_true, htrue, Bool.and_false]
                  | true =>
                      rw [if_pos rfl, htrue, Bool.and_true, collectAll_append]
                      cases hgo : (collectAll base options
                          (visits base options v.path v.names (isLink v.inode) inside).1
                          result').2 with
                      | false => rw [if_neg Bool.false_ne_true]; rfl
                      | true => rw [if_pos rfl]; exact hrest _

/-! ## What has been collected -/

def Visit.readable (v : Visit) : Bool := v.inode.status.isSome

def Visit.status (v : Visit) : FileStatus := v.inode.status.getD {}

/-- The entry a visit adds. -/
def Visit.raw (base : NormalPath) (v : Visit) : RawEntry :=
  rawEntry (v.normalizedPath base) false v.status v.inode

def permittedOf (base : NormalPath) (options : ScanOptions) (vs : List Visit) : List Visit :=
  vs.filter fun v => v.permitted base options

/-- All that these visits add. -/
def gathered (base : NormalPath) (options : ScanOptions) (result : RawScanResult)
    (vs : List Visit) : RawScanResult :=
  { result with
    entries := result.entries ++ (permittedOf base options vs).map (Visit.raw base)
    diagnostics := result.diagnostics ++ (permittedOf base options vs).flatMap fun v =>
      sizeDiagnostics v.path v.status v.inode }

theorem Visit.readable_of_permitted {v : Visit} (h : v.permitted base options = true) :
    v.readable = true := by
  rw [Visit.permitted] at h
  cases hstatus : v.inode.status with
  | none =>
      rw [hstatus] at h
      cases h
  | some status => rw [Visit.readable, hstatus]; rfl

theorem gathered_nil (result : RawScanResult) : gathered base options result [] = result := by
  simp [gathered, permittedOf]

theorem gathered_cons (result : RawScanResult) (v : Visit) (vs : List Visit) :
    gathered base options result (v :: vs) =
      gathered base options (gathered base options result [v]) vs := by
  cases hpermitted : v.permitted base options <;> simp [gathered, permittedOf, hpermitted]

theorem collect_gathered {v : Visit} {result : RawScanResult} (hreadable : v.readable = true)
    (hlimit : v.permitted base options = true → result.entries.length < options.maxEntries.toNat) :
    collect base options v result = (gathered base options result [v], true) := by
  rw [Visit.readable] at hreadable
  cases hstatus : v.inode.status with
  | none =>
      rw [hstatus] at hreadable
      cases hreadable
  | some status =>
      simp only [collect, hstatus]
      cases hpermitted : v.permitted base options with
      | false =>
          rw [if_pos (show (!false) = true from rfl)]
          simp [gathered, permittedOf, hpermitted]
      | true =>
          rw [if_neg (show ¬ (!true) = true from Bool.false_ne_true),
            if_neg (Nat.not_le.mpr (hlimit hpermitted))]
          simp [gathered, permittedOf, hpermitted, Visit.raw, Visit.status, hstatus]

theorem collect_stops {v : Visit} {result : RawScanResult}
    (h : (collect base options v result).2 = false) :
    ∃ diagnostic, collect base options v result = (appendDiagnostic result diagnostic, false) := by
  rw [collect] at h ⊢
  cases hstatus : v.inode.status with
  | none => exact ⟨_, rfl⟩
  | some status =>
      simp only [hstatus] at h ⊢
      split at h
      · cases h
      next hpermitted =>
        rw [if_neg hpermitted]
        split at h
        next hlimit =>
          rw [if_pos hlimit]
          exact ⟨_, rfl⟩
        · cases h

theorem collect_goes {v : Visit} {result : RawScanResult}
    (h : (collect base options v result).2 = true) :
    v.readable = true ∧
      (v.permitted base options = true → result.entries.length < options.maxEntries.toNat) := by
  rw [collect] at h
  cases hstatus : v.inode.status with
  | none =>
      simp only [hstatus] at h
      cases h
  | some status =>
      refine ⟨by rw [Visit.readable, hstatus]; rfl, fun hpermitted => ?_⟩
      simp only [hstatus, hpermitted] at h
      rw [if_neg (show ¬ (!true) = true from Bool.false_ne_true)] at h
      split at h
      · cases h
      next hlimit => exact Nat.not_le.mp hlimit

/-- Where nothing stops it, a scan gathers all visits. -/
theorem collectAll_gathered : ∀ {vs : List Visit} {result : RawScanResult},
    (∀ v ∈ vs, v.readable = true) →
      result.entries.length + (permittedOf base options vs).length ≤ options.maxEntries.toNat →
        collectAll base options vs result = (gathered base options result vs, true)
  | [], result, _, _ => by rw [gathered_nil]; rfl
  | v :: vs, result, hreadable, hlimit => by
      have hv : collect base options v result = (gathered base options result [v], true) := by
        refine collect_gathered (hreadable v List.mem_cons_self) fun hpermitted => ?_
        rw [permittedOf, List.filter_cons_of_pos hpermitted, List.length_cons] at hlimit
        omega
      rw [collectAll, hv, gathered_cons result v vs]
      refine collectAll_gathered (fun u hu => hreadable u (List.mem_cons_of_mem _ hu)) ?_
      have hlength : (gathered base options result [v]).entries.length +
          (permittedOf base options vs).length =
          result.entries.length + (permittedOf base options (v :: vs)).length := by
        cases hpermitted : v.permitted base options <;>
          (simp [gathered, permittedOf, hpermitted]; try omega)
      omega

/-- A scan gathers the visits up to the one it stops at, if there is one. -/
theorem collectAll_cut : ∀ {vs : List Visit} {result : RawScanResult},
    ∃ taken left diagnostics, vs = taken ++ left ∧ (∀ v ∈ taken, v.readable = true) ∧
      (collectAll base options vs result).1 =
        { gathered base options result taken with
          diagnostics := (gathered base options result taken).diagnostics ++ diagnostics } ∧
      ((collectAll base options vs result).2 = true → left = [] ∧ diagnostics = [])
  | [], result => by
      refine ⟨[], [], [], rfl, nofun, ?_, fun _ => ⟨rfl, rfl⟩⟩
      rw [gathered_nil, List.append_nil]
      rfl
  | v :: vs, result => by
      cases hgo : (collect base options v result).2 with
      | false =>
          obtain ⟨diagnostic, hstop⟩ := collect_stops hgo
          refine ⟨[], v :: vs, [diagnostic], rfl, nofun, ?_, fun h => ?_⟩
          · rw [collectAll, hstop, gathered_nil]
            rfl
          · rw [collectAll, hstop] at h
            cases h
      | true =>
          obtain ⟨hreadable, hlimit⟩ := collect_goes hgo
          obtain ⟨taken, left, diagnostics, hvs, htaken, hresult, hend⟩ :=
            @collectAll_cut vs (gathered base options result [v])
          have hstep : collectAll base options (v :: vs) result =
              collectAll base options vs (gathered base options result [v]) := by
            rw [collectAll, collect_gathered hreadable hlimit]
          refine ⟨v :: taken, left, diagnostics, by rw [hvs]; rfl, ?_, ?_, ?_⟩
          · intro u hu
            rcases List.mem_cons.mp hu with rfl | hu
            · exact hreadable
            · exact htaken u hu
          · rw [hstep, hresult, gathered_cons result v taken]
          · rw [hstep]
            exact hend

/-! ## A whole scan -/

variable {rootPath : Str} {root : ScanRoot} {status : FileStatus}

/-- A root that can be scanned, its normal form and its status. -/
structure Scannable (machine : Machine) (rootPath : Str) (root : ScanRoot) (base : NormalPath)
    (status : FileStatus) : Prop where
  isPresent : root.isPresent = true
  isDirectory : root.isDirectory = true
  path : ∃ path, absolute machine rootPath = some path ∧ Path.normalForm path = base
  status : root.inode.status = some status

/-- What has been collected when the traversal starts. -/
def rootResult (machine : Machine) (rootPath : Str) (root : ScanRoot) (base : NormalPath)
    (status : FileStatus) : RawScanResult :=
  { hostIdentifier := detectHostIdentifier machine
    rootPath := base.spell
    scannedAt := machine.unixNow
    entries := [rawEntry base.spell true status root.inode]
    diagnostics := sizeDiagnostics rootPath status root.inode }

def rootVisits (base : NormalPath) (options : ScanOptions) (rootPath : Str) (root : ScanRoot) :
    List Visit × Bool :=
  match root.inode.opening with
  | .denied => ([], true)
  | .failed => ([], false)
  | .listed => visits base options rootPath [] false root.listing

theorem absolute_isAbsolute {path p : Str} (h : absolute machine path = some p) :
    Path.isAbsolute p = true := by
  rw [absolute] at h
  split at h
  next habsolute => exact Option.some.inj h ▸ habsolute
  next hrelative =>
    obtain ⟨current, -, rfl⟩ := Option.map_eq_some_iff.mp h
    rw [Path.join_eq (Bool.eq_false_iff.mpr hrelative),
      Path.isAbsolute_append (Bool.eq_false_iff.mpr hrelative)]
    exact current.2

theorem normalizeAbsolutePath_eq {path : Str} :
    normalizeAbsolutePath machine path =
      (absolute machine path).map fun p => (Path.normalForm p).spell := by
  rw [normalizeAbsolutePath]
  cases h : absolute machine path with
  | none => rfl
  | some p => exact congrArg some (Path.lexicallyNormal_eq (absolute_isAbsolute h))

theorem Scannable.at (h : Scannable machine rootPath root base status) :
    At machine base rootPath [] := by
  obtain ⟨p, hp, hform⟩ := h.path
  exact ⟨p, hp, absolute_isAbsolute hp, by rw [hform, List.append_nil]⟩

theorem collectOneEntry_root (h : Scannable machine rootPath root base status)
    {result : RawScanResult} (hempty : result.entries = []) :
    collectOneEntry machine rootPath root.inode true result options =
      if options.maxEntries = 0 then .stopped (appendDiagnostic result limitDiagnostic)
      else
        .visited
          { result with
            entries := [rawEntry base.spell true status root.inode]
            diagnostics := result.diagnostics ++ sizeDiagnostics rootPath status root.inode }
          true false := by
  obtain ⟨p, hp, hform⟩ := h.path
  have hpath : normalizeAbsolutePath machine rootPath = some base.spell := by
    rw [normalizeAbsolutePath_eq, hp, Option.map_some, hform]
  have hinclude : ∀ path name, includeEntry options path name true status = true := fun path name => by
    rw [includeEntry]
    split <;> rfl
  have hlimit : options.maxEntries.toNat ≤ result.entries.length ↔ options.maxEntries = 0 := by
    rw [hempty, List.length_nil, Nat.le_zero]
    exact ⟨fun h => UInt64.toNat_inj.mp h, fun h => h ▸ rfl⟩
  simp only [collectOneEntry, hpath, h.status, hinclude, hlimit]
  rw [if_neg (show ¬ (!true) = true from Bool.false_ne_true), hempty, List.nil_append]

/-- A scan of such a root collects the root and then the visits. -/
theorem scanToEnd_eq (h : Scannable machine rootPath root base status)
    (hlimit : options.maxEntries ≠ 0) :
    scanToEnd machine rootPath root options =
      (sorted (collectAll base options (rootVisits base options rootPath root).1
          (rootResult machine rootPath root base status)).1,
        (collectAll base options (rootVisits base options rootPath root).1
          (rootResult machine rootPath root base status)).2 &&
          (rootVisits base options rootPath root).2) := by
  obtain ⟨p, hp, hform⟩ := h.path
  have hpath : normalizeAbsolutePath machine rootPath = some base.spell := by
    rw [normalizeAbsolutePath_eq, hp, Option.map_some, hform]
  have hroot := @collectOneEntry_root machine base options rootPath root status h
    { hostIdentifier := detectHostIdentifier machine, rootPath := base.spell
      scannedAt := machine.unixNow } rfl
  rw [if_neg hlimit] at hroot
  have hpresent : ¬ (!root.isPresent) = true := by rw [h.isPresent]; exact Bool.false_ne_true
  have hdirectory : ¬ (!root.isDirectory) = true := by rw [h.isDirectory]; exact Bool.false_ne_true
  simp only [scanToEnd, hpath, hroot]
  rw [if_neg hpresent, if_neg hdirectory, if_neg base.spell_ne_nil, rootVisits]
  cases root.inode.opening with
  | denied => rfl
  | failed => rfl
  | listed =>
      dsimp only
      rw [@traverse_eq machine base options root.listing rootPath [] false _ h.at]
      rfl

/-- Any other scan collects nothing. -/
theorem scanToEnd_empty (h : ¬ ∃ base status, Scannable machine rootPath root base status ∧
    options.maxEntries ≠ 0) :
    (scanToEnd machine rootPath root options).2 = false ∧
      (scanToEnd machine rootPath root options).1.entries = [] := by
  simp only [scanToEnd]
  split
  · exact ⟨rfl, rfl⟩
  next hpresent =>
    split
    · exact ⟨rfl, rfl⟩
    next hdirectory =>
      rw [normalizeAbsolutePath_eq]
      cases hp : absolute machine rootPath with
      | none => exact ⟨rfl, rfl⟩
      | some p =>
          simp only [Option.map_some]
          rw [if_neg (Path.normalForm p).spell_ne_nil]
          cases hstatus : root.inode.status with
          | none =>
              simp only [collectOneEntry, normalizeAbsolutePath_eq, hp, Option.map_some, hstatus]
              exact ⟨trivial, rfl⟩
          | some status =>
              have hscan : Scannable machine rootPath root (Path.normalForm p) status :=
                { isPresent := by simpa using hpresent
                  isDirectory := by simpa using hdirectory
                  path := ⟨p, hp, rfl⟩
                  status := hstatus }
              have hzero : options.maxEntries = 0 := by
                by_contra hne
                exact h ⟨_, _, hscan, hne⟩
              rw [collectOneEntry_root hscan rfl, if_pos hzero]
              exact ⟨rfl, rfl⟩

end

end ServerStorage.Muninn
