/-
# `ServerStorage.Muninn.ScanSkips` — an entry whose status cannot be read

`collect_one_entry` returns `false` for such an entry, and the loop takes that for the end
of the scan: what the iterator would yield after it is lost.  So the entry costs only itself
exactly where it comes last.
-/
import ServerStorage.Muninn.ScannerSpec

namespace ServerStorage.Muninn

open Lib LocalFilesystemScanner
open Lib.Path (FileName NormalPath)

/-! ## The tree without the entries that cannot be read -/

def Listing.readableOnly : Listing → Listing
  | .nil => .nil
  | .fails => .fails
  | .entry name inode inside after =>
      if inode.status.isSome then .entry name inode inside.readableOnly after.readableOnly
      else after.readableOnly

def ScanRoot.readableOnly (root : ScanRoot) : ScanRoot :=
  { root with listing := root.listing.readableOnly }

section
variable {machine : Machine} {base : NormalPath} {options : ScanOptions} {rootPath : Str}
  {root : ScanRoot} {status : FileStatus}

theorem Visit.not_entered {v : Visit} (h : v.readable = false) :
    v.entered base options = false := by
  rw [Visit.readable, Option.isSome_eq_false_iff, Option.isNone_iff_eq_none] at h
  rw [Visit.entered, shouldRecurse, h]
  rfl

/-- Without these entries, the iterator yields the other ones. -/
theorem visits_readableOnly : ∀ {listing : Listing} {directory : Str} {names : List FileName}
    {viaLink : Bool},
    visits base options directory names viaLink listing.readableOnly =
      ((visits base options directory names viaLink listing).1.filter Visit.readable,
        (visits base options directory names viaLink listing).2)
  | .nil, _, _, _ => rfl
  | .fails, _, _, _ => rfl
  | .entry name inode inside after, directory, names, viaLink => by
      have hrest := @visits_readableOnly after directory names viaLink
      have hdeeper := @visits_readableOnly inside (Path.join directory name.1) (names ++ [name])
        (isLink inode)
      rw [Listing.readableOnly, visits]
      cases hreadable : inode.status.isSome with
      | false =>
          have hskip := @Visit.not_entered base options
            { path := Path.join directory name.1, names := names ++ [name], inode := inode
              viaLink := viaLink } hreadable
          dsimp only
          rw [if_neg Bool.false_ne_true, hskip, if_neg Bool.false_ne_true, hrest,
            List.filter_cons_of_neg]
          exact Bool.eq_false_iff.mp hreadable
      | true =>
          have hkeep : ∀ vs, List.filter Visit.readable
              ({ path := Path.join directory name.1, names := names ++ [name], inode := inode
                 viaLink := viaLink } :: vs) =
              { path := Path.join directory name.1, names := names ++ [name], inode := inode
                viaLink := viaLink } :: List.filter Visit.readable vs := fun vs =>
            List.filter_cons_of_pos hreadable
          rw [if_pos rfl, visits]
          dsimp only
          split
          · cases inode.opening with
            | denied => dsimp only; rw [hrest, hkeep]
            | failed => dsimp only; rw [hkeep]; rfl
            | listed =>
                dsimp only
                rw [hdeeper, hrest]
                split
                · rw [hkeep, List.filter_append]
                · rw [hkeep]
          · rw [hrest, hkeep]

theorem rootVisits_readableOnly :
    rootVisits base options rootPath root.readableOnly =
      ((rootVisits base options rootPath root).1.filter Visit.readable,
        (rootVisits base options rootPath root).2) := by
  have hinode : root.readableOnly.inode = root.inode := rfl
  rw [rootVisits, rootVisits, hinode]
  cases root.inode.opening with
  | denied => rfl
  | failed => rfl
  | listed => exact visits_readableOnly

/-- The same root, with the same status. -/
theorem Scannable.readableOnly (h : Scannable machine rootPath root base status) :
    Scannable machine rootPath root.readableOnly base status :=
  { isPresent := h.isPresent, isDirectory := h.isDirectory, path := h.path, status := h.status }

/-! ## What both scans collect -/

theorem Visit.not_permitted {v : Visit} (h : v.readable = false) :
    v.permitted base options = false := by
  cases hpermitted : v.permitted base options with
  | false => rfl
  | true =>
      rw [Visit.readable_of_permitted hpermitted] at h
      cases h

theorem permittedOf_readable {vs : List Visit} :
    permittedOf base options (vs.filter Visit.readable) = permittedOf base options vs := by
  rw [permittedOf, permittedOf, List.filter_filter]
  refine List.filter_congr fun v _ => ?_
  cases hpermitted : v.permitted base options with
  | false => rfl
  | true => rw [Visit.readable_of_permitted hpermitted]; rfl

theorem maxEntries_ne_zero {n : Nat} (h : 1 + n ≤ options.maxEntries.toNat) :
    options.maxEntries ≠ 0 := by
  intro hzero
  rw [hzero] at h
  simp at h

/-- The scan of the tree without these entries gathers all that the policy permits. -/
theorem scan_readableOnly (h : Scannable machine rootPath root base status)
    (hlimit : 1 + (permittedOf base options (rootVisits base options rootPath root).1).length ≤
      options.maxEntries.toNat) :
    scan machine rootPath root.readableOnly options =
      sorted (gathered base options (rootResult machine rootPath root base status)
        (rootVisits base options rootPath root).1) := by
  have hpositive : options.maxEntries ≠ 0 := maxEntries_ne_zero hlimit
  have hall := @collectAll_gathered base options
    ((rootVisits base options rootPath root).1.filter Visit.readable)
    (rootResult machine rootPath root base status) (fun v hv => (List.mem_filter.mp hv).2) (by
      rw [permittedOf_readable]
      exact hlimit)
  have hgathered : gathered base options (rootResult machine rootPath root base status)
      ((rootVisits base options rootPath root).1.filter Visit.readable) =
      gathered base options (rootResult machine rootPath root base status)
        (rootVisits base options rootPath root).1 := by
    rw [gathered, gathered, permittedOf_readable]
  rw [scan, scanToEnd_eq h.readableOnly hpositive, rootVisits_readableOnly]
  show sorted (collectAll base options _ (rootResult machine rootPath root base status)).1 = _
  rw [hall, hgathered]

/-- Behind the first entry that cannot be read, nothing is taken. -/
theorem collectAll_unreadable {before after : List Visit} {v : Visit} {result : RawScanResult}
    (hbefore : ∀ u ∈ before, u.readable = true) (hv : v.readable = false)
    (hlimit : result.entries.length + (permittedOf base options before).length ≤
      options.maxEntries.toNat) :
    (collectAll base options (before ++ v :: after) result).1 =
      appendDiagnostic (gathered base options result before)
        (statusDiagnostic (v.normalizedPath base)) := by
  have hstatus : v.inode.status = none := by
    rw [Visit.readable, Option.isSome_eq_false_iff, Option.isNone_iff_eq_none] at hv
    exact hv
  rw [collectAll_append, collectAll_gathered hbefore hlimit, if_pos rfl, collectAll, collect, hstatus]

theorem readable_or_first : ∀ vs : List Visit,
    (∀ v ∈ vs, v.readable = true) ∨ ∃ before v after, vs = before ++ v :: after ∧
      (∀ u ∈ before, u.readable = true) ∧ v.readable = false
  | [] => .inl nofun
  | v :: vs => by
      cases hv : v.readable with
      | false => exact .inr ⟨[], v, vs, rfl, nofun, hv⟩
      | true =>
          rcases readable_or_first vs with hall | ⟨before, u, after, hvs, hbefore, hu⟩
          · exact .inl (List.forall_mem_cons.mpr ⟨hv, hall⟩)
          · exact .inr ⟨v :: before, u, after, by rw [hvs]; rfl,
              List.forall_mem_cons.mpr ⟨hv, hbefore⟩, hu⟩

end

/-! ## An entry that costs only itself -/

/-- Behind an entry that cannot be read there is no other one, and none that is permitted. -/
def OnlyLast (base : NormalPath) (options : ScanOptions) : List Visit → Prop
  | [] => True
  | v :: vs =>
      if v.readable then OnlyLast base options vs
      else ∀ u ∈ vs, u.readable = true ∧ u.permitted base options = false

/-- The scan returns the entries of the scan without the entries that cannot be read, and a
diagnostic for each of these. -/
structure CostsOnlyItself (machine : Machine) (base : NormalPath) (options : ScanOptions)
    (rootPath : Str) (root : ScanRoot) : Prop where
  entries : (scan machine rootPath root options).entries =
    (scan machine rootPath root.readableOnly options).entries
  diagnostics : (scan machine rootPath root options).diagnostics.Perm
    ((scan machine rootPath root.readableOnly options).diagnostics ++
      ((rootVisits base options rootPath root).1.filter fun v => !v.readable).map fun v =>
        statusDiagnostic (v.normalizedPath base))

section
variable {machine : Machine} {base : NormalPath} {options : ScanOptions} {rootPath : Str}
  {root : ScanRoot} {status : FileStatus}

theorem OnlyLast.of_readable : ∀ {vs : List Visit}, (∀ v ∈ vs, v.readable = true) →
    OnlyLast base options vs
  | [], _ => trivial
  | v :: vs, h => by
      rw [OnlyLast, if_pos (h v List.mem_cons_self)]
      exact OnlyLast.of_readable fun u hu => h u (List.mem_cons_of_mem _ hu)

theorem onlyLast_iff {v : Visit} {after : List Visit} (hv : v.readable = false) :
    ∀ {before : List Visit}, (∀ u ∈ before, u.readable = true) →
      (OnlyLast base options (before ++ v :: after) ↔
        ∀ u ∈ after, u.readable = true ∧ u.permitted base options = false)
  | [], _ => by rw [List.nil_append, OnlyLast, if_neg (Bool.eq_false_iff.mp hv)]
  | u :: before, h => by
      rw [List.cons_append, OnlyLast, if_pos (h u List.mem_cons_self)]
      exact onlyLast_iff hv fun w hw => h w (List.mem_cons_of_mem _ hw)

theorem unreadables_nil {vs : List Visit} (h : ∀ v ∈ vs, v.readable = true) :
    (vs.filter fun v => !v.readable) = [] := by
  refine List.filter_eq_nil_iff.mpr fun v hv => ?_
  rw [h v hv]
  exact Bool.false_ne_true

theorem permittedOf_append {vs vs' : List Visit} :
    permittedOf base options (vs ++ vs') = permittedOf base options vs ++ permittedOf base options vs' :=
  List.filter_append ..

theorem gathered_entries {result : RawScanResult} {vs vs' : List Visit}
    (h : permittedOf base options vs = permittedOf base options vs') :
    gathered base options result vs = gathered base options result vs' := by
  rw [gathered, gathered, h]

theorem sorted_entries_length (result : RawScanResult) :
    (sorted result).entries.length = result.entries.length :=
  (sortBy_perm ..).length_eq

theorem gathered_length (result : RawScanResult) (vs : List Visit) :
    (gathered base options result vs).entries.length =
      result.entries.length + (permittedOf base options vs).length := by
  rw [gathered, List.length_append, List.length_map]

/-- What both scans return when the first entry that cannot be read is `v`. -/
theorem costsOnlyItself_iff {before after : List Visit} {v : Visit}
    (h : Scannable machine rootPath root base status)
    (hlimit : 1 + (permittedOf base options (rootVisits base options rootPath root).1).length ≤
      options.maxEntries.toNat)
    (hvisits : (rootVisits base options rootPath root).1 = before ++ v :: after)
    (hbefore : ∀ u ∈ before, u.readable = true) (hv : v.readable = false) :
    CostsOnlyItself machine base options rootPath root ↔
      ∀ u ∈ after, u.readable = true ∧ u.permitted base options = false := by
  have hpermitted : permittedOf base options (before ++ v :: after) =
      permittedOf base options before ++ permittedOf base options after := by
    rw [permittedOf_append, permittedOf, permittedOf, permittedOf,
      List.filter_cons_of_neg (Bool.eq_false_iff.mp (Visit.not_permitted hv))]
  have hpositive : options.maxEntries ≠ 0 := maxEntries_ne_zero hlimit
  have hpruned := scan_readableOnly h hlimit
  have hscan : scan machine rootPath root options =
      sorted (appendDiagnostic
        (gathered base options (rootResult machine rootPath root base status) before)
        (statusDiagnostic (v.normalizedPath base))) := by
    rw [hvisits, hpermitted, List.length_append] at hlimit
    rw [scan, scanToEnd_eq h hpositive, hvisits]
    refine congrArg sorted (collectAll_unreadable hbefore hv ?_)
    show 1 + _ ≤ _
    omega
  have hunreadable : ((before ++ v :: after).filter fun u => !u.readable) =
      v :: after.filter fun u => !u.readable := by
    rw [List.filter_append, unreadables_nil hbefore, List.nil_append, List.filter_cons_of_pos]
    rw [hv]
    rfl
  rw [hvisits] at hpruned
  constructor
  · intro hcosts
    have hentries := congrArg List.length hcosts.entries
    rw [hscan, hpruned, sorted_entries_length, sorted_entries_length, gathered_length, hpermitted,
      List.length_append] at hentries
    have hlength : (permittedOf base options after).length = 0 := by
      have hsame : (appendDiagnostic (gathered base options
          (rootResult machine rootPath root base status) before)
          (statusDiagnostic (v.normalizedPath base))).entries.length = _ :=
        gathered_length (rootResult machine rootPath root base status) before
      omega
    have hnone : permittedOf base options after = [] := List.eq_nil_of_length_eq_zero hlength
    have hdiagnostics := hcosts.diagnostics.length_eq
    have hgathered : gathered base options (rootResult machine rootPath root base status)
        (before ++ v :: after) =
        gathered base options (rootResult machine rootPath root base status) before :=
      gathered_entries (by rw [hpermitted, hnone, List.append_nil])
    rw [hscan, hpruned, hgathered, hvisits, hunreadable, List.length_append, List.length_map,
      List.length_cons] at hdiagnostics
    have hone : (after.filter fun u => !u.readable).length = 0 := by
      have happended : (sorted (appendDiagnostic (gathered base options
          (rootResult machine rootPath root base status) before)
          (statusDiagnostic (v.normalizedPath base)))).diagnostics.length =
          (sorted (gathered base options
            (rootResult machine rootPath root base status) before)).diagnostics.length + 1 :=
        List.length_append
      omega
    intro u hu
    have hreadable := List.filter_eq_nil_iff.mp (List.eq_nil_of_length_eq_zero hone) u hu
    have hleft := List.filter_eq_nil_iff.mp hnone u hu
    exact ⟨by simpa using hreadable, by simpa using hleft⟩
  · intro hafter
    have hnone : permittedOf base options after = [] :=
      List.filter_eq_nil_iff.mpr fun u hu => Bool.eq_false_iff.mp (hafter u hu).2
    have hgathered : gathered base options (rootResult machine rootPath root base status)
        (before ++ v :: after) =
        gathered base options (rootResult machine rootPath root base status) before :=
      gathered_entries (by rw [hpermitted, hnone, List.append_nil])
    rw [hgathered] at hpruned
    constructor
    · rw [hscan, hpruned]
      rfl
    · rw [hscan, hpruned, hvisits, hunreadable, unreadables_nil fun u hu => (hafter u hu).1]
      exact .refl _

/-- The entries that cannot be read cost only themselves if and only if the first of them is
the last entry to be taken. -/
theorem scan_skips_exact (machine : Machine) (base : NormalPath) (options : ScanOptions)
    (rootPath : Str) (root : ScanRoot) (status : FileStatus)
    (h : Scannable machine rootPath root base status)
    (hlimit : 1 + (permittedOf base options (rootVisits base options rootPath root).1).length ≤
      options.maxEntries.toNat) :
    CostsOnlyItself machine base options rootPath root ↔
      OnlyLast base options (rootVisits base options rootPath root).1 := by
  rcases readable_or_first (rootVisits base options rootPath root).1 with
    hall | ⟨before, v, after, hvisits, hbefore, hv⟩
  · refine iff_of_true ?_ (.of_readable hall)
    have hkept : scan machine rootPath root options =
        scan machine rootPath root.readableOnly options := by
      have hall' := @collectAll_gathered base options _ (rootResult machine rootPath root base status)
        hall hlimit
      rw [scan_readableOnly h hlimit, scan, scanToEnd_eq h (maxEntries_ne_zero hlimit)]
      exact congrArg (fun collected => sorted collected.1) hall'
    constructor
    · rw [hkept]
    · rw [hkept, unreadables_nil hall, List.map_nil, List.append_nil]
  · rw [costsOnlyItself_iff h hlimit hvisits hbefore hv, hvisits, onlyLast_iff hv hbefore]

end

/-! ## A file that vanishes before another one -/

def vanishedFile : Path.FileName := ⟨str "a", by decide⟩

def remainingFile : Path.FileName := ⟨str "b", by decide⟩

def vanishedInode : Inode := { status := none }

def remainingInode : Inode := { fileSize := some 3 }

def dataRoot (listing : Listing) : ScanRoot :=
  { inode := { status := some { type := .directory } }, listing := listing }

def dataBase : NormalPath := { names := [⟨str "data", by decide⟩] }

theorem dataRoot_scannable (listing : Listing) :
    Scannable {} (str "/data") (dataRoot listing) dataBase { type := .directory } where
  isPresent := rfl
  isDirectory := rfl
  path := ⟨str "/data", rfl, NormalPath.ext (by decide) (by decide)⟩
  status := rfl

/-- The file that is listed behind it is lost. -/
theorem scan_skips_rest :
    Scannable {} (str "/data") (dataRoot (.entry vanishedFile vanishedInode .nil
        (.entry remainingFile remainingInode .nil .nil))) dataBase { type := .directory } ∧
      ¬ CostsOnlyItself {} dataBase {} (str "/data") (dataRoot (.entry vanishedFile vanishedInode .nil
        (.entry remainingFile remainingInode .nil .nil))) := by
  refine ⟨dataRoot_scannable _, fun h => ?_⟩
  have hentries := congrArg List.length h.entries
  revert hentries
  decide

/-- The other way round, nothing is lost. -/
theorem scan_skips_last :
    Scannable {} (str "/data") (dataRoot (.entry remainingFile remainingInode .nil
        (.entry vanishedFile vanishedInode .nil .nil))) dataBase { type := .directory } ∧
      CostsOnlyItself {} dataBase {} (str "/data") (dataRoot (.entry remainingFile remainingInode .nil
        (.entry vanishedFile vanishedInode .nil .nil))) :=
  ⟨dataRoot_scannable _,
    (scan_skips_exact {} dataBase {} (str "/data") _ _ (dataRoot_scannable _) (by decide)).mpr
      nofun⟩

end ServerStorage.Muninn
