/-
# `ServerStorage.Muninn.ScanTree` — the visits of a scan as a tree

Below the root, a visit is listed in the root or in another visit, which the iterator has
entered; names that differ within each directory make different paths.  A scan that comes
to its end has collected the root and every visit that is permitted.
-/
import ServerStorage.Muninn.ScannerSpec

namespace ServerStorage.Muninn

open Lib LocalFilesystemScanner
open Lib.Path (FileName NormalPath)

/-! ## Names -/

/-- What is listed in the directory itself. -/
def Listing.names : Listing → List FileName
  | .nil => []
  | .fails => []
  | .entry name _ _ after => name :: after.names

/-- No directory lists a name twice. -/
def Listing.Distinct : Listing → Prop
  | .nil => True
  | .fails => True
  | .entry name _ inside after => name ∉ after.names ∧ inside.Distinct ∧ after.Distinct

def visitOf (directory : Str) (names : List FileName) (viaLink : Bool) (name : FileName)
    (inode : Inode) : Visit :=
  { path := Path.join directory name.1, names := names ++ [name], inode := inode
    viaLink := viaLink }

section
variable {base : NormalPath} {options : ScanOptions}

/-- The visits that an entry begins: those inside it, if it is entered, and those after it, as far
as the iterator comes. -/
theorem visits_entry {directory : Str} {names : List FileName} {viaLink : Bool} {name : FileName}
    {inode : Inode} {inside after : Listing} :
    ∃ deeper rest, (visits base options directory names viaLink
        (.entry name inode inside after)).1 =
        visitOf directory names viaLink name inode :: (deeper ++ rest) ∧
      (deeper = [] ∨ (visitOf directory names viaLink name inode).entered base options = true ∧
        deeper = (visits base options (Path.join directory name.1) (names ++ [name])
          (isLink inode) inside).1) ∧
      (rest = [] ∨ rest = (visits base options directory names viaLink after).1) := by
  rw [visits]
  show ∃ deeper rest, Prod.fst (if (visitOf directory names viaLink name inode).entered base options
    then _ else _) = _ ∧ _
  by_cases hentered : (visitOf directory names viaLink name inode).entered base options = true
  · rw [if_pos hentered]
    cases inode.opening with
    | denied => exact ⟨[], _, rfl, .inl rfl, .inr rfl⟩
    | failed => exact ⟨[], [], rfl, .inl rfl, .inl rfl⟩
    | listed =>
        dsimp only
        split
        · exact ⟨_, _, rfl, .inr ⟨hentered, rfl⟩, .inr rfl⟩
        · refine ⟨_, [], ?_, .inr ⟨hentered, rfl⟩, .inl rfl⟩
          rw [List.append_nil]
          rfl
  · rw [if_neg hentered]
    exact ⟨[], _, rfl, .inl rfl, .inr rfl⟩

/-- A visit is listed in the directory or below. -/
theorem visits_names : ∀ {listing : Listing} {directory : Str} {names : List FileName}
    {viaLink : Bool} {v : Visit},
    v ∈ (visits base options directory names viaLink listing).1 →
      ∃ n ∈ listing.names, ∃ rest, v.names = names ++ n :: rest
  | .nil, _, _, _, _, h => nomatch h
  | .fails, _, _, _, _, h => nomatch h
  | .entry name inode inside after, directory, names, viaLink, v, h => by
      obtain ⟨deeper, rest, hvisits, hdeeper, hrest⟩ :=
        @visits_entry base options directory names viaLink name inode inside after
      rw [hvisits] at h
      rcases List.mem_cons.mp h with rfl | h
      · exact ⟨name, List.mem_cons_self, [], rfl⟩
      rcases List.mem_append.mp h with h | h
      · rcases hdeeper with rfl | ⟨-, rfl⟩
        · cases h
        · obtain ⟨n, -, rest', hnames⟩ := visits_names h
          exact ⟨name, List.mem_cons_self, n :: rest', by rw [hnames, List.append_assoc]; rfl⟩
      · rcases hrest with rfl | rfl
        · cases h
        · obtain ⟨n, hn, rest', hnames⟩ := visits_names h
          exact ⟨n, List.mem_cons_of_mem _ hn, rest', hnames⟩

/-- The names below the root tell visits apart. -/
theorem visits_nodup : ∀ {listing : Listing} {directory : Str} {names : List FileName}
    {viaLink : Bool}, listing.Distinct →
      ((visits base options directory names viaLink listing).1.map Visit.names).Nodup
  | .nil, _, _, _, _ => List.nodup_nil
  | .fails, _, _, _, _ => List.nodup_nil
  | .entry name inode inside after, directory, names, viaLink, ⟨hname, hinside, hafter⟩ => by
      obtain ⟨deeper, rest, hvisits, hdeeper, hrest⟩ :=
        @visits_entry base options directory names viaLink name inode inside after
      have hbelow : ∀ u ∈ deeper, ∃ n rest', u.names = names ++ name :: n :: rest' := by
        intro u hu
        rcases hdeeper with rfl | ⟨-, rfl⟩
        · cases hu
        · obtain ⟨n, -, rest', hnames⟩ := visits_names hu
          exact ⟨n, rest', by rw [hnames, List.append_assoc]; rfl⟩
      have hbeside : ∀ u ∈ rest, ∃ n rest', n ≠ name ∧ u.names = names ++ n :: rest' := by
        intro u hu
        rcases hrest with rfl | rfl
        · cases hu
        · obtain ⟨n, hn, rest', hnames⟩ := visits_names hu
          exact ⟨n, rest', fun heq => hname (heq ▸ hn), hnames⟩
      rw [hvisits, List.map_cons, List.map_append]
      refine List.nodup_cons.mpr ⟨?_, List.nodup_append.mpr ⟨?_, ?_, ?_⟩⟩
      · intro hmem
        rcases List.mem_append.mp hmem with hmem | hmem
        · obtain ⟨u, hu, heq⟩ := List.mem_map.mp hmem
          obtain ⟨n, rest', hnames⟩ := hbelow u hu
          have hcancel := List.append_cancel_left (hnames.symm.trans heq)
          cases hcancel
        · obtain ⟨u, hu, heq⟩ := List.mem_map.mp hmem
          obtain ⟨n, rest', hne, hnames⟩ := hbeside u hu
          exact hne (List.cons.inj (List.append_cancel_left (hnames.symm.trans heq))).1
      · rcases hdeeper with rfl | ⟨-, rfl⟩
        · exact List.nodup_nil
        · exact visits_nodup hinside
      · rcases hrest with rfl | rfl
        · exact List.nodup_nil
        · exact visits_nodup hafter
      · intro x hx y hy heq
        obtain ⟨u, hu, rfl⟩ := List.mem_map.mp hx
        obtain ⟨w, hw, rfl⟩ := List.mem_map.mp hy
        obtain ⟨n, rest', hnames⟩ := hbelow u hu
        obtain ⟨n', rest'', hne, hnames'⟩ := hbeside w hw
        rw [hnames, hnames'] at heq
        exact hne (List.cons.inj (List.append_cancel_left heq)).1.symm

/-! ## Directories -/

/-- The directory a visit is listed in: the one the iterator starts at, or a visit that has been
entered. -/
inductive ListedIn (base : NormalPath) (options : ScanOptions) (names : List FileName)
    (viaLink : Bool) (vs : List Visit) (v : Visit) : Prop
  | top {n : FileName} : v.names = names ++ [n] → v.viaLink = viaLink →
      ListedIn base options names viaLink vs v
  | deeper {u : Visit} {n : FileName} : u ∈ vs → u.entered base options = true →
      v.names = u.names ++ [n] → v.viaLink = isLink u.inode →
      ListedIn base options names viaLink vs v

theorem ListedIn.mono {names : List FileName} {viaLink : Bool} {vs vs' : List Visit} {v : Visit}
    (h : ListedIn base options names viaLink vs v) (hsub : ∀ u ∈ vs, u ∈ vs') :
    ListedIn base options names viaLink vs' v := by
  cases h with
  | top hnames hlink => exact .top hnames hlink
  | deeper hu hentered hnames hlink => exact .deeper (hsub _ hu) hentered hnames hlink

/-! ## A scan that comes to its end -/

variable {machine : Machine} {rootPath : Str} {root : ScanRoot} {status : FileStatus}

theorem rootVisits_nodup (h : root.listing.Distinct) :
    ((rootVisits base options rootPath root).1.map Visit.names).Nodup := by
  rw [rootVisits]
  cases root.inode.opening with
  | denied | failed => exact List.nodup_nil
  | listed => exact visits_nodup h

theorem Scannable.maxEntries_ne (h : (scanToEnd machine rootPath root options).2 = true) :
    options.maxEntries ≠ 0 := by
  intro hzero
  have hempty := @scanToEnd_empty machine options rootPath root fun ⟨_, _, _, hne⟩ => hne hzero
  rw [hempty.1] at h
  cases h

/-- It has collected the root and all visits. -/
theorem Scannable.complete (h : Scannable machine rootPath root base status)
    (hend : (scanToEnd machine rootPath root options).2 = true) :
    scan machine rootPath root options =
      sorted (gathered base options (rootResult machine rootPath root base status)
        (rootVisits base options rootPath root).1) := by
  have hlimit := Scannable.maxEntries_ne hend
  rw [scanToEnd_eq h hlimit] at hend
  obtain ⟨taken, left, diagnostics, hvs, -, hresult, hcomplete⟩ :=
    @collectAll_cut base options (rootVisits base options rootPath root).1
      (rootResult machine rootPath root base status)
  obtain ⟨rfl, rfl⟩ := hcomplete (Bool.and_eq_true_iff.mp hend).1
  rw [List.append_nil] at hvs
  rw [scan, scanToEnd_eq h hlimit, hresult, hvs, List.append_nil]

end

end ServerStorage.Muninn
