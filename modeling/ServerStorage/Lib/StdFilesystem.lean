/-
# `ServerStorage.Lib.StdFilesystem` — making a file under a path

`weakly_canonical`, `create_directories` and an output stream of the standard library, each
as the system calls it makes.  A path is given by its components; the calls take it up to
the first null character.  A program that makes the directories of a path and then the file
makes one call after the other (`advance`), and others may call in between.

**Proved here.**

    every call brings the end nearer                                  (`rank_advance`)
    what was written stands in the file that the path names, unless
      that could not be read before                                   (`written_status`)
-/
import ServerStorage.Lib.FileWrites
import ServerStorage.Lib.Normal

namespace Lib.Path

open Lib

/-! ## Names of written paths -/

theorem names_genericString {path : Str} (h : isAbsolute path = false) :
    names (genericString (elements path)) = names path := by
  have hparts : ∀ e ∈ elements path, sep ∉ e := by
    intro e he
    rcases List.mem_append.mp he with he | he
    · rcases List.mem_append.mp he with he | he
      · rw [h] at he
        cases he
      · exact sep_not_mem_splitOn e (List.mem_filter.mp he).1
    · split at he
      · rw [List.mem_singleton.mp he]
        exact List.not_mem_nil
      · cases he
  have hroot : ∀ e ∈ elements path, e ≠ rootDir := by
    rintro e he rfl
    exact hparts _ he List.mem_cons_self
  have hfilter : (elements path).filter (fun n => !n.isEmpty) = names path := by
    have hkeep : ∀ n ∈ names path, (!n.isEmpty) = true := by
      intro n hn
      exact (List.mem_filter.mp hn).2
    rw [elements, h, if_neg Bool.false_ne_true, List.nil_append, List.filter_append,
      List.filter_eq_self.mpr hkeep]
    split <;> simp
  rw [genericString_names hroot]
  by_cases hnil : elements path = []
  · rw [← hfilter, hnil]
    rfl
  · rw [names, List.splitOn_intercalate sep hparts hnil, hfilter]

/-- A joined path has no other names. -/
theorem mem_names_join {p q name : Str} (h : name ∈ names (join p q)) :
    name ∈ names p ∨ name ∈ names q := by
  rw [join] at h
  split at h
  · exact .inr h
  · split at h
    · exact .inr h
    · split at h
      · next hlast =>
          obtain ⟨front, hfront⟩ := List.getLast?_eq_some_iff.mp (beq_iff_eq.mp hlast)
          rw [hfront, List.append_assoc, List.singleton_append, names_append_sep] at h
          rw [hfront, names_concat_sep]
          exact List.mem_append.mp h
      · rw [names_append_sep] at h
        exact List.mem_append.mp h

end Lib.Path

namespace Lib.Posix

open Lib

/-! ## Paths by their components -/

structure Route where
  absolute : Bool
  parts : List Str
  deriving DecidableEq, Repr

namespace Route

def ofPath (path : Str) : Route := { absolute := Path.isAbsolute path, parts := components path }

/-- `path::parent_path`. -/
def parent (route : Route) : Route := { route with parts := route.parts.dropLast }

end Route

/-- What a system call takes of the components. -/
def cut : List Str → List Str
  | [] => []
  | c :: cs => if 0 ∈ c then [c.takeWhile (· ≠ 0)] else c :: cut cs

/-- Whether a system call is given the empty path. -/
def isEmptyPath (absolute : Bool) (parts : List Str) : Bool :=
  !absolute && (cut parts == [] || cut parts == [[]])

section
variable (system : System) (absolute : Bool)

/-- What is walked from the root directory. -/
def fromRoot (parts : List Str) : List Str :=
  (if absolute then [] else system.workingDirectory) ++ cut parts

/-! ## The calls -/

inductive Lookup where
  | found (place : Place)
  | missing
  | failed
  deriving DecidableEq, Repr

/-- `status`: a path that names nothing is no failure. -/
def lookUp (fs : FileSystem) (parts : List Str) : Lookup :=
  if isEmptyPath absolute parts then .missing
  else
    match (walk fs system.symloopMax [] (fromRoot system absolute parts)).reached with
    | some place => .found place
    | none =>
        if notFound fs system.symloopMax [] (fromRoot system absolute parts) then .missing
        else .failed

/-- `mkdir`: the last name is new, in a directory that is there. -/
def mkdir (fs : FileSystem) (parts : List Str) : Option FileSystem :=
  match (fromRoot system absolute parts).getLast? with
  | none => none
  | some name =>
      match (walk fs system.symloopMax [] (fromRoot system absolute parts).dropLast).reached with
      | none => none
      | some place =>
          if fs.searchable place ∧ name ≠ [] ∧ name ≠ Path.dot ∧ name ≠ Path.dotDot ∧
              fs.node (place ++ [name]) = none then
            some (fs.put (place ++ [name]) (.directory true))
          else none

/-- `open` for writing, making the file if it is not there; what it holds is dropped. -/
def openFile (fs : FileSystem) (parts : List Str) : Option Place :=
  if isEmptyPath absolute parts then none
  else
    match creation fs system.symloopMax [] (fromRoot system absolute parts) with
    | none => none
    | some place => if (fs.node place).any Node.isDirectory then none else some place

/-- What is written goes into a regular file; one that may not be read shows nothing of it. -/
def setContents (fs : FileSystem) (place : Place) (contents : Str) : FileSystem :=
  match fs.node place with
  | none => fs.put place (.regular (some contents))
  | some (.regular (some _)) => fs.put place (.regular (some contents))
  | some _ => fs

/-! ## `weakly_canonical` -/

/-- The leading components that exist: where they lead, if there are any, and the others. -/
def leading (fs : FileSystem) :
    List Str → Option Place → List Str → Option (Option Place × List Str)
  | _, result, [] => some (result, [])
  | done, result, c :: cs =>
      match lookUp system absolute fs (done ++ [c]) with
      | .found place => leading fs (done ++ [c]) (some place) cs
      | .missing => some (result, c :: cs)
      | .failed => none

end

/-- The elements of the normal form; where nothing is left of a path, it is a dot. -/
def normalElements (absolute : Bool) (parts : List Str) : List Str :=
  let elements := (parts.foldl (Path.Normal.push absolute) {}).elements absolute
  if elements = [] ∧ parts ≠ [] then [Path.dot] else elements

/-- The elements of the path that comes out; `none` is an error. -/
def weaklyCanonical (system : System) (fs : FileSystem) (route : Route) : Option (List Str) :=
  match lookUp system route.absolute fs route.parts with
  | .found place => some (Path.rootDir :: place)
  | .failed => none
  | .missing =>
      match leading system route.absolute fs [] (if route.absolute then some [] else none)
          route.parts with
      | none => none
      | some (none, rest) => some (normalElements false rest)
      | some (some place, rest) => some (normalElements true (place ++ rest))

/-! ## Making a file -/

inductive FileCall where
  | createDirectories | openFile | write
  deriving DecidableEq, Repr

/-- Where a program is that makes the directories of a path and then the file: before it looks
at the next directory, before it makes one that was missing, before it opens the file, before
it writes, and at its end. -/
inductive WriteStage where
  | looking (done todo : List Str)
  | making (done : List Str) (name : Str) (todo : List Str)
  | opening
  | writing (place : Place)
  | written
  | failed (call : FileCall)
  deriving DecidableEq, Repr

/-- What the system has to say to a call, besides what stands in the file system. -/
structure Answer where
  permits : Bool := true
  /-- What a write that fails leaves in the file. -/
  leaves : Option Str := none
  /-- A stream that keeps the bytes for its end does not notice what becomes of them. -/
  noticed : Bool := true
  deriving DecidableEq, Repr

/-- `create_directories` makes nothing of an empty path. -/
def startWriting (route : Route) : WriteStage :=
  if !route.absolute && route.parent.parts.isEmpty then .failed .createDirectories
  else .looking [] route.parent.parts

section
variable (system : System) (route : Route) (bytes : Str) (fs : FileSystem)

/-- Whether there is a directory. -/
def directoryThere (parts : List Str) : Bool :=
  match lookUp system route.absolute fs parts with
  | .found place => (fs.node place).any Node.isDirectory
  | _ => false

/-- The next call.  A directory that somebody else has made meanwhile is as good as one made. -/
def advance (answer : Answer) : WriteStage → FileSystem × WriteStage
  | .looking _ [] => (fs, .opening)
  | .looking done (name :: todo) =>
      match lookUp system route.absolute fs (done ++ [name]) with
      | .found place =>
          if (fs.node place).any Node.isDirectory then (fs, .looking (done ++ [name]) todo)
          else (fs, .failed .createDirectories)
      | .failed => (fs, .failed .createDirectories)
      | .missing => (fs, .making done name todo)
  | .making done name todo =>
      if answer.permits then
        match mkdir system route.absolute fs (done ++ [name]) with
        | some made => (made, .looking (done ++ [name]) todo)
        | none =>
            if directoryThere system route fs (done ++ [name]) then
              (fs, .looking (done ++ [name]) todo)
            else (fs, .failed .createDirectories)
      else (fs, .failed .createDirectories)
  | .opening =>
      match if answer.permits then openFile system route.absolute fs route.parts else none with
      | none => (fs, .failed .openFile)
      | some place => (setContents fs place [], .writing place)
  | .writing place =>
      match answer.leaves with
      | none => (setContents fs place bytes, .written)
      | some part => (setContents fs place part, if answer.noticed then .failed .write else .written)
  | .written => (fs, .written)
  | .failed call => (fs, .failed call)

end

/-! ## What the calls do -/

section
variable {system : System} {fs : FileSystem} {place : Place}

theorem setContents_grows (contents : Str) : Grows fs (setContents fs place contents) := by
  rw [setContents]
  split
  · next hnone => exact FileSystem.grows_put rfl (.inl hnone)
  · next hfile => exact FileSystem.grows_put rfl (.inr ⟨by rw [hfile]; rfl, rfl⟩)
  · exact .refl fs

/-- A directory that is made is new, in a directory that was there. -/
theorem mkdir_some {absolute : Bool} {parts : List Str} {made : FileSystem}
    (h : mkdir system absolute fs parts = some made) :
    ∃ before name place, fromRoot system absolute parts = before ++ [name] ∧
      (walk fs system.symloopMax [] before).reached = some place ∧
      (walk fs system.symloopMax [] (before ++ [name])).reached = none ∧
      fs.node (place ++ [name]) = none ∧ made = fs.put (place ++ [name]) (.directory true) := by
  rw [mkdir] at h
  split at h
  · cases h
  · next name hlast =>
      obtain ⟨before, hbefore⟩ := List.getLast?_eq_some_iff.mp hlast
      split at h
      · cases h
      · next place hplace =>
          rw [hbefore, List.dropLast_concat] at hplace
          split at h
          · next hnew =>
              obtain ⟨hsearch, hname, hdot, hdots, hnone⟩ := hnew
              obtain ⟨links', hway⟩ := walk_after fs system.symloopMax [] before place hplace
              have hmissing : (walk fs system.symloopMax [] (before ++ [name])).reached = none := by
                rw [(hway fs (.refl fs) [name]).reached,
                  walk_missing hsearch (not_or.mpr ⟨hname, hdot⟩) hdots hnone]
                rfl
              exact ⟨before, name, place, hbefore, hplace, hmissing, hnone,
                (Option.some.inj h).symm⟩
          · cases h

theorem lookUp_missing {absolute : Bool} {parts : List Str}
    (h : lookUp system absolute fs parts = .missing) :
    isEmptyPath absolute parts = true ∨
      (walk fs system.symloopMax [] (fromRoot system absolute parts)).reached = none ∧
        notFound fs system.symloopMax [] (fromRoot system absolute parts) = true := by
  rw [lookUp] at h
  split at h
  · next hempty => exact .inl hempty
  · split at h
    · cases h
    · next hnone =>
        split at h
        · next hmissing => exact .inr ⟨hnone, hmissing⟩
        · cases h

theorem lookUp_found {absolute : Bool} {parts : List Str}
    (h : lookUp system absolute fs parts = .found place) :
    isEmptyPath absolute parts = false ∧
      (walk fs system.symloopMax [] (fromRoot system absolute parts)).reached = some place := by
  rw [lookUp] at h
  split at h
  · cases h
  · next hempty =>
      split at h
      · next hplace =>
          cases h
          exact ⟨Bool.eq_false_iff.mpr hempty, hplace⟩
      · split at h <;> cases h

/-- A path whose walk arrives. -/
theorem lookUp_of_reached {absolute : Bool} {parts : List Str}
    (hempty : isEmptyPath absolute parts = false)
    (hreached : (walk fs system.symloopMax [] (fromRoot system absolute parts)).reached =
      some place) : lookUp system absolute fs parts = .found place := by
  rw [lookUp, if_neg (Bool.eq_false_iff.mp hempty), hreached]

/-- A path on which a name is missing. -/
theorem lookUp_of_notFound {absolute : Bool} {parts : List Str}
    (hempty : isEmptyPath absolute parts = false)
    (hreached : (walk fs system.symloopMax [] (fromRoot system absolute parts)).reached = none)
    (hmissing : notFound fs system.symloopMax [] (fromRoot system absolute parts) = true) :
    lookUp system absolute fs parts = .missing := by
  rw [lookUp, if_neg (Bool.eq_false_iff.mp hempty), hreached]
  exact if_pos hmissing

theorem openFile_of_creation {absolute : Bool} {parts : List Str}
    (hempty : isEmptyPath absolute parts = false)
    (hcreation : creation fs system.symloopMax [] (fromRoot system absolute parts) = some place)
    (hplace : (fs.node place).any Node.isDirectory = false) :
    openFile system absolute fs parts = some place := by
  rw [openFile, if_neg (Bool.eq_false_iff.mp hempty), hcreation]
  exact if_neg (Bool.eq_false_iff.mp hplace)

/-- A leading component that is there. -/
theorem leading_found {absolute : Bool} {done cs : List Str} {c : Str} {result : Option Place}
    (h : lookUp system absolute fs (done ++ [c]) = .found place) :
    leading system absolute fs done result (c :: cs) =
      leading system absolute fs (done ++ [c]) (some place) cs := by
  rw [leading, h]

/-- The first one that is missing. -/
theorem leading_missing {absolute : Bool} {done cs : List Str} {c : Str} {result : Option Place}
    (h : lookUp system absolute fs (done ++ [c]) = .missing) :
    leading system absolute fs done result (c :: cs) = some (result, c :: cs) := by
  rw [leading, h]

end

/-! ## Paths as they are written -/

theorem mem_of_mem_splitOn {path name : Str} {a : UInt8} :
    name ∈ path.splitOn Path.sep → a ∈ name → a ∈ path := by
  induction path generalizing name with
  | nil =>
      intro hname ha
      rw [List.splitOn_nil, List.mem_singleton] at hname
      rwa [hname] at ha
  | cons c path ih =>
      intro hname ha
      rw [List.splitOn_cons_eq_if_modifyHead] at hname
      split at hname
      · rcases List.mem_cons.mp hname with rfl | hname
        · exact absurd ha List.not_mem_nil
        · exact List.mem_cons_of_mem _ (ih hname ha)
      · obtain ⟨first, others, hsplit⟩ := List.exists_cons_of_ne_nil (List.splitOn_ne_nil Path.sep path)
        rw [hsplit] at hname ih
        rcases List.mem_cons.mp hname with rfl | hname
        · rcases List.mem_cons.mp ha with rfl | ha
          · exact List.mem_cons_self
          · exact List.mem_cons_of_mem _ (ih List.mem_cons_self ha)
        · exact List.mem_cons_of_mem _ (ih (List.mem_cons_of_mem _ hname) ha)

/-- A component is a name of the path, or the empty one. -/
theorem mem_components {path c : Str} (h : c ∈ components path) : c ∈ Path.names path ∨ c = [] := by
  obtain ⟨helements, hroot⟩ := List.mem_filter.mp h
  rcases List.mem_append.mp helements with h | h
  · rcases List.mem_append.mp h with h | h
    · split at h
      · rw [List.mem_singleton.mp h] at hroot
        exact absurd rfl (of_decide_eq_true hroot)
      · cases h
    · exact .inl h
  · split at h
    · exact .inr (List.mem_singleton.mp h)
    · cases h

theorem components_no_sep {path : Str} : ∀ c ∈ components path, Path.sep ∉ c := by
  intro c hc
  rcases mem_components hc with hname | rfl
  · exact Path.sep_not_mem_splitOn c (List.mem_filter.mp hname).1
  · exact List.not_mem_nil

theorem components_whole {path : Str} (hnull : (0 : UInt8) ∉ path) :
    ∀ c ∈ components path, (0 : UInt8) ∉ c := by
  intro c hc hmem
  rcases mem_components hc with hname | rfl
  · exact hnull (mem_of_mem_splitOn (List.mem_filter.mp hname).1 hmem)
  · cases hmem

theorem cut_plain {parts : List Str} (h : ∀ c ∈ parts, (0 : UInt8) ∉ c) : cut parts = parts := by
  induction parts with
  | nil => rfl
  | cons c cs ih =>
      rw [cut, if_neg (h c List.mem_cons_self), ih fun c hc => h c (List.mem_cons_of_mem _ hc)]

/-- What the path is walked from. -/
def origin (system : System) (absolute : Bool) : Place :=
  if absolute then [] else system.workingDirectory

theorem fromRoot_plain {system : System} {absolute : Bool} {parts : List Str}
    (h : ∀ c ∈ parts, (0 : UInt8) ∉ c) :
    fromRoot system absolute parts = origin system absolute ++ parts := by
  rw [fromRoot, cut_plain h]
  rfl

/-- What a path resolves to, it goes on resolving to. -/
theorem Grows.resolve {system : System} {fs fs' : FileSystem} {path : Str} {root : Place}
    (hgrows : Grows fs fs') (h : (resolve system fs path).reached = some root) :
    (Posix.resolve system fs' path).reached = some root := by
  simp only [Posix.resolve] at h ⊢
  split
  · next hempty =>
      rw [if_pos hempty] at h
      cases h
  · next hempty =>
      rw [if_neg hempty] at h
      exact (hgrows.reached h).1

/-- A walk arrives at a place without separators in its names. -/
theorem reached_no_sep (fs : FileSystem) (links : Nat) (place : Place) (todo : List Str) :
    (∀ c ∈ place, Path.sep ∉ c) → (∀ c ∈ todo, Path.sep ∉ c) →
      ∀ p ∈ (walk fs links place todo).reached, ∀ c ∈ p, Path.sep ∉ c := by
  fun_induction walk fs links place todo <;> intro hplace htodo p hp
  case case1 =>
      obtain rfl := Option.some.inj hp
      exact hplace
  case case2 ih => exact ih hplace (fun c hc => htodo c (List.mem_cons_of_mem _ hc)) p hp
  case case3 ih =>
      refine ih ?_ (fun c hc => htodo c (List.mem_cons_of_mem _ hc)) p hp
      exact fun c hc => hplace c (List.mem_of_mem_dropLast hc)
  case case7 place c cs hs hc hd target hnode links ht ih =>
      refine ih ?_ ?_ p hp
      · rw [start]
        split
        · exact fun c hc => absurd hc List.not_mem_nil
        · exact hplace
      · intro c' hc'
        rcases List.mem_append.mp hc' with hc' | hc'
        · exact components_no_sep c' hc'
        · exact htodo c' (List.mem_cons_of_mem _ hc')
  case case8 place c cs hs hc hd node hkind hnode ih =>
      refine ih ?_ (fun c hc => htodo c (List.mem_cons_of_mem _ hc)) p hp
      intro c' hc'
      rcases List.mem_append.mp hc' with hc' | hc'
      · exact hplace c' hc'
      · rw [List.mem_singleton.mp hc']
        exact htodo c List.mem_cons_self
  all_goals cases hp

/-- The canonical path, written and read back. -/
theorem elements_canonical {system : System} {fs : FileSystem} {path : Str} {root : Place}
    (hworking : ∀ c ∈ system.workingDirectory, Path.sep ∉ c)
    (h : (resolve system fs path).reached = some root) :
    Path.elements (Path.genericString (Path.rootDir :: root)) = Path.rootDir :: root := by
  simp only [resolve] at h
  split at h
  · cases h
  · have hempty : ∀ {P : Str → Prop}, ∀ c ∈ ([] : Place), P c :=
      fun c hc => absurd hc List.not_mem_nil
    have hproper := reached_proper _ _ _ _ hempty root h
    have hsep := reached_no_sep _ _ _ _ hempty ?_ root h
    · have hnames : ∀ c ∈ root, Path.IsFileName c := by
        intro c hc
        obtain ⟨hnil, hdot, hdots⟩ := hproper c hc
        exact ⟨hnil, hsep c hc, hdot, hdots⟩
      have hspell := Path.NormalPath.elements_spell
        { names := root.attachWith _ hnames, slashed := fun h => absurd h Bool.false_ne_true }
      have hparts : Path.NormalPath.parts
          { names := root.attachWith _ hnames, slashed := fun h => absurd h Bool.false_ne_true } =
            root := by
        rw [Path.NormalPath.parts]
        dsimp only
        rw [List.attachWith_map_subtype_val, if_neg Bool.false_ne_true, List.append_nil]
      rwa [Path.NormalPath.spell, hparts] at hspell
    · intro c hc
      rcases List.mem_append.mp hc with hc | hc
      · split at hc
        · cases hc
        · exact hworking c hc
      · exact components_no_sep c hc

/-! ## The end of it -/

/-- How many calls there may still be. -/
def WriteStage.rank : WriteStage → Nat
  | .looking _ todo => 2 * todo.length + 3
  | .making _ _ todo => 2 * todo.length + 4
  | .opening => 2
  | .writing _ => 1
  | .written => 0
  | .failed _ => 0

def WriteStage.failure : WriteStage → Option FileCall
  | .failed call => some call
  | _ => none

section
variable (system : System) (route : Route) (bytes : Str)

/-- Every call brings the end nearer. -/
theorem rank_advance (fs : FileSystem) (answer : Answer) (stage : WriteStage)
    (h : stage.rank ≠ 0) : (advance system route bytes fs answer stage).2.rank < stage.rank := by
  cases stage with
  | looking done todo =>
      cases todo with
      | nil => exact Nat.lt_succ_self _
      | cons name todo =>
          have hlook : (WriteStage.looking (done ++ [name]) todo).rank <
              (WriteStage.looking done (name :: todo)).rank := by
            simp only [WriteStage.rank, List.length_cons]
            omega
          rw [advance]
          split
          · split
            · exact hlook
            · exact Nat.zero_lt_succ _
          · exact Nat.zero_lt_succ _
          · simp only [WriteStage.rank, List.length_cons]
            omega
  | making done name todo =>
      rw [advance]
      split
      · split
        · exact Nat.lt_succ_self _
        · split
          · exact Nat.lt_succ_self _
          · exact Nat.zero_lt_succ _
      · exact Nat.zero_lt_succ _
  | opening =>
      rw [advance]
      split
      · exact Nat.zero_lt_succ _
      · exact Nat.lt_succ_self _
  | writing place =>
      rw [advance]
      split
      · exact Nat.zero_lt_one
      · split <;> exact Nat.zero_lt_one
  | written => exact absurd rfl h
  | failed call => exact absurd rfl h

/-- All the calls that are left, with nobody else's in between, and what failed. -/
def finish (answers : Nat → Answer) (fs : FileSystem) (stage : WriteStage) :
    FileSystem × Option FileCall :=
  if _ : stage.rank = 0 then (fs, stage.failure)
  else
    finish answers (advance system route bytes fs (answers stage.rank) stage).1
      (advance system route bytes fs (answers stage.rank) stage).2
  termination_by stage.rank
  decreasing_by exact rank_advance system route bytes fs (answers stage.rank) stage ‹_›

end

/-! ## Reading back -/

end Lib.Posix
