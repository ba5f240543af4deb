/-
# `ServerStorage.Lib.FileSystem` — path resolution

A file system is what stands at each place, and a place is the names that lead to it from
the root directory.  A path is walked name by name.  Every directory on the way has to be
searchable, `..` goes back one name, and the components of a symbolic link's target stand in
for the link; only so many links are followed.

A walk keeps account of the places it consults.  What stands there is all that its outcome
depends on (`walk_congr`), and a walk that arrives has found something at each of them
(`walk_present`).
-/
import Mathlib.Data.List.Infix
import ServerStorage.Lib.Path

namespace Lib.Posix

open Lib

/-! ## File systems -/

/-- The names from the root directory to a place. -/
abbrev Place := List Str

/-- What stands at a place; a regular file that may not be read shows no contents. -/
inductive Node where
  | directory (searchable : Bool)
  | regular (contents : Option Str)
  | symlink (target : Str)
  | other
  deriving DecidableEq, Repr

def Node.isDirectory : Node → Bool
  | .directory _ => true
  | _ => false

/-- What stands at each place.  There is a root directory, and whatever has a name is in a
directory. -/
structure FileSystem where
  node : Place → Option Node
  atRoot : (node []).any Node.isDirectory = true
  inDirectory : ∀ place name, (node (place ++ [name])).isSome →
    (node place).any Node.isDirectory = true

/-- A part of a file system: with a place, the directory it is in. -/
structure Region where
  contains : Place → Bool
  atRoot : contains [] = true
  closed : ∀ place name, contains (place ++ [name]) = true → contains place = true

namespace FileSystem

def searchable (fs : FileSystem) (place : Place) : Bool :=
  fs.node place == some (.directory true)

/-- Nothing is left but what stands in the region. -/
def restrict (fs : FileSystem) (region : Region) : FileSystem where
  node place := if region.contains place then fs.node place else none
  atRoot := by
    rw [if_pos region.atRoot]
    exact fs.atRoot
  inDirectory := by
    intro place name h
    by_cases hin : region.contains (place ++ [name]) = true
    · rw [if_pos hin] at h
      rw [if_pos (region.closed place name hin)]
      exact fs.inDirectory place name h
    · rw [if_neg hin] at h
      cases h

/-- Two file systems show the same in the region. -/
def AgreeOn (region : Region) (fs fs' : FileSystem) : Prop :=
  ∀ place, region.contains place = true → fs.node place = fs'.node place

theorem node_restrict {fs : FileSystem} {region : Region} {place : Place}
    (h : region.contains place = true) : (fs.restrict region).node place = fs.node place :=
  if_pos h

theorem node_restrict_of_not {fs : FileSystem} {region : Region} {place : Place}
    (h : ¬ region.contains place = true) : (fs.restrict region).node place = none :=
  if_neg h

theorem agreeOn_restrict (fs : FileSystem) (region : Region) :
    AgreeOn region fs (fs.restrict region) := fun _ h => (node_restrict h).symm

theorem node_parent (fs : FileSystem) {place : Place} (h : (fs.node place).isSome) :
    (fs.node place.dropLast).isSome := by
  cases place using List.reverseRecOn with
  | nil => exact h
  | append_singleton place name =>
      rw [List.dropLast_concat]
      exact Option.isSome_of_any (fs.inDirectory place name h)

theorem isDirectory_parent (fs : FileSystem) {place : Place}
    (h : (fs.node place).any Node.isDirectory = true) :
    (fs.node place.dropLast).any Node.isDirectory = true := by
  cases place using List.reverseRecOn with
  | nil => exact h
  | append_singleton place name =>
      rw [List.dropLast_concat]
      exact fs.inDirectory place name (Option.isSome_of_any h)

theorem isDirectory_of_searchable {fs : FileSystem} {place : Place}
    (h : fs.searchable place = true) : (fs.node place).any Node.isDirectory = true := by
  rw [beq_iff_eq.mp h]
  rfl

end FileSystem

/-! ## Walks -/

/-- The places a walk consults, and where it arrives. -/
structure Walk where
  consulted : List Place := []
  reached : Option Place := none
  deriving DecidableEq, Repr

def Walk.consult (place : Place) (walk : Walk) : Walk :=
  { walk with consulted := place :: walk.consulted }

@[simp] theorem Walk.consulted_consult (place : Place) (walk : Walk) :
    (walk.consult place).consulted = place :: walk.consulted := rfl

@[simp] theorem Walk.reached_consult (place : Place) (walk : Walk) :
    (walk.consult place).reached = walk.reached := rfl

theorem Walk.forall_consult {place : Place} {walk : Walk} {P : Place → Prop} :
    (∀ p ∈ (walk.consult place).consulted, P p) ↔ P place ∧ ∀ p ∈ walk.consulted, P p :=
  List.forall_mem_cons

/-- The components of a path; the one after a final separator is empty. -/
def components (path : Str) : List Str := (Path.elements path).filter (· ≠ Path.rootDir)

/-- Where the walk of a path begins. -/
def start (place : Place) (path : Str) : Place := if Path.isAbsolute path then [] else place

/-- The walk along the components, with the number of links it may still follow. -/
def walk (fs : FileSystem) : Nat → Place → List Str → Walk
  | _, place, [] => { reached := some place }
  | links, place, c :: cs =>
      if fs.searchable place then
        if c = [] ∨ c = Path.dot then walk fs links place cs
        else if c = Path.dotDot then (walk fs links place.dropLast cs).consult place.dropLast
        else
          match fs.node (place ++ [c]) with
          | none => Walk.consult (place ++ [c]) {}
          | some (.symlink target) =>
              match links with
              | 0 => Walk.consult (place ++ [c]) {}
              | links + 1 =>
                  if target = [] then Walk.consult (place ++ [c]) {}
                  else
                    ((walk fs links (start place target) (components target ++ cs)).consult
                      (start place target)).consult (place ++ [c])
          | some _ => (walk fs links (place ++ [c]) cs).consult (place ++ [c])
      else {}
  termination_by links _ todo => (links, todo.length)

/-- Anything but a link is walked on from. -/
theorem walk_onward {fs : FileSystem} {links : Nat} {place : Place} {c : Str} {cs : List Str}
    (node : Node) (hsearch : fs.searchable place = true) (hc : ¬(c = [] ∨ c = Path.dot))
    (hd : c ≠ Path.dotDot) (hnode : fs.node (place ++ [c]) = some node)
    (hkind : ∀ target, node ≠ .symlink target) :
    walk fs links place (c :: cs) = (walk fs links (place ++ [c]) cs).consult (place ++ [c]) := by
  rw [walk, if_pos hsearch, if_neg hc, if_neg hd, hnode]
  cases node with
  | symlink target => exact absurd rfl (hkind target)
  | directory _ => rfl
  | regular _ => rfl
  | other => rfl

/-- A name that nothing has ends the walk. -/
theorem walk_missing {fs : FileSystem} {links : Nat} {place : Place} {c : Str} {cs : List Str}
    (hsearch : fs.searchable place = true) (hc : ¬(c = [] ∨ c = Path.dot))
    (hd : c ≠ Path.dotDot) (hnode : fs.node (place ++ [c]) = none) :
    walk fs links place (c :: cs) = Walk.consult (place ++ [c]) {} := by
  rw [walk, if_pos hsearch, if_neg hc, if_neg hd, hnode]

/-! ## What a walk depends on -/

/-- Where a walk arrives is where it began, or a place it has consulted. -/
theorem reached_consulted (fs : FileSystem) (links : Nat) (place : Place) (todo : List Str) :
    ∀ p ∈ (walk fs links place todo).reached,
      p ∈ place :: (walk fs links place todo).consulted := by
  fun_induction walk fs links place todo <;> simp_all

theorem searchable_congr {fs fs' : FileSystem} {place : Place}
    (h : fs.node place = fs'.node place) : fs'.searchable place = fs.searchable place := by
  rw [FileSystem.searchable, FileSystem.searchable, h]

/-- Two file systems that show the same at every place a walk consults walk alike. -/
theorem walk_congr {fs fs' : FileSystem} (links : Nat) (place : Place) (todo : List Str) :
    fs.node place = fs'.node place →
      (∀ p ∈ (walk fs links place todo).consulted, fs.node p = fs'.node p) →
      walk fs' links place todo = walk fs links place todo := by
  fun_induction walk fs links place todo <;> intro hplace h <;>
    have hsearch := searchable_congr hplace
  case case1 => rw [walk]
  case case2 hs hc ih =>
      rw [walk, if_pos (hsearch.trans hs), if_pos hc]
      exact ih hplace h
  case case3 hs hc ih =>
      obtain ⟨hparent, h⟩ := Walk.forall_consult.mp h
      rw [walk, if_pos (hsearch.trans hs), if_neg hc, if_pos rfl, ih hparent h]
  case case4 hs hc hd hnode =>
      obtain ⟨hnext, -⟩ := Walk.forall_consult.mp h
      exact walk_missing (hsearch.trans hs) hc hd (hnext.symm.trans hnode)
  case case5 hs hc hd target hnode =>
      obtain ⟨hnext, -⟩ := Walk.forall_consult.mp h
      rw [walk, if_pos (hsearch.trans hs), if_neg hc, if_neg hd, ← hnext, hnode]
  case case6 hs hc hd links hnode =>
      obtain ⟨hnext, -⟩ := Walk.forall_consult.mp h
      rw [walk, if_pos (hsearch.trans hs), if_neg hc, if_neg hd, ← hnext, hnode]
      exact if_pos rfl
  case case7 hs hc hd target hnode links ht ih =>
      obtain ⟨hnext, h⟩ := Walk.forall_consult.mp h
      obtain ⟨hstart, h⟩ := Walk.forall_consult.mp h
      rw [walk, if_pos (hsearch.trans hs), if_neg hc, if_neg hd, ← hnext, hnode]
      refine (if_neg ht).trans ?_
      rw [ih hstart h]
  case case8 hs hc hd node hne hnode ih =>
      obtain ⟨hnext, h⟩ := Walk.forall_consult.mp h
      rw [walk_onward node (hsearch.trans hs) hc hd (hnext.symm.trans hnode) hne, ih hnext h]
  case case9 hs =>
      rw [walk, if_neg fun ht => hs (hsearch.symm.trans ht)]

/-- A link's target is walked from where the link stands, or from the root directory. -/
theorem start_present {fs : FileSystem} {place : Place} (h : (fs.node place).isSome)
    (path : Str) : (fs.node (start place path)).isSome := by
  rw [start]
  split
  · exact Option.isSome_of_any fs.atRoot
  · exact h

/-- A walk that arrives has found something at every place it has consulted. -/
theorem walk_present (fs : FileSystem) (links : Nat) (place : Place) (todo : List Str) :
    (walk fs links place todo).reached.isSome → (fs.node place).isSome →
      ∀ p ∈ (walk fs links place todo).consulted, (fs.node p).isSome := by
  fun_induction walk fs links place todo <;> intro hreached hplace
  case case2 ih => exact ih hreached hplace
  case case3 ih =>
      have hparent := fs.node_parent hplace
      exact Walk.forall_consult.mpr ⟨hparent, ih hreached hparent⟩
  case case7 target hnode _ _ ih =>
      have hstart := start_present hplace target
      refine Walk.forall_consult.mpr ⟨by rw [hnode]; rfl, ?_⟩
      exact Walk.forall_consult.mpr ⟨hstart, ih hreached hstart⟩
  case case8 hnode ih =>
      have hnext : (fs.node _).isSome := Option.isSome_of_mem hnode
      exact Walk.forall_consult.mpr ⟨hnext, ih hreached hnext⟩
  case case1 => simp
  all_goals cases hreached

/-- The parent of a place that is consulted is consulted too, or the walk began below it. -/
theorem consulted_parent (fs : FileSystem) (links : Nat) (place : Place) (todo : List Str) :
    ∀ p ∈ (walk fs links place todo).consulted,
      p.dropLast ∈ (walk fs links place todo).consulted ∨ p.dropLast <+: place := by
  have hnext : ∀ (place : Place) (c : Str), (place ++ [c]).dropLast <+: place := by
    intro place c
    rw [List.dropLast_concat]
  have hstart : ∀ (place : Place) (target : Str), start place target <+: place := by
    intro place target
    rw [start]
    split
    · exact List.nil_prefix
    · exact List.prefix_refl place
  fun_induction walk fs links place todo
  case case1 => simp
  case case2 ih => exact ih
  case case3 place cs _ _ ih =>
      have hparent : place.dropLast <+: place := List.dropLast_prefix place
      refine Walk.forall_consult.mpr ⟨.inr ((List.dropLast_prefix _).trans hparent), ?_⟩
      intro p hp
      cases ih p hp with
      | inl hin => exact .inl (List.mem_cons_of_mem _ hin)
      | inr hbelow => exact .inr (hbelow.trans hparent)
  case case7 place c cs _ _ _ target _ links _ ih =>
      refine Walk.forall_consult.mpr ⟨.inr (hnext place c), ?_⟩
      refine Walk.forall_consult.mpr
        ⟨.inr ((List.dropLast_prefix _).trans (hstart place target)), ?_⟩
      intro p hp
      cases ih p hp with
      | inl hin => exact .inl (List.mem_cons_of_mem _ (List.mem_cons_of_mem _ hin))
      | inr hbelow => exact .inr (hbelow.trans (hstart place target))
  case case8 place c cs _ _ _ _ _ _ ih =>
      refine Walk.forall_consult.mpr ⟨.inr (hnext place c), ?_⟩
      intro p hp
      cases ih p hp with
      | inl hin => exact .inl (List.mem_cons_of_mem _ hin)
      | inr hbelow =>
          cases List.prefix_concat_iff.mp hbelow with
          | inl heq => exact .inl (by rw [heq]; exact List.mem_cons_self)
          | inr hplace => exact .inr hplace
  case case9 => simp
  all_goals exact Walk.forall_consult.mpr ⟨.inr (hnext _ _), by simp⟩

/-- The last component asks for a directory. -/
def AsksDirectory (todo : List Str) : Prop :=
  ∃ c ∈ todo.getLast?, c = [] ∨ c = Path.dot ∨ c = Path.dotDot

theorem AsksDirectory.tail {c : Str} {cs : List Str} (h : AsksDirectory (c :: cs))
    (hc : ¬(c = [] ∨ c = Path.dot)) (hd : c ≠ Path.dotDot) : AsksDirectory cs := by
  obtain ⟨last, hlast, hasks⟩ := h
  cases cs with
  | nil =>
      cases hlast
      rcases hasks with hnil | hdot | hdots
      · exact absurd (.inl hnil) hc
      · exact absurd (.inr hdot) hc
      · exact absurd hdots hd
  | cons c' cs => exact ⟨last, hlast, hasks⟩

theorem AsksDirectory.after {todo : List Str} (h : AsksDirectory todo) (first : List Str) :
    AsksDirectory (first ++ todo) := by
  obtain ⟨last, hlast, hasks⟩ := h
  exact ⟨last, List.mem_getLast?_append_of_mem_getLast? hlast, hasks⟩

/-- A walk whose last component asks for a directory arrives at one, or nowhere. -/
theorem walk_directory (fs : FileSystem) (links : Nat) (place : Place) (todo : List Str) :
    AsksDirectory todo → ∀ p ∈ (walk fs links place todo).reached,
      (fs.node p).any Node.isDirectory = true := by
  fun_induction walk fs links place todo <;> intro hlast p hp
  case case1 =>
      obtain ⟨last, hmem, -⟩ := hlast
      cases hmem
  case case2 links place c cs hs hc ih =>
      cases cs with
      | nil =>
          rw [walk] at hp
          cases hp
          exact FileSystem.isDirectory_of_searchable hs
      | cons c' cs => exact ih hlast p hp
  case case3 links place cs hs hc ih =>
      cases cs with
      | nil =>
          rw [walk] at hp
          cases hp
          exact fs.isDirectory_parent (FileSystem.isDirectory_of_searchable hs)
      | cons c' cs => exact ih hlast p hp
  case case7 hc hd target _ _ _ ih => exact ih ((hlast.tail hc hd).after (components target)) p hp
  case case8 hc hd _ _ _ ih => exact ih (hlast.tail hc hd) p hp
  all_goals cases hp

/-! ## Paths -/

/-- The system a program runs on: how many links the resolution of a path follows at most, and
the names that lead to the working directory.  There is no limit on the length of a name or of
a path here. -/
structure System where
  symloopMax : Nat
  workingDirectory : Place := []
  deriving DecidableEq, Repr

/-- What a system call takes of a path: it ends at the first null character. -/
def cString (path : Str) : Str := path.takeWhile (· ≠ 0)

/-- The walk of a path from the root directory; the empty path leads nowhere. -/
def resolve (system : System) (fs : FileSystem) (path : Str) : Walk :=
  let name := cString path
  let origin := if Path.isAbsolute name then [] else system.workingDirectory
  if name = [] then {}
  else (walk fs system.symloopMax [] (origin ++ components name)).consult []

/-- What a path names. -/
def status (system : System) (fs : FileSystem) (path : Str) : Option Node :=
  (resolve system fs path).reached.bind fs.node

variable {system : System} {fs fs' : FileSystem} {path : Str}

theorem resolve_congr (h : ∀ p ∈ (resolve system fs path).consulted, fs.node p = fs'.node p) :
    resolve system fs' path = resolve system fs path := by
  simp only [resolve] at h ⊢
  split
  · rfl
  · next hname =>
      rw [if_neg hname] at h
      obtain ⟨hroot, h⟩ := Walk.forall_consult.mp h
      rw [walk_congr _ _ _ hroot h]

theorem resolve_reached {p : Place} (h : (resolve system fs path).reached = some p) :
    p ∈ (resolve system fs path).consulted := by
  simp only [resolve] at h ⊢
  split at h
  · cases h
  · next hname =>
      rw [if_neg hname]
      exact reached_consulted _ _ _ _ p h

theorem resolve_present (h : (resolve system fs path).reached.isSome) :
    ∀ p ∈ (resolve system fs path).consulted, (fs.node p).isSome := by
  have hroot : (fs.node []).isSome := Option.isSome_of_any fs.atRoot
  simp only [resolve] at h ⊢
  split
  · next hname => simp
  · next hname =>
      rw [if_neg hname] at h
      exact Walk.forall_consult.mpr ⟨hroot, walk_present _ _ _ _ h hroot⟩

theorem resolve_parent {p : Place} (h : p ∈ (resolve system fs path).consulted) :
    p.dropLast ∈ (resolve system fs path).consulted := by
  simp only [resolve] at h ⊢
  split at h
  · cases h
  · next hname =>
      rw [if_neg hname]
      cases List.mem_cons.mp h with
      | inl hp => exact List.mem_cons.mpr (.inl (by rw [hp]; rfl))
      | inr hp =>
          cases consulted_parent _ _ _ _ p hp with
          | inl hin => exact List.mem_cons_of_mem _ hin
          | inr hnil => exact List.mem_cons.mpr (.inl (List.prefix_nil.mp hnil))

/-- A path that ends in a separator, `.` or `..` names a directory, or nothing. -/
theorem status_directory {node : Node} (hlast : AsksDirectory (components (cString path)))
    (h : status system fs path = some node) : node.isDirectory = true := by
  obtain ⟨place, hreached, hnode⟩ := Option.bind_eq_some_iff.mp h
  have hplace : (fs.node place).any Node.isDirectory = true := by
    simp only [resolve] at hreached
    split at hreached
    · cases hreached
    · exact walk_directory _ _ _ _ (hlast.after _) place hreached
  rw [hnode] at hplace
  exact hplace

/-! ## The part of a file system that belongs to a path -/

/-- Whatever leads to what the path names, and everything in it. -/
def Region.ofPath (system : System) (fs : FileSystem) (path : Str) : Region where
  contains place :=
    place = [] ∨ place ∈ (resolve system fs path).consulted ∨
      ∃ p ∈ (resolve system fs path).reached, p <+: place
  atRoot := by simp
  closed := by
    intro place name h
    have hparent : (place ++ [name]) ∈ (resolve system fs path).consulted →
        place ∈ (resolve system fs path).consulted := by
      intro hin
      have := resolve_parent hin
      rwa [List.dropLast_concat] at this
    rw [decide_eq_true_eq] at h ⊢
    rcases h with hnil | hin | ⟨p, hp, hbelow⟩
    · exact absurd hnil (List.append_ne_nil_of_right_ne_nil place (List.cons_ne_nil name []))
    · exact .inr (.inl (hparent hin))
    · cases List.prefix_concat_iff.mp hbelow with
      | inl heq => exact .inr (.inl (hparent (by rw [← heq]; exact resolve_reached hp)))
      | inr hplace => exact .inr (.inr ⟨p, hp, hplace⟩)

/-- The walk of the path stays in the region. -/
def ResolvesIn (region : Region) (system : System) (fs : FileSystem) (path : Str) : Prop :=
  ∀ p ∈ (resolve system fs path).consulted, region.contains p = true

theorem resolvesIn_ofPath : ResolvesIn (Region.ofPath system fs path) system fs path :=
  fun _ hp => decide_eq_true (.inr (.inl hp))

section Regions

variable {region : Region}

/-- A walk that stays in a region is the same wherever the region is. -/
theorem resolve_agreeOn (hagree : fs.AgreeOn region fs')
    (h : ResolvesIn region system fs path) :
    resolve system fs' path = resolve system fs path :=
  resolve_congr fun p hp => hagree p (h p hp)

/-- So is what the path names. -/
theorem status_agreeOn (hagree : fs.AgreeOn region fs')
    (h : ResolvesIn region system fs path) : status system fs' path = status system fs path := by
  rw [status, status, resolve_agreeOn hagree h]
  cases hreached : (resolve system fs path).reached with
  | none => rfl
  | some p => exact (hagree p (h p (resolve_reached hreached))).symm

/-- A path that names something where nothing but the region is left is resolved in it. -/
theorem resolvesIn_of_restrict
    (h : (resolve system (fs.restrict region) path).reached.isSome) :
    ResolvesIn region system fs path := by
  have hkept : ∀ p ∈ (resolve system (fs.restrict region) path).consulted,
      region.contains p = true := by
    intro p hp
    by_contra hout
    have hsome := resolve_present h p hp
    rw [FileSystem.node_restrict_of_not hout] at hsome
    cases hsome
  have hsame : resolve system fs path = resolve system (fs.restrict region) path :=
    resolve_congr fun p hp => FileSystem.node_restrict (hkept p hp)
  intro p hp
  rw [hsame] at hp
  exact hkept p hp

end Regions

end Lib.Posix
