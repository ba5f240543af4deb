/-
# `ServerStorage.Lib.Path` — lexical operations of `std::filesystem::path`

POSIX spelling only: no root name, one separator.  A path is its list of
elements, in the order in which iteration yields them: the root directory when
there is one, the file names, and an empty element for a trailing separator.
Every operation below works on that list and `genericString` writes it back
with single separators, which is what `generic_string` does.
-/
import ServerStorage.Lib.Bytes

namespace Lib.Path

open Lib

/-- The separator `/`. -/
def sep : UInt8 := 47

def rootDir : Str := [sep]
def dot : Str := str "."
def dotDot : Str := str ".."

def isAbsolute (p : Str) : Bool := p.head? == some sep

/-- The file names of a path, separators collapsed. -/
def names (p : Str) : List Str := (p.splitOn sep).filter fun n => !n.isEmpty

/-- What iterating over the path yields. -/
def elements (p : Str) : List Str :=
  (if isAbsolute p then [rootDir] else []) ++ names p ++
    (if !(names p).isEmpty && p.getLast? == some sep then [[]] else [])

/-- The elements joined by single separators; none follows the root directory. -/
def genericString : List Str → Str
  | [] => []
  | [e] => e
  | e :: es => if e = rootDir then e ++ genericString es else e ++ sep :: genericString es

/-- `path::filename`. -/
def filename (p : Str) : Str :=
  match (elements p).getLast? with
  | some e => if e = rootDir then [] else e
  | none => []

/-- `path::parent_path`: a path without relative part is its own parent. -/
def parentPath (p : Str) : Str :=
  let es := elements p
  if es = [rootDir] then genericString es else genericString es.dropLast

/-- `path::has_parent_path`. -/
def hasParentPath (p : Str) : Bool := !(parentPath p).isEmpty

/-- `operator/`: an absolute right operand replaces the left one. -/
def join (p q : Str) : Str :=
  if isAbsolute q then q
  else if p.isEmpty then q
  else if p.getLast? == some sep then p ++ q else p ++ sep :: q

/-! ## Lexical normalisation -/

/-- The normal form under construction: its names, last one first, and whether
it ends with a separator. -/
structure Normal where
  names : List Str := []
  slash : Bool := false

/-- One element is appended to the normal form. -/
def Normal.push (absolute : Bool) (st : Normal) (e : Str) : Normal :=
  if e = dotDot then
    match st.names with
    | [] => if absolute then st else { names := [dotDot] }
    | n :: rest =>
        if n = dotDot then { names := dotDot :: st.names }
        else { names := rest, slash := !rest.isEmpty }
  else if e = dot ∨ e = [] then { st with slash := !st.names.isEmpty }
  else { names := e :: st.names }

/-- The elements of the normal form; a separator after a final `..` is dropped. -/
def Normal.elements (absolute : Bool) (st : Normal) : List Str :=
  (if absolute then [rootDir] else []) ++ st.names.reverse ++
    (if st.slash && st.names.head? != some dotDot then [[]] else [])

/-- `path::lexically_normal().generic_string()`. -/
def lexicallyNormal (p : Str) : Str :=
  if p.isEmpty then []
  else
    let absolute := isAbsolute p
    let rest := (elements p).filter fun e => e ≠ rootDir
    let es := (rest.foldl (Normal.push absolute) {}).elements absolute
    if es.isEmpty then dot else genericString es

example : lexicallyNormal (str "/a/./b/../c//d/") = str "/a/c/d/" := by decide
example : lexicallyNormal (str "a/../../b/..") = str ".." := by decide
example : parentPath (str "/a") = str "/" ∧ filename (str "/a/b") = str "b" := by decide

end Lib.Path
