/-
# `ServerStorage.Lib.FileWrites` — programs that add to a file system

A file system grows when nothing that stands in it is taken away and no link is put into it:
directories and files may appear, and files may get other contents.  A walk that arrives
goes the same way in every file system that has grown out of the first one, so a path that
was looked at once can be followed later, whatever else has been added meanwhile; and behind
the last name that is there, a path leads straight down.
-/
import ServerStorage.Lib.FileSystem

namespace Lib.Posix

open Lib

/-! ## Growing -/

def Node.isLink : Node → Bool
  | .symlink _ => true
  | _ => false

theorem Node.isLink_eq_false {node : Node} (h : ∀ target, node ≠ .symlink target) :
    node.isLink = false := by
  cases node with
  | symlink target => exact absurd rfl (h target)
  | directory _ => rfl
  | regular _ => rfl
  | other => rfl

def Node.isRegular : Node → Bool
  | .regular _ => true
  | _ => false

structure Grows (fs fs' : FileSystem) : Prop where
  /-- What is no file stays as it is. -/
  kept : ∀ place node, fs.node place = some node → node.isRegular = false →
    fs'.node place = some node
  file : ∀ place, (fs.node place).any Node.isRegular = true →
    (fs'.node place).any Node.isRegular = true
  link : ∀ place, (fs'.node place).any Node.isLink = true → fs'.node place = fs.node place

section
variable {fs fs' fs'' : FileSystem} {place : Place}

theorem Grows.refl (fs : FileSystem) : Grows fs fs where
  kept _ _ h _ := h
  file _ h := h
  link _ _ := rfl

theorem Grows.trans (h : Grows fs fs') (h' : Grows fs' fs'') : Grows fs fs'' where
  kept place node hnode hkind := h'.kept place node (h.kept place node hnode hkind) hkind
  file place hfile := h'.file place (h.file place hfile)
  link place hlink := by
    have hlast := h'.link place hlink
    rw [hlast] at hlink ⊢
    exact h.link place hlink

theorem Grows.searchable (h : Grows fs fs') (hplace : fs.searchable place = true) :
    fs'.searchable place = true := by
  rw [FileSystem.searchable, beq_iff_eq] at hplace ⊢
  exact h.kept place _ hplace rfl

/-- What stands somewhere, and is no link, is followed by something that is no link. -/
theorem Grows.solid (h : Grows fs fs') {node : Node} (hnode : fs.node place = some node)
    (hlink : node.isLink = false) : ∃ node', fs'.node place = some node' ∧ node'.isLink = false := by
  cases hregular : node.isRegular with
  | false => exact ⟨node, h.kept place node hnode hregular, hlink⟩
  | true =>
      have hfile : (fs'.node place).any Node.isRegular = true := by
        refine h.file place ?_
        rw [hnode]
        exact hregular
      obtain ⟨node', hnode', hregular'⟩ := (Option.any_eq_true _ _).mp hfile
      refine ⟨node', hnode', ?_⟩
      cases node' with
      | regular _ => rfl
      | directory _ => cases hregular'
      | symlink _ => cases hregular'
      | other => cases hregular'

end

/-! ## Putting something at a place -/

namespace FileSystem

/-- A node is put at a place in a directory, unless a directory stands there. -/
def put (fs : FileSystem) (place : Place) (node : Node) : FileSystem :=
  if h : place ≠ [] ∧ (fs.node place.dropLast).any Node.isDirectory = true ∧
      (fs.node place).any Node.isDirectory = false then
    { node := fun p => if p = place then some node else fs.node p
      atRoot := by
        rw [if_neg h.1.symm]
        exact fs.atRoot
      inDirectory := by
        intro p name hsome
        have hother : p ≠ place → (if p = place then some node else fs.node p) = fs.node p :=
          fun hne => if_neg hne
        by_cases hat : p ++ [name] = place
        · have hparent : p = place.dropLast := by rw [← hat, List.dropLast_concat]
          have hne : p ≠ place := by
            intro heq
            rw [heq] at hat
            exact absurd hat (by simp)
          rw [hother hne, hparent]
          exact h.2.1
        · rw [if_neg hat] at hsome
          have hdirectory := fs.inDirectory p name hsome
          have hne : p ≠ place := by
            rintro rfl
            rw [h.2.2] at hdirectory
            cases hdirectory
          rw [hother hne]
          exact hdirectory }
  else fs

variable {fs : FileSystem} {place p : Place} {node : Node}

theorem node_put_ne (hne : p ≠ place) : (fs.put place node).node p = fs.node p := by
  rw [put]
  split
  · exact if_neg hne
  · rfl

theorem node_put_cases : (fs.put place node).node place = some node ∨
    (fs.put place node).node place = fs.node place := by
  rw [put]
  split
  · exact .inl (if_pos rfl)
  · exact .inr rfl

/-- What is new, or a file that was one before. -/
theorem grows_put (hlink : node.isLink = false)
    (hplace : fs.node place = none ∨
      (fs.node place).any Node.isRegular = true ∧ node.isRegular = true) :
    Grows fs (fs.put place node) where
  kept p found hfound hkind := by
    by_cases heq : p = place
    · subst heq
      rcases hplace with hnone | ⟨hregular, -⟩
      · rw [hnone] at hfound
        cases hfound
      · rw [hfound, Option.any_some, hkind] at hregular
        cases hregular
    · rw [node_put_ne heq]
      exact hfound
  file p hfile := by
    by_cases heq : p = place
    · subst heq
      rcases @node_put_cases fs p node with hput | hput
      · rcases hplace with hnone | ⟨-, hregular⟩
        · rw [hnone] at hfile
          cases hfile
        · rw [hput]
          exact hregular
      · rw [hput]
        exact hfile
    · rw [node_put_ne heq]
      exact hfile
  link p hfound := by
    by_cases heq : p = place
    · subst heq
      rcases @node_put_cases fs p node with hput | hput
      · rw [hput, Option.any_some, hlink] at hfound
        cases hfound
      · exact hput
    · exact node_put_ne heq

/-- Nothing stands below a place where nothing stands. -/
theorem node_below_none {below : Place} (hnone : fs.node place = none) (h : place <+: below) :
    fs.node below = none := by
  obtain ⟨rest, rfl⟩ := h
  induction rest using List.reverseRecOn with
  | nil =>
      rw [List.append_nil]
      exact hnone
  | append_singleton rest name ih =>
      cases hnode : fs.node (place ++ (rest ++ [name])) with
      | none => rfl
      | some found =>
          rw [← List.append_assoc] at hnode
          have hparent := fs.inDirectory (place ++ rest) name (by rw [hnode]; rfl)
          rw [ih] at hparent
          cases hparent

/-- Nothing stands below anything but a directory. -/
theorem node_below_solid {name : Str} (h : (fs.node place).any Node.isDirectory = false) :
    fs.node (place ++ [name]) = none := by
  cases hnode : fs.node (place ++ [name]) with
  | none => rfl
  | some found =>
      have hparent := fs.inDirectory place name (by rw [hnode]; rfl)
      rw [h] at hparent
      cases hparent

end FileSystem

theorem FileSystem.isLink_of_isDirectory {fs : FileSystem} {place : Place}
    (h : (fs.node place).any Node.isDirectory = true) : (fs.node place).any Node.isLink = false := by
  cases hnode : fs.node place with
  | none => rfl
  | some node =>
      rw [hnode] at h
      cases node with
      | directory _ => rfl
      | symlink _ => cases h
      | regular _ => cases h
      | other => cases h

/-! ## Where a file would be made -/

/-- The place that `open` with `O_CREAT` means: where the walk arrives, or where it would, if
only the last name is missing. -/
def creation (fs : FileSystem) : Nat → Place → List Str → Option Place
  | _, place, [] => some place
  | links, place, c :: cs =>
      if fs.searchable place then
        if c = [] ∨ c = Path.dot then creation fs links place cs
        else if c = Path.dotDot then creation fs links place.dropLast cs
        else
          match fs.node (place ++ [c]) with
          | none => if cs = [] then some (place ++ [c]) else none
          | some (.symlink target) =>
              match links with
              | 0 => none
              | links + 1 =>
                  if target = [] then none
                  else creation fs links (start place target) (components target ++ cs)
          | some _ => creation fs links (place ++ [c]) cs
      else none
  termination_by links _ todo => (links, todo.length)

/-- The walk ends at a name that nothing has, or at something that is no directory; else it
ends at a directory that may not be searched, or there are too many links. -/
def notFound (fs : FileSystem) : Nat → Place → List Str → Bool
  | _, _, [] => false
  | links, place, c :: cs =>
      if fs.searchable place then
        if c = [] ∨ c = Path.dot then notFound fs links place cs
        else if c = Path.dotDot then notFound fs links place.dropLast cs
        else
          match fs.node (place ++ [c]) with
          | none => true
          | some (.symlink target) =>
              match links with
              | 0 => false
              | links + 1 =>
                  if target = [] then true
                  else notFound fs links (start place target) (components target ++ cs)
          | some _ => notFound fs links (place ++ [c]) cs
      else !(fs.node place).any Node.isDirectory
  termination_by links _ todo => (links, todo.length)

/-! ## Walks that go on -/

/-- From the one place with the one list of names, everything comes out as from the other. -/
structure SameWay (fs : FileSystem) (links : Nat) (place : Place) (todo : List Str)
    (links' : Nat) (place' : Place) (todo' : List Str) : Prop where
  reached : (walk fs links place todo).reached = (walk fs links' place' todo').reached
  creation : creation fs links place todo = creation fs links' place' todo'
  notFound : notFound fs links place todo = notFound fs links' place' todo'

section
variable {fs : FileSystem} {links links' links'' : Nat} {place place' place'' : Place} {c : Str}
  {cs todo todo' todo'' : List Str}

theorem SameWay.refl : SameWay fs links place todo links place todo := ⟨rfl, rfl, rfl⟩

theorem SameWay.trans (h : SameWay fs links place todo links' place' todo')
    (h' : SameWay fs links' place' todo' links'' place'' todo'') :
    SameWay fs links place todo links'' place'' todo'' :=
  ⟨h.reached.trans h'.reached, h.creation.trans h'.creation, h.notFound.trans h'.notFound⟩

theorem sameWay_dot (hsearch : fs.searchable place = true) (hc : c = [] ∨ c = Path.dot) :
    SameWay fs links place (c :: cs) links place cs where
  reached := by rw [walk, if_pos hsearch, if_pos hc]
  creation := by rw [creation, if_pos hsearch, if_pos hc]
  notFound := by rw [notFound, if_pos hsearch, if_pos hc]

theorem sameWay_up (hsearch : fs.searchable place = true) (hc : ¬(c = [] ∨ c = Path.dot))
    (hd : c = Path.dotDot) : SameWay fs links place (c :: cs) links place.dropLast cs where
  reached := by rw [walk, if_pos hsearch, if_neg hc, if_pos hd, Walk.reached_consult]
  creation := by rw [creation, if_pos hsearch, if_neg hc, if_pos hd]
  notFound := by rw [notFound, if_pos hsearch, if_neg hc, if_pos hd]

theorem sameWay_link {target : Str} (hsearch : fs.searchable place = true)
    (hc : ¬(c = [] ∨ c = Path.dot)) (hd : c ≠ Path.dotDot)
    (hnode : fs.node (place ++ [c]) = some (.symlink target)) (ht : target ≠ []) :
    SameWay fs (links + 1) place (c :: cs) links (start place target) (components target ++ cs) where
  reached := by
    rw [walk, if_pos hsearch, if_neg hc, if_neg hd, hnode]
    dsimp only
    rw [if_neg ht, Walk.reached_consult, Walk.reached_consult]
  creation := by
    rw [creation, if_pos hsearch, if_neg hc, if_neg hd, hnode]
    dsimp only
    rw [if_neg ht]
  notFound := by
    rw [notFound, if_pos hsearch, if_neg hc, if_neg hd, hnode]
    dsimp only
    rw [if_neg ht]

theorem sameWay_on {node : Node} (hsearch : fs.searchable place = true)
    (hc : ¬(c = [] ∨ c = Path.dot)) (hd : c ≠ Path.dotDot)
    (hnode : fs.node (place ++ [c]) = some node) (hlink : node.isLink = false) :
    SameWay fs links place (c :: cs) links (place ++ [c]) cs := by
  cases node with
  | symlink target => cases hlink
  | directory searchable =>
      refine ⟨?_, ?_, ?_⟩
      · rw [walk, if_pos hsearch, if_neg hc, if_neg hd, hnode, Walk.reached_consult]
      · rw [creation, if_pos hsearch, if_neg hc, if_neg hd, hnode]
      · rw [notFound, if_pos hsearch, if_neg hc, if_neg hd, hnode]
  | regular contents =>
      refine ⟨?_, ?_, ?_⟩
      · rw [walk, if_pos hsearch, if_neg hc, if_neg hd, hnode, Walk.reached_consult]
      · rw [creation, if_pos hsearch, if_neg hc, if_neg hd, hnode]
      · rw [notFound, if_pos hsearch, if_neg hc, if_neg hd, hnode]
  | other =>
      refine ⟨?_, ?_, ?_⟩
      · rw [walk, if_pos hsearch, if_neg hc, if_neg hd, hnode, Walk.reached_consult]
      · rw [creation, if_pos hsearch, if_neg hc, if_neg hd, hnode]
      · rw [notFound, if_pos hsearch, if_neg hc, if_neg hd, hnode]

end

/-- **A walk that arrives can be gone on with**, in every file system that has grown out of the
one it was made in. -/
theorem walk_after (fs : FileSystem) (links : Nat) (place : Place) (first : List Str) :
    ∀ P, (walk fs links place first).reached = some P →
      ∃ links', ∀ fs', Grows fs fs' → ∀ rest,
        SameWay fs' links place (first ++ rest) links' P rest := by
  fun_induction walk fs links place first <;> intro P hP
  case case1 links place =>
      obtain rfl := Option.some.inj hP
      exact ⟨links, fun _ _ _ => .refl⟩
  case case2 hs hc ih =>
      obtain ⟨links', hway⟩ := ih P hP
      refine ⟨links', ?_⟩
      intro fs' hgrows rest
      exact (sameWay_dot (hgrows.searchable hs) hc).trans (hway fs' hgrows rest)
  case case3 hs hc ih =>
      obtain ⟨links', hway⟩ := ih P hP
      refine ⟨links', ?_⟩
      intro fs' hgrows rest
      exact (sameWay_up (hgrows.searchable hs) hc rfl).trans (hway fs' hgrows rest)
  case case7 place c cs hs hc hd target hnode links ht ih =>
      obtain ⟨links', hway⟩ := ih P hP
      refine ⟨links', ?_⟩
      intro fs' hgrows rest
      have hnode' := hgrows.kept _ _ hnode rfl
      have hnext := hway fs' hgrows rest
      rw [List.append_assoc] at hnext
      exact (sameWay_link (hgrows.searchable hs) hc hd hnode' ht).trans hnext
  case case8 place c cs hs hc hd node hkind hnode ih =>
      obtain ⟨links', hway⟩ := ih P hP
      refine ⟨links', ?_⟩
      intro fs' hgrows rest
      have hlink := Node.isLink_eq_false hkind
      obtain ⟨node', hnode', hlink'⟩ := hgrows.solid hnode hlink
      exact (sameWay_on (hgrows.searchable hs) hc hd hnode' hlink').trans (hway fs' hgrows rest)
  all_goals cases hP

/-- A walk that arrives arrives there in every file system that has grown. -/
theorem Grows.reached {fs fs' : FileSystem} (h : Grows fs fs') {links : Nat} {place P : Place}
    {todo : List Str} (hP : (walk fs links place todo).reached = some P) :
    (walk fs' links place todo).reached = some P ∧ creation fs' links place todo = some P := by
  obtain ⟨links', hway⟩ := walk_after fs links place todo P hP
  have hsame := hway fs' h []
  rw [List.append_nil] at hsame
  refine ⟨?_, ?_⟩
  · rw [hsame.reached, walk]
  · rw [hsame.creation, creation]

/-- On the way to where a walk arrives, every part of the path arrives. -/
theorem reached_of_append (fs : FileSystem) (links : Nat) (place : Place) (first : List Str) :
    ∀ rest, (walk fs links place (first ++ rest)).reached.isSome →
      (walk fs links place first).reached.isSome := by
  fun_induction walk fs links place first <;> intro rest h
  case case1 => rfl
  case case2 hs hc ih =>
      refine ih rest ?_
      rwa [List.cons_append, (sameWay_dot hs hc).reached] at h
  case case3 hs hc ih =>
      refine ih rest ?_
      rwa [List.cons_append, (sameWay_up hs hc rfl).reached] at h
  case case7 hs hc hd target hnode links ht ih =>
      refine ih rest ?_
      rwa [List.cons_append, (sameWay_link hs hc hd hnode ht).reached, ← List.append_assoc] at h
  case case8 hs hc hd node hkind hnode ih =>
      have hlink := Node.isLink_eq_false hkind
      refine ih rest ?_
      rwa [List.cons_append, (sameWay_on hs hc hd hnode hlink).reached] at h
  case case4 hs hc hd hnode =>
      rw [List.cons_append, walk_missing hs hc hd hnode] at h
      cases h
  case case5 hs hc hd target hnode =>
      rw [List.cons_append, walk, if_pos hs, if_neg hc, if_neg hd, hnode] at h
      cases h
  case case6 hs hc hd links hnode =>
      rw [List.cons_append, walk, if_pos hs, if_neg hc, if_neg hd, hnode] at h
      dsimp only at h
      rw [if_pos rfl] at h
      cases h
  case case9 hs =>
      rw [List.cons_append, walk, if_neg hs] at h
      cases h

/-! ## Where a walk may arrive -/

/-- A walk does not arrive at a link. -/
theorem reached_solid (fs : FileSystem) (links : Nat) (place : Place) (todo : List Str) :
    (fs.node place).any Node.isLink = false →
      ∀ p ∈ (walk fs links place todo).reached, (fs.node p).any Node.isLink = false := by
  fun_induction walk fs links place todo <;> intro hplace p hp
  case case1 =>
      obtain rfl := Option.some.inj hp
      exact hplace
  case case2 ih => exact ih hplace p hp
  case case3 hs hc ih =>
      refine ih ?_ p hp
      exact fs.isLink_of_isDirectory (fs.isDirectory_parent (fs.isDirectory_of_searchable hs))
  case case7 place c cs hs hc hd target hnode links ht ih =>
      refine ih ?_ p hp
      rw [start]
      split
      · exact fs.isLink_of_isDirectory fs.atRoot
      · exact hplace
  case case8 hs hc hd node hkind hnode ih =>
      refine ih ?_ p hp
      rw [hnode]
      exact Node.isLink_eq_false hkind
  all_goals cases hp

/-- A name that stands for itself in a path. -/
def IsProper (c : Str) : Prop := c ≠ [] ∧ c ≠ Path.dot ∧ c ≠ Path.dotDot

/-- A walk arrives at a place that is spelled as it is. -/
theorem reached_proper (fs : FileSystem) (links : Nat) (place : Place) (todo : List Str) :
    (∀ c ∈ place, IsProper c) → ∀ p ∈ (walk fs links place todo).reached, ∀ c ∈ p, IsProper c := by
  fun_induction walk fs links place todo <;> intro hplace p hp
  case case1 =>
      obtain rfl := Option.some.inj hp
      exact hplace
  case case2 ih => exact ih hplace p hp
  case case3 ih => exact ih (fun c hc => hplace c (List.mem_of_mem_dropLast hc)) p hp
  case case7 place c cs hs hc hd target hnode links ht ih =>
      refine ih ?_ p hp
      rw [start]
      split
      · exact fun c hc => absurd hc List.not_mem_nil
      · exact hplace
  case case8 place c cs hs hc hd node hkind hnode ih =>
      refine ih ?_ p hp
      intro c' hc'
      rcases List.mem_append.mp hc' with hc' | hc'
      · exact hplace c' hc'
      · obtain rfl := List.mem_singleton.mp hc'
        obtain ⟨hnil, hdot⟩ := not_or.mp hc
        exact ⟨hnil, hdot, hd⟩
  all_goals cases hp

/-! ## Straight down -/

/-- The names of a path without those that stay where they are. -/
def properNames (todo : List Str) : List Str := todo.filter fun c => !(c = [] || c = Path.dot)

theorem properNames_dot {c : Str} {cs : List Str} (hc : c = [] ∨ c = Path.dot) :
    properNames (c :: cs) = properNames cs := by
  rw [properNames, List.filter_cons_of_neg, ← properNames]
  rcases hc with rfl | rfl <;> decide

theorem properNames_name {c : Str} {cs : List Str} (hc : ¬(c = [] ∨ c = Path.dot)) :
    properNames (c :: cs) = c :: properNames cs := by
  rw [properNames, List.filter_cons_of_pos, ← properNames]
  simpa using hc

theorem properNames_proper {todo : List Str} (h : ∀ c ∈ todo, IsProper c) :
    properNames todo = todo := by
  refine List.filter_eq_self.mpr ?_
  intro c hc
  obtain ⟨hnil, hdot, -⟩ := h c hc
  simp [hnil, hdot]

/-- Nothing on the way along the names is a link. -/
def NoLinks (fs : FileSystem) (place : Place) (names : List Str) : Prop :=
  ∀ m, m ≠ [] → m <+: names → (fs.node (place ++ m)).any Node.isLink = false

theorem NoLinks.tail {fs : FileSystem} {place : Place} {c : Str} {names : List Str}
    (h : NoLinks fs place (c :: names)) : NoLinks fs (place ++ [c]) names := by
  intro m _ hm
  rw [List.append_assoc]
  exact h (c :: m) (List.cons_ne_nil _ _) (List.cons_prefix_cons.mpr ⟨rfl, hm⟩)

/-- **Without links and without `..`** a path leads where its names say. -/
theorem straight (fs : FileSystem) (links : Nat) (todo : List Str) :
    ∀ place, Path.dotDot ∉ todo → NoLinks fs place (properNames todo) →
      (∀ p ∈ (walk fs links place todo).reached, p = place ++ properNames todo) ∧
        ∀ p ∈ creation fs links place todo, p = place ++ properNames todo := by
  induction todo with
  | nil =>
      intro place _ _
      rw [walk, creation]
      refine ⟨?_, ?_⟩ <;> intro p hp <;> obtain rfl := Option.some.inj hp <;>
        exact (List.append_nil _).symm
  | cons c cs ih =>
      intro place hdots hlinks
      obtain ⟨hd, hdots⟩ := not_or.mp (mt List.mem_cons.mpr hdots)
      cases hsearch : fs.searchable place with
      | false =>
          rw [walk, creation, hsearch]
          refine ⟨?_, ?_⟩ <;> intro p hp <;> cases hp
      | true =>
          by_cases hc : c = [] ∨ c = Path.dot
          · have hway : SameWay fs links place (c :: cs) links place cs := sameWay_dot hsearch hc
            rw [properNames_dot hc] at hlinks ⊢
            rw [hway.reached, hway.creation]
            exact ih place hdots hlinks
          · rw [properNames_name hc] at hlinks ⊢
            have hnext := hlinks [c] (List.cons_ne_nil _ _)
              (List.cons_prefix_cons.mpr ⟨rfl, List.nil_prefix⟩)
            cases hnode : fs.node (place ++ [c]) with
            | none =>
                rw [walk_missing hsearch hc (Ne.symm hd) hnode, creation, if_pos hsearch,
                  if_neg hc, if_neg (Ne.symm hd), hnode]
                refine ⟨?_, ?_⟩
                · intro p hp
                  cases hp
                · intro p hp
                  by_cases hnil : cs = []
                  · rw [hnil]
                    rw [if_pos hnil] at hp
                    exact (Option.some.inj hp).symm
                  · rw [if_neg hnil] at hp
                    cases hp
            | some node =>
                rw [hnode, Option.any_some] at hnext
                have hway : SameWay fs links place (c :: cs) links (place ++ [c]) cs :=
                  sameWay_on hsearch hc (Ne.symm hd) hnode hnext
                have hdown := ih (place ++ [c]) hdots hlinks.tail
                rw [List.append_assoc] at hdown
                rw [hway.reached, hway.creation]
                exact hdown

/-! ## Links that lead nowhere -/

/-- What a walk finds, it goes on finding. -/
theorem Grows.found {fs fs' : FileSystem} (h : Grows fs fs') (links : Nat) (place : Place)
    (todo : List Str) :
    notFound fs links place todo = false → notFound fs' links place todo = false := by
  fun_induction notFound fs links place todo <;> intro hfound
  case case1 => rw [notFound]
  case case2 hs hc ih =>
      rw [(sameWay_dot (h.searchable hs) hc).notFound]
      exact ih hfound
  case case3 hs hc ih =>
      rw [(sameWay_up (h.searchable hs) hc rfl).notFound]
      exact ih hfound
  case case5 hs hc hd target hnode =>
      rw [notFound, if_pos (h.searchable hs), if_neg hc, if_neg hd, h.kept _ _ hnode rfl]
  case case7 hs hc hd target hnode links ht ih =>
      rw [(sameWay_link (h.searchable hs) hc hd (h.kept _ _ hnode rfl) ht).notFound]
      exact ih hfound
  case case8 hs hc hd node hkind hnode ih =>
      obtain ⟨node', hnode', hlink'⟩ := h.solid hnode (Node.isLink_eq_false hkind)
      rw [(sameWay_on (h.searchable hs) hc hd hnode' hlink').notFound]
      exact ih hfound
  case case9 place c cs hs =>
      -- a directory that may not be searched
      have hdirectory : (fs.node place).any Node.isDirectory = true := by simpa using hfound
      obtain ⟨node, hnode, hkind⟩ := (Option.any_eq_true _ _).mp hdirectory
      have hregular : node.isRegular = false := by
        cases node with
        | directory _ => rfl
        | symlink _ => cases hkind
        | regular _ => cases hkind
        | other => cases hkind
      have hnode' := h.kept _ _ hnode hregular
      have hsearch : ¬ fs'.searchable place = true := by
        rw [FileSystem.searchable, hnode']
        rw [FileSystem.searchable, hnode] at hs
        exact hs
      rw [notFound, if_neg hsearch, hnode', Option.any_some, hkind]
      rfl
  all_goals cases hfound

/-- No link in the directory leads nowhere. -/
def NoDangling (fs : FileSystem) (root : Place) : Prop :=
  ∀ place name links, root <+: place → (fs.node (place ++ [name])).any Node.isLink = true →
    notFound fs links place [name] = false

theorem NoDangling.grows {fs fs' : FileSystem} {root : Place} (h : NoDangling fs root)
    (hgrows : Grows fs fs') : NoDangling fs' root := by
  intro place name links hbelow hlink
  have hsame := hgrows.link _ hlink
  rw [hsame] at hlink
  exact hgrows.found links place [name] (h place name links hbelow hlink)

end Lib.Posix
