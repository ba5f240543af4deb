/-
# `ServerStorage.Lib.Confinement` — looking at a path and writing there

A program that asks `weakly_canonical` where a path leads, and then makes the directories
and the file by the path as it was given, stays in the directory it was to stay in, if the
path does not go back up and no link in the directory leads nowhere.  This is so however
many calls of other programs of this kind come in between: all of them only add to the
directory.

**Proved here.**

    a path that is found within the directory is confined to it   (`confined_of_weaklyCanonical`)
    a confined path stays confined while the file system grows    (`Confined.grows`)
    a call for a confined path only adds, and only there          (`Confined.advance`)
-/
import ServerStorage.Lib.StdFilesystem

namespace Lib.Posix

open Lib

/-! ## What a call leaves as it is -/

/-- Only what is in the directory has changed. -/
def Within (root : Place) (fs fs' : FileSystem) : Prop :=
  ∀ p, fs'.node p ≠ fs.node p → root <+: p

section
variable {root place : Place} {fs fs' fs'' : FileSystem}

theorem Within.refl : Within root fs fs := fun _ h => absurd rfl h

theorem Within.trans (h : Within root fs fs') (h' : Within root fs' fs'') : Within root fs fs'' := by
  intro p hp
  by_cases hsame : fs'.node p = fs.node p
  · refine h' p ?_
    rw [hsame]
    exact hp
  · exact h p hsame

theorem within_put {node : Node} (h : root <+: place) : Within root fs (fs.put place node) := by
  intro p hp
  by_cases heq : p = place
  · rw [heq]
    exact h
  · exact absurd (FileSystem.node_put_ne heq) hp

theorem setContents_within {contents : Str} (h : root <+: place) :
    Within root fs (setContents fs place contents) := by
  rw [setContents]
  split
  · exact within_put h
  · exact within_put h
  · exact .refl

end

/-- Something has been added, and only in the directory. -/
def AddsBelow (root : Place) (fs fs' : FileSystem) : Prop := Grows fs fs' ∧ Within root fs fs'

theorem AddsBelow.refl {root : Place} (fs : FileSystem) : AddsBelow root fs fs := ⟨.refl fs, .refl⟩

theorem AddsBelow.trans {root : Place} {fs fs' fs'' : FileSystem} (h : AddsBelow root fs fs')
    (h' : AddsBelow root fs' fs'') : AddsBelow root fs fs'' := ⟨h.1.trans h'.1, h.2.trans h'.2⟩

/-! ## Paths that stay in a directory -/

/-- The path leads into the directory, and behind what there is of it straight down. -/
def Confined (system : System) (root : Place) (route : Route) (fs : FileSystem) : Prop :=
  ∃ first rest P, origin system route.absolute ++ route.parts = first ++ rest ∧
    (walk fs system.symloopMax [] first).reached = some P ∧ root <+: P ∧
    Path.dotDot ∉ rest ∧ NoLinks fs P (properNames rest)

section
variable {system : System} {root place : Place} {route : Route} {fs fs' : FileSystem}

theorem Confined.grows (h : Confined system root route fs) (hgrows : Grows fs fs') :
    Confined system root route fs' := by
  obtain ⟨first, rest, P, hparts, hreached, hroot, hdots, hlinks⟩ := h
  refine ⟨first, rest, P, hparts, (hgrows.reached hreached).1, hroot, hdots, ?_⟩
  intro m hne hm
  refine Bool.eq_false_iff.mpr ?_
  intro hlink
  have hsame := hgrows.link _ hlink
  rw [hsame, hlinks m hne hm] at hlink
  cases hlink

/-- Where the file would be made. -/
theorem Confined.creation (h : Confined system root route fs)
    (hplace : creation fs system.symloopMax [] (origin system route.absolute ++ route.parts) =
      some place) : root <+: place := by
  obtain ⟨first, rest, P, hparts, hreached, hroot, hdots, hlinks⟩ := h
  obtain ⟨links', hway⟩ := walk_after fs system.symloopMax [] first P hreached
  rw [hparts, (hway fs (.refl fs) rest).creation] at hplace
  rw [(straight fs links' rest P hdots hlinks).2 place hplace]
  exact hroot.trans (List.prefix_append _ _)

/-- Where a directory would be made that is missing. -/
theorem Confined.mkdir (h : Confined system root route fs) {before : List Str} {c : Str}
    (hbefore : before ++ [c] <+: origin system route.absolute ++ route.parts)
    (hplace : (walk fs system.symloopMax [] before).reached = some place)
    (hmissing : (walk fs system.symloopMax [] (before ++ [c])).reached = none) :
    root <+: place ++ [c] := by
  obtain ⟨first, rest, P, hparts, hreached, hroot, hdots, hlinks⟩ := h
  rw [hparts] at hbefore
  obtain ⟨after, hafter⟩ := hbefore
  rcases List.append_eq_append_iff.mp hafter with ⟨mid, rfl, -⟩ | ⟨mid, hmid, hrest⟩
  · -- what there is of the path is not missing
    have hsome := reached_of_append fs system.symloopMax [] (before ++ [c]) mid
      (by rw [hreached]; rfl)
    rw [hmissing] at hsome
    cases hsome
  · rcases List.eq_nil_or_concat' mid with rfl | ⟨mid, last, rfl⟩
    · rw [List.append_nil] at hmid
      rw [hmid, hreached] at hmissing
      cases hmissing
    · rw [← List.append_assoc] at hmid
      obtain ⟨rfl, hlast⟩ := List.append_inj' hmid rfl
      obtain ⟨links', hway⟩ := walk_after fs system.symloopMax [] first P hreached
      rw [(hway fs (.refl fs) mid).reached] at hplace
      have hsub : mid <+: rest := by
        rw [hrest, List.append_assoc]
        exact List.prefix_append _ _
      have hmiddots : Path.dotDot ∉ mid := fun hmem => hdots (hsub.subset hmem)
      have hmidlinks : NoLinks fs P (properNames mid) := by
        intro m hne hm
        exact hlinks m hne (hm.trans (hsub.filter _))
      rw [(straight fs links' mid P hmiddots hmidlinks).1 place hplace, List.append_assoc]
      exact hroot.trans (List.prefix_append _ _)

/-- The stage belongs to the path. -/
def StageOf (root : Place) (route : Route) : WriteStage → Prop
  | .looking done todo => done ++ todo = route.parent.parts
  | .making done name todo => done ++ name :: todo = route.parent.parts
  | .writing place => root <+: place
  | _ => True

theorem stageOf_start : StageOf root route (startWriting route) := by
  rw [startWriting]
  split
  · trivial
  · exact List.nil_append _

/-- **A call keeps to the directory**: it only adds, and only there. -/
theorem Confined.advance (h : Confined system root route fs)
    (hplain : ∀ c ∈ route.parts, (0 : UInt8) ∉ c) {stage : WriteStage}
    (hstage : StageOf root route stage) (bytes : Str) (answer : Answer) :
    Grows fs (advance system route bytes fs answer stage).1 ∧
      Within root fs (advance system route bytes fs answer stage).1 ∧
      StageOf root route (advance system route bytes fs answer stage).2 := by
  cases stage with
  | written => exact ⟨.refl fs, .refl, trivial⟩
  | failed call => exact ⟨.refl fs, .refl, trivial⟩
  | writing place =>
      rw [Posix.advance]
      cases answer.leaves with
      | none => exact ⟨setContents_grows bytes, setContents_within hstage, trivial⟩
      | some part =>
          refine ⟨setContents_grows part, setContents_within hstage, ?_⟩
          dsimp only
          split <;> trivial
  | opening =>
      rw [Posix.advance]
      split
      · exact ⟨.refl fs, .refl, trivial⟩
      · next place hopen =>
          have hplace : root <+: place := by
            split at hopen
            · rw [openFile] at hopen
              split at hopen
              · cases hopen
              · rw [fromRoot_plain hplain] at hopen
                split at hopen
                · cases hopen
                · next found hfound =>
                    split at hopen
                    · cases hopen
                    · obtain rfl := Option.some.inj hopen
                      exact h.creation hfound
            · cases hopen
          exact ⟨setContents_grows [], setContents_within hplace, hplace⟩
  | looking done todo =>
      cases todo with
      | nil => exact ⟨.refl fs, .refl, trivial⟩
      | cons name todo =>
          rw [Posix.advance]
          split
          · split
            · exact ⟨.refl fs, .refl, (List.append_cons _ _ _).symm.trans hstage⟩
            · exact ⟨.refl fs, .refl, trivial⟩
          · exact ⟨.refl fs, .refl, trivial⟩
          · exact ⟨.refl fs, .refl, hstage⟩
  | making done name todo =>
      have hnext : StageOf root route (.looking (done ++ [name]) todo) :=
        (List.append_cons _ _ _).symm.trans hstage
      rw [Posix.advance]
      split
      · split
        · next made hmade =>
            obtain ⟨before, last, place, hparts, hplace, hmissing, hnone, rfl⟩ := mkdir_some hmade
            have hbelow : done ++ [name] <+: route.parts := by
              have hprefix : done ++ [name] <+: route.parent.parts := ⟨todo, hnext⟩
              exact hprefix.trans (List.dropLast_prefix _)
            rw [fromRoot_plain fun c hc => hplain c (hbelow.subset hc)] at hparts
            have hinside : root <+: place ++ [last] := by
              refine h.mkdir ?_ hplace hmissing
              rw [← hparts]
              exact (List.prefix_append_right_inj _).mpr hbelow
            exact ⟨FileSystem.grows_put rfl (.inl hnone), within_put hinside, hnext⟩
        · split
          · exact ⟨.refl fs, .refl, hnext⟩
          · exact ⟨.refl fs, .refl, trivial⟩
      · exact ⟨.refl fs, .refl, trivial⟩

/-! ## What `weakly_canonical` promises -/

theorem leading_spec {absolute : Bool} (todo : List Str) :
    ∀ done result out rest, leading system absolute fs done result todo = some (out, rest) →
      (∀ P, result = some P →
        (walk fs system.symloopMax [] (fromRoot system absolute done)).reached = some P) →
      (out = none → result = none ∧ rest = todo) ∧
      ∀ P, out = some P → ∃ more, todo = more ++ rest ∧ (more = [] → result = some P) ∧
        (walk fs system.symloopMax [] (fromRoot system absolute (done ++ more))).reached = some P ∧
        ∀ c cs, rest = c :: cs → lookUp system absolute fs (done ++ more ++ [c]) = .missing := by
  induction todo with
  | nil =>
      intro done result out rest h hresult
      obtain ⟨rfl, rfl⟩ := Prod.mk.inj (Option.some.inj h)
      refine ⟨fun hout => ⟨hout, rfl⟩, ?_⟩
      intro P hP
      refine ⟨[], rfl, fun _ => hP, ?_, ?_⟩
      · rw [List.append_nil]
        exact hresult P hP
      · intro c cs hrest
        cases hrest
  | cons c todo ih =>
      intro done result out rest h hresult
      rw [leading] at h
      split at h
      · next place hfound =>
          have hreached := (lookUp_found hfound).2
          obtain ⟨hnone, hsome⟩ := ih _ _ _ _ h (by
            intro P hP
            obtain rfl := Option.some.inj hP
            exact hreached)
          refine ⟨?_, ?_⟩
          · intro hout
            cases (hnone hout).1
          · intro P hP
            obtain ⟨more, hmore, -, hwalk, hmissing⟩ := hsome P hP
            refine ⟨c :: more, by rw [hmore]; rfl, fun hnil => absurd hnil (List.cons_ne_nil _ _), ?_, ?_⟩
            · rw [List.append_cons]
              exact hwalk
            · intro c' cs' hrest
              rw [List.append_cons done c more]
              exact hmissing c' cs' hrest
      · next hmissing =>
          obtain ⟨rfl, rfl⟩ := Prod.mk.inj (Option.some.inj h)
          refine ⟨fun hout => ⟨hout, rfl⟩, ?_⟩
          intro P hP
          refine ⟨[], rfl, fun _ => hP, ?_, ?_⟩
          · rw [List.append_nil]
            exact hresult P hP
          · intro c' cs' hrest
            obtain ⟨rfl, -⟩ := List.cons.inj hrest
            rw [List.append_nil]
            exact hmissing
      · cases h

/-- Without `..`, the normal form drops what stays where it is. -/
theorem foldl_push_names {absolute : Bool} (parts : List Str) :
    ∀ st : Path.Normal, Path.dotDot ∉ parts →
      (parts.foldl (Path.Normal.push absolute) st).names = (properNames parts).reverse ++ st.names := by
  induction parts with
  | nil => exact fun _ _ => rfl
  | cons c cs ih =>
      intro st hdots
      obtain ⟨hd, hdots⟩ := not_or.mp (mt List.mem_cons.mpr hdots)
      rw [List.foldl_cons, ih _ hdots, Path.Normal.push, if_neg (Ne.symm hd)]
      by_cases hc : c = [] ∨ c = Path.dot
      · rw [properNames_dot hc, if_pos hc.symm]
      · rw [properNames_name hc, if_neg (fun h => hc h.symm), List.reverse_cons, List.append_assoc]
        rfl

/-- Behind the names there may be a separator, and a dot where there are none. -/
theorem normalElements_eq {absolute : Bool} {parts : List Str} (hdots : Path.dotDot ∉ parts) :
    ∃ tail, normalElements absolute parts =
        (if absolute then [Path.rootDir] else []) ++ properNames parts ++ tail ∧
      (tail = [] ∨ tail = [[]] ∨ tail = [Path.dot]) := by
  have helements : ∃ tail, (parts.foldl (Path.Normal.push absolute) {}).elements absolute =
      (if absolute then [Path.rootDir] else []) ++ properNames parts ++ tail ∧
        (tail = [] ∨ tail = [[]]) := by
    rw [Path.Normal.elements, foldl_push_names parts {} hdots, List.append_nil, List.reverse_reverse]
    refine ⟨_, rfl, ?_⟩
    split
    · exact .inr rfl
    · exact .inl rfl
  obtain ⟨tail, htail, hcases⟩ := helements
  by_cases hempty : (parts.foldl (Path.Normal.push absolute) {}).elements absolute = [] ∧ parts ≠ []
  · refine ⟨[Path.dot], ?_, .inr (.inr rfl)⟩
    have hnone : (if absolute then [Path.rootDir] else []) ++ properNames parts = [] :=
      List.append_eq_nil_iff.mp (htail.symm.trans hempty.1) |>.1
    rw [normalElements, if_pos hempty, hnone]
    rfl
  · refine ⟨tail, ?_, ?_⟩
    · rw [normalElements, if_neg hempty, htail]
    · rcases hcases with hnil | hslash
      · exact .inl hnil
      · exact .inr (.inl hslash)

/-- Names at the beginning of the elements are among the names of the path. -/
theorem prefix_normalElements {absolute : Bool} {parts names : List Str}
    (hdots : Path.dotDot ∉ parts) (hnames : ∀ c ∈ names, c ≠ [] ∧ c ≠ Path.dot)
    (h : names <+: normalElements absolute parts) :
    names <+: (if absolute then [Path.rootDir] else []) ++ properNames parts := by
  obtain ⟨tail, htail, hcases⟩ := @normalElements_eq absolute parts hdots
  rw [htail] at h
  have hconcat : ∀ c, ¬(c ≠ [] ∧ c ≠ Path.dot) → tail = [c] →
      names <+: (if absolute then [Path.rootDir] else []) ++ properNames parts := by
    intro c hc hone
    rw [hone] at h
    rcases List.prefix_concat_iff.mp h with heq | hprefix
    · refine absurd (hnames c ?_) hc
      rw [heq]
      exact List.mem_append_right _ List.mem_cons_self
    · exact hprefix
  rcases hcases with rfl | hslash | hdot
  · rwa [List.append_nil] at h
  · exact hconcat [] (fun hc => hc.1 rfl) hslash
  · exact hconcat Path.dot (fun hc => hc.2 rfl) hdot

/-- What is above something is a directory. -/
theorem isDirectory_above {below : List Str} (hne : below ≠ [])
    (h : (fs.node (place ++ below)).isSome = true) :
    (fs.node place).any Node.isDirectory = true := by
  obtain ⟨name, below, rfl⟩ := List.exists_cons_of_ne_nil hne
  cases hdirectory : (fs.node place).any Node.isDirectory with
  | true => rfl
  | false =>
      have hnone : fs.node (place ++ [name]) = none := FileSystem.node_below_solid hdirectory
      have hgone : fs.node (place ++ name :: below) = none :=
        FileSystem.node_below_none hnone ⟨below, by rw [List.append_assoc]; rfl⟩
      rw [hgone] at h
      cases h

/-- Where the first name is missing, everything behind it is, and the directory comes before. -/
theorem below_missing {P : Place} {names : List Str} (hexists : (fs.node root).isSome = true)
    (hroot : root <+: P ++ names) (hnone : ∀ x xs, names = x :: xs → fs.node (P ++ [x]) = none) :
    root <+: P ∧ NoLinks fs P names := by
  have hmissing : ∀ m, m ≠ [] → m <+: names → fs.node (P ++ m) = none := by
    intro m hne hm
    obtain ⟨x, m, rfl⟩ := List.exists_cons_of_ne_nil hne
    obtain ⟨rest, hrest⟩ := hm
    exact FileSystem.node_below_none (hnone x _ hrest.symm) ⟨m, by rw [List.append_assoc]; rfl⟩
  refine ⟨?_, ?_⟩
  · obtain ⟨tail, htail⟩ := hroot
    rcases List.append_eq_append_iff.mp htail with ⟨m, rfl, -⟩ | ⟨m, rfl, hm⟩
    · exact List.prefix_append _ _
    · cases m with
      | nil => rw [List.append_nil]
      | cons x m =>
          rw [hmissing _ (List.cons_ne_nil _ _) ⟨tail, hm.symm⟩] at hexists
          cases hexists
  · intro m hne hm
    rw [hmissing m hne hm]
    rfl

/-- The first name that is missing is that of nothing, unless it is that of a link. -/
theorem node_of_missing {links : Nat} {P : Place} {c : Str} (hd : c ≠ Path.dotDot)
    (hreached : (walk fs links P [c]).reached = none) (hmissing : notFound fs links P [c] = true)
    (hlink : (fs.node (P ++ [c])).any Node.isLink = false) {cs : List Str} :
    ∀ x xs, properNames (c :: cs) = x :: xs → fs.node (P ++ [x]) = none := by
  intro x xs hx
  cases hsearch : fs.searchable P with
  | false =>
      rw [notFound, hsearch] at hmissing
      refine FileSystem.node_below_solid ?_
      simpa using hmissing
  | true =>
      by_cases hc : c = [] ∨ c = Path.dot
      · rw [(sameWay_dot hsearch hc).reached, walk] at hreached
        cases hreached
      · rw [properNames_name hc] at hx
        obtain ⟨rfl, -⟩ := List.cons.inj hx
        cases hnode : fs.node (P ++ [c]) with
        | none => rfl
        | some node =>
            rw [hnode, Option.any_some] at hlink
            rw [(sameWay_on hsearch hc hd hnode hlink).reached, walk] at hreached
            cases hreached

/-- A link is not missing: in the directory it leads somewhere, and above it the directory is
below the link. -/
theorem no_link_missing {links : Nat} {P : Place} {c : Str} {cs : List Str}
    (hexists : (fs.node root).isSome = true) (hsolid : (fs.node root).any Node.isLink = false)
    (hdangling : NoDangling fs root) (hbelow : root <+: P ++ properNames (c :: cs))
    (hreached : (walk fs links P [c]).reached = none) (hmissing : notFound fs links P [c] = true) :
    (fs.node (P ++ [c])).any Node.isLink = false := by
  refine Bool.eq_false_iff.mpr ?_
  intro hlink
  by_cases hc : c = [] ∨ c = Path.dot
  · have hdirectory : (fs.node P).any Node.isDirectory = true := by
      refine fs.inDirectory P c ?_
      obtain ⟨node, hnode, -⟩ := (Option.any_eq_true _ _).mp hlink
      rw [hnode]
      rfl
    cases hsearch : fs.searchable P with
    | false =>
        rw [notFound, hsearch, hdirectory] at hmissing
        cases hmissing
    | true =>
        rw [(sameWay_dot hsearch hc).reached, walk] at hreached
        cases hreached
  · by_cases hroot : root <+: P
    · rw [hdangling P c links hroot hlink] at hmissing
      cases hmissing
    · rw [properNames_name hc] at hbelow
      obtain ⟨tail, htail⟩ := hbelow
      rcases List.append_eq_append_iff.mp htail with ⟨m, rfl, -⟩ | ⟨m, hm, hnames⟩
      · exact absurd (List.prefix_append _ _) hroot
      · cases m with
        | nil =>
            rw [List.append_nil] at hm
            rw [hm] at hroot
            exact absurd List.prefix_rfl hroot
        | cons x m =>
            obtain ⟨rfl, -⟩ := List.cons.inj hnames
            rw [← List.singleton_append, ← List.append_assoc] at hm
            rw [hm] at hexists hsolid
            by_cases hnil : m = []
            · rw [hnil, List.append_nil, hlink] at hsolid
              cases hsolid
            · rw [FileSystem.isLink_of_isDirectory (isDirectory_above hnil hexists)] at hlink
              cases hlink

/-- The directory is there, spelled as it is, and no link in it leads nowhere. -/
structure Rooted (fs : FileSystem) (root : Place) : Prop where
  present : (fs.node root).isSome = true
  solid : (fs.node root).any Node.isLink = false
  proper : ∀ c ∈ root, IsProper c
  noDangling : NoDangling fs root

theorem Rooted.grows (h : Rooted fs root) (hgrows : Grows fs fs') : Rooted fs' root := by
  obtain ⟨node, hnode⟩ := Option.isSome_iff_exists.mp h.present
  have hlink := h.solid
  rw [hnode, Option.any_some] at hlink
  obtain ⟨node', hnode', hlink'⟩ := hgrows.solid hnode hlink
  constructor
  case present =>
    rw [hnode']
    rfl
  case solid =>
    rw [hnode']
    exact hlink'
  case proper => exact h.proper
  case noDangling => exact h.noDangling.grows hgrows

/-- A path by its components that a system call takes whole and that does not go back up. -/
structure Route.Plain (route : Route) : Prop where
  whole : ∀ c ∈ route.parts, (0 : UInt8) ∉ c
  onward : Path.dotDot ∉ route.parts
  names : Path.rootDir ∉ route.parts

/-- **A path that is found within the directory stays there**, if it does not go back up and no
link in the directory leads nowhere. -/
theorem confined_of_weaklyCanonical {elements : List Str} (hplain : route.Plain)
    (hrooted : Rooted fs root) (hcanonical : weaklyCanonical system fs route = some elements)
    (hwithin : Path.rootDir :: root <+: elements) : Confined system root route fs := by
  obtain ⟨hplain, hdots, hnames⟩ := hplain
  obtain ⟨hexists, hsolid, hproper, hdangling⟩ := hrooted
  have hne : ∀ c ∈ Path.rootDir :: root, c ≠ [] ∧ c ≠ Path.dot := by
    intro c hc
    rcases List.mem_cons.mp hc with rfl | hc
    · decide
    · exact ⟨(hproper c hc).1, (hproper c hc).2.1⟩
  have hstart : ∀ P, (if route.absolute then some [] else none) = some P →
      (walk fs system.symloopMax [] (fromRoot system route.absolute [])).reached = some P := by
    intro P hP
    split at hP
    · next habsolute =>
        obtain rfl := Option.some.inj hP
        rw [fromRoot, habsolute, if_pos rfl, cut, List.append_nil, walk]
    · cases hP
  rw [weaklyCanonical] at hcanonical
  split at hcanonical
  · -- the whole path is there
    next place hfound =>
      obtain rfl := Option.some.inj hcanonical
      have hreached := (lookUp_found hfound).2
      rw [fromRoot_plain hplain] at hreached
      refine ⟨_, [], place, (List.append_nil _).symm, hreached,
        (List.cons_prefix_cons.mp hwithin).2, List.not_mem_nil, ?_⟩
      intro m hm hprefix
      exact absurd (List.prefix_nil.mp hprefix) hm
  · cases hcanonical
  · split at hcanonical
    · cases hcanonical
    · -- a relative path of which nothing is there has no root directory
      next rest hleading =>
        obtain rfl := Option.some.inj hcanonical
        obtain ⟨-, hrest⟩ := (leading_spec _ _ _ _ _ hleading hstart).1 rfl
        rw [hrest] at hwithin
        obtain ⟨tail, htail⟩ := prefix_normalElements hdots hne hwithin
        have hnames' : Path.rootDir :: root ++ tail = properNames route.parts := htail
        have hmem : Path.rootDir ∈ properNames route.parts := by
          rw [← hnames']
          exact List.mem_append_left _ List.mem_cons_self
        exact absurd (List.mem_of_mem_filter hmem) hnames
    · next P rest hleading =>
        obtain rfl := Option.some.inj hcanonical
        obtain ⟨more, hmore, hnil, hreached, hmissing⟩ :=
          (leading_spec _ _ _ _ _ hleading hstart).2 P rfl
        rw [List.nil_append] at hreached hmissing
        have hdoneplain : ∀ c ∈ rest, ∀ c' ∈ more ++ [c], (0 : UInt8) ∉ c' := by
          intro c hc c' hc'
          refine hplain c' ?_
          rw [hmore]
          rcases List.mem_append.mp hc' with hc' | hc'
          · exact List.mem_append_left _ hc'
          · obtain rfl := List.mem_singleton.mp hc'
            exact List.mem_append_right _ hc
        have hmoreplain : ∀ c ∈ more, (0 : UInt8) ∉ c := by
          intro c hc
          refine hplain c ?_
          rw [hmore]
          exact List.mem_append_left _ hc
        rw [fromRoot_plain hmoreplain] at hreached
        have hparts : origin system route.absolute ++ route.parts =
            origin system route.absolute ++ more ++ rest := by
          rw [hmore, List.append_assoc]
        have hrestdots : Path.dotDot ∉ rest := by
          intro hmem
          refine hdots ?_
          rw [hmore]
          exact List.mem_append_right _ hmem
        have hP : ∀ c ∈ P, IsProper c :=
          reached_proper fs _ [] _ (fun c hc => absurd hc List.not_mem_nil) P hreached
        have hPdots : Path.dotDot ∉ P ++ rest := by
          intro hmem
          rcases List.mem_append.mp hmem with hmem | hmem
          · exact (hP _ hmem).2.2 rfl
          · exact hrestdots hmem
        have hbelow : root <+: P ++ properNames rest := by
          have hprefix := prefix_normalElements hPdots hne hwithin
          rw [properNames, List.filter_append, ← properNames, ← properNames, properNames_proper hP]
            at hprefix
          exact (List.cons_prefix_cons.mp hprefix).2
        cases rest with
        | nil =>
            refine ⟨_, [], P, hparts, hreached, ?_, List.not_mem_nil, ?_⟩
            · have hnone : properNames [] = [] := rfl
              rwa [hnone, List.append_nil] at hbelow
            · intro m hm hprefix
              exact absurd (List.prefix_nil.mp hprefix) hm
        | cons c cs =>
            have hmiss := (lookUp_missing (hmissing c cs rfl)).resolve_left ?_
            · rw [fromRoot_plain (hdoneplain c List.mem_cons_self), ← List.append_assoc] at hmiss
              obtain ⟨links', hway⟩ := walk_after fs system.symloopMax [] _ P hreached
              have hlast := hway fs (.refl fs) [c]
              rw [hlast.reached, hlast.notFound] at hmiss
              have hlink := no_link_missing hexists hsolid hdangling hbelow hmiss.1 hmiss.2
              have hd : c ≠ Path.dotDot := by
                rintro rfl
                exact hrestdots List.mem_cons_self
              obtain ⟨hroot, hlinks⟩ := below_missing hexists hbelow
                (node_of_missing hd hmiss.1 hmiss.2 hlink)
              exact ⟨_, c :: cs, P, hparts, hreached, hroot, hrestdots, hlinks⟩
            · -- the empty path is relative, and something of this one is there
              intro hempty
              rw [isEmptyPath, cut_plain (hdoneplain c List.mem_cons_self)] at hempty
              obtain ⟨hrelative, hempty⟩ := (Bool.and_eq_true _ _).mp hempty
              cases more with
              | nil =>
                  have hsome := hnil rfl
                  rw [(Bool.not_eq_true' _).mp hrelative] at hsome
                  cases hsome
              | cons d more => simp at hempty

end

/-! ## Where a directory is -/

/-- Where the walk of a path arrives, the directory is as it has to be. -/
theorem rooted_of_resolve {system : System} {fs : FileSystem} {path : Str} {root : Place}
    (h : (resolve system fs path).reached = some root) (hdangling : NoDangling fs root) :
    Rooted fs root := by
  have hpresent := resolve_present (by rw [h]; rfl) root (resolve_reached h)
  simp only [resolve] at h
  split at h
  · cases h
  · constructor
    case present => exact hpresent
    case solid => exact reached_solid _ _ _ _ (fs.isLink_of_isDirectory fs.atRoot) root h
    case proper =>
      exact reached_proper _ _ _ _ (fun c hc => absurd hc List.not_mem_nil) root h
    case noDangling => exact hdangling

/-- A path without null characters and without `..`. -/
theorem plain_ofPath {path : Str} (hnull : (0 : UInt8) ∉ path)
    (hdots : Path.dotDot ∉ Path.names path) : (Route.ofPath path).Plain := by
  constructor
  case whole => exact components_whole hnull
  case onward =>
    intro hmem
    rcases mem_components hmem with hname | hnil
    · exact hdots hname
    · cases hnil
  case names =>
    intro hmem
    exact absurd rfl (of_decide_eq_true (List.mem_filter.mp hmem).2)

end Lib.Posix
