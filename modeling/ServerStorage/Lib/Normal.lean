/-
# `ServerStorage.Lib.Normal` — normal forms of absolute paths

An absolute path in normal form is its file names, from the root down, and whether a
separator follows them.  `NormalPath.spell` writes such a form and reading it back gives
the same names, so that parents, file names and equality of normal paths are those of
lists; `normalForm` is the form `lexically_normal` spells.
-/
import ServerStorage.Lib.Path

namespace Lib.Path

open Lib

/-! ## File names -/

/-- What an entry of a directory can be called. -/
def IsFileName (n : Str) : Prop := n ≠ [] ∧ sep ∉ n ∧ n ≠ dot ∧ n ≠ dotDot

instance (n : Str) : Decidable (IsFileName n) := inferInstanceAs (Decidable (_ ∧ _ ∧ _ ∧ _))

abbrev FileName := { n : Str // IsFileName n }

namespace FileName

variable (n : FileName)

theorem ne_nil : n.1 ≠ [] := n.2.1
theorem no_sep : sep ∉ n.1 := n.2.2.1
theorem ne_dot : n.1 ≠ dot := n.2.2.2.1
theorem ne_dotDot : n.1 ≠ dotDot := n.2.2.2.2

theorem ne_rootDir : n.1 ≠ rootDir := by
  intro h
  exact n.no_sep (h ▸ List.mem_singleton.mpr rfl)

end FileName

/-! ## Normal paths -/

/-- An absolute path in normal form: a separator may follow the last name. -/
@[ext]
structure NormalPath where
  names : List FileName
  slash : Bool := false
  slashed : slash = true → names ≠ [] := by nofun

namespace NormalPath

/-- The elements after the root directory. -/
def parts (p : NormalPath) : List Str :=
  p.names.map Subtype.val ++ if p.slash then [[]] else []

def spell (p : NormalPath) : Str := genericString (rootDir :: p.parts)

/-- The path of an entry. -/
def child (p : NormalPath) (n : FileName) : NormalPath := { names := p.names ++ [n] }

variable (p q : NormalPath)

theorem mem_parts {e : Str} (h : e ∈ p.parts) : (∃ n ∈ p.names, n.1 = e) ∨ e = [] := by
  rcases List.mem_append.mp h with hn | hslash
  · exact .inl (List.mem_map.mp hn)
  · cases hs : p.slash with
    | false =>
        rw [hs] at hslash
        cases hslash
    | true =>
        rw [hs] at hslash
        exact .inr (List.mem_singleton.mp hslash)

theorem parts_ne_rootDir : ∀ e ∈ p.parts, e ≠ rootDir := by
  intro e he
  rcases p.mem_parts he with ⟨n, -, rfl⟩ | rfl
  · exact n.ne_rootDir
  · decide

theorem parts_no_sep : ∀ e ∈ p.parts, sep ∉ e := by
  intro e he
  rcases p.mem_parts he with ⟨n, -, rfl⟩ | rfl
  · exact n.no_sep
  · exact List.not_mem_nil

end NormalPath

theorem genericString_names : ∀ {es : List Str}, (∀ e ∈ es, e ≠ rootDir) →
    genericString es = [sep].intercalate es
  | [], _ => rfl
  | [_], _ => by simp [genericString, List.intercalate_singleton]
  | e :: e' :: es, h => by
      rw [genericString, if_neg (h e List.mem_cons_self),
        genericString_names fun x hx => h x (List.mem_cons_of_mem _ hx),
        List.intercalate_cons_cons, List.append_assoc, List.singleton_append]
      exact List.cons_ne_nil _ _

theorem intercalate_concat (n : Str) : ∀ ns : List Str,
    ∃ x, sep :: [sep].intercalate (ns ++ [n]) = x ++ sep :: n
  | [] => ⟨[], by simp [List.intercalate_singleton]⟩
  | m :: ns => by
      obtain ⟨x, hx⟩ := intercalate_concat n ns
      refine ⟨sep :: m ++ x, ?_⟩
      rw [List.cons_append, List.intercalate_cons_of_ne_nil (by simp), List.append_assoc,
        List.singleton_append, hx]
      simp

namespace NormalPath

variable (p q : NormalPath)

theorem spell_eq : p.spell = sep :: [sep].intercalate p.parts := by
  rw [spell]
  cases hparts : p.parts with
  | nil => rfl
  | cons e es =>
      rw [genericString, if_pos rfl, ← hparts, genericString_names p.parts_ne_rootDir]
      · rfl
      · exact List.cons_ne_nil _ _

@[simp] theorem isAbsolute_spell : isAbsolute p.spell = true := by
  rw [spell_eq]
  rfl

theorem spell_ne_nil : p.spell ≠ [] := by
  rw [spell_eq]
  exact List.cons_ne_nil _ _

/-! ## Reading a normal path back -/

theorem names_spell : Path.names p.spell = p.names.map Subtype.val := by
  have hsplit : p.spell.splitOn sep = [] :: ([sep].intercalate p.parts).splitOn sep := by
    rw [spell_eq]
    exact List.splitOn_append_cons_self [] _
  have hkeep : ∀ n ∈ p.names.map Subtype.val, (!n.isEmpty) = true := by
    intro n hn
    obtain ⟨n, -, rfl⟩ := List.mem_map.mp hn
    simpa [List.isEmpty_iff] using FileName.ne_nil n
  have hfilter : p.parts.filter (fun n => !n.isEmpty) = p.names.map Subtype.val := by
    rw [parts, List.filter_append, List.filter_eq_self.mpr hkeep]
    cases p.slash <;> simp
  rw [Path.names, hsplit, List.filter_cons_of_neg (by simp)]
  by_cases hnil : p.parts = []
  · rw [hnil, List.intercalate_nil, List.splitOn_nil, List.filter_cons_of_neg (by simp),
      ← hfilter, hnil]
  · rw [List.splitOn_intercalate sep p.parts_no_sep hnil, hfilter]

/-- The last byte is a separator exactly when one follows the names. -/
theorem getLast?_spell (hne : p.names ≠ []) : (p.spell.getLast? == some sep) = p.slash := by
  rw [spell_eq, parts]
  cases hslash : p.slash with
  | true =>
      obtain ⟨x, hx⟩ := intercalate_concat [] (p.names.map Subtype.val)
      rw [if_pos rfl, hx, List.getLast?_concat]
      rfl
  | false =>
      obtain ⟨init, n, hnames⟩ := (List.eq_nil_or_concat' p.names).resolve_left hne
      obtain ⟨x, hx⟩ := intercalate_concat n.1 (init.map Subtype.val)
      rw [if_neg (by decide), List.append_nil, hnames, List.map_append, List.map_singleton, hx,
        List.getLast?_append_of_ne_nil _ (by simp), List.getLast?_cons_of_ne_nil n.ne_nil]
      refine beq_eq_false_iff_ne.mpr fun hlast => n.no_sep ?_
      exact List.mem_of_getLast? hlast

theorem elements_spell : elements p.spell = rootDir :: p.parts := by
  rw [elements, isAbsolute_spell, if_pos rfl, names_spell, parts]
  by_cases hnil : p.names = []
  · have hslash : p.slash = false := by
      cases h : p.slash with
      | false => rfl
      | true => exact absurd hnil (p.slashed h)
    rw [hnil, hslash]
    rfl
  · rw [p.getLast?_spell hnil, List.isEmpty_eq_false_iff.mpr (mt List.map_eq_nil_iff.mp hnil)]
    rfl

variable {p q}

theorem spell_inj : p.spell = q.spell ↔ p = q := by
  refine ⟨fun h => ?_, fun h => h ▸ rfl⟩
  have hnames : p.names = q.names := by
    have hvals := p.names_spell
    rw [h, q.names_spell] at hvals
    exact (Subtype.val_injective.list_map hvals).symm
  refine NormalPath.ext hnames ?_
  rcases eq_or_ne p.names [] with hnil | hne
  · cases hp : p.slash with
    | true => exact absurd hnil (p.slashed hp)
    | false =>
        cases hq : q.slash with
        | true => exact absurd (hnames ▸ hnil) (q.slashed hq)
        | false => rfl
  · rw [← p.getLast?_spell hne, ← q.getLast?_spell (hnames ▸ hne), h]

/-! ## Parents and file names -/

/-- The directory a path is in: without its separator, or else without its last name. -/
def parent (p : NormalPath) : NormalPath :=
  if p.slash then { names := p.names } else { names := p.names.dropLast }

theorem parts_eq_nil : p.parts = [] ↔ p.names = [] := by
  rw [parts, List.append_eq_nil_iff, List.map_eq_nil_iff]
  refine ⟨And.left, fun h => ⟨h, ?_⟩⟩
  cases hslash : p.slash with
  | true => exact absurd h (p.slashed hslash)
  | false => rfl

theorem parts_dropLast : p.parts.dropLast = p.parent.parts := by
  cases hslash : p.slash with
  | true => simp [parts, parent, hslash]
  | false => simp [parts, parent, hslash, List.map_dropLast]

theorem parentPath_spell (h : p.names ≠ []) : parentPath p.spell = p.parent.spell := by
  have hparts : p.parts ≠ [] := mt parts_eq_nil.mp h
  have hne : rootDir :: p.parts ≠ [rootDir] := fun heq => hparts (List.cons.inj heq).2
  rw [parentPath, elements_spell]
  show (if _ then _ else _) = _
  rw [if_neg hne, List.dropLast_cons_of_ne_nil hparts, parts_dropLast, spell]

theorem parentPath_root (h : p.names = []) : parentPath p.spell = p.spell := by
  rw [parentPath, elements_spell, parts_eq_nil.mpr h]
  show (if _ then _ else _) = _
  rw [if_pos rfl, spell, parts_eq_nil.mpr h]

/-- A parent has fewer elements. -/
theorem parts_parent_lt (h : p.names ≠ []) : p.parent.parts.length < p.parts.length := by
  rw [← parts_dropLast, List.length_dropLast]
  exact Nat.sub_lt (List.length_pos_iff.mpr (mt parts_eq_nil.mp h)) Nat.one_pos

end NormalPath

/-! ## Normal forms -/

theorem sep_not_mem_splitOn : ∀ {p : Str}, ∀ n ∈ p.splitOn sep, sep ∉ n
  | [], n, hn => by
      rw [List.splitOn_nil, List.mem_singleton] at hn
      exact hn ▸ List.not_mem_nil
  | c :: p, n, hn => by
      rw [List.splitOn_cons_eq_if_modifyHead] at hn
      split at hn
      · rcases List.mem_cons.mp hn with rfl | hn
        · exact List.not_mem_nil
        · exact sep_not_mem_splitOn n hn
      next hc =>
        obtain ⟨m, ms, hsplit⟩ := List.exists_cons_of_ne_nil (List.splitOn_ne_nil sep p)
        have hall := @sep_not_mem_splitOn p
        rw [hsplit] at hn hall
        rcases List.mem_cons.mp hn with rfl | hn
        · intro hmem
          rcases List.mem_cons.mp hmem with rfl | hmem
          · exact hc (beq_self_eq_true _)
          · exact hall m List.mem_cons_self hmem
        · exact hall n (List.mem_cons_of_mem _ hn)

/-- What may stand in a path behind its root directory. -/
inductive Part : Str → Prop
  | empty : Part []
  | dot : Part dot
  | dotDot : Part dotDot
  | name (n : FileName) : Part n.1

theorem part_of_no_sep {e : Str} (h : sep ∉ e) : Part e := by
  by_cases hnil : e = []
  · exact hnil ▸ .empty
  · by_cases hdot : e = dot
    · exact hdot ▸ .dot
    · by_cases hdotDot : e = dotDot
      · exact hdotDot ▸ .dotDot
      · exact .name ⟨e, hnil, h, hdot, hdotDot⟩

theorem part_of_mem_elements {p e : Str} (h : e ∈ elements p) (hroot : e ≠ rootDir) : Part e := by
  rcases List.mem_append.mp h with h | h
  · rcases List.mem_append.mp h with h | h
    · split at h
      · exact absurd (List.mem_singleton.mp h) hroot
      · cases h
    · exact part_of_no_sep (sep_not_mem_splitOn e (List.mem_filter.mp h).1)
  · split at h
    · exact List.mem_singleton.mp h ▸ .empty
    · cases h

namespace NormalPath

/-- The state of the normalisation that holds this path. -/
def state (p : NormalPath) : Normal := { names := (p.names.map Subtype.val).reverse, slash := p.slash }

/-- One element is appended. -/
def push (p : NormalPath) (e : Str) : NormalPath :=
  if h : IsFileName e then { names := p.names ++ [⟨e, h⟩] }
  else if e = dotDot then
    { names := p.names.dropLast
      slash := !p.names.dropLast.isEmpty
      slashed := fun h hnil => by simp [hnil] at h }
  else
    { names := p.names
      slash := !p.names.isEmpty
      slashed := fun h hnil => by simp [hnil] at h }

theorem isEmpty_unattach (ns : List FileName) : ns.unattach.isEmpty = ns.isEmpty := by
  cases ns <;> rfl

theorem state_push (p : NormalPath) {e : Str} (he : Part e) :
    Normal.push true p.state e = (p.push e).state := by
  cases he with
  | empty =>
      have hno : ¬ IsFileName [] := fun h => h.1 rfl
      rw [push, dif_neg hno, if_neg (by decide), Normal.push, if_neg (by decide),
        if_pos (.inr rfl)]
      simp [state, isEmpty_unattach]
  | dot =>
      have hno : ¬ IsFileName dot := fun h => h.2.2.1 rfl
      rw [push, dif_neg hno, if_neg (by decide), Normal.push, if_neg (by decide),
        if_pos (.inl rfl)]
      simp [state, isEmpty_unattach]
  | dotDot =>
      have hno : ¬ IsFileName dotDot := fun h => h.2.2.2 rfl
      rw [push, dif_neg hno, if_pos rfl, Normal.push, if_pos rfl]
      rcases List.eq_nil_or_concat' p.names with hnil | ⟨init, n, hnames⟩
      · have hslash : p.slash = false := by
          cases h : p.slash with
          | false => rfl
          | true => exact absurd hnil (p.slashed h)
        simp [state, hnil, hslash]
      · simp [state, hnames, n.ne_dotDot, isEmpty_unattach]
  | name n =>
      rw [push, dif_pos n.2, Normal.push, if_neg n.ne_dotDot,
        if_neg (not_or.mpr ⟨n.ne_dot, n.ne_nil⟩)]
      simp [state]

/-- The path of these elements. -/
def ofElements (es : List Str) : NormalPath := es.foldl push { names := [] }

theorem state_foldl : ∀ {es : List Str} (p : NormalPath), (∀ e ∈ es, Part e) →
    es.foldl (Normal.push true) p.state = (es.foldl push p).state
  | [], _, _ => rfl
  | e :: es, p, h => by
      rw [List.foldl_cons, p.state_push (h e List.mem_cons_self), List.foldl_cons]
      exact state_foldl _ fun x hx => h x (List.mem_cons_of_mem _ hx)

theorem elements_state (p : NormalPath) : p.state.elements true = rootDir :: p.parts := by
  rw [Normal.elements, state, parts]
  cases hslash : p.slash with
  | false => simp
  | true =>
      obtain ⟨init, n, hnames⟩ := (List.eq_nil_or_concat' p.names).resolve_left (p.slashed hslash)
      simp [hnames, n.ne_dotDot]

end NormalPath

/-- The normal form of an absolute path. -/
def normalForm (p : Str) : NormalPath :=
  .ofElements ((elements p).filter fun e => e ≠ rootDir)

/-- `lexically_normal` spells the normal form. -/
theorem lexicallyNormal_eq {p : Str} (h : isAbsolute p = true) :
    lexicallyNormal p = (normalForm p).spell := by
  have hne : p.isEmpty = false := by
    cases p with
    | nil => cases h
    | cons => rfl
  have hparts : ∀ e ∈ (elements p).filter fun e => e ≠ rootDir, Part e := by
    intro e he
    obtain ⟨hmem, hroot⟩ := List.mem_filter.mp he
    exact part_of_mem_elements hmem (of_decide_eq_true hroot)
  have hstate := NormalPath.state_foldl { names := [] } hparts
  rw [lexicallyNormal, if_neg (by rw [hne]; exact Bool.false_ne_true), h]
  show (if List.isEmpty (Normal.elements true (List.foldl _ {} _)) = true then _ else _) = _
  have helements : Normal.elements true
      (List.foldl (Normal.push true) {} ((elements p).filter fun e => e ≠ rootDir)) =
      rootDir :: (normalForm p).parts := by
    rw [← NormalPath.elements_state, normalForm, NormalPath.ofElements, ← hstate]
    rfl
  rw [helements]
  rfl

namespace NormalPath

theorem foldl_push_names : ∀ (ns : List FileName) (p : NormalPath), p.slash = false →
    ((ns.map Subtype.val).foldl push p).names = p.names ++ ns ∧
      ((ns.map Subtype.val).foldl push p).slash = false
  | [], p, h => ⟨(List.append_nil _).symm, h⟩
  | n :: ns, p, h => by
      obtain ⟨hnames, hslash⟩ := foldl_push_names ns (push p n.1) (by rw [push, dif_pos n.2])
      rw [List.map_cons, List.foldl_cons]
      refine ⟨?_, hslash⟩
      rw [hnames, push, dif_pos n.2, List.append_assoc]
      rfl

/-- A normal path is its own normal form. -/
theorem normalForm_spell (p : NormalPath) : normalForm p.spell = p := by
  have hfilter : (rootDir :: p.parts).filter (fun e => e ≠ rootDir) = p.parts := by
    rw [List.filter_cons_of_neg (by decide), List.filter_eq_self]
    exact fun e he => decide_eq_true (p.parts_ne_rootDir e he)
  obtain ⟨hnames, hslash⟩ := foldl_push_names p.names { names := [] } rfl
  rw [normalForm, elements_spell, hfilter, ofElements, parts, List.foldl_append]
  cases hp : p.slash with
  | false => exact NormalPath.ext hnames (hslash.trans hp.symm)
  | true =>
      have hno : ¬ IsFileName [] := fun h => h.1 rfl
      have hne := p.slashed hp
      rw [if_pos rfl, List.foldl_cons, List.foldl_nil, push, dif_neg hno, if_neg (by decide)]
      refine NormalPath.ext hnames ?_
      show (!List.isEmpty _) = _
      rw [hnames, hp]
      simpa using hne

@[simp] theorem lexicallyNormal_spell (p : NormalPath) : lexicallyNormal p.spell = p.spell := by
  rw [lexicallyNormal_eq p.isAbsolute_spell, normalForm_spell]

end NormalPath

/-- An absolute path in normal form is spelt so. -/
theorem exists_spell {p : Str} (habsolute : isAbsolute p = true) (hnormal : lexicallyNormal p = p) :
    ∃ q : NormalPath, q.spell = p :=
  ⟨normalForm p, by rw [← lexicallyNormal_eq habsolute, hnormal]⟩

/-! ## Going down into a directory -/

abbrev AbsolutePath := { p : Str // isAbsolute p = true }

theorem FileName.isAbsolute_eq (n : FileName) : isAbsolute n.1 = false := by
  cases hn : n.1 with
  | nil => rfl
  | cons c rest =>
      refine beq_eq_false_iff_ne.mpr fun h => n.no_sep ?_
      rw [hn, Option.some.inj h]
      exact List.mem_cons_self

/-- A path that is not empty, closed by a separator. -/
def closed (p : Str) : Str := if p = [] ∨ p.getLast? = some sep then p else p ++ [sep]

theorem join_eq {p q : Str} (h : isAbsolute q = false) : join p q = closed p ++ q := by
  rw [join, h, if_neg Bool.false_ne_true, closed]
  cases p with
  | nil => rfl
  | cons c p =>
      rw [if_neg (by exact Bool.false_ne_true)]
      by_cases hlast : (c :: p).getLast? = some sep
      · rw [if_pos (beq_iff_eq.mpr hlast), if_pos (.inr hlast)]
      · rw [if_neg (mt beq_iff_eq.mp hlast), if_neg (not_or.mpr ⟨List.cons_ne_nil _ _, hlast⟩),
          List.append_assoc]
        rfl

theorem closed_append {p q : Str} (h : q ≠ []) : closed (p ++ q) = p ++ closed q := by
  rw [closed, closed, List.getLast?_append_of_ne_nil _ h]
  by_cases hlast : q.getLast? = some sep
  · rw [if_pos (.inr hlast), if_pos (.inr hlast)]
  · rw [if_neg (not_or.mpr ⟨List.append_ne_nil_of_right_ne_nil _ h, hlast⟩),
      if_neg (not_or.mpr ⟨h, hlast⟩), List.append_assoc]

theorem closed_closed (p : Str) : closed (closed p) = closed p := by
  by_cases h : p = [] ∨ p.getLast? = some sep
  · have hclosed : closed p = p := if_pos h
    rw [hclosed, hclosed]
  · have hclosed : closed p = p ++ [sep] := if_neg h
    rw [hclosed, closed, if_pos (.inr List.getLast?_concat)]

theorem isAbsolute_append {p q : Str} (h : isAbsolute q = false) :
    isAbsolute (closed p ++ q) = isAbsolute p := by
  rw [closed]
  split
  · cases p with
    | nil => exact h
    | cons => rfl
  next hopen =>
    cases p with
    | nil => exact absurd (.inl rfl) hopen
    | cons => rfl

theorem isAbsolute_join {p : Str} (n : FileName) : isAbsolute (join p n.1) = isAbsolute p := by
  rw [join_eq n.isAbsolute_eq, isAbsolute_append n.isAbsolute_eq]

/-- A relative path below a directory, taken one step further. -/
theorem join_join {p q : Str} (hq : isAbsolute q = false) (n : FileName) :
    join p (join q n.1) = join (join p q) n.1 := by
  rw [join_eq ((isAbsolute_join n).trans hq), join_eq n.isAbsolute_eq, join_eq hq,
    join_eq n.isAbsolute_eq]
  rcases eq_or_ne q [] with rfl | hne
  · rw [List.append_nil, closed_closed]
    rfl
  · rw [closed_append hne, List.append_assoc]

theorem names_append_sep (p q : Str) : names (p ++ sep :: q) = names p ++ names q := by
  rw [names, List.splitOn_append_cons_self, List.filter_append]
  rfl

theorem FileName.names_eq (n : FileName) : names n.1 = [n.1] := by
  rw [names, List.splitOn_eq_singleton n.no_sep]
  simp [n.ne_nil]

/-- The names of a path that ends in a separator are those before it. -/
theorem names_concat_sep (p : Str) : names (p ++ [sep]) = names p := by
  rw [names_append_sep]
  exact List.append_nil _

/-- The name that is gone into comes last. -/
theorem names_join {p : Str} (hne : p ≠ []) (n : FileName) :
    names (join p n.1) = names p ++ [n.1] := by
  rw [join_eq n.isAbsolute_eq, closed]
  by_cases hlast : p.getLast? = some sep
  · obtain ⟨q, hq⟩ := List.getLast?_eq_some_iff.mp hlast
    rw [if_pos (.inr hlast), hq, List.append_assoc, List.singleton_append, names_append_sep,
      names_concat_sep, n.names_eq]
  · rw [if_neg (not_or.mpr ⟨hne, hlast⟩), List.append_assoc, List.singleton_append,
      names_append_sep, n.names_eq]

theorem getLast?_join (p : Str) (n : FileName) : (join p n.1).getLast? ≠ some sep := by
  rw [join_eq n.isAbsolute_eq, List.getLast?_append_of_ne_nil _ n.ne_nil]
  exact fun h => n.no_sep (List.mem_of_getLast? h)

/-- A separator at the end adds no name. -/
theorem push_empty_names (p : NormalPath) : (p.push []).names = p.names := by
  have hno : ¬ IsFileName [] := fun h => h.1 rfl
  rw [NormalPath.push, dif_neg hno, if_neg (by decide)]

/-- The names of the normal form do not depend on a separator at the end. -/
theorem normalForm_names (p : Str) :
    (normalForm p).names =
      (NormalPath.ofElements ((names p).filter fun e => e ≠ rootDir)).names := by
  rw [normalForm, elements, List.filter_append, List.filter_append, NormalPath.ofElements,
    List.foldl_append, List.foldl_append]
  have hroot : ((if isAbsolute p = true then [rootDir] else []).filter fun e => e ≠ rootDir) = [] := by
    split <;> rfl
  rw [hroot]
  split
  · exact push_empty_names _
  · rfl

/-- Below a directory, the normal form is one name longer. -/
theorem normalForm_join {p : Str} (h : isAbsolute p = true) (n : FileName) :
    normalForm (join p n.1) = (normalForm p).child n := by
  have hne : p ≠ [] := by
    rintro rfl
    cases h
  have helements : elements (join p n.1) = [rootDir] ++ (names p ++ [n.1]) := by
    rw [elements, (isAbsolute_join n).trans h, if_pos rfl, names_join hne,
      beq_eq_false_iff_ne.mpr (getLast?_join p n), Bool.and_false, if_neg Bool.false_ne_true,
      List.append_nil]
  have hnames := normalForm_names p
  rw [normalForm, helements, List.filter_append, List.filter_append, NormalPath.ofElements,
    List.foldl_append, List.foldl_append]
  have hlast : [n.1].filter (fun e => e ≠ rootDir) = [n.1] :=
    List.filter_eq_self.mpr fun e he => decide_eq_true (List.mem_singleton.mp he ▸ n.ne_rootDir)
  rw [hlast, List.foldl_cons, List.foldl_nil, NormalPath.push, dif_pos n.2]
  refine NormalPath.ext ?_ rfl
  show _ ++ [n] = _ ++ [n]
  rw [hnames]
  rfl

end Lib.Path
