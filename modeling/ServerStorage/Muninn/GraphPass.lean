/-
# `ServerStorage.Muninn.GraphPass` — the search for cycles finds every cycle

`ParentGraphValidationPass` searches depth first along the children, with the colours of
the entries and an explicit stack.  An entry is gray while it is on the stack and black
once everything below it is done, so a gray child closes a cycle, and without one every
black entry is accessible: nothing infinite hangs below it.
-/
import ServerStorage.Muninn.Validation
import Mathlib.Algebra.BigOperators.Group.Finset.Basic
import Mathlib.Algebra.Order.BigOperators.Group.Finset

namespace ServerStorage.Muninn

open Lib Relation

variable {s : Snapshot}

/-- One step along the parent ids. -/
def ParentStep (s : Snapshot) (child parent : EntryId) : Prop :=
  ∃ e ∈ s.entries, e.id = child ∧ e.parentId = parent ∧ parent ≠ 0

def entryIds (s : Snapshot) : List EntryId := s.entries.map FileEntry.id

theorem mem_childrenOf {child parent : EntryId} :
    child ∈ childrenOf s parent ↔ ParentStep s child parent := by
  rw [childrenOf, List.mem_map]
  constructor
  · rintro ⟨e, he, rfl⟩
    obtain ⟨hmem, hparent⟩ := List.mem_filter.mp he
    obtain ⟨hne, rfl⟩ := of_decide_eq_true hparent
    exact ⟨e, hmem, rfl, rfl, hne⟩
  · rintro ⟨e, hmem, rfl, rfl, hne⟩
    exact ⟨e, List.mem_filter.mpr ⟨hmem, decide_eq_true ⟨hne, rfl⟩⟩, rfl⟩

theorem ParentStep.mem {child parent : EntryId} (h : ParentStep s child parent) :
    child ∈ entryIds s := by
  obtain ⟨e, he, rfl, -⟩ := h
  exact List.mem_map_of_mem he

/-! ## One turn of the search -/

/-- What a turn does, by the top of the stack and the colour of its next child. -/
inductive DfsMove (s : Snapshot) (st : DfsState) : DfsState → Prop
  | pop {top : EntryId} {below : List (EntryId × List EntryId)} {issues : ValidationReport}
      (hstack : st.stack = (top, []) :: below)
      (hissues : issues.hasErrors = st.issues.hasErrors) :
      DfsMove s st
        { colors := Function.update st.colors top (some .black), stack := below, issues := issues }
  | skip {top child : EntryId} {others : List EntryId} {below : List (EntryId × List EntryId)}
      {issues : ValidationReport} (hstack : st.stack = (top, child :: others) :: below)
      (hcolor : st.colors child = none ∨ st.colors child = some .black)
      (hissues : issues.hasErrors = st.issues.hasErrors) :
      DfsMove s st { colors := st.colors, stack := (top, others) :: below, issues := issues }
  | cycle {top child : EntryId} {others : List EntryId} {below : List (EntryId × List EntryId)}
      {issues : ValidationReport} (hstack : st.stack = (top, child :: others) :: below)
      (hcolor : st.colors child = some .gray) (hissues : issues.hasErrors = true) :
      DfsMove s st { colors := st.colors, stack := (top, others) :: below, issues := issues }
  | push {top child : EntryId} {others : List EntryId} {below : List (EntryId × List EntryId)}
      {issues : ValidationReport} (hstack : st.stack = (top, child :: others) :: below)
      (hcolor : st.colors child = some .white)
      (hissues : issues.hasErrors = st.issues.hasErrors) :
      DfsMove s st
        { colors := Function.update st.colors child (some .gray)
          stack := (child, childrenOf s child) :: (top, others) :: below, issues := issues }

theorem dfsStep_move {st : DfsState} (h : st.stack ≠ []) : DfsMove s st (dfsStep s st) := by
  obtain ⟨colors, stack, issues⟩ := st
  obtain ⟨⟨top, children⟩, below, rfl⟩ := List.exists_cons_of_ne_nil h
  have hdepth : ∀ b, ValidationReport.hasErrors (issues ++ report b
      { code := .graphMaxDepthExceeded, severity := .warning
        message := "Tree depth exceeds configured validation limit."
        snapshotId := some s.snapshotId, entryId := some top }) = issues.hasErrors := fun b => by
    rw [ValidationReport.hasErrors_append, hasErrors_report]
    simp
  cases children with
  | nil => exact .pop rfl (hdepth _)
  | cons child others =>
      rw [dfsStep]
      dsimp only
      cases hcolor : colors child with
      | none => exact .skip rfl (.inl hcolor) (hdepth _)
      | some color =>
          cases color with
          | white => exact .push rfl hcolor (hdepth _)
          | black => exact .skip rfl (.inr hcolor) (hdepth _)
          | gray =>
              refine .cycle rfl hcolor ?_
              rw [ValidationReport.hasErrors_append]
              simp [ValidationReport.hasErrors]

/-! ## The invariant -/

/-- Every child of every frame is still to be looked at, done, or on the frame above. -/
def Explored (s : Snapshot) (colors : EntryId → Option Color) :
    Option EntryId → List (EntryId × List EntryId) → Prop
  | _, [] => True
  | above, (top, rest) :: below =>
      (∀ child, ParentStep s child top →
        child ∈ rest ∨ colors child = some .black ∨ above = some child) ∧
      Explored s colors (some top) below

/-- The invariant, when `above` is about to be put on the stack. -/
structure DfsInv (s : Snapshot) (above : Option EntryId) (st : DfsState) : Prop where
  gray : ∀ v, st.colors v = some .gray ↔ v ∈ st.stack.map Prod.fst
  nodup : (st.stack.map Prod.fst).Nodup
  colored : ∀ v ∈ entryIds s, st.colors v ≠ none
  chain : (st.stack.map Prod.fst).IsChain (ParentStep s)
  rest : ∀ f ∈ st.stack, ∀ child ∈ f.2, ParentStep s child f.1
  acc : st.issues.hasErrors = false →
    ∀ v, st.colors v = some .black → Acc (ParentStep s) v
  explored : st.issues.hasErrors = false → Explored s st.colors above st.stack

theorem Explored.mono {colors colors' : EntryId → Option Color}
    (hcolors : ∀ v, colors v = some .black → colors' v = some .black) :
    ∀ {stack : List (EntryId × List EntryId)} {above : Option EntryId},
      Explored s colors above stack → Explored s colors' above stack
  | [], _, _ => trivial
  | _ :: _, _, ⟨htop, hbelow⟩ =>
      ⟨fun child hchild => (htop child hchild).imp_right (Or.imp_left (hcolors child)),
        hbelow.mono hcolors⟩

/-- The frame above the stack is done: its entry is black from now on. -/
theorem Explored.done {colors : EntryId → Option Color} {v : EntryId}
    {stack : List (EntryId × List EntryId)} (h : Explored s colors (some v) stack) :
    Explored s (Function.update colors v (some .black)) none stack := by
  have hcolors : ∀ w, colors w = some .black →
      Function.update colors v (some .black) w = some .black := by
    intro w hw
    by_cases heq : w = v
    · rw [heq, Function.update_self]
    · rw [Function.update_of_ne heq, hw]
  cases stack with
  | nil => trivial
  | cons f below =>
      obtain ⟨htop, hbelow⟩ := h
      refine ⟨fun child hchild => ?_, hbelow.mono hcolors⟩
      rcases htop child hchild with hrest | hblack | habove
      · exact .inl hrest
      · exact .inr (.inl (hcolors child hblack))
      · obtain rfl := Option.some.inj habove
        exact .inr (.inl (Function.update_self ..))

theorem DfsInv.no_white_frame {above : Option EntryId} {st : DfsState} (h : DfsInv s above st)
    {v : EntryId} (hcolor : st.colors v = some .white) : v ∉ st.stack.map Prod.fst := by
  intro hmem
  rw [(h.gray v).mpr hmem] at hcolor
  cases hcolor

theorem DfsInv.child_of_top {above : Option EntryId} {st : DfsState} (h : DfsInv s above st)
    {top child : EntryId} {others : List EntryId} {below : List (EntryId × List EntryId)}
    (hstack : st.stack = (top, child :: others) :: below) : ParentStep s child top :=
  h.rest (top, child :: others) (hstack ▸ List.mem_cons_self) child List.mem_cons_self

/-- Painting a white entry gray and putting it on the stack. -/
theorem DfsInv.enter {st : DfsState} {v : EntryId} (h : DfsInv s (some v) st)
    (hcolor : st.colors v = some .white)
    (hparent : ∀ top ∈ (st.stack.map Prod.fst).head?, ParentStep s v top) :
    DfsInv s none { colors := Function.update st.colors v (some .gray)
                    stack := (v, childrenOf s v) :: st.stack, issues := st.issues } := by
  have hblack : ∀ w, st.colors w = some .black →
      Function.update st.colors v (some .gray) w = some .black := by
    intro w hw
    have hne : w ≠ v := fun heq => by
      rw [heq, hcolor] at hw
      cases hw
    rw [Function.update_of_ne hne, hw]
  refine ⟨fun w => ?_, List.nodup_cons.mpr ⟨h.no_white_frame hcolor, h.nodup⟩, fun w hw => ?_,
    ?_, ?_, fun herrors w hw => ?_, fun herrors => ⟨fun child hchild => ?_, ?_⟩⟩
  · show Function.update st.colors v _ w = _ ↔ w ∈ v :: st.stack.map Prod.fst
    rw [List.mem_cons]
    by_cases heq : w = v
    · simp [heq]
    · rw [Function.update_of_ne heq, h.gray w]
      simp [heq]
  · show Function.update st.colors v _ w ≠ none
    by_cases heq : w = v
    · simp [heq]
    · rw [Function.update_of_ne heq]
      exact h.colored w hw
  · exact h.chain.cons hparent
  · exact List.forall_mem_cons.mpr ⟨fun child => mem_childrenOf.mp, h.rest⟩
  · refine h.acc herrors w ?_
    change Function.update st.colors v _ w = _ at hw
    by_cases heq : w = v
    · rw [heq, Function.update_self] at hw
      cases hw
    · rwa [Function.update_of_ne heq] at hw
  · exact .inl (mem_childrenOf.mpr hchild)
  · exact (h.explored herrors).mono hblack

/-- Going past one child of the top frame leaves the colours alone. -/
theorem DfsInv.pass {st : DfsState} (h : DfsInv s none st) {top child : EntryId}
    {others : List EntryId} {below : List (EntryId × List EntryId)}
    (hstack : st.stack = (top, child :: others) :: below) {issues : ValidationReport}
    {above : Option EntryId} (hissues : issues.hasErrors = false → st.issues.hasErrors = false)
    (hdone : issues.hasErrors = false → st.colors child = some .black ∨ above = some child) :
    DfsInv s above
      { colors := st.colors, stack := (top, others) :: below, issues := issues } := by
  obtain ⟨hgray, hnodup, hcolored, hchain, hrest, hblack, hexplored⟩ := h
  rw [hstack] at hgray hnodup hchain hrest hexplored
  refine ⟨hgray, hnodup, hcolored, hchain, ?_, fun herrors => hblack (hissues herrors), ?_⟩
  · obtain ⟨htop, hbelow⟩ := List.forall_mem_cons.mp hrest
    exact List.forall_mem_cons.mpr ⟨fun c hc => htop c (List.mem_cons_of_mem _ hc), hbelow⟩
  · intro herrors
    obtain ⟨htop, hbelow⟩ := hexplored (hissues herrors)
    refine ⟨fun c hc => ?_, hbelow⟩
    rcases htop c hc with hmem | hblack | habove
    · rcases List.mem_cons.mp hmem with rfl | hmem
      · exact .inr (hdone herrors)
      · exact .inl hmem
    · exact .inr (.inl hblack)
    · cases habove

/-- Taking a frame off whose children are all done. -/
theorem DfsInv.leave {st : DfsState} (h : DfsInv s none st) {top : EntryId}
    {below : List (EntryId × List EntryId)} (hstack : st.stack = (top, []) :: below)
    {issues : ValidationReport} (hissues : issues.hasErrors = st.issues.hasErrors) :
    DfsInv s none { colors := Function.update st.colors top (some .black), stack := below
                    issues := issues } := by
  obtain ⟨hgray, hnodup, hcolored, hchain, hrest, hblack, hexplored⟩ := h
  rw [hstack] at hgray hnodup hchain hrest hexplored
  obtain ⟨htop, hnodup⟩ := List.nodup_cons.mp hnodup
  refine ⟨fun w => ?_, hnodup, fun w hw => ?_, hchain.tail,
    (List.forall_mem_cons.mp hrest).2, fun herrors w hw => ?_, fun herrors => ?_⟩
  · show Function.update st.colors top _ w = _ ↔ _
    by_cases heq : w = top
    · rw [heq, Function.update_self]
      exact ⟨nofun, fun hmem => absurd hmem htop⟩
    · rw [Function.update_of_ne heq, hgray w, List.map_cons, List.mem_cons]
      exact or_iff_right heq
  · show Function.update st.colors top _ w ≠ none
    by_cases heq : w = top
    · simp [heq]
    · rw [Function.update_of_ne heq]
      exact hcolored w hw
  · change issues.hasErrors = false at herrors
    change Function.update st.colors top _ w = _ at hw
    rw [hissues] at herrors
    by_cases heq : w = top
    · rw [heq]
      refine .intro top fun child hchild => hblack herrors child ?_
      rcases (hexplored herrors).1 child hchild with hmem | hdone | habove
      · cases hmem
      · exact hdone
      · cases habove
    · exact hblack herrors w (by rwa [Function.update_of_ne heq] at hw)
  · exact (hexplored (hissues ▸ herrors)).2.done

/-- The search keeps its invariant. -/
theorem DfsMove.inv {st st' : DfsState} (hmove : DfsMove s st st') (h : DfsInv s none st) :
    DfsInv s none st' := by
  cases hmove with
  | pop hstack hissues => exact h.leave hstack hissues
  | @skip top child others below issues hstack hcolor hissues =>
      refine h.pass hstack (fun herrors => hissues ▸ herrors) fun _ => .inl ?_
      exact hcolor.resolve_left (h.colored child (h.child_of_top hstack).mem)
  | cycle hstack hcolor hissues =>
      refine h.pass hstack (fun herrors => ?_) fun herrors => ?_
      all_goals
        rw [hissues] at herrors
        cases herrors
  | @push top child others below issues hstack hcolor hissues =>
      have hpass : DfsInv s (some child)
          { colors := st.colors, stack := (top, others) :: below, issues := issues } :=
        h.pass hstack (fun herrors => hissues ▸ herrors) fun _ => .inr rfl
      refine hpass.enter hcolor fun v hv => ?_
      obtain rfl := Option.some.inj hv
      exact h.child_of_top hstack

/-! ## Every search ends -/

/-- The entries not yet met. -/
def whites (s : Snapshot) (colors : EntryId → Option Color) : Finset EntryId :=
  (entryIds s).toFinset.filter fun v => colors v = some .white

/-- The turns an entry takes: one for each child, and one to leave it. -/
def visit (s : Snapshot) (v : EntryId) : Nat := (childrenOf s v).length + 1

/-- The turns still to come. -/
def work (s : Snapshot) (st : DfsState) : Nat :=
  (st.stack.map fun f => f.2.length + 1).sum + ∑ v ∈ whites s st.colors, visit s v

theorem whites_update {colors : EntryId → Option Color} {v : EntryId} {color : Color}
    (hcolor : color ≠ .white) :
    whites s (Function.update colors v (some color)) = (whites s colors).erase v := by
  ext w
  rw [Finset.mem_erase, whites, whites, Finset.mem_filter, Finset.mem_filter]
  by_cases heq : w = v
  · simp [heq, hcolor]
  · simp [heq]

theorem mem_whites {colors : EntryId → Option Color} {v : EntryId} :
    v ∈ whites s colors ↔ v ∈ entryIds s ∧ colors v = some .white := by
  rw [whites, Finset.mem_filter, List.mem_toFinset]

theorem DfsMove.work_lt {st st' : DfsState} (hmove : DfsMove s st st') (h : DfsInv s none st) :
    work s st' < work s st := by
  cases hmove with
  | @pop top below issues hstack hissues =>
      have hle := Finset.sum_le_sum_of_subset (f := visit s)
        (Finset.erase_subset top (whites s st.colors))
      simp only [work, hstack, List.map_cons, List.sum_cons, List.length_nil]
      rw [whites_update (by decide)]
      omega
  | skip hstack hcolor hissues =>
      simp only [work, hstack, List.map_cons, List.sum_cons, List.length_cons]
      omega
  | cycle hstack hcolor hissues =>
      simp only [work, hstack, List.map_cons, List.sum_cons, List.length_cons]
      omega
  | @push top child others below issues hstack hcolor hissues =>
      have hmem : child ∈ whites s st.colors :=
        mem_whites.mpr ⟨(h.child_of_top hstack).mem, hcolor⟩
      have hsum := Finset.add_sum_erase _ (visit s) hmem
      rw [visit] at hsum
      simp only [work, hstack, List.map_cons, List.sum_cons, List.length_cons]
      rw [whites_update (by decide)]
      omega

/-- No entry is the child of two. -/
theorem sum_childrenOf_le (S : Finset EntryId) (l : List FileEntry) :
    ∑ v ∈ S, (l.filter fun e => e.parentId ≠ 0 ∧ e.parentId = v).length ≤ l.length := by
  induction l with
  | nil => simp
  | cons e l ih =>
      have hone : ∑ v ∈ S, (if e.parentId ≠ 0 ∧ e.parentId = v then 1 else 0) ≤ 1 := by
        rw [← Finset.card_filter]
        refine Finset.card_le_one.mpr fun a ha b hb => ?_
        rw [← (Finset.mem_filter.mp ha).2.2, (Finset.mem_filter.mp hb).2.2]
      calc ∑ v ∈ S, ((e :: l).filter fun e => e.parentId ≠ 0 ∧ e.parentId = v).length
          = ∑ v ∈ S, ((l.filter fun e => e.parentId ≠ 0 ∧ e.parentId = v).length +
              if e.parentId ≠ 0 ∧ e.parentId = v then 1 else 0) := by
            refine Finset.sum_congr rfl fun v _ => ?_
            by_cases hparent : e.parentId ≠ 0 ∧ e.parentId = v
            · rw [if_pos hparent, List.filter_cons_of_pos (by rwa [decide_eq_true_eq]),
                List.length_cons]
            · rw [if_neg hparent, List.filter_cons_of_neg (by rwa [decide_eq_true_eq]),
                Nat.add_zero]
        _ ≤ l.length + 1 := by
            rw [Finset.sum_add_distrib]
            exact Nat.add_le_add ih hone

/-- `dfsFuel` covers every entry and every child. -/
theorem work_start_le (colors : EntryId → Option Color) :
    ∑ v ∈ whites s colors, visit s v ≤ dfsFuel s := by
  have hcard : (whites s colors).card ≤ s.entries.length := by
    calc (whites s colors).card
        ≤ (entryIds s).toFinset.card := Finset.card_filter_le _ _
      _ ≤ (entryIds s).length := List.toFinset_card_le _
      _ = s.entries.length := List.length_map ..
  have hchildren : ∑ v ∈ whites s colors, (childrenOf s v).length ≤ s.entries.length := by
    simp only [childrenOf, List.length_map]
    exact sum_childrenOf_le _ _
  simp only [visit, Finset.sum_add_distrib, Finset.sum_const, smul_eq_mul, mul_one]
  rw [dfsFuel]
  omega

/-! ## A run from one entry, and from all -/

theorem update_ne_white {colors : EntryId → Option Color} {v : EntryId}
    (h : colors v ≠ some .white) (w : EntryId) {color : Color} (hcolor : color ≠ .white) :
    Function.update colors w (some color) v ≠ some .white := by
  by_cases heq : v = w
  · rw [heq, Function.update_self]
    exact fun h => hcolor (Option.some.inj h)
  · rwa [Function.update_of_ne heq]

/-- An entry met is never white again. -/
theorem DfsMove.met {st st' : DfsState} (hmove : DfsMove s st st') {v : EntryId}
    (h : st.colors v ≠ some .white) : st'.colors v ≠ some .white := by
  cases hmove with
  | pop => exact update_ne_white h _ (by decide)
  | skip => exact h
  | cycle => exact h
  | push => exact update_ne_white h _ (by decide)

theorem dfsRun_nil {st : DfsState} (hstack : st.stack = []) (fuel : Nat) :
    dfsRun s fuel st = st := by
  cases fuel with
  | zero => rfl
  | succ fuel => rw [dfsRun, hstack, List.isEmpty_nil, if_pos rfl]

theorem dfsRun_cons {st : DfsState} (hstack : st.stack ≠ []) (fuel : Nat) :
    dfsRun s (fuel + 1) st = dfsRun s fuel (dfsStep s st) := by
  rw [dfsRun, if_neg (by rwa [List.isEmpty_iff])]

/-- A run with the fuel for its work empties the stack, keeps the invariant, and turns no
entry white. -/
theorem dfsRun_spec : ∀ {fuel : Nat} {st : DfsState}, DfsInv s none st → work s st ≤ fuel →
    DfsInv s none (dfsRun s fuel st) ∧ (dfsRun s fuel st).stack = [] ∧
      ∀ v, st.colors v ≠ some .white → (dfsRun s fuel st).colors v ≠ some .white := by
  intro fuel
  induction fuel with
  | zero =>
      intro st h hwork
      cases hstack : st.stack with
      | nil => exact ⟨h, hstack, fun _ hv => hv⟩
      | cons f below =>
          rw [work, hstack, List.map_cons, List.sum_cons] at hwork
          omega
  | succ fuel ih =>
      intro st h hwork
      by_cases hstack : st.stack = []
      · rw [dfsRun_nil hstack]
        exact ⟨h, hstack, fun _ hv => hv⟩
      · have hmove := dfsStep_move (s := s) hstack
        rw [dfsRun_cons hstack]
        obtain ⟨hinv, hnil, hmet⟩ := ih (hmove.inv h)
          (Nat.le_of_lt_succ (Nat.lt_of_lt_of_le (hmove.work_lt h) hwork))
        exact ⟨hinv, hnil, fun v hv => hmet v (hmove.met hv)⟩

/-- Between two searches. -/
def Rested (s : Snapshot) (st : DfsState) : Prop := DfsInv s none st ∧ st.stack = []

/-- The first turn of a search, on an entry not met so far. -/
def dfsEnter (s : Snapshot) (st : DfsState) (v : EntryId) : DfsState :=
  { st.paint v .gray with stack := [(v, childrenOf s v)] }

theorem Rested.enter {st : DfsState} (h : Rested s st) {v : EntryId}
    (hcolor : st.colors v = some .white) : DfsInv s none (dfsEnter s st v) := by
  obtain ⟨⟨hgray, hnodup, hcolored, hchain, hrest, hblack, -⟩, hnil⟩ := h
  have habove : DfsInv s (some v) st :=
    ⟨hgray, hnodup, hcolored, hchain, hrest, hblack, fun _ => hnil ▸ trivial⟩
  have henter := habove.enter hcolor (hnil ▸ nofun)
  rwa [hnil] at henter

theorem dfsFrom_spec {st : DfsState} (h : Rested s st) {e : FileEntry} (he : e ∈ s.entries) :
    Rested s (dfsFrom s st e) ∧ (dfsFrom s st e).colors e.id ≠ some .white ∧
      ∀ v, st.colors v ≠ some .white → (dfsFrom s st e).colors v ≠ some .white := by
  rw [dfsFrom]
  split
  case isTrue hcolor => exact ⟨h, hcolor, fun _ hv => hv⟩
  case isFalse hcolor =>
      have hwhite : st.colors e.id = some .white := not_not.mp hcolor
      have hmem : e.id ∈ whites s st.colors := mem_whites.mpr ⟨List.mem_map_of_mem he, hwhite⟩
      have hwork : work s (dfsEnter s st e.id) ≤ dfsFuel s := by
        have hsum := Finset.add_sum_erase _ (visit s) hmem
        have hle := work_start_le (s := s) st.colors
        rw [visit] at hsum
        simp only [work, dfsEnter, DfsState.paint, List.map_cons, List.map_nil, List.sum_cons,
          List.sum_nil]
        rw [whites_update (by decide)]
        omega
      obtain ⟨hinv, hnil, hmet⟩ := dfsRun_spec (h.enter hwhite) hwork
      refine ⟨⟨hinv, hnil⟩, hmet _ ?_, fun v hv => hmet v (update_ne_white hv _ (by decide))⟩
      show Function.update st.colors e.id _ e.id ≠ _
      rw [Function.update_self]
      decide

/-- After the searches from all the entries, every entry has been met. -/
theorem dfsFold_spec : ∀ {l : List FileEntry} {st : DfsState}, Rested s st →
    (∀ e ∈ l, e ∈ s.entries) →
    Rested s (l.foldl (dfsFrom s) st) ∧
      (∀ e ∈ l, (l.foldl (dfsFrom s) st).colors e.id ≠ some .white) ∧
      ∀ v, st.colors v ≠ some .white → (l.foldl (dfsFrom s) st).colors v ≠ some .white := by
  intro l
  induction l with
  | nil => exact fun h _ => ⟨h, nofun, fun _ hv => hv⟩
  | cons e l ih =>
      intro st h hl
      obtain ⟨he, hl⟩ := List.forall_mem_cons.mp hl
      obtain ⟨hfrom, hself, hmet⟩ := dfsFrom_spec h he
      obtain ⟨hrested, hall, hlater⟩ := ih hfrom hl
      exact ⟨hrested, List.forall_mem_cons.mpr ⟨hlater _ hself, hall⟩,
        fun v hv => hlater v (hmet v hv)⟩

def dfsInit (s : Snapshot) : DfsState where
  colors := fun id => if s.entries.any (fun e => e.id = id) then some .white else none
  stack := []

theorem rested_init : Rested s (dfsInit s) := by
  have hcolors : ∀ v color, (dfsInit s).colors v = some color → color = .white := by
    intro v color h
    rw [dfsInit] at h
    dsimp only at h
    split at h
    · exact (Option.some.inj h).symm
    · cases h
  refine ⟨⟨fun v => ⟨fun hv => ?_, nofun⟩, .nil, fun v hv => ?_, .nil, nofun, fun _ v hv => ?_,
    fun _ => trivial⟩, rfl⟩
  · cases hcolors v _ hv
  · obtain ⟨e, he, rfl⟩ := List.mem_map.mp hv
    rw [dfsInit]
    dsimp only
    rw [if_pos (List.any_eq_true.mpr ⟨e, he, decide_eq_true rfl⟩)]
    nofun
  · cases hcolors v _ hv

/-! ## Cycles -/

/-- Nothing is its own ancestor. -/
def Acyclic (s : Snapshot) : Prop := ∀ v, ¬ TransGen (ParentStep s) v v

theorem irrefl_of_acc {α : Type} {r : α → α → Prop} {a : α} (h : Acc r a) : ¬ r a a := by
  induction h with
  | intro a _ ih => exact fun haa => ih a haa haa

/-- A gray child would be its own ancestor. -/
theorem DfsMove.keeps_ok {st st' : DfsState} (hmove : DfsMove s st st') (h : DfsInv s none st)
    (hacyclic : Acyclic s) : st'.issues.hasErrors = st.issues.hasErrors := by
  cases hmove with
  | pop _ hissues => exact hissues
  | skip _ _ hissues => exact hissues
  | push _ _ hissues => exact hissues
  | @cycle top child others below issues hstack hcolor hissues =>
      exfalso
      have hchild : ParentStep s child top := h.child_of_top hstack
      have hmem := (h.gray child).mp hcolor
      have hchain := h.chain
      rw [hstack, List.map_cons] at hmem hchain
      rcases List.mem_cons.mp hmem with rfl | hmem
      · exact hacyclic _ (.single hchild)
      · have habove := (hchain.imp fun _ _ => TransGen.single).rel_cons hmem
        exact hacyclic child (.head hchild habove)

theorem dfsRun_keeps_ok (hacyclic : Acyclic s) : ∀ {fuel : Nat} {st : DfsState},
    DfsInv s none st → (dfsRun s fuel st).issues.hasErrors = st.issues.hasErrors := by
  intro fuel
  induction fuel with
  | zero => exact fun _ => rfl
  | succ fuel ih =>
      intro st h
      by_cases hstack : st.stack = []
      · rw [dfsRun_nil hstack]
      · have hmove := dfsStep_move (s := s) hstack
        rw [dfsRun_cons hstack, ih (hmove.inv h), hmove.keeps_ok h hacyclic]

theorem dfsFold_keeps_ok (hacyclic : Acyclic s) : ∀ {l : List FileEntry} {st : DfsState},
    Rested s st → (∀ e ∈ l, e ∈ s.entries) →
    (l.foldl (dfsFrom s) st).issues.hasErrors = st.issues.hasErrors := by
  intro l
  induction l with
  | nil => exact fun _ _ => rfl
  | cons e l ih =>
      intro st h hl
      obtain ⟨he, hl⟩ := List.forall_mem_cons.mp hl
      rw [List.foldl_cons, ih (dfsFrom_spec h he).1 hl, dfsFrom]
      split
      case isTrue => rfl
      case isFalse hcolor => exact dfsRun_keeps_ok hacyclic (h.enter (not_not.mp hcolor))

theorem ancestor_mem {v w : EntryId} (h : TransGen (ParentStep s) v w) : v ∈ entryIds s := by
  induction h using TransGen.head_induction_on with
  | single h => exact h.mem
  | head h _ _ => exact h.mem

/-- **The search reports an error exactly when following parent ids can cycle.** -/
theorem dfsIssues_ok : (dfsIssues s).hasErrors = false ↔ Acyclic s := by
  obtain ⟨⟨hinv, hnil⟩, hmet, -⟩ :=
    dfsFold_spec (rested_init (s := s)) (l := s.entries) fun _ he => he
  constructor
  · intro hok v hcycle
    -- An entry met is black when no search is under way, so nothing infinite is below it.
    obtain ⟨e, he, rfl⟩ := List.mem_map.mp (ancestor_mem hcycle)
    have hblack : (s.entries.foldl (dfsFrom s) (dfsInit s)).colors e.id = some .black := by
      cases hcolor : (s.entries.foldl (dfsFrom s) (dfsInit s)).colors e.id with
      | none => exact absurd hcolor (hinv.colored _ (List.mem_map_of_mem he))
      | some color =>
          cases color with
          | white => exact absurd hcolor (hmet e he)
          | gray =>
              have hmem := (hinv.gray _).mp hcolor
              rw [hnil] at hmem
              cases hmem
          | black => rfl
    exact irrefl_of_acc (hinv.acc hok _ hblack).transGen hcycle
  · intro hacyclic
    exact dfsFold_keeps_ok hacyclic rested_init fun _ he => he

end ServerStorage.Muninn
