/-
# `ServerStorage.Lib.Index` — an index under a sequence of moves

An index maps keys to ids.  A move takes an id from one key to another in two
steps: the old key is dropped, then the new key is set.  A sequence of moves
done this way is not a simultaneous substitution: a later move that drops the
key an earlier one has just set loses that id (`applyAll_new`).

When the moves are made in the order of their old keys, which key is lost can
be read off the moves themselves: the target `m.new` of a move is lost exactly
when it is the old key of another move and lies above `m.old`.
-/
import ServerStorage.Lib.Bytes

namespace Lib.Index

variable {κ ι : Type}

structure Move (κ ι : Type) where
  old : κ
  new : κ
  id : ι

section
variable [DecidableEq κ]

/-- Drop the old key, then set the new one. -/
def Move.apply (f : κ → Option ι) (m : Move κ ι) : κ → Option ι :=
  fun p => if p = m.new then some m.id else if p = m.old then none else f p

def applyAll (f : κ → Option ι) (ms : List (Move κ ι)) : κ → Option ι :=
  ms.foldl Move.apply f

/-- A key that no move targets is dropped if some move starts from it. -/
theorem applyAll_other {p : κ} : ∀ {ms : List (Move κ ι)} {f : κ → Option ι},
    (∀ m ∈ ms, m.new ≠ p) →
      applyAll f ms p = if ∃ m ∈ ms, m.old = p then none else f p
  | [], f, _ => by simp [applyAll]
  | m :: ms, f, h => by
      have hm : p ≠ m.new := fun hp => h m List.mem_cons_self hp.symm
      have ih := applyAll_other (f := m.apply f) fun m' hm' => h m' (List.mem_cons_of_mem _ hm')
      simp only [applyAll, List.foldl_cons] at ih ⊢
      rw [ih]
      simp only [Move.apply, hm, if_false, List.mem_cons, exists_eq_or_imp, eq_comm (a := p)]
      by_cases hold : m.old = p <;> simp [hold]

/-- The target of a move keeps its id unless another move, made later, starts
from it; with the moves in the order of their old keys, "later" is `<`. -/
theorem applyAll_new [Preorder κ] [DecidableLT κ] : ∀ {ms : List (Move κ ι)} {f : κ → Option ι} {m : Move κ ι},
    ms.Pairwise (fun a b => a.old < b.old) → (ms.map Move.new).Nodup → m ∈ ms →
      applyAll f ms m.new =
        if ∃ m' ∈ ms, m'.old = m.new ∧ m.old < m.new then none else some m.id
  | [], _, _, _, _, hm => nomatch hm
  | a :: ms, f, m, hsorted, hnew, hm => by
      obtain ⟨hlt, hsorted⟩ := List.pairwise_cons.mp hsorted
      simp only [List.map_cons, List.nodup_cons, List.mem_map, not_exists, not_and] at hnew
      rcases List.mem_cons.mp hm with rfl | hms
      · -- the first move: every later one starts above it
        have hother : ∀ m' ∈ ms, m'.new ≠ m.new := fun m' hm' => hnew.1 m' hm'
        have happ := applyAll_other (f := m.apply f) hother
        simp only [applyAll, List.foldl_cons] at happ ⊢
        rw [happ]
        have hiff : (∃ m' ∈ ms, m'.old = m.new) ↔
            ∃ m' ∈ m :: ms, m'.old = m.new ∧ m.old < m.new := by
          constructor
          · rintro ⟨m', hm', he⟩
            exact ⟨m', List.mem_cons_of_mem _ hm', he, he ▸ hlt m' hm'⟩
          · rintro ⟨m', hm', he, hl⟩
            rcases List.mem_cons.mp hm' with rfl | hm'
            · exact absurd hl (he ▸ lt_irrefl _)
            · exact ⟨m', hm', he⟩
        simp only [hiff, Move.apply, if_true]
      · have ih := applyAll_new (f := a.apply f) hsorted hnew.2 hms
        simp only [applyAll, List.foldl_cons] at ih ⊢
        rw [ih]
        have hiff : (∃ m' ∈ ms, m'.old = m.new ∧ m.old < m.new) ↔
            ∃ m' ∈ a :: ms, m'.old = m.new ∧ m.old < m.new := by
          constructor
          · rintro ⟨m', hm', h⟩
            exact ⟨m', List.mem_cons_of_mem _ hm', h⟩
          · rintro ⟨m', hm', he, hl⟩
            rcases List.mem_cons.mp hm' with rfl | hm'
            · exact absurd (he ▸ hl) (not_lt_of_gt (hlt m hms))
            · exact ⟨m', hm', he, hl⟩
        simp only [hiff]

end

/-! ## Mutually inverse tables -/

/-- `byId` and `byKey` describe the same entries: every entry is found under its
own key, and every key leads to an entry that has it. -/
structure MutuallyInverse {ε : Type} (idOf : ε → ι) (key : ε → κ) (byId : ι → Option ε)
    (byKey : κ → Option ι) : Prop where
  forward : ∀ i e, byId i = some e → byKey (key e) = some (idOf e)
  backward : ∀ p i, byKey p = some i → ∃ e, byId i = some e ∧ key e = p

end Lib.Index
