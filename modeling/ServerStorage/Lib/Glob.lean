/-
# `ServerStorage.Lib.Glob` — patterns with stars, and the one star to go back to

A pattern is a list of symbols, some of which are stars.  A symbol may accept a character;
a star that does not accept the next one stands for any number of characters.  A matcher
that reads from left to right has to go back to its last star only: what the symbols since
then could match further on, the star could have let pass (`Globs.absorb`).
-/
import ServerStorage.Lib.Bytes

namespace Lib.Glob

variable {κ α : Type} {accepts : κ → α → Bool} {star : κ → Bool}

/-- `Globs accepts star pattern text`: a symbol that accepts the next character takes it. -/
inductive Globs (accepts : κ → α → Bool) (star : κ → Bool) : List κ → List α → Prop
  | nil : Globs accepts star [] []
  | one {c : κ} {d : α} {pattern : List κ} {text : List α} : accepts c d = true →
      Globs accepts star pattern text → Globs accepts star (c :: pattern) (d :: text)
  | many {c : κ} {pattern : List κ} {text rest : List α} : star c = true →
      (∀ d ∈ text.head?, accepts c d = false) → rest <:+ text →
      Globs accepts star pattern rest → Globs accepts star (c :: pattern) text

theorem globs_nil {text : List α} : Globs accepts star [] text ↔ text = [] := by
  constructor
  · intro h
    cases h
    rfl
  · rintro rfl
    exact .nil

theorem globs_accepts {c : κ} {d : α} {pattern : List κ} {text : List α}
    (h : accepts c d = true) :
    Globs accepts star (c :: pattern) (d :: text) ↔ Globs accepts star pattern text := by
  constructor
  · intro hg
    cases hg with
    | one _ hg => exact hg
    | many _ hnot _ _ => exact absurd h (Bool.eq_false_iff.mp (hnot d rfl))
  · exact .one h

theorem globs_star {c : κ} {pattern : List κ} {text : List α} (hstar : star c = true)
    (hnot : ∀ d ∈ text.head?, accepts c d = false) :
    Globs accepts star (c :: pattern) text ↔
      ∃ rest, rest <:+ text ∧ Globs accepts star pattern rest := by
  constructor
  · intro hg
    cases hg with
    | one haccepts _ => exact absurd haccepts (Bool.eq_false_iff.mp (hnot _ rfl))
    | many _ _ hrest hg => exact ⟨_, hrest, hg⟩
  · rintro ⟨rest, hrest, hg⟩
    exact .many hstar hnot hrest hg

theorem not_globs_other {c : κ} {d : α} {pattern : List κ} {text : List α}
    (hnot : accepts c d = false) (hstar : star c = false) :
    ¬ Globs accepts star (c :: pattern) (d :: text) := by
  intro hg
  cases hg with
  | one haccepts _ => exact absurd haccepts (Bool.eq_false_iff.mp hnot)
  | many htrue _ _ _ => exact absurd htrue (Bool.eq_false_iff.mp hstar)

/-- At the end of the text only stars may be left. -/
theorem globs_end {pattern : List κ} :
    Globs accepts star pattern [] ↔ ∀ c ∈ pattern, star c = true := by
  induction pattern with
  | nil => exact ⟨fun _ _ h => absurd h List.not_mem_nil, fun _ => .nil⟩
  | cons c pattern ih =>
      rw [List.forall_mem_cons, ← ih]
      constructor
      · intro hg
        cases hg with
        | many hstar _ hrest hg => exact ⟨hstar, List.suffix_nil.mp hrest ▸ hg⟩
      · rintro ⟨hstar, hg⟩
        exact .many hstar (fun d hd => by cases hd) List.suffix_rfl hg

/-- A symbol that is passed leaves a suffix. -/
theorem Globs.tail {c : κ} {pattern : List κ} {text : List α}
    (h : Globs accepts star (c :: pattern) text) :
    ∃ rest, rest <:+ text ∧ Globs accepts star pattern rest := by
  cases h with
  | one _ hg => exact ⟨_, List.suffix_cons _ _, hg⟩
  | many _ _ hrest hg => exact ⟨_, hrest, hg⟩

/-- Where `read` has been taken symbol by symbol: if the pattern matches from somewhere further on,
then the symbols that are left match from somewhere in the text that is left. -/
theorem Globs.absorb {symbols pattern : List κ} {read text rest : List α}
    (hread : List.Forall₂ (fun c d => accepts c d = true) symbols read)
    (hrest : rest <:+ read ++ text) (h : Globs accepts star (symbols ++ pattern) rest) :
    ∃ rest', rest' <:+ text ∧ Globs accepts star pattern rest' := by
  induction hread generalizing rest with
  | nil => exact ⟨rest, hrest, h⟩
  | @cons c d symbols read haccepts _ ih =>
      rw [List.cons_append] at hrest h
      rcases List.suffix_cons_iff.mp hrest with rfl | hlater
      · exact ih List.suffix_rfl ((globs_accepts haccepts).mp h)
      · obtain ⟨rest', hrest', hg⟩ := h.tail
        exact ih (hrest'.trans hlater) hg

end Lib.Glob
