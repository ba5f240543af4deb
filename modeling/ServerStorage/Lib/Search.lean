/-
# `ServerStorage.Lib.Search` — the first occurrence of a text

`behind` is what stands behind the first occurrence of a pattern.  In a text of fields
between separators, a pattern without the separator is found in the first field that has
it.
-/
import ServerStorage.Lib.Bytes

namespace Lib

/-- `find` of a text in a text. -/
def find (pattern : Str) : Str → Option Nat
  | [] => if pattern = [] then some 0 else none
  | c :: rest =>
      if pattern.isPrefixOf (c :: rest) then some 0 else (find pattern rest).map (· + 1)

/-- What stands behind the first occurrence of a pattern. -/
def behind (pattern text : Str) : Option Str :=
  (find pattern text).map fun position => text.drop (position + pattern.length)

section
variable {pattern : Str} {sep : UInt8}

theorem behind_nil (h : pattern ≠ []) : behind pattern [] = none := by
  rw [behind, find, if_neg h]
  rfl

theorem behind_cons (c : UInt8) (rest : Str) :
    behind pattern (c :: rest) =
      if pattern.isPrefixOf (c :: rest) then some ((c :: rest).drop pattern.length)
      else behind pattern rest := by
  rw [behind, find]
  split
  · rw [Option.map_some, Nat.zero_add]
  · rw [Option.map_map, behind]
    refine congrArg (fun f => (find pattern rest).map f) (funext fun position => ?_)
    show (c :: rest).drop (position + 1 + pattern.length) = rest.drop (position + pattern.length)
    rw [Nat.add_right_comm, List.drop_succ_cons]

/-- A pattern that begins the text is found there. -/
theorem behind_append (h : pattern ≠ []) (rest : Str) :
    behind pattern (pattern ++ rest) = some rest := by
  obtain ⟨c, cs, rfl⟩ := List.exists_cons_of_ne_nil h
  rw [List.cons_append, behind_cons, ← List.cons_append,
    if_pos (List.isPrefixOf_iff_prefix.mpr (List.prefix_append _ _)), List.drop_left]

theorem behind_subset : ∀ {text rest : Str}, behind pattern text = some rest → rest ⊆ text := by
  intro text rest h
  obtain ⟨position, -, rfl⟩ := Option.map_eq_some_iff.mp h
  exact List.drop_subset _ _

/-- A separator ends what a pattern without it can begin. -/
theorem isPrefixOf_append_sep : ∀ {pattern a b : Str}, sep ∉ pattern →
    pattern.isPrefixOf (a ++ sep :: b) = pattern.isPrefixOf a
  | [], _, _, _ => by rw [List.isPrefixOf, List.isPrefixOf]
  | x :: p, [], b, h => by
      have hne : (x == sep) = false :=
        beq_eq_false_iff_ne.mpr fun heq => h (heq ▸ List.mem_cons_self)
      show (x == sep && p.isPrefixOf b) = false
      rw [hne, Bool.false_and]
  | x :: p, y :: a, b, h => by
      rw [List.cons_append, List.isPrefixOf, List.isPrefixOf,
        isPrefixOf_append_sep fun hp => h (List.mem_cons_of_mem _ hp)]

theorem behind_append_sep (hne : pattern ≠ []) (h : sep ∉ pattern) (b : Str) : ∀ a : Str,
    behind pattern (a ++ sep :: b) =
      match behind pattern a with
      | some rest => some (rest ++ sep :: b)
      | none => behind pattern b
  | [] => by
      obtain ⟨x, p, rfl⟩ := List.exists_cons_of_ne_nil hne
      have hsep : (x :: p).isPrefixOf (sep :: b) = false := isPrefixOf_append_sep (a := []) h
      rw [behind_nil hne, List.nil_append, behind_cons, hsep, if_neg Bool.false_ne_true]
  | c :: a => by
      have ih := behind_append_sep hne h b a
      rw [List.cons_append, behind_cons, behind_cons, ← List.cons_append, isPrefixOf_append_sep h]
      by_cases hprefix : pattern.isPrefixOf (c :: a) = true
      · have hlength := (List.isPrefixOf_iff_prefix.mp hprefix).length_le
        rw [if_pos hprefix, if_pos hprefix, List.drop_append_of_le_length hlength]
      · rw [if_neg hprefix, if_neg hprefix, ih]

theorem intercalate_cons {a b : Str} {l : List Str} :
    [sep].intercalate (a :: b :: l) = a ++ sep :: [sep].intercalate (b :: l) := by
  simp [List.intercalate]

theorem takeWhile_field {rest b : Str} (h : sep ∉ rest) :
    (rest ++ sep :: b).takeWhile (· ≠ sep) = rest := by
  have hall : ∀ c ∈ rest, decide (c ≠ sep) = true := fun c hc => decide_eq_true fun heq =>
    h (heq ▸ hc)
  rw [List.takeWhile_append_of_pos hall, List.takeWhile_cons_of_neg (by simp), List.append_nil]

/-- The first field in which the pattern is found, from there on. -/
theorem behind_intercalate (hne : pattern ≠ []) (h : sep ∉ pattern) : ∀ {fields : List Str},
    (∀ field ∈ fields, sep ∉ field) →
      (behind pattern ([sep].intercalate fields)).map (List.takeWhile (· ≠ sep)) =
        fields.findSome? (behind pattern)
  | [], _ => by
      have hnil : [sep].intercalate [] = ([] : Str) := rfl
      rw [hnil, behind_nil hne]
      rfl
  | [a], hfields => by
      have hone : [sep].intercalate [a] = a := by simp [List.intercalate]
      rw [hone, List.findSome?_cons, List.findSome?_nil]
      cases hbehind : behind pattern a with
      | none => rfl
      | some rest =>
          have hrest : sep ∉ rest := fun hmem =>
            hfields a List.mem_cons_self (behind_subset hbehind hmem)
          rw [Option.map_some]
          exact congrArg some (List.takeWhile_eq_self_iff.mpr fun c hc =>
            decide_eq_true fun heq => hrest (heq ▸ hc))
  | a :: a' :: l, hfields => by
      have htail : ∀ field ∈ a' :: l, sep ∉ field := fun field hfield =>
        hfields field (List.mem_cons_of_mem _ hfield)
      have ih := behind_intercalate hne h htail
      rw [intercalate_cons, behind_append_sep hne h, List.findSome?_cons]
      cases hbehind : behind pattern a with
      | none => exact ih
      | some rest =>
          have hrest : sep ∉ rest := fun hmem =>
            hfields a List.mem_cons_self (behind_subset hbehind hmem)
          exact congrArg some (takeWhile_field hrest)

end

end Lib
