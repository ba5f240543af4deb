/-
# `ServerStorage.Muninn.Wildcard` — `wildcard_match` of `filesystem/filesystem_scanner.cpp`

The indices of the source are the parts of pattern and text behind them.  A `*` of the
pattern meets the test for an equal character before the test for a star, so that at a `*`
of the text it stands for that one character.
-/
import ServerStorage.Lib.Glob

namespace ServerStorage.Muninn

open Lib Glob

/-- `std::tolower` in the C locale. -/
def toLower (c : UInt8) : UInt8 := if 65 ≤ c ∧ c ≤ 90 then c + 32 else c

def charEqual (caseSensitive : Bool) (lhs rhs : UInt8) : Bool :=
  if caseSensitive then lhs == rhs else toLower lhs == toLower rhs

/-- `*` and `?`. -/
def starChar : UInt8 := 42
def anyChar : UInt8 := 63

/-- The last branch of the loop: back to the last star, which lets one more character pass. -/
def retry (star : Option (Str × Str)) (loop : Str → Str → Option (Str × Str) → Option Bool) :
    Option Bool :=
  match star with
  | some (starPattern, _ :: starText) => loop starPattern starText (some (starPattern, starText))
  | _ => some false

/-- The loop; `star` is the pattern behind the last star and the text it was saved with. -/
def wildcardLoop (caseSensitive : Bool) : Nat → Str → Str → Option (Str × Str) → Option Bool
  | 0, _, _, _ => none
  | _ + 1, pattern, [], _ => some (pattern.dropWhile fun c => c == starChar).isEmpty
  | fuel + 1, c :: pattern, d :: text, star =>
      if c = anyChar ∨ charEqual caseSensitive c d then
        wildcardLoop caseSensitive fuel pattern text star
      else if c = starChar then
        wildcardLoop caseSensitive fuel pattern (d :: text) (some (pattern, d :: text))
      else retry star (wildcardLoop caseSensitive fuel)
  | fuel + 1, [], _ :: _, star => retry star (wildcardLoop caseSensitive fuel)

/-- More steps than the loop takes. -/
def wildcardFuel (pattern text : Str) : Nat :=
  (text.length + 2) * (pattern.length + text.length + 1)

def wildcardMatch (pattern text : Str) (caseSensitive : Bool) : Bool :=
  (wildcardLoop caseSensitive (wildcardFuel pattern text) pattern text none).getD false

/-! ## The language of a glob -/

/-- `*` stands for any sequence, `?` for one character, every other character for itself. -/
inductive InLanguage (caseSensitive : Bool) : Str → Str → Prop
  | nil : InLanguage caseSensitive [] []
  | star {pattern part text : Str} : InLanguage caseSensitive pattern text →
      InLanguage caseSensitive (starChar :: pattern) (part ++ text)
  | any {pattern text : Str} {d : UInt8} : InLanguage caseSensitive pattern text →
      InLanguage caseSensitive (anyChar :: pattern) (d :: text)
  | char {pattern text : Str} {c d : UInt8} : c ≠ starChar → c ≠ anyChar →
      charEqual caseSensitive c d = true → InLanguage caseSensitive pattern text →
      InLanguage caseSensitive (c :: pattern) (d :: text)

def acceptsChar (caseSensitive : Bool) (c d : UInt8) : Bool :=
  c == anyChar || charEqual caseSensitive c d

def isStar (c : UInt8) : Bool := c == starChar

/-- As in the language, but a `*` of the pattern that comes to a `*` of the text stands for
that one character. -/
def InLanguageApart (caseSensitive : Bool) : Str → Str → Prop :=
  Globs (acceptsChar caseSensitive) isStar

section
variable {caseSensitive : Bool} {pattern text : Str} {c d : UInt8}

theorem charEqual_star : charEqual caseSensitive starChar d = true ↔ d = starChar := by
  cases caseSensitive with
  | true => exact beq_iff_eq.trans eq_comm
  | false =>
      rw [charEqual, if_neg Bool.false_ne_true, beq_iff_eq, toLower, toLower]
      constructor
      · intro h
        rw [if_neg (by decide)] at h
        split at h
        next hupper =>
          have htoNat := congrArg UInt8.toNat h
          rw [UInt8.toNat_add] at htoNat
          have hlow := UInt8.le_iff_toNat_le.mp hupper.1
          have hhigh := UInt8.le_iff_toNat_le.mp hupper.2
          simp only [starChar, UInt8.reduceToNat] at htoNat hlow hhigh
          omega
        next => exact h.symm
      · rintro rfl
        rfl

theorem acceptsChar_star : acceptsChar caseSensitive starChar d = true ↔ d = starChar := by
  rw [acceptsChar, Bool.or_eq_true, charEqual_star, or_iff_right (by decide)]

/-! ## The loop -/

/-- What the loop has read since its last star. -/
def Since (caseSensitive : Bool) (pattern text : Str) (star : Option (Str × Str)) : Prop :=
  ∀ saved ∈ star, ∃ symbols read, saved.1 = symbols ++ pattern ∧ saved.2 = read ++ text ∧
    List.Forall₂ (fun c d => acceptsChar caseSensitive c d = true) symbols read

/-- Match here, or further on from the last star. -/
def Answer (caseSensitive : Bool) (pattern text : Str) (star : Option (Str × Str)) : Prop :=
  InLanguageApart caseSensitive pattern text ∨
    ∃ saved ∈ star, ∃ rest, rest <:+ saved.2.tail ∧ InLanguageApart caseSensitive saved.1 rest

theorem Since.fresh (pattern text : Str) : Since caseSensitive pattern text (some (pattern, text)) := by
  rintro saved ⟨⟩
  exact ⟨[], [], rfl, rfl, .nil⟩

theorem Since.read {star : Option (Str × Str)} (h : Since caseSensitive (c :: pattern) (d :: text) star)
    (haccepts : acceptsChar caseSensitive c d = true) : Since caseSensitive pattern text star := by
  intro saved hsaved
  obtain ⟨symbols, read, hpattern, htext, hall⟩ := h saved hsaved
  refine ⟨symbols ++ [c], read ++ [d], ?_, ?_, ?_⟩
  · rw [hpattern, List.append_assoc, List.singleton_append]
  · rw [htext, List.append_assoc, List.singleton_append]
  · exact List.rel_append hall (.cons haccepts .nil)

/-- What the last star could match further on, the rest of the pattern matches from here on. -/
theorem Since.absorb {saved : Str × Str} {rest : Str} {star : Option (Str × Str)}
    (h : Since caseSensitive pattern text star) (hsaved : saved ∈ star)
    (hrest : rest <:+ saved.2.tail) (hglobs : InLanguageApart caseSensitive saved.1 rest) :
    ∃ rest', rest' <:+ text ∧ InLanguageApart caseSensitive pattern rest' := by
  obtain ⟨symbols, read, hpattern, htext, hall⟩ := h saved hsaved
  rw [hpattern] at hglobs
  exact Globs.absorb hall (htext ▸ hrest.trans (List.tail_suffix _)) hglobs

theorem acceptsChar_iff : acceptsChar caseSensitive c d = true ↔
    c = anyChar ∨ charEqual caseSensitive c d = true := by
  rw [acceptsChar, Bool.or_eq_true, beq_iff_eq]

/-- The symbol takes the next character. -/
theorem answer_read {star : Option (Str × Str)} (haccepts : acceptsChar caseSensitive c d = true) :
    Answer caseSensitive (c :: pattern) (d :: text) star ↔
      Answer caseSensitive pattern text star :=
  or_congr_left (globs_accepts haccepts)

/-- A star is saved: it can do what the star before it could. -/
theorem answer_save {star : Option (Str × Str)}
    (h : Since caseSensitive (starChar :: pattern) (d :: text) star)
    (hnot : acceptsChar caseSensitive starChar d = false) :
    Answer caseSensitive (starChar :: pattern) (d :: text) star ↔
      Answer caseSensitive pattern (d :: text) (some (pattern, d :: text)) := by
  have hhead : ∀ d' ∈ (d :: text).head?, acceptsChar caseSensitive starChar d' = false := by
    rintro d' ⟨⟩
    exact hnot
  have hstar : InLanguageApart caseSensitive (starChar :: pattern) (d :: text) ↔
      Answer caseSensitive pattern (d :: text) (some (pattern, d :: text)) := by
    refine (globs_star rfl hhead).trans ?_
    constructor
    · rintro ⟨rest, hrest, hglobs⟩
      rcases List.suffix_cons_iff.mp hrest with rfl | hlater
      · exact .inl hglobs
      · exact .inr ⟨_, rfl, rest, hlater, hglobs⟩
    · rintro (hglobs | ⟨saved, ⟨⟩, rest, hrest, hglobs⟩)
      · exact ⟨_, List.suffix_rfl, hglobs⟩
      · exact ⟨rest, hrest.trans (List.suffix_cons _ _), hglobs⟩
  rw [← hstar]
  refine ⟨fun hanswer => ?_, .inl⟩
  rcases hanswer with hglobs | ⟨saved, hsaved, rest, hrest, hglobs⟩
  · exact hglobs
  · obtain ⟨rest', hrest', hglobs'⟩ := h.absorb hsaved hrest hglobs
    obtain ⟨rest'', hrest'', hglobs''⟩ := hglobs'.tail
    exact (globs_star rfl hhead).mpr ⟨rest'', hrest''.trans hrest', hglobs''⟩

/-- Back to the last star, which lets one more character pass. -/
theorem answer_back {starPattern starText : Str} {d' : UInt8}
    (hnot : ¬ InLanguageApart caseSensitive pattern text) :
    Answer caseSensitive pattern text (some (starPattern, d' :: starText)) ↔
      Answer caseSensitive starPattern starText (some (starPattern, starText)) := by
  rw [Answer, or_iff_right hnot]
  constructor
  · rintro ⟨saved, ⟨⟩, rest, hrest, hglobs⟩
    cases starText with
    | nil =>
        rw [List.suffix_nil.mp hrest] at hglobs
        exact .inl hglobs
    | cons e starText =>
        rcases List.suffix_cons_iff.mp hrest with rfl | hlater
        · exact .inl hglobs
        · exact .inr ⟨_, rfl, rest, hlater, hglobs⟩
  · rintro (hglobs | ⟨saved, ⟨⟩, rest, hrest, hglobs⟩)
    · exact ⟨_, rfl, _, List.suffix_rfl, hglobs⟩
    · exact ⟨_, rfl, rest, hrest.trans (List.tail_suffix _), hglobs⟩

/-- At the end of the text the last star is of no more use. -/
theorem answer_end {star : Option (Str × Str)} (h : Since caseSensitive pattern [] star) :
    Answer caseSensitive pattern [] star ↔
      (pattern.dropWhile fun c => c == starChar).isEmpty = true := by
  have hend : InLanguageApart caseSensitive pattern [] ↔
      (pattern.dropWhile fun c => c == starChar).isEmpty = true := by
    rw [List.isEmpty_iff, List.dropWhile_eq_nil_iff]
    exact globs_end
  rw [← hend]
  refine ⟨fun hanswer => ?_, .inl⟩
  rcases hanswer with hglobs | ⟨saved, hsaved, rest, hrest, hglobs⟩
  · exact hglobs
  · obtain ⟨rest', hrest', hglobs'⟩ := h.absorb hsaved hrest hglobs
    exact List.suffix_nil.mp hrest' ▸ hglobs'

/-- What bounds the loop: the characters its last star may still let pass, and what is left of
pattern and text. -/
structure Within (width left fuel : Nat) (pattern text : Str) (star : Option (Str × Str)) : Prop where
  fits : pattern.length + text.length ≤ width
  behind : text.length ≤ left
  saved : ∀ s ∈ star, s.2.length = left ∧ s.1.length + s.2.length ≤ width
  steps : left * (width + 1) + pattern.length + text.length < fuel

/-- A step back to the last star stays within the bound. -/
theorem Within.back {width left fuel : Nat} {starPattern starText : Str} {d' : UInt8}
    (h : Within width left (fuel + 1) pattern text (some (starPattern, d' :: starText))) :
    ∃ left', Within width left' fuel starPattern starText (some (starPattern, starText)) := by
  obtain ⟨hleft, hwidth⟩ := h.saved _ rfl
  have hfuel := h.steps
  simp only [List.length_cons] at hleft hwidth
  subst hleft
  rw [Nat.succ_mul] at hfuel
  refine ⟨starText.length, by omega, le_rfl, ?_, by omega⟩
  rintro saved ⟨⟩
  exact ⟨rfl, by dsimp only; omega⟩

/-- The loop ends with the answer. -/
theorem wildcardLoop_answer {width left fuel : Nat} {star : Option (Str × Str)}
    (hwithin : Within width left fuel pattern text star)
    (hsince : Since caseSensitive pattern text star) :
    ∃ answer, wildcardLoop caseSensitive fuel pattern text star = some answer ∧
      (answer = true ↔ Answer caseSensitive pattern text star) := by
  induction fuel generalizing pattern text star left with
  | zero => exact absurd hwithin.steps (Nat.not_lt_zero _)
  | succ fuel ih =>
      have hback : ∀ {pattern text : Str} {star : Option (Str × Str)} {left : Nat},
          Within width left (fuel + 1) pattern text star → text ≠ [] →
          Since caseSensitive pattern text star → ¬ InLanguageApart caseSensitive pattern text →
          ∃ answer, retry star (wildcardLoop caseSensitive fuel) = some answer ∧
            (answer = true ↔ Answer caseSensitive pattern text star) := by
        intro pattern text star left hwithin htext hsince hnot
        match star with
        | none =>
            refine ⟨false, rfl, fun h => absurd h Bool.false_ne_true, ?_⟩
            rintro (hglobs | ⟨saved, hsaved, -⟩)
            · exact absurd hglobs hnot
            · cases hsaved
        | some (starPattern, []) =>
            obtain ⟨symbols, read, -, heq, -⟩ := hsince _ rfl
            exact absurd (List.append_eq_nil_iff.mp heq.symm).2 htext
        | some (starPattern, d' :: starText) =>
            obtain ⟨left', hwithin'⟩ := hwithin.back
            obtain ⟨answer, hanswer, hiff⟩ := ih hwithin' (.fresh _ _)
            exact ⟨answer, hanswer, hiff.trans (answer_back hnot).symm⟩
      match pattern, text with
      | pattern, [] =>
          cases pattern with
          | nil => exact ⟨_, rfl, (answer_end hsince).symm⟩
          | cons c pattern => exact ⟨_, rfl, (answer_end hsince).symm⟩
      | [], d :: text =>
          exact hback hwithin (List.cons_ne_nil _ _) hsince fun h =>
            absurd (globs_nil.mp h) (List.cons_ne_nil _ _)
      | c :: pattern, d :: text =>
          have hwidth := hwithin.fits
          have hleft := hwithin.behind
          have hfuel := hwithin.steps
          simp only [List.length_cons] at hwidth hleft hfuel
          rw [wildcardLoop]
          split
          next haccepts =>
            replace haccepts := acceptsChar_iff.mpr haccepts
            rw [answer_read haccepts]
            exact ih ⟨by omega, by omega, hwithin.saved, by omega⟩ (hsince.read haccepts)
          next hrefuses =>
            replace hrefuses := Bool.eq_false_iff.mpr (mt acceptsChar_iff.mp hrefuses)
            split
            next hstar =>
              subst hstar
              rw [answer_save hsince hrefuses]
              refine ih ⟨?_, le_rfl, ?_, ?_⟩ (.fresh _ _)
              · simp only [List.length_cons]
                omega
              · rintro saved ⟨⟩
                exact ⟨rfl, by simp only [List.length_cons]; omega⟩
              · have hmul := Nat.mul_le_mul_right (width + 1) hleft
                simp only [List.length_cons]
                omega
            next hother =>
              refine hback hwithin (List.cons_ne_nil _ _) hsince (not_globs_other hrefuses ?_)
              exact beq_eq_false_iff_ne.mpr hother

/-- The matcher decides the language in which a star at a `*` of the text stands for it. -/
theorem wildcardMatch_iff :
    wildcardMatch pattern text caseSensitive = true ↔ InLanguageApart caseSensitive pattern text := by
  have hwithin : Within (pattern.length + text.length) text.length (wildcardFuel pattern text)
      pattern text none := by
    refine ⟨le_rfl, le_rfl, (fun _ h => by cases h), ?_⟩
    rw [wildcardFuel, Nat.succ_mul, Nat.succ_mul]
    omega
  obtain ⟨answer, hanswer, hiff⟩ := @wildcardLoop_answer caseSensitive _ _ _ _ _ none hwithin
    fun _ h => by cases h
  rw [wildcardMatch, hanswer, Option.getD_some, hiff, Answer]
  refine or_iff_left ?_
  rintro ⟨saved, hsaved, -⟩
  cases hsaved

/-! ## The language and the matcher -/

theorem InLanguageApart.inLanguage (h : InLanguageApart caseSensitive pattern text) :
    InLanguage caseSensitive pattern text := by
  induction h with
  | nil => exact .nil
  | @one c d pattern text haccepts _ ih =>
      by_cases hany : c = anyChar
      · rw [hany]
        exact .any ih
      · by_cases hstar : c = starChar
        · rw [hstar]
          exact @InLanguage.star _ _ [d] _ ih
        · exact .char hstar hany ((acceptsChar_iff.mp haccepts).resolve_left hany) ih
  | many hstar _ hrest _ ih =>
      obtain ⟨part, rfl⟩ := hrest
      rw [beq_iff_eq.mp hstar]
      exact .star ih

/-- In a text without `*` the two languages are one. -/
theorem InLanguage.apart (h : InLanguage caseSensitive pattern text) (hplain : starChar ∉ text) :
    InLanguageApart caseSensitive pattern text := by
  induction h with
  | nil => exact .nil
  | @star pattern part text _ ih =>
      refine .many rfl ?_ (List.suffix_append _ _) (ih fun h => hplain (List.mem_append_right _ h))
      intro d hd
      refine Bool.eq_false_iff.mpr fun haccepts => hplain ?_
      exact acceptsChar_star.mp haccepts ▸ List.mem_of_mem_head? hd
  | any _ ih =>
      exact .one (acceptsChar_iff.mpr (.inl rfl)) (ih fun h => hplain (List.mem_cons_of_mem _ h))
  | char _ _ hequal _ ih =>
      exact .one (acceptsChar_iff.mpr (.inr hequal)) (ih fun h => hplain (List.mem_cons_of_mem _ h))

theorem wildcardMatch_plain (hplain : starChar ∉ text) :
    wildcardMatch pattern text caseSensitive = true ↔ InLanguage caseSensitive pattern text :=
  wildcardMatch_iff.trans ⟨InLanguageApart.inLanguage, fun h => h.apart hplain⟩

/-- The matcher decides the language of the glob exactly where a text that is in it is in it with
every `*` of the pattern that comes to a `*` standing for that one. -/
theorem wildcardMatch_exact (pattern text : Str) (caseSensitive : Bool) :
    (wildcardMatch pattern text caseSensitive = true ↔ InLanguage caseSensitive pattern text) ↔
      (InLanguage caseSensitive pattern text → InLanguageApart caseSensitive pattern text) := by
  rw [wildcardMatch_iff]
  exact ⟨fun h => h.mpr, fun h => ⟨InLanguageApart.inLanguage, h⟩⟩

/-- `*` does not match `*a`. -/
theorem wildcardMatch_starred : ¬ ∀ (pattern text : Str) (caseSensitive : Bool),
    wildcardMatch pattern text caseSensitive = true ↔ InLanguage caseSensitive pattern text := by
  intro h
  have hin : InLanguage true (str "*") (str "*a") := @InLanguage.star _ _ (str "*a") _ .nil
  exact absurd ((h (str "*") (str "*a") true).mpr hin) (by decide)

example : wildcardMatch (str "a*b?") (str "aXbYbc") false = true := by decide

end

end ServerStorage.Muninn
