/-
# `ServerStorage.Lib.Feed` — a feed that is acknowledged by a mark

A feed holds numbered records for one consumer.  The consumer is handed records, and says
how far it has come by a mark; what stands up to the mark may be dropped.  A mark is
`Covered` when every record up to it that is still held has been handed over.  If only
covered marks are given, a record leaves the feed after it was handed over and not before
(`Awaits.run`), whatever the order of the steps.
-/
import Mathlib.Data.Option.Basic
import Mathlib.Logic.Relation
import Mathlib.Order.Lattice

namespace Lib

open Relation

/-- Numbers below `next` are given out; `mark` is there once the consumer is known. -/
structure Feed (σ ρ : Type) where
  next : σ
  held : σ → Option ρ
  mark : Option σ
  handed : σ → ρ → Prop

namespace Feed

variable {σ ρ : Type} [LinearOrder σ] {f f' f'' : Feed σ ρ} {a b s : σ} {r : ρ}

structure Covered (f : Feed σ ρ) (a : σ) : Prop where
  below : a < f.next
  handed : ∀ s r, f.held s = some r → s ≤ a → f.handed s r

/-- The mark after one more was given: it is never taken back. -/
def marked (f : Feed σ ρ) (a : σ) : Option σ := some (f.mark.elim a fun m => max m a)

inductive Step (f : Feed σ ρ) : Feed σ ρ → Prop
  /-- A record is put under the next number. -/
  | enqueue {n : σ} {held : σ → Option ρ} : f.next < n → (∀ s, s ≠ f.next → held s = f.held s) →
      Step f { f with next := n, held := held }
  /-- Records are dropped; those beyond the mark are not. -/
  | forget {held : σ → Option ρ} : (∀ s r, held s = some r → f.held s = some r) →
      (∀ m, f.mark = some m → ∀ s r, f.held s = some r → m < s → held s = some r) →
      Step f { f with held := held }
  | hand {handed : σ → ρ → Prop} : (∀ s r, f.handed s r → handed s r) →
      Step f { f with handed := handed }
  | ack {a : σ} : f.Covered a → Step f { f with mark := f.marked a }

/-- A run of such steps. -/
abbrev Run : Feed σ ρ → Feed σ ρ → Prop := ReflTransGen Step

/-! ## Covered marks stay covered -/

/-- The later of two feeds: numbers are given out once, and what was handed over stays so. -/
structure Onward (f f' : Feed σ ρ) : Prop where
  next : f.next ≤ f'.next
  held : ∀ s r, s < f.next → f'.held s = some r → f.held s = some r
  handed : ∀ s r, f.handed s r → f'.handed s r

theorem Onward.refl (f : Feed σ ρ) : Onward f f :=
  ⟨le_rfl, fun _ _ _ h => h, fun _ _ h => h⟩

theorem Onward.trans (h : Onward f f') (h' : Onward f' f'') : Onward f f'' where
  next := h.next.trans h'.next
  held s r hs hheld := h.held s r hs (h'.held s r (hs.trans_le h.next) hheld)
  handed s r hhanded := h'.handed s r (h.handed s r hhanded)

theorem Step.onward (h : Step f f') : Onward f f' := by
  cases h with
  | enqueue hn hothers =>
      exact ⟨hn.le, fun s r hs hheld => (hothers s hs.ne).symm.trans hheld, fun _ _ h => h⟩
  | forget hsub _ => exact ⟨le_rfl, fun s r _ hheld => hsub s r hheld, fun _ _ h => h⟩
  | hand hsub => exact ⟨le_rfl, fun _ _ _ h => h, hsub⟩
  | ack _ => exact ⟨le_rfl, fun _ _ _ h => h, fun _ _ h => h⟩

theorem Run.onward (h : Run f f') : Onward f f' := by
  induction h with
  | refl => exact .refl f
  | tail _ hstep ih => exact ih.trans hstep.onward

theorem Covered.le (h : f.Covered a) (hle : b ≤ a) : f.Covered b where
  below := hle.trans_lt h.below
  handed s r hheld hs := h.handed s r hheld (hs.trans hle)

theorem Covered.onward (h : f.Covered a) (honward : Onward f f') : f'.Covered a where
  below := h.below.trans_le honward.next
  handed s r hheld hs := by
    have hbefore := honward.held s r (hs.trans_lt h.below) hheld
    exact honward.handed s r (h.handed s r hbefore hs)

theorem Covered.max (h : f.Covered a) (h' : f.Covered b) : f.Covered (max a b) := by
  rcases le_total a b with hle | hle
  · rw [max_eq_right hle]
    exact h'
  · rw [max_eq_left hle]
    exact h

/-! ## The mark -/

/-- The mark is covered. -/
def Sound (f : Feed σ ρ) : Prop := ∀ m, f.mark = some m → f.Covered m

theorem Sound.step (h : f.Sound) (hstep : Step f f') : f'.Sound := by
  intro m hm
  refine Covered.onward (f := f) ?_ hstep.onward
  cases hstep with
  | enqueue | forget | hand => exact h m hm
  | @ack a hcovered =>
      obtain rfl := Option.some.inj hm
      cases hmark : f.mark with
      | none => exact hcovered
      | some before => exact (h before hmark).max hcovered

theorem Sound.run (h : f.Sound) (hrun : Run f f') : f'.Sound := by
  induction hrun with
  | refl => exact h
  | tail _ hstep ih => exact ih.step hstep

/-! ## A record on its way -/

/-- The record was handed over, or it is held and beyond the mark. -/
structure Awaits (f : Feed σ ρ) (s : σ) (r : ρ) : Prop where
  known : f.mark ≠ none
  given : s < f.next
  awaits : f.handed s r ∨ f.held s = some r ∧ ∀ m, f.mark = some m → m < s

/-- A record that is held is on its way. -/
theorem Sound.awaits (h : f.Sound) (hknown : f.mark ≠ none) (hgiven : s < f.next)
    (hheld : f.held s = some r) : f.Awaits s r := by
  refine ⟨hknown, hgiven, ?_⟩
  obtain ⟨m, hm⟩ := Option.ne_none_iff_exists'.mp hknown
  rcases le_or_gt s m with hle | hlt
  · exact .inl ((h m hm).handed s r hheld hle)
  · refine .inr ⟨hheld, fun m' hm' => ?_⟩
    obtain rfl := Option.some.inj (hm.symm.trans hm')
    exact hlt

theorem Awaits.step (h : f.Awaits s r) (hsound : f.Sound) (hstep : Step f f') :
    f'.Awaits s r := by
  have hsound' := hsound.step hstep
  have honward := hstep.onward
  refine ⟨?_, h.given.trans_le honward.next, ?_⟩
  · cases hstep with
    | enqueue | forget | hand => exact h.known
    | ack => exact Option.some_ne_none _
  rcases h.awaits with hhanded | ⟨hheld, hbeyond⟩
  · exact .inl (honward.handed s r hhanded)
  cases hstep with
  | enqueue hn hothers => exact .inr ⟨(hothers s h.given.ne).trans hheld, hbeyond⟩
  | forget hsub hkeep =>
      obtain ⟨m, hm⟩ := Option.ne_none_iff_exists'.mp h.known
      exact .inr ⟨hkeep m hm s r hheld (hbeyond m hm), hbeyond⟩
  | hand hsub => exact .inr ⟨hheld, hbeyond⟩
  | @ack a hcovered =>
      -- The new mark is covered: a record it has passed was handed over.
      have hknown : ({ f with mark := f.marked a } : Feed σ ρ).mark ≠ none :=
        Option.some_ne_none _
      exact (hsound'.awaits hknown h.given hheld).awaits

/-- **A feed with covered marks loses nothing**: at any later time the record has been
handed over, or it is held still. -/
theorem Awaits.run (h : f.Awaits s r) (hsound : f.Sound) (hrun : Run f f') : f'.Awaits s r := by
  induction hrun with
  | refl => exact h
  | tail hbefore hstep ih => exact ih.step (hsound.run hbefore) hstep

end Feed

end Lib
