/-
# `ServerStorage.Lib.Handlers` — rules for computations that may raise

Partial correctness of a computation with a state that an exception may leave: what holds
of its value and of the state where it ends without one (`Ends`), and what holds of the
state however it is left (`Keeps`).  Each rule takes one construct apart, from the front.
-/
import Mathlib.Logic.Basic

namespace Lib

section
variable {ε σ α β : Type}

/-- From the state `s` on the computation raises, or ends with `Q`. -/
def Ends (x : ExceptT ε (StateM σ) α) (s : σ) (Q : α → σ → Prop) : Prop :=
  ∀ a s', x.run.run s = (.ok a, s') → Q a s'

namespace Ends

variable {x : ExceptT ε (StateM σ) α} {s : σ} {Q R : α → σ → Prop}

theorem mono (h : Ends x s Q) (hQ : ∀ a s', Q a s' → R a s') : Ends x s R :=
  fun a s' hrun => hQ a s' (h a s' hrun)

theorem pure {a : α} (h : Q a s) : Ends (pure a : ExceptT ε (StateM σ) α) s Q := by
  intro a' s' hrun
  obtain ⟨ha, rfl⟩ := Prod.mk.inj (show (Except.ok a, s) = (Except.ok a', s') from hrun)
  exact Except.ok.inj ha ▸ h

theorem throw {e : ε} : Ends (throw e : ExceptT ε (StateM σ) α) s Q := by
  intro a' s' hrun
  exact nomatch (Prod.mk.inj (show (Except.error e, s) = (Except.ok a', s') from hrun)).1

theorem bind {f : α → ExceptT ε (StateM σ) β} {Q : β → σ → Prop}
    (h : Ends x s fun a s' => Ends (f a) s' Q) : Ends (x >>= f) s Q := by
  intro b s'' hrun
  rw [ExceptT.run_bind, StateT.run_bind] at hrun
  cases hx : x.run.run s with
  | mk result s' =>
      rw [hx] at hrun
      cases result with
      | error e => exact nomatch (Prod.mk.inj (show (Except.error e, s') = _ from hrun)).1
      | ok a => exact h a s' hx b s'' hrun

theorem get {Q : σ → σ → Prop} (h : Q s s) : Ends (get : ExceptT ε (StateM σ) σ) s Q := by
  intro a s' hrun
  obtain ⟨ha, rfl⟩ := Prod.mk.inj (show (Except.ok s, s) = (Except.ok a, s') from hrun)
  exact Except.ok.inj ha ▸ h

theorem modify {f : σ → σ} {Q : Unit → σ → Prop} (h : Q () (f s)) :
    Ends (modify f : ExceptT ε (StateM σ) Unit) s Q := by
  intro a s' hrun
  obtain ⟨-, rfl⟩ := Prod.mk.inj (show (Except.ok (), f s) = (Except.ok a, s') from hrun)
  exact h

theorem ite {c : Prop} [Decidable c] {y : ExceptT ε (StateM σ) α} (h : c → Ends x s Q)
    (h' : ¬ c → Ends y s Q) : Ends (if c then x else y) s Q := by
  split
  next hc => exact h hc
  next hc => exact h' hc

/-- A loop keeps what each round keeps. -/
theorem forM {I : σ → Prop} {f : β → ExceptT ε (StateM σ) Unit}
    (hf : ∀ b s, I s → Ends (f b) s fun _ => I) :
    ∀ {items : List β} {s : σ}, I s → Ends (items.forM f) s fun _ => I
  | [], _, h => Ends.pure h
  | b :: _, s, h => Ends.bind ((hf b s h).mono fun _ _ h' => forM hf h')

/-- The same where a round needs its item to be one of those looped over. -/
theorem forM_mem {I : σ → Prop} {f : β → ExceptT ε (StateM σ) Unit} :
    ∀ {items : List β} {s : σ}, (∀ b ∈ items, ∀ s, I s → Ends (f b) s fun _ => I) → I s →
      Ends (items.forM f) s fun _ => I
  | [], _, _, h => Ends.pure h
  | b :: _, s, hf, h => by
      refine Ends.bind ((hf b List.mem_cons_self s h).mono fun _ _ h' => ?_)
      exact forM_mem (fun b hmem => hf b (List.mem_cons_of_mem _ hmem)) h'

end Ends

/-- Whatever the computation does, it leaves `I` as it found it. -/
def Keeps (I : σ → Prop) (x : ExceptT ε (StateM σ) α) : Prop := ∀ s, I s → I (x.run.run s).2

namespace Keeps

variable {I : σ → Prop} {x : ExceptT ε (StateM σ) α}

theorem pure {a : α} : Keeps I (pure a : ExceptT ε (StateM σ) α) := fun _ h => h

theorem throw {e : ε} : Keeps I (throw e : ExceptT ε (StateM σ) α) := fun _ h => h

theorem get : Keeps I (get : ExceptT ε (StateM σ) σ) := fun _ h => h

theorem modify {f : σ → σ} (h : ∀ s, I s → I (f s)) :
    Keeps I (modify f : ExceptT ε (StateM σ) Unit) := h

theorem bind {f : α → ExceptT ε (StateM σ) β} (hx : Keeps I x) (hf : ∀ a, Keeps I (f a)) :
    Keeps I (x >>= f) := by
  intro s h
  have hafter := hx s h
  rw [ExceptT.run_bind, StateT.run_bind]
  cases hrun : x.run.run s with
  | mk result s' =>
      rw [hrun] at hafter
      cases result with
      | error e => exact hafter
      | ok a => exact hf a s' hafter

theorem ite {c : Prop} [Decidable c] {y : ExceptT ε (StateM σ) α} (h : Keeps I x)
    (h' : Keeps I y) : Keeps I (if c then x else y) := by
  split
  · exact h
  · exact h'

end Keeps

end

end Lib
