/-
# `ServerStorage.Lib.Runs` — runs of a machine that answers events

A machine is a function from a state and an event to the next state, or none where the
event cannot happen.  What every step keeps, every run keeps (`runs_keeps`); and where a
property is lost by certain steps and by no others, the runs that keep it are those without
such steps (`eachState_iff_eachStep`).
-/
import Mathlib.Data.List.Basic
import Mathlib.Data.List.Induction
import Mathlib.Data.Option.Basic

namespace Lib

section
variable {σ ε : Type} (step : σ → ε → Option σ)

/-- The state the events lead to, if all of them can happen. -/
def runs : σ → List ε → Option σ
  | s, [] => some s
  | s, event :: events => (step s event).bind fun s' => runs s' events

/-- What holds of every state on the way. -/
def EachState (start : σ) (events : List ε) (P : σ → Prop) : Prop :=
  ∀ pre post s, events = pre ++ post → runs step start pre = some s → P s

/-- What holds of every step on the way. -/
def EachStep (start : σ) (events : List ε) (P : σ → ε → Prop) : Prop :=
  ∀ pre event post s s', events = pre ++ event :: post → runs step start pre = some s →
    step s event = some s' → P s event

variable {step}

theorem runs_append : ∀ {start : σ} {pre post : List ε},
    runs step start (pre ++ post) = (runs step start pre).bind fun s => runs step s post
  | _, [], _ => rfl
  | start, first :: pre, post => by
      show (step start first).bind _ = ((step start first).bind _).bind _
      cases step start first with
      | none => rfl
      | some next => exact runs_append

theorem runs_concat {event : ε} : ∀ {start : σ} {pre : List ε},
    runs step start (pre ++ [event]) = (runs step start pre).bind fun s => step s event
  | start, [] => by
      show (step start event).bind some = step start event
      exact Option.bind_fun_some (step start event)
  | start, first :: pre => by
      show (step start first).bind _ = ((step start first).bind _).bind _
      cases step start first with
      | none => rfl
      | some next => exact runs_concat

/-- What every step keeps, every run keeps. -/
theorem runs_keeps {I : σ → Prop} (hstep : ∀ {s event s'}, I s → step s event = some s' → I s') :
    ∀ {start s : σ} {events : List ε}, I start → runs step start events = some s → I s
  | start, s, [], hI, h => by
      obtain rfl := Option.some.inj h
      exact hI
  | start, s, event :: events, hI, h => by
      obtain ⟨next, hnext, hrest⟩ := Option.bind_eq_some_iff.mp h
      exact runs_keeps hstep (hstep hI hnext) hrest

/-- What each step of a run keeps, of the events so far and the state they led to, holds
throughout. -/
theorem runs_keeps_at {start : σ} {events : List ε} {I : List ε → σ → Prop} (hstart : I [] start)
    (hkeeps : ∀ pre event post s s', events = pre ++ event :: post →
      runs step start pre = some s → I pre s → step s event = some s' → I (pre ++ [event]) s') :
    ∀ pre post s, events = pre ++ post → runs step start pre = some s → I pre s := by
  intro pre
  induction pre using List.reverseRecOn with
  | nil =>
      intro post s _ hrun
      obtain rfl := Option.some.inj hrun
      exact hstart
  | append_singleton pre event ih =>
      intro post s' hevents hrun
      rw [runs_concat] at hrun
      obtain ⟨s, hbefore, hstep⟩ := Option.bind_eq_some_iff.mp hrun
      rw [List.append_assoc] at hevents
      exact hkeeps pre event post s s' hevents hbefore (ih _ s hevents hbefore) hstep

variable (step) in
/-- Whether all steps of a run pass a check. -/
def stepsPass (check : σ → ε → Bool) : σ → List ε → Bool
  | _, [] => true
  | s, event :: events =>
      check s event && (step s event).all fun s' => stepsPass check s' events

theorem eachStep_of_stepsPass {check : σ → ε → Bool} : ∀ {start : σ} {events : List ε},
    stepsPass step check start events = true →
      EachStep step start events fun s event => check s event = true := by
  intro start events h pre
  induction pre generalizing start events with
  | nil =>
      intro event post s s' hevents hrun _
      obtain rfl := Option.some.inj hrun
      rw [hevents] at h
      exact ((Bool.and_eq_true _ _).mp h).1
  | cons first pre ih =>
      intro event post s s' hevents hrun hstep
      rw [hevents] at h
      obtain ⟨next, hnext, hrest⟩ := Option.bind_eq_some_iff.mp hrun
      have hpass := ((Bool.and_eq_true _ _).mp h).2
      rw [hnext] at hpass
      exact ih hpass event post s s' rfl hrest hstep

/-- A run split at its last step. -/
theorem runs_concat_some {start s' : σ} {pre : List ε} {event : ε}
    (h : runs step start (pre ++ [event]) = some s') :
    ∃ s, runs step start pre = some s ∧ step s event = some s' := by
  rw [runs_concat] at h
  exact Option.bind_eq_some_iff.mp h

/-- Let every step keep `I`, and a step from a state with `P` keep `P` exactly when it
spares it.  Then the runs with `P` throughout are those in which every step spares it. -/
theorem eachState_iff_eachStep {I P : σ → Prop} {Spares : σ → ε → Prop} {start : σ}
    {events : List ε} (hI : I start) (hP : P start)
    (hkeeps : ∀ {s event s'}, I s → step s event = some s' → I s')
    (hspares : ∀ {s event s'}, I s → P s → step s event = some s' → (P s' ↔ Spares s event)) :
    EachState step start events P ↔ EachStep step start events Spares := by
  constructor
  · intro h pre event post s s' hevents hrun hstep
    have hafter : runs step start (pre ++ [event]) = some s' := by
      rw [runs_concat, hrun]
      exact hstep
    have hsplit : events = (pre ++ [event]) ++ post := by
      rw [hevents, List.append_assoc]
      rfl
    exact (hspares (runs_keeps hkeeps hI hrun) (h pre _ s hevents hrun) hstep).mp
      (h _ post s' hsplit hafter)
  · intro h pre
    induction pre using List.reverseRecOn with
    | nil =>
        intro post s _ hrun
        obtain rfl := Option.some.inj hrun
        exact hP
    | append_singleton pre event ih =>
        intro post s' hevents hrun
        obtain ⟨s, hbefore, hstep⟩ := runs_concat_some hrun
        rw [List.append_assoc] at hevents
        exact (hspares (runs_keeps hkeeps hI hbefore) (ih _ s hevents hbefore) hstep).mpr
          (h pre event post s s' hevents hbefore hstep)

end

/-! ## Sums over places -/

section
variable {α β : Type} [DecidableEq β] {f : α → List β}

/-- One element put for another changes the count by what the two hold. -/
theorem count_flatMap_set (x : β) (a' : α) : ∀ {l : List α} {i : Nat} {a : α}, l[i]? = some a →
    ((l.set i a').flatMap f).count x + (f a).count x =
      (l.flatMap f).count x + (f a').count x
  | [], i, a, h => by
      cases h
  | b :: l, 0, a, h => by
      obtain rfl := Option.some.inj h
      rw [List.set_cons_zero, List.flatMap_cons, List.flatMap_cons, List.count_append,
        List.count_append]
      omega
  | b :: l, i + 1, a, h => by
      have ih := count_flatMap_set x a' (show l[i]? = some a from h)
      rw [List.set_cons_succ, List.flatMap_cons, List.flatMap_cons, List.count_append,
        List.count_append]
      omega

end

end Lib
