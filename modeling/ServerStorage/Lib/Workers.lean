/-
# `ServerStorage.Lib.Workers` — workers over a shared memory

Any number of workers run one program over a memory that all of them read and write.  A
step is one atomic move of one worker, so a run is an interleaving of their moves.  What a
run keeps is shown of one move: the worker that moved is put back among the others, and a
sum over all of them changes by what its own place weighs.
-/
import Mathlib.Algebra.BigOperators.Fin
import Mathlib.Algebra.Order.BigOperators.Group.Finset
import Mathlib.Logic.Relation

namespace Lib

open Relation

/-- The memory, and where each worker stands. -/
structure Workers (n : Nat) (Shared Place : Type) where
  shared : Shared
  place : Fin n → Place

namespace Workers

variable {n : Nat} {Shared Place : Type}

/-- All of them at one place. -/
def start (n : Nat) (shared : Shared) (place : Place) : Workers n Shared Place :=
  { shared := shared, place := fun _ => place }

/-- One worker has moved. -/
def moved (s : Workers n Shared Place) (w : Fin n) (shared : Shared) (place : Place) :
    Workers n Shared Place :=
  { shared := shared, place := Function.update s.place w place }

/-- One worker moves. -/
inductive Step (move : Shared → Place → Shared → Place → Prop) :
    Workers n Shared Place → Workers n Shared Place → Prop
  | move {s : Workers n Shared Place} (w : Fin n) {shared : Shared} {place : Place} :
      move s.shared (s.place w) shared place → Step move s (s.moved w shared place)

/-- Any interleaving of moves. -/
abbrev Run (move : Shared → Place → Shared → Place → Prop) :
    Workers n Shared Place → Workers n Shared Place → Prop :=
  ReflTransGen (Step move)

/-- One move more. -/
theorem Run.step {move : Shared → Place → Shared → Place → Prop} {s t : Workers n Shared Place}
    (h : Run move s t) (w : Fin n) {shared : Shared} {place place' : Place}
    (hplace : t.place w = place) (hmove : move t.shared place shared place') :
    Run move s (t.moved w shared place') := by
  subst hplace
  exact h.tail (.move w hmove)

/-- What every move keeps, every run keeps. -/
theorem Run.keeps {move : Shared → Place → Shared → Place → Prop}
    {Kept : Workers n Shared Place → Prop} {s t : Workers n Shared Place} (h : Run move s t)
    (hmove : ∀ {s : Workers n Shared Place} {w : Fin n} {shared : Shared} {place : Place},
      Kept s → move s.shared (s.place w) shared place → Kept (s.moved w shared place))
    (hs : Kept s) : Kept t := by
  induction h with
  | refl => exact hs
  | tail _ hstep ih =>
      cases hstep with
      | move w hw => exact hmove ih hw

/-- **What each move guarantees, a run guarantees.**  A worker may rely on the others to change
the memory only in the way it changes it itself. -/
theorem Run.guarantees {move : Shared → Place → Shared → Place → Prop}
    {Guarantee : Shared → Shared → Prop} {Good : Shared → Place → Prop}
    {s t : Workers n Shared Place} (h : Run move s t)
    (hrefl : ∀ shared, Guarantee shared shared)
    (htrans : ∀ {a b c}, Guarantee a b → Guarantee b c → Guarantee a c)
    (hrely : ∀ {a b place}, Guarantee a b → Good a place → Good b place)
    (hmove : ∀ {a b place place'}, Good a place → move a place b place' →
      Guarantee a b ∧ Good b place')
    (hs : ∀ w, Good s.shared (s.place w)) :
    Guarantee s.shared t.shared ∧ ∀ w, Good t.shared (t.place w) := by
  let Kept : Workers n Shared Place → Prop := fun t =>
    Guarantee s.shared t.shared ∧ ∀ w, Good t.shared (t.place w)
  have hstart : Kept s := ⟨hrefl _, hs⟩
  refine h.keeps ?_ hstart
  intro t w shared place ht hw
  obtain ⟨hguarantee, hgood⟩ := ht
  obtain ⟨hstep, hnext⟩ := hmove (hgood w) hw
  refine ⟨htrans hguarantee hstep, ?_⟩
  intro v
  show Good shared (Function.update t.place w place v)
  rcases eq_or_ne v w with rfl | hne
  · rwa [Function.update_self]
  · rw [Function.update_of_ne hne]
    exact hrely hstep (hgood v)

/-! ## Looking at less -/

section View
variable {Shared' Place' : Type} (f : Shared → Shared') (g : Place → Place')

/-- What is seen of the memory and of each place. -/
def view (s : Workers n Shared Place) : Workers n Shared' Place' where
  shared := f s.shared
  place w := g (s.place w)

theorem view_moved (s : Workers n Shared Place) (w : Fin n) (shared : Shared) (place : Place) :
    (s.moved w shared place).view f g = (s.view f g).moved w (f shared) (g place) := by
  have hplace : ((s.moved w shared place).view f g).place =
      ((s.view f g).moved w (f shared) (g place)).place := by
    funext v
    show g (Function.update s.place w place v) =
      Function.update (fun v => g (s.place v)) w (g place) v
    rcases eq_or_ne v w with rfl | hne
    · rw [Function.update_self, Function.update_self]
    · rw [Function.update_of_ne hne, Function.update_of_ne hne]
  exact congrArg (Workers.mk (f shared)) hplace

/-- A move of which nothing is seen. -/
theorem moved_same (s : Workers n Shared Place) (w : Fin n) : s.moved w s.shared (s.place w) = s :=
  congrArg (Workers.mk s.shared) (Function.update_eq_self w s.place)

/-- **A run is seen as a run**, if each of its moves is seen as a move or not at all. -/
theorem Run.view {move : Shared → Place → Shared → Place → Prop}
    {move' : Shared' → Place' → Shared' → Place' → Prop} {s t : Workers n Shared Place}
    (h : Run move s t)
    (hmove : ∀ {a place b place'}, move a place b place' →
      (f b = f a ∧ g place' = g place) ∨ move' (f a) (g place) (f b) (g place')) :
    Run move' (s.view f g) (t.view f g) := by
  induction h with
  | refl => exact .refl
  | @tail t u _ hstep ih =>
      cases hstep with
      | @move w shared place hw =>
          rw [view_moved]
          rcases hmove hw with ⟨hshared, hplace⟩ | hseen
          · rw [hshared, hplace]
            show Run move' _ ((t.view f g).moved w (t.view f g).shared ((t.view f g).place w))
            rw [moved_same]
            exact ih
          · exact ih.tail (.move w hseen)

end View

/-- A property of places that the worker's new place has too. -/
theorem forall_moved {P : Place → Prop} {s : Workers n Shared Place} {w : Fin n} {shared : Shared}
    {place : Place} (h : ∀ v, P (s.place v)) (hplace : P place) :
    ∀ v, P ((s.moved w shared place).place v) := by
  intro v
  show P (Function.update s.place w place v)
  rcases eq_or_ne v w with rfl | hne
  · rwa [Function.update_self]
  · rw [Function.update_of_ne hne]
    exact h v

/-! ## Sums over the workers -/

/-- What the places weigh together. -/
def total (weight : Place → Nat) (s : Workers n Shared Place) : Nat := ∑ w, weight (s.place w)

theorem total_start {weight : Place → Nat} {shared : Shared} {place : Place}
    (h : weight place = 0) : (start n shared place).total weight = 0 :=
  Finset.sum_eq_zero fun _ _ => h

/-- The weight of the new place takes the place of the weight of the old one. -/
theorem total_moved (weight : Place → Nat) (s : Workers n Shared Place) (w : Fin n)
    (shared : Shared) (place : Place) :
    (s.moved w shared place).total weight + weight (s.place w) =
      s.total weight + weight place := by
  have hupdate : ∀ v, weight ((s.moved w shared place).place v) =
      Function.update (fun v => weight (s.place v)) w (weight place) v := by
    intro v
    show weight (Function.update s.place w place v) = _
    rcases eq_or_ne v w with rfl | hne
    · rw [Function.update_self, Function.update_self]
    · rw [Function.update_of_ne hne, Function.update_of_ne hne]
  have hnew : (s.moved w shared place).total weight =
      weight place + ∑ v ∈ Finset.univ \ {w}, weight (s.place v) := by
    rw [total, Finset.sum_congr rfl fun v _ => hupdate v,
      Finset.sum_update_of_mem (Finset.mem_univ w)]
  have hold : s.total weight = weight (s.place w) + ∑ v ∈ Finset.univ \ {w}, weight (s.place v) := by
    rw [total, ← Finset.add_sum_erase _ _ (Finset.mem_univ w), Finset.sdiff_singleton_eq_erase]
  omega

/-- There are no more of them than workers. -/
theorem total_le {weight : Place → Nat} (h : ∀ place, weight place ≤ 1)
    (s : Workers n Shared Place) : s.total weight ≤ n := by
  calc s.total weight ≤ ∑ _w : Fin n, 1 := Finset.sum_le_sum fun w _ => h (s.place w)
    _ = n := by simp

end Workers

end Lib
