/-
# `ServerStorage.Lib.Fields` — texts between separators

A text of fields with a separator behind each is read back field by field as long as no
field contains the separator.  Numbers as `operator<<` prints them contain digits and a
sign only.
-/
import ServerStorage.Lib.Decimal

namespace Lib

variable {α : Type}

/-- The first field, and what stands behind its separator. -/
theorem field_inj {sep : α} {field field' rest rest' : List α} (h : sep ∉ field)
    (h' : sep ∉ field') (heq : field ++ ([sep] ++ rest) = field' ++ ([sep] ++ rest')) :
    field = field' ∧ rest = rest' := by
  induction field generalizing field' with
  | nil =>
      cases field' with
      | nil => exact ⟨rfl, (List.cons.inj heq).2⟩
      | cons c field' =>
          exact absurd ((List.cons.inj heq).1 ▸ List.mem_cons_self) h'
  | cons c field ih =>
      cases field' with
      | nil => exact absurd ((List.cons.inj heq).1 ▸ List.mem_cons_self) h
      | cons c' field' =>
          obtain ⟨rfl, htail⟩ := List.cons.inj heq
          obtain ⟨rfl, rfl⟩ := ih (fun hc => h (List.mem_cons_of_mem _ hc))
            (fun hc => h' (List.mem_cons_of_mem _ hc)) htail
          exact ⟨rfl, rfl⟩

/-- Records that are each read back, as many of them on both sides. -/
theorem records_inj {β : Type} {P : β → Prop} {write : β → List α}
    (hwrite : ∀ (b b' : β) (rest rest' : List α), P b → P b' →
      write b ++ rest = write b' ++ rest' → b = b' ∧ rest = rest') :
    ∀ {l l' : List β}, (∀ b ∈ l, P b) → (∀ b ∈ l', P b) → l.length = l'.length →
      l.flatMap write = l'.flatMap write → l = l'
  | [], [], _, _, _, _ => rfl
  | [], _ :: _, _, _, hlength, _ => by cases hlength
  | _ :: _, [], _, _, hlength, _ => by cases hlength
  | b :: l, b' :: l', h, h', hlength, heq => by
      rw [List.flatMap_cons, List.flatMap_cons] at heq
      obtain ⟨rfl, htail⟩ :=
        hwrite b b' _ _ (h b List.mem_cons_self) (h' b' List.mem_cons_self) heq
      rw [records_inj hwrite (fun x hx => h x (List.mem_cons_of_mem _ hx))
        (fun x hx => h' x (List.mem_cons_of_mem _ hx)) (Nat.succ.inj hlength) htail]

/-! ## Numbers -/

theorem not_mem_decimal {c : UInt8} (h : isDigit c = false) (n : Nat) : c ∉ decimal n := fun hc =>
  Bool.false_ne_true (h.symm.trans (isDigit_of_mem_decimal hc))

theorem mem_decimalInt {c : UInt8} {i : Int} (h : c ∈ decimalInt i) : c = 45 ∨ isDigit c = true := by
  rw [decimalInt] at h
  split at h
  · rcases List.mem_append.mp h with h | h
    · exact Or.inl (List.mem_singleton.mp h)
    · exact Or.inr (isDigit_of_mem_decimal h)
  · exact Or.inr (isDigit_of_mem_decimal h)

theorem not_mem_decimalInt {c : UInt8} (hsign : c ≠ 45) (h : isDigit c = false) (i : Int) :
    c ∉ decimalInt i := by
  intro hc
  rcases mem_decimalInt hc with rfl | hdigit
  · exact hsign rfl
  · exact Bool.false_ne_true (h.symm.trans hdigit)

theorem decimalInt_inj {i j : Int} : decimalInt i = decimalInt j ↔ i = j := by
  have hsign : ∀ m n : Nat, str "-" ++ decimal m ≠ decimal n := by
    intro m n h
    have hmem : (45 : UInt8) ∈ decimal n := h ▸ List.mem_cons_self
    exact not_mem_decimal (by decide) n hmem
  constructor
  · intro h
    rw [decimalInt, decimalInt] at h
    split at h <;> split at h
    next hi hj =>
      have := decimal_inj.mp (List.append_cancel_left h)
      omega
    next => exact absurd h (hsign _ _)
    next => exact absurd h.symm (hsign _ _)
    next hi hj =>
      have := decimal_inj.mp h
      omega
  · rintro rfl
    rfl

end Lib
