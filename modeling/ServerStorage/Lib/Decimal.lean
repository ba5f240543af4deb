/-
# `ServerStorage.Lib.Decimal` — numbers as text

`std::stoull` as documented: leading white space, a sign, then as many digits as there
are; what follows is not looked at.  It reads back what `operator<<` prints.
-/
import ServerStorage.Lib.Bytes

namespace Lib

/-! ## `std::stoull` -/

def isSpace (c : UInt8) : Bool := c == 32 || (9 ≤ c && c ≤ 13)

def isDigit (c : UInt8) : Bool := 48 ≤ c && c ≤ 57

/-- The number a run of digits spells. -/
def digitsValue (digits : Str) : Nat := digits.foldl (fun n c => 10 * n + (c.toNat - 48)) 0

/-- A sign, and what follows it. -/
def splitSign : Str → Bool × Str
  | 45 :: rest => (true, rest)
  | 43 :: rest => (false, rest)
  | text => (false, text)

/-- `none` for an exception: no digits, or a number out of range. -/
def stoull (text : Str) : Option UInt64 :=
  let (negative, rest) := splitSign (text.dropWhile isSpace)
  let digits := rest.takeWhile isDigit
  if digits = [] then none
  else if 2 ^ 64 ≤ digitsValue digits then none
  else some (if negative then -(digitsValue digits).toUInt64 else (digitsValue digits).toUInt64)

/-! ## Reading back what was printed -/

theorem isDigit_of_mem_decimal {n : Nat} {c : UInt8} (h : c ∈ decimal n) : isDigit c = true := by
  obtain ⟨d, hd, rfl⟩ := List.mem_map.mp h
  have hdigit := Nat.isDigit_of_mem_toDigits (by decide) (by decide) hd
  rw [Char.isDigit, Bool.and_eq_true, decide_eq_true_eq, decide_eq_true_eq] at hdigit
  have hlo : 48 ≤ d.toNat := hdigit.1
  have hhi : d.toNat ≤ 57 := hdigit.2
  have hval : (d.toNat.toUInt8).toNat = d.toNat := Nat.mod_eq_of_lt (by omega)
  rw [isDigit, Bool.and_eq_true, decide_eq_true_eq, decide_eq_true_eq, UInt8.le_iff_toNat_le,
    UInt8.le_iff_toNat_le, hval]
  exact ⟨hlo, hhi⟩

theorem decimal_ne_nil (n : Nat) : decimal n ≠ [] := fun h =>
  Nat.toDigits_ne_nil (List.map_eq_nil_iff.mp h)

theorem digitsValue_decimal (n : Nat) : digitsValue (decimal n) = n := by
  have hfold : ∀ (l : List Char) (acc : Nat), (∀ d ∈ l, d.isDigit = true) →
      (l.map fun c => c.toNat.toUInt8).foldl (fun n c => 10 * n + (c.toNat - 48)) acc =
        Nat.ofDigitChars 10 l acc := by
    intro l
    induction l with
    | nil => intro acc _; rfl
    | cons d l ih =>
        intro acc h
        have hdigit := h d List.mem_cons_self
        rw [Char.isDigit, Bool.and_eq_true, decide_eq_true_eq, decide_eq_true_eq] at hdigit
        have hhi : d.toNat ≤ 57 := hdigit.2
        have hval : (d.toNat.toUInt8).toNat = d.toNat := Nat.mod_eq_of_lt (by omega)
        rw [List.map_cons, List.foldl_cons, ih _ fun x hx => h x (List.mem_cons_of_mem _ hx), hval]
        rfl
  rw [digitsValue, decimal, hfold _ 0 fun d hd =>
    Nat.isDigit_of_mem_toDigits (by decide) (by decide) hd]
  exact Nat.ofDigitChars_ten_toDigits

theorem decimal_inj {m n : Nat} : decimal m = decimal n ↔ m = n :=
  ⟨fun h => by rw [← digitsValue_decimal m, h, digitsValue_decimal], fun h => h ▸ rfl⟩

theorem range_of_isDigit {c : UInt8} (h : isDigit c = true) : 48 ≤ c.toNat ∧ c.toNat ≤ 57 := by
  rw [isDigit, Bool.and_eq_true, decide_eq_true_eq, decide_eq_true_eq, UInt8.le_iff_toNat_le,
    UInt8.le_iff_toNat_le] at h
  exact h

theorem ascii_decimal (n : Nat) : ∀ c ∈ decimal n, c < 0x80 := by
  intro c hc
  have hrange := range_of_isDigit (isDigit_of_mem_decimal hc)
  rw [UInt8.lt_iff_toNat_lt]
  exact hrange.2.trans_lt (by decide)

def Text.ofNat (n : Nat) : Text := ⟨decimal n, ascii_decimal n⟩

def Text.ofInt (i : Int) : Text := if i < 0 then text "-" ++ .ofNat i.natAbs else .ofNat i.natAbs

theorem isSpace_of_isDigit {c : UInt8} (h : isDigit c = true) : isSpace c = false := by
  have hrange := range_of_isDigit h
  rw [isSpace, Bool.or_eq_false_iff, beq_eq_false_iff_ne, Bool.and_eq_false_iff]
  refine ⟨fun heq => ?_, .inr ?_⟩
  · rw [heq] at hrange
    exact absurd hrange.1 (by decide)
  · rw [decide_eq_false_iff_not, UInt8.le_iff_toNat_le]
    exact fun hle => absurd (hrange.1.trans hle) (by decide)

theorem splitSign_of_isDigit {c : UInt8} (h : isDigit c = true) (rest : Str) :
    splitSign (c :: rest) = (false, c :: rest) := by
  have hrange := range_of_isDigit h
  rw [splitSign]
  · rintro r heq
    obtain rfl := (List.cons.inj heq).1
    exact absurd hrange.1 (by decide)
  · rintro r heq
    obtain rfl := (List.cons.inj heq).1
    exact absurd hrange.1 (by decide)

theorem takeWhile_decimal (n : Nat) {rest : Str} (h : ∀ c ∈ rest.head?, isDigit c = false) :
    (decimal n ++ rest).takeWhile isDigit = decimal n := by
  rw [List.takeWhile_append_of_pos fun c hc => isDigit_of_mem_decimal hc]
  cases rest with
  | nil => simp
  | cons d rest =>
      rw [List.takeWhile_cons_of_neg (by rw [h d (by simp)]; decide), List.append_nil]

/-- A number printed, up to the first character that is no digit, is read back. -/
theorem stoull_decimal {n : UInt64} {rest : Str} (h : ∀ c ∈ rest.head?, isDigit c = false) :
    stoull (decimal n.toNat ++ rest) = some n := by
  obtain ⟨c, cs, hdec⟩ := List.exists_cons_of_ne_nil (decimal_ne_nil n.toNat)
  have hc : isDigit c = true := isDigit_of_mem_decimal (hdec ▸ List.mem_cons_self)
  have hsplit : splitSign ((decimal n.toNat ++ rest).dropWhile isSpace) =
      (false, decimal n.toNat ++ rest) := by
    rw [hdec, List.cons_append,
      List.dropWhile_cons_of_neg (by rw [isSpace_of_isDigit hc]; decide),
      splitSign_of_isDigit hc]
  rw [stoull, hsplit]
  simp only [takeWhile_decimal n.toNat h, digitsValue_decimal]
  rw [if_neg (decimal_ne_nil _), if_neg (not_le.mpr n.toNat_lt)]
  simp

/-! ## What is printed -/

/-- Digits only, the first of which is no zero unless it is the only one. -/
structure Plain (text : Str) : Prop where
  nonempty : text ≠ []
  digits : ∀ c ∈ text, isDigit c = true
  lead : text.head? = some 48 → text = [48]

theorem decimal_digit {c : UInt8} (h : isDigit c = true) : decimal (c.toNat - 48) = [c] := by
  have hrange := range_of_isDigit h
  have hdigit : ∀ d : Fin 10, ((d.val.digitChar).toNat.toUInt8).toNat = 48 + d.val := by decide
  rw [decimal, Nat.toDigits_of_lt_base (by omega), List.map_singleton]
  refine congrArg (fun b => [b]) (UInt8.toNat_inj.mp ?_)
  rw [hdigit ⟨c.toNat - 48, by omega⟩]
  show 48 + (c.toNat - 48) = c.toNat
  omega

/-- A further digit is printed behind the others. -/
theorem decimal_append {n : Nat} {c : UInt8} (hn : 0 < n) (h : isDigit c = true) :
    decimal (10 * n + (c.toNat - 48)) = decimal n ++ [c] := by
  have hrange := range_of_isDigit h
  rw [← decimal_digit h, decimal, decimal, decimal, ← List.map_append,
    Nat.toDigits_append_toDigits (by decide) hn (by omega)]

theorem digitsValue_append (text : Str) (c : UInt8) :
    digitsValue (text ++ [c]) = 10 * digitsValue text + (c.toNat - 48) := by
  rw [digitsValue, digitsValue, List.foldl_append]
  rfl

/-- The digits in front of the last one. -/
theorem Plain.init {text : Str} {c : UInt8} (h : Plain (text ++ [c])) (hne : text ≠ []) :
    Plain text ∧ text.head? ≠ some 48 := by
  have hhead : text.head? ≠ some 48 := by
    intro hzero
    have hsingle := h.lead (by rw [List.head?_append, hzero]; rfl)
    have hlength := congrArg List.length hsingle
    rw [List.length_append, List.length_singleton, List.length_singleton] at hlength
    exact hne (List.eq_nil_of_length_eq_zero (by omega))
  exact ⟨⟨hne, fun d hd => h.digits d (List.mem_append_left _ hd), fun hzero => absurd hzero hhead⟩,
    hhead⟩

/-- What is read from a number that is printed plainly prints the same. -/
theorem Plain.decimal_digitsValue {text : Str} (h : Plain text) :
    decimal (digitsValue text) = text := by
  induction text using List.reverseRecOn with
  | nil => exact absurd rfl h.nonempty
  | append_singleton text c ih =>
      have hc : isDigit c = true := h.digits c (List.mem_append_right _ (List.mem_singleton_self c))
      rw [digitsValue_append]
      by_cases hne : text = []
      · rw [hne]
        show decimal (10 * 0 + (c.toNat - 48)) = [c]
        rw [Nat.mul_zero, Nat.zero_add, decimal_digit hc]
      · obtain ⟨hplain, hhead⟩ := h.init hne
        have hpos : 0 < digitsValue text := by
          by_contra hzero
          have htext := ih hplain
          rw [Nat.eq_zero_of_not_pos hzero] at htext
          rw [← htext] at hhead
          exact hhead rfl
        rw [decimal_append hpos hc, ih hplain]

theorem plain_decimal (n : Nat) : Plain (decimal n) := by
  induction n using Nat.strong_induction_on with
  | _ n ih =>
      refine ⟨decimal_ne_nil n, fun c hc => isDigit_of_mem_decimal hc, fun hhead => ?_⟩
      by_cases hlt : n < 10
      · have hsingle : decimal n = [n.digitChar.toNat.toUInt8] := by
          rw [decimal, Nat.toDigits_of_lt_base hlt, List.map_singleton]
        rw [hsingle] at hhead ⊢
        rw [Option.some.inj hhead]
      · -- what stands before the last digit is plain and not zero
        have hsplit : decimal n = decimal (n / 10) ++ [(n % 10).digitChar.toNat.toUInt8] := by
          rw [decimal, decimal, Nat.toDigits_of_base_le (by decide) (by omega), List.map_append,
            List.map_singleton]
        rw [hsplit, List.head?_append_of_ne_nil _ (decimal_ne_nil _)] at hhead
        have hzero := (ih (n / 10) (by omega)).lead hhead
        have hvalue : n / 10 = 0 := decimal_inj.mp (hzero.trans rfl)
        omega

theorem stoull_decimal_eq (n : UInt64) : stoull (decimal n.toNat) = some n := by
  have h := @stoull_decimal n [] (by simp)
  rwa [List.append_nil] at h

/-- A plain number that is read as `n` is how `n` is printed. -/
theorem Plain.eq_decimal {text : Str} {n : UInt64} (h : Plain text) (hread : stoull text = some n) :
    text = decimal n.toNat := by
  obtain ⟨c, cs, rfl⟩ := List.exists_cons_of_ne_nil h.nonempty
  have hc : isDigit c = true := h.digits c List.mem_cons_self
  have hsplit : splitSign ((c :: cs).dropWhile isSpace) = (false, c :: cs) := by
    rw [List.dropWhile_cons_of_neg (by rw [isSpace_of_isDigit hc]; decide), splitSign_of_isDigit hc]
  have hdigits : (c :: cs).takeWhile isDigit = c :: cs := List.takeWhile_eq_self_iff.mpr h.digits
  rw [stoull, hsplit] at hread
  simp only [hdigits] at hread
  rw [if_neg (List.cons_ne_nil c cs)] at hread
  split at hread
  · cases hread
  next hlt =>
    have hvalue := congrArg UInt64.toNat (Option.some.inj hread)
    rw [if_neg Bool.false_ne_true, UInt64.toNat_ofNat_of_lt' (by
      rw [UInt64.size]
      omega)] at hvalue
    rw [← hvalue, h.decimal_digitsValue]

end Lib
