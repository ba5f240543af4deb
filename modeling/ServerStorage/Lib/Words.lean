/-
# `ServerStorage.Lib.Words` — fixed-width words as bytes

Big-endian and little-endian codes of unsigned words.  The big-endian code of a
64-bit word is the one whose byte order agrees with the numeric order
(`encodeU64Be_lt`), which is what a store that keeps its keys in byte order
relies on.
-/
import ServerStorage.Lib.Bytes

namespace Lib

/-! ## Big-endian words -/

def encodeU64Be (value : UInt64) : Str :=
  [(value >>> 56).toUInt8, (value >>> 48).toUInt8, (value >>> 40).toUInt8, (value >>> 32).toUInt8,
   (value >>> 24).toUInt8, (value >>> 16).toUInt8, (value >>> 8).toUInt8, value.toUInt8]

def decodeU64Be : Str → UInt64
  | b₀ :: b₁ :: b₂ :: b₃ :: b₄ :: b₅ :: b₆ :: b₇ :: _ =>
      b₀.toUInt64 <<< 56 ||| b₁.toUInt64 <<< 48 ||| b₂.toUInt64 <<< 40 ||| b₃.toUInt64 <<< 32 |||
      b₄.toUInt64 <<< 24 ||| b₅.toUInt64 <<< 16 ||| b₆.toUInt64 <<< 8 ||| b₇.toUInt64
  | _ => 0

@[simp] theorem encodeU64Be_length (v : UInt64) : (encodeU64Be v).length = 8 := rfl

/-- The base-256 digits of a number, most significant first. -/
def beDigits : Nat → Nat → Str
  | 0, _ => []
  | k + 1, n => UInt8.ofNat (n / 256 ^ k) :: beDigits k n

/-- The number a list of base-256 digits spells. -/
def beValue (l : Str) : Nat := l.foldl (fun acc b => acc * 256 + b.toNat) 0

theorem encodeU64Be_eq (v : UInt64) : encodeU64Be v = beDigits 8 v.toNat := by
  simp only [encodeU64Be, beDigits, List.cons.injEq, and_true]
  refine ⟨?_, ?_, ?_, ?_, ?_, ?_, ?_, ?_⟩ <;> apply UInt8.toNat_inj.mp <;>
    simp [Nat.shiftRight_eq_div_pow]

theorem beDigits_lt : ∀ {k a b : Nat}, a % 256 ^ k < b % 256 ^ k → beDigits k a < beDigits k b
  | 0, a, b, h => by simp [Nat.mod_one] at h
  | k + 1, a, b, h => by
      have hsplit : ∀ n : Nat, n % 256 ^ (k + 1) = 256 ^ k * (n / 256 ^ k % 256) + n % 256 ^ k :=
        fun n => by rw [pow_succ, Nat.mod_mul, Nat.add_comm]
      have hpos : 0 < 256 ^ k := by positivity
      have ha := Nat.mod_lt a hpos
      rw [hsplit, hsplit] at h
      simp only [beDigits, List.cons_lt_cons_iff, UInt8.lt_iff_toNat_lt, ← UInt8.toNat_inj,
        UInt8.toNat_ofNat']
      rcases Nat.lt_trichotomy (a / 256 ^ k % 256) (b / 256 ^ k % 256) with hlt | heq | hgt
      · exact Or.inl hlt
      · rw [heq] at h
        exact Or.inr ⟨heq, beDigits_lt (Nat.lt_of_add_lt_add_left h)⟩
      · have hb := Nat.mod_lt b hpos
        have := Nat.mul_le_mul_left (256 ^ k) (Nat.succ_le_of_lt hgt)
        rw [Nat.mul_succ] at this
        omega

/-- The byte order of big-endian words is their numeric order. -/
theorem encodeU64Be_lt {a b : UInt64} : encodeU64Be a < encodeU64Be b ↔ a < b := by
  have hmono : ∀ {x y : UInt64}, x < y → encodeU64Be x < encodeU64Be y := fun {x y} h => by
    rw [encodeU64Be_eq, encodeU64Be_eq]
    have hx := x.toNat_lt
    have hy := y.toNat_lt
    have hlt := UInt64.lt_iff_toNat_lt.mp h
    exact beDigits_lt (by rw [Nat.mod_eq_of_lt (by omega), Nat.mod_eq_of_lt (by omega)]; exact hlt)
  constructor
  · intro h
    rcases lt_trichotomy a b with hab | rfl | hba
    · exact hab
    · exact absurd h (lt_irrefl _)
    · exact absurd h (hmono hba).asymm
  · exact hmono

/-- A field of `w` bits put below a number moved up by `w`. -/
theorem field_or {w : Nat} (x b k : Nat) (hb : b < 2 ^ w) :
    x * 2 ^ (k + w) ||| b * 2 ^ k = (x * 2 ^ w + b) * 2 ^ k := by
  have hlt : b * 2 ^ k < 2 ^ (k + w) := by
    rw [Nat.pow_add, Nat.mul_comm (2 ^ k)]
    exact Nat.mul_lt_mul_of_pos_right hb (by positivity)
  rw [Nat.mul_comm x, ← Nat.two_pow_add_eq_or_of_lt hlt, Nat.pow_add]
  ring

theorem shift_or (x b k : Nat) (hb : b < 256) :
    x * 2 ^ (k + 8) ||| b * 2 ^ k = (x * 256 + b) * 2 ^ k :=
  field_or x b k hb

/-- A byte moved up stays within the word. -/
theorem byte_shift {w k : Nat} (b : UInt8) (h : k + 8 ≤ w) :
    b.toNat <<< k % 2 ^ w = b.toNat * 2 ^ k := by
  rw [Nat.shiftLeft_eq, Nat.mod_eq_of_lt]
  calc b.toNat * 2 ^ k < 2 ^ 8 * 2 ^ k := Nat.mul_lt_mul_of_pos_right b.toNat_lt (by positivity)
    _ = 2 ^ (k + 8) := by rw [← Nat.pow_add, Nat.add_comm]
    _ ≤ 2 ^ w := Nat.pow_le_pow_right (by norm_num) h

/-- A word read from its bytes is the number they spell. -/
theorem decodeU64Be_toNat {l : Str} (h : l.length = 8) : (decodeU64Be l).toNat = beValue l := by
  match l, h with
  | [b₀, b₁, b₂, b₃, b₄, b₅, b₆, b₇], _ =>
      simp only [decodeU64Be, beValue, UInt64.toNat_or, UInt64.toNat_shiftLeft,
        UInt8.toNat_toUInt64, List.foldl]
      simp only [show UInt64.toNat 56 % 64 = 56 from rfl, show UInt64.toNat 48 % 64 = 48 from rfl,
        show UInt64.toNat 40 % 64 = 40 from rfl, show UInt64.toNat 32 % 64 = 32 from rfl,
        show UInt64.toNat 24 % 64 = 24 from rfl, show UInt64.toNat 16 % 64 = 16 from rfl,
        show UInt64.toNat 8 % 64 = 8 from rfl]
      rw [byte_shift b₀ (by norm_num), byte_shift b₁ (by norm_num), byte_shift b₂ (by norm_num),
        byte_shift b₃ (by norm_num), byte_shift b₄ (by norm_num), byte_shift b₅ (by norm_num),
        byte_shift b₆ (by norm_num)]
      rw [shift_or _ _ 48 b₁.toNat_lt, shift_or _ _ 40 b₂.toNat_lt, shift_or _ _ 32 b₃.toNat_lt,
        shift_or _ _ 24 b₄.toNat_lt, shift_or _ _ 16 b₅.toNat_lt, shift_or _ _ 8 b₆.toNat_lt]
      have hlast := shift_or ((((((b₀.toNat * 256 + b₁.toNat) * 256 + b₂.toNat) * 256 +
        b₃.toNat) * 256 + b₄.toNat) * 256 + b₅.toNat) * 256 + b₆.toNat) _ 0 b₇.toNat_lt
      simpa using hlast

theorem decodeU64Be_encodeU64Be (v : UInt64) : decodeU64Be (encodeU64Be v) = v := by
  apply UInt64.toNat_inj.mp
  rw [decodeU64Be_toNat rfl, encodeU64Be_eq]
  have := v.toNat_lt
  simp [beDigits, beValue]
  omega

theorem foldl_beValue (l : Str) : ∀ acc : Nat,
    l.foldl (fun acc b => acc * 256 + b.toNat) acc = acc * 256 ^ l.length + beValue l ∧
      beValue l < 256 ^ l.length := by
  induction l with
  | nil => intro acc; simp [beValue]
  | cons b l ih =>
      intro acc
      have hb := b.toNat_lt
      have hpow : (256 : Nat) ^ (l.length + 1) = 256 * 256 ^ l.length := by rw [pow_succ, mul_comm]
      have hval : beValue (b :: l) = b.toNat * 256 ^ l.length + beValue l := by
        rw [beValue, List.foldl_cons, (ih _).1]; simp
      have hle := Nat.mul_le_mul_right (256 ^ l.length) (show b.toNat ≤ 255 by omega)
      have hlt := (ih 0).2
      rw [List.foldl_cons, (ih _).1, hval, List.length_cons, hpow]
      exact ⟨by ring, by omega⟩

/-- Digits read off a number give the number its digits back. -/
theorem beDigits_foldl (l : Str) : ∀ acc : Nat,
    beDigits l.length (l.foldl (fun acc b => acc * 256 + b.toNat) acc) = l := by
  induction l with
  | nil => intro acc; rfl
  | cons b l ih =>
      intro acc
      rw [List.length_cons, beDigits, List.foldl_cons, ih, List.cons.injEq]
      refine ⟨?_, rfl⟩
      have hb := b.toNat_lt
      rw [(foldl_beValue l _).1, Nat.mul_comm, Nat.mul_add_div (by positivity),
        Nat.div_eq_of_lt (foldl_beValue l 0).2, Nat.add_zero]
      apply UInt8.toNat_inj.mp
      rw [UInt8.toNat_ofNat']
      omega

theorem encodeU64Be_decodeU64Be {l : Str} (h : l.length = 8) : encodeU64Be (decodeU64Be l) = l := by
  rw [encodeU64Be_eq, decodeU64Be_toNat h, ← h]
  exact beDigits_foldl l 0

theorem encodeU64Be_inj {a b : UInt64} : encodeU64Be a = encodeU64Be b ↔ a = b :=
  ⟨fun h => by rw [← decodeU64Be_encodeU64Be a, h, decodeU64Be_encodeU64Be], fun h => h ▸ rfl⟩

theorem encodeU64Be_le {a b : UInt64} : encodeU64Be a ≤ encodeU64Be b ↔ a ≤ b := by
  rw [← not_lt, ← not_lt, encodeU64Be_lt]

/-! ## Little-endian words -/

def encodeU16Le (value : UInt16) : Str := [value.toUInt8, (value >>> 8).toUInt8]

def encodeU32Le (value : UInt32) : Str :=
  [value.toUInt8, (value >>> 8).toUInt8, (value >>> 16).toUInt8, (value >>> 24).toUInt8]

def encodeU64Le (value : UInt64) : Str :=
  [value.toUInt8, (value >>> 8).toUInt8, (value >>> 16).toUInt8, (value >>> 24).toUInt8,
   (value >>> 32).toUInt8, (value >>> 40).toUInt8, (value >>> 48).toUInt8, (value >>> 56).toUInt8]

def decodeU16Le : Str → UInt16
  | b₀ :: b₁ :: _ => b₀.toUInt16 ||| b₁.toUInt16 <<< 8
  | _ => 0

def decodeU32Le : Str → UInt32
  | b₀ :: b₁ :: b₂ :: b₃ :: _ =>
      b₀.toUInt32 ||| b₁.toUInt32 <<< 8 ||| b₂.toUInt32 <<< 16 ||| b₃.toUInt32 <<< 24
  | _ => 0

def decodeU64Le : Str → UInt64
  | b₀ :: b₁ :: b₂ :: b₃ :: b₄ :: b₅ :: b₆ :: b₇ :: _ =>
      b₀.toUInt64 ||| b₁.toUInt64 <<< 8 ||| b₂.toUInt64 <<< 16 ||| b₃.toUInt64 <<< 24 |||
      b₄.toUInt64 <<< 32 ||| b₅.toUInt64 <<< 40 ||| b₆.toUInt64 <<< 48 ||| b₇.toUInt64 <<< 56
  | _ => 0

def encodeU32Be (value : UInt32) : Str :=
  [(value >>> 24).toUInt8, (value >>> 16).toUInt8, (value >>> 8).toUInt8, value.toUInt8]

def decodeU32Be : Str → UInt32
  | b₀ :: b₁ :: b₂ :: b₃ :: _ =>
      b₀.toUInt32 <<< 24 ||| b₁.toUInt32 <<< 16 ||| b₂.toUInt32 <<< 8 ||| b₃.toUInt32
  | _ => 0

theorem encodeU32Be_eq (v : UInt32) : encodeU32Be v = beDigits 4 v.toNat := by
  simp only [encodeU32Be, beDigits, List.cons.injEq, and_true]
  refine ⟨?_, ?_, ?_, ?_⟩ <;> apply UInt8.toNat_inj.mp <;> simp [Nat.shiftRight_eq_div_pow]

theorem decodeU32Be_toNat {l : Str} (h : l.length = 4) : (decodeU32Be l).toNat = beValue l := by
  match l, h with
  | [b₀, b₁, b₂, b₃], _ =>
      simp only [decodeU32Be, beValue, UInt32.toNat_or, UInt32.toNat_shiftLeft,
        UInt8.toNat_toUInt32, List.foldl]
      simp only [show UInt32.toNat 24 % 32 = 24 from rfl, show UInt32.toNat 16 % 32 = 16 from rfl,
        show UInt32.toNat 8 % 32 = 8 from rfl]
      rw [byte_shift b₀ (by norm_num), byte_shift b₁ (by norm_num), byte_shift b₂ (by norm_num),
        shift_or _ _ 16 b₁.toNat_lt, shift_or _ _ 8 b₂.toNat_lt]
      have hlast := shift_or ((b₀.toNat * 256 + b₁.toNat) * 256 + b₂.toNat) _ 0 b₃.toNat_lt
      simpa using hlast

theorem decodeU32Be_encodeU32Be (v : UInt32) : decodeU32Be (encodeU32Be v) = v := by
  apply UInt32.toNat_inj.mp
  rw [decodeU32Be_toNat rfl, encodeU32Be_eq]
  have := v.toNat_lt
  simp [beDigits, beValue]
  omega

theorem encodeU32Be_decodeU32Be {l : Str} (h : l.length = 4) : encodeU32Be (decodeU32Be l) = l := by
  rw [encodeU32Be_eq, decodeU32Be_toNat h, ← h]
  exact beDigits_foldl l 0

@[simp] theorem encodeU32Be_length (v : UInt32) : (encodeU32Be v).length = 4 := rfl

def encodeU16Be (value : UInt16) : Str := [(value >>> 8).toUInt8, value.toUInt8]

def decodeU16Be : Str → UInt16
  | b₀ :: b₁ :: _ => b₀.toUInt16 <<< 8 ||| b₁.toUInt16
  | _ => 0

@[simp] theorem encodeU16Be_length (v : UInt16) : (encodeU16Be v).length = 2 := rfl

/-- A big-endian word reads the same whatever follows it. -/
theorem decodeU64Be_append {l : Str} (h : l.length = 8) (rest : Str) :
    decodeU64Be (l ++ rest) = decodeU64Be l := by
  match l, h with
  | [_, _, _, _, _, _, _, _], _ => rfl

theorem decodeU32Be_append {l : Str} (h : l.length = 4) (rest : Str) :
    decodeU32Be (l ++ rest) = decodeU32Be l := by
  match l, h with
  | [_, _, _, _], _ => rfl

theorem decodeU16Be_append {l : Str} (h : l.length = 2) (rest : Str) :
    decodeU16Be (l ++ rest) = decodeU16Be l := by
  match l, h with
  | [_, _], _ => rfl

theorem or_reverse₈ (a b c d e f g h : UInt64) :
    a ||| b ||| c ||| d ||| e ||| f ||| g ||| h = h ||| g ||| f ||| e ||| d ||| c ||| b ||| a := by
  ac_rfl

theorem or_reverse₄ (a b c d : UInt32) : a ||| b ||| c ||| d = d ||| c ||| b ||| a := by
  ac_rfl

theorem decodeU64Le_encodeU64Le (v : UInt64) : decodeU64Le (encodeU64Le v) = v := by
  have h := decodeU64Be_encodeU64Be v
  rw [encodeU64Be, decodeU64Be, or_reverse₈] at h
  exact h

theorem decodeU32Le_encodeU32Le (v : UInt32) : decodeU32Le (encodeU32Le v) = v := by
  have h := decodeU32Be_encodeU32Be v
  rw [encodeU32Be, decodeU32Be, or_reverse₄] at h
  exact h

theorem decodeU16Le_encodeU16Le (v : UInt16) : decodeU16Le (encodeU16Le v) = v := by
  rw [encodeU16Le, decodeU16Le]
  apply UInt16.toNat_inj.mp
  have hv := v.toNat_lt
  have hor := shift_or ((v >>> 8).toUInt8.toNat) v.toUInt8.toNat 0 v.toUInt8.toNat_lt
  rw [UInt16.toNat_or, UInt16.toNat_shiftLeft, UInt8.toNat_toUInt16, UInt8.toNat_toUInt16,
    show UInt16.toNat 8 % 16 = 8 from rfl, byte_shift _ (by norm_num), Nat.lor_comm]
  simp only [Nat.zero_add, Nat.pow_zero, Nat.mul_one] at hor
  rw [hor]
  simp [Nat.shiftRight_eq_div_pow]
  omega

theorem decodeU16Be_encodeU16Be (v : UInt16) : decodeU16Be (encodeU16Be v) = v := by
  have h := decodeU16Le_encodeU16Le v
  rw [encodeU16Le, decodeU16Le, UInt16.or_comm] at h
  exact h

/-- Eight bytes are the word they spell, in the other order too. -/
theorem encodeU64Le_decodeU64Le {l : Str} (h : l.length = 8) : encodeU64Le (decodeU64Le l) = l := by
  match l, h with
  | [b₀, b₁, b₂, b₃, b₄, b₅, b₆, b₇], _ =>
      have h := encodeU64Be_decodeU64Be (l := [b₇, b₆, b₅, b₄, b₃, b₂, b₁, b₀]) rfl
      rw [decodeU64Be, or_reverse₈] at h
      exact congrArg List.reverse h

theorem encodeU32Le_decodeU32Le {l : Str} (h : l.length = 4) : encodeU32Le (decodeU32Le l) = l := by
  match l, h with
  | [b₀, b₁, b₂, b₃], _ =>
      have h := encodeU32Be_decodeU32Be (l := [b₃, b₂, b₁, b₀]) rfl
      rw [decodeU32Be, or_reverse₄] at h
      exact congrArg List.reverse h

theorem encodeU16Le_decodeU16Le {l : Str} (h : l.length = 2) : encodeU16Le (decodeU16Le l) = l := by
  match l, h with
  | [b₀, b₁], _ =>
      have hvalue : (decodeU16Le [b₀, b₁]).toNat = b₁.toNat * 256 + b₀.toNat := by
        have hor := shift_or b₁.toNat b₀.toNat 0 b₀.toNat_lt
        rw [decodeU16Le, UInt16.toNat_or, UInt16.toNat_shiftLeft, UInt8.toNat_toUInt16,
          UInt8.toNat_toUInt16, show UInt16.toNat 8 % 16 = 8 from rfl, byte_shift _ (by norm_num),
          Nat.lor_comm]
        simpa using hor
      have h₀ := b₀.toNat_lt
      have h₁ := b₁.toNat_lt
      rw [encodeU16Le, List.cons.injEq, List.cons.injEq]
      refine ⟨UInt8.toNat_inj.mp ?_, UInt8.toNat_inj.mp ?_, rfl⟩
      · rw [UInt16.toNat_toUInt8, hvalue]
        omega
      · rw [UInt16.toNat_toUInt8, UInt16.toNat_shiftRight, hvalue]
        simp only [show UInt16.toNat 8 % 16 = 8 from rfl, Nat.shiftRight_eq_div_pow]
        omega

/-! ## Counting up -/

theorem toNat_toUInt32 {n : Nat} (h : n < 2 ^ 32) : n.toUInt32.toNat = n := by
  simpa using Nat.mod_eq_of_lt h

theorem toNat_succ {n : UInt64} (h : n.toNat + 1 < 2 ^ 64) : (n + 1).toNat = n.toNat + 1 := by
  rw [UInt64.toNat_add]
  exact Nat.mod_eq_of_lt h

theorem lt_succ {n : UInt64} (h : n.toNat + 1 < 2 ^ 64) : n < n + 1 := by
  rw [UInt64.lt_iff_toNat_lt, toNat_succ h]
  exact Nat.lt_succ_self _

end Lib
