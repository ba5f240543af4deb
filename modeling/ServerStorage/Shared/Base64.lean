/-
# `ServerStorage.Shared.Base64` — what the base64 decoder takes

The decoder looks for padding in the last two places of every group, and drops the bits that
no byte is made of.  So it takes every canonical text, and others beside: exactly those
whose groups are of the alphabet and of padding in these places.
-/
import ServerStorage.Shared.CrudSpec

namespace ServerStorage.Crud

open Lib

/-! ## Texts -/

/-- Groups of four: two characters of the alphabet, and two of the alphabet or padding. -/
inductive Grouped : Str → Prop
  | nil : Grouped []
  | group {c₀ c₁ c₂ c₃ : UInt8} {rest : Str} : (base64Value c₀).isSome → (base64Value c₁).isSome →
      (base64PaddedValue c₂).isSome → (base64PaddedValue c₃).isSome → Grouped rest →
      Grouped (c₀ :: c₁ :: c₂ :: c₃ :: rest)

/-- Padding closes the last group only, and the bits it leaves over are zero. -/
inductive Canonical : Str → Prop
  | nil : Canonical []
  | group {c₀ c₁ c₂ c₃ : UInt8} {rest : Str} : (base64Value c₀).isSome → (base64Value c₁).isSome →
      (base64Value c₂).isSome → (base64Value c₃).isSome → Canonical rest →
      Canonical (c₀ :: c₁ :: c₂ :: c₃ :: rest)
  | twoBytes {c₀ c₁ c₂ : UInt8} {v₂ : UInt32} : (base64Value c₀).isSome → (base64Value c₁).isSome →
      base64Value c₂ = some v₂ → v₂.toNat % 4 = 0 → Canonical [c₀, c₁, c₂, base64Pad]
  | oneByte {c₀ c₁ : UInt8} {v₁ : UInt32} : (base64Value c₀).isSome → base64Value c₁ = some v₁ →
      v₁.toNat % 16 = 0 → Canonical [c₀, c₁, base64Pad, base64Pad]

/-! ## The alphabet -/

/-- A character of the alphabet is the one of its value. -/
theorem base64Value_some {c : UInt8} {v : UInt32} (h : base64Value c = some v) :
    v.toNat < 64 ∧ base64Alphabet.getD v.toNat 0 = c := by
  obtain ⟨n, hfind, rfl⟩ := Option.map_eq_some_iff.mp h
  obtain ⟨hlt, hget, -⟩ := List.findIdx?_eq_some_iff_getElem.mp hfind
  have hsize : n < 64 := hlt
  have htoNat : n.toUInt32.toNat = n := Nat.mod_eq_of_lt (by omega)
  rw [htoNat, List.getD_eq_getElem _ _ hlt]
  exact ⟨hsize, beq_iff_eq.mp hget⟩

/-- The character of the bits is that of the value they end in. -/
theorem base64Char_eq {c : UInt8} {v bits : UInt32} (h : base64Value c = some v)
    (hbits : bits.toNat % 64 = v.toNat) : base64Char bits = c := by
  rw [base64Char, toNat_sextet, hbits]
  exact (base64Value_some h).2

/-! ## Decoding -/

/-- The bytes of one group: padding leaves out the second or the third. -/
def groupBytes (c₂ c₃ : UInt8) (chunk : UInt32) : Str :=
  (chunk >>> 16).toUInt8 :: (if c₂ = base64Pad then [] else [(chunk >>> 8).toUInt8]) ++
    (if c₃ = base64Pad then [] else [chunk.toUInt8])

/-- A first group that was decoded. -/
theorem base64DecodeLoop_some {c₀ c₁ c₂ c₃ : UInt8} {rest bytes : Str}
    (h : base64DecodeLoop (c₀ :: c₁ :: c₂ :: c₃ :: rest) = some bytes) :
    ((base64Value c₀).isSome ∧ (base64Value c₁).isSome ∧ (base64PaddedValue c₂).isSome ∧
      (base64PaddedValue c₃).isSome) ∧
    ∃ chunk tail, base64DecodeLoop rest = some tail ∧ bytes = groupBytes c₂ c₃ chunk ++ tail := by
  rw [base64DecodeLoop] at h
  obtain ⟨v₀, h₀, h⟩ := Option.bind_eq_some_iff.mp h
  obtain ⟨v₁, h₁, h⟩ := Option.bind_eq_some_iff.mp h
  obtain ⟨v₂, h₂, h⟩ := Option.bind_eq_some_iff.mp h
  obtain ⟨v₃, h₃, h⟩ := Option.bind_eq_some_iff.mp h
  obtain ⟨tail, hrest, h⟩ := Option.bind_eq_some_iff.mp h
  rw [h₀, h₁, h₂, h₃]
  exact ⟨⟨rfl, rfl, rfl, rfl⟩, _, tail, hrest, (Option.some.inj h).symm⟩

/-- What holds no group of four and divides into such groups is empty. -/
theorem eq_nil_of_short : ∀ {encoded : Str},
    (∀ c₀ c₁ c₂ c₃ rest, encoded = c₀ :: c₁ :: c₂ :: c₃ :: rest → False) →
      encoded.length % 4 = 0 → encoded = []
  | [], _, _ => rfl
  | [_], _, hlength => by cases hlength
  | [_, _], _, hlength => by cases hlength
  | [_, _, _], _, hlength => by cases hlength
  | c₀ :: c₁ :: c₂ :: c₃ :: rest, hshort, _ => (hshort c₀ c₁ c₂ c₃ rest rfl).elim

/-- The decoder takes what is made of such groups, and nothing else. -/
theorem base64Decode_grouped {encoded : Str} :
    (∃ bytes, base64Decode encoded = some bytes) ↔ Grouped encoded := by
  constructor
  · rintro ⟨bytes, h⟩
    rw [base64Decode] at h
    split at h
    · cases h
    next hlength =>
      rw [not_not] at hlength
      induction encoded using base64DecodeLoop.induct generalizing bytes with
      | case1 c₀ c₁ c₂ c₃ rest ih =>
          obtain ⟨⟨h₀, h₁, h₂, h₃⟩, _, tail, hrest, -⟩ := base64DecodeLoop_some h
          simp only [List.length_cons] at hlength
          exact .group h₀ h₁ h₂ h₃ (ih tail (by omega) hrest)
      | case2 encoded hshort =>
          obtain rfl : encoded = [] := eq_nil_of_short hshort hlength
          exact .nil
  · intro h
    have hloop : ∃ bytes, base64DecodeLoop encoded = some bytes ∧ encoded.length % 4 = 0 := by
      induction h with
      | nil => exact ⟨[], rfl, rfl⟩
      | group h₀ h₁ h₂ h₃ _ ih =>
          obtain ⟨v₀, h₀⟩ := Option.isSome_iff_exists.mp h₀
          obtain ⟨v₁, h₁⟩ := Option.isSome_iff_exists.mp h₁
          obtain ⟨v₂, h₂⟩ := Option.isSome_iff_exists.mp h₂
          obtain ⟨v₃, h₃⟩ := Option.isSome_iff_exists.mp h₃
          obtain ⟨tail, hrest, hlength⟩ := ih
          refine ⟨_, base64DecodeLoop_group h₀ h₁ h₂ h₃ rfl hrest, ?_⟩
          simp only [List.length_cons]
          omega
    obtain ⟨bytes, hbytes, hlength⟩ := hloop
    exact ⟨bytes, by rw [base64Decode, if_neg (not_not.mpr hlength), hbytes]⟩

/-! ## Sizes -/

/-- The padding among the last two characters. -/
def endPadding (encoded : Str) : Nat :=
  (if encoded[encoded.length - 1]? = some base64Pad then 1 else 0) +
    (if encoded[encoded.length - 2]? = some base64Pad then 1 else 0)

theorem endPadding_le (encoded : Str) : endPadding encoded ≤ 2 := by
  rw [endPadding]
  split <;> split <;> decide

theorem endPadding_group (c₀ c₁ c₂ c₃ : UInt8) :
    endPadding [c₀, c₁, c₂, c₃] =
      (if c₃ = base64Pad then 1 else 0) + (if c₂ = base64Pad then 1 else 0) := by
  simp [endPadding]

/-- The last two characters are those of the rest. -/
theorem endPadding_append {front rest : Str} (h : 2 ≤ rest.length) :
    endPadding (front ++ rest) = endPadding rest := by
  have hget : ∀ k, k ≤ 2 → (front ++ rest)[(front ++ rest).length - k]? =
      rest[rest.length - k]? := fun k hk => by
    rw [List.length_append, List.getElem?_append_right (by omega)]
    congr 1
    omega
  rw [endPadding, endPadding, hget 1 (by decide), hget 2 (by decide)]

theorem length_groupBytes (c₂ c₃ : UInt8) (chunk : UInt32) :
    (groupBytes c₂ c₃ chunk).length + ((if c₃ = base64Pad then 1 else 0) +
      (if c₂ = base64Pad then 1 else 0)) = 3 := by
  rw [groupBytes]
  split <;> split <;> rfl

/-- Three bytes for each group, less the padding at the end; padding before it takes off more. -/
theorem base64Decode_length {encoded bytes : Str} (h : base64Decode encoded = some bytes) :
    encoded.length % 4 = 0 ∧
      (encoded ≠ [] → bytes.length + endPadding encoded ≤ encoded.length / 4 * 3) := by
  rw [base64Decode] at h
  split at h
  · cases h
  next hlength =>
    rw [not_not] at hlength
    refine ⟨hlength, fun hne => ?_⟩
    induction encoded using base64DecodeLoop.induct generalizing bytes with
    | case1 c₀ c₁ c₂ c₃ rest ih =>
        obtain ⟨-, chunk, tail, hrest, rfl⟩ := base64DecodeLoop_some h
        simp only [List.length_cons] at hlength
        have hgroup := length_groupBytes c₂ c₃ chunk
        rw [List.length_append, List.length_cons, List.length_cons, List.length_cons,
          List.length_cons]
        rcases eq_or_ne rest [] with rfl | hrest_ne
        · -- the last group: its padding is the padding at the end
          obtain rfl := Option.some.inj hrest
          rw [endPadding_group, List.length_nil]
          omega
        · have hpos := List.length_pos_iff.mpr hrest_ne
          have htail := ih (by omega) hrest hrest_ne
          have hend : endPadding (c₀ :: c₁ :: c₂ :: c₃ :: rest) = endPadding rest :=
            @endPadding_append [c₀, c₁, c₂, c₃] rest (by omega)
          rw [hend]
          omega
    | case2 encoded hshort =>
        exact absurd (eq_nil_of_short hshort hlength) hne

/-! ## Encoding -/

theorem toNat_shiftRight {chunk k : UInt32} (hk : k.toNat < 32) :
    (chunk >>> k).toNat = chunk.toNat / 2 ^ k.toNat := by
  rw [UInt32.toNat_shiftRight, Nat.mod_eq_of_lt hk, Nat.shiftRight_eq_div_pow]

theorem base64Value_char_some (bits : UInt32) : (base64Value (base64Char bits)).isSome := by
  rw [base64Value_char]
  rfl

/-- The encoder writes canonical texts. -/
theorem canonical_encode : ∀ bytes : Str, Canonical (base64Encode bytes)
  | [] => .nil
  | [a] => by
      have hnat : (a.toUInt32 <<< 16).toNat = a.toNat * 65536 := by
        simpa using toNat_chunk a 0 0
      refine .oneByte (base64Value_char_some _) (base64Value_char _) ?_
      rw [toNat_sextet, toNat_shiftRight (by decide), hnat]
      show a.toNat * 65536 / 4096 % 64 % 16 = 0
      omega
  | [a, b] => by
      have hnat : (a.toUInt32 <<< 16 ||| b.toUInt32 <<< 8).toNat =
          a.toNat * 65536 + b.toNat * 256 := by
        simpa using toNat_chunk a b 0
      refine .twoBytes (base64Value_char_some _) (base64Value_char_some _) (base64Value_char _) ?_
      rw [toNat_sextet, toNat_shiftRight (by decide), hnat]
      show (a.toNat * 65536 + b.toNat * 256) / 64 % 64 % 4 = 0
      omega
  | a :: b :: c :: rest =>
      .group (base64Value_char_some _) (base64Value_char_some _) (base64Value_char_some _)
        (base64Value_char_some _) (canonical_encode rest)

theorem exists_bytes {n : Nat} (h : n < 2 ^ 24) :
    ∃ a b c : UInt8, n = a.toNat * 65536 + b.toNat * 256 + c.toNat := by
  refine ⟨.ofNat (n / 65536), .ofNat (n / 256 % 256), .ofNat (n % 256), ?_⟩
  rw [UInt8.toNat_ofNat', UInt8.toNat_ofNat', UInt8.toNat_ofNat']
  omega

/-- Bits that are zero in the sum are zero. -/
theorem low_zero {n high low k : Nat} (h : n = high + low) (hlow : low < k) (hhigh : k ∣ high)
    (hn : k ∣ n) : n = high := by
  have hzero : low = 0 := Nat.eq_zero_of_dvd_of_lt ((Nat.dvd_add_right hhigh).mp (h ▸ hn)) hlow
  omega

/-- A chunk of these sextets is written with their characters. -/
theorem quad_chars {c₀ c₁ c₂ c₃ : UInt8} {v₀ v₁ v₂ v₃ chunk : UInt32}
    (h₀ : base64Value c₀ = some v₀) (h₁ : base64Value c₁ = some v₁)
    (hchunk : chunk.toNat =
      v₀.toNat * 262144 + v₁.toNat * 4096 + v₂.toNat * 64 + v₃.toNat)
    (hlt₂ : v₂.toNat < 64) (hlt₃ : v₃.toNat < 64) :
    base64Char (chunk >>> 18) = c₀ ∧ base64Char (chunk >>> 12) = c₁ ∧
      (base64Value c₂ = some v₂ → base64Char (chunk >>> 6) = c₂) ∧
      (base64Value c₃ = some v₃ → base64Char chunk = c₃) := by
  have hlt₀ := (base64Value_some h₀).1
  have hlt₁ := (base64Value_some h₁).1
  refine ⟨base64Char_eq h₀ ?_, base64Char_eq h₁ ?_, fun h₂ => base64Char_eq h₂ ?_,
    fun h₃ => base64Char_eq h₃ ?_⟩
  · rw [toNat_shiftRight (by decide), hchunk]
    show (_ : Nat) / 262144 % 64 = _
    omega
  · rw [toNat_shiftRight (by decide), hchunk]
    show (_ : Nat) / 4096 % 64 = _
    omega
  · rw [toNat_shiftRight (by decide), hchunk]
    show (_ : Nat) / 64 % 64 = _
    omega
  · omega

/-- Every canonical text is written by the encoder. -/
theorem Canonical.encoded {encoded : Str} (h : Canonical encoded) :
    ∃ bytes, encoded = base64Encode bytes := by
  induction h with
  | nil => exact ⟨[], rfl⟩
  | @group c₀ c₁ c₂ c₃ rest h₀ h₁ h₂ h₃ _ ih =>
      obtain ⟨v₀, h₀⟩ := Option.isSome_iff_exists.mp h₀
      obtain ⟨v₁, h₁⟩ := Option.isSome_iff_exists.mp h₁
      obtain ⟨v₂, h₂⟩ := Option.isSome_iff_exists.mp h₂
      obtain ⟨v₃, h₃⟩ := Option.isSome_iff_exists.mp h₃
      obtain ⟨bytes, rfl⟩ := ih
      have hlt₀ := (base64Value_some h₀).1
      have hlt₁ := (base64Value_some h₁).1
      have hlt₂ := (base64Value_some h₂).1
      have hlt₃ := (base64Value_some h₃).1
      obtain ⟨a, b, c, hbytes⟩ := @exists_bytes
        (v₀.toNat * 262144 + v₁.toNat * 4096 + v₂.toNat * 64 + v₃.toNat) (by omega)
      obtain ⟨hc₀, hc₁, hc₂, hc₃⟩ := quad_chars h₀ h₁ ((toNat_chunk a b c).trans hbytes.symm)
        hlt₂ hlt₃
      exact ⟨a :: b :: c :: bytes, by rw [base64Encode, hc₀, hc₁, hc₂ h₂, hc₃ h₃]⟩
  | @twoBytes c₀ c₁ c₂ v₂ h₀ h₁ h₂ hunused =>
      obtain ⟨v₀, h₀⟩ := Option.isSome_iff_exists.mp h₀
      obtain ⟨v₁, h₁⟩ := Option.isSome_iff_exists.mp h₁
      have hlt₀ := (base64Value_some h₀).1
      have hlt₁ := (base64Value_some h₁).1
      have hlt₂ := (base64Value_some h₂).1
      obtain ⟨a, b, c, hbytes⟩ := @exists_bytes
        (v₀.toNat * 262144 + v₁.toNat * 4096 + v₂.toNat * 64) (by omega)
      have hlow := low_zero hbytes c.toNat_lt (by omega) (by omega)
      have hchunk : (a.toUInt32 <<< 16 ||| b.toUInt32 <<< 8).toNat =
          v₀.toNat * 262144 + v₁.toNat * 4096 + v₂.toNat * 64 + (0 : UInt32).toNat := by
        have hnat : (a.toUInt32 <<< 16 ||| b.toUInt32 <<< 8).toNat =
            a.toNat * 65536 + b.toNat * 256 := by
          simpa using toNat_chunk a b 0
        rw [hnat, UInt32.toNat_zero, Nat.add_zero, hlow]
      obtain ⟨hc₀, hc₁, hc₂, -⟩ := @quad_chars c₀ c₁ c₂ c₂ v₀ v₁ v₂ 0 _ h₀ h₁ hchunk hlt₂ (by decide)
      exact ⟨[a, b], by rw [base64Encode, hc₀, hc₁, hc₂ h₂]⟩
  | @oneByte c₀ c₁ v₁ h₀ h₁ hunused =>
      obtain ⟨v₀, h₀⟩ := Option.isSome_iff_exists.mp h₀
      have hlt₀ := (base64Value_some h₀).1
      have hlt₁ := (base64Value_some h₁).1
      obtain ⟨a, b, c, hbytes⟩ := @exists_bytes (v₀.toNat * 262144 + v₁.toNat * 4096) (by omega)
      have hb := b.toNat_lt
      have hc := c.toNat_lt
      have hrest : b.toNat * 256 + c.toNat < 65536 := by omega
      have hlow := low_zero (hbytes.trans (Nat.add_assoc _ _ _))
        hrest (by omega) (by omega)
      have hchunk : (a.toUInt32 <<< 16).toNat =
          v₀.toNat * 262144 + v₁.toNat * 4096 + (0 : UInt32).toNat * 64 + (0 : UInt32).toNat := by
        have hnat : (a.toUInt32 <<< 16).toNat = a.toNat * 65536 := by
          simpa using toNat_chunk a 0 0
        rw [hnat, UInt32.toNat_zero, Nat.zero_mul, Nat.add_zero, hlow]
      obtain ⟨hc₀, hc₁, -, -⟩ := @quad_chars c₀ c₁ c₁ c₁ v₀ v₁ 0 0 _ h₀ h₁ hchunk (by decide)
        (by decide)
      exact ⟨[a], by rw [base64Encode, hc₀, hc₁]⟩

/-- The decoder undoes the encoder and nothing else, exactly at the texts that are canonical or are
not grouped at all. -/
theorem base64Decode_exact (encoded : Str) :
    (∀ bytes, base64Decode encoded = some bytes ↔ encoded = base64Encode bytes) ↔
      (Grouped encoded → Canonical encoded) := by
  constructor
  · intro h hgrouped
    obtain ⟨bytes, hbytes⟩ := base64Decode_grouped.mpr hgrouped
    rw [(h bytes).mp hbytes]
    exact canonical_encode bytes
  · intro h bytes
    constructor
    · intro hdecode
      obtain ⟨bytes', rfl⟩ := (h (base64Decode_grouped.mp ⟨bytes, hdecode⟩)).encoded
      rw [Option.some.inj (hdecode.symm.trans (base64Decode_encode bytes'))]
    · rintro rfl
      exact base64Decode_encode bytes

/-- `AB=C` is taken. -/
theorem base64Decode_lenient : ¬ ∀ encoded bytes : Str,
    base64Decode encoded = some bytes ↔ encoded = base64Encode bytes := by
  intro h
  have hlenient : base64Decode (str "AB=C") = some [0, 2] := by rfl
  have hencoded := (h (str "AB=C") [0, 2]).mp hlenient
  exact absurd hencoded (by decide)

end ServerStorage.Crud
