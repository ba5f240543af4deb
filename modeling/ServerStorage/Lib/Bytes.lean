/-
# `ServerStorage.Lib.Bytes` — byte strings, their order, and sorting by a comparator

A `std::string` holds arbitrary bytes and compares by unsigned byte, first
difference first; that is the lexicographic order of `List UInt8`.
-/
import Mathlib

namespace Lib

/-- A byte string. -/
abbrev Str := List UInt8

/-- The bytes of an ASCII literal. -/
def str (s : String) : Str := s.toList.map fun c => c.toNat.toUInt8

/-- A text of 7-bit characters. -/
structure Text where
  bytes : Str
  ascii : ∀ b ∈ bytes, b < 0x80
  deriving DecidableEq, Repr

theorem ascii_sevenBit (l : List Char) :
    ∀ b ∈ l.map fun c => (c.toNat % 128).toUInt8, b < 0x80 := by
  intro b hb
  obtain ⟨c, -, rfl⟩ := List.mem_map.mp hb
  rw [UInt8.lt_iff_toNat_lt, Nat.toUInt8_eq, UInt8.toNat_ofNat']
  exact (Nat.mod_le _ _).trans_lt (Nat.mod_lt _ (by decide))

/-- The text of an ASCII literal. -/
def text (s : String) : Text := ⟨s.toList.map fun c => (c.toNat % 128).toUInt8, ascii_sevenBit _⟩

namespace Text

theorem ascii_append (a b : Text) : ∀ c ∈ a.bytes ++ b.bytes, c < 0x80 := by
  intro c hc
  rcases List.mem_append.mp hc with hc | hc
  · exact a.ascii c hc
  · exact b.ascii c hc

instance instAppendText : Append Text where
  append a b := ⟨a.bytes ++ b.bytes, ascii_append a b⟩

end Text

/-- `max_size` of a container, by the size of its elements. -/
def maxSize (element : Nat) : Nat := (2 ^ 63 - 1) / element

theorem maxSize_lt (element : Nat) : maxSize element < 2 ^ 63 :=
  Nat.lt_of_le_of_lt (Nat.div_le_self _ _) (by decide)

instance linearOrderUInt8 : LinearOrder UInt8 where
  le_refl := UInt8.le_refl
  le_trans _ _ _ := UInt8.le_trans
  le_antisymm _ _ := UInt8.le_antisymm
  le_total := UInt8.le_total
  lt_iff_le_not_ge a b := by
    simp only [UInt8.lt_iff_toNat_lt, UInt8.le_iff_toNat_le]; omega
  toDecidableLE := inferInstance
  toDecidableLT := inferInstance

instance linearOrderUInt64 : LinearOrder UInt64 where
  le_refl := UInt64.le_refl
  le_trans _ _ _ := UInt64.le_trans
  le_antisymm _ _ := UInt64.le_antisymm
  le_total := UInt64.le_total
  lt_iff_le_not_ge a b := by
    simp only [UInt64.lt_iff_toNat_lt, UInt64.le_iff_toNat_le]; omega
  toDecidableLE := inferInstance
  toDecidableLT := inferInstance

/-- The decimal digits of a number, as `operator<<` prints an unsigned value. -/
def decimal (n : Nat) : Str := (Nat.toDigits 10 n).map fun c => c.toNat.toUInt8

/-- A signed value as `operator<<` prints it. -/
def decimalInt (i : Int) : Str :=
  if i < 0 then str "-" ++ decimal i.natAbs else decimal i.natAbs

/-! ## Sorting by a comparator -/

/-- `std::sort` with comparator `lt`.  Where `lt` orders all elements the result
is the only sorted permutation; on ties, which `std::sort` leaves open, the
order of the input is kept. -/
def sortBy {α : Type} (lt : α → α → Bool) (l : List α) : List α :=
  l.insertionSort fun a b => lt b a = false

theorem mem_sortBy {α : Type} {lt : α → α → Bool} {l : List α} {x : α} :
    x ∈ sortBy lt l ↔ x ∈ l :=
  List.mem_insertionSort _

theorem sortBy_perm {α : Type} (lt : α → α → Bool) (l : List α) :
    (sortBy lt l).Perm l :=
  List.perm_insertionSort _ l

/-- A comparator that never contradicts the key `f` leaves the keys in order. -/
theorem sortBy_pairwise {α κ : Type} [Preorder κ] {lt : α → α → Bool} (f : α → κ)
    (hlt : ∀ a b, lt a b = true → f a ≤ f b) (hge : ∀ a b, lt a b = false → f b ≤ f a) :
    ∀ l : List α, (sortBy lt l).Pairwise (fun a b => f a ≤ f b)
  | [] => List.Pairwise.nil
  | a :: l => by
      have ih := sortBy_pairwise f hlt hge l
      rw [sortBy, List.insertionSort_cons]
      exact insert_pairwise a (sortBy lt l) ih
where
  insert_pairwise (a : α) : ∀ l : List α, l.Pairwise (fun a b => f a ≤ f b) →
      (l.orderedInsert (fun a b => lt b a = false) a).Pairwise (fun a b => f a ≤ f b)
    | [], _ => List.pairwise_singleton _ _
    | b :: l, h => by
        obtain ⟨hb, hl⟩ := List.pairwise_cons.mp h
        rw [List.orderedInsert_cons]
        split
        next hab =>
          refine List.pairwise_cons.mpr ⟨fun x hx => ?_, h⟩
          rcases List.mem_cons.mp hx with rfl | hx
          · exact hge _ _ hab
          · exact (hge _ _ hab).trans (hb x hx)
        next hab =>
          have hba : f b ≤ f a := hlt _ _ (by simpa using hab)
          refine List.pairwise_cons.mpr ⟨fun x hx => ?_, insert_pairwise a l hl⟩
          rcases (List.mem_orderedInsert _).mp hx with rfl | hx
          · exact hba
          · exact hb x hx

/-- Two lists of the same elements, no key twice, sort to the same list. -/
theorem sortBy_ext {α κ : Type} [PartialOrder κ] {lt : α → α → Bool} (f : α → κ)
    (hlt : ∀ a b, lt a b = true → f a ≤ f b) (hge : ∀ a b, lt a b = false → f b ≤ f a)
    {l l' : List α} (hl : (l.map f).Nodup) (hl' : (l'.map f).Nodup)
    (hmem : ∀ a, a ∈ l ↔ a ∈ l') : sortBy lt l = sortBy lt l' := by
  have hperm : l.Perm l' := (List.perm_ext_iff_of_nodup hl.of_map hl'.of_map).mpr hmem
  refine List.Perm.eq_of_pairwise (fun a b ha hb hab hba => ?_) (sortBy_pairwise f hlt hge l)
    (sortBy_pairwise f hlt hge l')
    ((sortBy_perm lt l).trans (hperm.trans (sortBy_perm lt l').symm))
  exact List.inj_on_of_nodup_map hl (mem_sortBy.mp ha) ((hmem b).mpr (mem_sortBy.mp hb))
    (le_antisymm hab hba)

/-- In a list sorted by a strict order the first ones are those that few come before. -/
theorem mem_take_iff_countP {α : Type} {lt : α → α → Bool}
    (hasymm : ∀ {a b}, lt a b = true → lt b a = false) {x : α} : ∀ {l : List α} {k : Nat},
      l.Pairwise (fun a b => lt a b = true) → x ∈ l → (x ∈ l.take k ↔ l.countP (lt · x) < k)
  | [], _, _, hx => absurd hx List.not_mem_nil
  | a :: l, k, h, hx => by
      obtain ⟨ha, hl⟩ := List.pairwise_cons.mp h
      have hirrefl : ∀ b, lt b b = false := fun b => by
        cases hb : lt b b with
        | false => rfl
        | true => exact absurd (hasymm hb) (by simp [hb])
      rcases List.mem_cons.mp hx with rfl | hx
      · have hzero : (x :: l).countP (lt · x) = 0 := by
          refine List.countP_eq_zero.mpr fun y hy => ?_
          rcases List.mem_cons.mp hy with rfl | hy
          · simp [hirrefl]
          · simp [hasymm (ha y hy)]
        rw [hzero]
        cases k with
        | zero => simp
        | succ k => simp
      · have hlt := ha x hx
        have hne : x ≠ a := by
          rintro rfl
          simp [hirrefl] at hlt
        have hcount : (a :: l).countP (lt · x) = l.countP (lt · x) + 1 :=
          List.countP_cons_of_pos hlt
        rw [hcount]
        cases k with
        | zero => simp
        | succ k =>
            rw [List.take_succ_cons, List.mem_cons, or_iff_right hne,
              mem_take_iff_countP hasymm hl hx, Nat.succ_lt_succ_iff]

/-- In a list with increasing keys an element stands where as many lie below it. -/
theorem getElem?_iff_countP {α κ : Type} [LinearOrder κ] {f : α → κ} {x : α} :
    ∀ {l : List α}, l.Pairwise (fun a b => f a < f b) → ∀ {i : Nat},
      (l[i]? = some x ↔ x ∈ l ∧ l.countP (fun a => f a < f x) = i)
  | [], _, i => by simp
  | a :: l, h, i => by
      obtain ⟨ha, hl⟩ := List.pairwise_cons.mp h
      have hzero : (a :: l).countP (fun b => f b < f a) = 0 := by
        refine List.countP_eq_zero.mpr fun y hy => ?_
        rcases List.mem_cons.mp hy with rfl | hy
        · simp
        · simpa using (ha y hy).le
      have hsucc : x ∈ l → (a :: l).countP (fun b => f b < f x) =
          l.countP (fun b => f b < f x) + 1 :=
        fun hx => List.countP_cons_of_pos (decide_eq_true (ha x hx))
      cases i with
      | zero =>
          rw [List.getElem?_cons_zero, Option.some.injEq]
          constructor
          · rintro rfl
            exact ⟨List.mem_cons_self, hzero⟩
          · rintro ⟨hx, hcount⟩
            refine ((List.mem_cons.mp hx).resolve_right fun hx => ?_).symm
            rw [hsucc hx] at hcount
            exact Nat.succ_ne_zero _ hcount
      | succ i =>
          rw [List.getElem?_cons_succ, getElem?_iff_countP hl]
          constructor
          · rintro ⟨hx, rfl⟩
            exact ⟨List.mem_cons_of_mem a hx, hsucc hx⟩
          · rintro ⟨hx, hcount⟩
            rcases List.mem_cons.mp hx with rfl | hx
            · rw [hzero] at hcount
              cases hcount
            · rw [hsucc hx] at hcount
              exact ⟨hx, Nat.succ.inj hcount⟩

/-- Where `f` keeps the key, what it keeps of a list without repeated keys has none. -/
theorem nodup_map_filterMap {α β κ : Type} {f : α → Option β} {g : β → κ} {k : α → κ}
    (hk : ∀ a b, f a = some b → g b = k a) {l : List α} (h : (l.map k).Nodup) :
    ((l.filterMap f).map g).Nodup := by
  rw [List.Nodup, List.pairwise_map, List.pairwise_filterMap]
  refine (List.pairwise_map.mp h).imp fun hne x hx y hy => ?_
  rw [hk _ _ hx, hk _ _ hy]
  exact hne

/-- Two lists with increasing keys and the same elements are one list. -/
theorem eq_of_increasing {α κ : Type} [Preorder κ] {f : α → κ} {l l' : List α}
    (hl : l.Pairwise fun a b => f a < f b) (hl' : l'.Pairwise fun a b => f a < f b)
    (hmem : ∀ a, a ∈ l ↔ a ∈ l') : l = l' := by
  have hne : ∀ {l : List α}, l.Pairwise (fun a b => f a < f b) → l.Nodup :=
    fun h => h.imp fun hlt heq => hlt.ne (congrArg f heq)
  have hperm := (List.perm_ext_iff_of_nodup (hne hl) (hne hl')).mpr hmem
  exact List.Perm.eq_of_pairwise (fun _ _ _ _ hab hba => absurd (hab.trans hba) (lt_irrefl _))
    hl hl' hperm

/-- A zip keeps what relates the elements of its first list. -/
theorem pairwise_zip {α β : Type} {R : α → α → Prop} : ∀ {l : List α} (l' : List β),
    l.Pairwise R → (l.zip l').Pairwise fun p q => R p.1 q.1
  | [], _, _ => .nil
  | _ :: _, [], _ => .nil
  | _ :: l, _ :: l', h => by
      obtain ⟨ha, hl⟩ := List.pairwise_cons.mp h
      rw [List.zip_cons_cons]
      exact .cons (fun q hq => ha q.1 (List.of_mem_zip hq).1) (pairwise_zip l' hl)

/-- Whatever stands in the one list stands for something in the other. -/
theorem forall₂_mem {α β : Type} {R : α → β → Prop} {l : List α} {l' : List β}
    (h : List.Forall₂ R l l') {b : β} (hb : b ∈ l') : ∃ a ∈ l, R a b := by
  induction h with
  | nil => exact absurd hb List.not_mem_nil
  | @cons a b' l l' hab _ ih =>
      rcases List.mem_cons.mp hb with rfl | hb
      · exact ⟨a, List.mem_cons_self, hab⟩
      · obtain ⟨a', ha', hab'⟩ := ih hb
        exact ⟨a', List.mem_cons_of_mem _ ha', hab'⟩

end Lib
