/-
# `ServerStorage.Lib.Codec` — readers that undo writers

A reader takes what it reads off the front of a byte string.  `Reads r bytes a` says
that it reads `a` off `bytes`, whatever follows; the rules follow the reader's own
structure, so that a round trip is one step for each field.  `Parses` says of every input
what the reader returns, by the spellings it takes.  `Scans` is `Reads` for a reader that
keeps its place in a byte string it does not consume.
-/
import ServerStorage.Lib.Words

namespace Lib

variable {ε α β : Type}

/-- The reader takes `bytes` off any string that starts with them, and returns `a`. -/
def Reads (r : StateT Str (Except ε) α) (bytes : Str) (a : α) : Prop :=
  ∀ rest, r.run (bytes ++ rest) = .ok (a, rest)

namespace Reads

theorem pure (a : α) : Reads (Pure.pure a : StateT Str (Except ε) α) [] a := fun _ => rfl

theorem bind {r : StateT Str (Except ε) α} {f : α → StateT Str (Except ε) β}
    {bytes bytes' : Str} {a : α} {b : β} (hr : Reads r bytes a) (hf : Reads (f a) bytes' b) :
    Reads (r >>= f) (bytes ++ bytes') b := by
  intro rest
  rw [StateT.run_bind, List.append_assoc, hr]
  exact hf rest

/-- The last step of a reader that only puts its parts together. -/
theorem map {r : StateT Str (Except ε) α} {bytes : Str} {a : α} (hr : Reads r bytes a)
    (f : α → β) : Reads (r >>= fun x => Pure.pure (f x)) bytes (f a) := by
  intro rest
  rw [StateT.run_bind, hr]
  rfl

theorem fmap {r : StateT Str (Except ε) α} {bytes : Str} {a : α} (hr : Reads r bytes a)
    (f : α → β) : Reads (f <$> r) bytes (f a) := by
  rw [map_eq_pure_bind]
  exact hr.map f

theorem of_eq {r : StateT Str (Except ε) α} {bytes bytes' : Str} {a a' : α}
    (h : Reads r bytes a) (hbytes : bytes' = bytes) (ha : a' = a) : Reads r bytes' a' := by
  rw [hbytes, ha]
  exact h

end Reads

/-! ## What a reader takes -/

/-- The reader returns `a` and leaves `rest` exactly where the input is a spelling of `a`
with `rest` behind it. -/
def Parses (r : StateT Str (Except ε) α) (spells : α → Str → Prop) : Prop :=
  ∀ input a rest, r.run input = .ok (a, rest) ↔ ∃ c, input = c ++ rest ∧ spells a c

namespace Parses

variable {r : StateT Str (Except ε) α} {spells : α → Str → Prop}

theorem congr {spells' : α → Str → Prop} (hr : Parses r spells)
    (h : ∀ a c, spells a c ↔ spells' a c) : Parses r spells' := by
  intro input a rest
  rw [hr]
  exact exists_congr fun c => and_congr_right fun _ => h a c

theorem pure (a : α) :
    Parses (Pure.pure a : StateT Str (Except ε) α) fun x c => x = a ∧ c = [] := by
  intro input x rest
  constructor
  · intro h
    cases h
    exact ⟨[], rfl, rfl, rfl⟩
  · rintro ⟨_, rfl, rfl, rfl⟩
    rfl

/-- One reader after the other spells the concatenation. -/
theorem bind {f : α → StateT Str (Except ε) β} {spells' : α → β → Str → Prop}
    (hr : Parses r spells) (hf : ∀ a, Parses (f a) (spells' a)) :
    Parses (r >>= f) fun b c =>
      ∃ a head tail, spells a head ∧ spells' a b tail ∧ c = head ++ tail := by
  intro input b rest
  rw [StateT.run_bind]
  constructor
  · intro h
    cases hrun : r.run input with
    | error e => rw [hrun] at h; cases h
    | ok result =>
        obtain ⟨a, rest'⟩ := result
        rw [hrun] at h
        obtain ⟨head, rfl, hhead⟩ := (hr input a rest').mp hrun
        obtain ⟨tail, rfl, htail⟩ := (hf a rest' b rest).mp h
        exact ⟨head ++ tail, (List.append_assoc ..).symm, a, head, tail, hhead, htail, rfl⟩
  · rintro ⟨_, rfl, a, head, tail, hhead, htail, rfl⟩
    rw [(hr _ a (tail ++ rest)).mpr ⟨head, List.append_assoc .., hhead⟩]
    exact (hf a _ b rest).mpr ⟨tail, rfl, htail⟩

/-- A field with one spelling, and what comes behind it. -/
theorem field {f : α → StateT Str (Except ε) β} {encode : α → Str} {spells' : α → β → Str → Prop}
    (hr : Parses r fun a c => c = encode a) (hf : ∀ a, Parses (f a) (spells' a)) :
    Parses (r >>= f) fun b c => ∃ a tail, spells' a b tail ∧ c = encode a ++ tail := by
  refine (hr.bind hf).congr fun b c => ?_
  constructor
  · rintro ⟨a, _, tail, rfl, htail, rfl⟩
    exact ⟨a, tail, htail, rfl⟩
  · rintro ⟨a, tail, htail, rfl⟩
    exact ⟨a, _, tail, rfl, htail, rfl⟩

theorem map (hr : Parses r spells) (f : α → β) :
    Parses (r >>= fun x => Pure.pure (f x)) fun b c => ∃ a, spells a c ∧ b = f a := by
  refine (hr.bind fun a => pure (f a)).congr fun b c => ?_
  constructor
  · rintro ⟨a, head, _, hhead, ⟨rfl, rfl⟩, rfl⟩
    exact ⟨a, by rwa [List.append_nil], rfl⟩
  · rintro ⟨a, hc, rfl⟩
    exact ⟨a, c, [], hc, ⟨rfl, rfl⟩, (List.append_nil c).symm⟩

/-- A reader that refuses some values first. -/
theorem guard {c : Prop} [Decidable c] {e : ε} (hr : Parses r spells) :
    Parses (if c then throw e else r) fun a bytes => ¬c ∧ spells a bytes := by
  intro input a rest
  split
  next h =>
    constructor
    · intro hrun
      cases hrun
    · rintro ⟨_, _, hnot, _⟩
      exact absurd h hnot
  next h =>
    rw [hr]
    exact exists_congr fun bytes => and_congr_right fun _ => (and_iff_right h).symm

end Parses

/-! ## Readers at an offset -/

/-- The bytes stand in `raw` at the offset. -/
def StandsAt (raw bytes : Str) (offset : Nat) : Prop :=
  ∃ pre rest, raw = pre ++ (bytes ++ rest) ∧ pre.length = offset

namespace StandsAt

variable {raw bytes bytes' : Str} {offset : Nat}

theorem whole (raw : Str) : StandsAt raw raw 0 := ⟨[], [], (List.append_nil raw).symm, rfl⟩

theorem left (h : StandsAt raw (bytes ++ bytes') offset) : StandsAt raw bytes offset := by
  obtain ⟨pre, rest, rfl, hpre⟩ := h
  exact ⟨pre, bytes' ++ rest, by rw [List.append_assoc], hpre⟩

theorem right (h : StandsAt raw (bytes ++ bytes') offset) :
    StandsAt raw bytes' (offset + bytes.length) := by
  obtain ⟨pre, rest, rfl, rfl⟩ := h
  exact ⟨pre ++ bytes, rest, by simp only [List.append_assoc], List.length_append⟩

theorem le (h : StandsAt raw bytes offset) : offset + bytes.length ≤ raw.length := by
  obtain ⟨pre, rest, rfl, rfl⟩ := h
  simp only [List.length_append]
  omega

theorem drop (h : StandsAt raw bytes offset) : ∃ rest, raw.drop offset = bytes ++ rest := by
  obtain ⟨pre, rest, rfl, rfl⟩ := h
  exact ⟨rest, List.drop_left⟩

end StandsAt

/-- Where `bytes` stand, the reader returns `a` and the offset behind them. -/
def Scans (raw : Str) (r : StateT Nat Option α) (bytes : Str) (a : α) : Prop :=
  ∀ offset, StandsAt raw bytes offset → r.run offset = some (a, offset + bytes.length)

namespace Scans

variable {raw bytes bytes' : Str}

theorem bind {r : StateT Nat Option α} {f : α → StateT Nat Option β} {a : α} {b : β}
    (hr : Scans raw r bytes a) (hf : Scans raw (f a) bytes' b) :
    Scans raw (r >>= f) (bytes ++ bytes') b := by
  intro offset h
  rw [StateT.run_bind, hr offset h.left, List.length_append, ← Nat.add_assoc]
  exact hf _ h.right

theorem map {r : StateT Nat Option α} {a : α} (hr : Scans raw r bytes a) (f : α → β) :
    Scans raw (r >>= fun x => Pure.pure (f x)) bytes (f a) := by
  intro offset h
  rw [StateT.run_bind, hr offset h]
  rfl

end Scans

end Lib
