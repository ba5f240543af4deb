/-
# `ServerStorage.Lib.Table` — a database that holds a map

Keys and values of a database are bytes.  `Table` says which map they stand for: the
bytes under the key of an index are those of its value, and no other key is in use.
-/
import ServerStorage.Lib.Lmdb

namespace Lib.Lmdb

variable {κ α : Type}

/-- `Stored v a`: the bytes `v` are those of the value `a`. -/
structure Table (key : κ → Str) (Stored : Str → α → Prop) (db : Db) (m : κ → Option α) :
    Prop where
  get : ∀ k, Option.Rel Stored (db.get (key k)) (m k)
  keys : ∀ e ∈ db.entries, ∃ k, e.1 = key k

namespace Table

variable {key : κ → Str} {Stored : Str → α → Prop} {db : Db} {m : κ → Option α}

theorem empty (key : κ → Str) (Stored : Str → α → Prop) :
    Table key Stored {} fun _ => none where
  get _ := .none
  keys _ h := absurd h List.not_mem_nil

/-- What is found stands for what the map has. -/
theorem found (h : Table key Stored db m) {k : κ} {v : Str} (hv : db.get (key k) = some v) :
    ∃ a, m k = some a ∧ Stored v a := by
  have hget := h.get k
  rw [hv] at hget
  cases hm : m k with
  | none =>
      rw [hm] at hget
      cases hget
  | some a =>
      rw [hm] at hget
      cases hget with
      | some hstored => exact ⟨a, rfl, hstored⟩

/-- What the map has is found. -/
theorem bytes (h : Table key Stored db m) {k : κ} {a : α} (ha : m k = some a) :
    ∃ v, db.get (key k) = some v ∧ Stored v a := by
  have hget := h.get k
  rw [ha] at hget
  cases hv : db.get (key k) with
  | none =>
      rw [hv] at hget
      cases hget
  | some v =>
      rw [hv] at hget
      cases hget with
      | some hstored => exact ⟨v, rfl, hstored⟩

theorem put [DecidableEq κ] (h : Table key Stored db m) (hkey : Function.Injective key) {k : κ}
    {v : Str} {a : α} (hstored : Stored v a) :
    Table key Stored (db.put (key k) v) (Function.update m k (some a)) where
  get k' := by
    rw [Db.get_put, Function.update_apply]
    split
    next heq =>
      rw [if_pos (hkey heq)]
      exact .some hstored
    next hne =>
      rw [if_neg fun heq => hne (congrArg key heq)]
      exact h.get k'
  keys e he := by
    rcases Db.mem_put.mp he with rfl | ⟨he, -⟩
    · exact ⟨k, rfl⟩
    · exact h.keys e he

theorem filter (h : Table key Stored db m) (keep : Str → Bool) :
    Table key Stored (db.filter keep) fun k => if keep (key k) then m k else none where
  get k := by
    rw [Db.get_filter]
    cases keep (key k) with
    | true => exact h.get k
    | false => exact .none
  keys e he := h.keys e (Db.mem_filter.mp he).1

/-- The entries one after the other, each read back as its index and its value. -/
theorem read (h : Table key Stored db m) {ReadAs : Str × Str → κ × α → Prop}
    (hread : ∀ {k v a x}, Stored v a → ReadAs (key k, v) x → x = (k, a)) {l : List (κ × α)}
    (hl : List.Forall₂ ReadAs db.entries l) :
    (l.map Prod.fst).Nodup ∧ ∀ x, x ∈ l ↔ m x.1 = some x.2 := by
  have hentry : ∀ {e : Str × Str} {x : κ × α}, e ∈ db.entries → ReadAs e x →
      e.1 = key x.1 ∧ m x.1 = some x.2 := by
    intro e x he hex
    obtain ⟨k, hk⟩ := h.keys e he
    obtain ⟨a, ha, hstored⟩ := h.found (hk ▸ Db.get_eq_some.mpr he)
    obtain rfl := hread hstored (show ReadAs (key k, e.2) x from hk ▸ hex)
    exact ⟨hk, ha⟩
  have hkeys : ∀ {es : List (Str × Str)} {l : List (κ × α)}, List.Forall₂ ReadAs es l →
      (∀ e ∈ es, e ∈ db.entries) → es.map Prod.fst = (l.map Prod.fst).map key := by
    intro es l hl hsub
    induction hl with
    | nil => rfl
    | cons hex _ ih =>
        obtain ⟨he, hes⟩ := List.forall_mem_cons.mp hsub
        rw [List.map_cons, List.map_cons, List.map_cons, ih hes, (hentry he hex).1]
  refine ⟨List.Nodup.of_map key ?_, fun x => ⟨fun hx => ?_, fun hx => ?_⟩⟩
  · rw [← hkeys hl fun _ he => he]
    exact List.pairwise_map.mpr (db.sorted.imp fun hlt => hlt.ne)
  · obtain ⟨e, he, hex⟩ := forall₂_mem hl hx
    exact (hentry he hex).2
  · obtain ⟨v, hv, hstored⟩ := h.bytes hx
    obtain ⟨y, hy, hvy⟩ := forall₂_mem hl.flip (Db.get_eq_some.mp hv)
    rw [hread hstored hvy] at hy
    exact hy

end Table

end Lib.Lmdb
