/-
# `ServerStorage.Lib.Twin` — two runs of a transaction side by side

Two environments are `Alike` when they differ only in the values of some keys of one
database, and there only by values of one length.  A computation that never looks at
those values does the same on both: it ends with the same error, or with the same result
and environments that are alike again.  The rules here say so of each call and of each
way of putting computations together (`Twin`), with a relation `E` between the results
for the computations that do look.
-/
import ServerStorage.Lib.Lmdb

namespace Lib.Lmdb

/-! ## Environments that are alike -/

/-- The same key, and a value of the same length; the same value but for the hidden keys. -/
structure EntryAlike (hidden : Str → Prop) (x y : Str × Str) : Prop where
  key : x.1 = y.1
  length : x.2.length = y.2.length
  value : ¬ hidden x.1 → x.2 = y.2

section
variable {hidden : Str → Prop}

theorem EntryAlike.refl (x : Str × Str) : EntryAlike hidden x x := ⟨rfl, rfl, fun _ => rfl⟩

theorem EntryAlike.symm {x y : Str × Str} (h : EntryAlike hidden x y) : EntryAlike hidden y x :=
  ⟨h.key.symm, h.length.symm, fun hy => (h.value (h.key ▸ hy)).symm⟩

theorem EntryAlike.trans {x y z : Str × Str} (h : EntryAlike hidden x y)
    (h' : EntryAlike hidden y z) : EntryAlike hidden x z :=
  ⟨h.key.trans h'.key, h.length.trans h'.length, fun hx => (h.value hx).trans
    (h'.value (h.key ▸ hx))⟩

theorem insertEntry_alike {x y : Str × Str} (hxy : EntryAlike hidden x y) {l l' : List (Str × Str)}
    (h : List.Forall₂ (EntryAlike hidden) l l') :
    List.Forall₂ (EntryAlike hidden) (insertEntry x.1 x.2 l) (insertEntry y.1 y.2 l') := by
  induction h with
  | nil => exact .cons hxy .nil
  | @cons a b l l' hab hl ih =>
      rw [insertEntry, insertEntry, ← hxy.key, ← hab.key]
      split
      · exact .cons ⟨rfl, hxy.length, hxy.value⟩ (.cons hab hl)
      · split
        · exact .cons ⟨rfl, hxy.length, hxy.value⟩ hl
        · exact .cons hab (hxy.key ▸ ih)

/-- Another value of the same length, under a hidden key that is there. -/
theorem overwrite_alike {k v w : Str} (hk : hidden k) (hlength : w.length = v.length) :
    ∀ {l : List (Str × Str)}, l.Pairwise (fun a b => a.1 < b.1) → (k, v) ∈ l →
      List.Forall₂ (EntryAlike hidden) (insertEntry k w l) l := by
  intro l
  induction l with
  | nil => exact fun _ hmem => absurd hmem List.not_mem_nil
  | cons e l ih =>
      intro hsorted hmem
      obtain ⟨he, hl⟩ := List.pairwise_cons.mp hsorted
      rcases List.mem_cons.mp hmem with rfl | hmem
      · rw [insertEntry, if_neg (lt_irrefl _), if_pos rfl]
        exact .cons ⟨rfl, hlength, fun hshown => absurd hk hshown⟩
          (List.forall₂_same.mpr fun x _ => .refl x)
      · have hlt := he (k, v) hmem
        rw [insertEntry, if_neg (lt_asymm hlt), if_neg hlt.ne']
        exact .cons (.refl e) (ih hl hmem)

theorem find_alike {l l' : List (Str × Str)} (h : List.Forall₂ (EntryAlike hidden) l l') (k : Str) :
    Option.Rel (EntryAlike hidden) (l.find? fun e => e.1 = k) (l'.find? fun e => e.1 = k) := by
  induction h with
  | nil => exact .none
  | @cons a b l l' hab hl ih =>
      rw [List.find?_cons, List.find?_cons, ← hab.key]
      split
      · exact .some hab
      · exact ih

end

section
variable {δ : Type}

/-- The environments differ only in the values of the hidden keys of one database. -/
structure Env.Alike (shown : δ) (hidden : Str → Prop) (env env' : Env δ) : Prop where
  mapSize : env.mapSize = env'.mapSize
  others : ∀ d, d ≠ shown → env.db d = env'.db d
  entries : List.Forall₂ (EntryAlike hidden) (env.db shown).entries (env'.db shown).entries

namespace Env.Alike

variable {shown d : δ} {hidden : Str → Prop} {env env' : Env δ}

theorem refl (env : Env δ) : env.Alike shown hidden env where
  mapSize := rfl
  others _ _ := rfl
  entries := List.forall₂_same.mpr fun x _ => .refl x

theorem symm (h : env.Alike shown hidden env') : env'.Alike shown hidden env where
  mapSize := h.mapSize.symm
  others d hd := (h.others d hd).symm
  entries := h.entries.flip.imp fun _ _ hxy => hxy.symm

theorem trans {env'' : Env δ} (h : env.Alike shown hidden env')
    (h' : env'.Alike shown hidden env'') : env.Alike shown hidden env'' where
  mapSize := h.mapSize.trans h'.mapSize
  others d hd := (h.others d hd).trans (h'.others d hd)
  entries := entries_trans h.entries h'.entries
where
  entries_trans : ∀ {l l' l'' : List (Str × Str)}, List.Forall₂ (EntryAlike hidden) l l' →
      List.Forall₂ (EntryAlike hidden) l' l'' → List.Forall₂ (EntryAlike hidden) l l''
    | _, _, _, .nil, .nil => .nil
    | _, _, _, .cons hxy h, .cons hyz h' => .cons (hxy.trans hyz) (entries_trans h h')

/-- A lookup finds the same, or two values of one length. -/
theorem get (h : env.Alike shown hidden env') (k : Str) :
    ((env.db shown).get k).map List.length = ((env'.db shown).get k).map List.length ∧
      (¬ hidden k → (env.db shown).get k = (env'.db shown).get k) := by
  have hrel := find_alike h.entries k
  rw [Db.get, Db.get]
  cases hx : (env.db shown).entries.find? fun e => e.1 = k with
  | none =>
      rw [hx] at hrel
      cases hy : (env'.db shown).entries.find? fun e => e.1 = k with
      | none => exact ⟨rfl, fun _ => rfl⟩
      | some y =>
          rw [hy] at hrel
          cases hrel
  | some x =>
      rw [hx] at hrel
      have hk : x.1 = k := by simpa using List.find?_some hx
      cases hy : (env'.db shown).entries.find? fun e => e.1 = k with
      | none =>
          rw [hy] at hrel
          cases hrel
      | some y =>
          rw [hy] at hrel
          cases hrel with
          | some hxy =>
              exact ⟨congrArg some hxy.length, fun hshown =>
                congrArg some (hxy.value (hk ▸ hshown))⟩

variable [DecidableEq δ]

/-- The same key put on both sides, with values that are alike. -/
theorem put (h : env.Alike shown hidden env') {k v v' : Str}
    (hv : if d = shown then EntryAlike hidden (k, v) (k, v') else v = v') :
    (env.set d ((env.db d).put k v)).Alike shown hidden
      (env'.set d ((env'.db d).put k v')) where
  mapSize := h.mapSize
  others d' hd' := by
    by_cases heq : d' = d
    · subst heq
      rw [if_neg hd'] at hv
      rw [set_db_self, set_db_self, h.others d' hd', hv]
    · rw [set_db_ne heq, set_db_ne heq, h.others d' hd']
  entries := by
    by_cases heq : d = shown
    · subst heq
      rw [if_pos rfl] at hv
      rw [set_db_self, set_db_self]
      exact insertEntry_alike hv h.entries
    · rw [set_db_ne (Ne.symm heq), set_db_ne (Ne.symm heq)]
      exact h.entries

theorem erase (h : env.Alike shown hidden env') (hd : d ≠ shown) (k : Str) :
    (env.set d ((env.db d).erase k)).Alike shown hidden
      (env'.set d ((env'.db d).erase k)) where
  mapSize := h.mapSize
  others d' hd' := by
    by_cases heq : d' = d
    · subst heq
      rw [set_db_self, set_db_self, h.others d' hd']
    · rw [set_db_ne heq, set_db_ne heq, h.others d' hd']
  entries := by
    rw [set_db_ne hd.symm, set_db_ne hd.symm]
    exact h.entries

omit [DecidableEq δ] in
theorem bytes [Fintype δ] (h : env.Alike shown hidden env') : env.bytes = env'.bytes := by
  have hshown : ∀ {l l' : List (Str × Str)}, List.Forall₂ (EntryAlike hidden) l l' →
      (l.map fun e => e.1.length + e.2.length).sum =
        (l'.map fun e => e.1.length + e.2.length).sum := by
    intro l l' hl
    induction hl with
    | nil => rfl
    | cons hab _ ih => rw [List.map_cons, List.map_cons, List.sum_cons, List.sum_cons, hab.key,
        hab.length, ih]
  refine Finset.sum_congr rfl fun d _ => ?_
  by_cases hd : d = shown
  · rw [hd]
    exact hshown h.entries
  · rw [h.others d hd]

end Env.Alike

/-! ## What LMDB holds -/

/-- No more than the map has room for, under keys of a size LMDB takes. -/
structure Env.Fits [Fintype δ] (env : Env δ) : Prop where
  bytes : env.bytes ≤ env.mapSize.toNat
  keys : ∀ d, ∀ e ∈ (env.db d).entries, e.1.length ≤ maxKeySize

namespace Env.Fits

variable [DecidableEq δ] [Fintype δ] {env : Env δ} {d : δ}

theorem put (h : env.Fits) {k v : Str} (hk : k.length ≤ maxKeySize)
    (hroom : (env.set d ((env.db d).put k v)).bytes ≤ env.mapSize.toNat) :
    (env.set d ((env.db d).put k v)).Fits := by
  refine ⟨hroom, fun d' e he => ?_⟩
  by_cases heq : d' = d
  · subst heq
    rw [set_db_self, Db.mem_put] at he
    rcases he with rfl | ⟨he, -⟩
    · exact hk
    · exact h.keys d' e he
  · rw [set_db_ne heq] at he
    exact h.keys d' e he

theorem erase (h : env.Fits) (d : δ) (k : Str) : (env.set d ((env.db d).erase k)).Fits := by
  constructor
  · refine le_trans (Finset.sum_le_sum fun d' _ => ?_) h.bytes
    by_cases heq : d' = d
    · subst heq
      rw [set_db_self]
      exact List.Sublist.sum_le_sum (List.filter_sublist.map _) fun _ _ => Nat.zero_le _
    · rw [set_db_ne heq]
  · intro d' e he
    by_cases heq : d' = d
    · subst heq
      rw [set_db_self] at he
      exact h.keys d' e (Db.mem_filter.mp he).1
    · rw [set_db_ne heq] at he
      exact h.keys d' e he

omit [DecidableEq δ] in
/-- Environments that are alike hold as much, under the same keys. -/
theorem of_alike {env' : Env δ} {shown : δ} {hidden : Str → Prop} (h : env.Fits)
    (halike : env.Alike shown hidden env') : env'.Fits := by
  refine ⟨halike.bytes ▸ halike.mapSize ▸ h.bytes, fun d e he => ?_⟩
  by_cases hd : d = shown
  · subst hd
    obtain ⟨x, hx, hxe⟩ := forall₂_mem halike.entries he
    exact hxe.key ▸ h.keys d x hx
  · exact h.keys d e (halike.others d hd ▸ he)

end Env.Fits

end

/-! ## Computations side by side -/

section
variable {δ : Type}

/-- The same error, or results in `E` and transactions in `R`, with the same faults to come. -/
inductive Ends (R : Env δ → Env δ → Prop) {ε α α' : Type} (E : α → α' → Prop) :
    Except ε (α × Txn δ) → Except ε (α' × Txn δ) → Prop
  | error (e : ε) : Ends R E (.error e) (.error e)
  | ok {a : α} {a' : α'} {t t' : Txn δ} (hresult : E a a') (henv : R t.env t'.env)
      (hfaults : t.faults = t'.faults) : Ends R E (.ok (a, t)) (.ok (a', t'))

/-- From environments in `R` and with the same faults, the computations end together. -/
def Twin (R : Env δ → Env δ → Prop) {ε α α' : Type} (E : α → α' → Prop) (m : TxnM δ ε α)
    (m' : TxnM δ ε α') : Prop :=
  ∀ t t', R t.env t'.env → t.faults = t'.faults → Ends R E (m.run t) (m'.run t')

namespace Twin

variable {R : Env δ → Env δ → Prop} {ε ε' α α' β β' σ : Type} {E : α → α' → Prop}
  {F : β → β' → Prop}

theorem bind {x : TxnM δ ε α} {x' : TxnM δ ε α'} {f : α → TxnM δ ε β} {f' : α' → TxnM δ ε β'}
    (hx : Twin R E x x') (hf : ∀ a a', E a a' → Twin R F (f a) (f' a')) :
    Twin R F (x >>= f) (x' >>= f') := by
  intro t t' henv hfaults
  rw [StateT.run_bind, StateT.run_bind]
  have hends := hx t t' henv hfaults
  generalize x.run t = r, x'.run t' = r' at hends
  cases hends with
  | error e => exact .error e
  | ok hresult henv hfaults => exact hf _ _ hresult _ _ henv hfaults

/-- Where the first computations have one result, the rest need only agree from there. -/
theorem step {x : TxnM δ ε α} {f : α → TxnM δ ε β} {f' : α → TxnM δ ε β'}
    (hx : Twin R Eq x x) (hf : ∀ a, Twin R F (f a) (f' a)) : Twin R F (x >>= f) (x >>= f') :=
  hx.bind fun _ a' heq => heq ▸ hf a'

theorem pure {a : α} {a' : α'} (h : E a a') :
    Twin R E (Pure.pure a : TxnM δ ε α) (Pure.pure a' : TxnM δ ε α') :=
  fun _ _ henv hfaults => .ok h henv hfaults

theorem throw (e : ε) : Twin R E (throw e : TxnM δ ε α) (throw e : TxnM δ ε α') :=
  fun _ _ _ _ => .error e

/-- Past a guard that is the same on both sides. -/
theorem failIf {c c' : Prop} [Decidable c] [Decidable c'] {e : ε} {f : Unit → TxnM δ ε β}
    {f' : Unit → TxnM δ ε β'} (hc : c ↔ c') (hf : ¬ c → Twin R F (f ()) (f' ())) :
    Twin R F (failIf c e >>= f) (failIf c' e >>= f') := by
  rw [Lmdb.failIf, Lmdb.failIf]
  by_cases h : c
  · rw [if_pos h, if_pos (hc.mp h)]
    exact (throw e).bind (E := fun _ _ => False) fun _ _ hfalse => hfalse.elim
  · rw [if_neg h, if_neg (mt hc.mpr h)]
    exact (pure rfl).bind (E := Eq) fun _ _ _ => hf h

theorem mapError {f : ε → ε'} {m : TxnM δ ε α} {m' : TxnM δ ε α'} (h : Twin R E m m') :
    Twin R E (mapError f m) (mapError f m') := by
  intro t t' henv hfaults
  have hends := h t t' henv hfaults
  simp only [Lmdb.mapError, StateT.run] at hends ⊢
  generalize m t = r, m' t' = r' at hends
  cases hends with
  | error e => exact .error _
  | ok hresult henv hfaults => exact .ok hresult henv hfaults

theorem call : Twin R Eq (call : TxnM δ Fault Unit) call := by
  intro t t' henv hfaults
  simp only [Lmdb.call, StateT.run]
  rw [← hfaults]
  split
  · exact .error _
  · exact .ok rfl henv rfl
  · exact .ok rfl henv hfaults

theorem readEnv : Twin R R (readEnv : TxnM δ ε (Env δ)) readEnv :=
  fun _ _ henv hfaults => .ok henv henv hfaults

theorem writeEnv {env env' : Env δ} (h : R env env') :
    Twin R Eq (writeEnv env : TxnM δ ε Unit) (writeEnv env') :=
  fun _ _ _ hfaults => .ok rfl h hfaults

theorem cursorLoop {first next : TxnM δ ε Unit} {body : σ → Str → Str → TxnM δ ε (σ × Bool)}
    (hfirst : Twin R Eq first first) (hnext : Twin R Eq next next)
    (hbody : ∀ s k v, Twin R Eq (body s k v) (body s k v)) (entries : List (Str × Str)) (s : σ) :
    Twin R Eq (cursorLoop first next body entries s) (cursorLoop first next body entries s) := by
  induction entries generalizing first s with
  | nil => exact hfirst.step fun _ => pure rfl
  | cons e rest ih =>
      refine hfirst.step fun _ => (hbody s e.1 e.2).step fun r => ?_
      obtain ⟨s', more⟩ := r
      cases more with
      | false => exact pure rfl
      | true => exact ih hnext s'

end Twin

/-! ## The calls on a database -/

/-- Alike, and such as LMDB holds. -/
def Env.Paired [Fintype δ] (shown : δ) (hidden : Str → Prop) (env env' : Env δ) : Prop :=
  env.Alike shown hidden env' ∧ env.Fits

namespace Env.Paired

variable [Fintype δ] {shown : δ} {hidden : Str → Prop} {env env' env'' : Env δ}

theorem symm (h : env.Paired shown hidden env') : env'.Paired shown hidden env :=
  ⟨h.1.symm, h.2.of_alike h.1⟩

theorem trans (h : env.Paired shown hidden env') (h' : env'.Paired shown hidden env'') :
    env.Paired shown hidden env'' :=
  ⟨h.1.trans h'.1, h.2⟩

/-- A value of the same length put under a hidden key that is there. -/
theorem overwrite [DecidableEq δ] (hfits : env.Fits) {k v w : Str} (hk : hidden k)
    (hget : (env.db shown).get k = some v) (hlength : w.length = v.length) :
    (env.set shown ((env.db shown).put k w)).Paired shown hidden env := by
  have halike : (env.set shown ((env.db shown).put k w)).Alike shown hidden env :=
    { mapSize := rfl
      others := fun d hd => set_db_ne hd
      entries := by
        rw [set_db_self]
        exact overwrite_alike hk hlength (env.db shown).sorted (Db.get_eq_some.mp hget) }
  exact ⟨halike, hfits.of_alike halike.symm⟩

end Env.Paired

namespace Twin

variable [DecidableEq δ] [Fintype δ] {shown d : δ} {hidden : Str → Prop}

theorem mdbGet {k : Str} (hk : d = shown → ¬ hidden k) :
    Twin (Env.Paired shown hidden) Eq (mdbGet d k) (mdbGet d k) := by
  rw [mdbGet_eq]
  refine call.step fun _ => failIf .rfl fun _ => readEnv.bind fun env env' h => pure ?_
  by_cases heq : d = shown
  · subst heq
    exact (h.1.get k).2 (hk rfl)
  · rw [h.1.others d heq]

omit [DecidableEq δ] in
/-- A lookup of any key finds values of one length. -/
theorem mdbGet_length (k : Str) :
    Twin (Env.Paired shown hidden) (fun r r' => r.map List.length = r'.map List.length)
      (Lmdb.mdbGet shown k) (Lmdb.mdbGet shown k) := by
  rw [mdbGet_eq]
  exact call.step fun _ => failIf .rfl fun _ => readEnv.bind fun _ _ h => pure (h.1.get k).1

theorem mdbPut {k v v' : Str} (hlength : v.length = v'.length)
    (hv : if d = shown then EntryAlike hidden (k, v) (k, v') else v = v') :
    Twin (Env.Paired shown hidden) Eq (mdbPut d k v) (Lmdb.mdbPut d k v') := by
  rw [mdbPut_eq, mdbPut_eq]
  refine call.step fun _ => failIf (by rw [hlength]) fun hsize => readEnv.bind fun env env' h => ?_
  have hput := h.1.put hv
  refine failIf (by rw [h.1.mapSize, hput.bytes]) fun hroom => writeEnv ⟨hput, h.2.put ?_ ?_⟩
  · rw [not_or, not_or, not_lt, not_lt] at hsize
    exact hsize.2.1
  · exact not_lt.mp hroom

theorem mdbDel (hd : d ≠ shown) (k : Str) :
    Twin (Env.Paired shown hidden) Eq (mdbDel d k) (Lmdb.mdbDel d k) := by
  refine call.step fun _ => failIf .rfl fun _ => readEnv.bind fun env env' h => ?_
  refine Twin.bind (writeEnv ⟨h.1.erase hd k, h.2.erase d k⟩) fun _ _ _ => pure ?_
  rw [h.1.others d hd]

end Twin

end

end Lib.Lmdb
