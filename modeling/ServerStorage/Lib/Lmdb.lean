/-
# `ServerStorage.Lib.Lmdb` — an ordered key-value environment with transactions

What the LMDB documentation says of `mdb_put`, `mdb_get`, `mdb_del` and cursors.
A database is a list of key-value pairs in strictly ascending byte order of the
keys (`Db`, the order is a field), an environment a family of databases with a
map size, and a transaction a computation over the environment that may end in
an error, in which case nothing of it is kept.

Every call consumes one element of a list of faults: the return code and text of
a failure that comes from outside (a full disk, no memory), or none.  Past the
end of the list no call fails by itself.  A put that does not fit the map is
refused in any case, and so is a key or a value of a size LMDB does not take.
-/
import ServerStorage.Lib.Words

namespace Lib.Lmdb

/-! ## Databases -/

theorem sorted_nil : ([] : List (Str × Str)).Pairwise (fun a b => a.1 < b.1) :=
  List.Pairwise.nil

/-- Key-value pairs in ascending order of the keys. -/
structure Db where
  entries : List (Str × Str) := []
  sorted : entries.Pairwise (fun a b => a.1 < b.1) := by exact sorted_nil
  deriving DecidableEq

/-- The pair is put in its place; the value of a key already there is replaced. -/
def insertEntry (k v : Str) : List (Str × Str) → List (Str × Str)
  | [] => [(k, v)]
  | e :: rest =>
      if k < e.1 then (k, v) :: e :: rest
      else if k = e.1 then (k, v) :: rest
      else e :: insertEntry k v rest

theorem mem_insertEntry {k v : Str} {x : Str × Str} : ∀ {l : List (Str × Str)},
    l.Pairwise (fun a b => a.1 < b.1) →
      (x ∈ insertEntry k v l ↔ x = (k, v) ∨ (x ∈ l ∧ x.1 ≠ k))
  | [], _ => by simp [insertEntry]
  | e :: rest, h => by
      obtain ⟨he, hrest⟩ := List.pairwise_cons.mp h
      rw [insertEntry]
      split
      next hlt =>
        have hne : ∀ y ∈ e :: rest, y.1 ≠ k := by
          intro y hy
          rcases List.mem_cons.mp hy with rfl | hy
          · exact hlt.ne'
          · exact (hlt.trans (he y hy)).ne'
        rw [List.mem_cons]
        exact or_congr_right ⟨fun hx => ⟨hx, hne x hx⟩, And.left⟩
      next hge =>
        split
        next heq =>
          have hne : ∀ y ∈ rest, y.1 ≠ k := fun y hy => heq ▸ (he y hy).ne'
          rw [List.mem_cons, List.mem_cons]
          refine or_congr_right ⟨fun hx => ⟨.inr hx, hne x hx⟩, ?_⟩
          rintro ⟨rfl | hx, hxk⟩
          · exact absurd heq.symm hxk
          · exact hx
        next hne =>
          rw [List.mem_cons, List.mem_cons, mem_insertEntry hrest]
          constructor
          · rintro (rfl | rfl | ⟨hx, hxk⟩)
            · exact .inr ⟨.inl rfl, fun h' => hne h'.symm⟩
            · exact .inl rfl
            · exact .inr ⟨.inr hx, hxk⟩
          · rintro (rfl | ⟨rfl | hx, hxk⟩)
            · exact .inr (.inl rfl)
            · exact .inl rfl
            · exact .inr (.inr ⟨hx, hxk⟩)

theorem insertEntry_sorted {k v : Str} : ∀ {l : List (Str × Str)},
    l.Pairwise (fun a b => a.1 < b.1) → (insertEntry k v l).Pairwise (fun a b => a.1 < b.1)
  | [], _ => List.pairwise_singleton _ _
  | e :: rest, h => by
      obtain ⟨he, hrest⟩ := List.pairwise_cons.mp h
      rw [insertEntry]
      split
      next hlt =>
        refine List.pairwise_cons.mpr ⟨?_, h⟩
        intro y hy
        rcases List.mem_cons.mp hy with rfl | hy
        · exact hlt
        · exact hlt.trans (he y hy)
      next hge =>
        split
        next heq => exact List.pairwise_cons.mpr ⟨fun y hy => heq ▸ he y hy, hrest⟩
        next hne =>
          refine List.pairwise_cons.mpr ⟨?_, insertEntry_sorted hrest⟩
          intro y hy
          rcases (mem_insertEntry hrest).mp hy with rfl | ⟨hy, -⟩
          · exact lt_of_le_of_ne (not_lt.mp hge) fun h' => hne h'.symm
          · exact he y hy

namespace Db

def get (db : Db) (k : Str) : Option Str := (db.entries.find? fun e => e.1 = k).map Prod.snd

def put (db : Db) (k v : Str) : Db :=
  { entries := insertEntry k v db.entries, sorted := insertEntry_sorted db.sorted }

/-- The pairs whose key passes the test. -/
def filter (db : Db) (keep : Str → Bool) : Db :=
  { entries := db.entries.filter fun e => keep e.1, sorted := db.sorted.filter _ }

def erase (db : Db) (k : Str) : Db := db.filter fun k' => k' != k

/-- What a cursor walks over from `MDB_SET_RANGE` on: the keys from `k` upwards. -/
def seek (db : Db) (k : Str) : List (Str × Str) := db.entries.dropWhile fun e => e.1 < k

/-- The bytes of keys and values. -/
def bytes (db : Db) : Nat := (db.entries.map fun e => e.1.length + e.2.length).sum

theorem get_eq_some {db : Db} {k v : Str} : db.get k = some v ↔ (k, v) ∈ db.entries := by
  have hnd : (db.entries.map Prod.fst).Nodup :=
    List.pairwise_map.mpr (db.sorted.imp fun h => h.ne)
  rw [get, Option.map_eq_some_iff]
  constructor
  · rintro ⟨⟨k', v'⟩, hfind, rfl⟩
    have hk : k' = k := by simpa using List.find?_some hfind
    exact hk ▸ List.mem_of_find?_eq_some hfind
  · intro hmem
    cases hfind : db.entries.find? fun e => e.1 = k with
    | none =>
        have hno := List.find?_eq_none.mp hfind (k, v) hmem
        exact absurd (decide_eq_true rfl) hno
    | some e =>
        have hk : e.1 = k := by simpa using List.find?_some hfind
        have he : e = (k, v) :=
          List.inj_on_of_nodup_map hnd (List.mem_of_find?_eq_some hfind) hmem hk
        exact ⟨e, rfl, by rw [he]⟩

theorem get_eq_none {db : Db} {k : Str} : db.get k = none ↔ ∀ v, (k, v) ∉ db.entries := by
  rw [← not_iff_not, ← ne_eq, Option.ne_none_iff_exists']
  simp only [get_eq_some, not_forall, not_not]

/-- Databases with the same contents are the same. -/
theorem ext_get {a b : Db} (h : ∀ k, a.get k = b.get k) : a = b := by
  have hmem : ∀ e, e ∈ a.entries ↔ e ∈ b.entries := fun e => by
    rw [show e = (e.1, e.2) from rfl, ← get_eq_some, ← get_eq_some, h]
  have hperm : a.entries.Perm b.entries :=
    (List.perm_ext_iff_of_nodup (a.sorted.imp fun hlt heq => hlt.ne (congrArg Prod.fst heq))
      (b.sorted.imp fun hlt heq => hlt.ne (congrArg Prod.fst heq))).mpr hmem
  have hentries : a.entries = b.entries := by
    refine List.Perm.eq_of_pairwise (fun x y _ _ hxy hyx => ?_) a.sorted b.sorted hperm
    exact absurd hxy hyx.asymm
  cases a; cases b; simpa using hentries

@[simp] theorem mem_put {db : Db} {k v : Str} {x : Str × Str} :
    x ∈ (db.put k v).entries ↔ x = (k, v) ∨ (x ∈ db.entries ∧ x.1 ≠ k) :=
  mem_insertEntry db.sorted

@[simp] theorem mem_filter {db : Db} {keep : Str → Bool} {x : Str × Str} :
    x ∈ (db.filter keep).entries ↔ x ∈ db.entries ∧ keep x.1 = true :=
  List.mem_filter

theorem get_put (db : Db) (k v k' : Str) :
    (db.put k v).get k' = if k' = k then some v else db.get k' := by
  refine Option.ext fun w => ?_
  rw [get_eq_some, mem_put]
  split
  next h => subst h; simp [eq_comm]
  next h => rw [get_eq_some]; simp [h]

theorem get_filter (db : Db) (keep : Str → Bool) (k : Str) :
    (db.filter keep).get k = if keep k then db.get k else none := by
  refine Option.ext fun w => ?_
  rw [get_eq_some, mem_filter]
  split
  next h => rw [get_eq_some]; simp [h]
  next h => simp [h]

theorem get_erase (db : Db) (k k' : Str) :
    (db.erase k).get k' = if k' = k then none else db.get k' := by
  rw [erase, get_filter]
  by_cases h : k' = k <;> simp [h]

theorem filter_congr {db : Db} {p q : Str → Bool} (h : ∀ e ∈ db.entries, p e.1 = q e.1) :
    db.filter p = db.filter q := by
  simp only [filter, Db.mk.injEq]
  exact List.filter_congr h

theorem filter_true (db : Db) : (db.filter fun _ => true) = db :=
  ext_get fun k => by rw [get_filter, if_pos rfl]

theorem erase_filter (db : Db) (p : Str → Bool) (k : Str) :
    (db.filter p).erase k = db.filter fun k' => p k' && k' != k := by
  refine ext_get fun k' => ?_
  rw [get_erase, get_filter, get_filter]
  by_cases h : k' = k <;> simp [h]

/-- A cursor set to a key walks over the pairs from that key on. -/
theorem seek_eq_filter (db : Db) (k : Str) :
    db.seek k = db.entries.filter fun e => decide (k ≤ e.1) :=
  dropWhile_eq db.sorted
where
  dropWhile_eq {k : Str} : ∀ {l : List (Str × Str)}, l.Pairwise (fun a b => a.1 < b.1) →
      l.dropWhile (fun e => e.1 < k) = l.filter fun e => decide (k ≤ e.1)
    | [], _ => rfl
    | e :: l, h => by
        obtain ⟨he, hl⟩ := List.pairwise_cons.mp h
        by_cases hlt : e.1 < k
        · rw [List.dropWhile_cons_of_pos (by simpa using hlt),
            List.filter_cons_of_neg (by simpa using hlt), dropWhile_eq hl]
        · have hkeep : ∀ x ∈ e :: l, decide (k ≤ x.1) = true := by
            intro x hx
            rcases List.mem_cons.mp hx with rfl | hx
            · exact decide_eq_true (not_lt.mp hlt)
            · exact decide_eq_true ((not_lt.mp hlt).trans (he x hx).le)
          rw [List.dropWhile_cons_of_neg (by simpa using hlt), List.filter_eq_self.mpr hkeep]

theorem mem_seek {db : Db} {k : Str} {x : Str × Str} :
    x ∈ db.seek k ↔ x ∈ db.entries ∧ k ≤ x.1 := by
  rw [seek_eq_filter, List.mem_filter, decide_eq_true_eq]

theorem seek_sorted (db : Db) (k : Str) : (db.seek k).Pairwise (fun a b => a.1 < b.1) :=
  db.sorted.sublist (List.dropWhile_sublist _)

end Db

/-! ## Return codes -/

/-- A failing call: its return code and what `mdb_strerror` says of it, in the "C" locale. -/
structure Fault where
  rc : Int
  detail : Text
  deriving DecidableEq

def mapFull : Fault :=
  { rc := -30792, detail := text "MDB_MAP_FULL: Environment mapsize limit reached" }

def badValsize : Fault :=
  { rc := -30781
    detail := text
      "MDB_BAD_VALSIZE: Unsupported size of key/DB name/data, or wrong DUPFIXED size" }

def keyExist : Fault :=
  { rc := -30799, detail := text "MDB_KEYEXIST: Key/data pair already exists" }

/-- The greatest key and value sizes LMDB takes. -/
def maxKeySize : Nat := 511
def maxDataSize : Nat := 0xffffffff

namespace Db

/-- What `mdb_get` answers from the pairs; none is `MDB_NOTFOUND`. -/
def getKey (db : Db) (k : Str) : Except Fault (Option Str) :=
  if k = [] then .error badValsize else .ok (db.get k)

/-- What `mdb_put` makes of the pairs; the flag is `MDB_NOOVERWRITE`. -/
def putKey (db : Db) (k v : Str) (noOverwrite : Bool) : Except Fault Db :=
  if k = [] ∨ maxKeySize < k.length ∨ maxDataSize < v.length then .error badValsize
  else if noOverwrite = true ∧ (db.get k).isSome then .error keyExist
  else .ok (db.put k v)

section
variable {db : Db} {k v : Str} {noOverwrite : Bool}

theorem getKey_ok (hk : k ≠ []) : db.getKey k = .ok (db.get k) := if_neg hk

theorem putKey_taken (hk : k ≠ []) (hsize : k.length ≤ maxKeySize) (hv : v.length ≤ maxDataSize)
    (h : (db.get k).isSome) : db.putKey k v true = .error keyExist := by
  have hsizes : ¬ (k = [] ∨ maxKeySize < k.length ∨ maxDataSize < v.length) := by
    rw [not_or, not_or, not_lt, not_lt]
    exact ⟨hk, hsize, hv⟩
  rw [putKey, if_neg hsizes, if_pos ⟨rfl, h⟩]

theorem putKey_ok (hk : k ≠ []) (hsize : k.length ≤ maxKeySize) (hv : v.length ≤ maxDataSize)
    (h : noOverwrite = true → db.get k = none) :
    db.putKey k v noOverwrite = .ok (db.put k v) := by
  have hsizes : ¬ (k = [] ∨ maxKeySize < k.length ∨ maxDataSize < v.length) := by
    rw [not_or, not_or, not_lt, not_lt]
    exact ⟨hk, hsize, hv⟩
  have hfree : ¬ (noOverwrite = true ∧ (db.get k).isSome) := by
    rintro ⟨hflag, hsome⟩
    rw [h hflag] at hsome
    cases hsome
  rw [putKey, if_neg hsizes, if_neg hfree]

theorem putKey_large (hv : maxDataSize < v.length) :
    db.putKey k v noOverwrite = .error badValsize :=
  if_pos (.inr (.inr hv))

end

end Db

/-! ## Transactions -/

/-- The databases of an environment, one for each handle, and its map size. -/
structure Env (δ : Type) where
  db : δ → Db
  mapSize : UInt64

section
variable {δ : Type} [DecidableEq δ] [Fintype δ]

/-- The bytes of all databases. -/
def Env.bytes (env : Env δ) : Nat := ∑ d, (env.db d).bytes

def Env.set (env : Env δ) (d : δ) (db : Db) : Env δ :=
  { env with db := Function.update env.db d db }

omit [Fintype δ] in
@[simp] theorem Env.set_db_self (env : Env δ) (d : δ) (db : Db) : (env.set d db).db d = db :=
  Function.update_self ..

omit [Fintype δ] in
@[simp] theorem Env.set_db_ne {env : Env δ} {d d' : δ} {db : Db} (h : d' ≠ d) :
    (env.set d db).db d' = env.db d' :=
  Function.update_of_ne h ..

omit [Fintype δ] in
@[simp] theorem Env.set_set (env : Env δ) (d : δ) (db db' : Db) :
    (env.set d db).set d db' = env.set d db' := by
  simp [Env.set]

omit [Fintype δ] in
@[simp] theorem Env.set_self (env : Env δ) (d : δ) : env.set d (env.db d) = env := by
  simp [Env.set]

omit [Fintype δ] in
@[simp] theorem Env.set_mapSize (env : Env δ) (d : δ) (db : Db) :
    (env.set d db).mapSize = env.mapSize := rfl

/-- A transaction under way: the environment as it would be committed, and the
faults still to come. -/
structure Txn (δ : Type) where
  env : Env δ
  faults : List (Option Fault)

/-- Computations inside a transaction; an error abandons it. -/
abbrev TxnM (δ ε α : Type) := StateT (Txn δ) (Except ε) α

/-- One call that does nothing but fail when its fault says so. -/
def call : TxnM δ Fault Unit := fun t =>
  match t.faults with
  | some fault :: _ => .error fault
  | none :: faults => .ok ((), { t with faults := faults })
  | [] => .ok ((), t)

/-- The guard of a call or a method: an error where `c` holds. -/
def failIf {m : Type → Type} {ε : Type} [Monad m] [MonadExceptOf ε m] (c : Prop) [Decidable c]
    (e : ε) : m Unit :=
  if c then throw e else pure ()

/-- The environment as the transaction sees it. -/
def readEnv {ε : Type} : TxnM δ ε (Env δ) := fun t => .ok (t.env, t)

def writeEnv {ε : Type} (env : Env δ) : TxnM δ ε Unit := fun t => .ok ((), { t with env := env })

/-- The answer of a call. -/
def answering {α : Type} (answer : Except Fault α) : TxnM δ Fault α :=
  fun t => answer.map fun a => (a, t)

def mdbGet (d : δ) (k : Str) : TxnM δ Fault (Option Str) := do
  call
  answering (((← readEnv).db d).getKey k)

def mdbPut (d : δ) (k v : Str) : TxnM δ Fault Unit := do
  call
  let env ← readEnv
  let db ← answering ((env.db d).putKey k v false)
  failIf (env.mapSize.toNat < (env.set d db).bytes) mapFull
  writeEnv (env.set d db)

omit [DecidableEq δ] [Fintype δ] in
/-- The lookup, its check of the key taken out. -/
theorem mdbGet_eq (d : δ) (k : Str) :
    mdbGet d k = (do
      call
      failIf (k = []) badValsize
      return ((← readEnv).db d).get k : TxnM δ Fault (Option Str)) := by
  rw [mdbGet]
  refine bind_congr fun _ => funext fun t => ?_
  by_cases hk : k = []
  · rw [hk]
    rfl
  · rw [failIf, if_neg hk]
    show (answering ((t.env.db d).getKey k)) t = _
    rw [Db.getKey_ok hk]
    rfl

/-- The put, its check of the sizes taken out. -/
theorem mdbPut_eq (d : δ) (k v : Str) :
    mdbPut d k v = (do
      call
      failIf (k = [] ∨ maxKeySize < k.length ∨ maxDataSize < v.length) badValsize
      let env ← readEnv
      failIf (env.mapSize.toNat < (env.set d ((env.db d).put k v)).bytes) mapFull
      writeEnv (env.set d ((env.db d).put k v)) : TxnM δ Fault Unit) := by
  rw [mdbPut]
  refine bind_congr fun _ => funext fun t => ?_
  by_cases hsizes : k = [] ∨ maxKeySize < k.length ∨ maxDataSize < v.length
  · have hanswer : answering ((t.env.db d).putKey k v false) t = .error badValsize := by
      rw [answering, Db.putKey, if_pos hsizes]
      rfl
    rw [failIf, if_pos hsizes]
    show Except.bind (answering ((t.env.db d).putKey k v false) t) (fun r => _) = _
    rw [hanswer]
    rfl
  · have hanswer : answering ((t.env.db d).putKey k v false) t = .ok ((t.env.db d).put k v, t) := by
      rw [answering, Db.putKey, if_neg hsizes, if_neg fun h => Bool.false_ne_true h.1]
      rfl
    rw [failIf, if_neg hsizes]
    show Except.bind (answering ((t.env.db d).putKey k v false) t) (fun r => _) = _
    rw [hanswer]
    rfl

/-- `mdb_del`, and `mdb_cursor_del` at the key: whether the key was there. -/
def mdbDel (d : δ) (k : Str) : TxnM δ Fault Bool := do
  call
  failIf (k = []) badValsize
  let env ← readEnv
  writeEnv (env.set d ((env.db d).erase k))
  return ((env.db d).get k).isSome

/-- A walk of a cursor over `entries`: each `mdb_cursor_get` is a call (`first`,
then `next`), the last one being the one that finds no further pair.  The body
says whether to go on. -/
def cursorLoop {ε σ : Type} (first next : TxnM δ ε Unit)
    (body : σ → Str → Str → TxnM δ ε (σ × Bool)) : List (Str × Str) → σ → TxnM δ ε σ
  | [], s => do first; return s
  | e :: rest, s => do
      first
      let (s, more) ← body s e.1 e.2
      if more then cursorLoop next next body rest s else return s

/-- The same computation with its errors renamed. -/
def mapError {ε ε' α : Type} (f : ε → ε') (m : TxnM δ ε α) : TxnM δ ε' α := fun t =>
  match m t with
  | .ok r => .ok r
  | .error e => .error (f e)

end

/-! ## Steps that may fail outside a transaction -/

theorem except_bind_ok {ε α β : Type} {x : Except ε α} {f : α → Except ε β} {b : β} :
    (x >>= f) = .ok b ↔ ∃ a, x = .ok a ∧ f a = .ok b := by
  cases x with
  | error e => simp [bind, Except.bind]
  | ok a => simp [bind, Except.bind]

theorem except_failIf_ok {ε : Type} {c : Prop} [Decidable c] {e : ε} {u : Unit} :
    (failIf c e : Except ε Unit) = .ok u ↔ ¬ c := by
  rw [failIf]
  split
  next h => simp [throw, throwThe, MonadExceptOf.throw, h]
  next h => simp [pure, Except.pure, h]

/-- Every error the step ends in satisfies `P`. -/
def Refuses {ε α : Type} (P : ε → Prop) (x : Except ε α) : Prop := ∀ e, x = .error e → P e

namespace Refuses

variable {ε ε' α β : Type} {P : ε → Prop}

theorem ok (a : α) : Refuses P (.ok a : Except ε α) := fun _ h => absurd h (by simp)

theorem error {e : ε} (h : P e) : Refuses P (.error e : Except ε α) :=
  fun _ he => Except.error.inj he ▸ h

theorem bind {x : Except ε α} {f : α → Except ε β} (hx : Refuses P x)
    (hf : ∀ a, Refuses P (f a)) : Refuses P (x >>= f) := by
  intro e h
  cases x with
  | error e' => exact Except.error.inj h ▸ hx e' rfl
  | ok a => exact hf a e h

theorem failIf {c : Prop} [Decidable c] {e : ε} (h : P e) :
    Refuses P (failIf c e : Except ε Unit) := by
  rw [Lmdb.failIf]
  split
  · exact error h
  · exact ok ()

theorem mapError {f : ε' → ε} {x : Except ε' α} (h : ∀ e, P (f e)) : Refuses P (x.mapError f) := by
  cases x with
  | error e => exact error (h e)
  | ok a => exact ok a

end Refuses

/-! ## What a computation that succeeds has done -/

section
variable {δ : Type}

theorem run_bind_ok {ε α β : Type} {x : TxnM δ ε α} {f : α → TxnM δ ε β} {t t' : Txn δ} {b : β} :
    (x >>= f).run t = .ok (b, t') ↔
      ∃ a t₁, x.run t = .ok (a, t₁) ∧ (f a).run t₁ = .ok (b, t') := by
  rw [StateT.run_bind]
  cases h : x.run t with
  | error e => simp [bind, Except.bind]
  | ok r => simp [bind, Except.bind, Prod.ext_iff]

theorem run_pure_ok {ε α : Type} {t t' : Txn δ} {a b : α} :
    (pure a : TxnM δ ε α).run t = .ok (b, t') ↔ a = b ∧ t = t' := by
  simp [pure, StateT.run, StateT.pure, Except.pure]

theorem run_throw_ok {ε α : Type} {t t' : Txn δ} {e : ε} {b : α} :
    ¬ (throw e : TxnM δ ε α).run t = .ok (b, t') := by
  intro h
  simp [throw, throwThe, MonadExceptOf.throw, StateT.run, StateT.lift, bind, Except.bind] at h

theorem run_failIf_ok {ε : Type} {c : Prop} [Decidable c] {e : ε} {t t' : Txn δ} {u : Unit} :
    (failIf c e : TxnM δ ε Unit).run t = .ok (u, t') ↔ ¬ c ∧ t = t' := by
  rw [failIf]
  split
  next h => exact ⟨fun hrun => absurd hrun run_throw_ok, fun hc => absurd h hc.1⟩
  next h => exact run_pure_ok.trans ⟨fun ht => ⟨h, ht.2⟩, fun ht => ⟨rfl, ht.2⟩⟩

theorem run_mapError_ok {ε ε' α : Type} {f : ε → ε'} {m : TxnM δ ε α} {t t' : Txn δ} {a : α} :
    (mapError f m).run t = .ok (a, t') ↔ m.run t = .ok (a, t') := by
  simp only [mapError, StateT.run]
  cases m t with
  | error e => simp
  | ok r => simp

theorem call_ok {t t' : Txn δ} {u : Unit} (h : call.run t = .ok (u, t')) : t'.env = t.env := by
  simp only [call, StateT.run] at h
  split at h
  · exact absurd h (by simp)
  · rw [← (Prod.mk.inj (Except.ok.inj h)).2]
  · rw [← (Prod.mk.inj (Except.ok.inj h)).2]

theorem readEnv_ok {ε : Type} {t t' : Txn δ} {env : Env δ} :
    (readEnv : TxnM δ ε (Env δ)).run t = .ok (env, t') ↔ t.env = env ∧ t = t' := by
  simp [readEnv, StateT.run]

theorem writeEnv_ok {ε : Type} {t t' : Txn δ} {env : Env δ} {u : Unit} :
    (writeEnv env : TxnM δ ε Unit).run t = .ok (u, t') ↔ { t with env := env } = t' := by
  simp [writeEnv, StateT.run]

theorem mdbGet_ok {d : δ} {k : Str} {t t' : Txn δ} {r : Option Str}
    (h : (mdbGet d k).run t = .ok (r, t')) : r = (t.env.db d).get k ∧ t'.env = t.env := by
  rw [mdbGet_eq] at h
  obtain ⟨_, t₁, hcall, h⟩ := run_bind_ok.mp h
  obtain ⟨_, t₂, hfail, h⟩ := run_bind_ok.mp h
  obtain ⟨-, rfl⟩ := run_failIf_ok.mp hfail
  obtain ⟨env, t₂, hread, h⟩ := run_bind_ok.mp h
  obtain ⟨rfl, rfl⟩ := readEnv_ok.mp hread
  obtain ⟨rfl, rfl⟩ := run_pure_ok.mp h
  rw [call_ok hcall]
  exact ⟨rfl, rfl⟩

/-- A put that succeeds has a key and a value of a size LMDB takes, and fits the map. -/
theorem mdbPut_ok [DecidableEq δ] [Fintype δ] {d : δ} {k v : Str} {t t' : Txn δ} {u : Unit}
    (h : (mdbPut d k v).run t = .ok (u, t')) :
    t'.env = t.env.set d ((t.env.db d).put k v) ∧ t'.env.bytes ≤ t.env.mapSize.toNat ∧
      k ≠ [] ∧ k.length ≤ maxKeySize ∧ v.length ≤ maxDataSize := by
  rw [mdbPut_eq] at h
  obtain ⟨_, t₁, hcall, h⟩ := run_bind_ok.mp h
  obtain ⟨_, t₂, hfail, h⟩ := run_bind_ok.mp h
  obtain ⟨hsize, rfl⟩ := run_failIf_ok.mp hfail
  obtain ⟨env, t₂, hread, h⟩ := run_bind_ok.mp h
  obtain ⟨rfl, rfl⟩ := readEnv_ok.mp hread
  obtain ⟨_, t₂, hfull, h⟩ := run_bind_ok.mp h
  obtain ⟨hroom, rfl⟩ := run_failIf_ok.mp hfull
  obtain rfl := writeEnv_ok.mp h
  rw [not_or, not_or, not_lt, not_lt] at hsize
  rw [call_ok hcall] at hroom ⊢
  exact ⟨rfl, not_lt.mp hroom, hsize⟩

theorem mdbDel_ok [DecidableEq δ] {d : δ} {k : Str} {t t' : Txn δ} {found : Bool}
    (h : (mdbDel d k).run t = .ok (found, t')) :
    t'.env = t.env.set d ((t.env.db d).erase k) ∧ found = ((t.env.db d).get k).isSome := by
  obtain ⟨_, t₁, hcall, h⟩ := run_bind_ok.mp h
  obtain ⟨_, t₂, hfail, h⟩ := run_bind_ok.mp h
  obtain ⟨-, rfl⟩ := run_failIf_ok.mp hfail
  obtain ⟨env, t₂, hread, h⟩ := run_bind_ok.mp h
  obtain ⟨rfl, rfl⟩ := readEnv_ok.mp hread
  obtain ⟨_, t₂, hwrite, h⟩ := run_bind_ok.mp h
  obtain rfl := writeEnv_ok.mp hwrite
  obtain ⟨rfl, rfl⟩ := run_pure_ok.mp h
  rw [call_ok hcall]
  exact ⟨rfl, rfl⟩

/-- The rule of a cursor walk that succeeds: `I` holds of what is still ahead
whenever the cursor is moved, and `Q` when the walk ends. -/
theorem cursorLoop_ok {ε σ : Type} {body : σ → Str → Str → TxnM δ ε (σ × Bool)}
    {I : List (Str × Str) → σ → Env δ → Prop} {Q : σ → Env δ → Prop}
    (hdone : ∀ s env, I [] s env → Q s env)
    (hbody : ∀ e rest s t s' more t', I (e :: rest) s t.env →
      (body s e.1 e.2).run t = .ok ((s', more), t') →
      if more then I rest s' t'.env else Q s' t'.env) :
    ∀ {first next : TxnM δ ε Unit} {entries : List (Str × Str)} {s : σ} {t t' : Txn δ} {s' : σ},
      (∀ t t' u, first.run t = .ok (u, t') → t'.env = t.env) →
      (∀ t t' u, next.run t = .ok (u, t') → t'.env = t.env) →
      I entries s t.env → (cursorLoop first next body entries s).run t = .ok (s', t') →
      Q s' t'.env
  | first, next, [], s, t, t', s', hfirst, _, hI, h => by
      obtain ⟨_, t₁, hcall, h⟩ := run_bind_ok.mp h
      obtain ⟨rfl, rfl⟩ := run_pure_ok.mp h
      exact hdone _ _ (hfirst _ _ _ hcall ▸ hI)
  | first, next, e :: rest, s, t, t', s', hfirst, hnext, hI, h => by
      obtain ⟨_, t₁, hcall, h⟩ := run_bind_ok.mp h
      obtain ⟨⟨s₁, more⟩, t₂, hrun, h⟩ := run_bind_ok.mp h
      rw [← hfirst _ _ _ hcall] at hI
      have hstep := hbody e rest s t₁ s₁ more t₂ hI hrun
      cases more with
      | false =>
          obtain ⟨rfl, rfl⟩ := run_pure_ok.mp h
          exact hstep
      | true => exact cursorLoop_ok hdone hbody hnext hnext hstep h

end

/-! ## What a computation that fails says -/

section
variable {δ : Type}

/-- Every error the computation ends in satisfies `P`. -/
def Raises {ε α : Type} (P : ε → Prop) (m : TxnM δ ε α) : Prop :=
  ∀ t e, m.run t = .error e → P e

namespace Raises

variable {ε ε' α β σ : Type} {P : ε → Prop}

theorem bind {x : TxnM δ ε α} {f : α → TxnM δ ε β} (hx : Raises P x) (hf : ∀ a, Raises P (f a)) :
    Raises P (x >>= f) := by
  intro t e h
  rw [StateT.run_bind] at h
  cases hrun : x.run t with
  | error e' =>
      rw [hrun] at h
      exact Except.error.inj h ▸ hx t e' hrun
  | ok r =>
      rw [hrun] at h
      exact hf r.1 r.2 e h

theorem pure (a : α) : Raises P (pure a : TxnM δ ε α) := by
  intro t e h
  exact absurd h (by simp [Pure.pure, StateT.run, StateT.pure, Except.pure])

theorem throw {e : ε} (h : P e) : Raises P (throw e : TxnM δ ε α) := by
  intro t e' hrun
  have he : e = e' := by
    simpa [MonadExcept.throw, throwThe, MonadExceptOf.throw, StateT.run, StateT.lift, Bind.bind,
      Except.bind] using hrun
  exact he ▸ h

theorem failIf {c : Prop} [Decidable c] {e : ε} (h : P e) :
    Raises P (failIf c e : TxnM δ ε Unit) := by
  rw [Lmdb.failIf]
  split
  · exact throw h
  · exact pure _

theorem readEnv : Raises P (readEnv : TxnM δ ε (Env δ)) := by
  intro t e h
  exact absurd h (by simp [Lmdb.readEnv, StateT.run])

theorem mapError {f : ε' → ε} {m : TxnM δ ε' α} (h : ∀ e, P (f e)) : Raises P (mapError f m) := by
  intro t e hrun
  simp only [Lmdb.mapError, StateT.run] at hrun
  cases hm : m t with
  | error e' =>
      rw [hm] at hrun
      exact Except.error.inj hrun ▸ h e'
  | ok r =>
      rw [hm] at hrun
      exact absurd hrun (by simp)

theorem cursorLoop {body : σ → Str → Str → TxnM δ ε (σ × Bool)}
    (hbody : ∀ s k v, Raises P (body s k v)) :
    ∀ {first next : TxnM δ ε Unit} {entries : List (Str × Str)} {s : σ},
      Raises P first → Raises P next → Raises P (cursorLoop first next body entries s)
  | _, _, [], s, hfirst, _ => hfirst.bind fun _ => pure s
  | _, _, e :: _, s, hfirst, hnext => by
      refine hfirst.bind fun _ => (hbody s e.1 e.2).bind fun r => ?_
      obtain ⟨s', more⟩ := r
      cases more with
      | false => exact pure s'
      | true => exact cursorLoop hbody hnext hnext

end Raises

end

/-! ## How many calls a computation makes -/

section
variable {δ : Type}

/-- Between the two lie `n` calls, none of which failed. -/
structure Spends (t t' : Txn δ) (n : Nat) : Prop where
  calm : ∀ fault ∈ t.faults.take n, fault = none
  rest : t'.faults = t.faults.drop n

namespace Spends

variable {ε ε' σ α : Type} {t t₁ t₂ : Txn δ} {n m : Nat}

theorem ofEnv (t : Txn δ) (env : Env δ) : Spends t { t with env := env } 0 :=
  ⟨fun _ h => absurd h List.not_mem_nil, rfl⟩

theorem refl (t : Txn δ) : Spends t t 0 := ofEnv t t.env

theorem trans (h : Spends t t₁ n) (h' : Spends t₁ t₂ m) : Spends t t₂ (n + m) where
  calm fault hfault := by
    rw [List.take_add, List.mem_append, ← h.rest] at hfault
    exact hfault.elim (h.calm fault) (h'.calm fault)
  rest := by rw [h'.rest, h.rest, List.drop_drop]

theorem call {t t' : Txn δ} {u : Unit} (h : call.run t = .ok (u, t')) : Spends t t' 1 := by
  obtain ⟨env, faults⟩ := t
  cases faults with
  | nil =>
      obtain ⟨-, rfl⟩ := Prod.mk.inj (Except.ok.inj h)
      exact ⟨fun _ h => absurd h List.not_mem_nil, rfl⟩
  | cons fault faults =>
      cases fault with
      | some fault => cases h
      | none =>
          obtain ⟨-, rfl⟩ := Prod.mk.inj (Except.ok.inj h)
          exact ⟨fun _ h => List.mem_singleton.mp h, rfl⟩

theorem mdbDel [DecidableEq δ] {d : δ} {k : Str} {t t' : Txn δ} {found : Bool}
    (h : (mdbDel d k).run t = .ok (found, t')) : Spends t t' 1 := by
  obtain ⟨_, t₁, hcall, h⟩ := run_bind_ok.mp h
  obtain ⟨_, t₂, hfail, h⟩ := run_bind_ok.mp h
  obtain ⟨-, rfl⟩ := run_failIf_ok.mp hfail
  obtain ⟨_, t₃, hread, h⟩ := run_bind_ok.mp h
  obtain ⟨rfl, rfl⟩ := readEnv_ok.mp hread
  obtain ⟨_, t₄, hwrite, h⟩ := run_bind_ok.mp h
  obtain rfl := writeEnv_ok.mp hwrite
  obtain ⟨-, rfl⟩ := run_pure_ok.mp h
  exact (Spends.call hcall).trans (ofEnv _ _)

/-- A walk that goes to the end: a call for each pair and one more, and those of the body. -/
theorem cursorLoop {body : σ → Str → Str → TxnM δ ε (σ × Bool)} (cost : Str × Str → Nat)
    (hbody : ∀ e s t r t', (body s e.1 e.2).run t = .ok (r, t') → r.2 = true ∧ Spends t t' (cost e)) :
    ∀ {entries : List (Str × Str)} {first next : TxnM δ ε Unit} {s s' : σ} {t t' : Txn δ},
      (∀ t t' u, first.run t = .ok (u, t') → Spends t t' 1) →
      (∀ t t' u, next.run t = .ok (u, t') → Spends t t' 1) →
      (cursorLoop first next body entries s).run t = .ok (s', t') →
        Spends t t' ((entries.map fun e => 1 + cost e).sum + 1) := by
  intro entries
  induction entries with
  | nil =>
      intro first next s s' t t' hfirst _ h
      obtain ⟨_, t₁, hcall, h⟩ := run_bind_ok.mp h
      obtain ⟨-, rfl⟩ := run_pure_ok.mp h
      exact hfirst _ _ _ hcall
  | cons e entries ih =>
      intro first next s s' t t' hfirst hnext h
      obtain ⟨_, t₁, hcall, h⟩ := run_bind_ok.mp h
      obtain ⟨⟨s₁, more⟩, t₂, hrun, h⟩ := run_bind_ok.mp h
      obtain ⟨hmore, hspent⟩ := hbody _ _ _ _ _ hrun
      obtain rfl : more = true := hmore
      have hsum := ((hfirst _ _ _ hcall).trans hspent).trans (ih hnext hnext h)
      rwa [List.map_cons, List.sum_cons, Nat.add_assoc (1 + cost e)]

end Spends

end

/-! ## Where no call fails -/

section
variable {δ : Type}

/-- The computation ends without an error at a transaction with no faults to come. -/
def Runs {ε α : Type} (m : TxnM δ ε α) (env : Env δ) (a : α) (env' : Env δ) : Prop :=
  m.run { env := env, faults := [] } = .ok (a, { env := env', faults := [] })

theorem Runs.bind {ε α β : Type} {x : TxnM δ ε α} {f : α → TxnM δ ε β} {env env₁ env₂ : Env δ}
    {a : α} {b : β} (hx : Runs x env a env₁) (hf : Runs (f a) env₁ b env₂) :
    Runs (x >>= f) env b env₂ :=
  run_bind_ok.mpr ⟨_, _, hx, hf⟩

theorem Runs.pure {ε α : Type} (env : Env δ) (a : α) : Runs (pure a : TxnM δ ε α) env a env :=
  run_pure_ok.mpr ⟨rfl, rfl⟩

theorem Runs.failIf {ε : Type} {c : Prop} [Decidable c] {e : ε} (env : Env δ) (h : ¬ c) :
    Runs (failIf c e : TxnM δ ε Unit) env () env :=
  run_failIf_ok.mpr ⟨h, rfl⟩

theorem Runs.mapError {ε ε' α : Type} {f : ε → ε'} {m : TxnM δ ε α} {env env' : Env δ} {a : α}
    (h : Runs m env a env') : Runs (mapError f m) env a env' :=
  run_mapError_ok.mpr h

theorem Runs.call (env : Env δ) : Runs (call : TxnM δ Fault Unit) env () env := rfl

theorem Runs.mdbGet {d : δ} {k : Str} (env : Env δ) (hk : k ≠ []) :
    Runs (mdbGet d k) env ((env.db d).get k) env := by
  rw [mdbGet_eq]
  exact .bind (.call env) (.bind (.failIf env hk) (.bind rfl (.pure env _)))

theorem Runs.mdbPut [DecidableEq δ] [Fintype δ] {d : δ} {k v : Str} (env : Env δ)
    (hsize : k ≠ [] ∧ k.length ≤ maxKeySize ∧ v.length ≤ maxDataSize)
    (hroom : (env.set d ((env.db d).put k v)).bytes ≤ env.mapSize.toNat) :
    Runs (mdbPut d k v) env () (env.set d ((env.db d).put k v)) := by
  rw [mdbPut_eq]
  refine .bind (.call env) (.bind (.failIf env ?_) (.bind rfl (.bind (.failIf env ?_) rfl)))
  · rw [not_or, not_or, not_lt, not_lt]
    exact hsize
  · exact not_lt.mpr hroom

theorem Runs.mdbDel [DecidableEq δ] {d : δ} {k : Str} (env : Env δ) (hk : k ≠ []) :
    Runs (mdbDel d k) env ((env.db d).get k).isSome (env.set d ((env.db d).erase k)) :=
  .bind (.call env) (.bind (.failIf env hk) (.bind rfl (.bind rfl (.pure _ _))))

/-- A walk ends where its body does, whatever it has come to. -/
theorem Runs.cursorLoop {ε σ : Type} {first next : TxnM δ ε Unit}
    {body : σ → Str → Str → TxnM δ ε (σ × Bool)} (hnext : ∀ env, Runs next env () env) :
    ∀ {entries : List (Str × Str)},
      (∀ e ∈ entries, ∀ s env, ∃ r env', Runs (body s e.1 e.2) env r env') →
      ∀ (s : σ) (env : Env δ), Runs first env () env →
        ∃ s' env', Runs (cursorLoop first next body entries s) env s' env'
  | [], _, s, env, hfirst => ⟨s, env, .bind hfirst (.pure env s)⟩
  | e :: entries, hbody, s, env, hfirst => by
      obtain ⟨⟨s₁, more⟩, env₁, hrun⟩ := hbody e List.mem_cons_self s env
      cases more with
      | false => exact ⟨s₁, env₁, .bind hfirst (.bind hrun (.pure env₁ s₁))⟩
      | true =>
          obtain ⟨s₂, env₂, hrest⟩ := Runs.cursorLoop hnext
            (fun x hx => hbody x (List.mem_cons_of_mem _ hx)) s₁ env₁ (hnext env₁)
          exact ⟨s₂, env₂, .bind hfirst (.bind hrun hrest)⟩

end

end Lib.Lmdb
