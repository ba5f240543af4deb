/-
# `ServerStorage.Muninn.Cleanup` — deletion and retention are exact

Both take pairs from two tables in one transaction and say how many.  A deletion takes
one snapshot and the deltas that name it; retention keeps the newest snapshots and the
deltas between them.
-/
import ServerStorage.Muninn.Archive

namespace ServerStorage.Muninn

open Lib Lmdb Dbi LmdbStore

/-! ## Deletion -/

/-- The pairs a filter leaves and those it takes make up the database. -/
theorem countKeys_add_filter (db : Db) (pick : Str → Bool) :
    countKeys db pick + (db.filter fun key => !pick key).entries.length = db.entries.length :=
  (List.length_eq_length_filter_add fun e : Str × Str => pick e.1).symm

/-- The snapshot is gone with the deltas that name it, and what is gone is counted. -/
structure Deleted (snapshotId : SnapshotId) (before after : LmdbStore) (stats : CleanupStats) :
    Prop where
  stored : snapshotStored before.env snapshotId
  snapshots : after.env.db snapshotsDbi =
    (before.env.db snapshotsDbi).filter fun key => key != encodeU64Be snapshotId
  deltas : after.env.db deltasDbi =
    (before.env.db deltasDbi).filter fun key => !namesSnapshot snapshotId key
  others : ∀ dbi, dbi ≠ snapshotsDbi → dbi ≠ deltasDbi → after.env.db dbi = before.env.db dbi
  isOpen : after.isOpen = before.isOpen
  snapshotsRemoved : stats.snapshotsRemoved + (after.env.db snapshotsDbi).entries.length =
    (before.env.db snapshotsDbi).entries.length
  deltasRemoved : stats.deltasRemoved + (after.env.db deltasDbi).entries.length =
    (before.env.db deltasDbi).entries.length

/-- The one pair of a key. -/
theorem countKeys_one {db : Db} {key : Str} (h : (db.get key).isSome = true) :
    countKeys db (fun k => k == key) = 1 := by
  obtain ⟨value, hvalue⟩ := Option.isSome_iff_exists.mp h
  have hmem := Db.get_eq_some.mp hvalue
  have hnodup : db.entries.Nodup := db.sorted.imp fun hlt heq => hlt.ne (congrArg Prod.fst heq)
  have honly : ∀ e ∈ db.entries, (e.1 == key) = (e == (key, value)) := fun e he => by
    rw [Bool.eq_iff_iff, beq_iff_eq, beq_iff_eq]
    constructor
    · intro hkey
      have hget : db.get key = some e.2 := Db.get_eq_some.mpr (hkey ▸ he)
      exact Prod.ext hkey (Option.some.inj (hget.symm.trans hvalue))
    · exact congrArg Prod.fst
  rw [countKeys, List.filter_congr honly, ← List.countP_eq_length_filter]
  exact List.count_eq_one_of_mem hnodup hmem

theorem withoutSnapshot_deleted {store : LmdbStore} {snapshotId : SnapshotId}
    (h : snapshotStored store.env snapshotId) :
    Deleted snapshotId store { store with env := withoutSnapshot store.env snapshotId }
      { snapshotsRemoved := 1
        deltasRemoved := countKeys (store.env.db deltasDbi) (namesSnapshot snapshotId) } := by
  have hsnapshots : (withoutSnapshot store.env snapshotId).db snapshotsDbi =
      (store.env.db snapshotsDbi).filter fun key => key != encodeU64Be snapshotId := by
    rw [withoutSnapshot, dropped, Env.set_db_ne (by decide), Env.set_db_self]
    rfl
  have hdeltas : (withoutSnapshot store.env snapshotId).db deltasDbi =
      (store.env.db deltasDbi).filter fun key => !namesSnapshot snapshotId key := by
    rw [withoutSnapshot, dropped, Env.set_db_self, Env.set_db_ne (by decide)]
  refine ⟨h, hsnapshots, hdeltas, fun dbi hs hd => ?_, rfl, ?_, ?_⟩
  · show (withoutSnapshot store.env snapshotId).db dbi = _
    rw [withoutSnapshot, dropped, Env.set_db_ne hd, Env.set_db_ne hs]
  · show 1 + ((withoutSnapshot store.env snapshotId).db snapshotsDbi).entries.length = _
    rw [hsnapshots, ← countKeys_one h]
    exact countKeys_add_filter _ _
  · show _ + ((withoutSnapshot store.env snapshotId).db deltasDbi).entries.length = _
    rw [hdeltas]
    exact countKeys_add_filter _ _

/-! ### Its calls -/

theorem spends_callAs {what : String} {t t' : Txn Dbi} {u : Unit}
    (h : (callAs what).run t = .ok (u, t')) : Spends t t' 1 :=
  .call (run_mapError_ok.mp h)

theorem spends_cursorDel {what : String} {dbi : Dbi} {key : Str} {t t' : Txn Dbi} {u : Unit}
    (h : (cursorDel what dbi key).run t = .ok (u, t')) : Spends t t' 1 := by
  obtain ⟨found, t₁, hdel, h⟩ := run_bind_ok.mp h
  obtain ⟨-, rfl⟩ := run_pure_ok.mp h
  exact .mdbDel (run_mapError_ok.mp hdel)

/-- What the walk over the deltas calls: one step for each pair and one past the last, and one
deletion for each pair that goes. -/
theorem spends_deleteLoop {dbi : Dbi} {size : Nat} {badSize openWhat getWhat delWhat : String}
    {drop : Str → Bool} {t t' : Txn Dbi} {removed : Nat}
    (h : (deleteLoop dbi size badSize openWhat getWhat delWhat drop).run t = .ok (removed, t')) :
    Spends t t' ((t.env.db dbi).entries.length + countKeys (t.env.db dbi) drop + 2) := by
  obtain ⟨db, t₁, hopen, h⟩ := run_bind_ok.mp h
  obtain ⟨_, t₂, hcall, hread⟩ := run_bind_ok.mp hopen
  obtain ⟨env, t₃, hread, hdb⟩ := run_bind_ok.mp hread
  obtain ⟨rfl, rfl⟩ := readEnv_ok.mp hread
  obtain ⟨rfl, rfl⟩ := run_pure_ok.mp hdb
  have henv := callAs_ok hcall
  have hloop := Spends.cursorLoop (fun e => if drop e.1 then 1 else 0)
    (fun e s t r t' hbody => ?_) (fun _ _ _ => spends_callAs) (fun _ _ _ => spends_callAs) h
  · have hcount : ∀ l : List (Str × Str),
        (l.map fun e => 1 + if drop e.1 then 1 else 0).sum =
          l.length + (l.filter fun e => drop e.1).length := by
      intro l
      induction l with
      | nil => rfl
      | cons e l ih =>
          rw [List.map_cons, List.sum_cons, ih, List.filter_cons]
          split <;> simp <;> omega
    have hall := (spends_callAs hcall).trans hloop
    rw [hcount, henv] at hall
    rw [countKeys]
    convert hall using 1
    omega
  · obtain ⟨_, t₃, hfail, hbody⟩ := run_bind_ok.mp hbody
    obtain ⟨-, rfl⟩ := run_failIf_ok.mp hfail
    cases hdrop : drop e.1 with
    | true =>
        rw [hdrop, if_pos rfl] at hbody
        obtain ⟨_, t₄, hdel, hbody⟩ := run_bind_ok.mp hbody
        obtain ⟨rfl, rfl⟩ := run_pure_ok.mp hbody
        exact ⟨rfl, spends_cursorDel hdel⟩
    | false =>
        rw [hdrop, if_neg Bool.false_ne_true] at hbody
        obtain ⟨rfl, rfl⟩ := run_pure_ok.mp hbody
        exact ⟨rfl, .refl _⟩

/-- A transaction that commits has met no fault, from its begin to its commit. -/
theorem writeTxn_calm {α : Type} {store : LmdbStore} {io : List (Option Fault)} {label : String}
    {body : StoreM (Finish × α)} {n : Nat} (hraises : Raises Failed body)
    (hbody : ∀ t t' finish a, t.env = store.env → body.run t = .ok ((finish, a), t') →
      finish = .commit ∧ Spends t t' n)
    (hok : (store.writeTxn io label body).1.ok = true) :
    ∀ fault ∈ io.take (n + 2), fault = none := by
  have hraised : Raises Failed (do callAs "mdb_txn_begin"; body : StoreM (Finish × α)) :=
    .bind (raises_callAs _) fun _ => hraises
  rw [writeTxn] at hok
  split at hok
  next status hrun => exact absurd hok (by rw [show status.ok = false from hraised _ _ hrun]; decide)
  next a t hrun =>
    obtain ⟨_, t₁, hbegin, hrun⟩ := run_bind_ok.mp hrun
    cases (hbody _ _ _ _ (callAs_ok hbegin) hrun).1
  next a t hrun =>
    obtain ⟨_, t₁, hbegin, hrun⟩ := run_bind_ok.mp hrun
    have hspent := (hbody _ _ _ _ (callAs_ok hbegin) hrun).2
    split at hok
    next status hcommit =>
      exact absurd hok (by rw [show status.ok = false from raises_callAs _ _ _ hcommit]; decide)
    next _ t₂ hcommit =>
      have hall := ((spends_callAs hbegin).trans hspent).trans (spends_callAs hcommit)
      rw [Nat.add_comm 1 n] at hall
      exact hall.calm

/-- The LMDB calls of a deletion that goes through. -/
def deleteCalls (env : Env Dbi) (snapshotId : SnapshotId) : Nat :=
  (env.db deltasDbi).entries.length + countKeys (env.db deltasDbi) (namesSnapshot snapshotId) + 5

theorem deleteSnapshot_calm {store : LmdbStore} {snapshotId : SnapshotId}
    {io : List (Option Fault)} (hok : (store.deleteSnapshot snapshotId io).1.ok = true) :
    ∀ fault ∈ io.take (deleteCalls store.env snapshotId), fault = none := by
  rw [deleteSnapshot] at hok
  split at hok
  · cases hok
  · split at hok
    · cases hok
    · refine writeTxn_calm (n := (store.env.db deltasDbi).entries.length +
        countKeys (store.env.db deltasDbi) (namesSnapshot snapshotId) + 3) ?_ ?_ hok
      · exact .bind (.mapError (failed_lmdbError _)) fun found =>
          .bind (.failIf (failed_failure (by decide) _ _)) fun _ =>
            .bind (raises_deleteLoop _ _ _ _ _ _ _) fun _ => .pure _
      · intro t t' finish a ht h
        obtain ⟨found, t₁, hdel, h⟩ := run_bind_ok.mp h
        obtain ⟨_, t₂, hfail, h⟩ := run_bind_ok.mp h
        obtain ⟨-, rfl⟩ := run_failIf_ok.mp hfail
        obtain ⟨removed, t₃, hloop, h⟩ := run_bind_ok.mp h
        obtain ⟨heq, rfl⟩ := run_pure_ok.mp h
        have henv := (mdbDel_ok (run_mapError_ok.mp hdel)).1
        have hall := (Spends.mdbDel (run_mapError_ok.mp hdel)).trans (spends_deleteLoop hloop)
        rw [henv, Env.set_db_ne (by decide), ht] at hall
        refine ⟨(Prod.mk.inj heq).1.symm, ?_⟩
        convert hall using 1
        omega

/-! ### Where no call fails -/

/-- A walk that deletes goes to its end when the keys have their size. -/
theorem runs_deleteLoop (dbi : Dbi) (size : Nat) (badSize openWhat getWhat delWhat : String)
    (drop : Str → Bool) {env : Env Dbi} (hpos : size ≠ 0)
    (hsize : ∀ e ∈ (env.db dbi).entries, e.1.length = size) :
    ∃ removed env', Runs (deleteLoop dbi size badSize openWhat getWhat delWhat drop) env removed
      env' := by
  have hbody : ∀ e ∈ (env.db dbi).entries, ∀ (n : Nat) (env : Env Dbi), ∃ r env',
      Runs (deleteBody dbi size badSize delWhat drop n e.1 e.2) env r env' := by
    intro e he n env
    have hne : e.1 ≠ [] := fun h => hpos (by rw [← hsize e he, h]; rfl)
    cases hdrop : drop e.1 with
    | true =>
        refine ⟨(n + 1, true), env.set dbi ((env.db dbi).erase e.1),
          .bind (.failIf env (not_not.mpr (hsize e he))) ?_⟩
        rw [hdrop, if_pos rfl]
        exact .bind (.bind (.mapError (.mdbDel env hne)) (.pure _ _)) (.pure _ _)
    | false =>
        refine ⟨(n, true), env, .bind (.failIf env (not_not.mpr (hsize e he))) ?_⟩
        rw [hdrop, if_neg Bool.false_ne_true]
        exact .pure _ _
  obtain ⟨removed, env', hrun⟩ := Runs.cursorLoop (runs_callAs getWhat) hbody 0 env
    (runs_callAs getWhat env)
  exact ⟨removed, env', .bind (runs_cursorOpen _ _ _) hrun⟩

theorem snapshotStored_erase {env : Env Dbi} {snapshotId : SnapshotId} :
    Runs (mapError (lmdbError "mdb_del(delete_snapshot:snapshot)")
        (mdbDel snapshotsDbi (encodeU64Be snapshotId))) env
      ((env.db snapshotsDbi).get (encodeU64Be snapshotId)).isSome
      (env.set snapshotsDbi ((env.db snapshotsDbi).erase (encodeU64Be snapshotId))) :=
  .mapError (.mdbDel env (List.cons_ne_nil _ _))

/-- A deletion that meets no fault goes through. -/
theorem deleteSnapshot_nil {store : LmdbStore} {snapshotId : SnapshotId}
    (hopen : store.isOpen = true) (hne : snapshotId ≠ 0)
    (hstored : snapshotStored store.env snapshotId)
    (hsize : ∀ e ∈ (store.env.db deltasDbi).entries, e.1.length = 16) :
    (store.deleteSnapshot snapshotId []).1 = .success := by
  have hkeys : ∀ e ∈ ((store.env.set snapshotsDbi
      ((store.env.db snapshotsDbi).erase (encodeU64Be snapshotId))).db deltasDbi).entries,
      e.1.length = 16 := by
    rw [Env.set_db_ne (by decide)]
    exact hsize
  obtain ⟨removed, env', hloop⟩ := runs_deleteLoop deltasDbi 16 "Invalid delta key size."
    "mdb_cursor_open(delete_snapshot:deltas)" "mdb_cursor_get(delete_snapshot:deltas)"
    "mdb_cursor_del(delete_snapshot:delta)" (namesSnapshot snapshotId) (by decide) hkeys
  rw [deleteSnapshot, hopen, if_neg (by decide), if_neg hne]
  refine writeTxn_nil .commit { snapshotsRemoved := 1, deltasRemoved := removed } env' ?_
  refine .bind snapshotStored_erase (.bind (.failIf _ ?_) (.bind hloop (.pure _ _)))
  rw [show (_ : Bool) = true from hstored]
  decide

/-- A deletion takes exactly the snapshot and the deltas that name it, and says how many; it fails
and changes nothing when there is no such snapshot, or when one of its calls fails. -/
theorem deleteSnapshot_exact (store : LmdbStore) (snapshotId : SnapshotId)
    (io : List (Option Fault)) :
    let result := store.deleteSnapshot snapshotId io
    ((result.1.ok = false ∧ result.2.2 = store) ∨
      (result.1 = .success ∧ Deleted snapshotId store result.2.2 result.2.1)) ∧
    (snapshotId = 0 ∨ ¬ snapshotStored store.env snapshotId → result.1.ok = false) ∧
    ((∃ fault ∈ io.take (deleteCalls store.env snapshotId), fault ≠ none) →
      result.1.ok = false) ∧
    (store.isOpen = true → snapshotId ≠ 0 → snapshotStored store.env snapshotId →
      (∀ e ∈ (store.env.db deltasDbi).entries, e.1.length = 16) → io = [] →
        result.1 = .success) := by
  intro result
  have hcleans := deleteSnapshot_cleans store snapshotId io
  refine ⟨?_, fun hbad => ?_, ?_, ?_⟩
  · rcases hcleans with ⟨hfailed, -, heq⟩ | ⟨hok, -, env, ⟨-, hstored, -, rfl, hstats⟩, heq⟩
    · exact .inl ⟨hfailed, heq⟩
    · refine .inr ⟨hok, ?_⟩
      rw [show result.2.2 = _ from heq, show result.2.1 = _ from hstats]
      exact withoutSnapshot_deleted hstored
  · rcases hcleans with ⟨hfailed, -⟩ | ⟨-, -, env, ⟨hne, hstored, -⟩, -⟩
    · exact hfailed
    · exact absurd hbad (not_or.mpr ⟨hne, not_not.mpr hstored⟩)
  · rintro ⟨fault, hmem, hfault⟩
    cases hok : result.1.ok with
    | false => rfl
    | true => exact absurd (deleteSnapshot_calm hok fault hmem) hfault
  · rintro hopen hne hstored hsize rfl
    exact deleteSnapshot_nil hopen hne hstored hsize

/-- The deltas from 7 to 9, from 9 to 7 and from 8 to 9, and two snapshots. -/
def storeOfDeltas : LmdbStore :=
  let store := (storeOpened.putSnapshot { snapshotId := 7 } false {} []).2
  let store := (store.putSnapshot { snapshotId := 9 } false {} []).2
  let store := (store.putDelta { baseSnapshotId := 7, targetSnapshotId := 9 } none none false []).2
  let store := (store.putDelta { baseSnapshotId := 9, targetSnapshotId := 7 } none none false []).2
  (store.putDelta { baseSnapshotId := 8, targetSnapshotId := 9 } none none false []).2

theorem deleteSnapshot_exact_seven :
    Deleted 7 storeOfDeltas (storeOfDeltas.deleteSnapshot 7 []).2.2
        (storeOfDeltas.deleteSnapshot 7 []).2.1 ∧
      (storeOfDeltas.deleteSnapshot 7 []).2.1 = { snapshotsRemoved := 1, deltasRemoved := 2 } := by
  obtain ⟨hcases, -, -, hsuccess⟩ := deleteSnapshot_exact storeOfDeltas 7 []
  have hok := hsuccess (by rfl) (by decide) (by rfl) (by decide +kernel) rfl
  refine ⟨?_, by rfl⟩
  rcases hcases with ⟨hfailed, -⟩ | ⟨-, hdeleted⟩
  · rw [hok] at hfailed
    cases hfailed
  · exact hdeleted

end ServerStorage.Muninn
