/-
# `ServerStorage.Muninn.Captures` — captures under way, deletion and retention

Each method of the store is one transaction; between the scan of a capture, the read
of its base and its write anything else may happen to the store.  The write does not
look at the base again: the deltas stored keep both their snapshots (`Refs`) as long
as every base written against is still there when the write comes.
-/
import ServerStorage.Muninn.CaptureSpec
import ServerStorage.Muninn.Outbox

namespace ServerStorage.Muninn

open Lib Lmdb Dbi LmdbStore IndexingPipeline

/-! ## The steps of concurrent captures -/

/-- A capture under way, by what it has done. -/
inductive Capture where
  /-- `capture_snapshot`, scanned and built. -/
  | full (result : PipelineResult) (enqueueTransport : Bool)
  /-- `capture_snapshot_and_delta`, scanned and built. -/
  | update (result : PipelineResult) (baseSnapshotId : SnapshotId) (enqueueTransport : Bool)
  /-- The base was read and the delta computed. -/
  | planned (plan : UpdatePlan) (enqueueTransport : Bool)

structure Captures where
  store : LmdbStore := {}
  underWay : List Capture := []

/-- What may happen next.  `advance` is the next transaction of a capture under way. -/
inductive CaptureAct where
  | scanFull (rawScan : RawScanResult) (enqueueTransport : Bool) (io : CaptureIo)
  | scanUpdate (rawScan : RawScanResult) (baseSnapshotId : SnapshotId) (enqueueTransport : Bool)
      (io : CaptureIo)
  | advance (i : Nat) (io : CaptureIo)
  | ack (consumerId : Str) (sequence : UInt64) (io : List (Option Fault))
  | deleteSnapshot (snapshotId : SnapshotId) (io : List (Option Fault))
  | retention (keepLatestSnapshots : Nat) (io : List (Option Fault))
  | openStore (options : LmdbStoreOptions) (directoryError : Option Text) (io : List (Option Fault))
  | close

namespace Captures

/-- A capture whose scan is built; one that is never done with it gets no further. -/
def start (s : Captures) (rawScan : RawScanResult) (io : CaptureIo)
    (next : PipelineResult → Capture) : Captures :=
  match scanned rawScan io.scanned with
  | none => s
  | some result => { s with underWay := s.underWay ++ [next result] }

def advance (s : Captures) (i : Nat) (io : CaptureIo) : Captures :=
  match s.underWay[i]? with
  | none => s
  | some (.full result enqueueTransport) =>
      { store := (storeSnapshot s.store result enqueueTransport io).2
        underWay := s.underWay.eraseIdx i }
  | some (.update result baseSnapshotId enqueueTransport) =>
      { s with
        underWay := s.underWay.set i
          (.planned (basedOn s.store result baseSnapshotId enqueueTransport io)
            enqueueTransport) }
  | some (.planned plan enqueueTransport) =>
      { store := (storeUpdate s.store plan enqueueTransport io).2
        underWay := s.underWay.eraseIdx i }

def act (s : Captures) : CaptureAct → Captures
  | .scanFull rawScan enqueueTransport io => s.start rawScan io (.full · enqueueTransport)
  | .scanUpdate rawScan baseSnapshotId enqueueTransport io =>
      s.start rawScan io (.update · baseSnapshotId enqueueTransport)
  | .advance i io => s.advance i io
  | .ack consumerId sequence io =>
      { s with store := (s.store.ackTransportUntilForConsumer consumerId sequence io).2 }
  | .deleteSnapshot snapshotId io =>
      { s with store := (s.store.deleteSnapshot snapshotId io).2.2 }
  | .retention keepLatestSnapshots io =>
      { s with store := (s.store.applySnapshotRetention keepLatestSnapshots io).2.2 }
  | .openStore options directoryError io =>
      { s with store := (s.store.openStore options directoryError io).2 }
  | .close => { s with store := s.store.close }

def run (s : Captures) (acts : List CaptureAct) : Captures := acts.foldl act s

/-- A capture that nothing comes between is its scan and its write. -/
theorem run_captureSnapshot {store store' : LmdbStore} {rawScan : RawScanResult}
    {enqueueTransport : Bool} {io : CaptureIo} {result : PipelineResult}
    (h : captureSnapshot store rawScan enqueueTransport io = some (result, store')) :
    run { store := store } [.scanFull rawScan enqueueTransport io, .advance 0 io] =
      { store := store' } := by
  obtain ⟨built, hbuilt, h⟩ := Option.bind_eq_some_iff.mp h
  obtain rfl := congrArg Prod.snd (Option.some.inj h)
  simp only [run, List.foldl_cons, List.foldl_nil, act, start, hbuilt]
  rfl

/-- An incremental one is its scan, the read of its base and its write. -/
theorem run_captureSnapshotAndDelta {store store' : LmdbStore} {rawScan : RawScanResult}
    {baseSnapshotId : SnapshotId} {enqueueTransport : Bool} {io : CaptureIo}
    {result : PipelineResult}
    (h : captureSnapshotAndDelta store rawScan baseSnapshotId enqueueTransport io =
      some (result, store')) :
    run { store := store }
        [.scanUpdate rawScan baseSnapshotId enqueueTransport io, .advance 0 io, .advance 0 io] =
      { store := store' } := by
  obtain ⟨built, hbuilt, h⟩ := Option.bind_eq_some_iff.mp h
  obtain rfl := congrArg Prod.snd (Option.some.inj h)
  simp only [run, List.foldl_cons, List.foldl_nil, act, start, hbuilt]
  rfl

end Captures

/-! ## Both snapshots of every delta -/

/-- The snapshots of every delta stored are stored. -/
def Refs (env : Env Dbi) : Prop :=
  ∀ b t, deltaStored env b t → snapshotStored env b ∧ snapshotStored env t

instance (env : Env Dbi) (snapshotId : SnapshotId) : Decidable (snapshotStored env snapshotId) :=
  inferInstanceAs (Decidable (_ = true))

instance (env : Env Dbi) (base target : SnapshotId) : Decidable (deltaStored env base target) :=
  inferInstanceAs (Decidable (_ = true))

@[simp] theorem deltaKeyIds_makeDeltaKey (base target : SnapshotId) :
    deltaKeyIds (makeDeltaKey base target) = (base, target) :=
  Prod.ext (decodeU64Be_encodeU64Be base) (decodeU64Be_encodeU64Be target)

theorem makeDeltaKey_inj {b b' t t' : SnapshotId} :
    makeDeltaKey b t = makeDeltaKey b' t' ↔ b = b' ∧ t = t' := by
  refine ⟨fun h => ?_, fun ⟨hb, ht⟩ => hb ▸ ht ▸ rfl⟩
  have hids := congrArg deltaKeyIds h
  rw [deltaKeyIds_makeDeltaKey, deltaKeyIds_makeDeltaKey] at hids
  exact Prod.mk.inj hids

section
variable {env env' : Env Dbi}

/-- A step that leaves snapshots and deltas. -/
theorem Refs.congr (h : Refs env) (hsnapshots : env'.db snapshotsDbi = env.db snapshotsDbi)
    (hdeltas : env'.db deltasDbi = env.db deltasDbi) : Refs env' := by
  intro b t hdelta
  rw [deltaStored, hdeltas] at hdelta
  rw [snapshotStored, snapshotStored, hsnapshots]
  exact h b t hdelta

theorem snapshotStored_withSnapshot (id id' : SnapshotId) (payload : Str) :
    snapshotStored (withSnapshot env id payload) id' ↔ id' = id ∨ snapshotStored env id' := by
  rw [snapshotStored, withSnapshot, Env.set_db_self, Db.get_put]
  split
  next heq => simp [encodeU64Be_inj.mp heq]
  next hne => simp [mt encodeU64Be_inj.mpr hne, snapshotStored]

theorem deltaStored_withSnapshot (id b t : SnapshotId) (payload : Str) :
    deltaStored (withSnapshot env id payload) b t ↔ deltaStored env b t := by
  rw [deltaStored, withSnapshot, Env.set_db_ne (by decide), ← deltaStored]

theorem deltaStored_withDelta (b t b' t' : SnapshotId) (payload : Str) :
    deltaStored (withDelta env b t payload) b' t' ↔
      (b' = b ∧ t' = t) ∨ deltaStored env b' t' := by
  rw [deltaStored, withDelta, Env.set_db_self, Db.get_put]
  split
  next heq => simp [makeDeltaKey_inj.mp heq]
  next hne =>
    rw [or_iff_right (mt makeDeltaKey_inj.mpr hne)]
    exact Iff.rfl

theorem snapshotStored_withDelta (id b t : SnapshotId) (payload : Str) :
    snapshotStored (withDelta env b t payload) id ↔ snapshotStored env id := by
  rw [snapshotStored, withDelta, Env.set_db_ne (by decide), ← snapshotStored]

theorem Refs.withSnapshot (h : Refs env) (id : SnapshotId) (payload : Str) :
    Refs (withSnapshot env id payload) := by
  intro b t hdelta
  obtain ⟨hb, ht⟩ := h b t ((deltaStored_withSnapshot ..).mp hdelta)
  exact ⟨(snapshotStored_withSnapshot ..).mpr (.inr hb),
    (snapshotStored_withSnapshot ..).mpr (.inr ht)⟩

theorem Refs.withDelta (h : Refs env) {b t : SnapshotId} (hb : snapshotStored env b)
    (ht : snapshotStored env t) (payload : Str) : Refs (withDelta env b t payload) := by
  intro b' t' hdelta
  rw [snapshotStored_withDelta, snapshotStored_withDelta]
  rcases (deltaStored_withDelta ..).mp hdelta with ⟨rfl, rfl⟩ | hdelta
  · exact ⟨hb, ht⟩
  · exact h b' t' hdelta

theorem Refs.enqueuedIf (h : Refs env) (enqueue : Bool) (frame : Str) :
    Refs (enqueuedIf enqueue env frame) := by
  cases enqueue with
  | false => exact h
  | true =>
      refine h.congr ?_ ?_ <;>
        rw [Muninn.enqueuedIf, if_pos rfl, enqueued, Env.set_db_ne (by decide), counted,
          Env.set_db_ne (by decide)]

theorem deltaStored_dropped {drop : Str → Bool} (b t : SnapshotId) :
    deltaStored (dropped env deltasDbi drop) b t ↔
      deltaStored env b t ∧ drop (makeDeltaKey b t) = false := by
  rw [deltaStored, dropped, Env.set_db_self, Db.get_filter]
  cases drop (makeDeltaKey b t) <;> simp [deltaStored]

theorem Refs.deleted (h : Refs env) (id : SnapshotId) : Refs (withoutSnapshot env id) := by
  intro b t hdelta
  obtain ⟨hdelta, hkept⟩ := (deltaStored_dropped ..).mp hdelta
  rw [deltaStored, Env.set_db_ne (by decide)] at hdelta
  obtain ⟨hb, ht⟩ := h b t hdelta
  rw [namesSnapshot, deltaKeyIds_makeDeltaKey, Bool.or_eq_false_iff, beq_eq_false_iff_ne,
    beq_eq_false_iff_ne] at hkept
  have hstays : ∀ s, snapshotStored env s → s ≠ id → snapshotStored (withoutSnapshot env id) s := by
    intro s hs hne
    rw [snapshotStored, LmdbStore.withoutSnapshot, dropped, Env.set_db_ne (by decide),
      Env.set_db_self, Db.get_erase, if_neg fun heq => hne (encodeU64Be_inj.mp heq)]
    exact hs
  exact ⟨hstays b hb hkept.1, hstays t ht hkept.2⟩

theorem Refs.kept (h : Refs env) (ids : List SnapshotId) : Refs (retained env ids) := by
  intro b t hdelta
  obtain ⟨hdelta, hkept⟩ := (deltaStored_dropped ..).mp hdelta
  rw [deltaStored, dropped, Env.set_db_ne (by decide)] at hdelta
  obtain ⟨hb, ht⟩ := h b t hdelta
  rw [dropDelta, deltaKeyIds_makeDeltaKey, Bool.not_eq_false', Bool.and_eq_true] at hkept
  have hstays : ∀ s, snapshotStored env s → ids.contains s = true →
      snapshotStored (retained env ids) s := by
    intro s hs hin
    rw [snapshotStored, LmdbStore.retained, dropped, Env.set_db_ne (by decide), dropped,
      Env.set_db_self, Db.get_filter, if_pos]
    · exact hs
    · rw [dropSnapshot, decodeU64Be_encodeU64Be, hin]
      rfl
  exact ⟨hstays b hb hkept.1, hstays t ht hkept.2⟩

end

/-! ## What each step preserves -/

/-- The delta of a write to come names the base read and the snapshot built. -/
def Capture.Sound : Capture → Prop
  | .planned (.put result base delta) _ =>
      delta.baseSnapshotId = base.snapshotId ∧
        delta.targetSnapshotId = result.snapshotBuild.snapshot.snapshotId
  | _ => True

theorem sound_basedOn (store : LmdbStore) (result : PipelineResult) (baseSnapshotId : SnapshotId)
    (enqueueTransport : Bool) (io : CaptureIo) :
    (Capture.planned (basedOn store result baseSnapshotId enqueueTransport io)
      enqueueTransport).Sound := by
  rw [basedOn]
  split
  · trivial
  · split
    · trivial
    next base _ =>
      rw [withBase]
      dsimp only
      split
      · trivial
      · split
        · trivial
        · exact ⟨rfl, rfl⟩

structure Captures.Inv (s : Captures) : Prop where
  refs : Refs s.store.env
  sound : ∀ c ∈ s.underWay, c.Sound

/-- The base of a write about to happen is still stored; any other step will do. -/
def Captures.baseStored (s : Captures) : CaptureAct → Bool
  | .advance i _ =>
      match s.underWay[i]? with
      | some (.planned (.put _ base _) _) => decide (snapshotStored s.store.env base.snapshotId)
      | _ => true
  | _ => true

theorem refs_of_writes {store : LmdbStore} {result : StoreStatus × LmdbStore}
    {next : Env Dbi → Prop} (h : store.Writes result next) (hrefs : Refs store.env)
    (hnext : ∀ env, next env → Refs env) : Refs result.2.env := by
  rcases h with ⟨-, heq⟩ | ⟨-, -, env, henv, heq⟩
  · rw [heq]
    exact hrefs
  · rw [heq]
    exact hnext env henv

theorem refs_storeSnapshot {store : LmdbStore} (h : Refs store.env) (result : PipelineResult)
    (enqueueTransport : Bool) (io : CaptureIo) :
    Refs (storeSnapshot store result enqueueTransport io).2.env := by
  rw [storeSnapshot]
  split
  · exact h
  · have hput := refs_of_writes (putSnapshotWithTransport_writes store
      result.snapshotBuild.snapshot enqueueTransport false io.clock io.writeFaults) h
      fun env henv => by
        obtain ⟨payload, -, rfl, -⟩ := henv
        exact (h.withSnapshot _ _).enqueuedIf _ _
    dsimp only
    split <;> exact hput

theorem refs_storeUpdate {store : LmdbStore} (h : Refs store.env) {plan : UpdatePlan}
    {enqueueTransport : Bool} (io : CaptureIo)
    (hsound : (Capture.planned plan enqueueTransport).Sound)
    (hbase : ∀ result base delta, plan = .put result base delta →
      snapshotStored store.env base.snapshotId) :
    Refs (storeUpdate store plan enqueueTransport io).2.env := by
  cases plan with
  | done result => exact h
  | put result base delta =>
      obtain ⟨hdelta, htarget⟩ := hsound
      have hput := refs_of_writes (putSnapshotAndDelta_writes store
        result.snapshotBuild.snapshot delta (some base) enqueueTransport false io.clock
        io.writeFaults) h fun env henv => by
          obtain ⟨snapshotPayload, deltaPayload, -, -, rfl, -⟩ := henv
          refine (((h.withSnapshot _ _).withDelta ?_ ?_ _).enqueuedIf _ _).enqueuedIf _ _
          · rw [snapshotStored_withSnapshot, hdelta]
            exact .inr (hbase result base delta rfl)
          · rw [snapshotStored_withSnapshot]
            exact .inl htarget
      rw [storeUpdate]
      dsimp only
      split <;> exact hput

theorem Captures.Inv.act {s : Captures} (h : s.Inv) {a : CaptureAct}
    (hbase : s.baseStored a = true) : (s.act a).Inv := by
  have hstart : ∀ rawScan io next, (∀ result : PipelineResult, (next result : Capture).Sound) →
      (s.start rawScan io next).Inv := by
    intro rawScan io next hnext
    rw [Captures.start]
    split
    · exact h
    · refine ⟨h.refs, fun c hc => ?_⟩
      rcases List.mem_append.mp hc with hc | hc
      · exact h.sound c hc
      · rw [List.mem_singleton.mp hc]
        exact hnext _
  cases a with
  | scanFull rawScan enqueueTransport io => exact hstart _ _ _ fun _ => trivial
  | scanUpdate rawScan baseSnapshotId enqueueTransport io => exact hstart _ _ _ fun _ => trivial
  | advance i io =>
      rw [Captures.act, Captures.advance]
      rw [Captures.baseStored] at hbase
      cases hc : s.underWay[i]? with
      | none => exact h
      | some c =>
          have hsound := h.sound c (List.mem_of_getElem? hc)
          rw [hc] at hbase
          cases c with
          | full result enqueueTransport =>
              exact ⟨refs_storeSnapshot h.refs _ _ _,
                fun c hc => h.sound c (List.mem_of_mem_eraseIdx hc)⟩
          | update result baseSnapshotId enqueueTransport =>
              refine ⟨h.refs, fun c hc => ?_⟩
              rcases List.mem_or_eq_of_mem_set hc with hc | rfl
              · exact h.sound c hc
              · exact sound_basedOn _ _ _ _ _
          | planned plan enqueueTransport =>
              refine ⟨refs_storeUpdate h.refs _ hsound ?_,
                fun c hc => h.sound c (List.mem_of_mem_eraseIdx hc)⟩
              rintro result base delta rfl
              exact of_decide_eq_true hbase
  | ack consumerId sequence io =>
      refine ⟨refs_of_writes (ackTransportUntil_writes s.store consumerId sequence io) h.refs
        fun env henv => ?_, h.sound⟩
      rcases henv with ⟨-, ⟨_, -, -, rfl⟩ | ⟨-, rfl⟩⟩
      · exact h.refs
      · exact h.refs.congr (Env.set_db_ne (by decide)) (Env.set_db_ne (by decide))
  | deleteSnapshot snapshotId io =>
      refine ⟨refs_of_writes (deleteSnapshot_writes s.store snapshotId io) h.refs
        fun env henv => ?_, h.sound⟩
      rw [henv.2]
      exact h.refs.deleted _
  | retention keepLatestSnapshots io =>
      refine ⟨refs_of_writes (applySnapshotRetention_writes s.store keepLatestSnapshots io) h.refs
        fun env henv => ?_, h.sound⟩
      obtain ⟨items, -, ⟨-, rfl⟩ | ⟨-, rfl⟩⟩ := henv
      · exact h.refs
      · exact h.refs.kept _
  | openStore options directoryError io =>
      refine ⟨?_, h.sound⟩
      show Refs (s.store.openStore options directoryError io).2.env
      rcases openStore_cases s.store options directoryError io with
        ⟨-, heq⟩ | ⟨-, -, heq⟩ | ⟨-, -, heq⟩
      · rw [heq]
        exact h.refs
      · rw [heq]
        exact h.refs
      · rw [heq, initialized]
        split
        · exact h.refs.congr (Env.set_db_ne (by decide)) (Env.set_db_ne (by decide))
        · exact h.refs
  | close => exact ⟨h.refs, h.sound⟩

/-! ## The result -/

/-- Every write of the run finds the base it was computed from. -/
def basesStored : Captures → List CaptureAct → Bool
  | _, [] => true
  | s, a :: rest => s.baseStored a && basesStored (s.act a) rest

theorem Captures.Inv.run : ∀ {acts : List CaptureAct} {s : Captures}, s.Inv →
    basesStored s acts = true → (s.run acts).Inv
  | [], _, h, _ => h
  | a :: rest, s, h, hbases => by
      obtain ⟨hbase, hrest⟩ := (Bool.and_eq_true _ _).mp hbases
      exact (h.act hbase).run hrest

/-- In a run from the empty store whose every write finds its base, every delta
stored has both its snapshots. -/
theorem refs_run {acts : List CaptureAct} (h : basesStored {} acts = true) :
    ∀ b t, deltaStored (Captures.run {} acts).store.env b t →
      snapshotStored (Captures.run {} acts).store.env b ∧
        snapshotStored (Captures.run {} acts).store.env t := by
  have hempty : Captures.Inv {} :=
    { refs := fun b t hdelta => absurd hdelta (by simp [deltaStored, Db.get])
      sound := fun c hc => absurd hc List.not_mem_nil }
  exact (hempty.run h).refs

/-! ### An update, and one whose base is deleted meanwhile -/

/-- A full capture, then an incremental one as far as the read of its base. -/
def updateBegun : List CaptureAct :=
  [.openStore { directory := str "d" } none [], .scanFull (scanOfSize 10 7) true {},
    .advance 0 {}, .scanUpdate (scanOfSize 20 9) (idOf (scanOfSize 10 7)) true {}, .advance 0 {}]

def updateDone : List CaptureAct := updateBegun ++ [.advance 0 {}]

theorem refs_run_update :
    basesStored {} updateDone = true ∧
      snapshotStored (Captures.run {} updateDone).store.env (idOf (scanOfSize 10 7)) ∧
      snapshotStored (Captures.run {} updateDone).store.env (idOf (scanOfSize 20 9)) := by
  obtain ⟨hbases, hdelta⟩ : basesStored {} updateDone = true ∧
      deltaStored (Captures.run {} updateDone).store.env (idOf (scanOfSize 10 7))
        (idOf (scanOfSize 20 9)) := by decide +kernel
  exact ⟨hbases, refs_run hbases _ _ hdelta⟩

/-- The base is deleted after the update has read it. -/
def baseDeleted : List CaptureAct :=
  updateBegun ++ [.deleteSnapshot (idOf (scanOfSize 10 7)) [], .advance 0 {}]

/-- The delta is stored, and its base is not. -/
theorem not_refs_run_deleted :
    ¬ ∀ b t, deltaStored (Captures.run {} baseDeleted).store.env b t →
      snapshotStored (Captures.run {} baseDeleted).store.env b ∧
        snapshotStored (Captures.run {} baseDeleted).store.env t := by
  intro hall
  obtain ⟨hdelta, hbase⟩ : deltaStored (Captures.run {} baseDeleted).store.env
        (idOf (scanOfSize 10 7)) (idOf (scanOfSize 20 9)) ∧
      ¬ snapshotStored (Captures.run {} baseDeleted).store.env (idOf (scanOfSize 10 7)) := by
    decide +kernel
  exact hbase (hall _ _ hdelta).1

end ServerStorage.Muninn
