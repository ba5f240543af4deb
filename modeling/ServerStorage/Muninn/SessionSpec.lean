/-
# `ServerStorage.Muninn.SessionSpec` — what a message does to session and store

Most steps of a handler only queue replies (`Quiet`); the rules here carry a
postcondition on the session and the store past them, so that the lemmas about the
handlers mention the one step of each that works on the store.
-/
import ServerStorage.Muninn.Session
import ServerStorage.Muninn.StoreSpec

namespace ServerStorage.Muninn

open Lib Lmdb Crud

/-! ## Postconditions on session and store -/

/-- However the handler is left, `Q` holds of the session and the store. -/
def Leaves {α : Type} (m : SessionM α) (served : Served)
    (Q : CrudWebsocketSession → LmdbStore → Prop) : Prop :=
  Q (m.run.run served).2.session (m.run.run served).2.store

/-- A step that works on neither. -/
def Quiet {α : Type} (m : SessionM α) : Prop :=
  ∀ served, Leaves m served fun session store =>
    session = served.session ∧ store = served.store

section
variable {α β : Type} {served : Served} {Q : CrudWebsocketSession → LmdbStore → Prop}

theorem run_bind (x : SessionM α) (f : α → SessionM β) (served : Served) :
    (x >>= f).run.run served =
      match x.run.run served with
      | (.ok a, served') => (f a).run.run served'
      | (.error e, served') => (.error e, served') := by
  rw [ExceptT.run_bind, StateT.run_bind]
  cases h : x.run.run served with
  | mk r served' => cases r <;> rfl

theorem Leaves.bind {x : SessionM α} {f : α → SessionM β}
    (hx : Leaves x served Q)
    (hf : ∀ a served', x.run.run served = (.ok a, served') → Leaves (f a) served' Q) :
    Leaves (x >>= f) served Q := by
  rw [Leaves, run_bind]
  cases h : x.run.run served with
  | mk r served' =>
      cases r with
      | ok a => exact hf a served' h
      | error e => rw [Leaves, h] at hx; exact hx

/-- Past a quiet step. -/
theorem Leaves.quiet {x : SessionM α} {f : α → SessionM β} (hx : Quiet x)
    (hQ : Q served.session served.store)
    (hf : ∀ a served', x.run.run served = (.ok a, served') →
      served'.session = served.session → served'.store = served.store →
      Leaves (f a) served' Q) : Leaves (x >>= f) served Q := by
  obtain ⟨hsession, hstore⟩ := hx served
  refine .bind (show Q _ _ by rw [hsession, hstore]; exact hQ) fun a served' h => ?_
  rw [h] at hsession hstore
  exact hf a served' h hsession hstore

theorem Leaves.of_quiet {m : SessionM α} (hm : Quiet m) (hQ : Q served.session served.store) :
    Leaves m served Q := by
  obtain ⟨hsession, hstore⟩ := hm served
  rw [Leaves, hsession, hstore]
  exact hQ

end

namespace CrudWebsocketSession

theorem quiet_pure {α : Type} (a : α) : Quiet (pure a : SessionM α) := fun _ => ⟨rfl, rfl⟩

theorem quiet_get : Quiet (get : SessionM Served) := fun _ => ⟨rfl, rfl⟩

theorem quiet_throw {α : Type} (e : Escape) : Quiet (throw e : SessionM α) := fun _ => ⟨rfl, rfl⟩

theorem quiet_reading {α : Type} (parsed : Parsed α) : Quiet (reading parsed) := by
  cases parsed with
  | ok a => exact quiet_pure a
  | error e => exact quiet_throw _

theorem quiet_enqueueJson (payload : Json) : Quiet (enqueueJson payload) := by
  intro served
  rw [enqueueJson]
  split
  · exact ⟨rfl, rfl⟩
  · exact ⟨rfl, rfl⟩

theorem quiet_sendAnswer (answer : Option CrudResultMessage) : Quiet (sendAnswer answer) := by
  cases answer with
  | none => exact quiet_throw _
  | some result => exact quiet_enqueueJson _

theorem run_reading_ok {α : Type} {parsed : Parsed α} {a : α} {served served' : Served}
    (h : (reading parsed).run.run served = (.ok a, served')) : parsed = .ok a := by
  cases parsed with
  | error e => exact absurd (Prod.mk.inj h).1 (by simp)
  | ok b => exact congrArg _ (Except.ok.inj (Prod.mk.inj h).1)

theorem run_get_ok {served served' a : Served}
    (h : (get : SessionM Served).run.run served = (.ok a, served')) : a = served :=
  (Except.ok.inj (Prod.mk.inj h).1).symm

theorem run_storing {α : Type} (method : LmdbStore → α × LmdbStore) (served : Served) :
    (storing method).run.run served =
      (.ok (method served.store).1, { served with store := (method served.store).2 }) := rfl

/-! ## The handlers -/

section
variable {served : Served} {Q : CrudWebsocketSession → LmdbStore → Prop} {io : MessageIo}
  {options : CrudServerOptions} {payload : Json}

/-- The consumer id of a hello. -/
def consumerIdOf (hello : HelloMessage) : Str :=
  hello.clientInstanceId ++ str ":" ++ hello.hostId

/-- The hello passes every check of `handle_hello` before the store is asked. -/
def Admits (options : CrudServerOptions) (hello : HelloMessage) : Prop :=
  hello.clientInstanceId ≠ [] ∧
    clientInstanceAllowed options.allowedClientInstanceId hello.clientInstanceId = true ∧
    validateBridgeAuthToken hello options = none

/-- The session an accepted hello leaves behind. -/
def sessionOf (hello : HelloMessage) : CrudWebsocketSession :=
  { helloAccepted := true
    peerHostId := hello.hostId
    peerClientInstanceId := hello.clientInstanceId
    consumerId := consumerIdOf hello }

theorem handleHello_leaves (hQ : Q served.session served.store)
    (hregister : ∀ hello, parseHello payload = .ok (some hello) → Admits options hello →
      Q served.session
          (served.store.registerTransportConsumer (consumerIdOf hello) io.register).2 ∧
        ((served.store.registerTransportConsumer (consumerIdOf hello) io.register).1.ok = true →
          Q (sessionOf hello)
            (served.store.registerTransportConsumer (consumerIdOf hello) io.register).2)) :
    Leaves (handleHello options io payload) served Q := by
  refine .quiet (quiet_reading _) hQ fun found served₁ hread hsession hstore => ?_
  have hparsed := run_reading_ok hread
  rw [← hsession, ← hstore] at hQ
  cases found with
  | none => exact .of_quiet (quiet_enqueueJson _) hQ
  | some hello =>
      dsimp only
      split
      · exact .of_quiet (quiet_enqueueJson _) hQ
      next hid =>
        split
        · exact .of_quiet (quiet_enqueueJson _) hQ
        next hallowed =>
          split
          · exact .of_quiet (quiet_enqueueJson _) hQ
          next htoken =>
            have hcase := hregister hello hparsed ⟨hid, by simpa using hallowed, htoken⟩
            rw [← hsession, ← hstore] at hcase
            refine .bind hcase.1 fun status served₂ hrun => ?_
            obtain ⟨hstatus, rfl⟩ := Prod.mk.inj hrun
            obtain rfl := Except.ok.inj hstatus
            dsimp only
            split
            · exact .of_quiet (quiet_enqueueJson _) hcase.1
            next hok =>
              rw [Bool.not_eq_true, Bool.not_eq_false'] at hok
              have haccepted := hcase.2 hok
              refine .bind haccepted fun _ served₃ hrun => ?_
              obtain ⟨-, rfl⟩ := Prod.mk.inj hrun
              exact .of_quiet (quiet_enqueueJson _) haccepted

theorem handleIngestAck_leaves (hQ : Q served.session served.store)
    (hack : ∀ ack, parseIngestAck payload = .ok (some ack) → ack.ok = true →
      ack.ackSequence ≠ 0 → Q served.session (served.store.ackTransportUntilForConsumer
        served.session.consumerId ack.ackSequence io.ingestAck).2) :
    Leaves (handleIngestAck io payload) served Q := by
  refine .quiet (quiet_reading _) hQ fun found served₁ hread hsession hstore => ?_
  have hparsed := run_reading_ok hread
  rw [← hsession, ← hstore] at hQ
  cases found with
  | none => exact .of_quiet (quiet_enqueueJson _) hQ
  | some ack =>
      dsimp only
      split
      · exact .of_quiet (quiet_pure _) hQ
      next hnot =>
        have hok : ack.ok = true := by
          cases hok : ack.ok with
          | true => rfl
          | false => exact absurd (Or.inl (by rw [hok]; rfl)) hnot
        have hcase := hack ack hparsed hok fun h0 => hnot (.inr h0)
        rw [← hsession, ← hstore] at hcase
        refine .quiet quiet_get hQ fun served₂ served₃ hget hsession₃ hstore₃ => ?_
        obtain rfl := run_get_ok hget
        rw [← hstore₃] at hcase
        refine .bind (hsession₃ ▸ hcase) fun status served₄ hrun => ?_
        obtain ⟨hstatus, rfl⟩ := Prod.mk.inj hrun
        obtain rfl := Except.ok.inj hstatus
        split
        · exact .of_quiet (quiet_enqueueJson _) (hsession₃ ▸ hcase)
        · exact .of_quiet (quiet_pure _) (hsession₃ ▸ hcase)

theorem handleCommand_leaves (hQ : Q served.session served.store)
    (hcommand : ∀ command answer store, parseCrudCommand payload = .ok (some command) →
      CrudCommandProcessor.process options io.scan served.store command
        served.session.consumerId io.command = some (answer, store) →
      Q served.session store) :
    Leaves (handleCommand options io payload) served Q := by
  refine .quiet (quiet_reading _) hQ fun found served₁ hread hsession hstore => ?_
  have hparsed := run_reading_ok hread
  rw [← hsession, ← hstore] at hQ
  cases found with
  | none => exact .of_quiet (quiet_enqueueJson _) hQ
  | some command =>
      dsimp only
      refine .quiet quiet_get hQ fun served₂ served₃ hget hsession₃ hstore₃ => ?_
      obtain rfl := run_get_ok hget
      rw [← hsession₃, ← hstore₃] at hQ
      split
      · exact .of_quiet (quiet_throw _) hQ
      next answer store hprocess =>
        rw [hstore, hsession] at hprocess
        have hcase := hcommand command answer store hparsed hprocess
        rw [← hsession] at hcase
        refine .bind hcase fun _ served₄ hrun => ?_
        obtain ⟨-, rfl⟩ := Prod.mk.inj hrun
        exact .of_quiet (quiet_sendAnswer _) hcase

theorem authenticated_leaves {refusal : String} {handler : SessionM Unit}
    (hQ : Q served.session served.store)
    (hhandler : served.session.helloAccepted = true → Leaves handler served Q) :
    Leaves (authenticated payload refusal handler) served Q := by
  refine .quiet quiet_get hQ fun served₁ served₂ hget hsession hstore => ?_
  obtain ⟨hok, rfl⟩ := Prod.mk.inj hget
  obtain rfl := Except.ok.inj hok
  split
  next haccepted => exact hhandler haccepted
  next =>
    refine .quiet (quiet_reading _) hQ fun _ served₃ _ hsession₃ hstore₃ => ?_
    exact .of_quiet (quiet_enqueueJson _) (by rw [hsession₃, hstore₃]; exact hQ)

/-- Whatever the message: nothing of session and store changes but by the three
store accesses of the handlers. -/
theorem dispatch_leaves (hQ : Q served.session served.store)
    (hregister : ∀ hello, parseHello payload = .ok (some hello) → Admits options hello →
      Q served.session
          (served.store.registerTransportConsumer (consumerIdOf hello) io.register).2 ∧
        ((served.store.registerTransportConsumer (consumerIdOf hello) io.register).1.ok = true →
          Q (sessionOf hello)
            (served.store.registerTransportConsumer (consumerIdOf hello) io.register).2))
    (hack : served.session.helloAccepted = true → ∀ ack,
      parseIngestAck payload = .ok (some ack) → ack.ok = true → ack.ackSequence ≠ 0 →
      Q served.session (served.store.ackTransportUntilForConsumer
        served.session.consumerId ack.ackSequence io.ingestAck).2)
    (hcommand : served.session.helloAccepted = true → ∀ command answer store,
      parseCrudCommand payload = .ok (some command) →
      CrudCommandProcessor.process options io.scan served.store command
        served.session.consumerId io.command = some (answer, store) →
      Q served.session store) :
    Leaves (dispatch options io payload) served Q := by
  refine .quiet (quiet_reading _) hQ fun type served₁ hread _ _ => ?_
  have hserved : served₁ = served := by
    cases hfound : stringOr payload "type" with
    | error e => rw [hfound] at hread; exact absurd (Prod.mk.inj hread).1 (by simp)
    | ok a => rw [hfound] at hread; exact (Prod.mk.inj hread).2.symm
  subst hserved
  split
  · exact handleHello_leaves hQ hregister
  · split
    · exact authenticated_leaves hQ fun haccepted =>
        handleIngestAck_leaves hQ (hack haccepted)
    · split
      · exact authenticated_leaves hQ fun haccepted =>
          handleCommand_leaves hQ (hcommand haccepted)
      · exact .of_quiet (quiet_enqueueJson _) hQ

end

end CrudWebsocketSession

end ServerStorage.Muninn
