/-
# `ServerStorage.Muninn.Isolation` — what one session's acks are to another

A consumer is the pair of ids its hello carries, but the store knows it by one string, the
two ids with a colon between them.  Two sessions whose strings differ do not see each
other's reads and acks: a run with them and the run without them go on side by side, on
stores that are alike, and the other session is sent the same.  Two pairs that spell one
string share one ack.  An exception ends the server, and with it both sessions.
-/
import ServerStorage.Muninn.Receiving
import ServerStorage.Muninn.StoreRuns
import ServerStorage.Muninn.StoreTwin

namespace ServerStorage.Muninn

open Lib Lmdb Dbi Crud

/-! ## Two sessions on one store -/

inductive Side where
  | first | second
  deriving DecidableEq

/-- A message on one of the sessions, and what its handler meets. -/
structure SessionMessage where
  side : Side
  io : MessageIo := {}
  payload : Json

structure Serving where
  first : CrudWebsocketSession := {}
  second : CrudWebsocketSession := {}
  store : LmdbStore := {}
  /-- What the second session has been sent. -/
  replies : List Json := []
  /-- Until a handler is left by an exception, which leaves `io_context::run` too. -/
  running : Bool := true

namespace Serving

def handle (options : CrudServerOptions) (s : Serving) (m : SessionMessage) : Serving :=
  if s.running = false then s
  else
    match m.side with
    | .first =>
        let r := (CrudWebsocketSession.dispatch options m.io m.payload).run.run
          { session := s.first, store := s.store }
        { s with first := r.2.session, store := r.2.store, running := r.1.isOk }
    | .second =>
        let r := (CrudWebsocketSession.dispatch options m.io m.payload).run.run
          { session := s.second, store := s.store }
        { s with
          second := r.2.session, store := r.2.store, replies := s.replies ++ r.2.sent
          running := r.1.isOk }

def serve (options : CrudServerOptions) (s : Serving) (messages : List SessionMessage) : Serving :=
  messages.foldl (handle options) s

/-- What holds of every message handled, on the state it comes to. -/
def Each (options : CrudServerOptions) (P : Serving → SessionMessage → Prop) :
    Serving → List SessionMessage → Prop
  | _, [] => True
  | s, m :: messages => (s.running = true → P s m) ∧ Each options P (s.handle options m) messages

end Serving

def acks (payload : Json) : Bool :=
  match stringOr payload "type" with
  | .ok type => type == str "ingest_ack"
  | .error _ => false

def reads (payload : Json) : Bool :=
  match parseCrudCommand payload with
  | .ok (some command) => command.operation == .read
  | _ => false

/-- A read command or an ack of the first session. -/
def SessionMessage.removed (m : SessionMessage) : Bool :=
  m.side == .first && (acks m.payload || reads m.payload)

/-- The run without the reads and acks of the first session. -/
def withoutFirst (messages : List SessionMessage) : List SessionMessage :=
  messages.filter fun m => !m.removed

/-- A hello on the session that the server admits. -/
def Greets (options : CrudServerOptions) (messages : List SessionMessage) (side : Side)
    (hello : HelloMessage) : Prop :=
  ∃ m ∈ messages, m.side = side ∧ parseHello m.payload = .ok (some hello) ∧
    CrudWebsocketSession.Admits options hello

/-! ## Handlers side by side -/

variable {hidden : Str → Prop} {α β : Type}

structure ServedAlike (hidden : Str → Prop) (served served' : Served) : Prop where
  session : served.session = served'.session
  sent : served.sent = served'.sent
  store : StoresAlike hidden served.store served'.store

/-- The handlers end alike, with the same result. -/
structure Mirrored (hidden : Str → Prop) (r r' : Except Escape α × Served) : Prop where
  result : r.1 = r'.1
  served : ServedAlike hidden r.2 r'.2

/-- The handlers end alike, and leave the same session and stores that are alike; what they
have sent is the same where `P`. -/
structure Follows (hidden : Str → Prop) (P : Prop) (r r' : Except Escape α × Served) : Prop where
  result : r.1 = r'.1
  session : r.2.session = r'.2.session
  sent : P → r.2.sent = r'.2.sent
  store : StoresAlike hidden r.2.store r'.2.store

section
variable {served served' : Served} {P : Prop}

theorem Mirrored.follows {r r' : Except Escape α × Served} (h : Mirrored hidden r r') :
    Follows hidden P r r' := ⟨h.result, h.served.session, fun _ => h.served.sent, h.served.store⟩

theorem Follows.bind {x : SessionM α} {f f' : α → SessionM β}
    (hx : Mirrored hidden (x.run.run served) (x.run.run served'))
    (hf : ∀ a s s', x.run.run served = (.ok a, s) → x.run.run served' = (.ok a, s') →
      ServedAlike hidden s s' → Follows hidden P ((f a).run.run s) ((f' a).run.run s')) :
    Follows hidden P ((x >>= f).run.run served) ((x >>= f').run.run served') := by
  rw [run_bind, run_bind]
  cases hrun : x.run.run served with
  | mk r s =>
      cases hrun' : x.run.run served' with
      | mk r' s' =>
          rw [hrun, hrun'] at hx
          obtain ⟨heq, halike⟩ := hx
          obtain rfl : r = r' := heq
          cases r with
          | error e => exact ⟨rfl, halike.session, fun _ => halike.sent, halike.store⟩
          | ok a => exact hf a s s' hrun hrun' halike

theorem Follows.get {f : Served → SessionM β}
    (h : Follows hidden P ((f served).run.run served) ((f served').run.run served')) :
    Follows hidden P ((get >>= f).run.run served) ((get >>= f).run.run served') := h

theorem run_reading_eq {parsed : Parsed α} {a : α} {s : Served}
    (h : (CrudWebsocketSession.reading parsed).run.run served = (.ok a, s)) :
    parsed = .ok a ∧ s = served := by
  cases parsed with
  | ok b =>
      obtain ⟨hb, rfl⟩ := Prod.mk.inj h
      exact ⟨congrArg Except.ok (Except.ok.inj hb), rfl⟩
  | error e => cases (Prod.mk.inj h).1

theorem mirrored_reading (h : ServedAlike hidden served served') (parsed : Parsed α) :
    Mirrored hidden ((CrudWebsocketSession.reading parsed).run.run served)
      ((CrudWebsocketSession.reading parsed).run.run served') := by
  cases parsed with
  | ok a => exact ⟨rfl, h⟩
  | error e => exact ⟨rfl, h⟩

theorem mirrored_enqueueJson (h : ServedAlike hidden served served') (payload : Json) :
    Mirrored hidden ((CrudWebsocketSession.enqueueJson payload).run.run served)
      ((CrudWebsocketSession.enqueueJson payload).run.run served') := by
  rw [CrudWebsocketSession.enqueueJson]
  split
  · exact ⟨rfl, h.session, congrArg (· ++ [payload]) h.sent, h.store⟩
  · exact ⟨rfl, h⟩

theorem mirrored_storing (h : ServedAlike hidden served served')
    {method : LmdbStore → StoreStatus × LmdbStore}
    (hmethod : LmdbStore.Keeps hidden (method served.store) (method served'.store)) :
    Mirrored hidden ((CrudWebsocketSession.storing method).run.run served)
      ((CrudWebsocketSession.storing method).run.run served') := by
  rw [CrudWebsocketSession.run_storing, CrudWebsocketSession.run_storing]
  exact ⟨congrArg Except.ok hmethod.status, h.session, h.sent, hmethod.store⟩

end

namespace CrudWebsocketSession

section
variable {served served' : Served} (h : ServedAlike hidden served served') {P : Prop}
  (options : CrudServerOptions) (io : MessageIo) (payload : Json)
include h

theorem enqueueJson_follows (message : Json) :
    Follows hidden P ((enqueueJson message).run.run served)
      ((enqueueJson message).run.run served') := (mirrored_enqueueJson h message).follows

theorem sendAnswer_follows (answer : Option CrudResultMessage) :
    Follows hidden P ((sendAnswer answer).run.run served)
      ((sendAnswer answer).run.run served') := by
  cases answer with
  | none => exact ⟨rfl, h.session, fun _ => h.sent, h.store⟩
  | some result => exact enqueueJson_follows h result.toJson

omit h in
theorem enqueueJson_result (message : Json) :
    ((enqueueJson message).run.run served).1 =
      if message.dumps then .ok () else .error (.raised Json.invalidUtf8) := by
  rw [enqueueJson]
  split <;> rfl

omit h in
/-- Two answers to one command, both in UTF-8, can be written out or not alike. -/
theorem sendAnswer_result {command : CrudCommandMessage} {store store' next next' : LmdbStore}
    {consumerId : Str} {answer answer' : Option CrudResultMessage}
    (hprocess : CrudCommandProcessor.process options io.scan store command consumerId io.command =
      some (answer, next))
    (hprocess' : CrudCommandProcessor.process options io.scan store' command consumerId
      io.command = some (answer', next'))
    (hspoken : CrudCommandProcessor.Spoken answer)
    (hspoken' : CrudCommandProcessor.Spoken answer') :
    ((sendAnswer answer).run.run served).1 = ((sendAnswer answer').run.run served').1 := by
  obtain ⟨result, rfl, hutf8⟩ := hspoken
  obtain ⟨result', rfl, hutf8'⟩ := hspoken'
  have hdumps : result.toJson.dumps = result'.toJson.dumps := by
    rw [Bool.eq_iff_iff, dumps_answer hprocess, dumps_answer hprocess',
      and_iff_left ⟨result, rfl, hutf8⟩, and_iff_left ⟨result', rfl, hutf8'⟩]
  show ((enqueueJson result.toJson).run.run served).1 =
    ((enqueueJson result'.toJson).run.run served').1
  rw [enqueueJson_result, enqueueJson_result, hdumps]

theorem handleHello_follows :
    Follows hidden P ((handleHello options io payload).run.run served)
      ((handleHello options io payload).run.run served') := by
  refine .bind (mirrored_reading h _) fun found s s' _ _ h => ?_
  cases found with
  | none => exact enqueueJson_follows h _
  | some hello =>
      dsimp only
      split
      · exact enqueueJson_follows h _
      · split
        · exact enqueueJson_follows h _
        · split
          · exact enqueueJson_follows h _
          · refine .bind (mirrored_storing h
              (LmdbStore.registerTransportConsumer_keeps h.store _ _)) fun status s s' _ _ h => ?_
            split
            · exact enqueueJson_follows h _
            · refine .bind ⟨rfl, rfl, h.sent, h.store⟩ fun _ s s' _ _ h => ?_
              exact enqueueJson_follows h _

theorem handleIngestAck_follows
    (hack : ∀ ack, parseIngestAck payload = .ok (some ack) →
      LmdbStore.Keeps hidden
        (served.store.ackTransportUntilForConsumer served.session.consumerId ack.ackSequence
          io.ingestAck)
        (served'.store.ackTransportUntilForConsumer served.session.consumerId ack.ackSequence
          io.ingestAck)) :
    Follows hidden P ((handleIngestAck io payload).run.run served)
      ((handleIngestAck io payload).run.run served') := by
  refine .bind (mirrored_reading h _) fun found s s' hs hs' h => ?_
  obtain ⟨hparse, rfl⟩ := run_reading_eq hs
  obtain ⟨-, rfl⟩ := run_reading_eq hs'
  cases found with
  | none => exact enqueueJson_follows h _
  | some ack =>
      dsimp only
      split
      · exact ⟨rfl, h.session, fun _ => h.sent, h.store⟩
      · refine .get ?_
        rw [← h.session]
        refine .bind (mirrored_storing h (hack ack hparse)) fun status s s' _ _ h => ?_
        · split
          · exact enqueueJson_follows h _
          · exact ⟨rfl, h.session, fun _ => h.sent, h.store⟩

theorem handleCommand_follows
    (hcommand : ∀ command, parseCrudCommand payload = .ok (some command) →
      LmdbStore.Keeps hidden
        (CrudCommandProcessor.ackOf served.store command served.session.consumerId io.command)
        (CrudCommandProcessor.ackOf served'.store command served.session.consumerId io.command))
    (hshown : P → ¬ hidden served.session.consumerId)
    (hbatch : ¬ P → ∀ command, parseCrudCommand payload = .ok (some command) →
      CrudCommandProcessor.Batchable options io.scan served.store.env served.session.consumerId
          command ∧
        CrudCommandProcessor.Batchable options io.scan served'.store.env
          served.session.consumerId command) :
    Follows hidden P ((handleCommand options io payload).run.run served)
      ((handleCommand options io payload).run.run served') := by
  refine .bind (mirrored_reading h _) fun found s s' hs hs' h => ?_
  obtain ⟨hparse, rfl⟩ := run_reading_eq hs
  obtain ⟨-, rfl⟩ := run_reading_eq hs'
  cases found with
  | none => exact enqueueJson_follows h _
  | some command =>
      refine .get ?_
      have hanswers := CrudCommandProcessor.process_answers options io.scan command
        s.session.consumerId io.command (hcommand command hparse)
      rw [← h.session]
      generalize hr : CrudCommandProcessor.process options io.scan s.store command
        s.session.consumerId io.command = r at hanswers
      generalize hr' : CrudCommandProcessor.process options io.scan s'.store command
        s.session.consumerId io.command = r' at hanswers
      cases hanswers with
      | none => exact ⟨rfl, h.session, fun _ => h.sent, h.store⟩
      | @some a b hab =>
          obtain ⟨answer, store⟩ := a
          obtain ⟨answer', store'⟩ := b
          show Follows hidden P ((sendAnswer answer).run.run { s with store := store })
            ((sendAnswer answer').run.run { s' with session := s.session, store := store' })
          by_cases hP : P
          · obtain rfl : answer = answer' := hab.result (hshown hP)
            have halike : ServedAlike hidden { s with store := store }
                { s' with session := s.session, store := store' } := ⟨rfl, h.sent, hab.store⟩
            exact sendAnswer_follows halike _
          · obtain ⟨hbatch, hbatch'⟩ := hbatch hP command hparse
            obtain ⟨hsession, hstore⟩ := quiet_sendAnswer answer { s with store := store }
            obtain ⟨hsession', hstore'⟩ :=
              quiet_sendAnswer answer' { s' with session := s.session, store := store' }
            refine ⟨sendAnswer_result options io hr hr'
                (CrudCommandProcessor.process_spoken hbatch hr)
                (CrudCommandProcessor.process_spoken hbatch' hr'),
              hsession.trans hsession'.symm, fun h => absurd h hP, ?_⟩
            · rw [hstore, hstore']
              exact hab.store

theorem authenticated_follows {refusal : String} {handler : SessionM Unit}
    (hhandler : served.session.helloAccepted = true →
      Follows hidden P (handler.run.run served) (handler.run.run served')) :
    Follows hidden P ((authenticated payload refusal handler).run.run served)
      ((authenticated payload refusal handler).run.run served') := by
  refine .get ?_
  rw [← h.session]
  split
  next haccepted => exact hhandler haccepted
  next => exact .bind (mirrored_reading h _) fun _ _ _ _ _ h => enqueueJson_follows h _

/-- A message handled on both stores, whose acks the stores take alike. -/
theorem dispatch_follows
    (hack : served.session.helloAccepted = true → ∀ ack,
      parseIngestAck payload = .ok (some ack) →
      LmdbStore.Keeps hidden
        (served.store.ackTransportUntilForConsumer served.session.consumerId ack.ackSequence
          io.ingestAck)
        (served'.store.ackTransportUntilForConsumer served.session.consumerId ack.ackSequence
          io.ingestAck))
    (hcommand : served.session.helloAccepted = true → ∀ command,
      parseCrudCommand payload = .ok (some command) →
      LmdbStore.Keeps hidden
        (CrudCommandProcessor.ackOf served.store command served.session.consumerId io.command)
        (CrudCommandProcessor.ackOf served'.store command served.session.consumerId io.command))
    (hshown : P → served.session.helloAccepted = true → ¬ hidden served.session.consumerId)
    (hbatch : ¬ P → served.session.helloAccepted = true → ∀ command,
      parseCrudCommand payload = .ok (some command) →
      CrudCommandProcessor.Batchable options io.scan served.store.env served.session.consumerId
          command ∧
        CrudCommandProcessor.Batchable options io.scan served'.store.env
          served.session.consumerId command) :
    Follows hidden P ((dispatch options io payload).run.run served)
      ((dispatch options io payload).run.run served') := by
  refine .bind (mirrored_reading h _) fun type s s' hs hs' h => ?_
  obtain ⟨-, rfl⟩ := run_reading_eq hs
  obtain ⟨-, rfl⟩ := run_reading_eq hs'
  split
  · exact handleHello_follows h options io payload
  · split
    · exact authenticated_follows h payload fun haccepted =>
        handleIngestAck_follows h io payload (hack haccepted)
    · split
      · exact authenticated_follows h payload fun haccepted =>
          handleCommand_follows h options io payload (hcommand haccepted)
            (fun hP => hshown hP haccepted) fun hP => hbatch hP haccepted
      · exact enqueueJson_follows h _

end

end CrudWebsocketSession

/-! ## Consumers stay registered -/

def anyRun : Guard where
  ack _ _ := True
  enqueue _ := True

theorem Registered.acked {env : Env Dbi} {c : Str} (h : Registered env c) (c' : Str)
    (ack : UInt64) : Registered (acked env c' ack) c := by
  by_cases heq : c = c'
  · rw [heq]
    exact LmdbStore.registered_acked _ _ _
  · obtain ⟨v, hv, hlength⟩ := h
    refine ⟨v, ?_, hlength⟩
    rw [Muninn.acked, Env.set_db_self, Db.get_put, if_neg heq, hv]

theorem Registered.congr {env env' : Env Dbi} {c : Str} (h : Registered env c)
    (heq : env'.db transportConsumersDbi = env.db transportConsumersDbi) : Registered env' c := by
  rw [Registered, heq]
  exact h

theorem Registered.run {env env' : Env Dbi} {c : Str} (h : Registered env c)
    (hrun : OutboxRun anyRun env env') : Registered env' c := by
  induction hrun with
  | refl => exact h
  | tail _ hstep ih =>
      cases hstep with
      | ack => exact ih.acked _ _
      | register => exact ih.acked _ _
      | enqueue => exact ih.congr (consumers_enqueued _ _)
      | compact => exact ih.congr (consumers_compacted _ _)
      | setCounter => exact ih.congr (consumers_counted _ _)
      | other hsame => exact ih.congr hsame.2.2

theorem dispatch_anyRun (served : Served) (options : CrudServerOptions) (io : MessageIo)
    (payload : Json) :
    Leaves (CrudWebsocketSession.dispatch options io payload) served fun _ store =>
      OutboxRun anyRun served.store.env store.env :=
  dispatch_run (fun _ _ => trivial) (fun _ _ _ _ => trivial) fun _ => trivial

/-- The consumer of an accepted session is the one of a hello the server has admitted, and
is on record. -/
theorem dispatch_registered {K : Str → Prop} (served : Served) (options : CrudServerOptions)
    (io : MessageIo) (payload : Json)
    (h : served.session.helloAccepted = true →
      K served.session.consumerId ∧ Registered served.store.env served.session.consumerId)
    (hK : ∀ hello, parseHello payload = .ok (some hello) →
      CrudWebsocketSession.Admits options hello → K (CrudWebsocketSession.consumerIdOf hello)) :
    Leaves (CrudWebsocketSession.dispatch options io payload) served fun session store =>
      session.helloAccepted = true → K session.consumerId ∧
        Registered store.env session.consumerId := by
  refine CrudWebsocketSession.dispatch_leaves h ?_ ?_ ?_
  · intro hello hparse hadmits
    refine ⟨fun haccepted => ?_, fun hok _ => ⟨hK hello hparse hadmits, ?_⟩⟩
    · exact ⟨(h haccepted).1, (h haccepted).2.run (LmdbStore.registerTransportConsumer_run _ _ trivial)⟩
    · exact LmdbStore.writes_ok (LmdbStore.registerTransportConsumer_registered _ _ _) hok
  · intro haccepted ack _ _ _ _
    exact ⟨(h haccepted).1,
      (h haccepted).2.run (LmdbStore.ackTransportUntil_run _ _ _ trivial trivial)⟩
  · intro haccepted command result store _ hprocess _
    exact ⟨(h haccepted).1, (h haccepted).2.run
      (CrudCommandProcessor.process_run (fun _ => trivial) (fun _ _ _ => trivial) trivial
        hprocess)⟩

/-! ## The two runs -/

/-- The run with the first session's reads and acks, beside the run without. -/
structure Beside (hidden : Str → Prop) (s s' : Serving) : Prop where
  first : s.first = s'.first
  second : s.second = s'.second
  replies : s.replies = s'.replies
  running : s.running = s'.running
  store : StoresAlike hidden s.store s'.store
  registered : s.first.helloAccepted = true →
    hidden s.first.consumerId ∧ Registered s.store.env s.first.consumerId
  shown : s.second.helloAccepted = true →
    ¬ hidden s.second.consumerId ∧ Registered s.store.env s.second.consumerId

/-- The consumers of the hellos on the first session are hidden, those of the second are
not; and no LMDB call fails under an ack that is not itself removed. -/
structure Apart (hidden : Str → Prop) (options : CrudServerOptions) (m : SessionMessage) :
    Prop where
  first : m.side = .first → ∀ hello, parseHello m.payload = .ok (some hello) →
    CrudWebsocketSession.Admits options hello → hidden (CrudWebsocketSession.consumerIdOf hello)
  second : m.side = .second → ∀ hello, parseHello m.payload = .ok (some hello) →
    CrudWebsocketSession.Admits options hello → ¬ hidden (CrudWebsocketSession.consumerIdOf hello)
  io : m.side = .first → m.removed = false → m.io.command.ack = []

/-- No removed message is left by an exception, and no other of the first session by one that
depends on what its consumer has acked. -/
structure Calm (options : CrudServerOptions) (s : Serving) (m : SessionMessage) : Prop where
  returns : m.removed = true → m.payload.isObject = true ∧ m.payload.dumps = true ∧
    CrudWebsocketSession.Legible s.first m.payload ∧
    CrudWebsocketSession.Batched options m.io { session := s.first, store := s.store } m.payload
  kept : m.side = .first → m.removed = false → s.first.helloAccepted = true → ∀ command,
    parseCrudCommand m.payload = .ok (some command) →
      CrudCommandProcessor.AlwaysBatchable options m.io.scan s.store.env command

/-- What a removed message can be. -/
theorem removed_cases {m : SessionMessage} (hm : m.removed = true) :
    m.side = .first ∧ (stringOr m.payload "type" = .ok (str "ingest_ack") ∨
      ∃ command, parseCrudCommand m.payload = .ok (some command) ∧ command.operation = .read) := by
  rw [SessionMessage.removed, Bool.and_eq_true, Bool.or_eq_true] at hm
  refine ⟨by simpa using hm.1, hm.2.imp (fun h => ?_) fun h => ?_⟩
  · rw [acks] at h
    split at h
    next type htype => rw [htype, beq_iff_eq.mp h]
    next => cases h
  · rw [reads] at h
    split at h
    next command hcommand => exact ⟨command, hcommand, beq_iff_eq.mp h⟩
    next => cases h

/-- A kept message of the first session brings no ack of its own. -/
theorem not_ack_of_kept {m : SessionMessage} (hside : m.side = .first) (hm : m.removed = false)
    (ack : IngestAckMessage) : parseIngestAck m.payload ≠ .ok (some ack) := by
  intro hparse
  have hacks : acks m.payload = true := by
    rw [acks, (ofType_some hparse).1]
    decide
  rw [SessionMessage.removed, hside, hacks] at hm
  cases hm

theorem not_read_of_kept {m : SessionMessage} (hside : m.side = .first) (hm : m.removed = false)
    {command : CrudCommandMessage} (hparse : parseCrudCommand m.payload = .ok (some command)) :
    command.operation ≠ .read := by
  intro hread
  have hreads : reads m.payload = true := by
    rw [reads, hparse]
    exact beq_iff_eq.mpr hread
  rw [SessionMessage.removed, hside, hreads, Bool.or_true] at hm
  cases hm

/-- A read changes the store by its ack alone. -/
theorem process_read {options : CrudServerOptions} {scan : Str → RawScanResult}
    {store store' : LmdbStore} {command : CrudCommandMessage} {consumerId : Str} {io : CommandIo}
    {answer : Option CrudResultMessage} (hread : command.operation = .read)
    (h : CrudCommandProcessor.process options scan store command consumerId io =
      some (answer, store')) :
    store' = (CrudCommandProcessor.ackOf store command consumerId io).2 := by
  rw [CrudCommandProcessor.process] at h
  dsimp only at h
  split at h
  · exact (Prod.mk.inj (Option.some.inj h)).2.symm
  · split at h
    · exact (Prod.mk.inj (Option.some.inj h)).2.symm
    · rw [CrudCommandProcessor.operate, hread] at h
      exact (Prod.mk.inj (Option.some.inj h)).2.symm

theorem Beside.removed {s s' : Serving} (h : Beside hidden s s') {options : CrudServerOptions}
    {m : SessionMessage} (hcalm : s.running = true → Calm options s m) (hm : m.removed = true) :
    Beside hidden (s.handle options m) s' := by
  rw [Serving.handle]
  cases hrunning : s.running with
  | false =>
      rw [if_pos rfl]
      exact h
  | true =>
  rw [if_neg (Ne.symm Bool.false_ne_true)]
  replace hcalm := hcalm hrunning
  obtain ⟨hside, hkind⟩ := removed_cases hm
  have hack : s.first.helloAccepted = true → ∀ sequence io,
      StoresAlike hidden
        (s.store.ackTransportUntilForConsumer s.first.consumerId sequence io).2 s.store :=
    fun haccepted sequence io => LmdbStore.ackTransportUntil_alike h.store.env.2
      (h.registered haccepted).1 (h.registered haccepted).2 sequence io
  have hleaves : Leaves (CrudWebsocketSession.dispatch options m.io m.payload)
      { session := s.first, store := s.store }
      fun session store => session = s.first ∧ StoresAlike hidden store s.store := by
    refine CrudWebsocketSession.dispatch_leaves ⟨rfl, .refl h.store.env.2⟩ ?_ ?_ ?_
    · intro hello hparse _
      exfalso
      have htype := (ofType_some hparse).1
      rcases hkind with hack | ⟨command, hcommand, -⟩
      · exact absurd (Except.ok.inj (htype.symm.trans hack)) (by decide)
      · exact absurd (Except.ok.inj (htype.symm.trans (ofType_some hcommand).1)) (by decide)
    · intro haccepted ack _ _ _
      exact ⟨rfl, hack haccepted _ _⟩
    · intro haccepted command result store hparse hprocess
      refine ⟨rfl, ?_⟩
      rcases hkind with hack | ⟨command', hcommand, hread⟩
      · exact absurd (Except.ok.inj ((ofType_some hparse).1.symm.trans hack)) (by decide)
      · obtain rfl := Option.some.inj (Except.ok.inj (hparse.symm.trans hcommand))
        rw [process_read hread hprocess, CrudCommandProcessor.ackOf]
        split
        · exact hack haccepted _ _
        · exact .refl h.store.env.2
  obtain ⟨hsession, hstore⟩ := hleaves
  obtain ⟨hobject, hdumps, hlegible, hbatched⟩ := hcalm.returns hm
  have hreturns := (CrudWebsocketSession.dispatch_returns hobject hdumps).mpr
    ⟨hlegible, CrudWebsocketSession.answered_of_batched hbatched⟩
  rw [CrudWebsocketSession.ReturnsFrom] at hreturns
  rw [hside]
  dsimp only
  rw [hreturns]
  exact
    { first := hsession.trans h.first
      second := h.second
      replies := h.replies
      running := hrunning.symm.trans h.running
      store := hstore.trans h.store
      registered := fun haccepted => by
        dsimp only at haccepted ⊢
        rw [hsession] at haccepted ⊢
        exact ⟨(h.registered haccepted).1, (h.registered haccepted).2.alike hstore.env.symm⟩
      shown := fun haccepted =>
        ⟨(h.shown haccepted).1, (h.shown haccepted).2.alike hstore.env.symm⟩ }

theorem Beside.first_kept {s s' : Serving} (h : Beside hidden s s') {options : CrudServerOptions}
    {m : SessionMessage} (hapart : Apart hidden options m)
    (hcalm : s.running = true → Calm options s m) (hside : m.side = .first)
    (hm : m.removed = false) : Beside hidden (s.handle options m) (s'.handle options m) := by
  rw [Serving.handle, Serving.handle, ← h.running]
  cases hrunning : s.running with
  | false =>
      rw [if_pos rfl, if_pos rfl]
      exact h
  | true =>
  rw [if_neg (Ne.symm Bool.false_ne_true), if_neg (Ne.symm Bool.false_ne_true)]
  replace hcalm := hcalm hrunning
  have halike : ServedAlike hidden { session := s.first, store := s.store }
      { session := s'.first, store := s'.store } := ⟨h.first, rfl, h.store⟩
  have hfollows := CrudWebsocketSession.dispatch_follows halike (P := False) options m.io m.payload
    (fun _ ack hparse => absurd hparse (not_ack_of_kept hside hm ack))
    (fun haccepted command _ => CrudCommandProcessor.ackOf_hidden h.store command _ _
      (h.registered haccepted).1 (h.registered haccepted).2 (hapart.io hside hm))
    False.elim fun _ haccepted command hparse =>
      have halways := hcalm.kept hside hm haccepted command hparse
      have hop := not_read_of_kept hside hm hparse
      ⟨halways.batchable hop rfl,
        halways.batchable hop (h.store.env.1.others transportDbi (by decide)).symm⟩
  have hregistered := dispatch_registered { session := s.first, store := s.store } options m.io
    m.payload h.registered (hapart.first hside)
  have hrun := dispatch_anyRun { session := s.first, store := s.store } options m.io m.payload
  rw [hside]
  exact
    { first := hfollows.session
      second := h.second
      replies := h.replies
      running := congrArg Except.isOk hfollows.result
      store := hfollows.store
      registered := hregistered
      shown := fun haccepted => ⟨(h.shown haccepted).1, (h.shown haccepted).2.run hrun⟩ }

theorem Beside.second_kept {s s' : Serving} (h : Beside hidden s s') {options : CrudServerOptions}
    {m : SessionMessage} (hapart : Apart hidden options m) (hside : m.side = .second) :
    Beside hidden (s.handle options m) (s'.handle options m) := by
  rw [Serving.handle, Serving.handle, ← h.running]
  cases s.running with
  | false =>
      rw [if_pos rfl, if_pos rfl]
      exact h
  | true =>
  rw [if_neg (Ne.symm Bool.false_ne_true), if_neg (Ne.symm Bool.false_ne_true)]
  have halike : ServedAlike hidden { session := s.second, store := s.store }
      { session := s'.second, store := s'.store } := ⟨h.second, rfl, h.store⟩
  have hfollows := CrudWebsocketSession.dispatch_follows halike (P := True) options m.io m.payload
    (fun haccepted _ _ => LmdbStore.ackTransportUntil_keeps h.store (h.shown haccepted).1 _ _)
    (fun haccepted command _ => CrudCommandProcessor.ackOf_shown h.store command _ _
      (h.shown haccepted).1)
    (fun _ haccepted => (h.shown haccepted).1) fun hno => absurd trivial hno
  have hshown := @dispatch_registered (fun c => ¬ hidden c)
    { session := s.second, store := s.store } options m.io m.payload h.shown (hapart.second hside)
  have hrun := dispatch_anyRun { session := s.second, store := s.store } options m.io m.payload
  rw [hside]
  exact
    { first := h.first
      second := hfollows.session
      replies := congrArg₂ (· ++ ·) h.replies (hfollows.sent trivial)
      running := congrArg Except.isOk hfollows.result
      store := hfollows.store
      registered := fun haccepted =>
        ⟨(h.registered haccepted).1, (h.registered haccepted).2.run hrun⟩
      shown := hshown }

/-- The two runs stay side by side. -/
theorem Beside.run {options : CrudServerOptions} : ∀ {messages : List SessionMessage}
    {s s' : Serving}, Beside hidden s s' → (∀ m ∈ messages, Apart hidden options m) →
    s.Each options (Calm options) messages →
    Beside hidden (s.serve options messages) (s'.serve options (withoutFirst messages)) := by
  intro messages
  induction messages with
  | nil => exact fun h _ _ => h
  | cons m messages ih =>
      intro s s' h hapart hcalm
      obtain ⟨hm, hrest⟩ := List.forall_mem_cons.mp hapart
      rw [withoutFirst, List.filter_cons]
      cases hremoved : m.removed with
      | true => exact ih (h.removed hcalm.1 hremoved) hrest hcalm.2
      | false =>
          cases hside : m.side with
          | first => exact ih (h.first_kept hm hcalm.1 hside hremoved) hrest hcalm.2
          | second => exact ih (h.second_kept hm hside) hrest hcalm.2

/-! ## The result -/

/-- Where the hellos of the two sessions spell different consumers, and no message of the first
ends the server, the second session is sent the same with and without the reads and acks of the
first, and the ack its reads start from is the same. -/
theorem consumers_isolated {options : CrudServerOptions} {store : LmdbStore}
    {messages : List SessionMessage} (hfits : store.env.Fits)
    (hids : ∀ hello hello', Greets options messages .first hello →
      Greets options messages .second hello' →
      CrudWebsocketSession.consumerIdOf hello ≠ CrudWebsocketSession.consumerIdOf hello')
    (hio : ∀ m ∈ messages, m.side = .first → m.removed = false → m.io.command.ack = [])
    (hcalm : Serving.Each options (Calm options) { store := store } messages) :
    let s := Serving.serve options { store := store } messages
    let s' := Serving.serve options { store := store } (withoutFirst messages)
    s.replies = s'.replies ∧ (s.second.helloAccepted = true →
      storedAck s.store.env s.second.consumerId = storedAck s'.store.env s.second.consumerId) := by
  intro s s'
  let hidden : Str → Prop := fun c =>
    ∃ hello, Greets options messages .first hello ∧ CrudWebsocketSession.consumerIdOf hello = c
  have hstart : Beside hidden { store := store } { store := store } :=
    ⟨rfl, rfl, rfl, rfl, .refl hfits, nofun, nofun⟩
  have hapart : ∀ m ∈ messages, Apart hidden options m := fun m hm =>
    { first := fun hside hello hparse hadmits => ⟨hello, ⟨m, hm, hside, hparse, hadmits⟩, rfl⟩
      second := fun hside hello' hparse hadmits ⟨hello, hgreets, heq⟩ =>
        hids hello hello' hgreets ⟨m, hm, hside, hparse, hadmits⟩ heq
      io := hio m hm }
  have hbeside := hstart.run hapart hcalm
  refine ⟨hbeside.replies, fun haccepted => ?_⟩
  rw [storedAck, storedAck, (hbeside.store.env.1.get _).2 (hbeside.shown haccepted).1]

/-- The batches among what a session has been sent. -/
def batches (replies : List Json) : List (List TransportRecordMessage) :=
  replies.filterMap fun reply =>
    match parseCrudResult reply with
    | .ok (some result) => some result.records
    | _ => none

/-- One record waits; both sessions say hello, the first acks it, the second reads. -/
def ackThenRead (hello hello' : HelloMessage) : List SessionMessage :=
  [{ side := .first, payload := hello.toJson },
    { side := .second, payload := hello'.toJson },
    { side := .first
      payload := ({ requestId := str "a", ackSequence := 1 } : IngestAckMessage).toJson },
    { side := .second
      payload := ({ requestId := str "r", operation := .read } : CrudCommandMessage).toJson }]

def recorded : LmdbStore := runOps {} [.openStore { directory := str "d" } none [], newRecord]

theorem recorded_fits : recorded.env.Fits := ⟨by decide +kernel, by decide +kernel⟩

theorem greets_ackThenRead {options : CrudServerOptions} {first second hello : HelloMessage}
    (hfirst : parseHello first.toJson = .ok (some first))
    (hsecond : parseHello second.toJson = .ok (some second)) {side : Side}
    (h : Greets options (ackThenRead first second) side hello) :
    hello = if side = .first then first else second := by
  obtain ⟨m, hm, rfl, hparse, -⟩ := h
  rw [ackThenRead, List.mem_cons, List.mem_cons, List.mem_cons, List.mem_singleton] at hm
  rcases hm with rfl | rfl | rfl | rfl
  · exact Option.some.inj (Except.ok.inj (hparse.symm.trans hfirst))
  · exact Option.some.inj (Except.ok.inj (hparse.symm.trans hsecond))
  · cases hparse
  · cases hparse

theorem ackThenRead_io (first second : HelloMessage) :
    ∀ m ∈ ackThenRead first second, m.io.command.ack = [] := by
  intro m hm
  rw [ackThenRead, List.mem_cons, List.mem_cons, List.mem_cons, List.mem_singleton] at hm
  rcases hm with rfl | rfl | rfl | rfl <;> rfl

/-- The other session of the same client. -/
def otherHello : HelloMessage := { hostId := str "g", clientInstanceId := str "hugin-gateway-1" }

theorem Calm.second {options : CrudServerOptions} {s : Serving} {m : SessionMessage}
    (hside : m.side = .second) : Calm options s m where
  returns hm := by
    rw [(removed_cases hm).1] at hside
    cases hside
  kept hfirst := by
    rw [hfirst] at hside
    cases hside

theorem calm_ackThenRead : Serving.Each {} (Calm {}) { store := recorded }
    (ackThenRead bridgeHello otherHello) := by
  refine ⟨fun _ => ⟨fun hm => ?_, fun _ _ haccepted => ?_⟩, fun _ => .second rfl,
    fun _ => ⟨fun _ => ⟨by rfl, by decide +kernel, ?_, ?_⟩, fun _ hm => ?_⟩,
    fun _ => .second rfl, trivial⟩
  · cases hm
  · cases haccepted
  · exact CrudWebsocketSession.legible_ingestAck (by rfl) (by rfl)
      (show parseIngestAck _ = .ok (some { requestId := str "a", ackSequence := 1 }) from rfl)
  · intro _ command hparse
    cases hparse
  · cases hm

theorem consumers_isolated_bridge :
    let s := Serving.serve {} { store := recorded } (ackThenRead bridgeHello otherHello)
    (batches s.replies).map (List.map TransportRecordMessage.sequence) = [[1]] ∧
      s.replies = (Serving.serve {} { store := recorded }
        (withoutFirst (ackThenRead bridgeHello otherHello))).replies := by
  have hparse : parseHello bridgeHello.toJson = .ok (some bridgeHello) := rfl
  have hparse' : parseHello otherHello.toJson = .ok (some otherHello) := rfl
  refine ⟨by rfl, (consumers_isolated recorded_fits ?_ ?_ calm_ackThenRead).1⟩
  · intro hello hello' h h'
    obtain rfl : hello = bridgeHello := greets_ackThenRead hparse hparse' h
    obtain rfl : hello' = otherHello := greets_ackThenRead hparse hparse' h'
    decide +kernel
  · exact fun m hm _ _ => ackThenRead_io _ _ m hm

/-- Two pairs of ids that spell one consumer. -/
def leftHello : HelloMessage := { hostId := str "b:c", clientInstanceId := str "a" }
def rightHello : HelloMessage := { hostId := str "c", clientInstanceId := str "a:b" }

/-- Two sessions with different pairs of ids, both admitted, and yet the ack of the first
takes the record from the second. -/
theorem not_consumers_isolated : ¬ ∀ (options : CrudServerOptions) (store : LmdbStore)
    (messages : List SessionMessage), store.env.Fits →
    (∀ hello hello', Greets options messages .first hello →
      Greets options messages .second hello' →
      (hello.clientInstanceId, hello.hostId) ≠ (hello'.clientInstanceId, hello'.hostId)) →
    (∀ m ∈ messages, m.side = .first → m.removed = false → m.io.command.ack = []) →
    batches (Serving.serve options { store := store } messages).replies =
      batches (Serving.serve options { store := store } (withoutFirst messages)).replies := by
  intro hall
  have hparse : parseHello leftHello.toJson = .ok (some leftHello) := rfl
  have hparse' : parseHello rightHello.toJson = .ok (some rightHello) := rfl
  have hsame := hall { allowedClientInstanceId := str "a*" } recorded
    (ackThenRead leftHello rightHello) recorded_fits
    (fun hello hello' h h' => by
      obtain rfl : hello = leftHello := greets_ackThenRead hparse hparse' h
      obtain rfl : hello' = rightHello := greets_ackThenRead hparse hparse' h'
      decide +kernel)
    fun m hm _ _ => ackThenRead_io _ _ m hm
  have hsent : (batches (Serving.serve { allowedClientInstanceId := str "a*" } { store := recorded }
      (ackThenRead leftHello rightHello)).replies).map List.length = [0] := by rfl
  have hkept : (batches (Serving.serve { allowedClientInstanceId := str "a*" } { store := recorded }
      (withoutFirst (ackThenRead leftHello rightHello))).replies).map List.length = [1] := by rfl
  rw [hsame, hkept] at hsent
  cases hsent

end ServerStorage.Muninn
