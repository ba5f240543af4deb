/-
# `ServerStorage.Muninn.Replies` — what one message comes to

`Dispatches` lists the ends of `handle_message`, each with the session, the store and the
reply it leaves; everything said of a single message is said by cases on it.  A reply is
understood by the peer that asked when it names a request, and the refusals that name none
are those of the messages that are not `Answerable`.
-/
import ServerStorage.Muninn.SessionSpec
import ServerStorage.Muninn.StoreRuns
import ServerStorage.Muninn.Allocation
import ServerStorage.Shared.CrudSpec

namespace ServerStorage.Muninn

open Lib Lmdb Crud

namespace CrudWebsocketSession

/-! ## The steps of a handler, run -/

section
variable {α β : Type} {served : Served}

theorem run_reading_bind (parsed : Parsed α) (f : α → SessionM β) :
    (reading parsed >>= f).run.run served =
      match parsed with
      | .ok a => (f a).run.run served
      | .error e => (.error (.raised e), served) := by
  cases parsed <;> rfl

theorem run_get_bind (f : Served → SessionM β) :
    ((get : SessionM Served) >>= f).run.run served = (f served).run.run served := rfl

theorem run_storing_bind (method : LmdbStore → α × LmdbStore) (f : α → SessionM β) :
    (storing method >>= f).run.run served =
      (f (method served.store).1).run.run { served with store := (method served.store).2 } := rfl

/-- A reply put into the queue. -/
def queued (served : Served) (payload : Json) : Except Escape Unit × Served :=
  (enqueueJson payload).run.run served

theorem queued_eq (served : Served) (payload : Json) :
    queued served payload =
      if payload.dumps then (.ok (), { served with sent := served.sent ++ [payload] })
      else (.error (.raised Json.invalidUtf8), served) := by
  rw [queued, enqueueJson]
  split <;> rfl

@[simp] theorem queued_session (served : Served) (payload : Json) :
    (queued served payload).2.session = served.session := by
  rw [queued_eq]
  split <;> rfl

@[simp] theorem queued_store (served : Served) (payload : Json) :
    (queued served payload).2.store = served.store := by
  rw [queued_eq]
  split <;> rfl

theorem queued_sent (served : Served) (payload : Json) :
    (queued served payload).2.sent = served.sent ++ if payload.dumps then [payload] else [] := by
  rw [queued_eq]
  split
  · rfl
  · exact (List.append_nil _).symm

end

/-! ## The ends of a handler -/

/-- Past a hello, the payload is not rejected; before one, it has a request id (or one that
is no text). -/
def Regular (session : CrudWebsocketSession) (payload : Json) (rejected : Prop) : Prop :=
  if session.helloAccepted then ¬ rejected else stringOr payload "request_id" ≠ .ok []

/-- The message has an answer that names its request, or none that names no request: it is
a hello, or a regular ack or command (or its type is no text). -/
def Answerable (session : CrudWebsocketSession) (payload : Json) : Prop :=
  ∀ type, stringOr payload "type" = .ok type →
    type = str "hello" ∨
    (type = str "ingest_ack" ∧ Regular session payload (parseIngestAck payload = .ok none)) ∨
    (type = str "crud_command" ∧ Regular session payload (parseCrudCommand payload = .ok none))

def refusal (reason : Str) : Json :=
  ({ accepted := false, reason := reason } : HelloAckMessage).toJson

def welcome : Json := ({ accepted := true } : HelloAckMessage).toJson

def errorReply (requestId message : Str) : Json := (makeErrorResult requestId message).toJson

/-- What a message on a session comes to. -/
inductive Dispatches (options : CrudServerOptions) (io : MessageIo) (payload : Json)
    (served : Served) : Except Escape Unit × Served → Prop
  | raised (e : JsonException) (h : Answerable served.session payload) :
      Dispatches options io payload served (.error (.raised e), served)
  | notice (message : Str) (hutf8 : Json.validUtf8 message = true)
      (h : ¬ Answerable served.session payload) :
      Dispatches options io payload served (queued served (errorReply [] message))
  | unauthenticated (requestId message : Str) (hid : requestId ≠ [])
      (h : Answerable served.session payload) :
      Dispatches options io payload served (queued served (errorReply requestId message))
  | refused (reason : Str) (h : Answerable served.session payload) :
      Dispatches options io payload served (queued served (refusal reason))
  | unregistered (hello : HelloMessage) (reason : Str)
      (hparse : parseHello payload = .ok (some hello)) (hadmits : Admits options hello)
      (hfails : (served.store.registerTransportConsumer (consumerIdOf hello) io.register).1.ok =
        false)
      (h : Answerable served.session payload) :
      Dispatches options io payload served
        (queued { served with
            store := (served.store.registerTransportConsumer (consumerIdOf hello) io.register).2 }
          (refusal reason))
  | welcomed (hello : HelloMessage)
      (hparse : parseHello payload = .ok (some hello)) (hadmits : Admits options hello)
      (hok : (served.store.registerTransportConsumer (consumerIdOf hello) io.register).1.ok = true)
      (h : Answerable served.session payload) :
      Dispatches options io payload served
        (queued { served with
            session := sessionOf hello
            store := (served.store.registerTransportConsumer (consumerIdOf hello) io.register).2 }
          welcome)
  | silent (h : Answerable served.session payload) :
      Dispatches options io payload served (.ok (), served)
  | acked (ack : IngestAckMessage) (haccepted : served.session.helloAccepted = true)
      (hparse : parseIngestAck payload = .ok (some ack))
      (h : Answerable served.session payload) :
      Dispatches options io payload served (.ok (), { served with
        store := (served.store.ackTransportUntilForConsumer served.session.consumerId
          ack.ackSequence io.ingestAck).2 })
  | ackFailed (ack : IngestAckMessage) (message : Str)
      (haccepted : served.session.helloAccepted = true)
      (hparse : parseIngestAck payload = .ok (some ack))
      (h : Answerable served.session payload) :
      Dispatches options io payload served
        (queued { served with
            store := (served.store.ackTransportUntilForConsumer served.session.consumerId
              ack.ackSequence io.ingestAck).2 }
          (errorReply ack.requestId message))
  | commanded (command : CrudCommandMessage) (result : CrudResultMessage) (store : LmdbStore)
      (haccepted : served.session.helloAccepted = true)
      (hparse : parseCrudCommand payload = .ok (some command))
      (hprocess : CrudCommandProcessor.process options io.scan served.store command
        served.session.consumerId io.command = some (some result, store))
      (h : Answerable served.session payload) :
      Dispatches options io payload served
        (queued { served with store := store } result.toJson)
  | overran (command : CrudCommandMessage) (store : LmdbStore)
      (haccepted : served.session.helloAccepted = true)
      (hparse : parseCrudCommand payload = .ok (some command))
      (hprocess : CrudCommandProcessor.process options io.scan served.store command
        served.session.consumerId io.command = some (none, store))
      (h : Answerable served.session payload) :
      Dispatches options io payload served (.error .lengthError, { served with store := store })
  | diverged (h : Answerable served.session payload) :
      Dispatches options io payload served (.error .diverged, served)

section
variable {options : CrudServerOptions} {io : MessageIo} {payload : Json} {served : Served}

theorem handleHello_dispatches (h : Answerable served.session payload) :
    Dispatches options io payload served ((handleHello options io payload).run.run served) := by
  rw [handleHello, run_reading_bind]
  cases hparse : parseHello payload with
  | error e => exact .raised e h
  | ok found =>
  cases found with
  | none => exact .refused _ h
  | some hello =>
  dsimp only
  by_cases hid : hello.clientInstanceId = []
  · rw [if_pos hid]
    exact .refused _ h
  rw [if_neg hid]
  cases hallowed : clientInstanceAllowed options.allowedClientInstanceId
    hello.clientInstanceId with
  | false =>
      rw [if_pos (show (!false) = true from rfl)]
      exact .refused _ h
  | true =>
  rw [if_neg (show ¬(!true) = true from Bool.false_ne_true)]
  cases htoken : validateBridgeAuthToken hello options with
  | some reason => exact .refused _ h
  | none =>
  have hadmits : Admits options hello := ⟨hid, hallowed, htoken⟩
  dsimp only
  rw [run_storing_bind]
  rw [show hello.clientInstanceId ++ str ":" ++ hello.hostId = consumerIdOf hello from rfl]
  cases hok : (served.store.registerTransportConsumer (consumerIdOf hello) io.register).1.ok with
  | false =>
      rw [if_pos (show (!false) = true from rfl)]
      exact .unregistered hello _ hparse hadmits hok h
  | true =>
      rw [if_neg (show ¬(!true) = true from Bool.false_ne_true)]
      exact .welcomed hello hparse hadmits hok h

theorem handleIngestAck_dispatches (haccepted : served.session.helloAccepted = true)
    (h : parseIngestAck payload ≠ .ok none → Answerable served.session payload)
    (hnone : parseIngestAck payload = .ok none → ¬ Answerable served.session payload) :
    Dispatches options io payload served
      ((handleIngestAck io payload).run.run served) := by
  rw [handleIngestAck, run_reading_bind]
  cases hparse : parseIngestAck payload with
  | error e => exact .raised e (h (by rw [hparse]; nofun))
  | ok found =>
  cases found with
  | none => exact .notice _ (by rfl) (hnone hparse)
  | some ack =>
  have hanswer := h (by rw [hparse]; nofun)
  dsimp only
  by_cases hsilent : (!ack.ok) = true ∨ ack.ackSequence = 0
  · rw [if_pos hsilent]
    exact .silent hanswer
  · rw [if_neg hsilent, run_get_bind, run_storing_bind]
    split
    · exact .ackFailed ack _ haccepted hparse hanswer
    · exact .acked ack haccepted hparse hanswer

theorem handleCommand_dispatches (haccepted : served.session.helloAccepted = true)
    (h : parseCrudCommand payload ≠ .ok none → Answerable served.session payload)
    (hnone : parseCrudCommand payload = .ok none → ¬ Answerable served.session payload) :
    Dispatches options io payload served
      ((handleCommand options io payload).run.run served) := by
  rw [handleCommand, run_reading_bind]
  cases hparse : parseCrudCommand payload with
  | error e => exact .raised e (h (by rw [hparse]; nofun))
  | ok found =>
  cases found with
  | none => exact .notice _ (by rfl) (hnone hparse)
  | some command =>
  have hanswer := h (by rw [hparse]; nofun)
  dsimp only
  rw [run_get_bind]
  cases hprocess : CrudCommandProcessor.process options io.scan served.store command
      served.session.consumerId io.command with
  | none => exact .diverged hanswer
  | some outcome =>
      obtain ⟨answer, store⟩ := outcome
      cases answer with
      | none => exact .overran command store haccepted hparse hprocess hanswer
      | some result => exact .commanded command result store haccepted hparse hprocess hanswer

theorem authenticated_dispatches {text : String} {handler : SessionM Unit} (rejected : Prop)
    (hutf8 : Json.validUtf8 (str text) = true)
    (hanswer : Answerable served.session payload ↔ Regular served.session payload rejected)
    (hhandler : served.session.helloAccepted = true →
      (¬ rejected → Answerable served.session payload) →
      (rejected → ¬ Answerable served.session payload) →
      Dispatches options io payload served (handler.run.run served)) :
    Dispatches options io payload served ((authenticated payload text handler).run.run served) := by
  rw [authenticated, run_get_bind]
  rw [Regular] at hanswer
  cases haccepted : served.session.helloAccepted with
  | true =>
      rw [haccepted, if_pos rfl] at hanswer
      exact hhandler haccepted hanswer.mpr fun hrejected h => hanswer.mp h hrejected
  | false =>
  rw [haccepted, if_neg Bool.false_ne_true] at hanswer
  rw [if_neg Bool.false_ne_true, run_reading_bind]
  cases hid : stringOr payload "request_id" with
  | error e => exact .raised e (hanswer.mpr (by rw [hid]; nofun))
  | ok requestId =>
      dsimp only
      by_cases hnil : requestId = []
      · rw [hnil] at hid ⊢
        exact .notice _ hutf8 fun h => hanswer.mp h hid
      · refine .unauthenticated requestId _ hnil (hanswer.mpr ?_)
        rw [hid]
        exact fun heq => hnil (Except.ok.inj heq)

/-- Every message comes to one of the ends. -/
theorem dispatch_dispatches :
    Dispatches options io payload served ((dispatch options io payload).run.run served) := by
  have hack : str "ingest_ack" ≠ str "hello" := by decide
  have hcommand : str "crud_command" ≠ str "hello" := by decide
  have hcommand' : str "crud_command" ≠ str "ingest_ack" := by decide
  rw [dispatch, run_reading_bind]
  cases htype : stringOr payload "type" with
  | error e => exact .raised e fun type h => by rw [htype] at h; cases h
  | ok type =>
  have hanswer : Answerable served.session payload ↔
      type = str "hello" ∨
      (type = str "ingest_ack" ∧
        Regular served.session payload (parseIngestAck payload = .ok none)) ∨
      (type = str "crud_command" ∧
        Regular served.session payload (parseCrudCommand payload = .ok none)) := by
    constructor
    · exact fun h => h type htype
    · intro h type' htype'
      rw [htype] at htype'
      obtain rfl := Except.ok.inj htype'
      exact h
  dsimp only
  by_cases hhello : type = str "hello"
  · rw [if_pos hhello]
    exact handleHello_dispatches (hanswer.mpr (.inl hhello))
  rw [if_neg hhello]
  by_cases hisAck : type = str "ingest_ack"
  · rw [if_pos hisAck]
    refine authenticated_dispatches (parseIngestAck payload = .ok none) (by rfl)
      (hanswer.trans ?_) fun haccepted h hno => handleIngestAck_dispatches haccepted h hno
    rw [hisAck]
    simp [hack, hcommand'.symm]
  rw [if_neg hisAck]
  by_cases hisCommand : type = str "crud_command"
  · rw [if_pos hisCommand]
    refine authenticated_dispatches (parseCrudCommand payload = .ok none) (by rfl)
      (hanswer.trans ?_) fun haccepted h hno => handleCommand_dispatches haccepted h hno
    rw [hisCommand]
    simp [hcommand, hcommand']
  · rw [if_neg hisCommand]
    refine .notice _ (by rfl) fun h => ?_
    rcases h type htype with h | ⟨h, -⟩ | ⟨h, -⟩
    · exact hhello h
    · exact hisAck h
    · exact hisCommand h

/-- A text is no JSON object, or its object comes to one of the ends. -/
theorem handleMessage_dispatches (parse : Str → Option Json) (text : Str) :
    ((∀ payload, parse text = some payload → payload.isObject = false) ∧
      (handleMessage parse options io text).run.run served =
        queued served (errorReply [] (str "Malformed JSON message."))) ∨
    ∃ payload, parse text = some payload ∧ payload.isObject = true ∧
      Dispatches options io payload served
        ((handleMessage parse options io text).run.run served) := by
  rw [handleMessage]
  cases hparse : parse text with
  | none => exact .inl ⟨nofun, rfl⟩
  | some payload =>
      dsimp only
      cases hobject : payload.isObject with
      | false =>
          rw [if_pos (show (!false) = true from rfl)]
          refine .inl ⟨fun payload' h => ?_, rfl⟩
          rw [← Option.some.inj h]
          exact hobject
      | true =>
          rw [if_neg (show ¬(!true) = true from Bool.false_ne_true)]
          exact .inr ⟨payload, rfl, hobject, dispatch_dispatches⟩

end

end CrudWebsocketSession

end ServerStorage.Muninn
