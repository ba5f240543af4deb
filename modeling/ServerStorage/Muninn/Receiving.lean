/-
# `ServerStorage.Muninn.Receiving` — where `handle_message` returns

A message leaves the handler by an exception where a field that is read has the wrong
type, or where a command is answered with a batch that cannot be made or written out; a
literal, a text of the store and one of the message itself always can.
-/
import ServerStorage.Muninn.Answers
import ServerStorage.Muninn.Wording
import ServerStorage.Shared.CrudFields

namespace ServerStorage.Muninn

open Lib Lmdb Crud

namespace CrudWebsocketSession

/-- The fields that the session comes to read have types that convert. -/
def Legible (session : CrudWebsocketSession) (payload : Json) : Prop :=
  TypeFits payload ∧
    (TypeIs payload "hello" → HelloFields payload) ∧
    (TypeIs payload "ingest_ack" →
      if session.helloAccepted then IngestAckFields payload
      else payload.fits Json.getString "request_id" = true) ∧
    (TypeIs payload "crud_command" →
      if session.helloAccepted then CrudCommandFields payload
      else payload.fits Json.getString "request_id" = true)

/-- The command of an accepted session can be answered. -/
def Batched (options : CrudServerOptions) (io : MessageIo) (served : Served)
    (payload : Json) : Prop :=
  served.session.helloAccepted = true → ∀ command, parseCrudCommand payload = .ok (some command) →
    CrudCommandProcessor.Batchable options io.scan served.store.env served.session.consumerId
      command

/-- The processor answers a command, in UTF-8. -/
def CommandAnswered (options : CrudServerOptions) (io : MessageIo) (served : Served)
    (payload : Json) : Prop :=
  ∀ command, parseCrudCommand payload = .ok (some command) →
    ∃ answer store, CrudCommandProcessor.process options io.scan served.store command
        served.session.consumerId io.command = some (answer, store) ∧
      CrudCommandProcessor.Spoken answer

/-- What an accepted session answers a command with is text. -/
def Answered (options : CrudServerOptions) (io : MessageIo) (served : Served)
    (payload : Json) : Prop :=
  served.session.helloAccepted = true → CommandAnswered options io served payload

/-! ## The steps of a handler -/

section
variable {α : Type} {served : Served}

/-- The handler returns. -/
def ReturnsFrom (served : Served) (handler : SessionM Unit) : Prop :=
  (handler.run.run served).1 = .ok ()

theorem returnsFrom_reading {parsed : Parsed α} {f : α → SessionM Unit} :
    ReturnsFrom served (reading parsed >>= f) ↔ ∃ a, parsed = .ok a ∧ ReturnsFrom served (f a) := by
  rw [ReturnsFrom, run_reading_bind]
  cases parsed with
  | error e => exact iff_of_false nofun fun ⟨a, ha, _⟩ => nomatch ha
  | ok a => exact ⟨fun h => ⟨a, rfl, h⟩, fun ⟨a', ha, h⟩ => Except.ok.inj ha ▸ h⟩

theorem exists_ok {a : α} {P : α → Prop} :
    (∃ a', (.ok a : Parsed α) = .ok a' ∧ P a') ↔ P a :=
  ⟨fun ⟨_, h, hP⟩ => Except.ok.inj h ▸ hP, fun hP => ⟨a, rfl, hP⟩⟩

theorem not_exists_error_and {α ε : Type} {e : ε} {P : α → Prop} :
    ¬ ∃ a, (.error e : Except ε α) = .ok a ∧ P a := by
  rintro ⟨a, h, -⟩
  cases h

theorem not_returns_error_and {α : Type} {e : JsonException} {P : Prop} :
    ¬ (Returns (.error e : Parsed α) ∧ P) := by
  rintro ⟨⟨a, h⟩, -⟩
  cases h

theorem returnsFrom_enqueueJson {payload : Json} :
    ReturnsFrom served (enqueueJson payload) ↔ payload.dumps = true := by
  rw [ReturnsFrom, ← queued, queued_eq]
  split
  next h => exact iff_of_true rfl h
  next h =>
    refine iff_of_false (fun hraised => ?_) h
    cases hraised

theorem dumps_errorReply {requestId message : Str} :
    (errorReply requestId message).dumps = true ↔
      Json.validUtf8 requestId = true ∧ Json.validUtf8 message = true :=
  dumps_crudResult_iff.trans
    (and_congr_right' (and_iff_left fun _ hmem => absurd hmem List.not_mem_nil))

theorem dumps_helloAck {helloAck : HelloAckMessage} :
    helloAck.toJson.dumps = true ↔ Json.validUtf8 helloAck.reason = true := by
  have hkeys : (["type", "protocol_version", "accepted", "reason", "hello_ack"].all
      fun key => Json.validUtf8 (str key)) = true := by rfl
  simp only [List.all_cons, List.all_nil, Bool.and_true, Bool.and_eq_true] at hkeys
  obtain ⟨h₁, h₂, h₃, h₄, h₅⟩ := hkeys
  simp [HelloAckMessage.toJson, dumps_jsonObject, unsigned, Json.dumps, h₁, h₂, h₃, h₄, h₅]

theorem returnsFrom_refuseHello {reason : Str} (h : Json.validUtf8 reason = true) :
    ReturnsFrom served (refuseHello reason) :=
  returnsFrom_enqueueJson.mpr (dumps_helloAck.mpr h)

/-- A reply that names no request, with a message of the source. -/
theorem returnsFrom_notice {message : Str} (h : Json.validUtf8 message = true) :
    ReturnsFrom served (enqueueJson (makeErrorResult [] message).toJson) :=
  returnsFrom_enqueueJson.mpr (dumps_errorReply.mpr ⟨rfl, h⟩)

end

/-! ## The handlers -/

section
variable {options : CrudServerOptions} {io : MessageIo} {payload : Json} {served : Served}

theorem utf8_validateBridgeAuthToken {hello : HelloMessage} {reason : String}
    (h : validateBridgeAuthToken hello options = some reason) :
    Json.validUtf8 (str reason) = true := by
  rw [validateBridgeAuthToken] at h
  split at h
  · obtain rfl := Option.some.inj h
    decide +kernel
  split at h
  · obtain rfl := Option.some.inj h
    decide +kernel
  split at h
  · obtain rfl := Option.some.inj h
    decide +kernel
  · cases h

theorem returnsFrom_welcome {f : Served → Served} :
    ReturnsFrom served (do modify f; enqueueJson welcome) := by
  have hdumps : welcome.dumps = true := dumps_helloAck.mpr rfl
  have h : ReturnsFrom (f served) (enqueueJson welcome) := returnsFrom_enqueueJson.mpr hdumps
  exact h

/-- Every answer to a hello is a literal. -/
theorem returnsFrom_handleHello :
    ReturnsFrom served (handleHello options io payload) ↔ Returns (parseHello payload) := by
  rw [handleHello, returnsFrom_reading]
  refine exists_congr fun found => and_iff_left ?_
  cases found with
  | none => exact returnsFrom_refuseHello (by rfl)
  | some hello =>
      dsimp only
      split
      · exact returnsFrom_refuseHello (by rfl)
      split
      · exact returnsFrom_refuseHello (by rfl)
      split
      next reason hreason => exact returnsFrom_refuseHello (utf8_validateBridgeAuthToken hreason)
      next =>
        rw [ReturnsFrom, run_storing_bind]
        split
        · exact returnsFrom_refuseHello (by rfl)
        · exact returnsFrom_welcome

theorem utf8_ingestAck {ack : IngestAckMessage} (hdumps : payload.dumps = true)
    (h : parseIngestAck payload = .ok (some ack)) : Json.validUtf8 ack.requestId = true := by
  obtain ⟨-, h⟩ := ofType_some h
  obtain ⟨version, -, h⟩ := except_bind_ok.mp h
  obtain ⟨requestId, hid, h⟩ := except_bind_ok.mp h
  obtain ⟨ok, -, h⟩ := except_bind_ok.mp h
  obtain ⟨ackSequence, -, h⟩ := except_bind_ok.mp h
  obtain ⟨message, -, h⟩ := except_bind_ok.mp h
  split at h
  · cases h
  · obtain rfl := Option.some.inj (Except.ok.inj h)
    exact utf8_of_stringOr hdumps hid

theorem returnsFrom_handleIngestAck (hdumps : payload.dumps = true) :
    ReturnsFrom served (handleIngestAck io payload) ↔ Returns (parseIngestAck payload) := by
  rw [handleIngestAck, returnsFrom_reading]
  refine exists_congr fun found => and_iff_left_of_imp fun hparse => ?_
  cases found with
  | none => exact returnsFrom_notice (by rfl)
  | some ack =>
  have hid : Json.validUtf8 ack.requestId = true := utf8_ingestAck hdumps hparse
  dsimp only
  split
  · rfl
  · rw [ReturnsFrom, run_get_bind, run_storing_bind]
    split
    · exact returnsFrom_enqueueJson.mpr (dumps_errorReply.mpr ⟨hid, utf8_text _⟩)
    · rfl

theorem utf8_crudCommand {command : CrudCommandMessage} (hdumps : payload.dumps = true)
    (h : parseCrudCommand payload = .ok (some command)) :
    Json.validUtf8 command.requestId = true := by
  obtain ⟨-, h⟩ := ofType_some h
  obtain ⟨version, -, h⟩ := except_bind_ok.mp h
  obtain ⟨requestId, hid, h⟩ := except_bind_ok.mp h
  obtain ⟨name, -, h⟩ := except_bind_ok.mp h
  split at h
  · cases h
  obtain ⟨rootPath, -, h⟩ := except_bind_ok.mp h
  obtain ⟨snapshotId, -, h⟩ := except_bind_ok.mp h
  obtain ⟨baseSnapshotId, -, h⟩ := except_bind_ok.mp h
  obtain ⟨ackSequence, -, h⟩ := except_bind_ok.mp h
  obtain ⟨outboxBatchSize, -, h⟩ := except_bind_ok.mp h
  split at h
  · cases h
  · obtain rfl := Option.some.inj (Except.ok.inj h)
    exact utf8_of_stringOr hdumps hid

/-- The records of an answer carry base64. -/
theorem dumps_answer {command : CrudCommandMessage} {store store' : LmdbStore} {consumerId : Str}
    {result : CrudResultMessage}
    (h : CrudCommandProcessor.process options io.scan store command consumerId io.command =
      some (some result, store')) :
    result.toJson.dumps = true ↔
      Json.validUtf8 command.requestId = true ∧ CrudCommandProcessor.Spoken (some result) := by
  have hanswer := CrudCommandProcessor.process_answersFor h
  rw [dumps_crudResult_iff, hanswer.request]
  refine and_congr_right' ?_
  have hspoken : CrudCommandProcessor.Spoken (some result) ↔
      Json.validUtf8 result.message = true ∧
        ∀ record ∈ result.records, Json.validUtf8 record.routingKey = true := by
    constructor
    · rintro ⟨_, heq, hutf8⟩
      rw [Option.some.inj heq]
      exact hutf8
    · exact fun hutf8 => ⟨result, rfl, hutf8⟩
  rw [hspoken]
  refine and_congr_right' (forall₂_congr fun record hmem => and_iff_left ?_)
  rcases hanswer.records with hnil | ⟨maxItems, faults, hbatch⟩
  · rw [hnil] at hmem
    exact absurd hmem List.not_mem_nil
  · obtain ⟨records, -, hmap⟩ := CrudCommandProcessor.appendTransportRecords_ok hbatch
    rw [← hmap] at hmem
    obtain ⟨stored, -, rfl⟩ := List.mem_map.mp hmem
    exact validUtf8_ascii (base64Encode_ascii stored.payload)

theorem returnsFrom_handleCommand (hdumps : payload.dumps = true) :
    ReturnsFrom served (handleCommand options io payload) ↔
      Returns (parseCrudCommand payload) ∧ CommandAnswered options io served payload := by
  rw [handleCommand, returnsFrom_reading]
  cases hparse : parseCrudCommand payload with
  | error e => exact iff_of_false not_exists_error_and not_returns_error_and
  | ok found =>
  rw [exists_ok, and_iff_right ⟨found, rfl⟩, CommandAnswered, hparse]
  cases found with
  | none =>
      refine iff_of_true (returnsFrom_notice (by rfl)) fun command hcommand => ?_
      cases hcommand
  | some command =>
  have hid : Json.validUtf8 command.requestId = true := utf8_crudCommand hdumps hparse
  have hpick : ∀ P : CrudCommandMessage → Prop,
      (∀ command', (.ok (some command) : Parsed _) = .ok (some command') → P command') ↔
        P command :=
    fun P => ⟨fun h => h command rfl, fun hP _ h => Option.some.inj (Except.ok.inj h) ▸ hP⟩
  rw [hpick, ReturnsFrom]
  dsimp only
  rw [run_get_bind]
  cases hprocess : CrudCommandProcessor.process options io.scan served.store command
      served.session.consumerId io.command with
  | none =>
      refine iff_of_false (fun hdiverged => ?_) ?_
      · cases hdiverged
      · rintro ⟨_, _, h, -⟩
        cases h
  | some outcome =>
      obtain ⟨answer, store⟩ := outcome
      have hanswer : (∃ answer' store', some (answer, store) = some (answer', store') ∧
          CrudCommandProcessor.Spoken answer') ↔ CrudCommandProcessor.Spoken answer := by
        constructor
        · rintro ⟨answer', store', h, hspoken⟩
          rw [(Prod.mk.inj (Option.some.inj h)).1]
          exact hspoken
        · exact fun hspoken => ⟨answer, store, rfl, hspoken⟩
      rw [hanswer]
      cases answer with
      | none =>
          refine iff_of_false (fun hoverran => ?_) ?_
          · cases hoverran
          · rintro ⟨_, h, -⟩
            cases h
      | some result =>
          exact (returnsFrom_enqueueJson.trans (dumps_answer hprocess)).trans (and_iff_right hid)

theorem returnsFrom_authenticated {text : String} {handler : SessionM Unit} {P : Prop}
    (hdumps : payload.dumps = true) (htext : Json.validUtf8 (str text) = true)
    (hhandler : ReturnsFrom served handler ↔ P) :
    ReturnsFrom served (authenticated payload text handler) ↔
      if served.session.helloAccepted then P
      else payload.fits Json.getString "request_id" = true := by
  rw [ReturnsFrom, authenticated, run_get_bind]
  cases haccepted : served.session.helloAccepted with
  | true => exact hhandler
  | false =>
      rw [if_neg Bool.false_ne_true, if_neg Bool.false_ne_true]
      refine returnsFrom_reading.trans ?_
      rw [← Json.value_isOk]
      constructor
      · rintro ⟨requestId, hid, -⟩
        exact ⟨requestId, hid⟩
      · rintro ⟨requestId, hid⟩
        exact ⟨requestId, hid, returnsFrom_enqueueJson.mpr
          (dumps_errorReply.mpr ⟨utf8_of_stringOr hdumps hid, htext⟩)⟩

theorem commandAnswered_of_type (h : ¬ TypeIs payload "crud_command") :
    CommandAnswered options io served payload :=
  fun _ hparse => absurd (ofType_some hparse).1 h

/-- A handler that runs after an accepted hello, and what a session without one reads. -/
theorem ite_accepted {accepted : Bool} {P Q R : Prop} :
    (if accepted then P ∧ Q else R) ↔ (if accepted then P else R) ∧ (accepted = true → Q) := by
  cases accepted with
  | true => exact and_congr_right' ⟨fun h _ => h, fun h => h rfl⟩
  | false => exact (and_iff_left nofun).symm

theorem dispatch_returns (hobject : payload.isObject = true) (hdumps : payload.dumps = true) :
    ReturnsFrom served (dispatch options io payload) ↔
      Legible served.session payload ∧ Answered options io served payload := by
  have hack : str "ingest_ack" ≠ str "hello" := by decide
  have hcommand : str "crud_command" ≠ str "hello" := by decide
  have hcommand' : str "crud_command" ≠ str "ingest_ack" := by decide
  rw [dispatch, returnsFrom_reading]
  cases htype : stringOr payload "type" with
  | error e =>
      refine iff_of_false not_exists_error_and fun h => ?_
      obtain ⟨type, h⟩ := Json.value_isOk.mpr h.1.1
      cases htype.symm.trans h
  | ok type =>
  have hfits : TypeFits payload := Json.value_isOk.mp ⟨type, htype⟩
  have hisType : ∀ name, TypeIs payload name ↔ type = str name := fun name => by
    rw [TypeIs, htype, Except.ok.injEq]
  rw [exists_ok, Legible, and_iff_right hfits]
  by_cases hhello : type = str "hello"
  · obtain rfl := hhello
    have hnoAck : ¬ TypeIs payload "ingest_ack" := fun h => hack ((hisType _).mp h).symm
    have hnoCommand : ¬ TypeIs payload "crud_command" := fun h => hcommand ((hisType _).mp h).symm
    have hanswered : Answered options io served payload :=
      fun _ => commandAnswered_of_type hnoCommand
    rw [if_pos rfl, returnsFrom_handleHello, parseHello_returns, forall_prop_of_true hobject,
      and_iff_right hfits, and_iff_left hanswered]
    exact (and_iff_left ⟨fun h => absurd h hnoAck, fun h => absurd h hnoCommand⟩).symm
  have hnoHello : ¬ TypeIs payload "hello" := fun h => hhello ((hisType _).mp h)
  rw [if_neg hhello]
  by_cases hisAck : type = str "ingest_ack"
  · obtain rfl := hisAck
    have htypeIs : TypeIs payload "ingest_ack" := (hisType _).mpr rfl
    have hnoCommand : ¬ TypeIs payload "crud_command" := fun h => hcommand' ((hisType _).mp h).symm
    rw [if_pos rfl, returnsFrom_authenticated hdumps (by rfl)
      (returnsFrom_handleIngestAck hdumps), parseIngestAck_returns, forall_prop_of_true hobject,
      and_iff_right hfits, forall_prop_of_true htypeIs,
      and_iff_left (show Answered options io served payload from
        fun _ => commandAnswered_of_type hnoCommand)]
    constructor
    · exact fun h => ⟨fun h' => absurd h' hnoHello, fun _ => h, fun h' => absurd h' hnoCommand⟩
    · exact fun h => h.2.1 htypeIs
  have hnoAck : ¬ TypeIs payload "ingest_ack" := fun h => hisAck ((hisType _).mp h)
  rw [if_neg hisAck]
  by_cases hisCommand : type = str "crud_command"
  · obtain rfl := hisCommand
    have htypeIs : TypeIs payload "crud_command" := (hisType _).mpr rfl
    rw [if_pos rfl, returnsFrom_authenticated hdumps (by rfl)
      (returnsFrom_handleCommand hdumps), parseCrudCommand_returns, forall_prop_of_true hobject,
      and_iff_right hfits, forall_prop_of_true htypeIs, ite_accepted]
    refine and_congr_left' ?_
    constructor
    · exact fun h => ⟨fun h' => absurd h' hnoHello, fun h' => absurd h' hnoAck, fun _ => h⟩
    · exact fun h => h.2.2 htypeIs
  have hnoCommand : ¬ TypeIs payload "crud_command" := fun h => hisCommand ((hisType _).mp h)
  rw [if_neg hisCommand]
  refine iff_of_true (returnsFrom_notice (by rfl))
    ⟨?_, fun _ => commandAnswered_of_type hnoCommand⟩
  exact ⟨fun h => absurd h hnoHello, fun h => absurd h hnoAck, fun h => absurd h hnoCommand⟩

theorem legible_ingestAck {session : CrudWebsocketSession} {ack : IngestAckMessage}
    (haccepted : session.helloAccepted = true) (hobject : payload.isObject = true)
    (h : parseIngestAck payload = .ok (some ack)) : Legible session payload := by
  have htype : stringOr payload "type" = .ok (str "ingest_ack") := (ofType_some h).1
  have hnot : ∀ {name : String}, str "ingest_ack" ≠ str name → ¬ TypeIs payload name :=
    fun hne his => hne (Except.ok.inj (htype.symm.trans his))
  obtain ⟨hfits, hfields⟩ := parseIngestAck_returns.mp ⟨_, h⟩ hobject
  refine ⟨hfits, fun his => absurd his (hnot (by decide)), fun his => ?_,
    fun his => absurd his (hnot (by decide))⟩
  rw [haccepted]
  exact hfields his

theorem answered_of_batched (h : Batched options io served payload) :
    Answered options io served payload := by
  intro haccepted command hparse
  have hbatch := h haccepted command hparse
  obtain ⟨⟨answer, store⟩, hprocess⟩ :=
    Option.isSome_iff_exists.mp (CrudCommandProcessor.process_isSome hbatch)
  exact ⟨answer, store, hprocess, CrudCommandProcessor.process_spoken hbatch hprocess⟩

/-- The message is a command that may capture. -/
def MayCapture (options : CrudServerOptions) (payload : Json) : Prop :=
  options.allowRemoteMutatingCommands = true ∧
    ∃ command, parseCrudCommand payload = .ok (some command) ∧
      (command.operation = .create ∨ command.operation = .update)

/-- Where nothing is captured, the scan is not looked at. -/
theorem Batched.scan (h : Batched options {} served payload)
    (hno : ¬ MayCapture options payload) : Batched options io served payload := by
  intro haccepted command hparse
  have hbatch := h haccepted command hparse
  have hcapture : options.allowRemoteMutatingCommands = true →
      ¬ (command.operation = .create ∨ command.operation = .update) :=
    fun hallow hop => hno ⟨hallow, command, hparse, hop⟩
  rw [CrudCommandProcessor.Batchable] at hbatch ⊢
  cases hop : command.operation with
  | read =>
      rw [hop] at hbatch
      exact hbatch
  | create => exact fun hallow => absurd (.inl hop) (hcapture hallow)
  | update => exact fun hallow => absurd (.inr hop) (hcapture hallow)
  | delete => trivial

end

end CrudWebsocketSession

end ServerStorage.Muninn
