/-
# `ServerStorage.Muninn.Answers` — which replies are read back

A reply names the request it answers, or it is one of the refusals that name none.  The
first are read by `parse_crud_result` as they were written, the second it rejects: so a
message gets an answer that is understood exactly when it is `Answerable`.
-/
import ServerStorage.Muninn.Replies
import ServerStorage.Muninn.Records

namespace ServerStorage.Muninn

open Lib Lmdb Crud

/-! ## The result of a command -/

/-- A result that has only its request yet. -/
def Blank (requestId : Str) (result : CrudResultMessage) : Prop :=
  result.requestId = requestId ∧ result.protocolVersion = kProtocolVersion ∧ result.records = []

/-- A result for the request; its records are a batch of the store. -/
structure AnswerTo (requestId consumerId : Str) (store : LmdbStore)
    (result : CrudResultMessage) : Prop where
  request : result.requestId = requestId
  version : result.protocolVersion = kProtocolVersion
  records : result.records = [] ∨ ∃ maxItems io,
    CrudCommandProcessor.appendTransportRecords store consumerId maxItems io =
      .ok (some result.records)

namespace CrudCommandProcessor

variable {options : CrudServerOptions} {scan : Str → RawScanResult} {store store' : LmdbStore}
  {command : CrudCommandMessage} {requestId consumerId : Str} {io : CommandIo}
  {failed result result' : CrudResultMessage} {answer : Option CrudResultMessage}
  {message : String}

theorem withBatch_answersFor (h : Blank requestId result)
    (hanswer : withBatch options store command consumerId io result message = some result') :
    AnswerTo requestId consumerId store result' := by
  rw [withBatch] at hanswer
  cases hbatch : appendTransportRecords store consumerId (batchSize options command) io.fetch with
  | error status =>
      rw [hbatch] at hanswer
      obtain rfl := Option.some.inj hanswer
      exact ⟨h.1, h.2.1, .inl h.2.2⟩
  | ok found =>
      rw [hbatch] at hanswer
      cases found with
      | none => cases hanswer
      | some records =>
          obtain rfl := Option.some.inj hanswer
          exact ⟨h.1, h.2.1, .inr ⟨_, _, hbatch⟩⟩

theorem finishCapture_answersFor (hfailed : Blank requestId failed) (hresult : Blank requestId result)
    (h : finishCapture options store command consumerId io failed result message =
      (some result', store')) : AnswerTo requestId consumerId store' result' := by
  rw [finishCapture] at h
  dsimp only at h
  split at h
  · obtain ⟨hanswer, rfl⟩ := Prod.mk.inj h
    obtain rfl := Option.some.inj hanswer
    exact ⟨hfailed.1, hfailed.2.1, .inl hfailed.2.2⟩
  · obtain ⟨hanswer, rfl⟩ := Prod.mk.inj h
    exact withBatch_answersFor hresult hanswer

theorem create_answersFor (hresult : Blank requestId result)
    (h : create options scan store command consumerId io result = some (some result', store')) :
    AnswerTo requestId consumerId store' result' := by
  rw [create] at h
  cases hroot : resolveRootPath command.rootPath options with
  | none =>
      rw [hroot] at h
      obtain ⟨hanswer, rfl⟩ := Prod.mk.inj (Option.some.inj h)
      obtain rfl := Option.some.inj hanswer
      exact ⟨hresult.1, hresult.2.1, .inl hresult.2.2⟩
  | some rootPath =>
      rw [hroot] at h
      obtain ⟨⟨pipeline, store₁⟩, -, h⟩ := Option.bind_eq_some_iff.mp h
      dsimp only at h
      split at h
      · obtain ⟨hanswer, rfl⟩ := Prod.mk.inj (Option.some.inj h)
        obtain rfl := Option.some.inj hanswer
        exact ⟨hresult.1, hresult.2.1, .inl hresult.2.2⟩
      · refine finishCapture_answersFor hresult ?_ (Option.some.inj h)
        exact ⟨hresult.1, hresult.2.1, hresult.2.2⟩

theorem update_answersFor (hresult : Blank requestId result)
    (h : update options scan store command consumerId io result = some (some result', store')) :
    AnswerTo requestId consumerId store' result' := by
  rw [update] at h
  cases hroot : resolveRootPath command.rootPath options with
  | none =>
      rw [hroot] at h
      obtain ⟨hanswer, rfl⟩ := Prod.mk.inj (Option.some.inj h)
      obtain rfl := Option.some.inj hanswer
      exact ⟨hresult.1, hresult.2.1, .inl hresult.2.2⟩
  | some rootPath =>
      rw [hroot] at h
      dsimp only at h
      split at h
      · obtain ⟨hanswer, rfl⟩ := Prod.mk.inj (Option.some.inj h)
        obtain rfl := Option.some.inj hanswer
        exact ⟨hresult.1, hresult.2.1, .inl hresult.2.2⟩
      · obtain ⟨⟨pipeline, store₁⟩, -, h⟩ := Option.bind_eq_some_iff.mp h
        dsimp only at h
        split at h
        · obtain ⟨hanswer, rfl⟩ := Prod.mk.inj (Option.some.inj h)
          obtain rfl := Option.some.inj hanswer
          exact ⟨hresult.1, hresult.2.1, .inl hresult.2.2⟩
        · refine finishCapture_answersFor hresult ?_ (Option.some.inj h)
          exact ⟨hresult.1, hresult.2.1, hresult.2.2⟩

theorem delete_answersFor (hresult : Blank requestId result)
    (h : delete store command io result = (some result', store')) :
    AnswerTo requestId consumerId store' result' := by
  rw [delete] at h
  split at h
  · obtain ⟨hanswer, rfl⟩ := Prod.mk.inj h
    obtain rfl := Option.some.inj hanswer
    exact ⟨hresult.1, hresult.2.1, .inl hresult.2.2⟩
  · dsimp only at h
    split at h
    · obtain ⟨hanswer, rfl⟩ := Prod.mk.inj h
      obtain rfl := Option.some.inj hanswer
      exact ⟨hresult.1, hresult.2.1, .inl hresult.2.2⟩
    · obtain ⟨hanswer, rfl⟩ := Prod.mk.inj h
      obtain rfl := Option.some.inj hanswer
      exact ⟨hresult.1, hresult.2.1, .inl hresult.2.2⟩

/-- The result of a command is one for its request, with a batch of the store as the
command leaves it. -/
theorem process_answersFor
    (h : process options scan store command consumerId io = some (some result, store')) :
    AnswerTo command.requestId consumerId store' result := by
  rw [process] at h
  have hblank : Blank command.requestId { requestId := command.requestId } := ⟨rfl, rfl, rfl⟩
  dsimp only at h
  split at h
  · obtain ⟨hanswer, rfl⟩ := Prod.mk.inj (Option.some.inj h)
    obtain rfl := Option.some.inj hanswer
    exact ⟨rfl, rfl, .inl rfl⟩
  · split at h
    · obtain ⟨hanswer, rfl⟩ := Prod.mk.inj (Option.some.inj h)
      obtain rfl := Option.some.inj hanswer
      exact ⟨rfl, rfl, .inl rfl⟩
    · rw [operate] at h
      cases hop : command.operation with
      | read =>
          rw [hop] at h
          obtain ⟨hanswer, rfl⟩ := Prod.mk.inj (Option.some.inj h)
          exact withBatch_answersFor hblank hanswer
      | create =>
          rw [hop] at h
          exact create_answersFor hblank h
      | update =>
          rw [hop] at h
          exact update_answersFor hblank h
      | delete =>
          rw [hop] at h
          exact delete_answersFor hblank (Option.some.inj h)

/-- A command leaves a store whose batches can be served. -/
theorem process_servable (hservable : Servable store.env)
    (hroom : (nextSequenceOf store.env).toNat + 2 < 2 ^ 64)
    (h : process options scan store command consumerId io = some (answer, store')) :
    Servable store'.env := by
  have hgrows : OutboxRun (withinGuard ((nextSequenceOf store.env).toNat + 2)) store.env
      store'.env := by
    refine process_run (fun _ => trivial) (fun _ env henv => ?_) trivial h
    show (nextSequenceOf env).toNat + 1 ≤ _
    rcases henv with henv | henv
    · rw [henv]
      omega
    · rw [henv, toNat_succ (by omega)]
  have hloaded : OutboxRun loadedGuard store.env store'.env :=
    process_run (fun _ => trivial) (fun _ _ _ => trivial) trivial h
  exact ⟨hservable.numbered.grows (hgrows.grows hroom), hservable.loaded.run hloaded⟩

end CrudCommandProcessor

/-! ## What the peer makes of a reply -/

theorem parseIngestAck_requestId {json : Json} {ack : IngestAckMessage}
    (h : parseIngestAck json = .ok (some ack)) : ack.requestId ≠ [] := by
  obtain ⟨-, h⟩ := ofType_some h
  obtain ⟨version, -, h⟩ := except_bind_ok.mp h
  obtain ⟨requestId, -, h⟩ := except_bind_ok.mp h
  obtain ⟨ok, -, h⟩ := except_bind_ok.mp h
  obtain ⟨ackSequence, -, h⟩ := except_bind_ok.mp h
  obtain ⟨message, -, h⟩ := except_bind_ok.mp h
  split at h
  · cases h
  next hnot =>
    obtain rfl := Option.some.inj (Except.ok.inj h)
    exact fun hnil => hnot (.inr hnil)

theorem parseCrudCommand_requestId {json : Json} {command : CrudCommandMessage}
    (h : parseCrudCommand json = .ok (some command)) : command.requestId ≠ [] := by
  obtain ⟨-, h⟩ := ofType_some h
  obtain ⟨version, -, h⟩ := except_bind_ok.mp h
  obtain ⟨requestId, -, h⟩ := except_bind_ok.mp h
  obtain ⟨text, -, h⟩ := except_bind_ok.mp h
  cases hoperation : operationFromString text with
  | none =>
      rw [hoperation] at h
      cases h
  | some operation =>
      rw [hoperation] at h
      obtain ⟨rootPath, -, h⟩ := except_bind_ok.mp h
      obtain ⟨snapshotId, -, h⟩ := except_bind_ok.mp h
      obtain ⟨baseSnapshotId, -, h⟩ := except_bind_ok.mp h
      obtain ⟨ackSequence, -, h⟩ := except_bind_ok.mp h
      obtain ⟨outboxBatchSize, -, h⟩ := except_bind_ok.mp h
      split at h
      · cases h
      next hnot =>
        obtain rfl := Option.some.inj (Except.ok.inj h)
        exact fun hnil => hnot (.inr hnil)

theorem find_requestId (result : CrudResultMessage) :
    result.toJson.find (str "request_id") = some (.string result.requestId) := by
  simp (disch := decide) only [CrudResultMessage.toJson, find_cons_of_ne, find_cons_self]

/-- A result that names no request is rejected. -/
theorem parseCrudResult_toJson_nil {result : CrudResultMessage} (hid : result.requestId = []) :
    parseCrudResult result.toJson ≠ .ok (some result) := by
  intro h
  obtain ⟨-, h⟩ := ofType_some h
  obtain ⟨version, -, h⟩ := except_bind_ok.mp h
  obtain ⟨requestId, hrequest, h⟩ := except_bind_ok.mp h
  have hnil : requestId = [] := by
    rw [stringOr, value_of_find rfl (find_requestId result) (getString_string _), hid] at hrequest
    exact (Except.ok.inj hrequest).symm
  obtain ⟨ok, -, h⟩ := except_bind_ok.mp h
  obtain ⟨message, -, h⟩ := except_bind_ok.mp h
  obtain ⟨snapshotId, -, h⟩ := except_bind_ok.mp h
  obtain ⟨baseSnapshotId, -, h⟩ := except_bind_ok.mp h
  obtain ⟨targetSnapshotId, -, h⟩ := except_bind_ok.mp h
  cases harray : arrayAt result.toJson "records" with
  | none =>
      rw [harray] at h
      cases h
  | some items =>
      rw [harray] at h
      obtain ⟨found, -, h⟩ := except_bind_ok.mp h
      cases found with
      | none => cases h
      | some records =>
          dsimp only at h
          rw [if_pos (.inr hnil)] at h
          cases h

/-- The reply, if it is a `crud_result`, was made of a result and is read back as it. -/
def Understood (reply : Json) : Prop :=
  stringOr reply "type" = .ok (str "crud_result") →
    ∃ result : CrudResultMessage, reply = result.toJson ∧
      parseCrudResult reply = .ok (some result)

theorem AnswerTo.understood {requestId consumerId : Str} {store : LmdbStore}
    {result : CrudResultMessage} (h : AnswerTo requestId consumerId store result)
    (hid : requestId ≠ []) (hservable : Servable store.env) : Understood result.toJson := by
  intro _
  refine ⟨result, rfl, parseCrudResult_toJson h.version (by rw [h.request]; exact hid) ?_⟩
  rcases h.records with hnil | ⟨maxItems, io, hbatch⟩
  · rw [hnil]
    exact fun _ hmem => absurd hmem List.not_mem_nil
  · exact hservable.messages hbatch

theorem understood_helloAck (msg : HelloAckMessage) : Understood msg.toJson := by
  intro h
  have htype : stringOr msg.toJson "type" = .ok (str "hello_ack") :=
    value_of_find rfl (find_cons_self ..) (getString_string _)
  rw [htype] at h
  exact absurd (Except.ok.inj h) (by decide)

theorem understood_errorReply {requestId : Str} (message : Str) (hid : requestId ≠ []) :
    Understood (CrudWebsocketSession.errorReply requestId message) :=
  fun _ => ⟨_, rfl, parseCrudResult_toJson rfl hid fun _ hmem => absurd hmem List.not_mem_nil⟩

/-- A refusal that names no request is a `crud_result` that is not understood. -/
theorem not_understood_notice (message : Str) :
    ¬ Understood (CrudWebsocketSession.errorReply [] message) := by
  intro h
  obtain ⟨result, heq, hparse⟩ := h (value_of_find rfl (find_cons_self ..) (getString_string _))
  have hid : result.requestId = [] := by
    have hfind := find_requestId result
    rw [← heq, CrudWebsocketSession.errorReply, find_requestId] at hfind
    exact (Json.string.inj (Option.some.inj hfind)).symm
  rw [heq] at hparse
  exact parseCrudResult_toJson_nil hid hparse

/-- What the message adds to the replies is understood. -/
def RepliesUnderstood (served : Served) (outcome : Except Escape Unit × Served) : Prop :=
  ∃ new, outcome.2.sent = served.sent ++ new ∧ ∀ reply ∈ new, Understood reply

namespace CrudWebsocketSession

variable {options : CrudServerOptions} {io : MessageIo} {payload : Json} {served : Served}

theorem repliesUnderstood_queued {served' : Served} {reply : Json}
    (hsent : served'.sent = served.sent) (h : Understood reply) :
    RepliesUnderstood served (queued served' reply) := by
  refine ⟨if reply.dumps then [reply] else [], by rw [queued_sent, hsent], fun r hr => ?_⟩
  split at hr
  · exact List.mem_singleton.mp hr ▸ h
  · exact absurd hr List.not_mem_nil

theorem repliesUnderstood_silent {outcome : Except Escape Unit × Served}
    (hsent : outcome.2.sent = served.sent) : RepliesUnderstood served outcome :=
  ⟨[], by rw [hsent, List.append_nil], fun _ hr => absurd hr List.not_mem_nil⟩

/-- The refusal is sent, and not understood. -/
theorem not_repliesUnderstood_notice {message : Str} (hutf8 : Json.validUtf8 message = true) :
    ¬ RepliesUnderstood served (queued served (errorReply [] message)) := by
  rintro ⟨new, hsent, hnew⟩
  have hdumps : (errorReply [] message).dumps = true :=
    dumps_crudResult rfl hutf8 fun _ hmem => absurd hmem List.not_mem_nil
  rw [queued_sent, if_pos hdumps] at hsent
  obtain rfl := List.append_cancel_left hsent
  exact not_understood_notice _ (hnew _ (List.mem_singleton_self _))

theorem Dispatches.understood {outcome : Except Escape Unit × Served}
    (h : Dispatches options io payload served outcome) (hservable : Servable served.store.env)
    (hroom : (nextSequenceOf served.store.env).toNat + 2 < 2 ^ 64)
    (hanswer : Answerable served.session payload) : RepliesUnderstood served outcome := by
  cases h with
  | raised e _ => exact repliesUnderstood_silent rfl
  | notice message _ hnot => exact absurd hanswer hnot
  | unauthenticated requestId message hid _ =>
      exact repliesUnderstood_queued rfl (understood_errorReply _ hid)
  | refused reason _ => exact repliesUnderstood_queued rfl (understood_helloAck _)
  | unregistered hello reason _ _ _ _ => exact repliesUnderstood_queued rfl (understood_helloAck _)
  | welcomed hello _ _ _ _ => exact repliesUnderstood_queued rfl (understood_helloAck _)
  | silent _ => exact repliesUnderstood_silent rfl
  | acked ack _ _ _ => exact repliesUnderstood_silent rfl
  | ackFailed ack message _ hparse _ =>
      exact repliesUnderstood_queued rfl
        (understood_errorReply _ (parseIngestAck_requestId hparse))
  | commanded command result store _ hparse hprocess _ =>
      have hstore := CrudCommandProcessor.process_servable hservable hroom hprocess
      exact repliesUnderstood_queued rfl ((CrudCommandProcessor.process_answersFor hprocess).understood
        (parseCrudCommand_requestId hparse) hstore)
  | overran command store _ _ _ _ => exact repliesUnderstood_silent rfl
  | diverged _ => exact repliesUnderstood_silent rfl

theorem Dispatches.answerable {outcome : Except Escape Unit × Served}
    (h : Dispatches options io payload served outcome)
    (hunderstood : RepliesUnderstood served outcome) : Answerable served.session payload := by
  cases h with
  | notice message hutf8 _ => exact absurd hunderstood (not_repliesUnderstood_notice hutf8)
  | raised _ h | unauthenticated _ _ _ h | refused _ h | unregistered _ _ _ _ _ h
  | welcomed _ _ _ _ h | silent h | acked _ _ _ h | ackFailed _ _ _ _ h
  | commanded _ _ _ _ _ _ h | overran _ _ _ _ _ h | diverged h => exact h

end CrudWebsocketSession

/-! ## The result -/

/-- Over every store that runs of Muninn lead to, whatever the session: the replies to a
text are understood exactly when it is a JSON object that is `Answerable`. -/
theorem replies_understood_iff {parse : Str → Option Json} {options : CrudServerOptions}
    {io : MessageIo} {ops : List StoreOp} (hroom : demands ops + 2 < 2 ^ 64 - 1)
    (hbare : ∀ op ∈ ops, op.bare ≠ some []) {served : Served}
    (hstore : served.store = runOps {} ops) (text : Str) :
    RepliesUnderstood served
        ((CrudWebsocketSession.handleMessage parse options io text).run.run served) ↔
      ∃ payload, parse text = some payload ∧ payload.isObject = true ∧
        CrudWebsocketSession.Answerable served.session payload := by
  have hservable : Servable served.store.env := by
    rw [hstore]
    exact servable_runOps (by omega) hbare
  have hcounter : (nextSequenceOf served.store.env).toNat + 2 < 2 ^ 64 := by
    have hone : (nextSequenceOf ({} : LmdbStore).env).toNat = 1 := rfl
    have hbounded := (runOps_grows ops {} (by omega)).bounded
    rw [hstore]
    omega
  have hmalformed : Json.validUtf8 (str "Malformed JSON message.") = true := by rfl
  rcases CrudWebsocketSession.handleMessage_dispatches parse text with
    ⟨hnone, heq⟩ | ⟨payload, hparse, hobject, hends⟩
  · rw [heq]
    refine iff_of_false (CrudWebsocketSession.not_repliesUnderstood_notice hmalformed) ?_
    rintro ⟨payload, hparse, hobject, -⟩
    exact absurd ((hnone payload hparse).symm.trans hobject) Bool.false_ne_true
  · constructor
    · exact fun h => ⟨payload, hparse, hobject, hends.answerable h⟩
    · rintro ⟨payload', hparse', -, hanswer⟩
      obtain rfl := Option.some.inj (hparse.symm.trans hparse')
      exact hends.understood hservable hcounter hanswer

/-- A command the server does not know, under the id of a request. -/
def renameCommand : Json :=
  jsonObject
    [("type", .string (str "crud_command")),
     ("protocol_version", unsigned 1),
     ("request_id", .string (str "r")),
     ("operation", .string (str "rename"))]

/-- A session past its hello, on a store with one record. -/
def bridgeServed : Served :=
  { session := CrudWebsocketSession.sessionOf bridgeHello
    store := runOps {} [.openStore { directory := str "d" } none [], newRecord] }

theorem replies_understood_iff_rename :
    RepliesUnderstood bridgeServed ((CrudWebsocketSession.handleMessage (fun _ => some renameCommand)
        {} {} (str "rename")).run.run bridgeServed) ↔
      ∃ payload, (fun _ => some renameCommand) (str "rename") = some payload ∧
        payload.isObject = true ∧
        CrudWebsocketSession.Answerable bridgeServed.session payload :=
  replies_understood_iff (by decide) (by decide) rfl (str "rename")

/-- The reply to it names no request, and is not understood. -/
theorem not_replies_understood :
    ¬ RepliesUnderstood bridgeServed ((CrudWebsocketSession.handleMessage
        (fun _ => some renameCommand) {} {} (str "rename")).run.run bridgeServed) := by
  intro h
  have hanswer : CrudWebsocketSession.Answerable bridgeServed.session renameCommand :=
    CrudWebsocketSession.dispatch_dispatches.answerable h
  have htype : stringOr renameCommand "type" = .ok (str "crud_command") := by rfl
  have hparse : parseCrudCommand renameCommand = .ok none := by rfl
  rcases hanswer _ htype with htype | ⟨htype, -⟩ | ⟨-, hregular⟩
  · exact absurd htype (by decide)
  · exact absurd htype (by decide)
  · have haccepted : bridgeServed.session.helloAccepted = true := rfl
    rw [CrudWebsocketSession.Regular, if_pos haccepted] at hregular
    exact hregular hparse

end ServerStorage.Muninn
