/-
# `ServerStorage.Hugin.Inbound` — no inbound message raises, and where one does

On Hugin's side only reading a message can raise: what its handlers write out, the ack,
carries a request id of the message itself.  Both dispatchers and all five parsers are
left by an exception exactly where a field they come to has a type that does not convert,
Muninn's dispatcher also where it has something to answer that is no UTF-8.
-/
import ServerStorage.Muninn.Receiving
import ServerStorage.Hugin.BridgeClient

namespace ServerStorage.Hugin

open Lib Lmdb Crud ServerStorage.Muninn

namespace BridgeClient

/-! ## Handlers that always return -/

section
variable {α β : Type}

/-- The computation returns, whatever it works on. -/
def Quiet (x : ClientM α) : Prop :=
  ∀ bridged, ∃ a bridged', x.run.run bridged = (.ok a, bridged')

theorem quiet_pure (a : α) : Quiet (pure a) := fun bridged => ⟨a, bridged, rfl⟩

theorem quiet_get : Quiet (get : ClientM Bridged) := fun bridged => ⟨bridged, bridged, rfl⟩

theorem quiet_modify (f : Bridged → Bridged) : Quiet (modify f : ClientM Unit) :=
  fun bridged => ⟨(), f bridged, rfl⟩

theorem quiet_bind {x : ClientM α} {f : α → ClientM β} (hx : Quiet x) (hf : ∀ a, Quiet (f a)) :
    Quiet (x >>= f) := by
  intro bridged
  obtain ⟨a, bridged', hrun⟩ := hx bridged
  obtain ⟨b, bridged'', hrun'⟩ := hf a bridged'
  refine ⟨b, bridged'', ?_⟩
  rw [ExceptT.run_bind, StateT.run_bind, hrun]
  exact hrun'

theorem quiet_ite {c : Prop} [Decidable c] {x y : ClientM α} (hx : Quiet x) (hy : Quiet y) :
    Quiet (if c then x else y) := by
  split
  · exact hx
  · exact hy

theorem quiet_forM {f : α → ClientM Unit} (hf : ∀ a, Quiet (f a)) :
    ∀ items : List α, Quiet (items.forM f)
  | [] => quiet_pure ()
  | item :: rest => quiet_bind (hf item) fun _ => quiet_forM hf rest

end

theorem quiet_changing (f : BridgeClient → BridgeClient) : Quiet (changing f) := quiet_modify _

theorem quiet_doWrite : Quiet doWrite :=
  quiet_bind quiet_get fun _ => quiet_ite (quiet_pure ()) (quiet_modify _)

theorem quiet_enqueueText (payload : Json) : Quiet (enqueueText payload) :=
  quiet_bind quiet_get fun _ => quiet_bind (quiet_changing _) fun _ =>
    quiet_ite quiet_doWrite (quiet_pure ())

theorem quiet_enqueueJson {payload : Json} (h : payload.dumps = true) :
    Quiet (enqueueJson payload) := by
  rw [enqueueJson, if_pos h]
  exact quiet_enqueueText payload

theorem quiet_scheduleReconnect (reason : String) : Quiet (scheduleReconnect reason) :=
  quiet_bind quiet_get fun _ => quiet_ite (quiet_pure ()) (quiet_bind (quiet_changing _) fun _ =>
    quiet_bind (quiet_modify _) fun _ => quiet_changing _)

theorem quiet_scheduleNextPull (hadRecords : Bool) : Quiet (scheduleNextPull hadRecords) :=
  quiet_changing _

theorem quiet_flushPendingCommands : Quiet flushPendingCommands :=
  quiet_bind quiet_get fun _ => quiet_bind (quiet_forM quiet_enqueueText _) fun _ =>
    quiet_changing _

theorem quiet_sendIngestAck (ackSequence : UInt64) {requestId : Str}
    (h : Json.validUtf8 requestId = true) : Quiet (sendIngestAck ackSequence requestId) := by
  have hkeys : (["type", "protocol_version", "request_id", "ok", "ack_sequence", "message",
      "ingest_ack"].all fun key => Json.validUtf8 (str key)) = true := by rfl
  simp only [List.all_cons, List.all_nil, Bool.and_true, Bool.and_eq_true] at hkeys
  obtain ⟨h₁, h₂, h₃, h₄, h₅, h₆, h₇⟩ := hkeys
  refine quiet_enqueueJson ?_
  simp [IngestAckMessage.toJson, dumps_jsonObject, unsigned, Json.dumps, h₁, h₂, h₃, h₄, h₅, h₆,
    h₇, h]

theorem quiet_applyCrudResult {result : CrudResultMessage}
    (h : Json.validUtf8 result.requestId = true) : Quiet (applyCrudResult result) := by
  have hack : Quiet (acknowledge result) :=
    quiet_bind quiet_get fun _ => quiet_ite
      (quiet_bind (quiet_sendIngestAck _ h) fun _ => quiet_changing _) (quiet_pure ())
  exact quiet_bind (quiet_modify _) fun _ => quiet_bind hack fun _ => quiet_scheduleNextPull _

/-! ## Where the dispatcher returns -/

/-- The fields that the client comes to read have types that convert. -/
def Legible (payload : Json) : Prop :=
  TypeFits payload ∧ (TypeIs payload "hello_ack" → HelloAckFields payload) ∧
    (TypeIs payload "crud_result" → CrudResultFields payload)

/-- The handler returns. -/
def ReturnsFrom (bridged : Bridged) (handler : ClientM Unit) : Prop :=
  (handler.run.run bridged).1 = .ok ()

section
variable {α : Type} {bridged : Bridged} {payload : Json}

theorem Quiet.returnsFrom {handler : ClientM Unit} (h : Quiet handler) :
    ReturnsFrom bridged handler := by
  obtain ⟨a, bridged', hrun⟩ := h bridged
  rw [ReturnsFrom, hrun]

theorem returnsFrom_reading {parsed : Parsed α} {f : α → ClientM Unit} :
    ReturnsFrom bridged (reading parsed >>= f) ↔
      ∃ a, parsed = .ok a ∧ ReturnsFrom bridged (f a) := by
  cases parsed with
  | error e => exact iff_of_false nofun fun ⟨a, ha, _⟩ => nomatch ha
  | ok a => exact ⟨fun h => ⟨a, rfl, h⟩, fun ⟨a', ha, h⟩ => Except.ok.inj ha ▸ h⟩

theorem returnsFrom_handleHelloAck :
    ReturnsFrom bridged (handleHelloAck payload) ↔ Returns (parseHelloAck payload) := by
  rw [handleHelloAck, returnsFrom_reading]
  refine exists_congr fun found => and_iff_left (Quiet.returnsFrom ?_)
  cases found with
  | none => exact quiet_scheduleReconnect _
  | some helloAck =>
      exact quiet_ite (quiet_scheduleReconnect _) (quiet_bind (quiet_changing _) fun _ =>
        quiet_bind (quiet_modify _) fun _ => quiet_bind quiet_flushPendingCommands fun _ =>
        quiet_bind quiet_get fun _ => quiet_ite (quiet_scheduleNextPull _) (quiet_pure ()))

theorem utf8_crudResult {result : CrudResultMessage} (hdumps : payload.dumps = true)
    (h : parseCrudResult payload = .ok (some result)) :
    Json.validUtf8 result.requestId = true := by
  obtain ⟨-, h⟩ := ofType_some h
  obtain ⟨version, -, h⟩ := except_bind_ok.mp h
  obtain ⟨requestId, hid, h⟩ := except_bind_ok.mp h
  obtain ⟨ok, -, h⟩ := except_bind_ok.mp h
  obtain ⟨message, -, h⟩ := except_bind_ok.mp h
  obtain ⟨snapshotId, -, h⟩ := except_bind_ok.mp h
  obtain ⟨baseSnapshotId, -, h⟩ := except_bind_ok.mp h
  obtain ⟨targetSnapshotId, -, h⟩ := except_bind_ok.mp h
  split at h
  · cases h
  obtain ⟨found, -, h⟩ := except_bind_ok.mp h
  split at h
  · cases h
  split at h
  · cases h
  · obtain rfl := Option.some.inj (Except.ok.inj h)
    exact utf8_of_stringOr hdumps hid

theorem returnsFrom_handleCrudResult (hdumps : payload.dumps = true) :
    ReturnsFrom bridged (handleCrudResult payload) ↔ Returns (parseCrudResult payload) := by
  rw [handleCrudResult, returnsFrom_reading]
  refine exists_congr fun found => and_iff_left_of_imp fun hfound => Quiet.returnsFrom ?_
  cases found with
  | none => exact quiet_pure ()
  | some result => exact quiet_applyCrudResult (utf8_crudResult hdumps hfound)

theorem dispatch_returns (hobject : payload.isObject = true) (hdumps : payload.dumps = true) :
    ReturnsFrom bridged (dispatch payload) ↔ Legible payload := by
  have hresult : str "crud_result" ≠ str "hello_ack" := by decide
  rw [dispatch, returnsFrom_reading]
  cases htype : stringOr payload "type" with
  | error e =>
      refine iff_of_false (fun ⟨_, h, _⟩ => nomatch h) fun h => ?_
      obtain ⟨type, h⟩ := Json.value_isOk.mpr h.1
      exact nomatch htype.symm.trans h
  | ok type =>
  have hfits : TypeFits payload := Json.value_isOk.mp ⟨type, htype⟩
  have hisType : ∀ name, TypeIs payload name ↔ type = str name := fun name => by
    rw [TypeIs, htype, Except.ok.injEq]
  rw [CrudWebsocketSession.exists_ok, Legible, and_iff_right hfits]
  by_cases hisAck : type = str "hello_ack"
  · obtain rfl := hisAck
    have hnoResult : ¬ TypeIs payload "crud_result" := fun h => hresult ((hisType _).mp h).symm
    rw [if_pos rfl, returnsFrom_handleHelloAck, parseHelloAck_returns, forall_prop_of_true hobject,
      and_iff_right hfits]
    exact (and_iff_left fun h => absurd h hnoResult).symm
  have hnoAck : ¬ TypeIs payload "hello_ack" := fun h => hisAck ((hisType _).mp h)
  rw [if_neg hisAck]
  by_cases hisResult : type = str "crud_result"
  · rw [if_pos hisResult, returnsFrom_handleCrudResult hdumps, parseCrudResult_returns,
      forall_prop_of_true hobject, and_iff_right hfits]
    exact (and_iff_right fun h => absurd h hnoAck).symm
  have hnoResult : ¬ TypeIs payload "crud_result" := fun h => hisResult ((hisType _).mp h)
  rw [if_neg hisResult]
  exact iff_of_true (quiet_pure ()).returnsFrom
    ⟨fun h => absurd h hnoAck, fun h => absurd h hnoResult⟩

end

end BridgeClient

/-! ## Both peers -/

end ServerStorage.Hugin
