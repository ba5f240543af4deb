/-
# `ServerStorage.Hugin.Gateway` — a frontend's command arrives as it was given

A body that is accepted has each of its numbers within the range of the field it is read
into, so the command carries them unchanged; what the parser of the other side asks for
(a version and an id) is what the client puts in.
-/
import ServerStorage.Hugin.FrontendDto
import ServerStorage.Hugin.MuninnClient
import ServerStorage.Shared.CrudSpec
import ServerStorage.Lib.Decimal

namespace ServerStorage.Hugin

open Lib Lmdb Crud ServerStorage.Muninn

/-! ## What is accepted -/

/-- A number field of a body: where it is there, it is this number. -/
def CarriesNumber (body : Json) (field : String) (n : Nat) : Prop :=
  ∀ v, body.find (str field) = some v → v.getNumber = some (n : Int)

def CarriesText (body : Json) (field : String) (text : Str) : Prop :=
  ∀ v, body.find (str field) = some v → v = .string text

/-- A body and the request read from it. -/
structure Accepted (body : Json) (request : FrontendCommandRequestDto) : Prop where
  operation : body.find (str "operation") =
    some (.string (operationToString (toCrudOperation request.operation)))
  requestId : CarriesText body "request_id" request.requestId
  rootPath : CarriesText body "root_path" request.rootPath
  snapshotId : CarriesNumber body "snapshot_id" request.snapshotId.toNat
  baseSnapshotId : CarriesNumber body "base_snapshot_id" request.baseSnapshotId.toNat
  ackSequence : CarriesNumber body "ack_sequence" request.ackSequence.toNat
  outboxBatchSize : CarriesNumber body "outbox_batch_size" request.outboxBatchSize.toNat
  positive : request.outboxBatchSize ≠ 0

section
variable {body : Json} {field : String}

/-- A text that was read: the one of the field, or the empty one without it. -/
theorem readText_ok {text : Str} (h : readText body field = .ok text) :
    CarriesText body field text ∧ (text ≠ [] → body.find (str field) = some (.string text)) := by
  rw [readText] at h
  cases hfind : body.find (str field) with
  | none =>
      rw [hfind] at h
      obtain rfl := Except.ok.inj h
      exact ⟨fun v hv => absurd (hfind.symm.trans hv) nofun, fun hne => absurd rfl hne⟩
  | some v =>
      rw [hfind] at h
      cases v with
      | string found =>
          obtain rfl := Except.ok.inj h
          exact ⟨fun v hv => by rw [hfind] at hv; exact (Option.some.inj hv).symm, fun _ => rfl⟩
      | null | boolean | numberInteger | numberUnsigned | numberFloat | array | object => cases h

theorem toInt_toUInt64 {i : Int64} (h : ¬ i < 0) : (i.toUInt64.toNat : Int) = i.toInt := by
  have hle : (0 : Int64) ≤ i := Int64.not_lt.mp h
  have hnonneg : (0 : Int) ≤ i.toInt := Int64.le_iff_toInt_le.mp hle
  rw [Int64.toNat_toUInt64_of_le hle]
  exact Int.toNat_of_nonneg hnonneg

theorem readU64_ok {n : UInt64} (h : readU64 body field = some n) :
    CarriesNumber body field n.toNat := by
  intro v hv
  rw [readU64, hv] at h
  cases v with
  | numberUnsigned u =>
      obtain rfl := Option.some.inj h
      rfl
  | numberInteger i =>
      dsimp only at h
      split at h
      · cases h
      · rename_i hneg
        obtain rfl := Option.some.inj h
        exact congrArg some (toInt_toUInt64 hneg).symm
  | null | boolean | string | numberFloat | array | object => cases h

theorem toUInt32_toNat {n : UInt64} (h : ¬ 0xFFFFFFFF < n) : n.toUInt32.toNat = n.toNat := by
  have hle : n.toNat ≤ 0xFFFFFFFF := UInt64.le_iff_toNat_le.mp (UInt64.not_lt.mp h)
  rw [UInt64.toNat_toUInt32]
  exact Nat.mod_eq_of_lt (by omega)

theorem readNumbers_ok {a b c : UInt64} (h : readNumbers body = .ok (a, b, c)) :
    CarriesNumber body "snapshot_id" a.toNat ∧ CarriesNumber body "base_snapshot_id" b.toNat ∧
      CarriesNumber body "ack_sequence" c.toNat := by
  rw [readNumbers] at h
  cases ha : readU64 body "snapshot_id" with
  | none => rw [ha] at h; cases h
  | some a' =>
  cases hb : readU64 body "base_snapshot_id" with
  | none => rw [ha, hb] at h; cases h
  | some b' =>
  cases hc : readU64 body "ack_sequence" with
  | none => rw [ha, hb, hc] at h; cases h
  | some c' =>
      rw [ha, hb, hc] at h
      obtain ⟨rfl, hrest⟩ := Prod.mk.inj (Except.ok.inj h)
      obtain ⟨rfl, rfl⟩ := Prod.mk.inj hrest
      exact ⟨readU64_ok ha, readU64_ok hb, readU64_ok hc⟩

/-- A size within its range is the number of the field. -/
theorem readBatchSize_ok {size : UInt32} (h : readBatchSize body = .ok size) :
    CarriesNumber body "outbox_batch_size" size.toNat ∧ size ≠ 0 := by
  have hrange : ∀ {value : UInt64}, ¬(value = 0 ∨ 0xFFFFFFFF < value) →
      value.toUInt32.toNat = value.toNat ∧ value.toUInt32 ≠ 0 := by
    intro value hvalue
    obtain ⟨hne, hle⟩ := not_or.mp hvalue
    have htoNat := toUInt32_toNat hle
    refine ⟨htoNat, fun hzero => hne ?_⟩
    rw [hzero] at htoNat
    exact UInt64.toNat_inj.mp htoNat.symm
  rw [readBatchSize] at h
  cases hfind : body.find (str "outbox_batch_size") with
  | none =>
      rw [hfind] at h
      obtain rfl := Except.ok.inj h
      exact ⟨fun v hv => absurd (hfind.symm.trans hv) nofun, by decide⟩
  | some v =>
      have hcarries : ∀ {n : Nat}, v.getNumber = some (n : Int) →
          CarriesNumber body "outbox_batch_size" n := fun hn v' hv => by
        rw [hfind] at hv
        obtain rfl := Option.some.inj hv
        exact hn
      rw [hfind] at h
      cases v with
      | numberUnsigned value =>
          dsimp only at h
          split at h
          · cases h
          · rename_i hvalue
            obtain rfl := Except.ok.inj h
            refine ⟨hcarries ?_, (hrange hvalue).2⟩
            rw [(hrange hvalue).1]
            rfl
      | numberInteger value =>
          dsimp only at h
          split at h
          · cases h
          · rename_i hpositive
            split at h
            · cases h
            · rename_i hvalue
              obtain rfl := Except.ok.inj h
              have hneg : ¬ value < 0 := fun hlt => hpositive (Int64.le_of_lt hlt)
              refine ⟨hcarries ?_, (hrange hvalue).2⟩
              rw [(hrange hvalue).1]
              exact congrArg some (toInt_toUInt64 hneg).symm
      | null | boolean | string | numberFloat | array | object => cases h

theorem parseOperation_some {text : Str} {operation : FrontendOperation}
    (h : parseOperation text = some operation) :
    text = operationToString (toCrudOperation operation) := by
  rw [parseOperation] at h
  split at h
  · rename_i htext
    obtain rfl := Option.some.inj h
    exact htext
  split at h
  · rename_i htext
    obtain rfl := Option.some.inj h
    exact htext
  split at h
  · rename_i htext
    obtain rfl := Option.some.inj h
    exact htext
  split at h
  · rename_i htext
    obtain rfl := Option.some.inj h
    exact htext
  · cases h

theorem parseFrontendCommandRequest_ok {request : FrontendCommandRequestDto}
    (h : parseFrontendCommandRequest body = .ok request) :
    body.isObject = true ∧ Accepted body request ∧
      (request.requestId ≠ [] → body.find (str "request_id") = some (.string request.requestId)) ∧
      (request.rootPath ≠ [] → body.find (str "root_path") = some (.string request.rootPath)) := by
  rw [parseFrontendCommandRequest] at h
  cases hobject : body.isObject with
  | false => rw [hobject] at h; cases h
  | true =>
  rw [hobject, if_neg (show ¬(!true) = true from Bool.false_ne_true)] at h
  cases hkeys : (keysOf body).find? fun key => !isAllowedKey key with
  | some key => rw [hkeys] at h; cases h
  | none =>
  rw [hkeys] at h
  cases hfind : body.find (str "operation") with
  | none => rw [hfind] at h; cases h
  | some v =>
  rw [hfind] at h
  cases v with
  | null | boolean | numberInteger | numberUnsigned | numberFloat | array | object => cases h
  | string text =>
  dsimp only at h
  cases hop : parseOperation text with
  | none => rw [hop] at h; cases h
  | some operation =>
  rw [hop] at h
  obtain ⟨requestId, hrequestId, h⟩ := except_bind_ok.mp h
  obtain ⟨rootPath, hrootPath, h⟩ := except_bind_ok.mp h
  obtain ⟨⟨snapshotId, baseSnapshotId, ackSequence⟩, hnumbers, h⟩ := except_bind_ok.mp h
  obtain ⟨outboxBatchSize, hbatch, h⟩ := except_bind_ok.mp h
  obtain rfl := Except.ok.inj h
  obtain ⟨hsnapshot, hbase, hack⟩ := readNumbers_ok hnumbers
  obtain ⟨hsize, hpositive⟩ := readBatchSize_ok hbatch
  refine ⟨rfl, ?_, (readText_ok hrequestId).2, (readText_ok hrootPath).2⟩
  exact
    { operation := by rw [hfind, parseOperation_some hop]
      requestId := (readText_ok hrequestId).1
      rootPath := (readText_ok hrootPath).1
      snapshotId := hsnapshot
      baseSnapshotId := hbase
      ackSequence := hack
      outboxBatchSize := hsize
      positive := hpositive }

/-- The texts of a request from a body that is UTF-8 are UTF-8. -/
theorem utf8_of_find {text : Str} (hobject : body.isObject = true) (hbody : body.dumps = true)
    (h : text ≠ [] → body.find (str field) = some (.string text)) : Json.validUtf8 text = true := by
  by_cases hne : text = []
  · rw [hne]
    rfl
  · cases body with
    | object fields => exact dumps_of_find hbody (h hne)
    | null | boolean | string | numberInteger | numberUnsigned | numberFloat | array =>
        cases hobject

end

theorem utf8_generated (label : String) (n : Nat)
    (hlabel : ∀ b ∈ str label, b < 0x80) : Json.validUtf8 (str label ++ decimal n) = true := by
  refine validUtf8_ascii fun b hb => ?_
  rcases List.mem_append.mp hb with hb | hb
  · exact hlabel b hb
  · have hdigit := isDigit_of_mem_decimal hb
    rw [isDigit, Bool.and_eq_true, decide_eq_true_eq, decide_eq_true_eq] at hdigit
    exact lt_of_le_of_lt hdigit.2 (by decide)

/-! ## What is sent -/

/-- The command carries the request field for field; only an empty id is replaced. -/
structure Forwards (request : FrontendCommandRequestDto) (sent : CrudCommandMessage) : Prop where
  operation : sent.operation = toCrudOperation request.operation
  rootPath : sent.rootPath = request.rootPath
  snapshotId : sent.snapshotId = request.snapshotId
  baseSnapshotId : sent.baseSnapshotId = request.baseSnapshotId
  ackSequence : sent.ackSequence = request.ackSequence
  outboxBatchSize : sent.outboxBatchSize = request.outboxBatchSize
  given : request.requestId ≠ [] → sent.requestId = request.requestId
  generated : request.requestId = [] → sent.requestId ≠ []

/-- The two ways from a request to the client: as it is, and by the handler of the command
path, which gives it an id first. -/
def Dispatched (requestCounter : UInt64) (request : FrontendCommandRequestDto)
    (command : CrudCommandMessage) : Prop :=
  command = toCrudCommand request ∨ command = frontendCommand requestCounter request

section
variable {request : FrontendCommandRequestDto} {requestCounter : UInt64}
  {command : CrudCommandMessage} {client : MuninnWebSocketClient}

/-- Apart from the id, a dispatched command is the request; its id is the request's or a
generated one. -/
theorem Dispatched.fields (h : Dispatched requestCounter request command) :
    (command = { toCrudCommand request with requestId := command.requestId }) ∧
      (request.requestId ≠ [] → command.requestId = request.requestId) ∧
      (request.requestId = [] →
        command.requestId = [] ∨ command.requestId = nextFrontendRequestId requestCounter) := by
  rcases h with rfl | rfl
  · exact ⟨rfl, fun _ => rfl, fun hnil => .inl hnil⟩
  · rw [frontendCommand]
    by_cases hnil : request.requestId = []
    · rw [if_pos hnil]
      exact ⟨rfl, fun hne => absurd hnil hne, fun _ => .inr rfl⟩
    · rw [if_neg hnil]
      exact ⟨rfl, fun _ => rfl, fun h => absurd h hnil⟩

theorem Dispatched.forwards (h : Dispatched requestCounter request command) :
    Forwards request (client.numbered command).1 := by
  obtain ⟨hfields, hgiven, -⟩ := h.fields
  rw [MuninnWebSocketClient.numbered]
  by_cases hnil : command.requestId = []
  · have hrequest : request.requestId = [] := by
      by_contra hne
      exact hne ((hgiven hne).symm.trans hnil)
    rw [if_pos hnil]
    refine ⟨?_, ?_, ?_, ?_, ?_, ?_, fun hne => absurd hrequest hne, fun _ => ?_⟩
    case refine_7 =>
      exact fun hgen => List.cons_ne_nil _ _ hgen
    all_goals
      rw [hfields]
      rfl
  · rw [if_neg hnil]
    refine ⟨?_, ?_, ?_, ?_, ?_, ?_, hgiven, fun _ => hnil⟩
    all_goals
      rw [hfields]
      rfl

theorem numbered_protocolVersion :
    (client.numbered command).1.protocolVersion = command.protocolVersion := by
  rw [MuninnWebSocketClient.numbered]
  split <;> rfl

theorem numbered_helloComplete :
    (client.numbered command).2.helloComplete = client.helloComplete := by
  rw [MuninnWebSocketClient.numbered]
  split <;> rfl

theorem numbered_writeQueue : (client.numbered command).2.writeQueue = client.writeQueue := by
  rw [MuninnWebSocketClient.numbered]
  split <;> rfl

theorem Dispatched.utf8 (h : Dispatched requestCounter request command)
    (hid : Json.validUtf8 request.requestId = true) :
    Json.validUtf8 (client.numbered command).1.requestId = true := by
  obtain ⟨-, hgiven, hgenerated⟩ := h.fields
  rw [MuninnWebSocketClient.numbered]
  by_cases hnil : command.requestId = []
  · rw [if_pos hnil]
    show Json.validUtf8 (str "cmd" ++ str "-" ++ decimal _) = true
    exact utf8_generated "cmd-" _ (by simp [str])
  · rw [if_neg hnil]
    by_cases hrequest : request.requestId = []
    · rw [(hgenerated hrequest).resolve_left hnil]
      exact utf8_generated "frontend-" _ (by simp [str])
    · rw [hgiven hrequest]
      exact hid

end

/-- A body that is accepted reaches Muninn's parser as the request it was read into: the
command is accepted there, with every field of the request, and an id of its own only where
the request had none. -/
theorem submitCommand_forwards (parse : Str → Option Json)
    (dump : Json → Except JsonException Str) (client later : MuninnWebSocketClient) (body : Json)
    (request : FrontendCommandRequestDto) (requestCounter : UInt64) (command : CrudCommandMessage)
    (hbody : body.dumps = true) (h : parseFrontendCommandRequest body = .ok request)
    (hcommand : Dispatched requestCounter request command) (hconnected : client.connected = true)
    (hhello : later.helloComplete = true)
    (hundo : ∀ json, json = (later.numbered command).1.toJson → json.dumps = true →
      ∃ text, dump json = .ok text ∧ parse text = some json) :
    Accepted body request ∧ client.submitCommand command = .ok command ∧
      ∃ sent text json, Forwards request sent ∧
        (later.postedCommand dump command).1.writeQueue = later.writeQueue ++ [text] ∧
        parse text = some json ∧ parseCrudCommand json = .ok (some sent) := by
  obtain ⟨hobject, haccepted, hid, hpath⟩ := parseFrontendCommandRequest_ok h
  have hforwards : Forwards request (later.numbered command).1 := hcommand.forwards
  have hfields := hcommand.fields.1
  have hsubmit : client.submitCommand command = .ok command := by
    have hrunning : client.running = true := by
      rw [MuninnWebSocketClient.connected, Bool.and_eq_true, Bool.and_eq_true] at hconnected
      exact hconnected.1.1
    rw [MuninnWebSocketClient.submitCommand, hrunning, hconnected,
      if_neg (show ¬(!true) = true from Bool.false_ne_true),
      if_neg (show ¬(!true) = true from Bool.false_ne_true), if_neg]
    rw [hfields]
    exact haccepted.positive
  have hversion : (later.numbered command).1.protocolVersion = kProtocolVersion := by
    rw [numbered_protocolVersion, hfields]
    rfl
  have hne : (later.numbered command).1.requestId ≠ [] := by
    by_cases hnil : request.requestId = []
    · exact hforwards.generated hnil
    · rw [hforwards.given hnil]
      exact hnil
  have hdumps : (later.numbered command).1.toJson.dumps = true := by
    refine dumps_crudCommand (hcommand.utf8 (utf8_of_find hobject hbody hid)) ?_
    rw [hforwards.rootPath]
    exact utf8_of_find hobject hbody hpath
  obtain ⟨text, hdump, hparse⟩ := hundo _ rfl hdumps
  refine ⟨haccepted, hsubmit, (later.numbered command).1, text, _, hforwards, ?_, hparse,
    parseCrudCommand_toJson hversion hne⟩
  rw [MuninnWebSocketClient.postedCommand]
  dsimp only
  rw [hdump]
  dsimp only
  rw [numbered_helloComplete, hhello, if_neg (show ¬(!true) = true from Bool.false_ne_true)]
  exact congrArg (· ++ [text]) numbered_writeQueue

/-- A read of one snapshot through a new connection, with the text that the library prints. -/
def readSeven : Json :=
  .object [(str "operation", .string (str "read")), (str "snapshot_id", .numberInteger 7)]

def readSevenCommand : CrudCommandMessage :=
  { requestId := str "cmd-1", operation := .read, snapshotId := 7, outboxBatchSize := 128 }

def readSevenText : Str :=
  str "\x7b\"ack_sequence\":0,\"base_snapshot_id\":0,\"operation\":\"read\"," ++
    str "\"outbox_batch_size\":128,\"protocol_version\":1,\"request_id\":\"cmd-1\"," ++
    str "\"root_path\":\"\",\"snapshot_id\":7,\"type\":\"crud_command\"\x7d"

theorem submitCommand_forwards_read :
    ∃ sent text json, Forwards { snapshotId := 7 } sent ∧
      (MuninnWebSocketClient.postedCommand (fun _ => .ok readSevenText)
        { helloComplete := true } (toCrudCommand { snapshotId := 7 })).1.writeQueue = [text] ∧
      (if text = readSevenText then some readSevenCommand.toJson else none) = some json ∧
      parseCrudCommand json = .ok (some sent) :=
  (submitCommand_forwards
    (fun text => if text = readSevenText then some readSevenCommand.toJson else none)
    (fun _ => .ok readSevenText)
    { running := true, handshakeComplete := true, helloComplete := true }
    { helloComplete := true } readSeven { snapshotId := 7 } 0 (toCrudCommand { snapshotId := 7 })
    (by rfl) (by rfl) (.inl rfl) rfl rfl
    (fun json hjson _ => ⟨readSevenText, rfl, by rw [hjson, if_pos rfl]; rfl⟩)).2.2

end ServerStorage.Hugin
