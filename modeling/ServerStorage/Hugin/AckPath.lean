/-
# `ServerStorage.Hugin.AckPath` — acks on their way through the bridge client

An ack starts as `last_ack_sequence_`, goes into an `ingest_ack` or a command and passes a
queue before it is written.  If all that is under way acknowledges no more than is allowed,
a handler leaves it so, and what it writes is `Fair`: a result that is handed over allows
the sequences of its records, and nothing else does.
-/
import ServerStorage.Hugin.PullLoop
import ServerStorage.Muninn.Feeding

namespace ServerStorage.Hugin

open Lib Lmdb Crud ServerStorage.Muninn

/-! ## What the messages of the client acknowledge -/

section
variable {allowed : UInt64 → Prop} {c : Str}

theorem ofType_ne_some {json : Json} {type type' : String} {α : Type} {fields : Parsed (Option α)}
    {a : α} (htype : json.find (str "type") = some (.string (str type)))
    (hobject : json.isObject = true) (hne : str type ≠ str type') :
    ofType type' json fields ≠ .ok (some a) := by
  intro h
  have hread : stringOr json "type" = .ok (str type) :=
    value_of_find hobject htype (getString_string _)
  exact hne (Except.ok.inj (hread.symm.trans (ofType_some h).1))

theorem parseIngestAck_sequence {json : Json} {ack : IngestAckMessage}
    (h : parseIngestAck json = .ok (some ack)) :
    u64Or json "ack_sequence" = .ok ack.ackSequence := by
  obtain ⟨-, h⟩ := ofType_some h
  obtain ⟨version, -, h⟩ := except_bind_ok.mp h
  obtain ⟨requestId, -, h⟩ := except_bind_ok.mp h
  obtain ⟨ok, -, h⟩ := except_bind_ok.mp h
  obtain ⟨ackSequence, hsequence, h⟩ := except_bind_ok.mp h
  obtain ⟨message, -, h⟩ := except_bind_ok.mp h
  split at h
  · cases h
  · obtain rfl := Option.some.inj (Except.ok.inj h)
    exact hsequence

theorem parseCrudCommand_sequence {json : Json} {command : CrudCommandMessage}
    (h : parseCrudCommand json = .ok (some command)) :
    u64Or json "ack_sequence" = .ok command.ackSequence := by
  obtain ⟨-, h⟩ := ofType_some h
  obtain ⟨version, -, h⟩ := except_bind_ok.mp h
  obtain ⟨requestId, -, h⟩ := except_bind_ok.mp h
  obtain ⟨text, -, h⟩ := except_bind_ok.mp h
  cases hoperation : operationFromString text with
  | none =>
      rw [hoperation] at h
      cases h
  | some operation =>
      rw [hoperation] at h
      obtain ⟨rootPath, -, h⟩ := except_bind_ok.mp h
      obtain ⟨snapshotId, -, h⟩ := except_bind_ok.mp h
      obtain ⟨baseSnapshotId, -, h⟩ := except_bind_ok.mp h
      obtain ⟨ackSequence, hsequence, h⟩ := except_bind_ok.mp h
      obtain ⟨outboxBatchSize, -, h⟩ := except_bind_ok.mp h
      split at h
      · cases h
      · obtain rfl := Option.some.inj (Except.ok.inj h)
        exact hsequence

/-- A message asks for the ack in its field, or for none. -/
theorem ackIn_eq (json : Json) : ackIn json = 0 ∨ u64Or json "ack_sequence" = .ok (ackIn json) := by
  rw [ackIn]
  split
  next ack hack =>
    split
    · exact .inr (parseIngestAck_sequence hack)
    · exact .inl rfl
  next =>
    split
    next command hcommand => exact .inr (parseCrudCommand_sequence hcommand)
    next => exact .inl rfl

theorem ackIn_of_find {json : Json} {a : UInt64} (hobject : json.isObject = true)
    (hfind : json.find (str "ack_sequence") = some (unsigned a)) : ackIn json = 0 ∨ ackIn json = a := by
  refine (ackIn_eq json).imp_right fun hread => ?_
  have hfield : u64Or json "ack_sequence" = .ok a := value_of_find hobject hfind (getU64_unsigned a)
  exact Except.ok.inj (hread.symm.trans hfield)

theorem fair_command (hzero : allowed 0) {command : CrudCommandMessage}
    (hack : allowed command.ackSequence) : Fair allowed c command.toJson where
  ack := by
    have hfind : command.toJson.find (str "ack_sequence") = some (unsigned command.ackSequence) := by
      simp (disch := decide) only [CrudCommandMessage.toJson, find_cons_of_ne, find_cons_self]
    rcases ackIn_of_find rfl hfind with h | h
    · rw [h]
      exact hzero
    · rw [h]
      exact hack
  hello _ h := absurd h (ofType_ne_some (find_cons_self ..) rfl (by decide))

theorem fair_ingestAck (hzero : allowed 0) {ack : IngestAckMessage} (hack : allowed ack.ackSequence) :
    Fair allowed c ack.toJson where
  ack := by
    have hfind : ack.toJson.find (str "ack_sequence") = some (unsigned ack.ackSequence) := by
      simp (disch := decide) only [IngestAckMessage.toJson, find_cons_of_ne, find_cons_self]
    rcases ackIn_of_find rfl hfind with h | h
    · rw [h]
      exact hzero
    · rw [h]
      exact hack
  hello _ h := absurd h (ofType_ne_some (find_cons_self ..) rfl (by decide))

/-- A hello that is read names the host and the client it was made of. -/
theorem parseHello_consumer {msg hello : HelloMessage}
    (h : parseHello msg.toJson = .ok (some hello)) :
    CrudWebsocketSession.consumerIdOf hello = CrudWebsocketSession.consumerIdOf msg := by
  have hhost : stringOr msg.toJson "host_id" = .ok msg.hostId := by
    refine value_of_find rfl ?_ (getString_string _)
    simp (disch := decide) only [HelloMessage.toJson, find_cons_of_ne, find_cons_self]
  have hclient : stringOr msg.toJson "client_instance_id" = .ok msg.clientInstanceId := by
    refine value_of_find rfl ?_ (getString_string _)
    simp (disch := decide) only [HelloMessage.toJson, find_cons_of_ne, find_cons_self]
  obtain ⟨-, h⟩ := ofType_some h
  obtain ⟨version, -, h⟩ := except_bind_ok.mp h
  obtain ⟨hostId, hhostId, h⟩ := except_bind_ok.mp h
  obtain ⟨clientInstanceId, hclientId, h⟩ := except_bind_ok.mp h
  obtain ⟨authToken, -, h⟩ := except_bind_ok.mp h
  split at h
  · cases h
  · obtain rfl := Option.some.inj (Except.ok.inj h)
    obtain rfl := Except.ok.inj (hhost.symm.trans hhostId)
    obtain rfl := Except.ok.inj (hclient.symm.trans hclientId)
    rfl

theorem fair_hello (hzero : allowed 0) {hello : HelloMessage}
    (hconsumer : CrudWebsocketSession.consumerIdOf hello = c) : Fair allowed c hello.toJson where
  ack := by
    have hnone : ackIn hello.toJson = 0 := by
      rw [ackIn]
      split
      next ack hack => exact absurd hack (ofType_ne_some (find_cons_self ..) rfl (by decide))
      next =>
        split
        next command hcommand =>
          exact absurd hcommand (ofType_ne_some (find_cons_self ..) rfl (by decide))
        next => rfl
    rw [hnone]
    exact hzero
  hello _ h := (parseHello_consumer h).trans hconsumer

end

/-! ## The handlers -/

/-- Whatever is under way to Muninn is fair, and what was written since the `n`th write. -/
structure Honest (allowed : UInt64 → Prop) (c : Str) (n : Nat) (b : Bridged) : Prop where
  last : allowed b.client.lastAckSequence
  queue : ∀ payload ∈ b.client.writeQueue, Fair allowed c payload
  waiting : ∀ payload ∈ b.client.pendingAfterHello, Fair allowed c payload
  hello : CrudWebsocketSession.consumerIdOf b.client.hello = c
  started : ∀ payload ∈ b.written.drop n, Fair allowed c payload

/-- What a message hands over: the result it is read as, if it is one. -/
def told (payload : Json) : List CrudResultMessage :=
  match parseCrudResult payload with
  | .ok (some result) => [result]
  | _ => []

theorem mem_told {payload : Json} {result : CrudResultMessage} :
    result ∈ told payload ↔ parseCrudResult payload = .ok (some result) := by
  rw [told]
  split
  next found hfound =>
    rw [hfound, List.mem_singleton]
    constructor
    · rintro rfl
      rfl
    · exact fun h => (Option.some.inj (Except.ok.inj h)).symm
  next hnone => exact ⟨fun h => absurd h List.not_mem_nil, fun h => absurd h (hnone result)⟩

section
variable {allowed : UInt64 → Prop} {c : Str} {n : Nat} {b b' : Bridged}

theorem Honest.mono {allowed' : UInt64 → Prop} (hmono : ∀ a, allowed a → allowed' a)
    (h : Honest allowed c n b) : Honest allowed' c n b where
  last := hmono _ h.last
  queue payload hmem := (h.queue payload hmem).mono hmono
  waiting payload hmem := (h.waiting payload hmem).mono hmono
  hello := h.hello
  started payload hmem := (h.started payload hmem).mono hmono

/-- What has been started is settled with the next handler. -/
theorem Honest.settle (h : Honest allowed c n b) : Honest allowed c b.written.length b where
  last := h.last
  queue := h.queue
  waiting := h.waiting
  hello := h.hello
  started := by
    rw [List.drop_length]
    exact fun _ hmem => absurd hmem List.not_mem_nil

/-- A handler that changes only what the acks do not depend on. -/
theorem Honest.of_same (h : Honest allowed c n b)
    (hlast : b'.client.lastAckSequence = b.client.lastAckSequence)
    (hqueue : b'.client.writeQueue ⊆ b.client.writeQueue)
    (hwaiting : b'.client.pendingAfterHello ⊆ b.client.pendingAfterHello)
    (hhello : b'.client.hello = b.client.hello) (hwritten : b'.written = b.written) :
    Honest allowed c n b' where
  last := hlast ▸ h.last
  queue payload hmem := h.queue payload (hqueue hmem)
  waiting payload hmem := h.waiting payload (hwaiting hmem)
  hello := hhello ▸ h.hello
  started := hwritten ▸ h.started

/-- The handler ends honest, having handed over what it says. -/
def Hands (allowed : UInt64 → Prop) (c : Str) (n : Nat) (b : Bridged)
    (results : List CrudResultMessage) (_ : Unit) (b' : Bridged) : Prop :=
  Honest allowed c n b' ∧ b'.results = b.results ++ results

end

namespace BridgeClient

open BridgeSystem (ends_reading)

section
variable {allowed : UInt64 → Prop} {c : Str} {n : Nat} {b b' : Bridged}

theorem honest_doWrite (h : Honest allowed c n b) :
    Ends doWrite b (Hands allowed c n b []) := by
  refine Ends.bind (Ends.get (Ends.ite (fun _ => ?_) fun _ => ?_))
  · exact Ends.pure ⟨h, (List.append_nil _).symm⟩
  · refine Ends.modify ⟨⟨h.last, h.queue, h.waiting, h.hello, fun payload hmem => ?_⟩,
      (List.append_nil _).symm⟩
    rw [List.drop_append] at hmem
    rcases List.mem_append.mp hmem with hmem | hmem
    · exact h.started payload hmem
    · -- The front of the queue is what is written.
      have hfront := Option.mem_toList.mp (List.mem_of_mem_drop hmem)
      exact h.queue payload (List.mem_of_mem_head? hfront)

theorem honest_enqueueText (h : Honest allowed c n b) {payload : Json}
    (hfair : Fair allowed c payload) :
    Ends (enqueueText payload) b (Hands allowed c n b []) := by
  have hqueued : Honest allowed c n
      { b with client := { b.client with writeQueue := b.client.writeQueue ++ [payload] } } := by
    refine ⟨h.last, fun payload' hmem => ?_, h.waiting, h.hello, h.started⟩
    rcases List.mem_append.mp hmem with hmem | hmem
    · exact h.queue payload' hmem
    · rw [List.mem_singleton.mp hmem]
      exact hfair
  refine Ends.bind (Ends.get (Ends.bind (Ends.modify (Ends.ite (fun _ => ?_) fun _ => ?_))))
  · exact honest_doWrite hqueued
  · exact Ends.pure ⟨hqueued, (List.append_nil _).symm⟩

theorem honest_enqueueJson (h : Honest allowed c n b) {payload : Json}
    (hfair : Fair allowed c payload) :
    Ends (enqueueJson payload) b (Hands allowed c n b []) :=
  Ends.ite (fun _ => honest_enqueueText h hfair) fun _ => Ends.throw

theorem honest_onWritten (h : Honest allowed c n b) :
    Ends onWritten b (Hands allowed c n b []) := by
  refine Ends.bind (Ends.get (Ends.ite (fun _ => ?_) fun _ => ?_))
  · exact Ends.pure ⟨h, (List.append_nil _).symm⟩
  · have htail : Honest allowed c n
        { b with client := { b.client with writeQueue := b.client.writeQueue.tail } } :=
      h.of_same rfl (List.tail_subset _) (List.Subset.refl _) rfl rfl
    refine Ends.bind (Ends.modify (Ends.bind (Ends.get (Ends.ite (fun _ => ?_) fun _ => ?_))))
    · exact Ends.pure ⟨htail, (List.append_nil _).symm⟩
    · exact honest_doWrite htail

theorem honest_scheduleReconnect (h : Honest allowed c n b) (reason : String) :
    Ends (scheduleReconnect reason) b (Hands allowed c n b []) := by
  refine Ends.bind (Ends.get (Ends.ite (fun _ => ?_) fun _ => ?_))
  · exact Ends.pure ⟨h, (List.append_nil _).symm⟩
  · refine Ends.bind (Ends.modify (Ends.bind (Ends.modify (Ends.modify ?_))))
    refine ⟨h.of_same rfl ?_ ?_ rfl rfl, (List.append_nil _).symm⟩
    · exact List.Subset.refl _
    · exact List.Subset.refl _

theorem honest_startConnect (h : Honest allowed c n b) :
    Ends startConnect b (Hands allowed c n b []) := by
  refine Ends.bind (Ends.get (Ends.ite (fun _ => ?_) fun _ => ?_))
  · exact Ends.pure ⟨h, (List.append_nil _).symm⟩
  · refine Ends.modify ⟨h.of_same rfl ?_ ?_ rfl rfl, (List.append_nil _).symm⟩
    · exact List.nil_subset _
    · exact List.Subset.refl _

theorem honest_onHandshake (hzero : allowed 0) (h : Honest allowed c n b) :
    Ends onHandshake b (Hands allowed c n b []) := by
  refine Ends.bind (Ends.get (Ends.ite (fun _ => ?_) fun _ => ?_))
  · exact Ends.pure ⟨h, (List.append_nil _).symm⟩
  · have hdone : Honest allowed c n
        { b with client := { b.client with handshakeComplete := true } } :=
      h.of_same rfl (List.Subset.refl _) (List.Subset.refl _) rfl rfl
    refine Ends.bind (Ends.modify (Ends.bind (Ends.get ?_)))
    exact honest_enqueueJson hdone (fair_hello hzero hdone.hello)

theorem honest_flushPendingCommands (h : Honest allowed c n b) :
    Ends flushPendingCommands b (Hands allowed c n b []) := by
  refine Ends.bind (Ends.get (Ends.bind ?_))
  refine (Ends.forM_mem (I := Hands allowed c n b [] ()) (fun payload hmem b' hafter => ?_)
    ⟨h, (List.append_nil _).symm⟩).mono fun _ b' hafter => Ends.modify ⟨?_, hafter.2⟩
  · refine (honest_enqueueText hafter.1 (h.waiting payload hmem)).mono fun _ b'' hnext => ?_
    exact ⟨hnext.1, hnext.2.trans ((List.append_nil _).trans hafter.2)⟩
  · exact hafter.1.of_same rfl (List.Subset.refl _) (List.nil_subset _) rfl rfl

theorem honest_scheduleNextPull (h : Honest allowed c n b) (hadRecords : Bool) :
    Ends (scheduleNextPull hadRecords) b (Hands allowed c n b []) := by
  refine Ends.modify ?_
  dsimp only
  split
  · exact ⟨h, (List.append_nil _).symm⟩
  · refine ⟨h.of_same rfl ?_ ?_ rfl rfl, (List.append_nil _).symm⟩
    · exact List.Subset.refl _
    · exact List.Subset.refl _

/-- The highest sequence is the ack, or the sequence of a record. -/
theorem maxSequence_allowed : ∀ (records : List TransportRecordMessage) {last : UInt64},
    allowed last → (∀ record ∈ records, allowed record.sequence) →
      allowed (maxSequence last records)
  | [], _, hlast, _ => hlast
  | record :: rest, last, hlast, hrecords => by
      have hrest : allowed (max last record.sequence) →
          (∀ record ∈ rest, allowed record.sequence) →
            allowed (maxSequence (max last record.sequence) rest) := maxSequence_allowed rest
      refine hrest ?_ ?_
      · rcases le_total last record.sequence with hle | hle
        · rw [max_eq_right hle]
          exact hrecords record List.mem_cons_self
        · rw [max_eq_left hle]
          exact hlast
      · exact fun record' hmem => hrecords record' (List.mem_cons_of_mem _ hmem)

theorem honest_acknowledge (hzero : allowed 0) (h : Honest allowed c n b)
    {result : CrudResultMessage} (hrecords : ∀ record ∈ result.records, allowed record.sequence) :
    Ends (acknowledge result) b (Hands allowed c n b []) := by
  have hhighest := maxSequence_allowed result.records h.last hrecords
  refine Ends.bind (Ends.get (Ends.ite (fun _ => ?_) fun _ => ?_))
  · refine Ends.bind ((honest_enqueueJson h (fair_ingestAck hzero hhighest)).mono ?_)
    intro _ b' hafter
    refine Ends.modify ⟨⟨hhighest, hafter.1.queue, hafter.1.waiting, hafter.1.hello,
      hafter.1.started⟩, hafter.2⟩
  · exact Ends.pure ⟨h, (List.append_nil _).symm⟩

theorem honest_applyCrudResult (hzero : allowed 0) (h : Honest allowed c n b)
    {result : CrudResultMessage} (hrecords : ∀ record ∈ result.records, allowed record.sequence) :
    Ends (applyCrudResult result) b (Hands allowed c n b [result]) := by
  have htold : Honest allowed c n { b with results := b.results ++ [result] } :=
    h.of_same rfl (List.Subset.refl _) (List.Subset.refl _) rfl rfl
  refine Ends.bind (Ends.modify (Ends.bind ?_))
  refine (honest_acknowledge hzero htold hrecords).mono fun _ b' hacked => ?_
  refine (honest_scheduleNextPull hacked.1 _).mono fun _ b'' hafter => ⟨hafter.1, ?_⟩
  rw [hafter.2, hacked.2, List.append_nil, List.append_nil]

theorem honest_handleHelloAck (h : Honest allowed c n b) (payload : Json) :
    Ends (handleHelloAck payload) b (Hands allowed c n b []) := by
  refine Ends.bind (ends_reading fun found _ => ?_)
  cases found with
  | none => exact honest_scheduleReconnect h _
  | some helloAck =>
      refine Ends.ite (fun _ => honest_scheduleReconnect h _) fun _ => ?_
      refine Ends.bind (Ends.modify (Ends.bind (Ends.modify (Ends.bind ?_))))
      have haccepted : Honest allowed c n
          { b with
            client := { b.client with helloComplete := true, reconnectAttempt := 0 }
            states := b.states ++ [(true, str "connected")] } :=
        h.of_same rfl (List.Subset.refl _) (List.Subset.refl _) rfl rfl
      refine Ends.mono (honest_flushPendingCommands haccepted) ?_
      intro _ b' hafter
      refine Ends.bind (Ends.get (Ends.ite (fun _ => ?_) fun _ => Ends.pure hafter))
      refine (honest_scheduleNextPull hafter.1 false).mono fun _ b'' hnext => ⟨hnext.1, ?_⟩
      exact hnext.2.trans ((List.append_nil _).trans hafter.2)

/-- A message hands over what it tells, and nothing that is not told is acknowledged. -/
theorem honest_handleMessage (hzero : allowed 0) (h : Honest allowed c n b) {payload : Json}
    (hrecords : ∀ result ∈ told payload, ∀ record ∈ result.records, allowed record.sequence)
    (text : Str) :
    Ends (handleMessage (fun _ => some payload) text) b (Hands allowed c n b (told payload)) := by
  have hsilent : told payload = [] →
      Ends (pure () : ClientM Unit) b (Hands allowed c n b (told payload)) := by
    intro hnone
    rw [hnone]
    exact Ends.pure ⟨h, (List.append_nil _).symm⟩
  have hother : ∀ {type : Str}, stringOr payload "type" = .ok type → type ≠ str "crud_result" →
      told payload = [] := by
    intro type htype hne
    rw [told]
    split
    next result hparse =>
      exact absurd (Except.ok.inj (htype.symm.trans (ofType_some hparse).1)) hne
    next => rfl
  refine Ends.ite (fun hobject => hsilent ?_) fun _ => Ends.bind (ends_reading fun type htype => ?_)
  · rw [told, parseCrudResult, ofType, if_pos hobject]
  refine Ends.ite (fun hack => ?_) fun _ => Ends.ite (fun hresult => ?_) fun hneither => ?_
  · rw [hother htype (by rw [hack]; decide)]
    exact honest_handleHelloAck h payload
  · refine Ends.bind (ends_reading fun found hfound => ?_)
    cases found with
    | none =>
        refine hsilent ?_
        rw [told, hfound]
    | some result =>
        have htold : told payload = [result] := by
          rw [told, hfound]
        rw [htold] at hrecords ⊢
        exact honest_applyCrudResult hzero h (hrecords result List.mem_cons_self)
  · exact hsilent (hother htype hneither)

/-- A posted command goes to the queue with the ack it was posted with. -/
theorem honest_postedCommand (hzero : allowed 0) (h : Honest allowed c n b)
    {command : CrudCommandMessage} (hack : allowed command.ackSequence) :
    Ends (postedCommand command) b (Hands allowed c n b []) := by
  refine Ends.bind (Ends.get ?_)
  have hsame : (b.client.core.numbered command).1.ackSequence = command.ackSequence := by
    rw [MuninnWebSocketClient.numbered]
    split
    · rfl
    · rfl
  generalize b.client.core.numbered command = numbered at hsame
  obtain ⟨command', core⟩ := numbered
  have hnumbered : Honest allowed c n
      { b with client := { b.client with requestSequence := core.requestSequence } } :=
    h.of_same rfl (List.Subset.refl _) (List.Subset.refl _) rfl rfl
  refine Ends.bind (Ends.modify (Ends.ite (fun _ => Ends.throw) fun _ => ?_))
  refine Ends.bind (Ends.get (Ends.ite (fun _ => ?_) fun _ => ?_))
  · exact Ends.pure ⟨hnumbered, (List.append_nil _).symm⟩
  · refine honest_enqueueText hnumbered (fair_command hzero ?_)
    rw [show command'.ackSequence = command.ackSequence from hsame]
    exact hack

end

end BridgeClient

end ServerStorage.Hugin
