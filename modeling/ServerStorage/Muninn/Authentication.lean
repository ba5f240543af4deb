/-
# `ServerStorage.Muninn.Authentication` — a session and the hello it goes by

The accepted flag and the consumer of a session change together, and only where a hello is
accepted; so at every point of a conversation they are those of the last accepted hello,
and what a message does to store and replies it does for that consumer.
-/
import ServerStorage.Muninn.Answers

namespace ServerStorage.Muninn

open Lib Lmdb Crud LmdbStore CrudWebsocketSession

/-! ## What a message does -/

/-- The hello a text carries. -/
def helloIn (parse : Str → Option Json) (text : Str) : Option HelloMessage :=
  (parse text).bind fun payload =>
    match parseHello payload with
    | .ok found => found
    | .error _ => none

/-- The consumer a session works for. -/
def CrudWebsocketSession.consumer (session : CrudWebsocketSession) : Option Str :=
  if session.helloAccepted then some session.consumerId else none

/-- The messages queued since. -/
def newReplies (before after : Served) : List Json := after.sent.drop before.sent.length

/-- The reply accepts a hello. -/
def accepts (reply : Json) : Bool :=
  match reply.find (str "accepted") with
  | some (.boolean accepted) => accepted
  | _ => false

/-- What a message carrying the hello (if any) may do to the store, on a session that works
for the consumer: register the hello's consumer, or ack or process a command for its own. -/
inductive StoreEffect (options : CrudServerOptions) (consumer : Option Str)
    (hello : Option HelloMessage) (before : LmdbStore) : LmdbStore → Prop
  | unchanged : StoreEffect options consumer hello before before
  | register {greeting : HelloMessage} (io : List (Option Fault)) :
      hello = some greeting → Admits options greeting →
      StoreEffect options consumer hello before
        (before.registerTransportConsumer (consumerIdOf greeting) io).2
  | ack {c : Str} (sequence : UInt64) (io : List (Option Fault)) : consumer = some c →
      StoreEffect options consumer hello before
        (before.ackTransportUntilForConsumer c sequence io).2
  | command {c : Str} {scan : Str → RawScanResult} {command : CrudCommandMessage}
      {io : CommandIo} {answer : Option CrudResultMessage} {after : LmdbStore} : consumer = some c →
      CrudCommandProcessor.process options scan before command c io = some (answer, after) →
      StoreEffect options consumer hello before after

/-- The records of a reply are a batch of the consumer. -/
def BatchOf (consumer : Option Str) (store : LmdbStore) (reply : Json) : Prop :=
  ∀ items, arrayAt reply "records" = some items → items = [] ∨
    ∃ c maxItems io batch, consumer = some c ∧
      CrudCommandProcessor.appendTransportRecords store c maxItems io = .ok (some batch) ∧
      items = batch.map TransportRecordMessage.toJson

/-- A message acts on store and replies for the consumer alone: beside it, it may put the
consumer of the hello it carries on record. -/
structure ActsFor (options : CrudServerOptions) (consumer : Option Str)
    (hello : Option HelloMessage) (before after : Served) : Prop where
  store : StoreEffect options consumer hello before.store after.store
  acks : ∀ c, some c ≠ consumer →
    storedAck after.store.env c = storedAck before.store.env c ∨
      (hello.map consumerIdOf = some c ∧ storedAck before.store.env c = none ∧
        storedAck after.store.env c = some 0)
  sent : after.sent = before.sent ++ newReplies before after
  records : ∀ reply ∈ newReplies before after, BatchOf consumer after.store reply

/-! ## The store -/

/-- What is done for one consumer. -/
def forConsumer (consumerId : Str) : Guard where
  ack _ _ := True
  enqueue _ := True
  consumer c := c = consumerId

/-- An effect leaves the acks of the other consumers. -/
theorem StoreEffect.acks {options : CrudServerOptions} {consumer : Option Str}
    {hello : Option HelloMessage} {before after : LmdbStore}
    (h : StoreEffect options consumer hello before after) {c : Str} (hc : some c ≠ consumer) :
    storedAck after.env c = storedAck before.env c ∨
      (hello.map consumerIdOf = some c ∧ storedAck before.env c = none ∧
        storedAck after.env c = some 0) := by
  cases h with
  | unchanged => exact .inl rfl
  | @register greeting io hhello hadmits =>
      rcases registerTransportConsumer_writes before (consumerIdOf greeting) io with
        ⟨-, heq⟩ | ⟨-, -, env, ⟨-, ⟨-, rfl⟩ | ⟨hnone, rfl⟩⟩, heq⟩
      · rw [heq]
        exact .inl rfl
      · rw [heq]
        exact .inl rfl
      · rw [heq, storedAck_acked]
        by_cases hname : c = consumerIdOf greeting
        · rw [hname, if_pos rfl]
          exact .inr ⟨by rw [hhello]; rfl, hnone, rfl⟩
        · exact .inl (if_neg hname)
  | @ack c' sequence io hconsumer =>
      have hrun : OutboxRun (forConsumer c') before.env
          (before.ackTransportUntilForConsumer c' sequence io).2.env :=
        ackTransportUntil_run c' sequence io trivial rfl
      exact .inl (hrun.storedAck_eq fun heq : c = c' => hc (heq ▸ hconsumer.symm))
  | @command c' scan command io answer after hconsumer hprocess =>
      have hrun : OutboxRun (forConsumer c') before.env after.env :=
        CrudCommandProcessor.process_run (fun _ => trivial) (fun _ _ _ => trivial) rfl hprocess
      exact .inl (hrun.storedAck_eq fun heq : c = c' => hc (heq ▸ hconsumer.symm))

theorem StoreEffect.eq_of_none {options : CrudServerOptions} {hello : Option HelloMessage}
    {before after : LmdbStore} (h : StoreEffect options none hello before after)
    (hnot : ∀ greeting, hello = some greeting → ¬ Admits options greeting) : after = before := by
  cases h with
  | unchanged => rfl
  | register io hhello hadmits => exact absurd hadmits (hnot _ hhello)
  | ack sequence io hconsumer => cases hconsumer
  | command hconsumer _ => cases hconsumer

/-! ## The replies -/

theorem newReplies_silent {before after : Served} (h : after.sent = before.sent) :
    newReplies before after = [] := by
  rw [newReplies, h, List.drop_length]

theorem newReplies_queued {before served : Served} (h : served.sent = before.sent) (reply : Json) :
    newReplies before (queued served reply).2 = if reply.dumps then [reply] else [] := by
  rw [newReplies, queued_sent, h, List.drop_left]

theorem mem_newReplies_queued {before served : Served} (h : served.sent = before.sent)
    {reply reply' : Json} (hmem : reply' ∈ newReplies before (queued served reply).2) :
    reply' = reply := by
  rw [newReplies_queued h] at hmem
  split at hmem
  · exact List.mem_singleton.mp hmem
  · exact absurd hmem List.not_mem_nil

theorem arrayAt_helloAck (msg : HelloAckMessage) : arrayAt msg.toJson "records" = none := by
  have hfind : msg.toJson.find (str "records") = none := by
    simp (disch := decide) only [HelloAckMessage.toJson, find_cons_of_ne]
    rfl
  rw [arrayAt, hfind]

theorem arrayAt_crudResult (result : CrudResultMessage) :
    arrayAt result.toJson "records" =
      some (result.records.map TransportRecordMessage.toJson) := by
  simp (disch := decide) only [CrudResultMessage.toJson, arrayAt, find_cons_of_ne, find_cons_self]

theorem batchOf_helloAck (consumer : Option Str) (store : LmdbStore) (msg : HelloAckMessage) :
    BatchOf consumer store msg.toJson := fun items h => by
  rw [arrayAt_helloAck] at h
  cases h

theorem batchOf_errorReply (consumer : Option Str) (store : LmdbStore) (requestId message : Str) :
    BatchOf consumer store (errorReply requestId message) := fun items h => by
  rw [errorReply, arrayAt_crudResult] at h
  exact .inl (Option.some.inj h).symm

theorem AnswerTo.batchOf {requestId c : Str} {store : LmdbStore} {result : CrudResultMessage}
    (h : AnswerTo requestId c store result) : BatchOf (some c) store result.toJson := by
  intro items hitems
  rw [arrayAt_crudResult] at hitems
  rw [← Option.some.inj hitems]
  rcases h.records with hnil | ⟨maxItems, io, hbatch⟩
  · rw [hnil]
    exact .inl rfl
  · exact .inr ⟨c, maxItems, io, result.records, rfl, hbatch, rfl⟩

theorem accepts_helloAck (msg : HelloAckMessage) : accepts msg.toJson = msg.accepted := by
  have hfind : msg.toJson.find (str "accepted") = some (.boolean msg.accepted) := by
    simp (disch := decide) only [HelloAckMessage.toJson, find_cons_of_ne, find_cons_self]
  rw [accepts, hfind]

theorem accepts_crudResult (result : CrudResultMessage) : accepts result.toJson = false := by
  have hfind : result.toJson.find (str "accepted") = none := by
    simp (disch := decide) only [CrudResultMessage.toJson, find_cons_of_ne]
    rfl
  rw [accepts, hfind]

/-! ## One message -/

theorem consumer_of_accepted {session : CrudWebsocketSession} (h : session.helloAccepted = true) :
    session.consumer = some session.consumerId :=
  if_pos h

section
variable {options : CrudServerOptions} {io : MessageIo} {payload : Json} {served : Served}
  {outcome : Except Escape Unit × Served} {hello : Option HelloMessage}

theorem actsFor_queued {consumer : Option Str} {served' : Served} {reply : Json}
    (hsent : served'.sent = served.sent)
    (hstore : StoreEffect options consumer hello served.store served'.store)
    (hreply : BatchOf consumer served'.store reply) :
    ActsFor options consumer hello served (queued served' reply).2 := by
  have hstore' : StoreEffect options consumer hello served.store
      (queued served' reply).2.store := by
    rw [queued_store]
    exact hstore
  refine ⟨hstore', fun c hc => hstore'.acks hc, ?_, fun reply' hmem => ?_⟩
  · rw [newReplies_queued hsent, queued_sent, hsent]
  rw [mem_newReplies_queued hsent hmem, queued_store]
  exact hreply

theorem actsFor_silent {consumer : Option Str} {after : Served}
    (hsent : after.sent = served.sent)
    (hstore : StoreEffect options consumer hello served.store after.store) :
    ActsFor options consumer hello served after := by
  refine ⟨hstore, fun c hc => hstore.acks hc, ?_, fun reply hmem => ?_⟩
  · rw [newReplies_silent hsent, hsent, List.append_nil]
  rw [newReplies_silent hsent] at hmem
  exact absurd hmem List.not_mem_nil

theorem CrudWebsocketSession.Dispatches.actsFor
    (h : Dispatches options io payload served outcome)
    (hhello : ∀ greeting, parseHello payload = .ok (some greeting) → hello = some greeting) :
    ActsFor options served.session.consumer hello served outcome.2 := by
  cases h with
  | raised e _ => exact actsFor_silent rfl .unchanged
  | notice message _ _ =>
      exact actsFor_queued rfl .unchanged (batchOf_errorReply _ _ _ _)
  | unauthenticated requestId message _ _ =>
      exact actsFor_queued rfl .unchanged (batchOf_errorReply _ _ _ _)
  | refused reason _ => exact actsFor_queued rfl .unchanged (batchOf_helloAck _ _ _)
  | unregistered greeting reason hparse hadmits _ _ =>
      exact actsFor_queued rfl (.register io.register (hhello greeting hparse) hadmits)
        (batchOf_helloAck _ _ _)
  | welcomed greeting hparse hadmits _ _ =>
      exact actsFor_queued rfl (.register io.register (hhello greeting hparse) hadmits)
        (batchOf_helloAck _ _ _)
  | silent _ => exact actsFor_silent rfl .unchanged
  | acked ack haccepted _ _ =>
      exact actsFor_silent rfl
        (.ack ack.ackSequence io.ingestAck (consumer_of_accepted haccepted))
  | ackFailed ack message haccepted _ _ =>
      exact actsFor_queued rfl
        (.ack ack.ackSequence io.ingestAck (consumer_of_accepted haccepted))
        (batchOf_errorReply _ _ _ _)
  | commanded command result store haccepted _ hprocess _ =>
      have hconsumer := consumer_of_accepted haccepted
      have hanswers := CrudCommandProcessor.process_answersFor hprocess
      refine actsFor_queued rfl (.command hconsumer hprocess) ?_
      rw [hconsumer]
      exact hanswers.batchOf
  | overran command store haccepted _ hprocess _ =>
      exact actsFor_silent rfl (.command (consumer_of_accepted haccepted) hprocess)
  | diverged _ => exact actsFor_silent rfl .unchanged

theorem not_accepts_queued {served' : Served} {reply : Json} (hsent : served'.sent = served.sent)
    (hreply : accepts reply = false) :
    ∀ reply' ∈ newReplies served (queued served' reply).2, accepts reply' = false := by
  intro reply' hmem
  rw [mem_newReplies_queued hsent hmem]
  exact hreply

theorem not_accepts_silent {after : Served} (hsent : after.sent = served.sent) :
    ∀ reply ∈ newReplies served after, accepts reply = false := by
  rw [newReplies_silent hsent]
  exact fun _ hmem => absurd hmem List.not_mem_nil

/-- The session changes where the reply accepts a hello, and becomes that of this hello. -/
theorem CrudWebsocketSession.Dispatches.session_cases
    (h : Dispatches options io payload served outcome) :
    (∃ greeting, parseHello payload = .ok (some greeting) ∧ Admits options greeting ∧
      outcome.2.session = sessionOf greeting ∧ newReplies served outcome.2 = [welcome]) ∨
    (outcome.2.session = served.session ∧
      ∀ reply ∈ newReplies served outcome.2, accepts reply = false) := by
  cases h with
  | raised e _ => exact .inr ⟨rfl, not_accepts_silent rfl⟩
  | notice message _ _ =>
      exact .inr ⟨queued_session .., not_accepts_queued rfl (accepts_crudResult _)⟩
  | unauthenticated requestId message _ _ =>
      exact .inr ⟨queued_session .., not_accepts_queued rfl (accepts_crudResult _)⟩
  | refused reason _ =>
      exact .inr ⟨queued_session .., not_accepts_queued rfl (accepts_helloAck _)⟩
  | unregistered greeting reason _ _ _ _ =>
      exact .inr ⟨queued_session .., not_accepts_queued rfl (accepts_helloAck _)⟩
  | welcomed greeting hparse hadmits _ _ =>
      have hdumps : welcome.dumps = true := by rfl
      refine .inl ⟨greeting, hparse, hadmits, queued_session .., ?_⟩
      exact (newReplies_queued (show _ = served.sent from rfl) welcome).trans (if_pos hdumps)
  | silent _ => exact .inr ⟨rfl, not_accepts_silent rfl⟩
  | acked ack _ _ _ => exact .inr ⟨rfl, not_accepts_silent rfl⟩
  | ackFailed ack message _ _ _ =>
      exact .inr ⟨queued_session .., not_accepts_queued rfl (accepts_crudResult _)⟩
  | commanded command result store _ _ _ _ =>
      exact .inr ⟨queued_session .., not_accepts_queued rfl (accepts_crudResult _)⟩
  | overran command store _ _ _ _ => exact .inr ⟨rfl, not_accepts_silent rfl⟩
  | diverged _ => exact .inr ⟨rfl, not_accepts_silent rfl⟩

end

/-! ## Conversations -/

/-- A text message, what surrounds it, and what else happens to the store before it. -/
structure Incoming where
  between : List StoreOp := []
  io : MessageIo := {}
  text : Str

/-- A session in the course of its messages, with the hello it accepted last. -/
structure Conversation where
  served : Served := {}
  hello : Option HelloMessage := none

/-- The session as the message finds it. -/
def Conversation.before (c : Conversation) (m : Incoming) : Served :=
  { c.served with store := runOps c.served.store m.between }

def Conversation.hear (parse : Str → Option Json) (options : CrudServerOptions) (c : Conversation)
    (m : Incoming) : Conversation :=
  let after := ((handleMessage parse options m.io m.text).run.run (c.before m)).2
  { served := after
    hello := if (newReplies (c.before m) after).any accepts then helloIn parse m.text else c.hello }

/-- A session from its start on. -/
def converse (parse : Str → Option Json) (options : CrudServerOptions) (store : LmdbStore)
    (messages : List Incoming) : Conversation :=
  messages.foldl (Conversation.hear parse options) { served := { store := store } }

/-- The text is a hello with the token, an allowed client instance id and a host id. -/
def Carries (parse : Str → Option Json) (options : CrudServerOptions) (text : Str) : Prop :=
  ∃ hello, helloIn parse text = some hello ∧ hello.authToken = options.bridgeAuthToken ∧
    hello.clientInstanceId ≠ [] ∧
    clientInstanceAllowed options.allowedClientInstanceId hello.clientInstanceId = true ∧
    hello.hostId ≠ []

section
variable {parse : Str → Option Json} {options : CrudServerOptions}

theorem helloIn_eq {text : Str} {payload : Json} (hparse : parse text = some payload)
    {greeting : HelloMessage} (h : parseHello payload = .ok (some greeting)) :
    helloIn parse text = some greeting := by
  rw [helloIn, hparse, Option.bind_some, h]

theorem handleMessage_actsFor (io : MessageIo) (text : Str) (served : Served) :
    ActsFor options served.session.consumer (helloIn parse text) served
      ((handleMessage parse options io text).run.run served).2 := by
  rcases handleMessage_dispatches parse text with ⟨-, heq⟩ | ⟨payload, hparse, -, hends⟩
  · rw [heq]
    exact actsFor_queued rfl .unchanged (batchOf_errorReply _ _ _ _)
  · exact hends.actsFor fun _ h => helloIn_eq hparse h

theorem handleMessage_session (io : MessageIo) (text : Str) (served : Served) :
    (∃ greeting, helloIn parse text = some greeting ∧ Admits options greeting ∧
      ((handleMessage parse options io text).run.run served).2.session = sessionOf greeting ∧
      newReplies served ((handleMessage parse options io text).run.run served).2 = [welcome]) ∨
    (((handleMessage parse options io text).run.run served).2.session = served.session ∧
      ∀ reply ∈ newReplies served ((handleMessage parse options io text).run.run served).2,
        accepts reply = false) := by
  rcases handleMessage_dispatches parse text with ⟨-, heq⟩ | ⟨payload, hparse, -, hends⟩
  · rw [heq]
    exact .inr ⟨queued_session .., not_accepts_queued rfl (accepts_crudResult _)⟩
  · rcases hends.session_cases with ⟨greeting, hhello, hrest⟩ | hsame
    · exact .inl ⟨greeting, helloIn_eq hparse hhello, hrest⟩
    · exact .inr hsame

/-- The session is the one of the last accepted hello. -/
def Conversation.Consistent (c : Conversation) : Prop :=
  c.served.session = c.hello.elim {} sessionOf

theorem Conversation.Consistent.consumer {c : Conversation} (h : c.Consistent) :
    c.served.session.consumer = c.hello.map consumerIdOf := by
  rw [Consistent] at h
  rw [h]
  cases c.hello with
  | none => rfl
  | some greeting => rfl

theorem Conversation.Consistent.hear {c : Conversation} (h : c.Consistent) (m : Incoming) :
    (c.hear parse options m).Consistent := by
  rw [Consistent, Conversation.hear]
  dsimp only
  rcases handleMessage_session m.io m.text (c.before m) with
    ⟨greeting, hhello, -, hsession, hreplies⟩ | ⟨hsession, hreplies⟩
  · have hwelcome : accepts welcome = true := accepts_helloAck _
    rw [hsession, hreplies, List.any_cons, hwelcome, Bool.true_or, if_pos rfl, hhello]
    rfl
  · rw [hsession, if_neg fun hany => ?_]
    · exact h
    · obtain ⟨reply, hmem, haccepts⟩ := List.any_eq_true.mp hany
      exact absurd ((hreplies reply hmem).symm.trans haccepts) Bool.false_ne_true

theorem Conversation.consistent_foldl : ∀ (messages : List Incoming) {c : Conversation},
    c.Consistent → (messages.foldl (Conversation.hear parse options) c).Consistent
  | [], _, h => h
  | m :: rest, _, h => consistent_foldl rest (h.hear m)

/-! ## Before a hello is accepted -/

theorem parseHello_hostId {json : Json} {hello : HelloMessage}
    (h : parseHello json = .ok (some hello)) : hello.hostId ≠ [] := by
  obtain ⟨-, h⟩ := ofType_some h
  obtain ⟨version, -, h⟩ := except_bind_ok.mp h
  obtain ⟨hostId, -, h⟩ := except_bind_ok.mp h
  obtain ⟨clientInstanceId, -, h⟩ := except_bind_ok.mp h
  obtain ⟨authToken, -, h⟩ := except_bind_ok.mp h
  split at h
  · cases h
  next hnot =>
    obtain rfl := Option.some.inj (Except.ok.inj h)
    exact fun hnil => hnot (.inr hnil)

theorem helloIn_hostId {text : Str} {hello : HelloMessage}
    (h : helloIn parse text = some hello) : hello.hostId ≠ [] := by
  obtain ⟨payload, -, h⟩ := Option.bind_eq_some_iff.mp h
  cases hparse : parseHello payload with
  | error e =>
      rw [hparse] at h
      cases h
  | ok found =>
      rw [hparse] at h
      exact parseHello_hostId (hparse.trans (congrArg Except.ok h))

theorem validateBridgeAuthToken_none {hello : HelloMessage}
    (hconfigured : options.bridgeAuthToken ≠ [])
    (h : validateBridgeAuthToken hello options = none) :
    hello.authToken = options.bridgeAuthToken := by
  rw [validateBridgeAuthToken] at h
  split at h
  · cases h
  split at h
  · cases h
  split at h
  · cases h
  next hnot => exact not_not.mp fun hne => hnot ⟨hconfigured, hne⟩

/-- With a token configured, a hello that is let in carries it. -/
theorem carries_of_admits {text : Str} {hello : HelloMessage}
    (hconfigured : options.bridgeAuthToken ≠ []) (hhello : helloIn parse text = some hello)
    (hadmits : Admits options hello) : Carries parse options text :=
  ⟨hello, hhello, validateBridgeAuthToken_none hconfigured hadmits.2.2, hadmits.1, hadmits.2.1,
    helloIn_hostId hhello⟩

/-- A reply without a record. -/
def Recordless (reply : Json) : Prop := ∀ items, arrayAt reply "records" = some items → items = []

theorem BatchOf.recordless {store : LmdbStore} {reply : Json} (h : BatchOf none store reply) :
    Recordless reply := by
  intro items hitems
  rcases h items hitems with hnil | ⟨c, _, _, _, hc, -⟩
  · exact hnil
  · cases hc

/-- A session that has accepted no hello, has sent no record and has left the store. -/
structure Conversation.Unauthenticated (store : LmdbStore) (c : Conversation) : Prop where
  session : c.served.session = {}
  store : c.served.store = store
  sent : ∀ reply ∈ c.served.sent, Recordless reply

theorem Conversation.Unauthenticated.hear {store : LmdbStore} {c : Conversation}
    (h : c.Unauthenticated store) (hconfigured : options.bridgeAuthToken ≠ []) {m : Incoming}
    (hm : ¬ Carries parse options m.text) :
    (c.hear parse options m).Unauthenticated (runOps store m.between) := by
  have hnone : (c.before m).session.consumer = none := by
    rw [show (c.before m).session = {} from h.session]
    rfl
  have hacts : ActsFor options (c.before m).session.consumer (helloIn parse m.text) (c.before m)
      (c.hear parse options m).served := handleMessage_actsFor m.io m.text (c.before m)
  rw [hnone] at hacts
  refine ⟨?_, ?_, fun reply hmem => ?_⟩
  · rcases handleMessage_session m.io m.text (c.before m) with
      ⟨greeting, hhello, hadmits, -⟩ | ⟨hsession, -⟩
    · exact absurd (carries_of_admits hconfigured hhello hadmits) hm
    · exact hsession.trans h.session
  · rw [hacts.store.eq_of_none fun _ hhello hadmits =>
      hm (carries_of_admits hconfigured hhello hadmits)]
    exact congrArg (runOps · m.between) h.store
  · rcases List.mem_append.mp (hacts.sent ▸ hmem) with hold | hnew
    · exact h.sent reply hold
    · exact (hacts.records reply hnew).recordless

theorem Conversation.unauthenticated_foldl (hconfigured : options.bridgeAuthToken ≠ []) :
    ∀ (messages : List Incoming) {store : LmdbStore} {c : Conversation},
      c.Unauthenticated store → (∀ m ∈ messages, ¬ Carries parse options m.text) →
        (messages.foldl (Conversation.hear parse options) c).Unauthenticated
          (runOps store (messages.flatMap Incoming.between))
  | [], _, _, h, _ => h
  | m :: rest, _, _, h, hnone => by
      obtain ⟨hm, hrest⟩ := List.forall_mem_cons.mp hnone
      rw [List.flatMap_cons, runOps_append]
      exact unauthenticated_foldl hconfigured rest (h.hear hconfigured hm) hrest

end

/-! ## The result -/

/-- As long as no message is a hello with the token, the store is what the rest of the
server makes of it and no record is sent; and at every point of every conversation, a
message acts for the consumer of the last accepted hello alone. -/
theorem acts_for_accepted_hello (parse : Str → Option Json) (options : CrudServerOptions)
    (store : LmdbStore) (messages : List Incoming) :
    (options.bridgeAuthToken ≠ [] → (∀ m ∈ messages, ¬ Carries parse options m.text) →
      (converse parse options store messages).served.store =
          runOps store (messages.flatMap Incoming.between) ∧
        ∀ reply ∈ (converse parse options store messages).served.sent, Recordless reply) ∧
    ∀ m : Incoming, ActsFor options
      ((converse parse options store messages).hello.map consumerIdOf) (helloIn parse m.text)
      ((converse parse options store messages).before m)
      ((converse parse options store messages).hear parse options m).served := by
  constructor
  · intro hconfigured hnone
    have hstart : Conversation.Unauthenticated store { served := { store := store } } :=
      ⟨rfl, rfl, fun _ hmem => absurd hmem List.not_mem_nil⟩
    have hend := Conversation.unauthenticated_foldl hconfigured messages hstart hnone
    exact ⟨hend.store, hend.sent⟩
  · intro m
    have hstart : Conversation.Consistent { served := { store := store } } := rfl
    have hconsistent : (converse parse options store messages).Consistent :=
      Conversation.consistent_foldl messages hstart
    rw [show (converse parse options store messages).hello.map consumerIdOf =
      ((converse parse options store messages).before m).session.consumer from
        hconsistent.consumer.symm]
    exact handleMessage_actsFor m.io m.text _

/-- A server with a token. -/
def guarded : CrudServerOptions := { bridgeAuthToken := str "token" }

/-- A hello without it, on a session that then asks for records. -/
def intruding : List Incoming :=
  [{ text := str "hello" }, { text := str "read", between := [newRecord] }]

def readCommand : CrudCommandMessage := { requestId := str "r" }

/-- The parser as far as these texts go. -/
def parseIntruding (text : Str) : Option Json :=
  if text = str "hello" then some bridgeHello.toJson
  else if text = str "read" then some readCommand.toJson
  else none

theorem acts_for_accepted_hello_intruding :
    (converse parseIntruding guarded {} intruding).served.store = runOps {} [newRecord] ∧
      ∀ reply ∈ (converse parseIntruding guarded {} intruding).served.sent, Recordless reply := by
  refine (acts_for_accepted_hello parseIntruding guarded {} intruding).1 (by decide) fun m hm => ?_
  have hhello : helloIn parseIntruding (str "hello") = some bridgeHello := by rfl
  have hread : helloIn parseIntruding (str "read") = none := by rfl
  rintro ⟨hello, hhello', htoken, -⟩
  rcases List.mem_cons.mp hm with rfl | hm
  · rw [hhello] at hhello'
    rw [← Option.some.inj hhello'] at htoken
    exact absurd htoken (by decide)
  · rw [List.mem_singleton.mp hm, hread] at hhello'
    cases hhello'

end ServerStorage.Muninn
