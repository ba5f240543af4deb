/-
# `ServerStorage.Hugin.Link` — Muninn and one bridge, with everything between them

The store of Muninn, the sessions the bridge has had with it, the messages on their way and
the bridge client, in any order of their steps: either side may lose the connection at any
time, the bridge may be started anew, and Muninn goes on working for others.  The outbox is
acknowledged up to a point only when the bridge has handed over all that it held up to
there; so no record is lost, and none is handed over that the outbox never held.
-/
import ServerStorage.Hugin.AckPath

namespace ServerStorage.Hugin

open Lib Lmdb Crud ServerStorage.Muninn

/-! ## The system -/

/-- A session of Muninn with the bridge, and the two directions of its connection.  A
message stands here as the value its text was made of. -/
structure Peer where
  session : CrudWebsocketSession := {}
  /-- What the bridge has begun to write and the session has not handled. -/
  inbox : List Json := []
  /-- What the session has put into its queue and the bridge has not read. -/
  downlink : List Json := []
  closed : Bool := false

structure Link where
  store : LmdbStore := {}
  /-- The newest first: the bridge reads from it and writes to it. -/
  peers : List Peer := []
  bridge : BridgeSystem
  /-- What earlier processes of the bridge have handed over. -/
  past : List TransportRecordMessage := []

inductive LinkEvent where
  /-- What Muninn does besides serving the bridge. -/
  | other (op : StoreOp)
  /-- A session handles the next message of its inbox. -/
  | serve (i : Nat) (io : MessageIo)
  /-- A session ends, whatever it has not handled. -/
  | lose (i : Nat)
  | client (event : BridgeEvent)
  /-- The bridge reads the next message. -/
  | receive
  | restart

namespace Link

/-- What was handed over to `on_result_`. -/
def delivered (s : Link) : List TransportRecordMessage :=
  s.past ++ s.bridge.bridged.results.flatMap CrudResultMessage.records

def feed (s : Link) (c : Str) : Feed UInt64 Str := Muninn.feed s.store.env c s.delivered

/-- The bridge after one of its handlers: what it has begun to write goes to the newest
session. -/
def passes (s : Link) (bridge : BridgeSystem) : Link :=
  { s with
    bridge := bridge
    peers := s.peers.modifyHead fun peer =>
      { peer with
        inbox := peer.inbox ++ bridge.bridged.written.drop s.bridge.bridged.written.length } }

/-- A session after the message it has handled. -/
def served (s : Link) (options : CrudServerOptions) (io : MessageIo) (peer : Peer)
    (payload : Json) : Served :=
  ((CrudWebsocketSession.handleMessage (fun _ => some payload) options io []).run.run
    { session := peer.session, store := s.store }).2

/-- The event is about a message that is read. -/
def reading : BridgeEvent → Bool
  | .message _ => true
  | _ => false

/-- A handshake opens a session. -/
def opens (s : Link) : BridgeEvent → Link
  | .handshakes => { s with peers := {} :: s.peers }
  | _ => s

section
variable (options : CrudServerOptions) (clientOptions : MuninnClientOptions) (hello : HelloMessage)

def step (s : Link) : LinkEvent → Option Link
  | .other op => some { s with store := op.run s.store }
  | .serve i io =>
      match s.peers[i]? with
      | none => none
      | some peer =>
          match peer.inbox with
          | [] => none
          | payload :: rest =>
              if peer.closed then none
              else
                let after := s.served options io peer payload
                some
                  { s with
                    store := after.store
                    peers := s.peers.set i
                      { session := after.session
                        inbox := rest
                        downlink := peer.downlink ++ after.sent } }
  | .lose i =>
      match s.peers[i]? with
      | none => none
      | some peer => some { s with peers := s.peers.set i { peer with closed := true } }
  | .client event =>
      if reading event then none
      else (BridgeSystem.step (fun _ => none) s.bridge event).map (s.opens event).passes
  | .receive =>
      match s.peers with
      | [] => none
      | peer :: older =>
          match peer.downlink with
          | [] => none
          | payload :: rest =>
              (BridgeSystem.step (fun _ => some payload) s.bridge (.message [])).map
                { s with peers := { peer with downlink := rest } :: older }.passes
  | .restart =>
      some { s with bridge := BridgeSystem.started clientOptions hello, past := s.delivered }

def started : Link := { bridge := BridgeSystem.started clientOptions hello }

end

/-- There is room in the counter for what one step may enqueue. -/
def room (s : Link) : Bool := decide ((nextSequenceOf s.store.env).toNat + 2 < 2 ^ 64)

/-- The step is none that acknowledges for the bridge what it was not handed: nobody else
uses its consumer id, and a command that is submitted carries no ack beyond the bridge's
own. -/
def modest (c : Str) (s : Link) : LinkEvent → Bool
  | .other op => op.spares c && s.room
  | .serve _ _ => s.room
  | .client (.submit command) => decide (command.ackSequence ≤ s.bridge.client.lastAckSequence)
  | .client (.requestRead ackSequence) => decide (ackSequence ≤ s.bridge.client.lastAckSequence)
  | _ => true

end Link

/-! ## The bridge -/

/-- All that is under way in the bridge is fair. -/
structure Upright (allowed : UInt64 → Prop) (c : Str) (s : BridgeSystem) : Prop where
  honest : Honest allowed c s.bridged.written.length s.bridged
  posted : ∀ command ∈ s.posted, allowed command.ackSequence

/-- A step of the bridge from `s` that hands over the results. -/
structure Stepped (allowed : UInt64 → Prop) (c : Str) (s : BridgeSystem)
    (results : List CrudResultMessage) (s' : BridgeSystem) : Prop where
  honest : Honest allowed c s.bridged.written.length s'.bridged
  posted : ∀ command ∈ s'.posted, allowed command.ackSequence
  results : s'.bridged.results = s.bridged.results ++ results

section
variable {allowed allowed' : UInt64 → Prop} {c : Str} {s s' : BridgeSystem}
  {results : List CrudResultMessage}

theorem Upright.mono (hmono : ∀ a, allowed a → allowed' a) (h : Upright allowed c s) :
    Upright allowed' c s where
  honest := h.honest.mono hmono
  posted command hmem := hmono _ (h.posted command hmem)

theorem Stepped.upright (h : Stepped allowed c s results s') : Upright allowed c s' :=
  ⟨h.honest.settle, h.posted⟩

/-- A step that hands nothing over and writes nothing. -/
theorem Upright.still (h : Upright allowed c s) (hbridged : s'.bridged = s.bridged)
    (hposted : s'.posted ⊆ s.posted) : Stepped allowed c s [] s' where
  honest := hbridged ▸ h.honest
  posted command hmem := h.posted command (hposted hmem)
  results := by rw [hbridged, List.append_nil]

/-- A step that runs one handler, from a state with the client and the writes of `s`. -/
theorem Upright.handled (h : Upright allowed c s) {mid : BridgeSystem} {handler : ClientM Unit}
    (hstep : mid.handle handler = some s') (hmid : mid.bridged.results = s.bridged.results)
    (hposted : mid.posted ⊆ s.posted)
    (hends : Ends handler mid.bridged
      (Hands allowed c s.bridged.written.length mid.bridged results)) :
    Stepped allowed c s results s' := by
  obtain ⟨⟨hhonest, hresults⟩, hs'⟩ := BridgeSystem.handle_some hstep hends
  refine ⟨hhonest, ?_, hresults.trans (by rw [hmid])⟩
  rw [hs']
  exact fun command hmem => h.posted command (hposted hmem)

/-- Starting the next read changes nothing of this. -/
theorem Stepped.doRead {mid : BridgeSystem} (h : Stepped allowed c s results mid)
    (hread : mid.doRead = s') : Stepped allowed c s results s' := by
  subst hread
  rw [BridgeSystem.doRead]
  split
  · exact h
  · exact ⟨h.honest, h.posted, h.results⟩

theorem Upright.submit (h : Upright allowed c s) (client : BridgeClient)
    (hclient : client.lastAckSequence = s.client.lastAckSequence ∧
      client.writeQueue = s.client.writeQueue ∧
      client.pendingAfterHello = s.client.pendingAfterHello ∧ client.hello = s.client.hello)
    (command : CrudCommandMessage) (hack : allowed command.ackSequence) :
    Stepped allowed c s [] ((s.setClient client).submit command) where
  honest := by
    obtain ⟨hlast, hqueue, hwaiting, hhello⟩ := hclient
    refine h.honest.of_same hlast ?_ ?_ hhello rfl
    · exact fun payload hmem => hqueue ▸ hmem
    · exact fun payload hmem => hwaiting ▸ hmem
  posted command' hmem := by
    rcases List.mem_append.mp hmem with hmem | hmem
    · exact h.posted command' hmem
    · have hsubmit := Option.mem_toList.mp hmem
      rw [MuninnWebSocketClient.submitCommand] at hsubmit
      split at hsubmit
      · cases hsubmit
      · split at hsubmit
        · cases hsubmit
        · split at hsubmit
          · obtain rfl := Option.some.inj hsubmit
            exact hack
          · obtain rfl := Option.some.inj hsubmit
            exact hack
  results := (List.append_nil _).symm

theorem Upright.requestRead (h : Upright allowed c s) (ackSequence : UInt64)
    (hack : allowed ackSequence) : Stepped allowed c s [] (s.requestRead ackSequence) :=
  h.submit (s.client.readCommand ackSequence).2 ⟨rfl, rfl, rfl, rfl⟩
    (s.client.readCommand ackSequence).1 hack

theorem Upright.reconnecting (h : Upright allowed c s) {mid : BridgeSystem} {reason : String}
    (hstep : mid.handle (BridgeClient.scheduleReconnect reason) = some s')
    (hbridged : mid.bridged = s.bridged) (hposted : mid.posted ⊆ s.posted) :
    Stepped allowed c s [] s' := by
  refine h.handled hstep (congrArg Bridged.results hbridged) hposted ?_
  rw [hbridged]
  exact BridgeClient.honest_scheduleReconnect h.honest reason

/-- **A step of the bridge** that reads no message hands nothing over; what it writes and
posts acknowledges nothing new. -/
theorem Upright.step (h : Upright allowed c s) (hzero : allowed 0) {event : BridgeEvent}
    (hevent : Link.reading event = false)
    (hsubmit : ∀ command, event = .submit command → allowed command.ackSequence)
    (hrequest : ∀ ackSequence, event = .requestRead ackSequence → allowed ackSequence)
    {parse : Str → Option Json} (hstep : BridgeSystem.step parse s event = some s') :
    Stepped allowed c s [] s' := by
  cases event with
  | message text => cases hevent
  | connectFails reason =>
      obtain ⟨_, hstep⟩ := Option.ite_none_right_eq_some.mp hstep
      exact h.reconnecting hstep rfl (List.Subset.refl _)
  | handshakes =>
      obtain ⟨_, hstep⟩ := Option.ite_none_right_eq_some.mp hstep
      rw [BridgeSystem.onHandshakeComplete] at hstep
      split at hstep
      · obtain rfl := Option.some.inj hstep
        exact h.still rfl (List.Subset.refl _)
      · obtain ⟨mid, hmid, hread⟩ := Option.map_eq_some_iff.mp hstep
        have hhandled := h.handled hmid rfl (List.Subset.refl _)
          (BridgeClient.honest_onHandshake hzero h.honest)
        exact hhandled.doRead hread
  | readFails closed =>
      obtain ⟨_, hstep⟩ := Option.ite_none_right_eq_some.mp hstep
      exact h.reconnecting hstep rfl (List.Subset.refl _)
  | writeCompletes failed =>
      obtain ⟨_, hstep⟩ := Option.ite_none_left_eq_some.mp hstep
      split at hstep
      · exact h.reconnecting hstep rfl (List.Subset.refl _)
      · exact h.handled hstep rfl (List.Subset.refl _) (BridgeClient.honest_onWritten h.honest)
  | pullExpires =>
      obtain ⟨_, hstep⟩ := Option.ite_none_right_eq_some.mp hstep
      obtain rfl := Option.some.inj hstep
      refine ⟨h.honest.of_same rfl ?_ ?_ rfl rfl, h.posted, (List.append_nil _).symm⟩
      · exact List.Subset.refl _
      · exact List.Subset.refl _
  | pull =>
      obtain ⟨_, hstep⟩ := Option.ite_none_left_eq_some.mp hstep
      obtain rfl := Option.some.inj hstep
      rw [BridgeSystem.onPull]
      split
      · exact h.still rfl (List.Subset.refl _)
      · have hsame : Upright allowed c { s with pulls := s.pulls - 1 } := ⟨h.honest, h.posted⟩
        have hread := hsame.requestRead s.client.lastAckSequence h.honest.last
        exact ⟨hread.honest, hread.posted, hread.results⟩
  | submit command =>
      obtain rfl := Option.some.inj hstep
      exact h.submit s.client ⟨rfl, rfl, rfl, rfl⟩ command (hsubmit command rfl)
  | requestRead ackSequence =>
      obtain rfl := Option.some.inj hstep
      exact h.requestRead ackSequence (hrequest ackSequence rfl)
  | runPosted i =>
      rw [BridgeSystem.step] at hstep
      split at hstep
      next command hcommand =>
        have hack := h.posted command (List.mem_of_getElem? hcommand)
        exact h.handled hstep rfl (List.eraseIdx_subset)
          (BridgeClient.honest_postedCommand hzero h.honest hack)
      next => cases hstep
  | reconnectExpires =>
      obtain ⟨_, hstep⟩ := Option.ite_none_right_eq_some.mp hstep
      obtain ⟨mid, hmid, rfl⟩ := Option.map_eq_some_iff.mp hstep
      have hsame : Honest allowed c s.bridged.written.length
          (s.setClient { s.client with reconnectTimer := false }).bridged := by
        refine h.honest.of_same rfl ?_ ?_ rfl rfl
        · exact List.Subset.refl _
        · exact List.Subset.refl _
      have hhandled := h.handled hmid rfl (List.Subset.refl _)
        (BridgeClient.honest_startConnect hsame)
      exact ⟨hhandled.honest, hhandled.posted, hhandled.results⟩

/-- A message hands over no more than it tells; handing it over allows its sequences. -/
theorem Upright.message (h : Upright allowed c s) (hzero : allowed 0) {payload : Json}
    {text : Str} (hstep : BridgeSystem.step (fun _ => some payload) s (.message text) = some s') :
    ∃ results, results ⊆ told payload ∧
      ∀ allowed' : UInt64 → Prop, (∀ a, allowed a → allowed' a) →
        (∀ result ∈ results, ∀ record ∈ result.records, allowed' record.sequence) →
        Stepped allowed' c s results s' := by
  obtain ⟨_, hstep⟩ := Option.ite_none_right_eq_some.mp hstep
  rw [BridgeSystem.onMessage] at hstep
  split at hstep
  · obtain rfl := Option.some.inj hstep
    exact ⟨[], List.nil_subset _, fun allowed' hmono _ =>
      (h.mono hmono).still rfl (List.Subset.refl _)⟩
  · obtain ⟨mid, hmid, hread⟩ := Option.map_eq_some_iff.mp hstep
    refine ⟨told payload, List.Subset.refl _, fun allowed' hmono hrecords => ?_⟩
    have hmore := h.mono hmono
    have hhandled := hmore.handled hmid rfl (List.Subset.refl _)
      (BridgeClient.honest_handleMessage (hmono 0 hzero) hmore.honest hrecords text)
    exact hhandled.doRead hread

end

/-! ## The invariant -/

/-- What is under way between a session and the bridge, `seen` being the records the outbox
has held. -/
structure PeerFair (env : Env Dbi) (c : Str) (delivered : List TransportRecordMessage)
    (seen : TransportRecordMessage → Prop) (peer : Peer) : Prop where
  consumer : peer.session.helloAccepted = true → peer.session.consumerId = c
  inbox : ∀ payload ∈ peer.inbox, Fair (feed env c delivered).Covered c payload
  downlink : ∀ reply ∈ peer.downlink, ∀ result ∈ told reply,
    Brings env c delivered result.records ∧ ∀ message ∈ result.records, seen message

structure Linked (c : Str) (seen : TransportRecordMessage → Prop) (s : Link) : Prop where
  numbered : Numbered s.store.env
  sound : (s.feed c).Sound
  bridge : Upright (s.feed c).Covered c s.bridge
  peers : ∀ peer ∈ s.peers, PeerFair s.store.env c s.delivered seen peer
  delivered : ∀ message ∈ s.delivered, seen message

section
variable {env env' : Env Dbi} {c : Str} {delivered delivered' : List TransportRecordMessage}
  {seen seen' : TransportRecordMessage → Prop} {peer : Peer} {s : Link}

theorem PeerFair.later (h : PeerFair env c delivered seen peer)
    (honward : Feed.Onward (feed env c delivered) (feed env' c delivered))
    (hsub : delivered ⊆ delivered') (hseen : ∀ message, seen message → seen' message) :
    PeerFair env' c delivered' seen' peer where
  consumer := h.consumer
  inbox payload hmem := (h.inbox payload hmem).mono fun _ ha =>
    ha.onward (feed_onward honward hsub)
  downlink reply hreply result hresult := by
    obtain ⟨hbrings, hfrom⟩ := h.downlink reply hreply result hresult
    refine ⟨fun record hrecord => (hbrings record hrecord).onward (feed_onward honward ?_),
      fun message hmem => hseen message (hfrom message hmem)⟩
    exact List.append_subset.mpr ⟨fun m hm => List.mem_append_left _ (hsub hm),
      List.subset_append_right _ _⟩

theorem Linked.mono (hseen : ∀ message, seen message → seen' message) (h : Linked c seen s) :
    Linked c seen' s where
  numbered := h.numbered
  sound := h.sound
  bridge := h.bridge
  peers peer hmem := (h.peers peer hmem).later (Feed.Onward.refl _) (List.Subset.refl _) hseen
  delivered message hmem := hseen message (h.delivered message hmem)

/-- Muninn works on its store. -/
theorem Linked.stored (h : Linked c seen s) {store : LmdbStore}
    (hrun : (s.feed c).Run (feed store.env c s.delivered)) (hnumbered : Numbered store.env)
    (hseen : ∀ message, seen message → seen' message) :
    Linked c seen' { s with store := store } where
  numbered := hnumbered
  sound := h.sound.run hrun
  bridge := h.bridge.mono fun _ ha => ha.onward hrun.onward
  peers peer hmem := (h.peers peer hmem).later hrun.onward (List.Subset.refl _) hseen
  delivered message hmem := hseen message (h.delivered message hmem)

/-- One session is put for another. -/
theorem Linked.setPeer (h : Linked c seen s) {i : Nat} {peer : Peer}
    (hpeer : PeerFair s.store.env c s.delivered seen peer) :
    Linked c seen { s with peers := s.peers.set i peer } where
  numbered := h.numbered
  sound := h.sound
  bridge := h.bridge
  peers other hmem := by
    rcases List.mem_or_eq_of_mem_set hmem with hmem | rfl
    · exact h.peers other hmem
    · exact hpeer
  delivered := h.delivered

/-- The bridge makes a step in which it hands over the results. -/
theorem Linked.passes (h : Linked c seen s) {results : List CrudResultMessage}
    {bridge : BridgeSystem}
    (hstepped : Stepped
      (feed s.store.env c (s.delivered ++ results.flatMap CrudResultMessage.records)).Covered c
      s.bridge results bridge)
    (hresults : ∀ result ∈ results, ∀ message ∈ result.records, seen message) :
    Linked c seen (s.passes bridge) ∧ (s.feed c).Run ((s.passes bridge).feed c) := by
  have hdelivered : (s.passes bridge).delivered =
      s.delivered ++ results.flatMap CrudResultMessage.records := by
    show s.past ++ bridge.bridged.results.flatMap CrudResultMessage.records = _
    rw [hstepped.results, List.flatMap_append, ← List.append_assoc]
    rfl
  have hsub : s.delivered ⊆ (s.passes bridge).delivered := by
    rw [hdelivered]
    exact List.subset_append_left _ _
  rw [← hdelivered] at hstepped
  have hhand : (s.feed c).Run ((s.passes bridge).feed c) :=
    .single (.hand fun _ _ hhanded => hhanded.mono hsub)
  refine ⟨⟨h.numbered, h.sound.run hhand, hstepped.upright, fun peer hmem => ?_,
    fun message hmem => ?_⟩, hhand⟩
  · have hlater : ∀ peer ∈ s.peers,
        PeerFair s.store.env c (s.passes bridge).delivered seen peer := fun peer hmem =>
      (h.peers peer hmem).later (Feed.Onward.refl _) hsub fun _ hseen => hseen
    change peer ∈ s.peers.modifyHead _ at hmem
    cases hpeers : s.peers with
    | nil =>
        rw [hpeers] at hmem
        cases hmem
    | cons newest older =>
        rw [hpeers] at hmem hlater
        rcases List.mem_cons.mp hmem with rfl | hmem
        · have hnewest := hlater newest List.mem_cons_self
          refine ⟨hnewest.consumer, fun payload hpayload => ?_, hnewest.downlink⟩
          rcases List.mem_append.mp hpayload with hbefore | hstarted
          · exact hnewest.inbox payload hbefore
          · exact hstepped.honest.started payload hstarted
        · exact hlater peer (List.mem_cons_of_mem _ hmem)
  · rw [hdelivered] at hmem
    rcases List.mem_append.mp hmem with hmem | hmem
    · exact h.delivered message hmem
    · obtain ⟨result, hresult, hrecord⟩ := List.mem_flatMap.mp hmem
      exact hresults result hresult message hrecord

variable {options : CrudServerOptions} {clientOptions : MuninnClientOptions}
  {hello : HelloMessage} {s' : Link}

theorem Linked.serve (h : Linked c seen s) {i : Nat} {io : MessageIo}
    (hseen : ∀ message, seen message → seen' message)
    (hnew : ∀ message, FromOutbox s'.store.env message → seen' message)
    (hroom : s.room = true) (hstep : Link.step options clientOptions hello s (.serve i io) = some s') :
    Linked c seen' s' ∧ (s.feed c).Run (s'.feed c) := by
  rw [Link.step] at hstep
  split at hstep
  next => cases hstep
  next peer hpeer =>
    have hfair := h.peers peer (List.mem_of_getElem? hpeer)
    split at hstep
    next => cases hstep
    next payload rest hinbox =>
      obtain ⟨_, hstep⟩ := Option.ite_none_left_eq_some.mp hstep
      obtain rfl := Option.some.inj hstep
      have hmem : payload ∈ peer.inbox := by
        rw [hinbox]
        exact List.mem_cons_self
      have hserved : CrudWebsocketSession.FeedServed c s.delivered s.store.env []
          (s.served options io peer payload) :=
        @CrudWebsocketSession.handleMessage_feeds c s.delivered
          { session := peer.session, store := s.store } options io payload h.numbered h.sound
          (of_decide_eq_true hroom) hfair.consumer (hfair.inbox payload hmem) []
      have hstored := h.stored hserved.run hserved.numbered hseen
      have hlater := hfair.later hserved.run.onward (List.Subset.refl _) hseen
      refine ⟨hstored.setPeer ⟨hserved.consumer, fun other hother => ?_, fun reply hreply => ?_⟩,
        hserved.run⟩
      · refine hlater.inbox other ?_
        rw [hinbox]
        exact List.mem_cons_of_mem _ hother
      · intro result hresult
        rcases List.mem_append.mp hreply with hreply | hreply
        · exact hlater.downlink reply hreply result hresult
        · have htells := (hserved.replies reply hreply).resolve_left List.not_mem_nil
          obtain ⟨hbrings, hfrom⟩ := htells result (mem_told.mp hresult)
          exact ⟨hbrings, fun message hmessage => hnew message (hfrom message hmessage)⟩

theorem Linked.receive (h : Linked c seen s)
    (hstep : Link.step options clientOptions hello s .receive = some s') :
    Linked c seen s' ∧ (s.feed c).Run (s'.feed c) := by
  rw [Link.step] at hstep
  split at hstep
  next => cases hstep
  next peer older hpeers =>
    split at hstep
    next => cases hstep
    next payload rest hdownlink =>
      obtain ⟨bridge, hbridge, rfl⟩ := Option.map_eq_some_iff.mp hstep
      have hfair := h.peers peer (by rw [hpeers]; exact List.mem_cons_self)
      have hread : Linked c seen { s with peers := { peer with downlink := rest } :: older } := by
        refine ⟨h.numbered, h.sound, h.bridge, fun other hmem => ?_, h.delivered⟩
        rcases List.mem_cons.mp hmem with rfl | hmem
        · refine ⟨hfair.consumer, hfair.inbox, fun reply hreply => hfair.downlink reply ?_⟩
          rw [hdownlink]
          exact List.mem_cons_of_mem _ hreply
        · refine h.peers other ?_
          rw [hpeers]
          exact List.mem_cons_of_mem _ hmem
      obtain ⟨results, hsub, hstepped⟩ := h.bridge.message h.numbered.covered_zero hbridge
      have htold : ∀ result ∈ results, Brings s.store.env c s.delivered result.records ∧
          ∀ message ∈ result.records, seen message := by
        intro result hresult
        refine hfair.downlink payload ?_ result (hsub hresult)
        rw [hdownlink]
        exact List.mem_cons_self
      refine hread.passes (hstepped _ (fun a ha => ?_) fun result hresult record hrecord => ?_)
        fun result hresult => (htold result hresult).2
      · exact ha.onward (feed_onward (Feed.Onward.refl (s.feed c)) (List.subset_append_left _ _))
      · refine ((htold result hresult).1 record hrecord).onward
          (feed_onward (Feed.Onward.refl (s.feed c)) ?_)
        refine List.append_subset.mpr ⟨List.subset_append_left _ _, fun message hmem => ?_⟩
        exact List.mem_append_right _ (List.mem_flatMap.mpr ⟨result, hresult, hmem⟩)

theorem upright_started (hzero : (s.feed c).Covered 0)
    (hc : CrudWebsocketSession.consumerIdOf hello = c) :
    Upright (s.feed c).Covered c (BridgeSystem.started clientOptions hello) where
  honest :=
    { last := hzero
      queue := fun _ hmem => absurd hmem List.not_mem_nil
      waiting := fun _ hmem => absurd hmem List.not_mem_nil
      hello := hc
      started := fun _ hmem => absurd hmem List.not_mem_nil }
  posted _ hmem := absurd hmem List.not_mem_nil

theorem Linked.client (h : Linked c seen s) {event : BridgeEvent}
    (hmodest : s.modest c (.client event) = true)
    (hstep : Link.step options clientOptions hello s (.client event) = some s') :
    Linked c seen s' ∧ (s.feed c).Run (s'.feed c) := by
  obtain ⟨hreading, hstep⟩ := Option.ite_none_left_eq_some.mp hstep
  obtain ⟨bridge, hbridge, rfl⟩ := Option.map_eq_some_iff.mp hstep
  have hopened : Linked c seen (s.opens event) := by
    cases event with
    | handshakes =>
        refine ⟨h.numbered, h.sound, h.bridge, fun peer hmem => ?_, h.delivered⟩
        rcases List.mem_cons.mp hmem with rfl | hmem
        · refine ⟨?_, fun _ hmem => absurd hmem List.not_mem_nil,
            fun _ hmem => absurd hmem List.not_mem_nil⟩
          intro haccepted
          cases haccepted
        · exact h.peers peer hmem
    | _ => exact h
  have hsame : (s.opens event).bridge = s.bridge ∧ (s.opens event).feed c = s.feed c := by
    cases event <;> exact ⟨rfl, rfl⟩
  have hbridge' := h.bridge.step h.numbered.covered_zero (by simpa using hreading)
    (fun command hevent => ?_) (fun ackSequence hevent => ?_) hbridge
  · rw [← hsame.2]
    have hfeed : feed (s.opens event).store.env c ((s.opens event).delivered ++
        List.flatMap CrudResultMessage.records []) = (s.opens event).feed c := by
      rw [List.flatMap_nil, List.append_nil]
      rfl
    have hstepped : Stepped (feed (s.opens event).store.env c ((s.opens event).delivered ++
        List.flatMap CrudResultMessage.records [])).Covered c (s.opens event).bridge [] bridge := by
      rw [hfeed, hsame.2, hsame.1]
      exact hbridge'
    exact hopened.passes hstepped fun _ hmem => absurd hmem List.not_mem_nil
  · subst hevent
    exact h.bridge.honest.last.le (of_decide_eq_true hmodest)
  · subst hevent
    exact h.bridge.honest.last.le (of_decide_eq_true hmodest)

/-- **The step lemma.** -/
theorem Linked.step (h : Linked c seen s) (hc : CrudWebsocketSession.consumerIdOf hello = c)
    (hseen : ∀ message, seen message → seen' message) {event : LinkEvent}
    (hnew : ∀ message, FromOutbox s'.store.env message → seen' message)
    (hmodest : s.modest c event = true)
    (hstep : Link.step options clientOptions hello s event = some s') :
    Linked c seen' s' ∧ (s.feed c).Run (s'.feed c) := by
  cases event with
  | other op =>
      obtain rfl := Option.some.inj hstep
      obtain ⟨hspares, hroom⟩ := (Bool.and_eq_true _ _).mp hmodest
      have hfeeds : (s.feed c).Run (feed (op.run s.store).env c s.delivered) ∧
          Numbered (op.run s.store).env :=
        StoreOp.feeds h.numbered hspares (of_decide_eq_true hroom)
      obtain ⟨hrun, hnumbered⟩ := hfeeds
      exact ⟨h.stored hrun hnumbered hseen, hrun⟩
  | serve i io => exact h.serve hseen hnew hmodest hstep
  | lose i =>
      rw [Link.step] at hstep
      split at hstep
      next => cases hstep
      next peer hpeer =>
        obtain rfl := Option.some.inj hstep
        have hfair := h.peers peer (List.mem_of_getElem? hpeer)
        have hclosed : PeerFair s.store.env c s.delivered seen { peer with closed := true } :=
          ⟨hfair.consumer, hfair.inbox, hfair.downlink⟩
        exact ⟨(h.setPeer hclosed).mono hseen, .refl⟩
  | client event =>
      obtain ⟨hlinked, hrun⟩ := h.client hmodest hstep
      exact ⟨hlinked.mono hseen, hrun⟩
  | receive =>
      obtain ⟨hlinked, hrun⟩ := h.receive hstep
      exact ⟨hlinked.mono hseen, hrun⟩
  | restart =>
      obtain rfl := Option.some.inj hstep
      have hdelivered : Link.delivered { s with
          bridge := BridgeSystem.started clientOptions hello, past := s.delivered } =
            s.delivered := List.append_nil _
      have hfeed : Link.feed { s with
          bridge := BridgeSystem.started clientOptions hello, past := s.delivered } c =
            s.feed c := by
        rw [Link.feed, hdelivered]
        rfl
      refine ⟨Linked.mono hseen ⟨h.numbered, hfeed ▸ h.sound, ?_, ?_, ?_⟩, hfeed ▸ .refl⟩
      · rw [hfeed]
        exact upright_started h.numbered.covered_zero hc
      · rw [hdelivered]
        exact h.peers
      · rw [hdelivered]
        exact h.delivered

theorem linked_started (hc : CrudWebsocketSession.consumerIdOf hello = c) :
    Linked c seen (Link.started clientOptions hello) where
  numbered := numbered_empty 0
  sound m hm := by cases hm
  bridge := upright_started (numbered_empty 0).covered_zero hc
  peers _ hmem := absurd hmem List.not_mem_nil
  delivered _ hmem := absurd hmem List.not_mem_nil

end

/-! ## Runs -/

section
variable {options : CrudServerOptions} {clientOptions : MuninnClientOptions}
  {hello : HelloMessage} {events : List LinkEvent}

/-- The outbox held the record of the message in some state that the events passed. -/
def HeldBy (options : CrudServerOptions) (clientOptions : MuninnClientOptions)
    (hello : HelloMessage) (events : List LinkEvent) (message : TransportRecordMessage) : Prop :=
  ∃ pre post s, events = pre ++ post ∧
    runs (Link.step options clientOptions hello) (Link.started clientOptions hello) pre = some s ∧
    FromOutbox s.store.env message

/-- No step of the run acknowledges for the bridge what it was not handed. -/
abbrev ModestRun (options : CrudServerOptions) (clientOptions : MuninnClientOptions)
    (hello : HelloMessage) (events : List LinkEvent) : Prop :=
  EachStep (Link.step options clientOptions hello) (Link.started clientOptions hello) events
    fun s event => s.modest (CrudWebsocketSession.consumerIdOf hello) event = true

theorem linked_at (hmodest : ModestRun options clientOptions hello events) :
    ∀ pre post s, events = pre ++ post →
      runs (Link.step options clientOptions hello) (Link.started clientOptions hello) pre = some s →
      Linked (CrudWebsocketSession.consumerIdOf hello)
        (HeldBy options clientOptions hello pre) s := by
  refine runs_keeps_at (linked_started rfl) fun pre event post s s' hevents hrun hlinked hstep => ?_
  have hafter : runs (Link.step options clientOptions hello) (Link.started clientOptions hello)
      (pre ++ [event]) = some s' := by
    rw [runs_concat, hrun]
    exact hstep
  refine (hlinked.step rfl (fun message hheld => ?_) (fun message hfrom => ?_)
    (hmodest pre event post s s' hevents hrun hstep) hstep).1
  · obtain ⟨earlier, later, t, rfl, ht, hfrom⟩ := hheld
    exact ⟨earlier, later ++ [event], t, List.append_assoc _ _ _, ht, hfrom⟩
  · exact ⟨pre ++ [event], [], s', (List.append_nil _).symm, hafter, hfrom⟩

/-- **Nothing is acknowledged that was not handed over**: in every state of the run, what the
outbox still holds up to the ack of the bridge was handed over as it is stored. -/
theorem acked_was_delivered (hmodest : ModestRun options clientOptions hello events) :
    EachState (Link.step options clientOptions hello) (Link.started clientOptions hello) events
      fun s => ∀ ack sequence frame,
        storedAck s.store.env (CrudWebsocketSession.consumerIdOf hello) = some ack →
        sequence ≤ ack → outboxFrame s.store.env sequence = some frame →
          HandedOver s.delivered sequence frame := by
  intro pre post s hevents hrun ack sequence frame hack hle hframe
  have hlinked := linked_at hmodest pre post s hevents hrun
  exact (hlinked.sound ack hack).handed sequence frame hframe hle

/-- **Nothing is invented**: each record that was handed over is one the outbox held before,
under the same sequence and with the same contents. -/
theorem delivered_was_held (hmodest : ModestRun options clientOptions hello events) :
    ∀ pre post s, events = pre ++ post →
      runs (Link.step options clientOptions hello) (Link.started clientOptions hello) pre = some s →
      ∀ message ∈ s.delivered, HeldBy options clientOptions hello pre message :=
  fun pre post s hevents hrun => (linked_at hmodest pre post s hevents hrun).delivered

/-- **Nothing is lost**: a record that the outbox holds once the bridge is registered has,
in every later state, been handed over or is in the outbox still, beyond the ack. -/
theorem record_not_lost (hmodest : ModestRun options clientOptions hello events)
    {pre mid : List LinkEvent} (post : List LinkEvent) {s s' : Link} (hevents : events = pre ++ mid ++ post)
    (hrun : runs (Link.step options clientOptions hello) (Link.started clientOptions hello) pre =
      some s)
    (hrun' : runs (Link.step options clientOptions hello) s mid = some s')
    (hregistered : storedAck s.store.env (CrudWebsocketSession.consumerIdOf hello) ≠ none)
    {sequence : UInt64} {frame : Str} (hframe : outboxFrame s.store.env sequence = some frame) :
    HandedOver s'.delivered sequence frame ∨
      outboxFrame s'.store.env sequence = some frame ∧
        ∀ ack, storedAck s'.store.env (CrudWebsocketSession.consumerIdOf hello) = some ack →
          ack < sequence := by
  have hlinked := linked_at hmodest pre (mid ++ post) s (by rw [hevents, List.append_assoc]) hrun
  have hgiven : sequence < nextSequenceOf s.store.env := by
    have hkey := (hlinked.numbered.keys _ (Db.get_eq_some.mp hframe)).2.2
    rwa [decodeU64Be_encodeU64Be] at hkey
  have hawaits : (s.feed (CrudWebsocketSession.consumerIdOf hello)).Awaits sequence frame :=
    hlinked.sound.awaits hregistered hgiven hframe
  have hkept : ∀ done left t, mid = done ++ left →
      runs (Link.step options clientOptions hello) s done = some t →
      (t.feed (CrudWebsocketSession.consumerIdOf hello)).Awaits sequence frame := by
    refine runs_keeps_at hawaits fun done event left t t' hmid ht hbefore hstep => ?_
    have hsplit : events = (pre ++ done) ++ event :: (left ++ post) := by
      rw [hevents, hmid]
      simp only [List.append_assoc, List.cons_append]
    have hreached : runs (Link.step options clientOptions hello)
        (Link.started clientOptions hello) (pre ++ done) = some t := by
      rw [runs_append, hrun]
      exact ht
    have hthere := linked_at hmodest _ _ t hsplit hreached
    have hnext : Linked (CrudWebsocketSession.consumerIdOf hello) (fun _ => True) t' ∧
        (t.feed (CrudWebsocketSession.consumerIdOf hello)).Run
          (t'.feed (CrudWebsocketSession.consumerIdOf hello)) :=
      hthere.step rfl (fun _ _ => trivial) (fun _ _ => trivial)
        (hmodest _ event _ t t' hsplit hreached hstep) hstep
    exact hbefore.run hthere.sound hnext.2
  exact (hkept mid [] s' (List.append_nil _).symm hrun').awaits

end

/-! ### A record on its way -/

/-- Muninn opens its store and puts a record into the outbox. -/
def preparing : List LinkEvent :=
  [.other (.openStore { directory := str "d" } none []), .other newRecord]

/-- The bridge connects, says hello and is welcomed. -/
def greeting : List LinkEvent :=
  [.client .handshakes, .serve 0 {}, .client (.writeCompletes false), .receive]

/-- The bridge pulls, is told of the record and acknowledges it. -/
def pulling : List LinkEvent :=
  [.client .pullExpires, .client .pull, .client (.runPosted 0), .serve 0 {},
    .client (.writeCompletes false), .receive, .serve 0 {}]

def linkRun : List LinkEvent := preparing ++ greeting ++ pulling

theorem linkRun_modest : ModestRun {} {} bridgeHello linkRun :=
  eachStep_of_stepsPass (by decide +kernel)

/-- The record on the way. -/
def newFrame : Str := serializeFrame .snapshot (str "h") [1] 0

theorem linkRun_ends :
    (runs (Link.step {} {} bridgeHello) (Link.started {} bridgeHello) linkRun).map (fun s =>
        (storedAck s.store.env (CrudWebsocketSession.consumerIdOf bridgeHello),
          outboxFrame s.store.env 1, s.delivered.map TransportRecordMessage.sequence)) =
      some (some 1, some newFrame, [1]) := by
  decide +kernel

theorem greeting_ends :
    (runs (Link.step {} {} bridgeHello) (Link.started {} bridgeHello)
        (preparing ++ greeting)).map (fun s =>
        (storedAck s.store.env (CrudWebsocketSession.consumerIdOf bridgeHello),
          outboxFrame s.store.env 1)) = some (some 0, some newFrame) := by
  decide +kernel

theorem acked_was_delivered_pulling :
    ∃ s, runs (Link.step {} {} bridgeHello) (Link.started {} bridgeHello) linkRun = some s ∧
      storedAck s.store.env (CrudWebsocketSession.consumerIdOf bridgeHello) = some 1 ∧
      HandedOver s.delivered 1 newFrame := by
  obtain ⟨s, hrun, hends⟩ := Option.map_eq_some_iff.mp linkRun_ends
  obtain ⟨hack, hrest⟩ := Prod.mk.inj hends
  obtain ⟨hframe, -⟩ := Prod.mk.inj hrest
  exact ⟨s, hrun, hack, acked_was_delivered linkRun_modest linkRun [] s rfl hrun 1 1 newFrame hack
    le_rfl hframe⟩

theorem delivered_was_held_pulling :
    ∃ s message, runs (Link.step {} {} bridgeHello) (Link.started {} bridgeHello) linkRun =
        some s ∧ message ∈ s.delivered ∧ HeldBy {} {} bridgeHello linkRun message := by
  obtain ⟨s, hrun, hends⟩ := Option.map_eq_some_iff.mp linkRun_ends
  obtain ⟨-, hrest⟩ := Prod.mk.inj hends
  obtain ⟨-, hdelivered⟩ := Prod.mk.inj hrest
  obtain ⟨message, hmessage⟩ : ∃ message, s.delivered = [message] := by
    obtain ⟨message, rest, hcons, -, hrest⟩ := List.map_eq_cons_iff.mp hdelivered
    rw [List.map_eq_nil_iff.mp hrest] at hcons
    exact ⟨message, hcons⟩
  have hmem : message ∈ s.delivered := by
    rw [hmessage]
    exact List.mem_singleton_self _
  exact ⟨s, message, hrun, hmem, delivered_was_held linkRun_modest linkRun [] s rfl hrun _ hmem⟩

theorem record_not_lost_pulling :
    ∃ s s', runs (Link.step {} {} bridgeHello) (Link.started {} bridgeHello)
        (preparing ++ greeting) = some s ∧ runs (Link.step {} {} bridgeHello) s pulling = some s' ∧
      outboxFrame s.store.env 1 = some newFrame ∧
      (HandedOver s'.delivered 1 newFrame ∨
        outboxFrame s'.store.env 1 = some newFrame ∧
          ∀ ack, storedAck s'.store.env (CrudWebsocketSession.consumerIdOf bridgeHello) =
            some ack → ack < 1) := by
  obtain ⟨s', hall, -⟩ := Option.map_eq_some_iff.mp linkRun_ends
  obtain ⟨s, hrun, hends⟩ := Option.map_eq_some_iff.mp greeting_ends
  obtain ⟨hack, hframe⟩ := Prod.mk.inj hends
  have hrest : runs (Link.step {} {} bridgeHello) s pulling = some s' := by
    rw [linkRun, runs_append, hrun] at hall
    exact hall
  refine ⟨s, s', hrun, hrest, hframe, ?_⟩
  refine record_not_lost linkRun_modest [] (List.append_nil _).symm hrun hrest ?_ hframe
  rw [hack]
  exact Option.some_ne_none 0

end ServerStorage.Hugin
