/-
# `ServerStorage.Hugin.PullLoop` — the bridge among its timers, operations and posted commands

The handlers of `net/muninn_client.cpp` as steps of one machine: which operations are
outstanding, which handlers of the pull timer are due, which commands are posted, and what
the server has received and not answered.  Handlers run one at a time.  An exception that
leaves a handler leaves `io_context::run` too and ends the process, so no state follows.
The server may send anything, and may answer a command before the handler of its write has
run; a read command leaves the list of what it owes only with a result that reads and carries
the command's id.
-/
import ServerStorage.Lib.Handlers
import ServerStorage.Lib.Runs
import ServerStorage.Hugin.BridgeClient
import ServerStorage.Shared.CrudSpec
import ServerStorage.Muninn.Outbox

namespace ServerStorage.Hugin

open Lib Crud ServerStorage.Muninn

/-! ## The machine -/

structure BridgeSystem where
  bridged : Bridged := {}
  /-- A resolve, a connect or a handshake is outstanding. -/
  connecting : Bool := false
  /-- `async_read` is outstanding, or its handler has not run yet. -/
  reading : Bool := false
  /-- The same of `async_write`. -/
  writing : Bool := false
  /-- The handlers of the pull timer that are to run. -/
  pulls : Nat := 0
  posted : List CrudCommandMessage := []
  /-- What was written over the connection, the write in flight included, and is not answered. -/
  received : List Json := []

inductive BridgeEvent where
  | connectFails (reason : String)
  | handshakes
  | readFails (closed : Bool)
  | message (text : Str)
  | writeCompletes (failed : Bool)
  | pullExpires
  | pull
  | submit (command : CrudCommandMessage)
  | requestRead (ackSequence : UInt64)
  | runPosted (i : Nat)
  | reconnectExpires

namespace BridgeSystem

open BridgeClient

/-- The id of a read command that the server can read. -/
def readOf (payload : Json) : Option Str :=
  match parseCrudCommand payload with
  | .ok (some command) => if command.operation = .read then some command.requestId else none
  | _ => none

/-- The id that a result carries which the client can read. -/
def answered (parse : Str → Option Json) (text : Str) : Option Str :=
  match (parse text).map parseCrudResult with
  | some (.ok (some result)) => some result.requestId
  | _ => none

/-- What the server still owes once it has sent the message. -/
def awaiting (parse : Str → Option Json) (received : List Json) (text : Str) : List Json :=
  match answered parse text with
  | some id => received.eraseP fun payload => readOf payload == some id
  | none => received

def client (s : BridgeSystem) : BridgeClient := s.bridged.client

def setClient (s : BridgeSystem) (client : BridgeClient) : BridgeSystem :=
  { s with bridged := { s.bridged with client := client } }

/-- A handler runs; a write it has started is outstanding. -/
def handle (s : BridgeSystem) (handler : ClientM Unit) : Option BridgeSystem :=
  match handler.run.run s.bridged with
  | (.ok (), bridged) =>
      some
        { s with
          bridged := bridged
          writing := s.writing || decide (s.bridged.written.length < bridged.written.length)
          received := s.received ++ bridged.written.drop s.bridged.written.length }
  | (.error _, _) => none

def doRead (s : BridgeSystem) : BridgeSystem :=
  if !s.client.running || !s.client.hasWebsocket then s else { s with reading := true }

/-- `on_read` with a message. -/
def onMessage (parse : Str → Option Json) (s : BridgeSystem) (text : Str) : Option BridgeSystem :=
  if !s.client.running then some s
  else (s.handle (handleMessage parse text)).map doRead

def onHandshakeComplete (s : BridgeSystem) : Option BridgeSystem :=
  if !s.client.running then some s else (s.handle onHandshake).map doRead

def submit (s : BridgeSystem) (command : CrudCommandMessage) : BridgeSystem :=
  { s with posted := s.posted ++ (s.client.core.submitCommand command).toOption.toList }

def requestRead (s : BridgeSystem) (ackSequence : UInt64) : BridgeSystem :=
  let (command, client) := s.client.readCommand ackSequence
  (s.setClient client).submit command

/-- The handler of the pull timer. -/
def onPull (s : BridgeSystem) : BridgeSystem :=
  if !s.client.running || !s.client.helloComplete || !s.client.autoPullEnabled then s
  else s.requestRead s.client.lastAckSequence

/-- `start_connect`, by the reconnect timer. -/
def reconnect (s : BridgeSystem) : Option BridgeSystem :=
  ((s.setClient { s.client with reconnectTimer := false }).handle startConnect).map
    fun s => { s with connecting := true, received := [] }

def step (parse : Str → Option Json) (s : BridgeSystem) : BridgeEvent → Option BridgeSystem
  | .connectFails reason =>
      if s.connecting then { s with connecting := false }.handle (scheduleReconnect reason) else none
  | .handshakes =>
      if s.connecting then onHandshakeComplete { s with connecting := false } else none
  | .readFails closed =>
      if s.reading then
        { s with reading := false }.handle
          (scheduleReconnect (if closed then "remote_closed" else "read_failed"))
      else none
  | .message text =>
      if s.reading then
        onMessage parse
          { s with reading := false, received := awaiting parse s.received text } text
      else none
  | .writeCompletes failed =>
      if !s.writing then none
      else if failed then { s with writing := false }.handle (scheduleReconnect "write_failed")
      else { s with writing := false }.handle onWritten
  | .pullExpires =>
      if s.client.pullTimer.isSome then
        some { s.setClient { s.client with pullTimer := none } with pulls := s.pulls + 1 }
      else none
  | .pull => if s.pulls = 0 then none else some { s with pulls := s.pulls - 1 }.onPull
  | .submit command => some (s.submit command)
  | .requestRead ackSequence => some (s.requestRead ackSequence)
  | .runPosted i =>
      match s.posted[i]? with
      | some command => { s with posted := s.posted.eraseIdx i }.handle (postedCommand command)
      | none => none
  | .reconnectExpires =>
      if s.client.reconnectTimer && !s.connecting && !s.reading && !s.writing then s.reconnect
      else none

/-- The client as `start` leaves it, with auto-pull on. -/
def started (options : MuninnClientOptions) (hello : HelloMessage) : BridgeSystem :=
  { bridged :=
      { client :=
          { options := options
            hello := hello
            hasWebsocket := true
            running := true } }
    connecting := true }

example (options : MuninnClientOptions) (hello : HelloMessage) :
    startConnect.run.run { client := { options := options, hello := hello, running := true } } =
      (.ok (), (started options hello).bridged) := rfl

/-! ## The baton -/

/-- A command that carries the loop on. -/
def IsPull (command : CrudCommandMessage) : Prop :=
  command.operation = .read ∧ command.protocolVersion = kProtocolVersion

def IsRead (payload : Json) : Prop := (readOf payload).isSome = true

/-- The bridge is connected, with the hello accepted. -/
def Connected (s : BridgeSystem) : Prop := s.client.core.connected = true

/-- The pull timer is armed, or its handler is due, or a read command is posted, queued behind
the one in flight, or in flight or written and not answered. -/
def Alive (s : BridgeSystem) : Prop :=
  s.client.pullTimer.isSome = true ∨ 0 < s.pulls ∨ (∃ command ∈ s.posted, IsPull command) ∨
    (∃ payload ∈ s.client.writeQueue.tail, IsRead payload) ∨ ∃ payload ∈ s.received, IsRead payload

/-- A connection that is being made has nothing else outstanding. -/
structure Fresh (s : BridgeSystem) : Prop where
  handshake : s.client.handshakeComplete = false
  hello : s.client.helloComplete = false
  queue : s.client.writeQueue = []
  stream : s.client.hasWebsocket = true
  reading : s.reading = false
  writing : s.writing = false

/-- What every part of a handler keeps, where `n` writes had been started before it. -/
structure Steady (n : Nat) (b : Bridged) : Prop where
  running : b.client.running = true
  pulling : b.client.autoPullEnabled = true
  stream : b.client.handshakeComplete = true → b.client.hasWebsocket = true
  grown : n ≤ b.written.length

/-- And that the front of the queue is in flight, where `w` says whether a write was
outstanding before. -/
structure Flows (w : Bool) (n : Nat) (b : Bridged) : Prop extends Steady n b where
  writes : b.client.handshakeComplete = true → b.client.writeQueue ≠ [] →
    (w || decide (n < b.written.length)) = true

structure Sound (s : BridgeSystem) : Prop where
  flows : Flows s.writing s.bridged.written.length s.bridged
  fresh : s.connecting = true → s.Fresh
  reads : s.client.handshakeComplete = true → s.reading = true
  alive : s.Connected → s.Alive

/-! ## What the handlers keep -/

section
variable {w : Bool} {n : Nat} {b : Bridged}

/-- A handler that changes neither the flags nor the queue. -/
theorem Flows.of_same {b' : Bridged} (h : Flows w n b)
    (hrunning : b'.client.running = b.client.running)
    (hpulling : b'.client.autoPullEnabled = b.client.autoPullEnabled)
    (hstream : b'.client.hasWebsocket = b.client.hasWebsocket)
    (hhandshake : b'.client.handshakeComplete = b.client.handshakeComplete)
    (hqueue : b'.client.writeQueue = b.client.writeQueue) (hwritten : b'.written = b.written) :
    Flows w n b' where
  running := hrunning.trans h.running
  pulling := hpulling.trans h.pulling
  stream hdone := hstream.trans (h.stream (hhandshake.symm.trans hdone))
  grown := hwritten ▸ h.grown
  writes hdone hne := by
    rw [hwritten]
    exact h.writes (hhandshake.symm.trans hdone) (hqueue ▸ hne)

/-- A handler that gives up the handshake has nothing to keep of the queue. -/
theorem Steady.lost (h : Steady n b) (hlost : b.client.handshakeComplete = false) : Flows w n b where
  toSteady := h
  writes hdone := absurd (hlost.symm.trans hdone) Bool.false_ne_true

/-- The queue grows at its end, and writes may be started; nothing else of this changes. -/
structure Queues (b b' : Bridged) : Prop where
  hello : b'.client.helloComplete = b.client.helloComplete
  handshake : b'.client.handshakeComplete = b.client.handshakeComplete
  stream : b'.client.hasWebsocket = b.client.hasWebsocket
  timer : b'.client.pullTimer = b.client.pullTimer
  keeps : b.client.writeQueue.tail ⊆ b'.client.writeQueue.tail

/-- The payload is queued behind the front, or its write was started since. -/
def Passed (n : Nat) (b : Bridged) (payload : Json) : Prop :=
  payload ∈ b.client.writeQueue.tail ∨ payload ∈ b.written.drop n

/-- `do_write` on a queue whose front is not in flight. -/
theorem ends_doWrite (h : Steady n b) :
    Ends doWrite b fun _ b' => Flows w n b' ∧ b'.client = b.client ∧
      (b.client.handshakeComplete = true →
        b'.written = b.written ++ b.client.writeQueue.head?.toList) := by
  refine Ends.bind (Ends.get (Ends.ite (fun hidle => ?_) fun hready => ?_))
  · -- The flags are all set where the handshake is complete.
    have hnot : b.client.handshakeComplete ≠ true := by
      intro hdone
      rw [h.running, hdone, h.stream hdone] at hidle
      exact absurd hidle (by decide)
    exact Ends.pure ⟨⟨h, fun hdone => absurd hdone hnot⟩, rfl, fun hdone => absurd hdone hnot⟩
  · have hgrown : n ≤ (b.written ++ b.client.writeQueue.head?.toList).length := by
      rw [List.length_append]
      exact h.grown.trans (Nat.le_add_right _ _)
    refine Ends.modify
      ⟨⟨⟨h.running, h.pulling, h.stream, hgrown⟩, fun _ hne => ?_⟩, rfl, fun _ => rfl⟩
    have hstarted : n < (b.written ++ b.client.writeQueue.head?.toList).length := by
      obtain ⟨front, rest, hqueue⟩ := List.exists_cons_of_ne_nil hne
      rw [List.length_append, hqueue]
      exact Nat.lt_succ_of_le h.grown
    show (w || decide _) = true
    rw [decide_eq_true hstarted, Bool.or_true]

theorem ends_enqueueText (h : Flows w n b) (payload : Json) :
    Ends (enqueueText payload) b fun _ b' => Flows w n b' ∧ Queues b b' ∧
      (b.client.handshakeComplete = true → Passed n b' payload) := by
  have hkeeps : b.client.writeQueue.tail ⊆ (b.client.writeQueue ++ [payload]).tail := by
    intro other hmem
    cases hqueue : b.client.writeQueue with
    | nil =>
        rw [hqueue] at hmem
        cases hmem
    | cons front rest =>
        rw [hqueue] at hmem
        exact List.mem_append_left _ hmem
  refine Ends.bind (Ends.get (Ends.bind (Ends.modify (Ends.ite (fun hidle => ?_) fun hbusy => ?_))))
  · have hsteady : Steady n
        { b with client := { b.client with writeQueue := b.client.writeQueue ++ [payload] } } :=
      ⟨h.running, h.pulling, h.stream, h.grown⟩
    refine (ends_doWrite hsteady).mono fun _ b' ⟨hflows, hclient, hwritten⟩ =>
      ⟨hflows, ⟨?_, ?_, ?_, ?_, ?_⟩, fun hdone => .inr ?_⟩
    · rw [hclient]
    · rw [hclient]
    · rw [hclient]
    · rw [hclient]
    · rw [hclient]
      exact hkeeps
    · rw [hwritten hdone, List.isEmpty_iff.mp hidle, List.drop_append_of_le_length h.grown]
      exact List.mem_append_right _ List.mem_cons_self
  · have hne : b.client.writeQueue ≠ [] := fun hempty => hbusy (List.isEmpty_iff.mpr hempty)
    refine Ends.pure ⟨⟨⟨h.running, h.pulling, h.stream, h.grown⟩, fun hdone _ => h.writes hdone hne⟩,
      ⟨rfl, rfl, rfl, rfl, hkeeps⟩, fun _ => .inl ?_⟩
    obtain ⟨front, rest, hqueue⟩ := List.exists_cons_of_ne_nil hne
    dsimp only
    rw [hqueue]
    exact List.mem_append_right _ List.mem_cons_self

theorem ends_enqueueJson (h : Flows w n b) (payload : Json) :
    Ends (enqueueJson payload) b fun _ b' => Flows w n b' ∧ Queues b b' ∧
      (b.client.handshakeComplete = true → Passed n b' payload) :=
  Ends.ite (fun _ => ends_enqueueText h payload) fun _ => Ends.throw

/-- `on_write` without an error: the front of the queue goes, the next is written. -/
theorem ends_onWritten (h : Steady n b) :
    Ends onWritten b fun _ b' => Flows w n b' ∧
      b'.client = { b.client with writeQueue := b.client.writeQueue.tail } ∧
      (b.client.handshakeComplete = true →
        b'.written = b.written ++ b.client.writeQueue.tail.head?.toList) := by
  refine Ends.bind (Ends.get (Ends.ite (fun hstopped => ?_) fun _ => ?_))
  · rw [h.running] at hstopped
    exact absurd hstopped (by decide)
  · have hsteady : Steady n
        { b with client := { b.client with writeQueue := b.client.writeQueue.tail } } :=
      ⟨h.running, h.pulling, h.stream, h.grown⟩
    refine Ends.bind (Ends.modify (Ends.bind (Ends.get (Ends.ite (fun hempty => ?_) fun _ => ?_))))
    · have htail : b.client.writeQueue.tail = [] := List.isEmpty_iff.mp hempty
      refine Ends.pure ⟨⟨hsteady, fun _ hne => absurd htail hne⟩, rfl, fun _ => ?_⟩
      rw [htail]
      exact (List.append_nil _).symm
    · exact ends_doWrite hsteady

theorem ends_scheduleReconnect (h : Steady n b) (reason : String) :
    Ends (scheduleReconnect reason) b fun _ b' => Flows w n b' ∧
      b'.client.handshakeComplete = false ∧ b'.client.helloComplete = false := by
  refine Ends.bind (Ends.get (Ends.ite (fun hstopped => ?_) fun _ => ?_))
  · rw [h.running] at hstopped
    exact absurd hstopped (by decide)
  · refine Ends.bind (Ends.modify (Ends.bind (Ends.modify (Ends.modify ⟨?_, rfl, rfl⟩))))
    exact Steady.lost ⟨h.running, h.pulling, nofun, h.grown⟩ rfl

/-! ## Messages -/

/-- After a result or an accepted hello the timer is armed, unless the connection is lost. -/
def Rearmed (b : Bridged) : Prop :=
  b.client.helloComplete = true → b.client.pullTimer.isSome = true

theorem ends_scheduleNextPull (h : Flows w n b) (hadRecords : Bool) :
    Ends (scheduleNextPull hadRecords) b fun _ b' => Flows w n b' ∧ Rearmed b' := by
  refine Ends.modify ?_
  dsimp only
  split
  next hnot =>
    refine ⟨h, fun hhello => ?_⟩
    change b.client.helloComplete = true at hhello
    rw [h.running, h.pulling, hhello] at hnot
    exact absurd hnot (by decide)
  next => exact ⟨h.of_same rfl rfl rfl rfl rfl rfl, fun _ => rfl⟩

theorem ends_acknowledge (h : Flows w n b) (result : CrudResultMessage) :
    Ends (acknowledge result) b fun _ b' => Flows w n b' := by
  refine Ends.bind (Ends.get (Ends.ite (fun _ => ?_) fun _ => Ends.pure h))
  refine Ends.bind ((ends_enqueueJson h _).mono fun _ b' ⟨hflows, _, _⟩ => Ends.modify ?_)
  exact hflows.of_same rfl rfl rfl rfl rfl rfl

theorem ends_applyCrudResult (h : Flows w n b) (result : CrudResultMessage) :
    Ends (applyCrudResult result) b fun _ b' => Flows w n b' ∧ Rearmed b' := by
  have hresult : Flows w n { b with results := b.results ++ [result] } :=
    h.of_same rfl rfl rfl rfl rfl rfl
  refine Ends.bind (Ends.modify (Ends.bind ((ends_acknowledge hresult result).mono ?_)))
  exact fun _ b' hflows => ends_scheduleNextPull hflows _

theorem ends_reading {α : Type} {parsed : Parsed α} {Q : α → Bridged → Prop}
    (h : ∀ a, parsed = .ok a → Q a b) : Ends (BridgeClient.reading parsed) b Q := by
  cases parsed with
  | ok a => exact Ends.pure (h a rfl)
  | error e => exact Ends.throw

theorem ends_flushPendingCommands (h : Flows w n b) :
    Ends flushPendingCommands b fun _ b' => Flows w n b' := by
  refine Ends.bind (Ends.get (Ends.bind ?_))
  refine (Ends.forM (I := Flows w n) (fun payload _ hflows =>
    (ends_enqueueText hflows payload).mono fun _ _ hafter => hafter.1) h).mono fun _ b' hflows => ?_
  exact Ends.modify (hflows.of_same rfl rfl rfl rfl rfl rfl)

theorem ends_handleHelloAck (h : Flows w n b) (payload : Json) :
    Ends (handleHelloAck payload) b fun _ b' => Flows w n b' ∧ Rearmed b' := by
  have hrejected : Ends (scheduleReconnect "hello_rejected") b fun _ b' =>
      Flows w n b' ∧ Rearmed b' :=
    (ends_scheduleReconnect h.toSteady _).mono fun _ b' ⟨hflows, _, hhello⟩ =>
      ⟨hflows, fun hdone => absurd (hhello.symm.trans hdone) Bool.false_ne_true⟩
  refine Ends.bind (ends_reading fun found _ => ?_)
  cases found with
  | none => exact hrejected
  | some helloAck =>
      refine Ends.ite (fun _ => hrejected) fun _ => ?_
      refine Ends.bind (Ends.modify (Ends.bind (Ends.modify (Ends.bind ?_))))
      refine Ends.mono (ends_flushPendingCommands (w := w) (n := n) ?_) fun _ b' hflows => ?_
      · exact h.of_same rfl rfl rfl rfl rfl rfl
      refine Ends.bind (Ends.get (Ends.ite (fun _ => ends_scheduleNextPull hflows _) fun hnot => ?_))
      exact absurd hflows.pulling hnot

/-- A message leaves the client as it was, or arms the timer, or loses the connection. -/
theorem ends_handleMessage (h : Flows w n b) (parse : Str → Option Json) (text : Str) :
    Ends (handleMessage parse text) b fun _ b' => Flows w n b' ∧ (b'.client = b.client ∨ Rearmed b') := by
  have hnothing : Ends (pure () : ClientM Unit) b fun _ b' =>
      Flows w n b' ∧ (b'.client = b.client ∨ Rearmed b') := Ends.pure ⟨h, .inl rfl⟩
  rw [handleMessage]
  cases parse text with
  | none => exact hnothing
  | some payload =>
      refine Ends.ite (fun _ => hnothing) fun _ => Ends.bind (ends_reading fun type _ => ?_)
      refine Ends.ite (fun _ => ?_) fun _ => Ends.ite (fun _ => ?_) fun _ => hnothing
      · exact (ends_handleHelloAck h payload).mono fun _ _ hafter => ⟨hafter.1, .inr hafter.2⟩
      · refine Ends.bind (ends_reading fun found _ => ?_)
        cases found with
        | none => exact hnothing
        | some result =>
            exact (ends_applyCrudResult h result).mono fun _ _ hafter => ⟨hafter.1, .inr hafter.2⟩

/-- The answer to a read command arms the timer, or finds the connection lost. -/
theorem ends_answer (h : Flows w n b) {parse : Str → Option Json} {text id : Str}
    (hanswer : answered parse text = some id) :
    Ends (handleMessage parse text) b fun _ b' => Flows w n b' ∧ Rearmed b' := by
  rw [answered] at hanswer
  split at hanswer
  next result hresult =>
    obtain ⟨payload, hparse, hparsed⟩ := Option.map_eq_some_iff.mp hresult
    have htype : stringOr payload "type" = .ok (str "crud_result") := (ofType_some hparsed).1
    have hobject : payload.isObject = true := by
      by_contra hnot
      rw [parseCrudResult, ofType, if_pos (by simpa using hnot)] at hparsed
      cases hparsed
    rw [handleMessage, hparse]
    refine Ends.ite (fun hnot => ?_) fun _ => Ends.bind (ends_reading fun type hread => ?_)
    · rw [hobject] at hnot
      exact absurd hnot (by decide)
    obtain rfl := Except.ok.inj (htype.symm.trans hread)
    refine Ends.ite (fun heq => absurd heq (by decide)) fun _ => ?_
    refine Ends.ite (fun _ => Ends.bind (ends_reading fun found hfound => ?_)) fun hne => ?_
    · obtain rfl := Except.ok.inj (hparsed.symm.trans hfound)
      exact ends_applyCrudResult h result
    · exact absurd rfl hne
  next => cases hanswer

/-! ## Posted commands -/

theorem readOf_toJson {command : CrudCommandMessage} (h : IsPull command)
    (hid : command.requestId ≠ []) : IsRead command.toJson := by
  rw [IsRead, readOf, parseCrudCommand_toJson h.2 hid]
  show (if _ then _ else _ : Option Str).isSome = true
  rw [if_pos h.1]
  rfl

/-- A command is given an id and nothing else. -/
theorem numbered_spec (core : MuninnWebSocketClient) (command : CrudCommandMessage) :
    (core.numbered command).1.requestId ≠ [] ∧
      (IsPull command → IsPull (core.numbered command).1) := by
  rw [MuninnWebSocketClient.numbered]
  split
  next hempty =>
    refine ⟨?_, fun h => h⟩
    show str "cmd" ++ str "-" ++ _ ≠ []
    simp [str]
  next hid => exact ⟨hid, fun h => h⟩

/-- What becomes of a posted command when its handler runs. -/
theorem ends_postedCommand (h : Flows w n b) (command : CrudCommandMessage) :
    Ends (postedCommand command) b fun _ b' => Flows w n b' ∧ Queues b b' ∧
      (b.client.helloComplete = false →
        b'.client.writeQueue = b.client.writeQueue ∧ b'.written = b.written) ∧
      (b.client.handshakeComplete = true → b.client.helloComplete = true → IsPull command →
        ∃ payload, Passed n b' payload ∧ IsRead payload) := by
  refine Ends.bind (Ends.get ?_)
  obtain ⟨hid, hpull⟩ := numbered_spec b.client.core command
  generalize b.client.core.numbered command = numbered at hid hpull
  obtain ⟨command', core⟩ := numbered
  have hnumbered : Flows w n
      { b with client := { b.client with requestSequence := core.requestSequence } } :=
    h.of_same rfl rfl rfl rfl rfl rfl
  refine Ends.bind (Ends.modify (Ends.ite (fun _ => Ends.throw) fun _ => ?_))
  refine Ends.bind (Ends.get (Ends.ite (fun hlost => ?_) fun hdone => ?_))
  · refine Ends.pure ⟨hnumbered, ⟨rfl, rfl, rfl, rfl, fun _ hmem => hmem⟩, fun _ => ⟨rfl, rfl⟩,
      fun _ hdone => ?_⟩
    change (!b.client.helloComplete) = true at hlost
    rw [hdone] at hlost
    exact absurd hlost (by decide)
  · refine (ends_enqueueText hnumbered command'.toJson).mono fun _ b' ⟨hflows, hqueues, hpassed⟩ => ?_
    refine ⟨hflows, ⟨hqueues.hello, hqueues.handshake, hqueues.stream, hqueues.timer,
      hqueues.keeps⟩, fun hlost => ?_,
      fun hshaken _ hof => ⟨_, hpassed hshaken, readOf_toJson (hpull hof) hid⟩⟩
    change ¬ (!b.client.helloComplete) = true at hdone
    rw [hlost] at hdone
    exact absurd rfl hdone

end

/-! ## Steps -/

section
variable {s s' : BridgeSystem} {parse : Str → Option Json}

theorem handle_some {handler : ClientM Unit} {Q : Bridged → Prop} (h : s.handle handler = some s')
    (hends : Ends handler s.bridged fun _ => Q) :
    Q s'.bridged ∧ s' = { s with
      bridged := s'.bridged
      writing := s.writing || decide (s.bridged.written.length < s'.bridged.written.length)
      received := s.received ++ s'.bridged.written.drop s.bridged.written.length } := by
  rw [handle] at h
  split at h
  next bridged hrun =>
    obtain rfl := Option.some.inj h
    exact ⟨hends () bridged hrun, rfl⟩
  next => cases h

/-- A write that was started is outstanding once the handler has run. -/
theorem Flows.settle {w : Bool} {n : Nat} {b : Bridged} (h : Flows w n b) :
    Flows (w || decide (n < b.written.length)) b.written.length b where
  running := h.running
  pulling := h.pulling
  stream := h.stream
  grown := le_rfl
  writes hdone hne := by rw [h.writes hdone hne, Bool.true_or]

theorem connected_iff (h : Flows s.writing s.bridged.written.length s.bridged) :
    s.Connected ↔ s.client.handshakeComplete = true ∧ s.client.helloComplete = true := by
  have hrunning : s.client.core.running = true := h.running
  rw [Connected, MuninnWebSocketClient.connected, hrunning, Bool.true_and, Bool.and_eq_true]
  exact Iff.rfl

/-- Where the handshake is given up there is nothing to keep. -/
theorem Sound.lost (hflows : Flows s.writing s.bridged.written.length s.bridged)
    (hconnecting : s.connecting = false) (hlost : s.client.handshakeComplete = false) : s.Sound where
  flows := hflows
  fresh hmaking := absurd (hconnecting.symm.trans hmaking) Bool.false_ne_true
  reads hdone := absurd (hlost.symm.trans hdone) Bool.false_ne_true
  alive hconnected :=
    absurd (hlost.symm.trans ((connected_iff hflows).mp hconnected).1) Bool.false_ne_true

theorem Sound.reconnecting {reason : String} (h : s.handle (scheduleReconnect reason) = some s')
    (hsteady : Steady s.bridged.written.length s.bridged) (hconnecting : s.connecting = false) :
    s'.Sound := by
  obtain ⟨⟨hafter, hlost, -⟩, hs'⟩ := handle_some h (ends_scheduleReconnect hsteady reason)
  rw [hs']
  exact Sound.lost hafter.settle hconnecting hlost

/-- Where nothing that carries the loop goes away, it is carried on. -/
theorem Alive.mono (h : s.Alive) (htimer : s'.client.pullTimer = s.client.pullTimer)
    (hpulls : s.pulls ≤ s'.pulls) (hposted : s.posted ⊆ s'.posted)
    (hqueue : s.client.writeQueue.tail ⊆ s'.client.writeQueue.tail)
    (hreceived : s.received ⊆ s'.received) : s'.Alive := by
  rcases h with hset | hdue | ⟨command, hmem, hpull⟩ | ⟨payload, hmem, hread⟩ | ⟨payload, hmem, hread⟩
  · exact .inl (by rw [htimer]; exact hset)
  · exact .inr (.inl (hdue.trans_le hpulls))
  · exact .inr (.inr (.inl ⟨command, hposted hmem, hpull⟩))
  · exact .inr (.inr (.inr (.inl ⟨payload, hqueue hmem, hread⟩)))
  · exact .inr (.inr (.inr (.inr ⟨payload, hreceived hmem, hread⟩)))

/-- A connection that is being made is waited for by no read and no write. -/
theorem Sound.not_connecting (h : s.Sound) (hop : s.reading = true ∨ s.writing = true) :
    s.connecting = false := by
  rw [← Bool.not_eq_true]
  intro hmaking
  have hfresh := h.fresh hmaking
  rcases hop with hreading | hwriting
  · exact absurd (hfresh.reading.symm.trans hreading) Bool.false_ne_true
  · exact absurd (hfresh.writing.symm.trans hwriting) Bool.false_ne_true

/-- `on_read`: what the message leaves of the loop, and the next read. -/
theorem Sound.onMessage (kept : Bool) {text : Str} {received : List Json} (h : s.Sound)
    (hreading : s.reading = true)
    (hends : Ends (handleMessage parse text) s.bridged fun _ b' =>
      Flows s.writing s.bridged.written.length b' ∧ (kept = true ∧ b'.client = s.client ∨ Rearmed b'))
    (hreceived : kept = true → received = s.received)
    (hstep : onMessage parse { s with reading := false, received := received } text = some s') :
    s'.Sound := by
  have hconnecting := h.not_connecting (.inl hreading)
  rw [BridgeSystem.onMessage] at hstep
  split at hstep
  next hstopped =>
    have hrunning : s.client.running = true := h.flows.running
    change (!s.client.running) = true at hstopped
    rw [hrunning] at hstopped
    exact absurd hstopped (by decide)
  next =>
    obtain ⟨mid, hmid, rfl⟩ := Option.map_eq_some_iff.mp hstep
    obtain ⟨⟨hflows, hafter⟩, hmid⟩ := handle_some hmid hends
    generalize hb : mid.bridged = b' at hflows hafter hmid
    subst hmid
    rw [doRead]
    split
    next hclosed =>
      refine Sound.lost hflows.settle hconnecting ?_
      rw [← Bool.not_eq_true]
      intro hdone
      change (!b'.client.running || !b'.client.hasWebsocket) = true at hclosed
      rw [hflows.running, hflows.stream hdone] at hclosed
      exact absurd hclosed (by decide)
    next =>
      refine ⟨hflows.settle, fun hmaking => ?_, fun _ => rfl, fun hconnected => ?_⟩
      · exact absurd (hconnecting.symm.trans hmaking) Bool.false_ne_true
      · obtain ⟨hdone, hhello⟩ := (connected_iff hflows.settle).mp hconnected
        rcases hafter with ⟨hkept, hclient⟩ | hrearmed
        · have hbefore : s.Connected := by
            rw [connected_iff h.flows, ← hclient]
            exact ⟨hdone, hhello⟩
          rw [hreceived hkept]
          exact (h.alive hbefore).mono (congrArg BridgeClient.pullTimer hclient) le_rfl
            (fun _ hmem => hmem) (by rw [← hclient]; exact fun _ hmem => hmem)
            (List.subset_append_left _ _)
        · exact .inl (hrearmed hhello)

theorem Sound.handshakes (h : s.Sound) (hmaking : s.connecting = true)
    (hstep : onHandshakeComplete { s with connecting := false } = some s') : s'.Sound := by
  have hfresh := h.fresh hmaking
  have hrunning : s.client.running = true := h.flows.running
  rw [onHandshakeComplete] at hstep
  split at hstep
  next hstopped =>
    change (!s.client.running) = true at hstopped
    rw [hrunning] at hstopped
    exact absurd hstopped (by decide)
  next =>
    obtain ⟨mid, hmid, rfl⟩ := Option.map_eq_some_iff.mp hstep
    have hends : Ends onHandshake s.bridged fun _ b' =>
        Flows s.writing s.bridged.written.length b' ∧ b'.client.helloComplete = false := by
      refine Ends.bind (Ends.get (Ends.ite (fun hstopped => ?_) fun _ => ?_))
      · change (!s.client.running) = true at hstopped
        rw [hrunning] at hstopped
        exact absurd hstopped (by decide)
      · refine Ends.bind (Ends.modify (Ends.bind (Ends.get ?_)))
        refine Ends.mono (ends_enqueueJson (w := s.writing) (n := s.bridged.written.length) ?_ _)
          fun _ b' ⟨hflows, hqueues, _⟩ => ⟨hflows, hqueues.hello.trans hfresh.hello⟩
        refine ⟨⟨h.flows.running, h.flows.pulling, fun _ => hfresh.stream, le_rfl⟩, fun _ hne => ?_⟩
        exact absurd hfresh.queue hne
    obtain ⟨⟨hflows, hhello⟩, hmid⟩ := handle_some hmid hends
    generalize mid.bridged = b' at hflows hhello hmid
    subst hmid
    have hnot : ∀ t : BridgeSystem, t.bridged = b' → ¬ t.Connected := by
      intro t ht hconnected
      rw [Connected, MuninnWebSocketClient.connected, Bool.and_eq_true] at hconnected
      have hdone : t.bridged.client.helloComplete = true := hconnected.2
      rw [ht, hhello] at hdone
      exact absurd hdone Bool.false_ne_true
    rw [doRead]
    split
    next hclosed =>
      refine Sound.lost hflows.settle rfl ?_
      rw [← Bool.not_eq_true]
      intro hdone
      change (!b'.client.running || !b'.client.hasWebsocket) = true at hclosed
      rw [hflows.running, hflows.stream hdone] at hclosed
      exact absurd hclosed (by decide)
    next =>
      refine ⟨hflows.settle, fun hmaking => ?_, fun _ => rfl, fun hconnected => ?_⟩
      · exact absurd hmaking Bool.false_ne_true
      · exact absurd hconnected (hnot _ rfl)

theorem Sound.written (h : s.Sound) (hwriting : s.writing = true)
    (hstep : { s with writing := false }.handle onWritten = some s') : s'.Sound := by
  have hconnecting := h.not_connecting (.inr hwriting)
  obtain ⟨⟨hflows, hclient, hwritten⟩, hs'⟩ :=
    handle_some hstep (ends_onWritten (w := false) h.flows.toSteady)
  generalize s'.bridged = b' at hflows hclient hwritten hs'
  subst hs'
  refine ⟨hflows.settle, fun hmaking => ?_, fun hdone => ?_, fun hconnected => ?_⟩
  · exact absurd (hconnecting.symm.trans hmaking) Bool.false_ne_true
  · refine h.reads ?_
    exact (congrArg BridgeClient.handshakeComplete hclient).symm.trans hdone
  · obtain ⟨hdone, hhello⟩ := (connected_iff hflows.settle).mp hconnected
    change b'.client.handshakeComplete = true at hdone
    change b'.client.helloComplete = true at hhello
    rw [hclient] at hdone hhello
    -- The next in the queue goes on its way to the server.
    rcases h.alive ((connected_iff h.flows).mpr ⟨hdone, hhello⟩) with
      hset | hdue | hposted | ⟨payload, hmem, hread⟩ | ⟨payload, hmem, hread⟩
    · refine .inl ?_
      show b'.client.pullTimer.isSome = true
      rw [hclient]
      exact hset
    · exact .inr (.inl hdue)
    · exact .inr (.inr (.inl hposted))
    · have htail : s.client.writeQueue.tail = s.bridged.client.writeQueue.tail := rfl
      rw [htail] at hmem
      cases hnext : s.bridged.client.writeQueue.tail with
      | nil =>
          rw [hnext] at hmem
          cases hmem
      | cons next rest =>
          rw [hnext] at hmem
          rcases List.mem_cons.mp hmem with rfl | hmem
          · refine .inr (.inr (.inr (.inr ⟨payload, List.mem_append_right _ ?_, hread⟩)))
            show payload ∈ b'.written.drop s.bridged.written.length
            rw [hwritten hdone, List.drop_left, hnext]
            exact List.mem_cons_self
          · refine .inr (.inr (.inr (.inl ⟨payload, ?_, hread⟩)))
            show payload ∈ b'.client.writeQueue.tail
            rw [hclient, hnext]
            exact hmem
    · exact .inr (.inr (.inr (.inr ⟨payload, List.mem_append_left _ hmem, hread⟩)))

/-- A step that leaves the flags, the queue and the operations as they are. -/
theorem Sound.same (h : s.Sound) (hconnecting : s'.connecting = s.connecting)
    (hreading : s'.reading = s.reading) (hwriting : s'.writing = s.writing)
    (hflows : Flows s.writing s.bridged.written.length s.bridged →
      Flows s'.writing s'.bridged.written.length s'.bridged)
    (hhandshake : s'.client.handshakeComplete = s.client.handshakeComplete)
    (hhello : s'.client.helloComplete = s.client.helloComplete)
    (hstream : s'.client.hasWebsocket = s.client.hasWebsocket)
    (hqueue : s'.client.writeQueue = s.client.writeQueue)
    (halive : s.Connected → s'.Alive) : s'.Sound where
  flows := hflows h.flows
  fresh hmaking :=
    have hfresh := h.fresh (hconnecting.symm.trans hmaking)
    { handshake := hhandshake.trans hfresh.handshake
      hello := hhello.trans hfresh.hello
      queue := hqueue.trans hfresh.queue
      stream := hstream.trans hfresh.stream
      reading := hreading.trans hfresh.reading
      writing := hwriting.trans hfresh.writing }
  reads hdone := hreading.trans (h.reads (hhandshake.symm.trans hdone))
  alive hconnected := by
    refine halive ((connected_iff h.flows).mpr ?_)
    rw [← hhandshake, ← hhello]
    exact (connected_iff (hflows h.flows)).mp hconnected

theorem Sound.submit (h : s.Sound) (command : CrudCommandMessage) : (s.submit command).Sound :=
  h.same rfl rfl rfl (fun hflows => hflows) rfl rfl rfl rfl fun hconnected =>
    (h.alive hconnected).mono rfl le_rfl (List.subset_append_left _ _) (fun _ hmem => hmem)
      fun _ hmem => hmem

theorem Sound.setSequence (h : s.Sound) (requestSequence : UInt64) :
    (s.setClient { s.client with requestSequence := requestSequence }).Sound :=
  h.same rfl rfl rfl (fun hflows => hflows.of_same rfl rfl rfl rfl rfl rfl) rfl rfl rfl rfl
    fun hconnected => (h.alive hconnected).mono rfl le_rfl (fun _ hmem => hmem)
      (fun _ hmem => hmem) fun _ hmem => hmem

theorem Sound.requestRead (h : s.Sound) (ackSequence : UInt64) :
    (s.requestRead ackSequence).Sound :=
  (h.setSequence _).submit _

theorem submitCommand_connected (core : MuninnWebSocketClient) (command : CrudCommandMessage)
    (hrunning : core.running = true) (hconnected : core.connected = true) (hpull : IsPull command) :
    ∃ command', core.submitCommand command = .ok command' ∧ IsPull command' := by
  rw [MuninnWebSocketClient.submitCommand, if_neg (by rw [hrunning]; decide),
    if_neg (by rw [hconnected]; decide)]
  split
  · exact ⟨_, rfl, hpull⟩
  · exact ⟨_, rfl, hpull⟩

/-- A read that is requested while connected is posted. -/
theorem requestRead_posts (hconnected : s.Connected) (ackSequence : UInt64) :
    ∃ command ∈ (s.requestRead ackSequence).posted, IsPull command := by
  have hrunning : s.client.running = true := by
    rw [Connected, MuninnWebSocketClient.connected, Bool.and_eq_true, Bool.and_eq_true] at hconnected
    exact hconnected.1.1
  obtain ⟨command, hsubmit, hpull⟩ := submitCommand_connected
    (s.client.readCommand ackSequence).2.core (s.client.readCommand ackSequence).1 hrunning
    hconnected ⟨rfl, rfl⟩
  refine ⟨command, ?_, hpull⟩
  have hposted : (s.requestRead ackSequence).posted = s.posted ++
      ((s.client.readCommand ackSequence).2.core.submitCommand
        (s.client.readCommand ackSequence).1).toOption.toList := rfl
  rw [hposted, hsubmit]
  exact List.mem_append_right _ List.mem_cons_self

theorem Sound.expire (h : s.Sound) :
    ({ s.setClient { s.client with pullTimer := none } with pulls := s.pulls + 1 } :
      BridgeSystem).Sound :=
  h.same rfl rfl rfl (fun hflows => hflows.of_same rfl rfl rfl rfl rfl rfl) rfl rfl rfl rfl
    fun _ => .inr (.inl (Nat.succ_pos _))

/-- The handler of the pull timer hands the loop on to a posted command. -/
theorem Sound.pull (h : s.Sound) : ({ s with pulls := s.pulls - 1 } : BridgeSystem).onPull.Sound := by
  have hflows := h.flows
  rw [onPull]
  split
  next hnot =>
    have hlost : s.client.helloComplete = false := by
      rw [← Bool.not_eq_true]
      intro hhello
      change (!s.client.running || !s.client.helloComplete || !s.client.autoPullEnabled) = true at hnot
      rw [show s.client.running = true from hflows.running, hhello,
        show s.client.autoPullEnabled = true from hflows.pulling] at hnot
      exact absurd hnot (by decide)
    refine h.same rfl rfl rfl (fun hflows => hflows) rfl rfl rfl rfl fun hconnected => ?_
    exact absurd (hlost.symm.trans ((connected_iff hflows).mp hconnected).2) Bool.false_ne_true
  next =>
    refine h.same rfl rfl rfl (fun hflows => hflows.of_same rfl rfl rfl rfl rfl rfl) rfl rfl rfl rfl
      fun hconnected => .inr (.inr (.inl ?_))
    exact requestRead_posts (s := { s with pulls := s.pulls - 1 }) hconnected _

/-- A posted command goes to the queue, or is dropped where the connection is lost. -/
theorem Sound.runPosted (h : s.Sound) {i : Nat} {command : CrudCommandMessage}
    (hcommand : s.posted[i]? = some command)
    (hstep : { s with posted := s.posted.eraseIdx i }.handle (postedCommand command) = some s') :
    s'.Sound := by
  obtain ⟨⟨hflows, hqueues, hdropped, hqueued⟩, hs'⟩ :=
    handle_some hstep (ends_postedCommand h.flows command)
  generalize s'.bridged = b' at hflows hqueues hdropped hqueued hs'
  subst hs'
  refine ⟨hflows.settle, fun hmaking => ?_, fun hdone => h.reads (hqueues.handshake.symm.trans hdone),
    fun hconnected => ?_⟩
  · have hfresh := h.fresh hmaking
    obtain ⟨hqueue, hwritten⟩ := hdropped hfresh.hello
    have hwriting : (s.writing || decide (s.bridged.written.length < b'.written.length)) = false := by
      rw [hfresh.writing, hwritten, Bool.false_or]
      exact decide_eq_false (lt_irrefl _)
    exact
      { handshake := hqueues.handshake.trans hfresh.handshake
        hello := hqueues.hello.trans hfresh.hello
        queue := hqueue.trans hfresh.queue
        stream := hqueues.stream.trans hfresh.stream
        reading := hfresh.reading
        writing := hwriting }
  · obtain ⟨hdone, hhello⟩ := (connected_iff hflows.settle).mp hconnected
    have hhelloBefore : s.client.helloComplete = true := hqueues.hello.symm.trans hhello
    have hbefore : s.Connected :=
      (connected_iff h.flows).mpr ⟨hqueues.handshake.symm.trans hdone, hhelloBefore⟩
    rcases h.alive hbefore with hset | hdue | ⟨other, hmem, hpull⟩ | ⟨payload, hmem, hread⟩ |
      ⟨payload, hmem, hread⟩
    · refine .inl ?_
      show b'.client.pullTimer.isSome = true
      rw [hqueues.timer]
      exact hset
    · exact .inr (.inl hdue)
    · obtain ⟨hi, hget⟩ := List.getElem?_eq_some_iff.mp hcommand
      have hperm := List.getElem_cons_eraseIdx_perm hi
      rcases List.mem_cons.mp (hperm.mem_iff.mpr hmem) with hthis | hmem
      · obtain rfl := hthis.trans hget
        obtain ⟨payload, hpassed, hread⟩ :=
          hqueued (hqueues.handshake.symm.trans hdone) hhelloBefore hpull
        rcases hpassed with hqueue | hwritten
        · exact .inr (.inr (.inr (.inl ⟨payload, hqueue, hread⟩)))
        · exact .inr (.inr (.inr (.inr ⟨payload, List.mem_append_right _ hwritten, hread⟩)))
      · exact .inr (.inr (.inl ⟨other, hmem, hpull⟩))
    · exact .inr (.inr (.inr (.inl ⟨payload, hqueues.keeps hmem, hread⟩)))
    · exact .inr (.inr (.inr (.inr ⟨payload, List.mem_append_left _ hmem, hread⟩)))

theorem Sound.reconnect (h : s.Sound) (hreading : s.reading = false) (hwriting : s.writing = false)
    (hstep : s.reconnect = some s') : s'.Sound := by
  obtain ⟨mid, hmid, rfl⟩ := Option.map_eq_some_iff.mp hstep
  have hends : Ends startConnect { s.bridged with client := { s.client with reconnectTimer := false } }
      fun _ b' => Steady s.bridged.written.length b' ∧ b'.client.handshakeComplete = false ∧
        b'.client.helloComplete = false ∧ b'.client.writeQueue = [] ∧
        b'.client.hasWebsocket = true ∧ b'.written = s.bridged.written := by
    refine Ends.bind (Ends.get (Ends.ite (fun hstopped => ?_) fun _ => ?_))
    · change (!s.client.running) = true at hstopped
      rw [show s.client.running = true from h.flows.running] at hstopped
      exact absurd hstopped (by decide)
    · exact Ends.modify ⟨⟨h.flows.running, h.flows.pulling, fun _ => rfl, le_rfl⟩, rfl, rfl, rfl, rfl, rfl⟩
  obtain ⟨⟨hsteady, hhandshake, hhello, hqueue, hstream, hwritten⟩, hmid⟩ := handle_some hmid hends
  generalize mid.bridged = b' at hsteady hhandshake hhello hqueue hstream hwritten hmid
  subst hmid
  have hflows := (hsteady.lost (w := s.writing) hhandshake).settle
  refine ⟨hflows, fun _ => ?_, fun hdone => ?_, fun hconnected => ?_⟩
  · refine ⟨hhandshake, hhello, hqueue, hstream, hreading, ?_⟩
    show (s.writing || decide (s.bridged.written.length < b'.written.length)) = false
    rw [hwriting, hwritten, Bool.false_or]
    exact decide_eq_false (lt_irrefl _)
  · exact absurd (hhandshake.symm.trans hdone) Bool.false_ne_true
  · refine absurd ?_ Bool.false_ne_true
    exact hhandshake.symm.trans ((connected_iff hflows).mp hconnected).1

theorem Sound.step (h : s.Sound) {event : BridgeEvent} (hstep : step parse s event = some s') :
    s'.Sound := by
  cases event with
  | connectFails reason =>
      obtain ⟨_, hstep⟩ := Option.ite_none_right_eq_some.mp hstep
      exact Sound.reconnecting hstep h.flows.toSteady rfl
  | handshakes =>
      obtain ⟨hmaking, hstep⟩ := Option.ite_none_right_eq_some.mp hstep
      exact h.handshakes hmaking hstep
  | readFails closed =>
      obtain ⟨hreading, hstep⟩ := Option.ite_none_right_eq_some.mp hstep
      exact Sound.reconnecting hstep h.flows.toSteady (h.not_connecting (.inl hreading))
  | message text =>
      obtain ⟨hreading, hstep⟩ := Option.ite_none_right_eq_some.mp hstep
      cases hanswer : answered parse text with
      | none =>
          refine Sound.onMessage true h hreading ?_ (fun _ => ?_) hstep
          · exact (ends_handleMessage h.flows parse text).mono fun _ _ ⟨hflows, hafter⟩ =>
              ⟨hflows, hafter.imp_left fun hclient => ⟨rfl, hclient⟩⟩
          · rw [awaiting, hanswer]
      | some id =>
          refine Sound.onMessage false h hreading ?_ (fun hkept => absurd hkept Bool.false_ne_true)
            hstep
          exact (ends_answer h.flows hanswer).mono fun _ _ ⟨hflows, hafter⟩ => ⟨hflows, .inr hafter⟩
  | writeCompletes failed =>
      obtain ⟨hwriting, hstep⟩ := Option.ite_none_left_eq_some.mp hstep
      have hwriting : s.writing = true := by simpa using hwriting
      cases failed with
      | true =>
          exact Sound.reconnecting hstep h.flows.toSteady (h.not_connecting (.inr hwriting))
      | false => exact h.written hwriting hstep
  | pullExpires =>
      obtain ⟨_, hstep⟩ := Option.ite_none_right_eq_some.mp hstep
      obtain rfl := Option.some.inj hstep
      exact h.expire
  | pull =>
      obtain ⟨_, hstep⟩ := Option.ite_none_left_eq_some.mp hstep
      obtain rfl := Option.some.inj hstep
      exact h.pull
  | submit command =>
      obtain rfl := Option.some.inj hstep
      exact h.submit command
  | requestRead ackSequence =>
      obtain rfl := Option.some.inj hstep
      exact h.requestRead ackSequence
  | runPosted i =>
      rw [BridgeSystem.step] at hstep
      split at hstep
      next command hcommand => exact h.runPosted hcommand hstep
      next => cases hstep
  | reconnectExpires =>
      obtain ⟨hguard, hstep⟩ := Option.ite_none_right_eq_some.mp hstep
      rw [Bool.and_eq_true, Bool.and_eq_true, Bool.not_eq_true', Bool.not_eq_true'] at hguard
      exact h.reconnect hguard.1.2 hguard.2 hstep

end

theorem sound_started (options : MuninnClientOptions) (hello : HelloMessage) :
    (started options hello).Sound where
  flows := ⟨⟨rfl, rfl, nofun, le_rfl⟩, nofun⟩
  fresh _ := ⟨rfl, rfl, rfl, rfl, rfl, rfl⟩
  reads := nofun
  alive := nofun

end BridgeSystem

open BridgeSystem

/-- In every state that is reached with the bridge connected, something carries the pull
loop; a read is outstanding, and a write where the queue is not empty. -/
theorem pull_loop_alive (parse : Str → Option Json) (options : MuninnClientOptions)
    (hello : HelloMessage) (events : List BridgeEvent) :
    EachState (step parse) (started options hello) events fun s => s.Connected →
      s.Alive ∧ s.reading = true ∧ (s.client.writeQueue ≠ [] → s.writing = true) := by
  intro pre post s _ hrun hconnected
  have hsound : s.Sound := runs_keeps (fun h hstep => h.step hstep) (sound_started options hello) hrun
  obtain ⟨hdone, -⟩ := (connected_iff hsound.flows).mp hconnected
  refine ⟨hsound.alive hconnected, hsound.reads hdone, fun hne => ?_⟩
  have hwrites := hsound.flows.writes hdone hne
  rwa [decide_eq_false (lt_irrefl _), Bool.or_false] at hwrites

/-! ### A read that is answered while its write is in flight -/

/-- A parser that knows a welcome and the answer to a read. -/
def parseReplies (text : Str) : Option Json :=
  if text = str "welcome" then some ({ accepted := true } : HelloAckMessage).toJson
  else if text = str "result" then
    some ({ requestId := str "read-1", ok := true } : CrudResultMessage).toJson
  else none

def answeredEarly : List BridgeEvent :=
  [.handshakes, .message (str "welcome"), .writeCompletes false, .pullExpires, .pull, .runPosted 0,
    .message (str "result"), .writeCompletes false]

theorem answeredEarly_ends :
    (runs (step parseReplies) (started {} {}) answeredEarly).map (fun s =>
        (s.client.core.connected, s.pulls, s.posted.length, s.client.writeQueue.length,
          (s.received.filter fun payload => (readOf payload).isSome).length)) =
      some (true, 0, 0, 0, 0) := by
  decide +kernel

/-- The bridge is connected, owed nothing and has nothing under way, so the timer is armed. -/
theorem pull_loop_alive_early :
    ∃ s, runs (step parseReplies) (started {} {}) answeredEarly = some s ∧ s.Connected ∧ s.Alive := by
  obtain ⟨s, hrun, hends⟩ := Option.map_eq_some_iff.mp answeredEarly_ends
  have hconnected : s.Connected := (Prod.mk.inj hends).1
  exact ⟨s, hrun, hconnected,
    (pull_loop_alive parseReplies {} {} answeredEarly answeredEarly [] s
      (List.append_nil _).symm hrun hconnected).1⟩

end ServerStorage.Hugin
