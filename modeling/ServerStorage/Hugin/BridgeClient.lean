/-
# `ServerStorage.Hugin.BridgeClient` — the handlers of `net/muninn_client.cpp`

What `MuninnWebSocketClient` does with one message from Muninn, and with the events of its
connection.  A handler works on the client and on what it has handed to the callbacks and
to the stream; an exception of the JSON library may leave it, and what it did before that
stays done (`ClientM`).  A message in a queue is the value its text was made of, as `dump`
makes the text at once.  The reconnect delays and the counts kept for the log are left out.
-/
import ServerStorage.Hugin.MuninnClient

namespace ServerStorage.Hugin

open Lib Crud ServerStorage.Muninn

/-- The interval the pull timer was set to. -/
inductive PullInterval where
  | hot | idle
  deriving DecidableEq, Repr

/-- The members that the handlers read and write. -/
structure BridgeClient where
  options : MuninnClientOptions := {}
  /-- `options_.auto_pull_enabled` -/
  autoPullEnabled : Bool := true
  /-- `options_.host_id`, `options_.client_instance_id` and `options_.auth_token`, as the
  hello sends them. -/
  hello : HelloMessage := {}
  hasWebsocket : Bool := false
  writeQueue : List Json := []
  pendingAfterHello : List Json := []
  requestSequence : UInt64 := 0
  lastAckSequence : UInt64 := 0
  reconnectAttempt : UInt32 := 0
  running : Bool := false
  handshakeComplete : Bool := false
  helloComplete : Bool := false
  pullTimer : Option PullInterval := none
  /-- `reconnect_timer_` is set. -/
  reconnectTimer : Bool := false

/-- What a handler works on. -/
structure Bridged where
  client : BridgeClient := {}
  /-- What `on_result_` was called with. -/
  results : List CrudResultMessage := []
  /-- What `on_connection_state_` was called with. -/
  states : List (Bool × Str) := []
  /-- The messages whose writes were started. -/
  written : List Json := []

abbrev ClientM (α : Type) := ExceptT JsonException (StateM Bridged) α

namespace BridgeClient

/-- The members that a command passes on its way to the queue. -/
def core (client : BridgeClient) : MuninnWebSocketClient :=
  { options := client.options
    hasWebsocket := client.hasWebsocket
    requestSequence := client.requestSequence
    running := client.running
    handshakeComplete := client.handshakeComplete
    helloComplete := client.helloComplete }

def changing (f : BridgeClient → BridgeClient) : ClientM Unit :=
  modify fun bridged => { bridged with client := f bridged.client }

/-! ## The write queue -/

def doWrite : ClientM Unit := do
  let client := (← get).client
  if !client.running || !client.handshakeComplete || !client.hasWebsocket then return ()
  else
    modify fun bridged => { bridged with written := bridged.written ++ client.writeQueue.head?.toList }

def enqueueText (payload : Json) : ClientM Unit := do
  let idle := (← get).client.writeQueue.isEmpty
  changing fun client => { client with writeQueue := client.writeQueue ++ [payload] }
  if idle then doWrite else return ()

def enqueueJson (payload : Json) : ClientM Unit :=
  if payload.dumps then enqueueText payload else throw Json.invalidUtf8

/-- `on_write` without an error. -/
def onWritten : ClientM Unit := do
  if !(← get).client.running then return ()
  else
    changing fun client => { client with writeQueue := client.writeQueue.tail }
    if (← get).client.writeQueue.isEmpty then return () else doWrite

/-! ## Commands -/

/-- The handler that `submit_command` posts. -/
def postedCommand (command : CrudCommandMessage) : ClientM Unit := do
  let (command, core) := (← get).client.core.numbered command
  changing fun client => { client with requestSequence := core.requestSequence }
  if !command.toJson.dumps then throw Json.invalidUtf8
  else if !(← get).client.helloComplete then return ()
  else enqueueText command.toJson

/-- The command of `request_read`, and the client after giving it its id. -/
def readCommand (client : BridgeClient) (ackSequence : UInt64) :
    CrudCommandMessage × BridgeClient :=
  let (requestId, core) := client.core.nextRequestId "read"
  ({ requestId := requestId
     operation := .read
     ackSequence := ackSequence
     outboxBatchSize := (max 1 client.options.outboxBatchSize).toUInt32 },
    { client with requestSequence := core.requestSequence })

/-! ## The connection -/

def notifyConnectionState (connected : Bool) (message : String) : ClientM Unit :=
  modify fun bridged => { bridged with states := bridged.states ++ [(connected, str message)] }

def scheduleReconnect (reason : String) : ClientM Unit := do
  if !(← get).client.running then return ()
  else
    changing fun client =>
      { client with
        handshakeComplete := false
        helloComplete := false
        reconnectAttempt := client.reconnectAttempt + 1 }
    notifyConnectionState false reason
    changing fun client =>
      { client with pullTimer := none, hasWebsocket := false, reconnectTimer := true }

def startConnect : ClientM Unit := do
  if !(← get).client.running then return ()
  else
    changing fun client =>
      { client with
        handshakeComplete := false
        helloComplete := false
        writeQueue := []
        hasWebsocket := true }

/-- `on_handshake` without an error. -/
def onHandshake : ClientM Unit := do
  if !(← get).client.running then return ()
  else
    changing fun client => { client with handshakeComplete := true }
    enqueueJson (← get).client.hello.toJson

def flushPendingCommands : ClientM Unit := do
  (← get).client.pendingAfterHello.forM enqueueText
  changing fun client => { client with pendingAfterHello := [] }

def scheduleNextPull (hadRecords : Bool) : ClientM Unit :=
  changing fun client =>
    if !client.running || !client.helloComplete || !client.autoPullEnabled then client
    else { client with pullTimer := some (if hadRecords then .hot else .idle) }

/-! ## Messages -/

def sendIngestAck (ackSequence : UInt64) (requestId : Str) : ClientM Unit :=
  enqueueJson
    ({ requestId, ok := true, ackSequence, message := str "ok" } : IngestAckMessage).toJson

/-- The highest sequence of the records, or the ack where that is higher. -/
def maxSequence (lastAckSequence : UInt64) (records : List TransportRecordMessage) : UInt64 :=
  records.foldl (fun highest record => max highest record.sequence) lastAckSequence

/-- The ack of a result that goes beyond what was acked. -/
def acknowledge (result : CrudResultMessage) : ClientM Unit := do
  let lastAckSequence := (← get).client.lastAckSequence
  let highest := maxSequence lastAckSequence result.records
  if lastAckSequence < highest then do
    sendIngestAck highest result.requestId
    changing fun client => { client with lastAckSequence := highest }
  else return ()

def applyCrudResult (result : CrudResultMessage) : ClientM Unit := do
  modify fun bridged => { bridged with results := bridged.results ++ [result] }
  acknowledge result
  scheduleNextPull (!result.records.isEmpty)

/-- A value read from a message; an exception of the library leaves the handler. -/
def reading {α : Type} (parsed : Parsed α) : ClientM α :=
  match parsed with
  | .ok a => pure a
  | .error e => throw e

def handleHelloAck (payload : Json) : ClientM Unit := do
  match ← reading (parseHelloAck payload) with
  | none => scheduleReconnect "hello_rejected"
  | some helloAck =>
      if !helloAck.accepted then scheduleReconnect "hello_rejected"
      else
        changing fun client => { client with helloComplete := true, reconnectAttempt := 0 }
        notifyConnectionState true "connected"
        flushPendingCommands
        if (← get).client.autoPullEnabled then scheduleNextPull false else return ()

def handleCrudResult (payload : Json) : ClientM Unit := do
  match ← reading (parseCrudResult payload) with
  | none => return ()
  | some result => applyCrudResult result

/-- The dispatch on the type of a message. -/
def dispatch (payload : Json) : ClientM Unit := do
  let type ← reading (stringOr payload "type")
  if type = str "hello_ack" then handleHelloAck payload
  else if type = str "crud_result" then handleCrudResult payload
  else return ()

def handleMessage (parse : Str → Option Json) (text : Str) : ClientM Unit :=
  match parse text with
  | none => return ()
  | some payload => if !payload.isObject then return () else dispatch payload

end BridgeClient

end ServerStorage.Hugin
