/-
# `ServerStorage.Hugin.MuninnClient` — commands through `net/muninn_client.cpp`

`submit_command` checks the connection and posts the command; the posted handler gives it
an id if it has none, makes its text and queues it for writing.  The connection may be lost
in between.
-/
import ServerStorage.Hugin.Materializer
import ServerStorage.Shared.CrudProtocol

namespace ServerStorage.Hugin

open Lib Crud ServerStorage.Muninn

structure MuninnClientOptions where
  outboxBatchSize : UInt64 := 256
  deriving DecidableEq, Repr

/-- The members that the path of a command reads and writes. -/
structure MuninnWebSocketClient where
  options : MuninnClientOptions := {}
  /-- `websocket_` holds a stream. -/
  hasWebsocket : Bool := false
  writeQueue : List Str := []
  requestSequence : UInt64 := 0
  running : Bool := false
  handshakeComplete : Bool := false
  helloComplete : Bool := false
  deriving DecidableEq, Repr

namespace MuninnWebSocketClient

def connected (client : MuninnWebSocketClient) : Bool :=
  client.running && client.handshakeComplete && client.helloComplete

def nextRequestId (client : MuninnWebSocketClient) (label : String) : Str × MuninnWebSocketClient :=
  let value := client.requestSequence + 1
  (str label ++ str "-" ++ decimal value.toNat, { client with requestSequence := value })

/-- `do_write`: the buffer handed to Asio. -/
def doWrite (client : MuninnWebSocketClient) : List Str :=
  if !client.running || !client.handshakeComplete || !client.hasWebsocket then []
  else client.writeQueue.head?.toList

/-- The client after `enqueue_text`, and the write it starts. -/
def enqueueText (client : MuninnWebSocketClient) (payload : Str) :
    MuninnWebSocketClient × List Str :=
  let idle := client.writeQueue.isEmpty
  let queued := { client with writeQueue := client.writeQueue ++ [payload] }
  (queued, if idle then queued.doWrite else [])

/-- `submit_command` up to the post: the command that is posted. -/
def submitCommand (client : MuninnWebSocketClient) (command : CrudCommandMessage) :
    Except Status CrudCommandMessage :=
  if !client.running then .error (.failure .internal "Muninn client is not running.")
  else if !client.connected then .error (.failure .internal "Muninn bridge is not connected.")
  else if command.outboxBatchSize = 0 then
    .ok { command with outboxBatchSize := (max 1 client.options.outboxBatchSize).toUInt32 }
  else .ok command

/-- The command with its id, and the client after giving it one. -/
def numbered (client : MuninnWebSocketClient) (command : CrudCommandMessage) :
    CrudCommandMessage × MuninnWebSocketClient :=
  if command.requestId = [] then
    let (requestId, client) := client.nextRequestId "cmd"
    ({ command with requestId }, client)
  else (command, client)

/-- The handler that `submit_command` posts, with `dump` the text of a JSON value: an
exception, or the writes started. -/
def postedCommand (dump : Json → Except JsonException Str) (client : MuninnWebSocketClient)
    (command : CrudCommandMessage) : MuninnWebSocketClient × Except JsonException (List Str) :=
  let (command, client) := client.numbered command
  match dump command.toJson with
  | .error e => (client, .error e)
  | .ok payload =>
      if !client.helloComplete then (client, .ok [])
      else
        let (client, writes) := client.enqueueText payload
        (client, .ok writes)

end MuninnWebSocketClient

end ServerStorage.Hugin
