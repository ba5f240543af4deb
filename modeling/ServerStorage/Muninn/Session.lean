/-
# `ServerStorage.Muninn.Session` — `CrudWebsocketSession` of `ws_crud_server.cpp`

What one session does with one text message.  A handler works on the session, the
store and the replies it has queued, and may be left by an exception; what it did
before that stays done (`SessionM`).  The text is read by `parse`, the JSON library's
parser under `text_to_json`.  Logging is left out.
-/
import ServerStorage.Muninn.Processor

namespace ServerStorage.Muninn

open Lib Lmdb Crud

/-- The members of a session that its handlers read and write. -/
structure CrudWebsocketSession where
  helloAccepted : Bool := false
  peerHostId : Str := []
  peerClientInstanceId : Str := []
  consumerId : Str := []
  deriving DecidableEq, Repr

/-- The surroundings of one message: the file system under the server's scan options,
and the faults of the transactions. -/
structure MessageIo where
  scan : Str → RawScanResult := fun _ => {}
  register : List (Option Fault) := []
  ingestAck : List (Option Fault) := []
  command : CommandIo := {}

/-- How a handler is left other than by returning: by an exception of the JSON library or of
a vector, or not at all. -/
inductive Escape where
  | raised (e : JsonException)
  | lengthError
  | diverged
  deriving DecidableEq, Repr

/-- What a handler works on. -/
structure Served where
  session : CrudWebsocketSession := {}
  store : LmdbStore := {}
  /-- The messages put into the write queue. -/
  sent : List Json := []

abbrev SessionM (α : Type) := ExceptT Escape (StateM Served) α

namespace CrudWebsocketSession

def clientInstanceAllowed (configuredPattern clientInstanceId : Str) : Bool :=
  if configuredPattern = [] then true
  else if configuredPattern.getLast? = some 42 then
    -- a trailing `*` asks for the prefix before it
    configuredPattern.dropLast.isPrefixOf clientInstanceId
  else clientInstanceId == configuredPattern

/-- `validate_bridge_auth_token`: the reason of a refusal. -/
def validateBridgeAuthToken (hello : HelloMessage) (options : CrudServerOptions) : Option String :=
  if options.securityMode = .prod ∧ options.bridgeAuthToken = [] then
    some "server bridge auth token is not configured."
  else if options.securityMode = .prod ∧ hello.authToken = [] then
    some "bridge auth token is required in production mode."
  else if options.bridgeAuthToken ≠ [] ∧ hello.authToken ≠ options.bridgeAuthToken then
    some "bridge auth token mismatch."
  else none

def makeErrorResult (requestId message : Str) : CrudResultMessage :=
  { requestId := requestId, ok := false, message := message }

/-! ## The steps of a handler -/

/-- A value read from a message; an exception of the library leaves the handler. -/
def reading {α : Type} (parsed : Parsed α) : SessionM α :=
  match parsed with
  | .ok a => pure a
  | .error e => throw (.raised e)

/-- `enqueue_json`: the text is made at once. -/
def enqueueJson (payload : Json) : SessionM Unit := do
  if payload.dumps then modify fun served => { served with sent := served.sent ++ [payload] }
  else throw (.raised Json.invalidUtf8)

/-- A method of the store. -/
def storing {α : Type} (method : LmdbStore → α × LmdbStore) : SessionM α := do
  let served ← get
  set { served with store := (method served.store).2 }
  return (method served.store).1

def refuseHello (reason : Str) : SessionM Unit :=
  enqueueJson ({ accepted := false, reason := reason } : HelloAckMessage).toJson

def handleHello (options : CrudServerOptions) (io : MessageIo) (payload : Json) :
    SessionM Unit := do
  match ← reading (parseHello payload) with
  | none => refuseHello (str "Invalid hello payload.")
  | some hello =>
      if hello.clientInstanceId = [] then refuseHello (str "client_instance_id is required.")
      else if !clientInstanceAllowed options.allowedClientInstanceId hello.clientInstanceId then
        refuseHello (str "client_instance_id is not allowed.")
      else
        match validateBridgeAuthToken hello options with
        | some reason => refuseHello (str reason)
        | none => do
            let consumerId := hello.clientInstanceId ++ str ":" ++ hello.hostId
            let status ← storing fun store =>
              store.registerTransportConsumer consumerId io.register
            if !status.ok then
              refuseHello (str "failed to initialize transport consumer state.")
            else do
              modify fun served =>
                { served with
                  session :=
                    { helloAccepted := true
                      peerHostId := hello.hostId
                      peerClientInstanceId := hello.clientInstanceId
                      consumerId := consumerId } }
              enqueueJson ({ accepted := true } : HelloAckMessage).toJson

def handleIngestAck (io : MessageIo) (payload : Json) : SessionM Unit := do
  match ← reading (parseIngestAck payload) with
  | none => enqueueJson (makeErrorResult [] (str "Invalid ingest_ack payload.")).toJson
  | some ack =>
      if !ack.ok ∨ ack.ackSequence = 0 then return ()
      else do
        let consumerId := (← get).session.consumerId
        let status ← storing fun store =>
          store.ackTransportUntilForConsumer consumerId ack.ackSequence io.ingestAck
        if !status.ok then enqueueJson (makeErrorResult ack.requestId status.message.bytes).toJson
        else return ()

/-- What the processor has come to. -/
def sendAnswer : Option CrudResultMessage → SessionM Unit
  | none => throw .lengthError
  | some result => enqueueJson result.toJson

def handleCommand (options : CrudServerOptions) (io : MessageIo) (payload : Json) :
    SessionM Unit := do
  match ← reading (parseCrudCommand payload) with
  | none => enqueueJson (makeErrorResult [] (str "Invalid crud_command payload.")).toJson
  | some command => do
      let served ← get
      match CrudCommandProcessor.process options io.scan served.store command
        served.session.consumerId io.command with
      | none => throw .diverged
      | some (answer, store) => do
          set { served with store := store }
          sendAnswer answer

/-- A message that needs an accepted hello before it. -/
def authenticated (payload : Json) (refusal : String) (handler : SessionM Unit) :
    SessionM Unit := do
  if (← get).session.helloAccepted then handler
  else do
    let requestId ← reading (stringOr payload "request_id")
    enqueueJson (makeErrorResult requestId (str refusal)).toJson

/-- The dispatch on the type of a message. -/
def dispatch (options : CrudServerOptions) (io : MessageIo) (payload : Json) :
    SessionM Unit := do
  let type ← reading (stringOr payload "type")
  if type = str "hello" then handleHello options io payload
  else if type = str "ingest_ack" then
    authenticated payload "hello must be completed before ingest_ack."
      (handleIngestAck io payload)
  else if type = str "crud_command" then
    authenticated payload "hello must be completed before crud_command."
      (handleCommand options io payload)
  else enqueueJson (makeErrorResult [] (str "Unsupported message type.")).toJson

def handleMessage (parse : Str → Option Json) (options : CrudServerOptions) (io : MessageIo)
    (text : Str) : SessionM Unit :=
  match parse text with
  | none => enqueueJson (makeErrorResult [] (str "Malformed JSON message.")).toJson
  | some payload =>
      if !payload.isObject then
        enqueueJson (makeErrorResult [] (str "Malformed JSON message.")).toJson
      else dispatch options io payload

end CrudWebsocketSession

end ServerStorage.Muninn
