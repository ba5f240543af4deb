/-
# `ServerStorage.Hugin.WebsocketSession` — the writing side of `WebsocketSession`

`send`, `do_write` and `on_write` of `api/frontend_api_server.cpp`.  The front of the queue
is the buffer that Asio writes from: a deque does not move its elements, so an element has
an address of its own, which no two sends share.

`Connection` is the session together with the writes Asio has been given and has not
completed.  A handler runs to its end before the next one starts, so a run is a list of
events.
-/
import ServerStorage.Lib.Bytes

namespace ServerStorage.Hugin

open Lib

inductive BackpressurePolicy where
  | dropOldest | dropNewest | disconnect
  deriving DecidableEq, Repr

/-- The options that bound the queue of a session. -/
structure FrontendApiServerOptions where
  wsMaxPendingMessages : UInt64 := 1024
  wsMaxPendingBytes : UInt64 := 8 * 1024 * 1024
  wsBackpressurePolicy : BackpressurePolicy := .dropOldest
  deriving DecidableEq, Repr

/-! ## The session -/

/-- An element of the queue. -/
structure Buffer where
  address : Nat
  text : Str
  deriving DecidableEq, Repr

def Buffer.size (buffer : Buffer) : UInt64 := buffer.text.length.toUInt64

structure WebsocketSession where
  writeQueue : List Buffer := []
  pendingBytes : UInt64 := 0
  deriving DecidableEq, Repr

/-- What a handler asks of the stream. -/
inductive Effect where
  | asyncWrite (buffer : Buffer)
  | close
  deriving DecidableEq, Repr

namespace WebsocketSession

def overLimit (options : FrontendApiServerOptions) (session : WebsocketSession)
    (payloadSize : UInt64) : Bool :=
  options.wsMaxPendingMessages.toNat ≤ session.writeQueue.length ||
    options.wsMaxPendingBytes < session.pendingBytes + payloadSize

/-- The loop of the policy `DropOldest`. -/
def evictOldest (options : FrontendApiServerOptions) (payloadSize : UInt64) :
    List Buffer → UInt64 → WebsocketSession
  | [], pendingBytes => { writeQueue := [], pendingBytes }
  | front :: rest, pendingBytes =>
      if overLimit options { writeQueue := front :: rest, pendingBytes } payloadSize then
        evictOldest options payloadSize rest (pendingBytes - front.size)
      else { writeQueue := front :: rest, pendingBytes }

def doWrite (session : WebsocketSession) : List Effect :=
  match session.writeQueue with
  | [] => []
  | front :: _ => [.asyncWrite front]

/-- The part of `send` behind the check of the limits. -/
def enqueue (session : WebsocketSession) (payload : Buffer) : WebsocketSession × List Effect :=
  let idle := session.writeQueue.isEmpty
  let queued : WebsocketSession :=
    { writeQueue := session.writeQueue ++ [payload]
      pendingBytes := session.pendingBytes + payload.size }
  (queued, if idle then queued.doWrite else [])

def send (options : FrontendApiServerOptions) (session : WebsocketSession) (payload : Buffer) :
    WebsocketSession × List Effect :=
  if session.overLimit options payload.size then
    match options.wsBackpressurePolicy with
    | .dropNewest => (session, [])
    | .dropOldest =>
        let evicted := evictOldest options payload.size session.writeQueue session.pendingBytes
        if evicted.overLimit options payload.size then (evicted, [])
        else evicted.enqueue payload
    | .disconnect => (session, [.close])
  else session.enqueue payload

def popFront (session : WebsocketSession) : WebsocketSession :=
  match session.writeQueue with
  | [] => session
  | front :: rest => { writeQueue := rest, pendingBytes := session.pendingBytes - front.size }

def onWrite (session : WebsocketSession) (error : Bool) : WebsocketSession × List Effect :=
  if error then (session, [])
  else (session.popFront, session.popFront.doWrite)

end WebsocketSession

/-! ## The session and its stream -/

/-- The session, the writes in flight, and what has happened so far: the messages that were
accepted, those the policy dropped again, and those that were written. -/
structure Connection where
  session : WebsocketSession := {}
  outstanding : List Buffer := []
  nextAddress : Nat := 0
  accepted : List Buffer := []
  dropped : List Buffer := []
  written : List Buffer := []
  deriving DecidableEq, Repr

/-- A posted `send` runs, or a write completes. -/
inductive WriterEvent where
  | send (text : Str)
  | complete (buffer : Buffer) (error : Bool)
  deriving DecidableEq, Repr

def writesOf (effects : List Effect) : List Buffer :=
  effects.filterMap fun effect =>
    match effect with
    | .asyncWrite buffer => some buffer
    | .close => none

namespace Connection

def afterSend (options : FrontendApiServerOptions) (c : Connection) (text : Str) : Connection :=
  let payload : Buffer := { address := c.nextAddress, text }
  let (session, effects) := c.session.send options payload
  { session
    outstanding := c.outstanding ++ writesOf effects
    nextAddress := c.nextAddress + 1
    accepted := c.accepted ++ [payload].filter (· ∈ session.writeQueue)
    dropped := c.dropped ++ c.session.writeQueue.filter (· ∉ session.writeQueue)
    written := c.written }

def afterWrite (c : Connection) (buffer : Buffer) (error : Bool) : Connection :=
  let (session, effects) := c.session.onWrite error
  { c with
    session
    outstanding := c.outstanding.erase buffer ++ writesOf effects
    written := if error then c.written else c.written ++ [buffer] }

/-- One event: only a write in flight can complete. -/
def step (options : FrontendApiServerOptions) (c : Connection) : WriterEvent → Option Connection
  | .send text => some (c.afterSend options text)
  | .complete buffer error =>
      if buffer ∈ c.outstanding then some (c.afterWrite buffer error) else none

def run (options : FrontendApiServerOptions) : Connection → List WriterEvent → Option Connection
  | c, [] => some c
  | c, event :: rest =>
      match c.step options event with
      | none => none
      | some next => run options next rest

end Connection

end ServerStorage.Hugin
