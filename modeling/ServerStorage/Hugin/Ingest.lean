/-
# `ServerStorage.Hugin.Ingest` — `ingest/ingest_coordinator.cpp` over the in-memory store

A call of `ingest` is cut where another may come in between: the check under the lock,
the append, the application to the sink, the update under the lock (`Phase`).  Metrics
are left out.  The sink is any `DownstreamSink`; `applications` and the checkpoint kept
with a returned result are history, read by no step.
-/
import ServerStorage.Hugin.MessageValidator

namespace ServerStorage.Hugin

open Lib ServerStorage.Muninn

/-! ## `storage/in_memory_ingest_store.cpp` -/

structure IngestLogRecord where
  hostId : Str := []
  sequence : UInt64 := 0
  receivedAtUnixSeconds : UInt64 := 0
  rawFrame : Str := []
  deriving DecidableEq, Repr

structure InMemoryIngestStore where
  checkpoints : Finmap (fun _ : Str => UInt64) := ∅
  records : Finmap (fun _ : Str => IngestLogRecord) := ∅

def invalidArgument (text : String) : Status := .failure .invalidArgument text

namespace InMemoryIngestStore

def makeKey (hostId : Str) (sequence : UInt64) : Str :=
  hostId ++ str "#" ++ decimal sequence.toNat

/-- The checkpoint of a host: `0` where there is none. -/
def checkpoint (store : InMemoryIngestStore) (hostId : Str) : UInt64 :=
  (store.checkpoints.lookup hostId).getD 0

def getCheckpoint (store : InMemoryIngestStore) (hostId : Str) : Except Status UInt64 :=
  if hostId = [] then .error (invalidArgument "Host id is empty.")
  else .ok (store.checkpoint hostId)

def hasRecord (store : InMemoryIngestStore) (hostId : Str) (sequence : UInt64) :
    Except Status Bool :=
  if hostId = [] ∨ sequence = 0 then .error (invalidArgument "Host id or sequence is invalid.")
  else .ok (store.records.lookup (makeKey hostId sequence)).isSome

/-- The record is put where its key is free; the checkpoint is raised either way. -/
def append (store : InMemoryIngestStore) (record : IngestLogRecord) : InMemoryIngestStore :=
  { records :=
      if (store.records.lookup (makeKey record.hostId record.sequence)).isSome then store.records
      else store.records.insert (makeKey record.hostId record.sequence) record
    checkpoints :=
      store.checkpoints.insert record.hostId (max (store.checkpoint record.hostId)
        record.sequence) }

def appendIfAbsentAndCheckpoint (store : InMemoryIngestStore) (record : IngestLogRecord) :
    Status × InMemoryIngestStore :=
  if record.hostId = [] ∨ record.sequence = 0 then
    (invalidArgument "Host id or sequence is invalid.", store)
  else (.success, store.append record)

end InMemoryIngestStore

/-! ## Decisions -/

inductive IngestAction where
  | committed | duplicate | gap
  deriving DecidableEq, Repr

structure IngestDecision where
  action : IngestAction := .committed
  shouldAck : Bool := true
  ackInclusiveSequence : UInt64 := 0
  expectedNextSequence : UInt64 := 0
  reason : Str := []
  deriving DecidableEq, Repr

structure IngestCoordinatorOptions where
  ackBatchSize : Nat := 1

structure HostState where
  loaded : Bool := false
  lastCommittedSequence : UInt64 := 0
  sinceLastAck : Nat := 0
  deriving DecidableEq, Repr

abbrev HostStates := Finmap (fun _ : Str => HostState)

structure IngestCall where
  hostId : Str
  sequence : UInt64
  rawFrame : Str
  receivedAtUnixSeconds : UInt64
  deriving DecidableEq, Repr

structure DownstreamSink (σ : Type) where
  applySnapshot : σ → Str → UInt64 → Snapshot → Status × σ
  applyDelta : σ → Str → UInt64 → DeltaSnapshot → Status × σ

/-- `MaterializerSink` as a sink. -/
def materializer : DownstreamSink MaterializerSink where
  applySnapshot := MaterializerSink.applySnapshot
  applyDelta := MaterializerSink.applyDelta

namespace IngestCoordinator

/-! ## The parts of `ingest` -/

/-- `load_host_state_locked`: a host met for the first time starts from its checkpoint. -/
def loadHostState (store : InMemoryIngestStore) (hostStates : HostStates) (hostId : Str) :
    Except Status HostState × HostStates :=
  let state := (hostStates.lookup hostId).getD {}
  if state.loaded then (.ok state, hostStates)
  else
    match store.getCheckpoint hostId with
    | .error status => (.error status, hostStates.insert hostId state)
    | .ok checkpoint =>
        let state := { loaded := true, lastCommittedSequence := checkpoint, sinceLastAck := 0 }
        (.ok state, hostStates.insert hostId state)

/-- The decision of the check under the lock; `none` lets the call go on. -/
def admission (state : HostState) (sequence : UInt64) : Option IngestDecision :=
  let expected := state.lastCommittedSequence + 1
  if sequence ≤ state.lastCommittedSequence then
    some { action := .duplicate
           shouldAck := true
           ackInclusiveSequence := state.lastCommittedSequence
           expectedNextSequence := expected
           reason := str "duplicate_sequence" }
  else if expected < sequence then
    some { action := .gap
           shouldAck := false
           ackInclusiveSequence := state.lastCommittedSequence
           expectedNextSequence := expected
           reason := str "sequence_gap" }
  else none

/-- From the start of the call to the end of the first critical section. -/
def admitted (store : InMemoryIngestStore) (hostStates : HostStates) (call : IngestCall) :
    Option (Except Status IngestDecision) × HostStates :=
  if call.hostId = [] then (some (.error (invalidArgument "Host id is empty.")), hostStates)
  else if call.sequence = 0 then (some (.error (invalidArgument "Sequence is zero.")), hostStates)
  else
    match loadHostState store hostStates call.hostId with
    | (.error status, hostStates) => (some (.error status), hostStates)
    | (.ok state, hostStates) => ((admission state call.sequence).map .ok, hostStates)

/-- The frame, parsed and validated. -/
def validated (call : IngestCall) : Except Status ValidatedRecord := do
  let frame ← parseMuninnFrame call.rawFrame
  validateAndDecode frame call.hostId

def recordOf (call : IngestCall) : IngestLogRecord :=
  { hostId := call.hostId
    sequence := call.sequence
    receivedAtUnixSeconds := call.receivedAtUnixSeconds
    rawFrame := call.rawFrame }

def applyToSink {σ : Type} (sink : DownstreamSink σ) (state : σ) (call : IngestCall)
    (record : ValidatedRecord) : Status × σ :=
  match record.snapshot, record.delta with
  | some snapshot, _ => sink.applySnapshot state call.hostId call.sequence snapshot
  | none, some delta => sink.applyDelta state call.hostId call.sequence delta
  | none, none => (.success, state)

/-- The second critical section. -/
def update (options : IngestCoordinatorOptions) (store : InMemoryIngestStore)
    (hostStates : HostStates) (call : IngestCall) (sinkStatus : Status) :
    Except Status IngestDecision × HostStates :=
  match loadHostState store hostStates call.hostId with
  | (.error status, hostStates) => (.error status, hostStates)
  | (.ok state, hostStates) =>
      let last := max state.lastCommittedSequence call.sequence
      let sinceLastAck := state.sinceLastAck + 1
      let shouldAck := decide (max 1 options.ackBatchSize ≤ sinceLastAck)
      (.ok { action := .committed
             shouldAck := shouldAck
             ackInclusiveSequence := last
             expectedNextSequence := last + 1
             reason := if sinkStatus.ok then str "committed" else str "committed_sink_failed" },
        hostStates.insert call.hostId
          { state with
            lastCommittedSequence := last
            sinceLastAck := if shouldAck then 0 else sinceLastAck })

end IngestCoordinator

/-! ## Calls under way -/

/-- How far a call has come. -/
inductive Phase where
  | admitted
  | appended (record : ValidatedRecord)
  | applied (sinkStatus : Status)
  /-- The result, and the checkpoint of the host when it was returned. -/
  | returned (result : Except Status IngestDecision) (checkpoint : UInt64)

structure Ingesting (σ : Type) where
  sink : σ
  store : InMemoryIngestStore := {}
  hostStates : HostStates := ∅
  calls : List (IngestCall × Phase) := []
  /-- The calls taken to the sink, in their order. -/
  applications : List IngestCall := []

/-- A call comes in and is checked, or one under way does its next step. -/
inductive IngestAct where
  | call (call : IngestCall)
  | advance (i : Nat)

namespace Ingesting

variable {σ : Type} (sink : DownstreamSink σ) (options : IngestCoordinatorOptions)

open IngestCoordinator

def setPhase (s : Ingesting σ) (i : Nat) (call : IngestCall) (phase : Phase) : Ingesting σ :=
  { s with calls := s.calls.set i (call, phase) }

def checkpointOf (s : Ingesting σ) (call : IngestCall) : UInt64 := s.store.checkpoint call.hostId

def accept (s : Ingesting σ) (call : IngestCall) : Ingesting σ :=
  let (result, hostStates) := admitted s.store s.hostStates call
  let phase := result.elim .admitted fun result => .returned result (s.checkpointOf call)
  { s with hostStates := hostStates, calls := s.calls ++ [(call, phase)] }

/-- Parse, validate, append. -/
def appendCall (s : Ingesting σ) (i : Nat) (call : IngestCall) : Ingesting σ :=
  match validated call with
  | .error status => s.setPhase i call (.returned (.error status) (s.checkpointOf call))
  | .ok record =>
      let (status, store) := s.store.appendIfAbsentAndCheckpoint (recordOf call)
      if !status.ok then s.setPhase i call (.returned (.error status) (s.checkpointOf call))
      else { s with store := store }.setPhase i call (.appended record)

def applyCall (s : Ingesting σ) (i : Nat) (call : IngestCall) (record : ValidatedRecord) :
    Ingesting σ :=
  let (status, state) := applyToSink sink s.sink call record
  { s with sink := state, applications := s.applications ++ [call] }.setPhase i call
    (.applied status)

def updateCall (s : Ingesting σ) (i : Nat) (call : IngestCall) (sinkStatus : Status) :
    Ingesting σ :=
  let (result, hostStates) := update options s.store s.hostStates call sinkStatus
  { s with hostStates := hostStates }.setPhase i call (.returned result (s.checkpointOf call))

def act (s : Ingesting σ) : IngestAct → Ingesting σ
  | .call call => s.accept call
  | .advance i =>
      match s.calls[i]? with
      | none => s
      | some (call, .admitted) => s.appendCall i call
      | some (call, .appended record) => s.applyCall sink i call record
      | some (call, .applied sinkStatus) => s.updateCall options i call sinkStatus
      | some (_, .returned _ _) => s

def run (s : Ingesting σ) (acts : List IngestAct) : Ingesting σ :=
  acts.foldl (act sink options) s

end Ingesting

end ServerStorage.Hugin
