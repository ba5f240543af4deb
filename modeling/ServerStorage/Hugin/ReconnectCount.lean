/-
# `ServerStorage.Hugin.ReconnectCount` — how often a lost connection is counted

`schedule_reconnect` with the members it counts in, and the handlers that call it.  The
loss of a connection is the handler that finds it first, and the handlers of what else was
outstanding, which complete with `operation_aborted`.  Each of these calls
`schedule_reconnect` again, so a loss is counted once for every operation that was
outstanding.
-/
import ServerStorage.Lib.Handlers
import ServerStorage.Hugin.Inbound

namespace ServerStorage.Hugin

open Lib Crud ServerStorage.Muninn

/-- The client with the count of `reconnect_events_total_`.  `armed` is history: the
attempts for whose delay the reconnect timer was set, one for each time it was. -/
structure CountedBridge where
  bridged : Bridged := {}
  reconnectEventsTotal : UInt64 := 0
  armed : List UInt32 := []

inductive StreamOperation where
  | read | write
  deriving DecidableEq

/-- How an operation completes. -/
inductive Completion where
  /-- A read, with `websocket::error::closed`. -/
  | readClosed
  /-- A read, with any other error. -/
  | readFailed
  | message (payload : Json)
  | writeFailed

namespace Completion

def operation : Completion → StreamOperation
  | writeFailed => .write
  | _ => .read

/-- With `operation_aborted`. -/
def aborted : StreamOperation → Completion
  | .read => readFailed
  | .write => writeFailed

end Completion

/-- The message is a hello ack that `handle_message` does not accept. -/
def helloRejected (payload : Json) : Bool :=
  match stringOr payload "type" with
  | .ok type =>
      decide (type = str "hello_ack") &&
        match parseHelloAck payload with
        | .ok found => found.elim true fun helloAck => !helloAck.accepted
        | .error _ => false
  | .error _ => false

namespace CountedBridge

open BridgeClient

def attempt (s : CountedBridge) : UInt32 := s.bridged.client.reconnectAttempt

def running (s : CountedBridge) : Bool := s.bridged.client.running

def ran (s : CountedBridge) (handler : ClientM Unit) : CountedBridge :=
  { s with bridged := (handler.run.run s.bridged).2 }

def scheduleReconnect (s : CountedBridge) (reason : String) : CountedBridge :=
  if !s.running then s
  else
    { s.ran (BridgeClient.scheduleReconnect reason) with
      reconnectEventsTotal := s.reconnectEventsTotal + 1
      armed := s.armed ++ [s.attempt + 1] }

/-- `on_read` and `on_write`, where they end in an error or in a message. -/
def complete (s : CountedBridge) : Completion → CountedBridge
  | .readClosed => s.scheduleReconnect "remote_closed"
  | .readFailed => s.scheduleReconnect "read_failed"
  | .message payload =>
      if !s.running then s
      else if helloRejected payload then s.scheduleReconnect "hello_rejected"
      else s.ran (dispatch payload)
  | .writeFailed => s.scheduleReconnect "write_failed"

/-- A rejected hello is a message whose handling is `schedule_reconnect`. -/
theorem dispatch_rejected {payload : Json} (h : helloRejected payload = true) :
    dispatch payload = BridgeClient.scheduleReconnect "hello_rejected" := by
  rw [helloRejected] at h
  split at h
  next type htype =>
    obtain ⟨hack, h⟩ := Bool.and_eq_true_iff.mp h
    obtain rfl := of_decide_eq_true hack
    split at h
    next found hfound =>
      have hreading : ∀ {α : Type} (a : α), (reading (.ok a) : ClientM α) = pure a := fun _ => rfl
      have hhandled : handleHelloAck payload = BridgeClient.scheduleReconnect "hello_rejected" := by
        rw [handleHelloAck, hfound, hreading, pure_bind]
        cases found with
        | none => rfl
        | some helloAck => exact if_pos h
      rw [dispatch, htype, hreading, pure_bind, if_pos rfl, hhandled]
    next => exact absurd h Bool.false_ne_true
  next => exact absurd h Bool.false_ne_true

/-! ## Losses -/

/-- The connection is lost by this completion. -/
def Loses : Completion → Prop
  | .message payload => helloRejected payload = true
  | _ => True

/-- The completion that finds the connection lost, and what else was outstanding, in the
order in which it completes. -/
structure Loss where
  first : Completion
  others : List StreamOperation
  loses : Loses first
  distinct : (first.operation :: others).Nodup

def lose (s : CountedBridge) (loss : Loss) : CountedBridge :=
  loss.others.foldl (fun s operation => s.complete (.aborted operation)) (s.complete loss.first)

/-- The timer fires, and a connection is made as far as the handshake. -/
def reconnect (s : CountedBridge) : CountedBridge := (s.ran startConnect).ran onHandshake

/-- Losses with no accepted hello in between. -/
def loseAll (s : CountedBridge) (losses : List Loss) : CountedBridge :=
  losses.foldl (fun s loss => (s.lose loss).reconnect) s

/-- The attempts from one on that the timer is set for when it is set `n` times. -/
def attemptsFrom (attempt : UInt32) : Nat → List UInt32
  | 0 => []
  | n + 1 => (attempt + 1) :: attemptsFrom (attempt + 1) n

/-- From one state to the other there lie `n` attempts, each counted, and each with its own
delay. -/
structure Counts (s s' : CountedBridge) (n : Nat) : Prop where
  attempt : s'.attempt = s.attempt + UInt32.ofNat n
  total : s'.reconnectEventsTotal = s.reconnectEventsTotal + UInt64.ofNat n
  armed : s'.armed = s.armed ++ attemptsFrom s.attempt n

section
variable {s s' s'' : CountedBridge} {n m : Nat}

theorem attemptsFrom_length : ∀ {n : Nat} {attempt : UInt32}, (attemptsFrom attempt n).length = n
  | 0, _ => rfl
  | n + 1, attempt => by
      rw [attemptsFrom, List.length_cons, attemptsFrom_length]

theorem attemptsFrom_add : ∀ {n : Nat} {attempt : UInt32} (m : Nat),
    attemptsFrom attempt (n + m) =
      attemptsFrom attempt n ++ attemptsFrom (attempt + UInt32.ofNat n) m
  | 0, attempt, m => by
      rw [Nat.zero_add, attemptsFrom, List.nil_append]
      exact congrArg (attemptsFrom · m) (UInt32.add_zero attempt).symm
  | n + 1, attempt, m => by
      have hassoc : attempt + 1 + UInt32.ofNat n = attempt + UInt32.ofNat (n + 1) := by
        rw [UInt32.ofNat_add, UInt32.add_assoc, UInt32.add_comm (UInt32.ofNat n)]
        rfl
      rw [Nat.add_right_comm, attemptsFrom, attemptsFrom_add m, attemptsFrom, List.cons_append, hassoc]

theorem Counts.refl (s : CountedBridge) : Counts s s 0 where
  attempt := (UInt32.add_zero _).symm
  total := (UInt64.add_zero _).symm
  armed := (List.append_nil _).symm

theorem Counts.trans (h : Counts s s' n) (h' : Counts s' s'' m) : Counts s s'' (n + m) where
  attempt := by rw [h'.attempt, h.attempt, UInt32.ofNat_add, UInt32.add_assoc]
  total := by rw [h'.total, h.total, UInt64.ofNat_add, UInt64.add_assoc]
  armed := by rw [h'.armed, h.armed, h.attempt, List.append_assoc, ← attemptsFrom_add]

/-- Each call counts, while the client is running. -/
theorem counts_scheduleReconnect (hrunning : s.running = true) (reason : String) :
    Counts s (s.scheduleReconnect reason) 1 ∧ (s.scheduleReconnect reason).running = true := by
  rw [scheduleReconnect, if_neg (by rw [hrunning]; decide)]
  have hends : Ends (BridgeClient.scheduleReconnect reason) s.bridged fun _ b' =>
      b'.client.reconnectAttempt = s.attempt + 1 ∧ b'.client.running = true := by
    refine Ends.bind (Ends.get (Ends.ite (fun hstopped => ?_) fun _ => ?_))
    · rw [show s.bridged.client.running = true from hrunning] at hstopped
      exact absurd hstopped (by decide)
    · exact Ends.bind (Ends.modify (Ends.bind (Ends.modify (Ends.modify ⟨rfl, hrunning⟩))))
  obtain ⟨_, b', hrun⟩ := quiet_scheduleReconnect reason s.bridged
  obtain ⟨hattempt, hstill⟩ := hends _ b' hrun
  rw [ran, hrun]
  exact ⟨⟨hattempt, rfl, rfl⟩, hstill⟩

theorem counts_complete (hrunning : s.running = true) {completion : Completion}
    (h : Loses completion) : Counts s (s.complete completion) 1 ∧ (s.complete completion).running = true := by
  cases completion with
  | readClosed => exact counts_scheduleReconnect hrunning _
  | readFailed => exact counts_scheduleReconnect hrunning _
  | writeFailed => exact counts_scheduleReconnect hrunning _
  | message payload =>
      have hrejected : helloRejected payload = true := h
      rw [complete, if_neg (by rw [hrunning]; decide), if_pos hrejected]
      exact counts_scheduleReconnect hrunning _

theorem loses_aborted (operation : StreamOperation) : Loses (.aborted operation) := by
  cases operation with
  | read => trivial
  | write => trivial

/-- What was outstanding is counted as it completes. -/
theorem counts_aborted : ∀ (others : List StreamOperation) {s : CountedBridge}, s.running = true →
    Counts s (others.foldl (fun s operation => s.complete (.aborted operation)) s) others.length ∧
      (others.foldl (fun s operation => s.complete (.aborted operation)) s).running = true
  | [], s, hrunning => ⟨Counts.refl s, hrunning⟩
  | operation :: others, s, hrunning => by
      obtain ⟨hone, hrunning'⟩ := counts_complete hrunning (loses_aborted operation)
      obtain ⟨hrest, hend⟩ := counts_aborted others hrunning'
      rw [List.length_cons, Nat.add_comm]
      exact ⟨hone.trans hrest, hend⟩

/-- A loss is counted once for every operation that was outstanding. -/
theorem counts_lose (hrunning : s.running = true) (loss : Loss) :
    Counts s (s.lose loss) (1 + loss.others.length) ∧ (s.lose loss).running = true := by
  obtain ⟨hfirst, hrunning'⟩ := counts_complete hrunning loss.loses
  obtain ⟨hothers, hend⟩ := counts_aborted loss.others hrunning'
  exact ⟨hfirst.trans hothers, hend⟩

/-- Neither handler touches the attempts. -/
theorem keeps_reconnect (attempt : UInt32) :
    let I := fun b : Bridged => b.client.reconnectAttempt = attempt ∧ b.client.running = true
    Keeps I startConnect ∧ Keeps I onHandshake := by
  intro I
  have hchanging : ∀ f : BridgeClient → BridgeClient, (∀ client, (f client).reconnectAttempt =
      client.reconnectAttempt ∧ (f client).running = client.running) → Keeps I (changing f) := by
    intro f hf
    refine Keeps.modify fun b hb => ?_
    obtain ⟨hattempt, hrunning⟩ := hf b.client
    exact ⟨hattempt.trans hb.1, hrunning.trans hb.2⟩
  have hwrite : Keeps I doWrite :=
    Keeps.bind Keeps.get fun _ => Keeps.ite Keeps.pure (Keeps.modify fun _ hb => hb)
  have hqueue : ∀ payload, Keeps I (enqueueJson payload) := fun payload =>
    Keeps.ite (Keeps.bind Keeps.get fun _ => Keeps.bind (hchanging _ fun _ => ⟨rfl, rfl⟩) fun _ =>
      Keeps.ite hwrite Keeps.pure) Keeps.throw
  refine ⟨?_, ?_⟩
  · exact Keeps.bind Keeps.get fun _ => Keeps.ite Keeps.pure (hchanging _ fun _ => ⟨rfl, rfl⟩)
  · exact Keeps.bind Keeps.get fun _ => Keeps.ite Keeps.pure
      (Keeps.bind (hchanging _ fun _ => ⟨rfl, rfl⟩) fun _ => Keeps.bind Keeps.get fun _ => hqueue _)

theorem counts_reconnect (hrunning : s.running = true) :
    Counts s s.reconnect 0 ∧ s.reconnect.running = true := by
  obtain ⟨hconnect, hhandshake⟩ := keeps_reconnect s.attempt
  obtain ⟨hattempt, hstill⟩ := hhandshake _ (hconnect s.bridged ⟨rfl, hrunning⟩)
  refine ⟨⟨?_, (UInt64.add_zero _).symm, (List.append_nil _).symm⟩, hstill⟩
  exact hattempt.trans (UInt32.add_zero _).symm

/-- The operations that were outstanding at the losses. -/
def outstanding (losses : List Loss) : Nat := (losses.map fun loss => 1 + loss.others.length).sum

theorem counts_loseAll : ∀ (losses : List Loss) {s : CountedBridge}, s.running = true →
    Counts s (s.loseAll losses) (outstanding losses)
  | [], s, _ => Counts.refl s
  | loss :: losses, s, hrunning => by
      obtain ⟨hlost, hrunning'⟩ := counts_lose hrunning loss
      obtain ⟨hback, hrunning''⟩ := counts_reconnect hrunning'
      exact (hlost.trans hback).trans (counts_loseAll losses hrunning'')

theorem outstanding_eq_length : ∀ (losses : List Loss),
    outstanding losses = losses.length ↔ ∀ loss ∈ losses, loss.others = []
  | [] => iff_of_true rfl fun _ h => absurd h List.not_mem_nil
  | loss :: losses => by
      have hle : losses.length ≤ outstanding losses := by
        induction losses with
        | nil => exact Nat.zero_le _
        | cons other losses ih =>
            rw [outstanding, List.map_cons, List.sum_cons, List.length_cons]
            rw [outstanding] at ih
            omega
      have hcons : outstanding (loss :: losses) = 1 + loss.others.length + outstanding losses := rfl
      have ih := outstanding_eq_length losses
      rw [List.forall_mem_cons, ← ih, hcons, List.length_cons, ← List.length_eq_zero_iff]
      omega

end

end CountedBridge

open CountedBridge

/-- Consecutive losses are counted as that many, each with the delay of its own attempt,
exactly when at each of them nothing else was outstanding. -/
theorem losses_counted_once_iff {s : CountedBridge} (hrunning : s.running = true)
    (losses : List Loss) :
    Counts s (s.loseAll losses) losses.length ↔ ∀ loss ∈ losses, loss.others = [] := by
  have hcounts := counts_loseAll losses hrunning
  rw [← outstanding_eq_length]
  constructor
  · intro h
    have harmed := List.append_cancel_left (hcounts.armed.symm.trans h.armed)
    have hlength := congrArg List.length harmed
    rwa [attemptsFrom_length, attemptsFrom_length] at hlength
  · intro h
    rwa [h] at hcounts

/-- The server closes, twice, while nothing is being written. -/
theorem losses_counted_once_idle :
    Counts { bridged := { client := { running := true } } }
      (loseAll { bridged := { client := { running := true } } }
        [⟨.readClosed, [], trivial, by decide⟩, ⟨.readClosed, [], trivial, by decide⟩]) 2 :=
  (losses_counted_once_iff rfl _).mpr (by simp)

/-- The server closes while a write is in flight, and the write fails after the read. -/
theorem loss_counted_twice :
    ¬ ∀ s : CountedBridge, s.running = true → ∀ loss : Loss, Counts s (s.lose loss) 1 := by
  intro h
  have hone := h { bridged := { client := { running := true } } } rfl
    ⟨.readClosed, [.write], trivial, by decide⟩
  have htwo := (counts_lose (s := { bridged := { client := { running := true } } }) rfl
    ⟨.readClosed, [.write], trivial, by decide⟩).1
  have hlength := congrArg List.length (hone.armed.symm.trans htwo.armed)
  exact absurd hlength (by decide)

end ServerStorage.Hugin
