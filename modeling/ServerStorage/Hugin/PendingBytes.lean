/-
# `ServerStorage.Hugin.PendingBytes` — the bytes a session has pending

`pending_bytes_` is kept by hand: `send` adds to it and takes from it, `on_write` takes from
it.  In every run it is the size of the queue, and the queue stays within both limits.

The messages of the queue and the one that is sent are strings in one address space, so
together they have fewer than `2 ^ 64` bytes; a larger one could not have been made.
-/
import ServerStorage.Hugin.WriterDiscipline

namespace ServerStorage.Hugin

open Lib WebsocketSession

/-! ## Runs in memory -/

/-- The bytes of some messages. -/
def bytesOf (queue : List Buffer) : Nat := (queue.map fun buffer => buffer.text.length).sum

namespace Connection

/-- The message can be made beside those that are queued. -/
def holds (c : Connection) : WriterEvent → Bool
  | .send text => decide (bytesOf c.session.writeQueue + text.length < 2 ^ 64)
  | .complete _ _ => true

/-- Any order of sends and completions. -/
def runInMemory (options : FrontendApiServerOptions) :
    Connection → List WriterEvent → Option Connection
  | c, [] => some c
  | c, event :: rest =>
      if c.holds event then (c.step options event).bind fun next => runInMemory options next rest
      else none

end Connection

/-! ## The account -/

/-- The running total is the size of the queue. -/
def Balanced (session : WebsocketSession) : Prop :=
  session.pendingBytes.toNat = bytesOf session.writeQueue

/-- The session keeps to its limits. -/
structure Accounted (options : FrontendApiServerOptions) (session : WebsocketSession) : Prop where
  balanced : Balanced session
  messages : session.writeQueue.length ≤ options.wsMaxPendingMessages.toNat
  bytes : session.pendingBytes ≤ options.wsMaxPendingBytes

section
variable {options : FrontendApiServerOptions} {session : WebsocketSession}

theorem bytesOf_cons (front : Buffer) (rest : List Buffer) :
    bytesOf (front :: rest) = front.text.length + bytesOf rest :=
  List.sum_cons

theorem bytesOf_append (queue queue' : List Buffer) :
    bytesOf (queue ++ queue') = bytesOf queue + bytesOf queue' := by
  rw [bytesOf, List.map_append, List.sum_append]
  rfl

theorem bytesOf_suffix {queue queue' : List Buffer} (h : queue' <:+ queue) :
    bytesOf queue' ≤ bytesOf queue := by
  obtain ⟨gone, rfl⟩ := h
  rw [bytesOf_append]
  exact Nat.le_add_left _ _

theorem toNat_size {buffer : Buffer} (h : buffer.text.length < 2 ^ 64) :
    buffer.size.toNat = buffer.text.length :=
  UInt64.toNat_ofNat_of_lt' h

/-- What is taken from the total is no more than it holds. -/
theorem Balanced.front_le {front : Buffer} {rest : List Buffer} {pendingBytes : UInt64}
    (h : Balanced { writeQueue := front :: rest, pendingBytes := pendingBytes }) :
    front.size ≤ pendingBytes ∧
      Balanced { writeQueue := rest, pendingBytes := pendingBytes - front.size } := by
  have htotal : pendingBytes.toNat = front.text.length + bytesOf rest := h.trans (bytesOf_cons _ _)
  have hlt := pendingBytes.toNat_lt
  have hsize : front.size.toNat = front.text.length := toNat_size (by omega)
  have hle : front.size ≤ pendingBytes := by
    rw [UInt64.le_iff_toNat_le]
    omega
  refine ⟨hle, ?_⟩
  show (pendingBytes - front.size).toNat = bytesOf rest
  rw [UInt64.toNat_sub_of_le _ _ hle]
  omega

/-- Taking messages from the front keeps the account. -/
theorem Accounted.suffix {session' : WebsocketSession} (h : Accounted options session)
    (hbalanced : Balanced session') (hsuffix : session'.writeQueue <:+ session.writeQueue) :
    Accounted options session' := by
  refine ⟨hbalanced, hsuffix.length_le.trans h.messages, le_trans ?_ h.bytes⟩
  rw [UInt64.le_iff_toNat_le, hbalanced, h.balanced]
  exact bytesOf_suffix hsuffix

theorem evictOldest_balanced {size : UInt64} : ∀ {queue : List Buffer} {pendingBytes : UInt64},
    Balanced { writeQueue := queue, pendingBytes := pendingBytes } →
      Balanced (evictOldest options size queue pendingBytes)
  | [], _, h => h
  | front :: rest, pendingBytes, h => by
      rw [evictOldest]
      split
      · exact evictOldest_balanced h.front_le.2
      · exact h

theorem Accounted.evictOldest {size : UInt64} (h : Accounted options session) :
    Accounted options (evictOldest options size session.writeQueue session.pendingBytes) :=
  h.suffix (evictOldest_balanced h.balanced) evictOldest_suffix

/-- A message that is not over the limits joins the queue. -/
theorem Accounted.enqueue {payload : Buffer} (h : Accounted options session)
    (hmemory : bytesOf session.writeQueue + payload.text.length < 2 ^ 64)
    (hroom : session.overLimit options payload.size = false) :
    Accounted options (session.enqueue payload).1 := by
  rw [overLimit, Bool.or_eq_false_iff, decide_eq_false_iff_not, decide_eq_false_iff_not,
    Nat.not_le, UInt64.not_lt] at hroom
  obtain ⟨hmessages, hbytes⟩ := hroom
  have htotal := h.balanced
  have hsize : payload.size.toNat = payload.text.length := toNat_size (by omega)
  rw [Balanced] at htotal
  refine ⟨?_, ?_, hbytes⟩
  · show (session.pendingBytes + payload.size).toNat = bytesOf (session.writeQueue ++ [payload])
    rw [UInt64.toNat_add, Nat.mod_eq_of_lt (by omega), bytesOf_append, bytesOf_cons]
    show _ = _ + (_ + 0)
    omega
  · show (session.writeQueue ++ [payload]).length ≤ _
    rw [List.length_append]
    exact hmessages

theorem Accounted.send {payload : Buffer} (h : Accounted options session)
    (hmemory : bytesOf session.writeQueue + payload.text.length < 2 ^ 64) :
    Accounted options (session.send options payload).1 := by
  rw [WebsocketSession.send]
  by_cases hover : session.overLimit options payload.size = true
  · rw [if_pos hover]
    cases options.wsBackpressurePolicy with
    | dropNewest | disconnect => exact h
    | dropOldest =>
        dsimp only
        split
        · exact h.evictOldest
        next hroom =>
          have hless := bytesOf_suffix
            (@evictOldest_suffix options payload.size session.writeQueue session.pendingBytes)
          exact h.evictOldest.enqueue (by omega) (Bool.eq_false_iff.mpr hroom)
  · rw [if_neg hover]
    exact h.enqueue hmemory (Bool.eq_false_iff.mpr hover)

theorem Accounted.onWrite (h : Accounted options session) (error : Bool) :
    Accounted options (session.onWrite error).1 := by
  rw [WebsocketSession.onWrite]
  cases error with
  | true => exact h
  | false =>
      obtain ⟨queue, pendingBytes⟩ := session
      cases queue with
      | nil => exact h
      | cons front rest => exact h.suffix h.balanced.front_le.2 (List.suffix_cons front rest)

/-! ## Runs -/

theorem Accounted.step {c next : Connection} {event : WriterEvent}
    (h : Accounted options c.session) (hmemory : c.holds event = true)
    (hstep : c.step options event = some next) : Accounted options next.session := by
  cases event with
  | send text =>
      obtain rfl := Option.some.inj hstep
      exact h.send (of_decide_eq_true hmemory)
  | complete buffer error =>
      rw [Connection.step] at hstep
      split at hstep
      · obtain rfl := Option.some.inj hstep
        exact h.onWrite error
      · cases hstep

theorem Accounted.run : ∀ {events : List WriterEvent} {c last : Connection},
    Accounted options c.session → c.runInMemory options events = some last →
      Accounted options last.session
  | [], c, last, h, hrun => by
      obtain rfl := Option.some.inj hrun
      exact h
  | event :: rest, c, last, h, hrun => by
      rw [Connection.runInMemory] at hrun
      split at hrun
      next hmemory =>
        obtain ⟨next, hstep, hrest⟩ := Option.bind_eq_some_iff.mp hrun
        exact (h.step hmemory hstep).run hrest
      · cases hrun

end

/-- In every state that any run reaches, the total is the size of the queue and both limits hold. -/
theorem pending_bytes_accounted (options : FrontendApiServerOptions) (events : List WriterEvent)
    (last : Connection) (h : Connection.runInMemory options {} events = some last) :
    Accounted options last.session := by
  have hempty : Accounted options ({} : Connection).session :=
    ⟨rfl, Nat.zero_le _, UInt64.zero_le⟩
  exact hempty.run h

/-- Sends under `DropOldest` and a limit of two messages, and a write that completes after its
message has been evicted. -/
theorem pending_bytes_accounted_evicted :
    Accounted { wsMaxPendingMessages := 2 }
      { writeQueue := [{ address := 2, text := [4] }, { address := 3, text := [5, 6] }]
        pendingBytes := 3 } :=
  pending_bytes_accounted { wsMaxPendingMessages := 2 }
    [.send [1], .send [2, 3], .send [4], .complete { address := 0, text := [1] } false,
      .send [5, 6]]
    { session :=
        { writeQueue := [{ address := 2, text := [4] }, { address := 3, text := [5, 6] }]
          pendingBytes := 3 }
      nextAddress := 4
      outstanding := [{ address := 2, text := [4] }]
      accepted :=
        [{ address := 0, text := [1] }, { address := 1, text := [2, 3] },
          { address := 2, text := [4] }, { address := 3, text := [5, 6] }]
      dropped := [{ address := 0, text := [1] }]
      written := [{ address := 0, text := [1] }] } (by decide)

end ServerStorage.Hugin
