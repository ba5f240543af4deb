/-
# `ServerStorage.Hugin.CommandLoadBalancer` — `api/command_load_balancer.cpp`

The calls of `execute`, the queues and the worker threads as one machine.  A call is cut
where another thread may come in between: the choice of a worker, the section under its
lock, the end of the wait.  A worker takes a task and calls the handler in one step, and
sets the promise in a second, with whatever status the handler has come to.  The time-out
may fire whenever the future is not ready.  `invoked` is history: the calls for whose
command the handler was called.

A time-out leaves the task where it is.  What was reported as failed is run all the same
when its worker comes to it, or has been run already.
-/
import ServerStorage.Lib.Runs
import ServerStorage.Hugin.Materializer
import ServerStorage.Shared.CrudProtocol

namespace ServerStorage.Hugin

open Lib ServerStorage.Muninn ServerStorage.Crud

/-! ## The data -/

structure CommandLoadBalancerOptions where
  workerThreads : UInt64 := 4
  maxQueuePerWorker : UInt64 := 1024
  /-- In milliseconds. -/
  executionTimeout : Int := 1500

/-- The options as the constructor keeps them. -/
def CommandLoadBalancerOptions.normalized (options : CommandLoadBalancerOptions) :
    CommandLoadBalancerOptions :=
  { workerThreads := if options.workerThreads = 0 then 1 else options.workerThreads
    maxQueuePerWorker := if options.maxQueuePerWorker = 0 then 1 else options.maxQueuePerWorker
    executionTimeout := if options.executionTimeout ≤ 0 then 1500 else options.executionTimeout }

namespace CommandLoadBalancer

/-- A command, and the call that holds the future of its promise. -/
structure Task where
  command : CrudCommandMessage
  call : Nat

structure Worker where
  queue : List Task := []
  /-- The task whose handler call is under way. -/
  running : Option Task := none
  stop : Bool := false

/-- What `execute` comes back with. -/
inductive Reply where
  | notConfigured | noWorkers | queueFull | timedOut
  | returned (status : Status)

def Reply.status : Reply → Status
  | notConfigured => .failure .internal "Command handler is not configured."
  | noWorkers => .failure .internal "No command workers are available."
  | queueFull => .failure .internal "Command queue is full on selected worker."
  | timedOut => .failure .internal "Command dispatch timed out."
  | returned status => status

/-- Where a call of `execute` stands. -/
inductive CallPhase where
  | chosen (worker : Nat)
  | waiting (future : Option Status)
  | answered (reply : Reply)

end CommandLoadBalancer

open CommandLoadBalancer

structure CommandLoadBalancer where
  /-- Whether there is a handler. -/
  configured : Bool
  options : CommandLoadBalancerOptions
  workers : List Worker
  nextWorker : UInt64 := 0
  calls : List (CrudCommandMessage × CallPhase) := []
  invoked : List Nat := []

inductive DispatchEvent where
  | execute (command : CrudCommandMessage)
  | enqueue (call : Nat)
  | take (worker : Nat)
  | finish (worker : Nat) (status : Status)
  | timeout (call : Nat)
  | collect (call : Nat)
  | stop (worker : Nat)

namespace CommandLoadBalancer

/-! ## The steps -/

def create (configured : Bool) (options : CommandLoadBalancerOptions) : CommandLoadBalancer :=
  { configured := configured
    options := options.normalized
    workers := List.replicate options.normalized.workerThreads.toNat {} }

def phaseOf (s : CommandLoadBalancer) (call : Nat) : Option CallPhase :=
  s.calls[call]?.map Prod.snd

def setPhase (s : CommandLoadBalancer) (call : Nat) (phase : CallPhase) : CommandLoadBalancer :=
  { s with calls := s.calls.modify call fun c => (c.1, phase) }

def setWorker (s : CommandLoadBalancer) (worker : Nat) (w : Worker) : CommandLoadBalancer :=
  { s with workers := s.workers.set worker w }

/-- `execute` up to the lock of the worker it chooses. -/
def execute (s : CommandLoadBalancer) (command : CrudCommandMessage) : CommandLoadBalancer :=
  if !s.configured then
    { s with calls := s.calls ++ [(command, .answered .notConfigured)] }
  else if s.workers = [] then { s with calls := s.calls ++ [(command, .answered .noWorkers)] }
  else
    { s with
      nextWorker := s.nextWorker + 1
      calls := s.calls ++ [(command, .chosen (s.nextWorker.toNat % s.workers.length))] }

/-- The section under the worker's lock. -/
def enqueue (s : CommandLoadBalancer) (call worker : Nat) (w : Worker)
    (command : CrudCommandMessage) : CommandLoadBalancer :=
  if s.options.maxQueuePerWorker.toNat ≤ w.queue.length then
    s.setPhase call (.answered .queueFull)
  else
    (s.setWorker worker { w with queue := w.queue ++ [{ command := command, call := call }] }).setPhase
      call (.waiting none)

/-- The worker takes the front of its queue and calls the handler. -/
def take (s : CommandLoadBalancer) (worker : Nat) (w : Worker) (task : Task) (rest : List Task) :
    CommandLoadBalancer :=
  { s.setWorker worker { w with queue := rest, running := some task } with
    invoked := task.call :: s.invoked }

/-- `set_value`; a future nobody waits for any more is gone. -/
def setValue (s : CommandLoadBalancer) (call : Nat) (status : Status) : CommandLoadBalancer :=
  match s.phaseOf call with
  | some (.waiting none) => s.setPhase call (.waiting (some status))
  | _ => s

def finish (s : CommandLoadBalancer) (worker : Nat) (w : Worker) (task : Task) (status : Status) :
    CommandLoadBalancer :=
  (s.setWorker worker { w with running := none }).setValue task.call status

def step (s : CommandLoadBalancer) : DispatchEvent → Option CommandLoadBalancer
  | .execute command => some (s.execute command)
  | .enqueue call =>
      match s.calls[call]? with
      | some (command, .chosen worker) =>
          s.workers[worker]?.map fun w => s.enqueue call worker w command
      | _ => none
  | .take worker =>
      match s.workers[worker]? with
      | some { queue := task :: rest, running := none, stop := stop } =>
          some (s.take worker { queue := task :: rest, running := none, stop := stop } task rest)
      | _ => none
  | .finish worker status =>
      match s.workers[worker]? with
      | some { queue := queue, running := some task, stop := stop } =>
          some (s.finish worker { queue := queue, running := some task, stop := stop } task status)
      | _ => none
  | .timeout call =>
      match s.phaseOf call with
      | some (.waiting none) => some (s.setPhase call (.answered .timedOut))
      | _ => none
  | .collect call =>
      match s.phaseOf call with
      | some (.waiting (some status)) => some (s.setPhase call (.answered (.returned status)))
      | _ => none
  | .stop worker => s.workers[worker]?.map fun w => s.setWorker worker { w with stop := true }

/-! ## Where the task of a call is -/

def Worker.waits (w : Worker) : List Nat := w.queue.map Task.call
def Worker.runs (w : Worker) : List Nat := w.running.toList.map Task.call

/-- How often the task of a call stands in a queue, is being run, and was given to the
handler. -/
def queued (s : CommandLoadBalancer) (call : Nat) : Nat :=
  (s.workers.flatMap Worker.waits).count call
def running (s : CommandLoadBalancer) (call : Nat) : Nat :=
  (s.workers.flatMap Worker.runs).count call
def invocations (s : CommandLoadBalancer) (call : Nat) : Nat := s.invoked.count call

inductive TaskPlace where
  | absent | queued | running | finished
  deriving DecidableEq

/-- The task of the call is there and nowhere else. -/
structure At (s : CommandLoadBalancer) (call : Nat) (place : TaskPlace) : Prop where
  queued : s.queued call = if place = .queued then 1 else 0
  running : s.running call = if place = .running then 1 else 0
  invocations : s.invocations call = if place = .running ∨ place = .finished then 1 else 0

/-- The places the task of a call in this phase can be at. -/
def Permits : Option CallPhase → TaskPlace → Prop
  | some (.waiting none), place => place = .queued ∨ place = .running
  | some (.waiting (some _)), place => place = .finished
  | some (.answered .timedOut), place => place ≠ .absent
  | some (.answered (.returned _)), place => place = .finished
  | _, place => place = .absent

/-- Each call's task is at one place its phase permits. -/
def Sound (s : CommandLoadBalancer) : Prop :=
  ∀ call, ∃ place, s.At call place ∧ Permits (s.phaseOf call) place

/-! ## The parts of a step -/

section
variable {s s' : CommandLoadBalancer} {call worker : Nat} {w : Worker} {task : Task}
  {rest : List Task} {command : CrudCommandMessage} {phase : CallPhase} {status : Status}

theorem phaseOf_setPhase (h : (s.phaseOf call).isSome) (x : Nat) :
    (s.setPhase call phase).phaseOf x = if x = call then some phase else s.phaseOf x := by
  rw [phaseOf, setPhase]
  dsimp only
  by_cases hx : x = call
  · subst hx
    rw [phaseOf, Option.isSome_map] at h
    obtain ⟨c, hc⟩ := Option.isSome_iff_exists.mp h
    rw [if_pos rfl, List.getElem?_modify_eq, hc]
    rfl
  · rw [if_neg hx, List.getElem?_modify_ne _ _ (Ne.symm hx), phaseOf]

/-- The phases do not enter into where tasks are. -/
theorem at_setPhase {x : Nat} {place : TaskPlace} :
    (s.setPhase call phase).At x place ↔ s.At x place :=
  ⟨fun h => ⟨h.queued, h.running, h.invocations⟩, fun h => ⟨h.queued, h.running, h.invocations⟩⟩

/-- A call that is given a new phase, at the place its task is at. -/
theorem Sound.setPhase (h : s.Sound) (hcall : (s.phaseOf call).isSome)
    (hplace : ∀ place, Permits (s.phaseOf call) place → Permits (some phase) place) :
    (s.setPhase call phase).Sound := by
  intro x
  obtain ⟨place, hat, hpermits⟩ := h x
  refine ⟨place, at_setPhase.mpr hat, ?_⟩
  rw [phaseOf_setPhase hcall]
  split
  next hx => exact hplace place (hx ▸ hpermits)
  next => exact hpermits

theorem phaseOf_append (next : UInt64) (x : Nat) :
    ({ s with nextWorker := next, calls := s.calls ++ [(command, phase)] } :
      CommandLoadBalancer).phaseOf x = if x = s.calls.length then some phase else s.phaseOf x := by
  rw [phaseOf, phaseOf]
  dsimp only
  by_cases hx : x = s.calls.length
  · rw [if_pos hx, hx, List.getElem?_concat_length]
    rfl
  · rw [if_neg hx]
    by_cases hlt : x < s.calls.length
    · rw [List.getElem?_append_left hlt]
    · have hlong : s.calls.length + 1 ≤ x := by omega
      rw [List.getElem?_eq_none (by simpa using hlong), List.getElem?_eq_none (by omega)]

theorem queued_setWorker (hw : s.workers[worker]? = some w) (w' : Worker) (x : Nat) :
    (s.setWorker worker w').queued x + w.waits.count x = s.queued x + w'.waits.count x :=
  count_flatMap_set x w' hw

theorem running_setWorker (hw : s.workers[worker]? = some w) (w' : Worker) (x : Nat) :
    (s.setWorker worker w').running x + w.runs.count x = s.running x + w'.runs.count x :=
  count_flatMap_set x w' hw

/-- Where a task may be queued it may be run. -/
theorem Permits.run {phase : Option CallPhase} (h : Permits phase .queued) :
    Permits phase .running := by
  match phase, h with
  | some (.waiting none), _ => exact .inr rfl
  | some (.answered .timedOut), _ => exact fun heq => by cases heq

/-! ## What each step keeps -/

/-- A call that comes in has no task yet. -/
theorem Sound.append (h : s.Sound) (next : UInt64)
    (hphase : ∀ place, Permits none place → Permits (some phase) place) :
    ({ s with nextWorker := next, calls := s.calls ++ [(command, phase)] } :
      CommandLoadBalancer).Sound := by
  intro x
  obtain ⟨place, hat, hpermits⟩ := h x
  refine ⟨place, ⟨hat.queued, hat.running, hat.invocations⟩, ?_⟩
  rw [phaseOf_append]
  split
  next hx =>
    have hnone : s.phaseOf x = none := by
      rw [phaseOf, List.getElem?_eq_none hx.ge]
      rfl
    rw [hnone] at hpermits
    exact hphase place hpermits
  next => exact hpermits

theorem Sound.execute (h : s.Sound) (command : CrudCommandMessage) : (s.execute command).Sound := by
  rw [CommandLoadBalancer.execute]
  split
  · exact h.append s.nextWorker fun _ hplace => hplace
  · split
    · exact h.append s.nextWorker fun _ hplace => hplace
    · exact h.append (s.nextWorker + 1) fun _ hplace => hplace

theorem Sound.enqueue (h : s.Sound) (hw : s.workers[worker]? = some w)
    (hphase : s.phaseOf call = some (.chosen worker)) :
    (s.enqueue call worker w command).Sound := by
  have hcall : (s.phaseOf call).isSome := by rw [hphase]; rfl
  rw [CommandLoadBalancer.enqueue]
  split
  · refine h.setPhase hcall fun place hplace => ?_
    rw [hphase] at hplace
    exact hplace
  · intro x
    obtain ⟨place, hat, hpermits⟩ := h x
    have hqueued := queued_setWorker hw
      { w with queue := w.queue ++ [{ command := command, call := call }] } x
    have hrunning := running_setWorker hw
      { w with queue := w.queue ++ [{ command := command, call := call }] } x
    have hwaits : ({ w with queue := w.queue ++ [{ command := command, call := call }] } :
        Worker).waits = w.waits ++ [call] := by
      rw [Worker.waits, List.map_append]
      rfl
    have hruns : ({ w with queue := w.queue ++ [{ command := command, call := call }] } :
        Worker).runs = w.runs := rfl
    rw [hwaits, List.count_append] at hqueued
    rw [hruns] at hrunning
    have hsame := hat.running
    have hcall' (w' : Worker) : ((s.setWorker worker w').phaseOf call).isSome := hcall
    by_cases hx : x = call
    · subst hx
      rw [hphase] at hpermits
      obtain rfl : place = .absent := hpermits
      have hempty : s.queued x = 0 := hat.queued
      rw [List.count_singleton_self] at hqueued
      refine ⟨.queued, at_setPhase.mpr ⟨?_, ?_, hat.invocations⟩, ?_⟩
      · rw [if_pos rfl]
        omega
      · rw [if_neg (by decide)] at hsame ⊢
        omega
      · rw [phaseOf_setPhase (hcall' _), if_pos rfl]
        exact .inl rfl
    · have hother : [call].count x = 0 := List.count_eq_zero.mpr (by simpa using hx)
      have hwhere := hat.queued
      refine ⟨place, at_setPhase.mpr ⟨?_, ?_, hat.invocations⟩, ?_⟩
      · rw [← hwhere]
        omega
      · rw [← hsame]
        omega
      · rw [phaseOf_setPhase (hcall' _), if_neg hx]
        exact hpermits

theorem Sound.take (h : s.Sound) (hw : s.workers[worker]? = some w) (hqueue : w.queue = task :: rest)
    (hidle : w.running = none) : (s.take worker w task rest).Sound := by
  intro x
  obtain ⟨place, hat, hpermits⟩ := h x
  have hqueued := queued_setWorker hw { w with queue := rest, running := some task } x
  have hrunning := running_setWorker hw { w with queue := rest, running := some task } x
  have hwaits : w.waits = task.call :: rest.map Task.call := by
    rw [Worker.waits, hqueue, List.map_cons]
  have hruns : w.runs = [] := by
    rw [Worker.runs, hidle]
    rfl
  have hwaits' : ({ w with queue := rest, running := some task } : Worker).waits =
      rest.map Task.call := rfl
  have hruns' : ({ w with queue := rest, running := some task } : Worker).runs = [task.call] := rfl
  rw [hwaits, hwaits', List.count_cons] at hqueued
  rw [hruns, hruns', List.count_nil] at hrunning
  have hqueuedAt := hat.queued
  have hrunningAt := hat.running
  have hinvokedAt := hat.invocations
  have hinvoked : (s.take worker w task rest).invocations x =
      s.invocations x + if task.call == x then 1 else 0 := List.count_cons
  by_cases hx : x = task.call
  · subst hx
    rw [beq_self_eq_true, if_pos rfl] at hqueued hinvoked
    rw [List.count_singleton_self] at hrunning
    -- The call's task stood in the queue, so it stood nowhere else.
    have hplace : place = .queued := by
      by_contra hne
      rw [if_neg hne] at hqueuedAt
      omega
    subst hplace
    rw [if_pos rfl] at hqueuedAt
    rw [if_neg (by decide)] at hrunningAt hinvokedAt
    refine ⟨.running, ⟨?_, ?_, ?_⟩, ?_⟩
    · rw [if_neg (by decide)]
      show (s.setWorker worker _).queued _ = 0
      omega
    · rw [if_pos rfl]
      show (s.setWorker worker _).running _ = 1
      omega
    · rw [if_pos (.inl rfl), hinvoked, hinvokedAt]
    · exact hpermits.run
  · have hne : (task.call == x) = false := beq_false_of_ne (Ne.symm hx)
    have hother : [task.call].count x = 0 := List.count_eq_zero.mpr (by simpa using hx)
    rw [hne, if_neg Bool.false_ne_true] at hqueued hinvoked
    refine ⟨place, ⟨?_, ?_, ?_⟩, hpermits⟩
    · rw [← hqueuedAt]
      show (s.setWorker worker _).queued _ = _
      omega
    · rw [← hrunningAt]
      show (s.setWorker worker _).running _ = _
      omega
    · rw [← hinvokedAt, hinvoked]
      rfl

/-- A future that is set, or gone. -/
def settled (status : Status) : Option CallPhase → Option CallPhase
  | some (.waiting none) => some (.waiting (some status))
  | phase => phase

theorem phaseOf_setValue (x : Nat) :
    (s.setValue call status).phaseOf x =
      if x = call then settled status (s.phaseOf x) else s.phaseOf x := by
  rw [setValue]
  split
  next hphase =>
    rw [phaseOf_setPhase (by rw [hphase]; rfl)]
    by_cases hx : x = call
    · rw [if_pos hx, if_pos hx, hx, hphase]
      rfl
    · rw [if_neg hx, if_neg hx]
  next hother =>
    by_cases hx : x = call
    · subst hx
      rw [if_pos rfl]
      match hphase : s.phaseOf x with
      | none => rfl
      | some (.chosen worker) => rfl
      | some (.waiting none) => exact absurd hphase hother
      | some (.waiting (some status)) => rfl
      | some (.answered reply) => rfl
    · rw [if_neg hx]

theorem at_setValue {x : Nat} {place : TaskPlace} :
    (s.setValue call status).At x place ↔ s.At x place := by
  rw [setValue]
  split
  · exact at_setPhase
  · exact Iff.rfl

/-- A task that was run has finished, and its future is set or gone. -/
theorem Permits.settle {phase : Option CallPhase} (h : Permits phase .running) :
    Permits (settled status phase) .finished := by
  match phase, h with
  | some (.waiting none), _ => exact rfl
  | some (.answered .timedOut), _ => exact fun heq => by cases heq

theorem Sound.finish (h : s.Sound) (hw : s.workers[worker]? = some w)
    (hbusy : w.running = some task) (status : Status) : (s.finish worker w task status).Sound := by
  intro x
  obtain ⟨place, hat, hpermits⟩ := h x
  have hqueued := queued_setWorker hw { w with running := none } x
  have hrunning := running_setWorker hw { w with running := none } x
  have hruns : w.runs = [task.call] := by
    rw [Worker.runs, hbusy]
    rfl
  have hwaits' : ({ w with running := none } : Worker).waits = w.waits := rfl
  have hruns' : ({ w with running := none } : Worker).runs = [] := rfl
  rw [hwaits'] at hqueued
  rw [hruns, hruns', List.count_nil] at hrunning
  have hqueuedAt := hat.queued
  have hrunningAt := hat.running
  by_cases hx : x = task.call
  · subst hx
    rw [List.count_singleton_self] at hrunning
    -- The call's task was being run, so it was nowhere else.
    have hplace : place = .running := by
      by_contra hne
      rw [if_neg hne] at hrunningAt
      omega
    subst hplace
    rw [if_neg (by decide)] at hqueuedAt
    rw [if_pos rfl] at hrunningAt
    refine ⟨.finished, at_setValue.mpr ⟨?_, ?_, hat.invocations⟩, ?_⟩
    · rw [if_neg (by decide)]
      omega
    · rw [if_neg (by decide)]
      omega
    · rw [CommandLoadBalancer.finish, phaseOf_setValue, if_pos rfl]
      exact hpermits.settle
  · have hother : [task.call].count x = 0 := List.count_eq_zero.mpr (by simpa using hx)
    refine ⟨place, at_setValue.mpr ⟨?_, ?_, hat.invocations⟩, ?_⟩
    · rw [← hqueuedAt]
      omega
    · rw [← hrunningAt]
      omega
    · rw [CommandLoadBalancer.finish, phaseOf_setValue, if_neg hx]
      exact hpermits

theorem Sound.timeout (h : s.Sound) (hphase : s.phaseOf call = some (.waiting none)) :
    (s.setPhase call (.answered .timedOut)).Sound := by
  refine h.setPhase (by rw [hphase]; rfl) fun place hplace => ?_
  rw [hphase] at hplace
  rintro rfl
  rcases hplace with hplace | hplace <;> cases hplace

theorem Sound.collect (h : s.Sound) (hphase : s.phaseOf call = some (.waiting (some status))) :
    (s.setPhase call (.answered (.returned status))).Sound := by
  refine h.setPhase (by rw [hphase]; rfl) fun place hplace => ?_
  rw [hphase] at hplace
  exact hplace

theorem Sound.stop (h : s.Sound) (hw : s.workers[worker]? = some w) :
    (s.setWorker worker { w with stop := true }).Sound := by
  intro x
  obtain ⟨place, hat, hpermits⟩ := h x
  have hqueued := queued_setWorker hw { w with stop := true } x
  have hrunning := running_setWorker hw { w with stop := true } x
  refine ⟨place, ⟨?_, ?_, hat.invocations⟩, hpermits⟩
  · rw [← hat.queued]
    exact Nat.add_right_cancel hqueued
  · rw [← hat.running]
    exact Nat.add_right_cancel hrunning

/-- What a step is, by its event. -/
inductive Steps (s : CommandLoadBalancer) : DispatchEvent → CommandLoadBalancer → Prop
  | execute (command : CrudCommandMessage) : Steps s (.execute command) (s.execute command)
  | enqueue {call worker : Nat} {w : Worker} {command : CrudCommandMessage} :
      s.phaseOf call = some (.chosen worker) → s.workers[worker]? = some w →
      Steps s (.enqueue call) (s.enqueue call worker w command)
  | take {worker : Nat} {w : Worker} {task : Task} {rest : List Task} :
      s.workers[worker]? = some w → w.queue = task :: rest → w.running = none →
      Steps s (.take worker) (s.take worker w task rest)
  | finish {worker : Nat} {w : Worker} {task : Task} (status : Status) :
      s.workers[worker]? = some w → w.running = some task →
      Steps s (.finish worker status) (s.finish worker w task status)
  | timeout {call : Nat} : s.phaseOf call = some (.waiting none) →
      Steps s (.timeout call) (s.setPhase call (.answered .timedOut))
  | collect {call : Nat} {status : Status} : s.phaseOf call = some (.waiting (some status)) →
      Steps s (.collect call) (s.setPhase call (.answered (.returned status)))
  | stop {worker : Nat} {w : Worker} : s.workers[worker]? = some w →
      Steps s (.stop worker) (s.setWorker worker { w with stop := true })

theorem steps_of_step {event : DispatchEvent} (h : s.step event = some s') : Steps s event s' := by
  cases event with
  | execute command =>
      obtain rfl := Option.some.inj h
      exact .execute command
  | enqueue call =>
      rw [step] at h
      split at h
      next command worker hcall =>
        obtain ⟨w, hw, rfl⟩ := Option.map_eq_some_iff.mp h
        exact .enqueue (by rw [phaseOf, hcall]; rfl) hw
      next => cases h
  | take worker =>
      rw [step] at h
      split at h
      next task rest stop hw =>
        obtain rfl := Option.some.inj h
        exact .take hw rfl rfl
      next => cases h
  | finish worker status =>
      rw [step] at h
      split at h
      next queue task stop hw =>
        obtain rfl := Option.some.inj h
        exact .finish status hw rfl
      next => cases h
  | timeout call =>
      rw [step] at h
      split at h
      next hphase =>
        obtain rfl := Option.some.inj h
        exact .timeout hphase
      next => cases h
  | collect call =>
      rw [step] at h
      split at h
      next status hphase =>
        obtain rfl := Option.some.inj h
        exact .collect hphase
      next => cases h
  | stop worker =>
      obtain ⟨w, hw, rfl⟩ := Option.map_eq_some_iff.mp h
      exact .stop hw

theorem Sound.step (h : s.Sound) {event : DispatchEvent} (hstep : s.step event = some s') :
    s'.Sound := by
  cases steps_of_step hstep with
  | execute command => exact h.execute command
  | enqueue hphase hw => exact h.enqueue hw hphase
  | take hw hqueue hidle => exact h.take hw hqueue hidle
  | finish status hw hbusy => exact h.finish hw hbusy status
  | timeout hphase => exact h.timeout hphase
  | collect hphase => exact h.collect hphase
  | stop hw => exact h.stop hw

end

theorem sound_create (configured : Bool) (options : CommandLoadBalancerOptions) :
    (create configured options).Sound := by
  intro x
  have hnone : ∀ f : Worker → List Nat, f {} = [] →
      ((create configured options).workers.flatMap f).count x = 0 := by
    intro f hf
    refine List.count_eq_zero.mpr fun hmem => ?_
    obtain ⟨w, hw, hx⟩ := List.mem_flatMap.mp hmem
    rw [List.eq_of_mem_replicate hw, hf] at hx
    exact absurd hx List.not_mem_nil
  exact ⟨.absent, ⟨hnone _ rfl, hnone _ rfl, rfl⟩, rfl⟩

/-! ## Refused commands -/

def Reply.Refusal : Reply → Prop
  | .returned _ => False
  | _ => True

/-- A command whose call was refused was never given to the handler, and one whose call
came back with the handler's status was given to it once. -/
structure Kept (s : CommandLoadBalancer) : Prop where
  refused : ∀ call reply, s.phaseOf call = some (.answered reply) → reply.Refusal →
    s.invocations call = 0
  returned : ∀ call status, s.phaseOf call = some (.answered (.returned status)) →
    s.invocations call = 1

/-- A time-out fires while the task is still in a queue, and a task is taken while its call
still waits. -/
def Spares (s : CommandLoadBalancer) : DispatchEvent → Prop
  | .timeout call => 0 < s.queued call
  | .take worker => ∀ w task, s.workers[worker]? = some w → w.queue.head? = some task →
      s.phaseOf task.call = some (.waiting none)
  | _ => True

section
variable {s s' : CommandLoadBalancer} {call worker : Nat} {w : Worker} {task : Task}
  {rest : List Task}

/-- Only time-outs are at stake. -/
theorem Sound.kept_iff (h : s.Sound) :
    s.Kept ↔ ∀ call, s.phaseOf call = some (.answered .timedOut) → s.invocations call = 0 := by
  constructor
  · intro hkept call hphase
    exact hkept.refused call .timedOut hphase trivial
  · intro htimedOut
    refine ⟨fun call reply hphase hrefusal => ?_, fun call status hphase => ?_⟩
    · obtain ⟨place, hat, hpermits⟩ := h call
      rw [hphase] at hpermits
      have habsent : place = .absent → s.invocations call = 0 := by
        rintro rfl
        exact hat.invocations
      cases reply with
      | timedOut => exact htimedOut call hphase
      | returned status => cases hrefusal
      | notConfigured => exact habsent hpermits
      | noWorkers => exact habsent hpermits
      | queueFull => exact habsent hpermits
    · obtain ⟨place, hat, hpermits⟩ := h call
      rw [hphase] at hpermits
      obtain rfl : place = .finished := hpermits
      exact hat.invocations

/-- A step that calls no handler and lets no call time out. -/
theorem Kept.quiet (hkept : s.Kept) (h : s.Sound) (h' : s'.Sound) (hinvoked : s'.invoked = s.invoked)
    (hphase : ∀ x, s'.phaseOf x = some (.answered .timedOut) →
      s.phaseOf x = some (.answered .timedOut)) : s'.Kept := by
  refine h'.kept_iff.mpr fun x hx => ?_
  have hzero := h.kept_iff.mp hkept x (hphase x hx)
  rwa [invocations, hinvoked]

theorem Sound.timeout_spares (h : s.Sound) (hkept : s.Kept)
    (hphase : s.phaseOf call = some (.waiting none)) :
    (s.setPhase call (.answered .timedOut)).Kept ↔ 0 < s.queued call := by
  have hcall : (s.phaseOf call).isSome := by rw [hphase]; rfl
  obtain ⟨place, hat, hpermits⟩ := h call
  rw [hphase] at hpermits
  have hqueued := hat.queued
  have hinvoked := hat.invocations
  rw [(h.timeout hphase).kept_iff]
  constructor
  · intro hafter
    have hzero : s.invocations call = 0 := hafter call (by rw [phaseOf_setPhase hcall, if_pos rfl])
    rcases hpermits with rfl | rfl
    · rw [if_pos rfl] at hqueued
      omega
    · rw [if_pos (.inl rfl)] at hinvoked
      omega
  · intro hwaits x hx
    rw [phaseOf_setPhase hcall] at hx
    by_cases heq : x = call
    · subst heq
      rcases hpermits with rfl | rfl
      · exact hinvoked
      · rw [if_neg (by decide)] at hqueued
        omega
    · rw [if_neg heq] at hx
      exact h.kept_iff.mp hkept x hx

theorem Sound.take_spares (h : s.Sound) (hkept : s.Kept) (hw : s.workers[worker]? = some w)
    (hqueue : w.queue = task :: rest) (hidle : w.running = none) :
    (s.take worker w task rest).Kept ↔ s.phaseOf task.call = some (.waiting none) := by
  have hinvoked (x : Nat) : (s.take worker w task rest).invocations x =
      s.invocations x + if task.call == x then 1 else 0 := List.count_cons
  rw [(h.take hw hqueue hidle).kept_iff]
  constructor
  · intro hafter
    -- The task stood in the queue, so its call waits or has timed out.
    have hin : 0 < s.queued task.call := by
      refine List.count_pos_iff.mpr (List.mem_flatMap.mpr ⟨w, List.mem_of_getElem? hw, ?_⟩)
      rw [Worker.waits, hqueue]
      exact List.mem_cons_self
    obtain ⟨place, hat, hpermits⟩ := h task.call
    have hqueued := hat.queued
    have hplace : place = .queued := by
      by_contra hne
      rw [if_neg hne] at hqueued
      omega
    subst hplace
    have htimedOut : s.phaseOf task.call ≠ some (.answered .timedOut) := by
      intro hphase
      have hzero := hafter task.call hphase
      rw [hinvoked, beq_self_eq_true, if_pos rfl] at hzero
      omega
    match hphase : s.phaseOf task.call, hpermits with
    | some (.waiting none), _ => rfl
    | some (.answered .timedOut), _ => exact absurd hphase htimedOut
  · intro hwaiting x hx
    have hx : s.phaseOf x = some (.answered .timedOut) := hx
    have hne : (task.call == x) = false := by
      refine beq_false_of_ne ?_
      rintro rfl
      rw [hwaiting] at hx
      cases hx
    rw [hinvoked, hne, h.kept_iff.mp hkept x hx]
    rfl

/-! Of the other steps none lets a call time out. -/

theorem timedOut_append {command : CrudCommandMessage} {phase : CallPhase} (next : UInt64) {x : Nat}
    (h : ({ s with nextWorker := next, calls := s.calls ++ [(command, phase)] } :
      CommandLoadBalancer).phaseOf x = some (.answered .timedOut))
    (hphase : phase ≠ .answered .timedOut) : s.phaseOf x = some (.answered .timedOut) := by
  rw [phaseOf_append] at h
  split at h
  · exact absurd (Option.some.inj h) hphase
  · exact h

theorem timedOut_setPhase {phase : CallPhase} {x : Nat} (hcall : (s.phaseOf call).isSome)
    (h : (s.setPhase call phase).phaseOf x = some (.answered .timedOut))
    (hphase : phase ≠ .answered .timedOut) : s.phaseOf x = some (.answered .timedOut) := by
  rw [phaseOf_setPhase hcall] at h
  split at h
  · exact absurd (Option.some.inj h) hphase
  · exact h

theorem Kept.execute (hkept : s.Kept) (h : s.Sound) (command : CrudCommandMessage) :
    (s.execute command).Kept := by
  have hafter := h.execute command
  rw [CommandLoadBalancer.execute] at hafter ⊢
  split at hafter
  next hnone =>
    rw [if_pos hnone]
    exact hkept.quiet h hafter rfl fun x hx => timedOut_append s.nextWorker hx nofun
  next hsome =>
    rw [if_neg hsome]
    split at hafter
    next hempty =>
      rw [if_pos hempty]
      exact hkept.quiet h hafter rfl fun x hx => timedOut_append s.nextWorker hx nofun
    next hworkers =>
      rw [if_neg hworkers]
      exact hkept.quiet h hafter rfl fun x hx => timedOut_append (s.nextWorker + 1) hx nofun

theorem Kept.enqueue (hkept : s.Kept) (h : s.Sound) {command : CrudCommandMessage}
    (hw : s.workers[worker]? = some w) (hphase : s.phaseOf call = some (.chosen worker)) :
    (s.enqueue call worker w command).Kept := by
  have hafter : (s.enqueue call worker w command).Sound := h.enqueue hw hphase
  have hcall : (s.phaseOf call).isSome := by rw [hphase]; rfl
  rw [CommandLoadBalancer.enqueue] at hafter ⊢
  split at hafter
  next hfull =>
    rw [if_pos hfull]
    exact hkept.quiet h hafter rfl fun x hx => timedOut_setPhase hcall hx nofun
  next hroom =>
    rw [if_neg hroom]
    refine hkept.quiet h hafter rfl fun x hx => ?_
    exact timedOut_setPhase (s := s.setWorker worker _) hcall hx nofun

theorem Kept.finish (hkept : s.Kept) (h : s.Sound) (hw : s.workers[worker]? = some w)
    (hbusy : w.running = some task) (status : Status) : (s.finish worker w task status).Kept := by
  have hinvoked : (s.finish worker w task status).invoked = s.invoked := by
    rw [CommandLoadBalancer.finish, setValue]
    split <;> rfl
  refine hkept.quiet h (h.finish hw hbusy status) hinvoked fun x hx => ?_
  rw [CommandLoadBalancer.finish, phaseOf_setValue] at hx
  split at hx
  · change settled status (s.phaseOf x) = _ at hx
    match hphase : s.phaseOf x, hx with
    | some (.answered reply), hx => exact hx
  · exact hx

/-- A step keeps what is claimed of refusals exactly when it spares it. -/
theorem Sound.spares (h : s.Sound) (hkept : s.Kept) {event : DispatchEvent}
    (hstep : s.step event = some s') : s'.Kept ↔ s.Spares event := by
  cases steps_of_step hstep with
  | execute command => exact iff_of_true (hkept.execute h command) trivial
  | enqueue hphase hw => exact iff_of_true (hkept.enqueue h hw hphase) trivial
  | take hw hqueue hidle =>
      rw [h.take_spares hkept hw hqueue hidle]
      constructor
      · intro hwaiting w' task' hw' hhead
        obtain rfl := Option.some.inj (hw.symm.trans hw')
        rw [hqueue] at hhead
        obtain rfl := Option.some.inj hhead
        exact hwaiting
      · intro hspares
        exact hspares _ _ hw (by rw [hqueue]; rfl)
  | finish status hw hbusy => exact iff_of_true (hkept.finish h hw hbusy status) trivial
  | timeout hphase => exact h.timeout_spares hkept hphase
  | collect hphase =>
      refine iff_of_true (hkept.quiet h (h.collect hphase) rfl fun x hx => ?_) trivial
      exact timedOut_setPhase (by rw [hphase]; rfl) hx nofun
  | stop hw => exact iff_of_true (hkept.quiet h (h.stop hw) rfl fun _ hx => hx) trivial

end

theorem kept_create (configured : Bool) (options : CommandLoadBalancerOptions) :
    (create configured options).Kept where
  refused _ _ hphase _ := by cases hphase
  returned _ _ hphase := by cases hphase

end CommandLoadBalancer

open CommandLoadBalancer

/-- What is claimed of refusals holds throughout a run exactly when every time-out of the run
fires on a task still in its queue and every task taken is one whose call still waits. -/
theorem refused_never_run_iff (configured : Bool) (options : CommandLoadBalancerOptions)
    (events : List DispatchEvent) :
    EachState step (create configured options) events Kept ↔
      EachStep step (create configured options) events CommandLoadBalancer.Spares :=
  eachState_iff_eachStep (sound_create configured options) (kept_create configured options)
    (fun h hstep => h.step hstep) (fun h hkept hstep => h.spares hkept hstep)

/-- The handler takes longer than the call waits. -/
theorem refused_run : ¬ ∀ (configured : Bool) (options : CommandLoadBalancerOptions)
    (events : List DispatchEvent), EachState step (create configured options) events Kept := by
  intro h
  have hafter := h true { workerThreads := 1 } [.execute {}, .enqueue 0, .take 0, .timeout 0]
    [.execute {}, .enqueue 0, .take 0, .timeout 0] [] _ rfl rfl
  have hzero := hafter.refused 0 .timedOut rfl trivial
  exact absurd hzero (by decide)

end ServerStorage.Hugin
