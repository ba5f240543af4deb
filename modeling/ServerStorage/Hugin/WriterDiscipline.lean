/-
# `ServerStorage.Hugin.WriterDiscipline` — one write at a time, in order

The front of the queue doubles as the buffer of the write in flight.  `DropOldest` takes
from the front, so an eviction during a write takes the buffer away from under it and, once
the queue is empty, starts a second one.  The discipline holds over a run exactly when no
eviction meets a write in flight; under the other two policies there are no evictions.
-/
import ServerStorage.Hugin.WebsocketSession

namespace ServerStorage.Hugin

open Lib WebsocketSession

/-! ## What a handler does to the queue -/

section
variable {options : FrontendApiServerOptions} {session : WebsocketSession} {payload : Buffer}

/-- The send takes messages from the front of the queue. -/
def Evicts (options : FrontendApiServerOptions) (session : WebsocketSession)
    (payloadSize : UInt64) : Prop :=
  options.wsBackpressurePolicy = .dropOldest ∧ session.overLimit options payloadSize = true ∧
    session.writeQueue ≠ []

/-- What a send comes to: some messages gone from the front, and then the payload refused or
queued, with a write started when nothing is before it. -/
inductive Sent (options : FrontendApiServerOptions) (session : WebsocketSession)
    (payload : Buffer) : WebsocketSession × List Effect → Prop
  | refused (gone : List Buffer) (session' : WebsocketSession) (effects : List Effect)
      (hqueue : session.writeQueue = gone ++ session'.writeQueue)
      (hgone : gone ≠ [] ↔ Evicts options session payload.size) (hwrites : writesOf effects = []) :
      Sent options session payload (session', effects)
  | queued (gone rest : List Buffer) (session' : WebsocketSession) (effects : List Effect)
      (hqueue : session.writeQueue = gone ++ rest)
      (hgone : gone ≠ [] ↔ Evicts options session payload.size)
      (hqueue' : session'.writeQueue = rest ++ [payload])
      (hwrites : writesOf effects = if rest = [] then [payload] else []) :
      Sent options session payload (session', effects)

theorem evictOldest_suffix {size : UInt64} : ∀ {l : List Buffer} {pending : UInt64},
    (evictOldest options size l pending).writeQueue <:+ l
  | [], _ => List.suffix_refl []
  | front :: rest, pending => by
      rw [evictOldest]
      split
      · exact evictOldest_suffix.trans (List.suffix_cons front rest)
      · exact List.suffix_refl _

/-- Over the limit, the loop takes at least the front. -/
theorem evictOldest_over {size : UInt64} {front : Buffer} {rest : List Buffer} {pending : UInt64}
    (h : overLimit options { writeQueue := front :: rest, pendingBytes := pending } size = true) :
    (evictOldest options size (front :: rest) pending).writeQueue <:+ rest := by
  rw [evictOldest, if_pos h]
  exact evictOldest_suffix

theorem enqueue_writes :
    writesOf (session.enqueue payload).2 = if session.writeQueue = [] then [payload] else [] := by
  obtain ⟨queue, pending⟩ := session
  cases queue with
  | nil => rfl
  | cons front rest => rfl

theorem send_sent : Sent options session payload (session.send options payload) := by
  rw [send]
  cases hover : session.overLimit options payload.size with
  | false =>
      have hno : ([] : List Buffer) ≠ [] ↔ Evicts options session payload.size :=
        ⟨fun h => absurd rfl h, fun h => by rw [h.2.1] at hover; cases hover⟩
      rw [if_neg Bool.false_ne_true]
      exact .queued [] session.writeQueue _ _ rfl hno rfl enqueue_writes
  | true =>
  rw [if_pos rfl]
  cases hpolicy : options.wsBackpressurePolicy with
  | dropNewest =>
      have hno : ([] : List Buffer) ≠ [] ↔ Evicts options session payload.size :=
        ⟨fun h => absurd rfl h, fun h => by rw [h.1] at hpolicy; cases hpolicy⟩
      exact .refused [] _ _ rfl hno rfl
  | disconnect =>
      have hno : ([] : List Buffer) ≠ [] ↔ Evicts options session payload.size :=
        ⟨fun h => absurd rfl h, fun h => by rw [h.1] at hpolicy; cases hpolicy⟩
      exact .refused [] _ _ rfl hno rfl
  | dropOldest =>
      dsimp only
      set evicted := evictOldest options payload.size session.writeQueue session.pendingBytes
        with hevicted
      obtain ⟨gone, hgone⟩ : evicted.writeQueue <:+ session.writeQueue := evictOldest_suffix
      have hiff : gone ≠ [] ↔ Evicts options session payload.size := by
        constructor
        · intro hne
          refine ⟨hpolicy, hover, fun hempty => hne ?_⟩
          rw [hempty] at hgone
          exact (List.append_eq_nil_iff.mp hgone).1
        · rintro ⟨-, -, hne⟩ rfl
          obtain ⟨queue, pending⟩ := session
          cases queue with
          | nil => exact hne rfl
          | cons front rest =>
              -- the loop took the front, so what it leaves is shorter
              have hle := (evictOldest_over hover).length_le
              have hlength := congrArg List.length hgone
              rw [hevicted] at hlength
              simp only [List.nil_append, List.length_cons] at hlength
              omega
      split
      · exact .refused gone _ _ hgone.symm hiff rfl
      · exact .queued gone evicted.writeQueue _ _ hgone.symm hiff rfl enqueue_writes

end

theorem onWrite_queue {session : WebsocketSession} {front : Buffer} {rest : List Buffer}
    (h : session.writeQueue = front :: rest) :
    (session.onWrite false).1.writeQueue = rest ∧
      writesOf (session.onWrite false).2 = rest.head?.toList := by
  obtain ⟨queue, pending⟩ := session
  obtain rfl : queue = front :: rest := h
  cases rest with
  | nil => exact ⟨rfl, rfl⟩
  | cons next rest => exact ⟨rfl, rfl⟩

/-! ## The discipline -/

/-- At most one write is in flight, it is that of the front of the queue, and what has been
written and what is queued are the accepted messages in order, less the dropped ones. -/
structure Disciplined (c : Connection) : Prop where
  single : c.outstanding.length ≤ 1
  front : ∀ b ∈ c.outstanding, c.session.writeQueue.head? = some b
  order : c.accepted.filter (· ∉ c.dropped) = c.written ++ c.session.writeQueue

/-- A completed write takes exactly its own message from the queue, a failed one none. -/
def Removes (before : Connection) : WriterEvent → Connection → Prop
  | .send _, _ => True
  | .complete b false, after => before.session.writeQueue = b :: after.session.writeQueue
  | .complete _ true, after => after.session.writeQueue = before.session.writeQueue

/-- The event evicts nothing while a write is in flight. -/
def Spares (options : FrontendApiServerOptions) (c : Connection) : WriterEvent → Prop
  | .send text => options.wsBackpressurePolicy = .dropOldest →
      c.session.overLimit options text.length.toUInt64 = true → c.outstanding = []
  | .complete _ _ => True

/-- A disciplined connection whose addresses are all used up in order. -/
structure Connection.Sound (c : Connection) : Prop extends Disciplined c where
  fresh : ∀ b ∈ c.accepted, b.address < c.nextAddress
  stale : ∀ b ∈ c.dropped, b.address < c.nextAddress
  nodup : c.accepted.Nodup

namespace Connection

variable {options : FrontendApiServerOptions} {c next : Connection}

theorem sound_initial : Sound {} where
  single := Nat.zero_le 1
  front := fun _ h => nomatch h
  order := rfl
  fresh := fun _ h => nomatch h
  stale := fun _ h => nomatch h
  nodup := List.nodup_nil

theorem Sound.mem_accepted (h : c.Sound) {b : Buffer} (hb : b ∈ c.session.writeQueue) :
    b ∈ c.accepted := by
  have hmem : b ∈ c.accepted.filter (· ∉ c.dropped) := by
    rw [h.order]
    exact List.mem_append_right _ hb
  exact (List.mem_filter.mp hmem).1

theorem Sound.nodup_queue (h : c.Sound) : (c.written ++ c.session.writeQueue).Nodup := by
  rw [← h.order]
  exact h.nodup.filter _

theorem filter_eq_self_of_disjoint {l l' : List Buffer} (h : l.Disjoint l') :
    l.filter (· ∉ l') = l :=
  List.filter_eq_self.mpr fun _ hb => decide_eq_true (h hb)

theorem filter_eq_nil_of_subset {l l' : List Buffer} (h : l ⊆ l') : l.filter (· ∉ l') = [] :=
  List.filter_eq_nil_iff.mpr fun _ hb => by simpa using h hb

/-- What is gone from the queue after a send are the messages taken from its front. -/
theorem filter_gone {gone rest : List Buffer} (tail : List Buffer) (h : (gone ++ rest).Nodup)
    (htail : gone.Disjoint tail) : (gone ++ rest).filter (· ∉ rest ++ tail) = gone := by
  have hrest : gone.Disjoint rest := (List.nodup_append'.mp h).2.2
  rw [List.filter_append, filter_eq_nil_of_subset (List.subset_append_left rest tail),
    filter_eq_self_of_disjoint (List.disjoint_append_right.mpr ⟨hrest, htail⟩), List.append_nil]

/-- Messages may leave at the front and new ones join at the end. -/
theorem Sound.order_replace (h : c.Sound) {gone rest tail : List Buffer}
    (hqueue : c.session.writeQueue = gone ++ rest)
    (htail : ∀ b ∈ tail, c.nextAddress ≤ b.address) :
    (c.accepted ++ tail).filter (· ∉ c.dropped ++ gone) = c.written ++ (rest ++ tail) := by
  have hnodup := h.nodup_queue
  rw [hqueue] at hnodup
  obtain ⟨-, hnodup', hwritten⟩ := List.nodup_append'.mp hnodup
  obtain ⟨-, -, hrest⟩ := List.nodup_append'.mp hnodup'
  have hold : c.accepted.filter (· ∉ c.dropped ++ gone) =
      (c.accepted.filter (· ∉ c.dropped)).filter (· ∉ gone) := by
    rw [List.filter_filter]
    refine List.filter_congr fun b _ => ?_
    simp only [List.mem_append, not_or, Bool.decide_and, Bool.and_comm]
  have hnew : tail.Disjoint (c.dropped ++ gone) := by
    intro b hb hmem
    refine absurd (htail b hb) (Nat.not_le.mpr ?_)
    rcases List.mem_append.mp hmem with hdropped | hgone
    · exact h.stale b hdropped
    · exact h.fresh b (h.mem_accepted (by rw [hqueue]; exact List.mem_append_left _ hgone))
  rw [List.filter_append, hold, h.order, hqueue, List.filter_append, List.filter_append,
    filter_eq_self_of_disjoint (List.disjoint_append_right.mp hwritten).1,
    filter_eq_nil_of_subset (List.Subset.refl gone), filter_eq_self_of_disjoint hrest.symm,
    filter_eq_self_of_disjoint hnew, List.nil_append, List.append_assoc]

/-- The state after a send that takes `gone` from the front and adds `tail` at the end. -/
theorem Sound.replace (h : c.Sound) {gone rest : List Buffer} (tail : List Buffer) {next : Connection}
    (hqueue : c.session.writeQueue = gone ++ rest)
    (htail : ∀ b ∈ tail, b.address = c.nextAddress) (hnodup : tail.Nodup)
    (hnext : next.nextAddress = c.nextAddress + 1)
    (haccepted : next.accepted = c.accepted ++ tail) (hdropped : next.dropped = c.dropped ++ gone)
    (hwritten : next.written = c.written) (hqueue' : next.session.writeQueue = rest ++ tail)
    (hsingle : next.outstanding.length ≤ 1)
    (hfront : ∀ b ∈ next.outstanding, next.session.writeQueue.head? = some b) : next.Sound where
  single := hsingle
  front := hfront
  order := by
    rw [haccepted, hdropped, hwritten, hqueue']
    exact h.order_replace hqueue fun b hb => (htail b hb).ge
  fresh := fun b hb => by
    rw [hnext]
    rw [haccepted] at hb
    rcases List.mem_append.mp hb with hold | hnew
    · exact Nat.lt_succ_of_lt (h.fresh b hold)
    · rw [htail b hnew]
      exact Nat.lt_succ_self _
  stale := fun b hb => by
    rw [hnext]
    rw [hdropped] at hb
    rcases List.mem_append.mp hb with hold | hgone
    · exact Nat.lt_succ_of_lt (h.stale b hold)
    · exact Nat.lt_succ_of_lt (h.fresh b (h.mem_accepted
        (by rw [hqueue]; exact List.mem_append_left _ hgone)))
  nodup := by
    rw [haccepted]
    refine List.nodup_append'.mpr ⟨h.nodup, hnodup, fun b hold hnew => ?_⟩
    exact absurd (htail b hnew) (Nat.ne_of_lt (h.fresh b hold))

theorem Sound.not_queued (h : c.Sound) {b : Buffer} (hb : c.nextAddress ≤ b.address) :
    b ∉ c.session.writeQueue := fun hmem =>
  absurd hb (Nat.not_le.mpr (h.fresh b (h.mem_accepted hmem)))

theorem Sound.afterSend (h : c.Sound) {text : Str} (hspares : Spares options c (.send text)) :
    (c.afterSend options text).Sound := by
  set payload : Buffer := { address := c.nextAddress, text } with hpayload
  have hsent : Sent options c.session payload _ := send_sent
  have hnew : payload ∉ c.session.writeQueue := h.not_queued (Nat.le_refl _)
  have hidle : Evicts options c.session payload.size → c.outstanding = [] :=
    fun hevicts => hspares hevicts.1 hevicts.2.1
  rw [Connection.afterSend, ← hpayload]
  generalize c.session.send options payload = outcome at hsent
  cases hsent with
  | refused gone session' effects hqueue hgone hwrites =>
      dsimp only
      rw [hwrites, List.append_nil]
      have hnodup : (gone ++ session'.writeQueue).Nodup := by
        rw [← hqueue]
        exact h.nodup_queue.of_append_right
      refine h.replace [] hqueue (fun _ hb => nomatch hb) List.nodup_nil rfl ?_ ?_ rfl
        (List.append_nil _).symm h.single fun b hb => ?_
      · have hout : payload ∉ session'.writeQueue := fun hmem =>
          hnew (by rw [hqueue]; exact List.mem_append_right _ hmem)
        rw [List.filter_cons_of_neg (by simpa using hout), List.filter_nil]
      · have hgone' := filter_gone [] hnodup (List.disjoint_nil_right gone)
        rw [List.append_nil] at hgone'
        rw [hqueue, hgone']
      · -- a write in flight has kept the policy from evicting
        obtain rfl : gone = [] := by
          by_contra hne
          rw [hidle (hgone.mp hne)] at hb
          cases hb
        rw [List.nil_append] at hqueue
        rw [← hqueue]
        exact h.front b hb
  | queued gone rest session' effects hqueue hgone hqueue' hwrites =>
      dsimp only
      rw [hwrites]
      have hnodup : (gone ++ rest).Nodup := by
        rw [← hqueue]
        exact h.nodup_queue.of_append_right
      have hbusy : c.outstanding ≠ [] → gone = [] := fun hbusy => by
        by_contra hne
        exact hbusy (hidle (hgone.mp hne))
      have hempty : rest = [] → c.outstanding = [] := fun hrest => by
        by_contra hout
        obtain ⟨b, l, hl⟩ := List.exists_cons_of_ne_nil hout
        have hb := h.front b (by rw [hl]; exact List.mem_cons_self)
        rw [hqueue, hbusy hout, hrest] at hb
        cases hb
      refine h.replace [payload] hqueue (fun b hb => ?_) (List.nodup_singleton _) rfl
        ?_ ?_ rfl hqueue' ?_ fun b hb => ?_
      · rw [List.mem_singleton.mp hb]
      · have hmem : payload ∈ session'.writeQueue := by
          rw [hqueue']
          exact List.mem_append_right _ List.mem_cons_self
        rw [List.filter_cons_of_pos (by simpa using hmem), List.filter_nil]
      · rw [hqueue', hqueue, filter_gone _ hnodup]
        intro b hb hpay
        refine hnew ?_
        rw [← List.mem_singleton.mp hpay, hqueue]
        exact List.mem_append_left _ hb
      · by_cases hrest : rest = []
        · rw [if_pos hrest, hempty hrest]
          exact Nat.le_refl 1
        · rw [if_neg hrest, List.append_nil]
          exact h.single
      · rw [hqueue']
        by_cases hrest : rest = []
        · rw [if_pos hrest, hempty hrest] at hb
          rw [hrest, List.mem_singleton.mp hb]
          rfl
        · rw [if_neg hrest, List.append_nil] at hb
          have hfront := h.front b hb
          rw [hqueue, hbusy (List.ne_nil_of_mem hb), List.nil_append] at hfront
          rw [List.head?_append, hfront]
          rfl

theorem Sound.afterWrite (h : c.Sound) {b : Buffer} (error : Bool) (hb : b ∈ c.outstanding) :
    (c.afterWrite b error).Sound ∧ Removes c (.complete b error) (c.afterWrite b error) := by
  have hfront := h.front b hb
  obtain ⟨rest, hqueue⟩ := List.head?_eq_some_iff.mp hfront
  -- the write that completes is the only one
  have honly : c.outstanding.erase b = [] := by
    refine List.length_eq_zero_iff.mp ?_
    have hlength := List.length_erase_of_mem hb
    have hsingle := h.single
    omega
  cases error with
  | true =>
      refine ⟨?_, rfl⟩
      show Sound { c with outstanding := c.outstanding.erase b ++ [] }
      rw [honly]
      exact { h with single := Nat.zero_le 1, front := fun _ hb => nomatch hb }
  | false =>
      obtain ⟨hrest, hwrites⟩ := onWrite_queue hqueue
      refine ⟨?_, hqueue.trans (congrArg (b :: ·) hrest.symm)⟩
      refine
        { single := ?_, front := ?_, order := ?_, fresh := h.fresh, stale := h.stale
          nodup := h.nodup }
      · show (c.outstanding.erase b ++ writesOf (c.session.onWrite false).2).length ≤ 1
        rw [honly, hwrites]
        cases rest with
        | nil => exact Nat.zero_le 1
        | cons next rest => exact Nat.le_refl 1
      · intro b' hb'
        have hmem : b' ∈ c.outstanding.erase b ++ writesOf (c.session.onWrite false).2 := hb'
        rw [honly, hwrites, List.nil_append, Option.mem_toList] at hmem
        show (c.session.onWrite false).1.writeQueue.head? = some b'
        rw [hrest]
        exact hmem
      · show c.accepted.filter (· ∉ c.dropped) = (c.written ++ [b]) ++
          (c.session.onWrite false).1.writeQueue
        rw [h.order, hqueue, hrest, List.append_assoc]
        rfl

/-- An eviction during a write takes the buffer of the write. -/
theorem Sound.not_disciplined (h : c.Sound) {text : Str}
    (hspares : ¬ Spares options c (.send text)) : ¬ Disciplined (c.afterSend options text) := by
  set payload : Buffer := { address := c.nextAddress, text } with hpayload
  have hsent : Sent options c.session payload _ := send_sent
  simp only [Spares, Classical.not_imp] at hspares
  obtain ⟨hpolicy, hover, hbusy⟩ := hspares
  obtain ⟨b, l, hl⟩ := List.exists_cons_of_ne_nil hbusy
  have hb : b ∈ c.outstanding := by
    rw [hl]
    exact List.mem_cons_self
  have hfront := h.front b hb
  have hevicts : Evicts options c.session payload.size := by
    refine ⟨hpolicy, hover, fun hempty => ?_⟩
    rw [hempty] at hfront
    cases hfront
  intro hdisc
  have hhead := hdisc.front b (List.mem_append_left _ hb)
  rw [Connection.afterSend, ← hpayload] at hhead
  have hmem := List.mem_of_head? hhead
  have hnodup := h.nodup_queue.of_append_right
  have hnew : payload ∉ c.session.writeQueue := h.not_queued (Nat.le_refl _)
  generalize c.session.send options payload = outcome at hsent hmem
  -- the front is gone, and what is left or added is not it
  have hgoneFront : ∀ {gone rest : List Buffer}, c.session.writeQueue = gone ++ rest →
      gone ≠ [] → b ∉ rest := by
    intro gone rest hqueue hne hrest
    obtain ⟨first, gone', rfl⟩ := List.exists_cons_of_ne_nil hne
    rw [hqueue] at hfront hnodup
    obtain rfl := Option.some.inj hfront
    exact (List.nodup_append'.mp hnodup).2.2 List.mem_cons_self hrest
  cases hsent with
  | refused gone session' effects hqueue hgone hwrites =>
      exact hgoneFront hqueue (hgone.mpr hevicts) hmem
  | queued gone rest session' effects hqueue hgone hqueue' hwrites =>
      dsimp only at hmem
      rw [hqueue'] at hmem
      rcases List.mem_append.mp hmem with hrest | hnewest
      · exact hgoneFront hqueue (hgone.mpr hevicts) hrest
      · rw [List.mem_singleton.mp hnewest] at hfront
        exact hnew (List.mem_of_head? hfront)

theorem Sound.step (h : c.Sound) {event : WriterEvent} (hstep : c.step options event = some next) :
    (Spares options c event → next.Sound) ∧
      (Disciplined next ∧ Removes c event next ↔ Spares options c event) := by
  cases event with
  | send text =>
      obtain rfl := Option.some.inj hstep
      refine ⟨h.afterSend, fun hdisc => ?_, fun hspares => ⟨(h.afterSend hspares).1, trivial⟩⟩
      by_contra hspares
      exact h.not_disciplined hspares hdisc.1
  | complete b error =>
      rw [Connection.step] at hstep
      split at hstep
      · rename_i hb
        obtain rfl := Option.some.inj hstep
        obtain ⟨hsound, hremoves⟩ := h.afterWrite error hb
        exact ⟨fun _ => hsound, fun _ => trivial, fun _ => ⟨hsound.1, hremoves⟩⟩
      · cases hstep

/-! ## Runs -/

theorem run_concat {event : WriterEvent} :
    ∀ {pre : List WriterEvent} {start : Connection},
      run options start (pre ++ [event]) = (run options start pre).bind (step options · event)
  | [], start => by
      show run options start [event] = start.step options event
      rw [run]
      cases start.step options event with
      | none => rfl
      | some next => rfl
  | first :: pre, start => by
      rw [List.cons_append, run, run]
      cases start.step options first with
      | none => rfl
      | some next => exact run_concat

/-- Every step that the run of the events takes. -/
def EachStep (options : FrontendApiServerOptions) (events : List WriterEvent)
    (P : Connection → WriterEvent → Connection → Prop) : Prop :=
  ∀ pre event post before after, events = pre ++ event :: post →
    run options {} pre = some before → before.step options event = some after →
    P before event after

theorem sound_of_eachStep {events : List WriterEvent}
    (h : EachStep options events fun before event _ => before.Sound → Spares options before event) :
    ∀ {pre post : List WriterEvent} {c : Connection}, events = pre ++ post →
      run options {} pre = some c → c.Sound := by
  intro pre
  induction pre using List.reverseRecOn with
  | nil =>
      intro post c _ hrun
      obtain rfl := Option.some.inj hrun
      exact sound_initial
  | append_singleton pre event ih =>
      intro post c hevents hrun
      rw [run_concat] at hrun
      obtain ⟨before, hbefore, hstep⟩ := Option.bind_eq_some_iff.mp hrun
      rw [List.append_assoc] at hevents
      have hsound := ih hevents hbefore
      exact (hsound.step hstep).1 (h pre event post before c hevents hbefore hstep hsound)

end Connection

open Connection

/-- The writer keeps to its discipline in every step of a run exactly when no send of the run
evicts while a write is in flight. -/
theorem writer_disciplined_iff (options : FrontendApiServerOptions) (events : List WriterEvent) :
    (EachStep options events fun before event after =>
      Disciplined after ∧ Removes before event after) ↔
      EachStep options events fun before event _ => Spares options before event := by
  constructor
  · intro h pre event post before after hevents hrun hstep
    have hsound : before.Sound := sound_of_eachStep
      (fun pre event post before after hevents hrun hstep hsound =>
        (hsound.step hstep).2.mp (h pre event post before after hevents hrun hstep)) hevents hrun
    exact (hsound.step hstep).2.mp (h pre event post before after hevents hrun hstep)
  · intro h pre event post before after hevents hrun hstep
    have hsound : before.Sound := sound_of_eachStep
      (fun pre event post before after hevents hrun hstep _ =>
        h pre event post before after hevents hrun hstep) hevents hrun
    exact (hsound.step hstep).2.mpr (h pre event post before after hevents hrun hstep)

/-- Two sends under `DropOldest` and a limit of one message: the first is evicted while it is
being written, and both writes are in flight. -/
theorem not_writer_disciplined :
    ¬ ∀ (options : FrontendApiServerOptions) (events : List WriterEvent),
      EachStep options events fun before event after =>
        Disciplined after ∧ Removes before event after := by
  intro h
  have htwo := h { wsMaxPendingMessages := 1 } [.send [1], .send [2]] [.send [1]] (.send [2]) []
    _ _ rfl rfl rfl
  exact absurd htwo.1.single (by decide)

end ServerStorage.Hugin
