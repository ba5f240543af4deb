/-
# `ServerStorage.Hugin.IngestSpec` — the ingest log over every interleaving

The first check is made from a sequence that may be out of date by the time of the
append.  It is never too large, and the checkpoint never falls, so what passes it is at
most one past the checkpoint: the log has no gap (`Gapless`).  It may be too small:
nothing keeps two calls with one sequence from passing it together, and each of them is
taken to the sink.  `Claims` counts the calls that have appended; as long as each
append finds its place free, there is one for each record.
-/
import ServerStorage.Hugin.Ingest
import ServerStorage.Hugin.Reconstruct

namespace ServerStorage.Hugin

open Lib ServerStorage.Muninn IngestCoordinator InMemoryIngestStore

/-! ## The keys of the store -/

/-- The last `#` of a key ends its host. -/
theorem makeKey_inj {h h' : Str} {n n' : UInt64} :
    makeKey h n = makeKey h' n' ↔ h = h' ∧ n = n' := by
  refine ⟨fun heq => ?_, fun ⟨hh, hn⟩ => by rw [hh, hn]⟩
  have hdigits : ∀ (h : Str) (n : UInt64), (makeKey h n).reverse.takeWhile (fun c => c != 35) =
      (decimal n.toNat).reverse := by
    intro h n
    rw [makeKey, List.reverse_append, List.takeWhile_append_of_pos]
    · rw [List.reverse_append]
      simp [show str "#" = [35] from rfl]
    · intro c hc
      have hdigit := isDigit_of_mem_decimal (List.mem_reverse.mp hc)
      rw [bne_iff_ne]
      rintro rfl
      exact absurd hdigit (by decide)
  have hdec : decimal n.toNat = decimal n'.toNat := by
    have hrev := hdigits h n
    rw [heq, hdigits h' n'] at hrev
    exact (List.reverse_injective hrev).symm
  have hn : n = n' := UInt64.toNat_inj.mp (decimal_inj.mp hdec)
  subst hn
  rw [makeKey, makeKey, List.append_assoc, List.append_assoc] at heq
  exact ⟨List.append_cancel_right heq, rfl⟩

theorem checkpoint_append (store : InMemoryIngestStore) (record : IngestLogRecord) (h : Str) :
    (store.append record).checkpoint h =
      if h = record.hostId then max (store.checkpoint h) record.sequence
      else store.checkpoint h := by
  show ((store.checkpoints.insert record.hostId (max (store.checkpoint record.hostId)
    record.sequence)).lookup h).getD 0 = _
  by_cases heq : h = record.hostId
  · rw [if_pos heq, heq, Finmap.lookup_insert, Option.getD_some]
  · rw [if_neg heq, Finmap.lookup_insert_of_ne _ heq, ← checkpoint]

theorem checkpoint_le_append (store : InMemoryIngestStore) (record : IngestLogRecord) (h : Str) :
    store.checkpoint h ≤ (store.append record).checkpoint h := by
  rw [checkpoint_append]
  split
  · exact le_max_left _ _
  · exact le_rfl

/-- A record is stored under its own key and no other. -/
def StoredByKey (store : InMemoryIngestStore) : Prop :=
  ∀ key record, store.records.lookup key = some record →
    key = makeKey record.hostId record.sequence

/-- The record stored for a host and a sequence. -/
def stored (store : InMemoryIngestStore) (h : Str) (n : UInt64) : Option IngestLogRecord :=
  store.records.lookup (makeKey h n)

theorem stored_append (store : InMemoryIngestStore) (record : IngestLogRecord) (h : Str)
    (n : UInt64) :
    stored (store.append record) h n =
      if h = record.hostId ∧ n = record.sequence ∧
          stored store record.hostId record.sequence = none then some record
      else stored store h n := by
  rw [stored, append]
  dsimp only
  cases hfound : store.records.lookup (makeKey record.hostId record.sequence) with
  | some old =>
      rw [if_pos (by rfl), if_neg, stored]
      rintro ⟨-, -, hnone⟩
      rw [stored, hfound] at hnone
      exact absurd hnone (by simp)
  | none =>
      rw [if_neg (by simp)]
      split
      next hkey => rw [hkey.1, hkey.2.1, Finmap.lookup_insert]
      next hkey =>
        rw [Finmap.lookup_insert_of_ne, stored]
        intro heq
        obtain ⟨hh, hn⟩ := makeKey_inj.mp heq
        exact hkey ⟨hh, hn, hfound⟩

theorem StoredByKey.append {store : InMemoryIngestStore} (h : StoredByKey store) (record : IngestLogRecord) :
    StoredByKey (store.append record) := by
  intro key found hfound
  rw [InMemoryIngestStore.append] at hfound
  dsimp only at hfound
  split at hfound
  · exact h key found hfound
  · by_cases hkey : key = makeKey record.hostId record.sequence
    · subst hkey
      rw [Finmap.lookup_insert] at hfound
      rw [Option.some.inj hfound]
    · rw [Finmap.lookup_insert_of_ne _ hkey] at hfound
      exact h key found hfound

theorem stored_eq_some {store : InMemoryIngestStore} (h : StoredByKey store) {host : Str} {n : UInt64} :
    (∃ key record, store.records.lookup key = some record ∧ record.hostId = host ∧
      record.sequence = n) ↔ (stored store host n).isSome = true := by
  rw [Option.isSome_iff_exists]
  constructor
  · rintro ⟨key, record, hfound, rfl, rfl⟩
    exact ⟨record, by rw [stored, ← h key record hfound, hfound]⟩
  · rintro ⟨record, hfound⟩
    obtain ⟨hh, hn⟩ := makeKey_inj.mp (h _ record hfound)
    exact ⟨_, record, hfound, hh.symm, hn.symm⟩

/-! ## What the parts of a call do -/

section
variable {store : InMemoryIngestStore} {hostStates : HostStates} {call : IngestCall}

/-- No host is thought to be further than it is stored. -/
def Cached (store : InMemoryIngestStore) (hostStates : HostStates) : Prop :=
  ∀ h state, hostStates.lookup h = some state →
    state.lastCommittedSequence ≤ store.checkpoint h

theorem Cached.insert (h : Cached store hostStates) {host : Str} {state : HostState}
    (hle : state.lastCommittedSequence ≤ store.checkpoint host) :
    Cached store (hostStates.insert host state) := by
  intro h' state' hfound
  by_cases heq : h' = host
  · subst heq
    rw [Finmap.lookup_insert] at hfound
    exact Option.some.inj hfound ▸ hle
  · rw [Finmap.lookup_insert_of_ne _ heq] at hfound
    exact h h' state' hfound

theorem Cached.getD (h : Cached store hostStates) (host : Str) :
    ((hostStates.lookup host).getD {}).lastCommittedSequence ≤ store.checkpoint host := by
  cases hfound : hostStates.lookup host with
  | none => exact UInt64.zero_le
  | some state => exact h host state hfound

theorem loadHostState_spec (h : Cached store hostStates) (host : Str) :
    Cached store (loadHostState store hostStates host).2 ∧
      ∀ state, (loadHostState store hostStates host).1 = .ok state →
        state.lastCommittedSequence ≤ store.checkpoint host := by
  have hle := h.getD host
  rw [loadHostState]
  dsimp only
  split
  · exact ⟨h, fun state heq => Except.ok.inj heq ▸ hle⟩
  · split
    · exact ⟨h.insert hle, fun state heq => absurd heq (by simp)⟩
    next checkpoint hget =>
      have heq : checkpoint = store.checkpoint host := by
        rw [getCheckpoint] at hget
        split at hget
        · exact absurd hget (by simp)
        · exact (Except.ok.inj hget).symm
      exact ⟨h.insert heq.le, fun state hstate => Except.ok.inj hstate ▸ heq.le⟩

/-- A call let through is at most one past the checkpoint. -/
theorem admit_spec (h : Cached store hostStates) (call : IngestCall) :
    Cached store (admitted store hostStates call).2 ∧
      ((admitted store hostStates call).1 = none → call.hostId ≠ [] ∧ 0 < call.sequence ∧
        call.sequence.toNat ≤ (store.checkpoint call.hostId).toNat + 1) ∧
      (∀ d, (admitted store hostStates call).1 = some (.ok d) → d.action ≠ .committed ∧
        d.ackInclusiveSequence ≤ store.checkpoint call.hostId) := by
  obtain ⟨hcached, hstate⟩ := loadHostState_spec h call.hostId
  rw [admitted]
  split
  · exact ⟨h, fun heq => absurd heq (by simp), fun d heq => absurd heq (by simp)⟩
  next hhost =>
    split
    · exact ⟨h, fun heq => absurd heq (by simp), fun d heq => absurd heq (by simp)⟩
    next hzero =>
      split
      next status hostStates' heq =>
        rw [heq] at hcached
        exact ⟨hcached, fun heq => absurd heq (by simp), fun d heq => absurd heq (by simp)⟩
      next state hostStates' heq =>
        rw [heq] at hcached hstate
        have hle := hstate state rfl
        refine ⟨hcached, fun hnone => ⟨hhost, UInt64.pos_iff_ne_zero.mpr hzero, ?_⟩, fun d hd => ?_⟩
        · rw [Option.map_eq_none_iff, admission] at hnone
          split at hnone
          · exact absurd hnone (by simp)
          next hnew =>
            split at hnone
            · exact absurd hnone (by simp)
            next hnext =>
              have h₁ := UInt64.lt_iff_toNat_lt.mp (not_le.mp hnew)
              have h₂ := UInt64.le_iff_toNat_le.mp (not_lt.mp hnext)
              have h₃ := UInt64.le_iff_toNat_le.mp hle
              have h₄ := call.sequence.toNat_lt
              rw [toNat_succ (by omega)] at h₂
              omega
        · obtain ⟨d', hd', heq⟩ := Option.map_eq_some_iff.mp hd
          obtain rfl := Except.ok.inj heq
          rw [admission] at hd'
          split at hd'
          · obtain rfl := Option.some.inj hd'
            exact ⟨by simp, hle⟩
          · split at hd'
            · obtain rfl := Option.some.inj hd'
              exact ⟨by simp, hle⟩
            · exact absurd hd' (by simp)

theorem update_spec (h : Cached store hostStates) (options : IngestCoordinatorOptions)
    (sinkStatus : Status) (hcall : call.sequence ≤ store.checkpoint call.hostId) :
    Cached store (update options store hostStates call sinkStatus).2 ∧
      ∀ d, (update options store hostStates call sinkStatus).1 = .ok d →
        d.ackInclusiveSequence ≤ store.checkpoint call.hostId := by
  obtain ⟨hcached, hstate⟩ := loadHostState_spec h call.hostId
  rw [update]
  split
  next status hostStates' heq =>
    rw [heq] at hcached
    exact ⟨hcached, fun d heq => absurd heq (by simp)⟩
  next state hostStates' heq =>
    rw [heq] at hcached hstate
    have hle := max_le (hstate state rfl) hcall
    exact ⟨hcached.insert hle, fun d hd => Except.ok.inj hd ▸ hle⟩

end

/-! ## The log has no gap -/

/-- The records of every host are those up to its checkpoint. -/
def Full (store : InMemoryIngestStore) : Prop :=
  ∀ h n, (stored store h n).isSome = true ↔ 1 ≤ n ∧ n ≤ store.checkpoint h

/-- What is known of a call by how far it has come. -/
def Phase.Bounded (store : InMemoryIngestStore) (call : IngestCall) : Phase → Prop
  | .admitted => call.hostId ≠ [] ∧ 0 < call.sequence ∧
      call.sequence.toNat ≤ (store.checkpoint call.hostId).toNat + 1
  | .appended _ | .applied _ => call.sequence ≤ store.checkpoint call.hostId
  | .returned result checkpoint => ∀ d, result = .ok d → d.ackInclusiveSequence ≤ checkpoint

structure Gapless {σ : Type} (s : Ingesting σ) : Prop where
  keyed : StoredByKey s.store
  full : Full s.store
  cached : Cached s.store s.hostStates
  calls : ∀ c ∈ s.calls, c.2.Bounded s.store c.1

theorem Phase.Bounded.append {store : InMemoryIngestStore} {call : IngestCall} {phase : Phase}
    (h : phase.Bounded store call) (record : IngestLogRecord) :
    phase.Bounded (store.append record) call := by
  have hle := checkpoint_le_append store record call.hostId
  cases phase with
  | admitted =>
      have hnat := UInt64.le_iff_toNat_le.mp hle
      exact ⟨h.1, h.2.1, h.2.2.trans (by omega)⟩
  | appended record => exact h.trans hle
  | applied status => exact h.trans hle
  | returned result checkpoint => exact h

theorem Full.append {store : InMemoryIngestStore} (h : Full store) {record : IngestLogRecord}
    (hpos : 0 < record.sequence)
    (hnext : record.sequence.toNat ≤ (store.checkpoint record.hostId).toNat + 1) :
    Full (store.append record) := by
  intro host n
  rw [stored_append, checkpoint_append]
  by_cases hhost : host = record.hostId
  · subst hhost
    rw [if_pos rfl]
    split
    next hkey =>
      obtain ⟨-, rfl, hnone⟩ := hkey
      exact ⟨fun _ => ⟨UInt64.le_iff_toNat_le.mpr (UInt64.lt_iff_toNat_lt.mp hpos),
        le_max_right _ _⟩, fun _ => rfl⟩
    next hkey =>
      rw [h record.hostId n]
      refine and_congr_right fun hone => ⟨fun hle => hle.trans (le_max_left _ _), fun hle => ?_⟩
      rcases le_max_iff.mp hle with hle | hle
      · exact hle
      · -- at most the record's own number, which is stored already or is not this one
        by_cases hstored : stored store record.hostId record.sequence = none
        · have hne : n ≠ record.sequence := fun heq => hkey ⟨rfl, heq, hstored⟩
          have h₁ := UInt64.lt_iff_toNat_lt.mp (lt_of_le_of_ne hle hne)
          exact UInt64.le_iff_toNat_le.mpr (by omega)
        · have hin := (h record.hostId record.sequence).mp (Option.isSome_iff_ne_none.mpr hstored)
          exact hle.trans hin.2
  · rw [if_neg fun hkey => hhost hkey.1, if_neg hhost]
    exact h host n

theorem appendIfAbsentAndCheckpoint_ok {store : InMemoryIngestStore} {call : IngestCall}
    (hhost : call.hostId ≠ []) (hpos : 0 < call.sequence) :
    store.appendIfAbsentAndCheckpoint (recordOf call) = (.success, store.append (recordOf call)) :=
  if_neg fun h => h.elim hhost hpos.ne'

theorem Gapless.act {σ : Type} {sink : DownstreamSink σ} {options : IngestCoordinatorOptions}
    {s : Ingesting σ} (h : Gapless s) (a : IngestAct) : Gapless (s.act sink options a) := by
  cases a with
  | call call =>
      obtain ⟨hcached, hnone, hsome⟩ := admit_spec h.cached call
      refine ⟨h.keyed, h.full, hcached, fun c hc => ?_⟩
      rcases List.mem_append.mp hc with hc | hc
      · exact h.calls c hc
      · rw [List.mem_singleton.mp hc]
        show Phase.Bounded s.store call ((admitted s.store s.hostStates call).1.elim .admitted
          fun result => .returned result (s.checkpointOf call))
        cases hresult : (admitted s.store s.hostStates call).1 with
        | none => exact hnone hresult
        | some result =>
            rintro d rfl
            exact (hsome d hresult).2
  | advance i =>
      rw [Ingesting.act]
      cases hc : s.calls[i]? with
      | none => exact h
      | some c =>
          obtain ⟨call, phase⟩ := c
          have hbounded := h.calls _ (List.mem_of_getElem? hc)
          cases phase with
          | returned result checkpoint => exact h
          | admitted =>
              obtain ⟨hhost, hpos, hnext⟩ := hbounded
              dsimp only [Ingesting.appendCall]
              rw [appendIfAbsentAndCheckpoint_ok hhost hpos]
              cases hvalid : validated call with
              | error status =>
                  refine ⟨h.keyed, h.full, h.cached, fun c hc => ?_⟩
                  rcases List.mem_or_eq_of_mem_set hc with hc | rfl
                  · exact h.calls c hc
                  · exact fun d hd => absurd hd (by simp)
              | ok record =>
                  refine ⟨h.keyed.append _, h.full.append hpos hnext, fun h' state hfound => ?_,
                    fun c hc => ?_⟩
                  · exact (h.cached h' state hfound).trans (checkpoint_le_append _ _ _)
                  · rcases List.mem_or_eq_of_mem_set hc with hc | rfl
                    · exact (h.calls c hc).append _
                    · show call.sequence ≤ (s.store.append (recordOf call)).checkpoint call.hostId
                      rw [checkpoint_append, if_pos (by rfl)]
                      exact le_max_right _ _
          | appended record =>
              refine ⟨h.keyed, h.full, h.cached, fun c hc => ?_⟩
              rcases List.mem_or_eq_of_mem_set hc with hc | rfl
              · exact h.calls c hc
              · exact hbounded
          | applied sinkStatus =>
              obtain ⟨hcached, hack⟩ := update_spec h.cached options sinkStatus hbounded
              refine ⟨h.keyed, h.full, hcached, fun c hc => ?_⟩
              rcases List.mem_or_eq_of_mem_set hc with hc | rfl
              · exact h.calls c hc
              · exact hack

theorem Gapless.run {σ : Type} {sink : DownstreamSink σ} {options : IngestCoordinatorOptions} :
    ∀ (acts : List IngestAct) {s : Ingesting σ}, Gapless s → Gapless (s.run sink options acts)
  | [], _, h => h
  | a :: rest, _, h => Gapless.run rest (h.act a)

theorem gapless_init {σ : Type} (state : σ) : Gapless ({ sink := state } : Ingesting σ) where
  keyed _ _ hfound := absurd hfound (by simp)
  full h n := by
    have hzero : ({} : InMemoryIngestStore).checkpoint h = 0 := rfl
    rw [hzero]
    refine ⟨fun hsome => absurd hsome (by simp [stored]), fun ⟨hone, hle⟩ => ?_⟩
    exact absurd (hone.trans hle) (by decide)
  cached _ _ hfound := absurd hfound (by simp)
  calls _ hc := absurd hc List.not_mem_nil

/-- From an empty store, over any calls in any order of their steps: the records of a
host are those numbered from one to its checkpoint, no host is thought further than its
checkpoint, and no decision acks more than the checkpoint there was. -/
theorem ingest_gapless {σ : Type} (sink : DownstreamSink σ) (options : IngestCoordinatorOptions)
    (state : σ) (acts : List IngestAct) :
    let s := Ingesting.run sink options { sink := state } acts
    (∀ h n, (∃ key record, s.store.records.lookup key = some record ∧ record.hostId = h ∧
        record.sequence = n) ↔ 1 ≤ n ∧ n ≤ s.store.checkpoint h) ∧
      (∀ h st, s.hostStates.lookup h = some st →
        st.lastCommittedSequence ≤ s.store.checkpoint h) ∧
      ∀ c ∈ s.calls, ∀ d checkpoint, c.2 = .returned (.ok d) checkpoint →
        d.ackInclusiveSequence ≤ checkpoint := by
  intro s
  have hgapless : Gapless s := (gapless_init state).run _
  refine ⟨fun h n => ?_, hgapless.cached, fun c hc d checkpoint hphase => ?_⟩
  · rw [stored_eq_some hgapless.keyed]
    exact hgapless.full h n
  · have hbounded := hgapless.calls c hc
    rw [hphase] at hbounded
    exact hbounded d rfl

/-! ## One call for each record -/

/-- The call has appended. -/
def Phase.claims : Phase → Bool
  | .admitted => false
  | .appended _ | .applied _ => true
  | .returned (.ok d) _ => d.action == .committed
  | .returned (.error _) _ => false

/-- The call has been taken to the sink. -/
def Phase.taken : Phase → Bool
  | .appended _ => false
  | phase => phase.claims

def keyOf (call : IngestCall) : Str × UInt64 := (call.hostId, call.sequence)

/-- Those who have appended are alone, their record is the one stored, and each is taken
to the sink once. -/
structure Exclusive {σ : Type} (s : Ingesting σ) : Prop where
  alone : ∀ (i j : Nat) (c c' : IngestCall × Phase), s.calls[i]? = some c → s.calls[j]? = some c' → c.2.claims = true →
    c'.2.claims = true → keyOf c.1 = keyOf c'.1 → i = j
  stored : ∀ c ∈ s.calls, c.2.claims = true → c.1.hostId ≠ [] ∧
    stored s.store c.1.hostId c.1.sequence = some (recordOf c.1)
  taken : ∀ call ∈ s.applications, ∃ phase : Phase, (call, phase) ∈ s.calls ∧
    phase.taken = true
  once : (s.applications.map keyOf).Nodup

/-- The append of a valid frame finds no record in its place. -/
def Ingesting.fresh {σ : Type} (s : Ingesting σ) : IngestAct → Bool
  | .advance i =>
      match s.calls[i]? with
      | some (call, .admitted) =>
          !(validated call).isOk || (Hugin.stored s.store call.hostId call.sequence).isNone
      | _ => true
  | .call _ => true

theorem claims_of_taken {phase : Phase} (h : phase.taken = true) : phase.claims = true := by
  cases phase with
  | admitted => exact h
  | appended record => exact absurd h (by simp [Phase.taken])
  | applied status => exact h
  | returned result checkpoint => exact h

theorem getElem?_set_cases {α : Type} {l : List α} {i j : Nat} {a b : α}
    (h : (l.set i a)[j]? = some b) : (j = i ∧ b = a) ∨ (j ≠ i ∧ l[j]? = some b) := by
  rw [List.getElem?_set] at h
  split at h
  next heq =>
    split at h
    · exact .inl ⟨heq.symm, (Option.some.inj h).symm⟩
    · exact absurd h (by simp)
  next hne => exact .inr ⟨fun heq => hne heq.symm, h⟩

section
variable {σ : Type} {s : Ingesting σ} {i : Nat} {call : IngestCall} {old new : Phase}

/-- A call moves on; it claims after the step only if it did before. -/
theorem Exclusive.setPhase (h : Exclusive s) (new : Phase) (hold : s.calls[i]? = some (call, old))
    (hclaims : new.claims = true → old.claims = true)
    (htaken : old.taken = true → new.taken = true) : Exclusive (s.setPhase i call new) := by
  have hback : ∀ {j : Nat} {c : IngestCall × Phase}, (s.setPhase i call new).calls[j]? = some c → c.2.claims = true →
      ∃ p : Phase, s.calls[j]? = some (c.1, p) ∧ p.claims = true := by
    intro j c hj hc
    rcases getElem?_set_cases hj with ⟨rfl, rfl⟩ | ⟨-, hj⟩
    · exact ⟨old, hold, hclaims hc⟩
    · exact ⟨c.2, hj, hc⟩
  refine ⟨fun j k c c' hj hk hc hc' hkey => ?_, fun c hc hcl => ?_, fun app happ => ?_, h.once⟩
  · obtain ⟨p, hp, hpc⟩ := hback hj hc
    obtain ⟨p', hp', hpc'⟩ := hback hk hc'
    exact h.alone j k _ _ hp hp' hpc hpc' hkey
  · obtain ⟨j, hj⟩ := List.mem_iff_getElem?.mp hc
    obtain ⟨p, hp, hpc⟩ := hback hj hcl
    exact h.stored (c.1, p) (List.mem_of_getElem? hp) hpc
  · obtain ⟨p, hp, hpt⟩ := h.taken app happ
    obtain ⟨j, hj⟩ := List.mem_iff_getElem?.mp hp
    by_cases heq : j = i
    · subst heq
      obtain ⟨rfl, rfl⟩ := Prod.mk.inj (Option.some.inj (hold.symm.trans hj))
      refine ⟨new, List.mem_iff_getElem?.mpr ⟨j, ?_⟩, htaken hpt⟩
      show (s.calls.set j _)[j]? = _
      rw [List.getElem?_set_self (List.getElem?_eq_some_iff.mp hold).1]
    · refine ⟨p, List.mem_iff_getElem?.mpr ⟨j, ?_⟩, hpt⟩
      show (s.calls.set i _)[j]? = _
      rw [List.getElem?_set_ne (fun hij => heq hij.symm), hj]

/-- Host states and the sink's own state do not matter here. -/
theorem Exclusive.congr {s' : Ingesting σ} (h : Exclusive s) (hstore : s'.store = s.store)
    (hcalls : s'.calls = s.calls) (happs : s'.applications = s.applications) : Exclusive s' := by
  refine ⟨?_, ?_, ?_, ?_⟩
  · rw [hcalls]; exact h.alone
  · rw [hcalls, hstore]; exact h.stored
  · rw [happs, hcalls]; exact h.taken
  · rw [happs]; exact h.once

theorem Exclusive.accept (h : Exclusive s) (hcached : Cached s.store s.hostStates)
    (call : IngestCall) : Exclusive (s.accept call) := by
  obtain ⟨-, -, hsome⟩ := admit_spec hcached call
  have hnew : ∀ result, (admitted s.store s.hostStates call).1 = result →
      ((result.elim .admitted fun result => .returned result (s.checkpointOf call) : Phase).claims =
        false) := by
    rintro result hresult
    cases result with
    | none => rfl
    | some result =>
        cases result with
        | error status => rfl
        | ok d => exact beq_eq_false_iff_ne.mpr (hsome d hresult).1
  have hcase : ∀ {j : Nat} {c : IngestCall × Phase}, (s.accept call).calls[j]? = some c → c.2.claims = true →
      s.calls[j]? = some c := by
    intro j c hj hc
    have hj' : (s.calls ++ [(call, ((admitted s.store s.hostStates call).1.elim .admitted
        fun result => .returned result (s.checkpointOf call) : Phase))])[j]? = some c := hj
    rw [List.getElem?_append] at hj'
    split at hj'
    · exact hj'
    · have hmem := List.mem_singleton.mp (List.mem_of_getElem? hj')
      rw [hmem, hnew _ rfl] at hc
      exact absurd hc (by simp)
  refine ⟨fun j k c c' hj hk hc hc' hkey => ?_, fun c hc hcl => ?_, fun app happ => ?_, h.once⟩
  · exact h.alone j k c c' (hcase hj hc) (hcase hk hc') hc hc' hkey
  · obtain ⟨j, hj⟩ := List.mem_iff_getElem?.mp hc
    exact h.stored c (List.mem_of_getElem? (hcase hj hcl)) hcl
  · obtain ⟨p, hp, hpt⟩ := h.taken app happ
    exact ⟨p, List.mem_append_left _ hp, hpt⟩

/-- The append of a call whose place is free. -/
theorem Exclusive.append (h : Exclusive s) (hold : s.calls[i]? = some (call, .admitted))
    (hhost : call.hostId ≠ []) (hfree : Hugin.stored s.store call.hostId call.sequence = none)
    (record : ValidatedRecord) :
    Exclusive ({ s with store := s.store.append (recordOf call) }.setPhase i call
      (.appended record)) := by
  have hkeep : ∀ c ∈ s.calls, c.2.claims = true → c.1.hostId ≠ [] ∧
      Hugin.stored (s.store.append (recordOf call)) c.1.hostId c.1.sequence =
        some (recordOf c.1) ∧ keyOf c.1 ≠ keyOf call := by
    intro c hc hcl
    obtain ⟨hne, hstored⟩ := h.stored c hc hcl
    have hkey : keyOf c.1 ≠ keyOf call := fun heq => by
      obtain ⟨hh, hn⟩ := Prod.mk.inj heq
      rw [hh, hn, hfree] at hstored
      exact absurd hstored (by simp)
    refine ⟨hne, ?_, hkey⟩
    rw [stored_append, if_neg, hstored]
    exact fun hsame => hkey (Prod.ext hsame.1 hsame.2.1)
  have hcase : ∀ {j : Nat} {c : IngestCall × Phase}, (s.calls.set i (call, Phase.appended record))[j]? = some c →
      c.2.claims = true → (j = i ∧ c = (call, .appended record)) ∨
        (s.calls[j]? = some c ∧ c ∈ s.calls) := by
    intro j c hj _
    exact (getElem?_set_cases hj).imp_right fun hj => ⟨hj.2, List.mem_of_getElem? hj.2⟩
  refine ⟨fun j k c c' hj hk hc hc' hkey => ?_, fun c hc hcl => ?_, fun app happ => ?_, h.once⟩
  · rcases hcase hj hc with ⟨rfl, rfl⟩ | ⟨hj, hmem⟩ <;>
      rcases hcase hk hc' with ⟨rfl, rfl⟩ | ⟨hk, hmem'⟩
    · rfl
    · exact absurd hkey.symm (hkeep c' hmem' hc').2.2
    · exact absurd hkey (hkeep c hmem hc).2.2
    · exact h.alone j k c c' hj hk hc hc' hkey
  · obtain ⟨j, hj⟩ := List.mem_iff_getElem?.mp hc
    rcases hcase hj hcl with ⟨-, rfl⟩ | ⟨-, hmem⟩
    · refine ⟨hhost, ?_⟩
      show Hugin.stored (s.store.append (recordOf call)) call.hostId call.sequence = _
      rw [stored_append, if_pos ⟨rfl, rfl, hfree⟩]
    · obtain ⟨hne, hstored, -⟩ := hkeep c hmem hcl
      exact ⟨hne, hstored⟩
  · obtain ⟨p, hp, hpt⟩ := h.taken app happ
    obtain ⟨j, hj⟩ := List.mem_iff_getElem?.mp hp
    refine ⟨p, List.mem_iff_getElem?.mpr ⟨j, ?_⟩, hpt⟩
    have hne : i ≠ j := by
      rintro rfl
      obtain ⟨-, rfl⟩ := Prod.mk.inj (Option.some.inj (hold.symm.trans hj))
      exact absurd hpt (by simp [Phase.taken, Phase.claims])
    show (s.calls.set i _)[j]? = _
    rw [List.getElem?_set_ne hne, hj]

/-- A call that has appended is taken to the sink. -/
theorem Exclusive.apply (h : Exclusive s) {record : ValidatedRecord}
    (hold : s.calls[i]? = some (call, .appended record)) (state : σ) (status : Status) :
    Exclusive ({ s with sink := state, applications := s.applications ++ [call] }.setPhase i call
      (.applied status)) := by
  have hmoved := h.setPhase (.applied status) hold (fun _ => rfl)
    (fun ht => absurd ht (by simp [Phase.taken]))
  have hself : (call, Phase.applied status) ∈ s.calls.set i (call, .applied status) := by
    refine List.mem_iff_getElem?.mpr ⟨i, ?_⟩
    rw [List.getElem?_set_self (List.getElem?_eq_some_iff.mp hold).1]
  refine ⟨hmoved.alone, hmoved.stored, fun app happ => ?_, ?_⟩
  · rcases List.mem_append.mp happ with happ | happ
    · exact hmoved.taken app happ
    · rw [List.mem_singleton.mp happ]
      exact ⟨_, hself, rfl⟩
  · show ((s.applications ++ [call]).map keyOf).Nodup
    rw [List.map_append, List.nodup_append]
    refine ⟨h.once, List.nodup_singleton _, ?_⟩
    rintro key hkey key' hkey' rfl
    obtain ⟨app, happ, heq⟩ := List.mem_map.mp hkey
    have hcall := List.mem_singleton.mp hkey'
    obtain ⟨p, hp, hpt⟩ := h.taken app happ
    obtain ⟨j, hj⟩ := List.mem_iff_getElem?.mp hp
    -- whoever was taken before has claimed, and so is this call, which was not
    have hij := h.alone j i _ _ hj hold (claims_of_taken hpt) rfl (heq.trans hcall)
    subst hij
    obtain ⟨-, rfl⟩ := Prod.mk.inj (Option.some.inj (hold.symm.trans hj))
    exact absurd hpt (by simp [Phase.taken])

theorem update_committed (options : IngestCoordinatorOptions) (store : InMemoryIngestStore)
    (hostStates : HostStates) (hhost : call.hostId ≠ []) (status : Status) :
    ∃ d, (update options store hostStates call status).1 = .ok d ∧ d.action = .committed := by
  have hload : ∃ state, (loadHostState store hostStates call.hostId).1 = .ok state := by
    rw [loadHostState]
    dsimp only
    split
    · exact ⟨_, rfl⟩
    · rw [getCheckpoint, if_neg hhost]
      exact ⟨_, rfl⟩
  obtain ⟨state, hload⟩ := hload
  rw [update]
  split
  next heq =>
    rw [heq] at hload
    exact absurd hload (by simp)
  next => exact ⟨_, rfl, rfl⟩

end

theorem Exclusive.act {σ : Type} {sink : DownstreamSink σ} {options : IngestCoordinatorOptions}
    {s : Ingesting σ} (h : Exclusive s) (hgapless : Gapless s) {a : IngestAct}
    (hfresh : s.fresh a = true) : Exclusive (s.act sink options a) := by
  cases a with
  | call call => exact h.accept hgapless.cached call
  | advance i =>
      rw [Ingesting.act]
      rw [Ingesting.fresh] at hfresh
      cases hc : s.calls[i]? with
      | none => exact h
      | some c =>
          obtain ⟨call, phase⟩ := c
          rw [hc] at hfresh
          cases phase with
          | returned result checkpoint => exact h
          | admitted =>
              obtain ⟨hhost, hpos, -⟩ := hgapless.calls _ (List.mem_of_getElem? hc)
              dsimp only [Ingesting.appendCall]
              rw [appendIfAbsentAndCheckpoint_ok hhost hpos]
              cases hvalid : validated call with
              | error status =>
                  exact h.setPhase _ hc (fun hcl => absurd hcl (by simp [Phase.claims]))
                    (fun ht => absurd ht (by simp [Phase.taken, Phase.claims]))
              | ok record =>
                  dsimp only at hfresh
                  rw [hvalid] at hfresh
                  have hfree := hfresh
                  rw [show (Except.ok record : Except Status ValidatedRecord).isOk = true from rfl,
                    Bool.not_true, Bool.false_or] at hfree
                  exact h.append hc hhost (Option.isNone_iff_eq_none.mp hfree) record
          | appended record => exact h.apply hc _ _
          | applied sinkStatus =>
              obtain ⟨hhost, -⟩ := h.stored _ (List.mem_of_getElem? hc) rfl
              obtain ⟨d, hd, haction⟩ := update_committed options s.store s.hostStates hhost
                sinkStatus
              dsimp only [Ingesting.updateCall]
              rw [hd]
              have hclaims : (Phase.returned (.ok d) (s.checkpointOf call)).claims = true :=
                beq_iff_eq.mpr haction
              have hsame : Exclusive { s with
                  hostStates := (update options s.store s.hostStates call sinkStatus).2 } :=
                h.congr rfl rfl rfl
              exact hsame.setPhase _ hc (fun _ => rfl) fun _ => hclaims

/-- Every append of the run finds its place free. -/
def appendsFresh {σ : Type} (sink : DownstreamSink σ) (options : IngestCoordinatorOptions) :
    Ingesting σ → List IngestAct → Bool
  | _, [] => true
  | s, a :: rest => s.fresh a && appendsFresh sink options (s.act sink options a) rest

theorem Exclusive.run {σ : Type} {sink : DownstreamSink σ} {options : IngestCoordinatorOptions} :
    ∀ (acts : List IngestAct) {s : Ingesting σ}, Exclusive s → Gapless s →
      appendsFresh sink options s acts = true → Exclusive (s.run sink options acts)
  | [], _, h, _, _ => h
  | a :: rest, _, h, hgapless, hfresh => by
      obtain ⟨ha, hrest⟩ := (Bool.and_eq_true _ _).mp hfresh
      exact Exclusive.run rest (h.act hgapless ha) (hgapless.act a) hrest

theorem exclusive_init {σ : Type} (state : σ) : Exclusive ({ sink := state } : Ingesting σ) where
  alone _ _ _ _ hi := absurd hi (by simp)
  stored _ hc := absurd hc List.not_mem_nil
  taken _ happ := absurd happ List.not_mem_nil
  once := List.nodup_nil

/-- In a run from an empty store whose every append finds its place free: no frame is
taken to the sink twice for a host and a sequence, the frame taken is the one stored, and
of the calls for a host and a sequence at most one has returned `Committed`. -/
theorem applied_once {σ : Type} (sink : DownstreamSink σ) (options : IngestCoordinatorOptions)
    (state : σ) (acts : List IngestAct)
    (h : appendsFresh sink options { sink := state } acts = true) :
    let s := Ingesting.run sink options { sink := state } acts
    (s.applications.map keyOf).Nodup ∧
      (∀ call ∈ s.applications, ∃ record, stored s.store call.hostId call.sequence = some record ∧
        record.rawFrame = call.rawFrame) ∧
      ∀ (i j : Nat) (c c' : IngestCall) (d d' : IngestDecision) (n n' : UInt64),
        s.calls[i]? = some (c, .returned (.ok d) n) →
        s.calls[j]? = some (c', .returned (.ok d') n') → d.action = .committed →
        d'.action = .committed → keyOf c = keyOf c' → i = j := by
  intro s
  have hexclusive : Exclusive s := (exclusive_init state).run _ (gapless_init state) h
  refine ⟨hexclusive.once, fun call happ => ?_, fun i j c c' d d' n n' hi hj hd hd' hkey => ?_⟩
  · obtain ⟨p, hp, hpt⟩ := hexclusive.taken call happ
    exact ⟨_, (hexclusive.stored _ hp (claims_of_taken hpt)).2, rfl⟩
  · exact hexclusive.alone i j _ _ hi hj (beq_iff_eq.mpr hd) (beq_iff_eq.mpr hd') hkey

/-! ### One call after the other, and two at once -/

/-- A call that delivers the snapshot of `/r/d/x`. -/
def snapshotCall (sequence : UInt64) : IngestCall :=
  { hostId := str "h"
    sequence := sequence
    rawFrame := serializeMuninnFrame
      { routingKey := str "h"
        payload :=
          match Serialization.serializeSnapshotBinary treeBefore with
          | .ok payload => payload
          | .error _ => [] }
    receivedAtUnixSeconds := 0 }

/-- The second call comes when the first has returned. -/
def oneByOne : List IngestAct :=
  [.call (snapshotCall 1), .advance 0, .advance 0, .advance 0, .call (snapshotCall 1)]

theorem applied_once_oneByOne :
    appendsFresh materializer {} { sink := {} } oneByOne = true ∧
      (((Ingesting.run materializer {} { sink := {} } oneByOne).applications.map keyOf) =
        [(str "h", 1)]) ∧
      ((Ingesting.run materializer {} { sink := {} } oneByOne).applications.map keyOf).Nodup := by
  have hfresh : appendsFresh materializer {} { sink := {} } oneByOne = true := by decide +kernel
  exact ⟨hfresh, by decide +kernel, (applied_once materializer {} {} oneByOne hfresh).1⟩

/-- Both calls pass the check before either of them appends. -/
def atOnce : List IngestAct :=
  [.call (snapshotCall 1), .call (snapshotCall 1), .advance 0, .advance 1, .advance 0, .advance 1,
    .advance 0, .advance 1]

/-- The result of a call that has returned `Committed`. -/
def committed (c : IngestCall × Phase) : Bool :=
  match c.2 with
  | .returned (.ok d) _ => d.action == .committed
  | _ => false

/-- The frame is taken to the sink twice, and both calls return `Committed`. -/
theorem not_applied_once_atOnce :
    (¬ ((Ingesting.run materializer {} { sink := {} } atOnce).applications.map keyOf).Nodup) ∧
      ((Ingesting.run materializer {} { sink := {} } atOnce).applications.map keyOf) =
        [(str "h", 1), (str "h", 1)] ∧
      (Ingesting.run materializer {} { sink := {} } atOnce).calls.map committed =
        [true, true] := by
  decide +kernel

end ServerStorage.Hugin
