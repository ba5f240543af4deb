/-
# `ServerStorage.Hugin.IngestStores` — the two ingest stores are interchangeable

Both stores, given the same calls, keep for each host and sequence the first record
appended, and for each host the greatest sequence (`BothHold`).  What they answer is a
function of these.
-/
import ServerStorage.Hugin.LmdbIngestStore

namespace ServerStorage.Hugin

open Lib Lib.Lmdb ServerStorage.Muninn InMemoryIngestStore LmdbIngestStore

/-! ## Runs of calls -/

/-- `storage/ingest_store.hpp`. -/
structure IIngestStore (σ : Type) where
  getCheckpoint : σ → Str → Except Status UInt64
  hasRecord : σ → Str → UInt64 → Except Status Bool
  appendIfAbsentAndCheckpoint : σ → IngestLogRecord → Status × σ

def memoryStore : IIngestStore InMemoryIngestStore :=
  { getCheckpoint := InMemoryIngestStore.getCheckpoint
    hasRecord := InMemoryIngestStore.hasRecord
    appendIfAbsentAndCheckpoint := InMemoryIngestStore.appendIfAbsentAndCheckpoint }

def durableStore : IIngestStore LmdbIngestStore :=
  { getCheckpoint := LmdbIngestStore.getCheckpoint
    hasRecord := LmdbIngestStore.hasRecord
    appendIfAbsentAndCheckpoint := LmdbIngestStore.appendIfAbsentAndCheckpoint }

inductive StoreCall where
  | getCheckpoint (hostId : Str)
  | hasRecord (hostId : Str) (sequence : UInt64)
  | append (record : IngestLogRecord)

namespace StoreCall

def hostId : StoreCall → Str
  | getCheckpoint hostId => hostId
  | hasRecord hostId _ => hostId
  | append record => record.hostId

/-- Host ids of at most 500 bytes and frames shorter than 2^32. -/
def Fits : StoreCall → Prop
  | getCheckpoint hostId => hostId.length ≤ 500
  | hasRecord hostId _ => hostId.length ≤ 500
  | append record => record.hostId.length ≤ 500 ∧ record.rawFrame.length < 2 ^ 32

/-- The frame still fits a value of LMDB with the 13 bytes before it. -/
def Framed : StoreCall → Prop
  | append record => record.rawFrame.length + 13 ≤ maxDataSize
  | _ => True

/-- The record an append brings in. -/
def appended : StoreCall → List IngestLogRecord
  | append record => if record.hostId = [] ∨ record.sequence = 0 then [] else [record]
  | _ => []

end StoreCall

/-- What a caller gets: a value, or none where the call failed. -/
inductive StoreAnswer where
  | checkpoint (value : Option UInt64)
  | present (value : Option Bool)
  | appended (ok : Bool)
  deriving DecidableEq

namespace IIngestStore

variable {σ : Type}

def step (store : IIngestStore σ) (state : σ) : StoreCall → StoreAnswer × σ
  | .getCheckpoint hostId => (.checkpoint (store.getCheckpoint state hostId).toOption, state)
  | .hasRecord hostId sequence =>
      (.present (store.hasRecord state hostId sequence).toOption, state)
  | .append record =>
      (.appended (store.appendIfAbsentAndCheckpoint state record).1.ok,
        (store.appendIfAbsentAndCheckpoint state record).2)

def run (store : IIngestStore σ) (state : σ) : List StoreCall → List StoreAnswer × σ
  | [] => ([], state)
  | call :: calls =>
      ((store.step state call).1 :: (store.run (store.step state call).2 calls).1,
        (store.run (store.step state call).2 calls).2)

end IIngestStore

/-! ## What is to be kept -/

def appendedIn (calls : List StoreCall) : List IngestLogRecord := calls.flatMap StoreCall.appended

/-- The first of the records with the host and the sequence. -/
def firstOf (records : List IngestLogRecord) (hostId : Str) (sequence : UInt64) :
    Option IngestLogRecord :=
  records.find? fun record => record.hostId = hostId ∧ record.sequence = sequence

/-- The sequences of a host, and zero. -/
def sequencesOf (records : List IngestLogRecord) (hostId : Str) : Set UInt64 :=
  {n | n = 0 ∨ ∃ record ∈ records, record.hostId = hostId ∧ record.sequence = n}

/-- Both stores hold what the records come to. -/
structure BothHold (records : List IngestLogRecord) (memory : InMemoryIngestStore)
    (durable : LmdbIngestStore) : Prop where
  first : ∀ h n, stored memory h n = firstOf records h n
  value : ∀ h n, durable.ingestLog.get (makeIngestKey h n) =
    (firstOf records h n).map serializeRecordValue
  greatest : ∀ h, IsGreatest (sequencesOf records h) (memory.checkpoint h)
  encoded : ∀ h, Encoded durable.checkpoints h (memory.checkpoint h)

section
variable {records : List IngestLogRecord} {memory : InMemoryIngestStore}
  {durable : LmdbIngestStore}

theorem firstOf_append (record : IngestLogRecord) (h : Str) (n : UInt64) :
    firstOf (records ++ [record]) h n =
      if h = record.hostId ∧ n = record.sequence ∧
          firstOf records record.hostId record.sequence = none then some record
      else firstOf records h n := by
  have hone : firstOf [record] h n = if h = record.hostId ∧ n = record.sequence then some record
      else none := by
    rw [firstOf, List.find?_singleton]
    by_cases hkey : h = record.hostId ∧ n = record.sequence
    · rw [if_pos hkey, if_pos (by simp [hkey])]
    · rw [if_neg hkey, if_neg]
      rw [decide_eq_true_eq]
      exact fun hrecord => hkey ⟨hrecord.1.symm, hrecord.2.symm⟩
  rw [firstOf, List.find?_append]
  show (firstOf records h n).or (firstOf [record] h n) = _
  rw [hone]
  by_cases hkey : h = record.hostId ∧ n = record.sequence
  · obtain ⟨rfl, rfl⟩ := hkey
    cases hfirst : firstOf records record.hostId record.sequence with
    | some old => simp
    | none => simp
  · rw [if_neg hkey, if_neg fun hall => hkey ⟨hall.1, hall.2.1⟩, Option.or_none]

theorem sequencesOf_append_self (record : IngestLogRecord) :
    sequencesOf (records ++ [record]) record.hostId =
      insert record.sequence (sequencesOf records record.hostId) := by
  ext n
  constructor
  · rintro (hzero | ⟨r, hr, hhost, hseq⟩)
    · exact .inr (.inl hzero)
    · rcases List.mem_append.mp hr with hr | hr
      · exact .inr (.inr ⟨r, hr, hhost, hseq⟩)
      · obtain rfl := List.mem_singleton.mp hr
        exact .inl hseq.symm
  · rintro (rfl | hzero | ⟨r, hr, hhost, hseq⟩)
    · exact .inr ⟨record, List.mem_append_right _ List.mem_cons_self, rfl, rfl⟩
    · exact .inl hzero
    · exact .inr ⟨r, List.mem_append_left _ hr, hhost, hseq⟩

theorem sequencesOf_append_of_ne {record : IngestLogRecord} {h : Str} (hne : h ≠ record.hostId) :
    sequencesOf (records ++ [record]) h = sequencesOf records h := by
  ext n
  constructor
  · rintro (hzero | ⟨r, hr, hhost, hseq⟩)
    · exact .inl hzero
    · rcases List.mem_append.mp hr with hr | hr
      · exact .inr ⟨r, hr, hhost, hseq⟩
      · obtain rfl := List.mem_singleton.mp hr
        exact absurd hhost.symm hne
  · rintro (hzero | ⟨r, hr, hhost, hseq⟩)
    · exact .inl hzero
    · exact .inr ⟨r, List.mem_append_left _ hr, hhost, hseq⟩

theorem BothHold.init : BothHold [] {} {} where
  first h n := by rw [stored]; exact Finmap.lookup_empty _
  value h n := rfl
  greatest h := by
    refine ⟨.inl rfl, ?_⟩
    rintro n (rfl | ⟨r, hr, -⟩)
    · exact le_rfl
    · exact absurd hr List.not_mem_nil
  encoded h := rfl

/-! ## One call -/

theorem BothHold.getCheckpoint (hkeeps : BothHold records memory durable) (h : Str) :
    (memory.getCheckpoint h).toOption = (durable.getCheckpoint h).toOption := by
  rw [InMemoryIngestStore.getCheckpoint, LmdbIngestStore.getCheckpoint]
  by_cases hhost : h = []
  · rw [if_pos hhost, if_pos hhost]
  · rw [if_neg hhost, if_neg hhost, (hkeeps.encoded h).read hhost]

theorem BothHold.hasRecord (hkeeps : BothHold records memory durable) {h : Str} (n : UInt64)
    (hsize : h.length ≤ 500) :
    (memory.hasRecord h n).toOption = (durable.hasRecord h n).toOption := by
  rw [InMemoryIngestStore.hasRecord, LmdbIngestStore.hasRecord]
  by_cases hinvalid : h = [] ∨ n = 0
  · rw [if_pos hinvalid, if_pos hinvalid]
  · rw [if_neg hinvalid, if_neg hinvalid, if_neg (by omega)]
    have hfirst := hkeeps.first h n
    have hvalue := hkeeps.value h n
    rw [stored] at hfirst
    rw [hfirst]
    cases hfound : firstOf records h n with
    | none =>
        rw [hfound] at hvalue
        rw [Db.getKey_ok (makeIngestKey_ne h n), hvalue]
        rfl
    | some record =>
        rw [hfound] at hvalue
        rw [Db.getKey_ok (makeIngestKey_ne h n), hvalue]
        rfl

/-- An append that is let through is kept by both. -/
theorem BothHold.append (hkeeps : BothHold records memory durable) {record : IngestLogRecord}
    (hhost : record.hostId ≠ []) (hsize : record.hostId.length ≤ 500)
    (hframe : record.rawFrame.length + 13 ≤ maxDataSize) :
    ∃ durable', durable.appendTxn record = .ok durable' ∧
      BothHold (records ++ [record]) (memory.append record) durable' := by
  obtain ⟨log, hput, hlog⟩ := putRecord_ok durable.ingestLog record hsize hframe
  obtain ⟨table, hraise, hself, hothers⟩ :=
    raiseCheckpoint_ok record.sequence hhost hsize (hkeeps.encoded record.hostId)
  refine ⟨{ ingestLog := log, checkpoints := table }, ?_, ?_, ?_, ?_, ?_⟩
  · rw [appendTxn, hput]
    show (checkpointInTxn _ _ >>= _) = _
    rw [(hkeeps.encoded record.hostId).read hhost]
    show (raiseCheckpoint _ _ _ _ >>= _) = _
    rw [hraise]
    rfl
  · intro h n
    rw [stored_append, firstOf_append, hkeeps.first, hkeeps.first]
  · intro h n
    show log.get (makeIngestKey h n) = _
    rw [hlog, firstOf_append, hkeeps.value]
    by_cases hkey : h = record.hostId ∧ n = record.sequence
    · obtain ⟨rfl, rfl⟩ := hkey
      cases firstOf records record.hostId record.sequence with
      | none => rw [if_pos ⟨rfl, rfl⟩, if_pos ⟨rfl, rfl, rfl⟩]; rfl
      | some old => simp
    · rw [if_neg fun hall => hkey (makeIngestKey_inj.mp hall.1),
        if_neg fun hall => hkey ⟨hall.1, hall.2.1⟩]
  · intro h
    rw [checkpoint_append]
    by_cases heq : h = record.hostId
    · subst heq
      rw [if_pos rfl, sequencesOf_append_self, max_comm]
      exact (hkeeps.greatest record.hostId).insert record.sequence
    · rw [if_neg heq, sequencesOf_append_of_ne heq]
      exact hkeeps.greatest h
  · intro h
    rw [checkpoint_append]
    by_cases heq : h = record.hostId
    · subst heq
      rw [if_pos rfl]
      exact hself
    · rw [if_neg heq, Encoded]
      exact (hothers h heq).trans (hkeeps.encoded h)

/-- Each call is answered alike, and what is kept stays so. -/
theorem BothHold.step (hkeeps : BothHold records memory durable) {call : StoreCall}
    (hfits : call.Fits) (hframed : call.Framed) :
    (memoryStore.step memory call).1 = (durableStore.step durable call).1 ∧
      BothHold (records ++ call.appended) (memoryStore.step memory call).2
        (durableStore.step durable call).2 := by
  cases call with
  | getCheckpoint h =>
      refine ⟨congrArg StoreAnswer.checkpoint (hkeeps.getCheckpoint h), ?_⟩
      rw [StoreCall.appended, List.append_nil]
      · exact hkeeps
      · intro record h
        cases h
  | hasRecord h n =>
      refine ⟨congrArg StoreAnswer.present (hkeeps.hasRecord n hfits), ?_⟩
      rw [StoreCall.appended, List.append_nil]
      · exact hkeeps
      · intro record h
        cases h
  | append record =>
      obtain ⟨hsize, hframe⟩ := hfits
      show StoreAnswer.appended (memory.appendIfAbsentAndCheckpoint record).1.ok =
          StoreAnswer.appended (durable.appendIfAbsentAndCheckpoint record).1.ok ∧
        BothHold _ (memory.appendIfAbsentAndCheckpoint record).2
          (durable.appendIfAbsentAndCheckpoint record).2
      rw [InMemoryIngestStore.appendIfAbsentAndCheckpoint,
        LmdbIngestStore.appendIfAbsentAndCheckpoint, StoreCall.appended]
      by_cases hhost : record.hostId = []
      · have hinvalid : record.hostId = [] ∨ record.sequence = 0 := .inl hhost
        rw [if_pos hinvalid, if_pos hhost, if_pos hinvalid, List.append_nil]
        exact ⟨rfl, hkeeps⟩
      by_cases hseq : record.sequence = 0
      · have hinvalid : record.hostId = [] ∨ record.sequence = 0 := .inr hseq
        rw [if_pos hinvalid, if_neg hhost, if_pos hseq, if_pos hinvalid, List.append_nil]
        exact ⟨rfl, hkeeps⟩
      · have hvalid : ¬ (record.hostId = [] ∨ record.sequence = 0) :=
          not_or.mpr ⟨hhost, hseq⟩
        obtain ⟨durable', htxn, hkept⟩ := hkeeps.append hhost hsize hframed
        rw [if_neg hvalid, if_neg hhost, if_neg hseq, if_neg (by omega), if_neg (by omega), htxn,
          if_neg hvalid]
        exact ⟨rfl, hkept⟩

end

/-! ## Runs -/

theorem BothHold.run : ∀ {calls : List StoreCall} {records : List IngestLogRecord}
    {memory : InMemoryIngestStore} {durable : LmdbIngestStore}, BothHold records memory durable →
      (∀ call ∈ calls, call.Fits) → (∀ call ∈ calls, call.Framed) →
      (memoryStore.run memory calls).1 = (durableStore.run durable calls).1 ∧
        BothHold (records ++ appendedIn calls) (memoryStore.run memory calls).2
          (durableStore.run durable calls).2
  | [], records, _, _, hkeeps, _, _ => by
      refine ⟨rfl, ?_⟩
      rw [appendedIn, List.flatMap_nil, List.append_nil]
      exact hkeeps
  | call :: calls, records, memory, durable, hkeeps, hfits, hframed => by
      obtain ⟨hanswer, hkept⟩ :=
        hkeeps.step (hfits call List.mem_cons_self) (hframed call List.mem_cons_self)
      obtain ⟨hanswers, hend⟩ :=
        BothHold.run hkept (fun c hc => hfits c (List.mem_cons_of_mem _ hc))
          fun c hc => hframed c (List.mem_cons_of_mem _ hc)
      refine ⟨?_, ?_⟩
      · show _ :: _ = _ :: _
        rw [hanswer, hanswers]
      · rw [List.append_assoc] at hend
        exact hend

/-! ## Hosts apart -/

/-- The calls of one host. -/
def callsOf (hostId : Str) (calls : List StoreCall) : List StoreCall :=
  calls.filter fun call => call.hostId = hostId

theorem hostId_of_mem_appended {call : StoreCall} {record : IngestLogRecord}
    (h : record ∈ call.appended) : record.hostId = call.hostId := by
  cases call with
  | append r =>
      rw [StoreCall.appended] at h
      split at h
      · exact absurd h List.not_mem_nil
      · rw [List.mem_singleton.mp h]
        rfl
  | getCheckpoint h' => exact absurd h List.not_mem_nil
  | hasRecord h' n => exact absurd h List.not_mem_nil

theorem appendedIn_callsOf (h : Str) (calls : List StoreCall) :
    appendedIn (callsOf h calls) = (appendedIn calls).filter fun record => record.hostId = h := by
  induction calls with
  | nil => rfl
  | cons call calls ih =>
      have hcons : appendedIn (call :: calls) = call.appended ++ appendedIn calls := rfl
      rw [hcons, List.filter_append, ← ih]
      by_cases hhost : call.hostId = h
      · have hall : call.appended.filter (fun record => record.hostId = h) = call.appended :=
          List.filter_eq_self.mpr fun record hrecord =>
            decide_eq_true ((hostId_of_mem_appended hrecord).trans hhost)
        rw [hall, callsOf, List.filter_cons_of_pos (by simpa using hhost)]
        rfl
      · have hnone : call.appended.filter (fun record => record.hostId = h) = [] :=
          List.filter_eq_nil_iff.mpr fun record hrecord hof =>
            hhost ((hostId_of_mem_appended hrecord).symm.trans (of_decide_eq_true hof))
        rw [hnone, callsOf, List.filter_cons_of_neg (by simpa using hhost)]
        rfl

theorem firstOf_filter (records : List IngestLogRecord) (h : Str) (n : UInt64) :
    firstOf (records.filter fun record => record.hostId = h) h n = firstOf records h n := by
  rw [firstOf, firstOf, List.find?_filter]
  congr 1
  funext record
  by_cases hhost : record.hostId = h <;> simp [hhost]

theorem sequencesOf_filter (records : List IngestLogRecord) (h : Str) :
    sequencesOf (records.filter fun record => record.hostId = h) h = sequencesOf records h := by
  ext n
  constructor
  · rintro (hzero | ⟨r, hr, hhost, hseq⟩)
    · exact .inl hzero
    · exact .inr ⟨r, List.mem_of_mem_filter hr, hhost, hseq⟩
  · rintro (hzero | ⟨r, hr, hhost, hseq⟩)
    · exact .inl hzero
    · exact .inr ⟨r, List.mem_filter.mpr ⟨hr, decide_eq_true hhost⟩, hhost, hseq⟩

/-- Stores that keep the same of a host answer it alike. -/
theorem BothHold.apart {records records' : List IngestLogRecord}
    {memory memory' : InMemoryIngestStore} {durable durable' : LmdbIngestStore}
    (hkeeps : BothHold records memory durable) (hkeeps' : BothHold records' memory' durable')
    (call : StoreCall)
    (hfirst : ∀ n, firstOf records call.hostId n = firstOf records' call.hostId n)
    (hsequences : sequencesOf records call.hostId = sequencesOf records' call.hostId) :
    (memoryStore.step memory call).1 = (memoryStore.step memory' call).1 := by
  cases call with
  | getCheckpoint h =>
      have hcheckpoint : memory.checkpoint h = memory'.checkpoint h :=
        (hsequences ▸ hkeeps.greatest h).unique (hkeeps'.greatest h)
      show StoreAnswer.checkpoint (memory.getCheckpoint h).toOption = _
      rw [InMemoryIngestStore.getCheckpoint, hcheckpoint]
      rfl
  | hasRecord h n =>
      have hstored : stored memory h n = stored memory' h n := by
        rw [hkeeps.first, hkeeps'.first]
        exact hfirst n
      rw [stored, stored] at hstored
      show StoreAnswer.present (memory.hasRecord h n).toOption = _
      rw [InMemoryIngestStore.hasRecord, hstored]
      rfl
  | append record =>
      show StoreAnswer.appended (memory.appendIfAbsentAndCheckpoint record).1.ok =
        StoreAnswer.appended (memory'.appendIfAbsentAndCheckpoint record).1.ok
      rw [InMemoryIngestStore.appendIfAbsentAndCheckpoint,
        InMemoryIngestStore.appendIfAbsentAndCheckpoint]
      split <;> rfl

/-- After any calls within the limits, the frames with the 13 bytes before them within LMDB's on a
value, the two stores have answered alike, hold for each host
and sequence the first frame appended and for each host the greatest sequence, and answer a
host as if no other host had been there. -/
theorem ingestStores_interchangeable {calls : List StoreCall} (hfits : ∀ call ∈ calls, call.Fits)
    (hframed : ∀ call ∈ calls, call.Framed) :
    (memoryStore.run {} calls).1 = (durableStore.run {} calls).1 ∧
    (∀ h n,
      (stored (memoryStore.run {} calls).2 h n).map IngestLogRecord.rawFrame =
          (firstOf (appendedIn calls) h n).map IngestLogRecord.rawFrame ∧
        (durableStore.run {} calls).2.frame h n =
          (firstOf (appendedIn calls) h n).map IngestLogRecord.rawFrame) ∧
    (∀ h, h ≠ [] → ∃ greatest, IsGreatest (sequencesOf (appendedIn calls) h) greatest ∧
      (memoryStore.run {} calls).2.getCheckpoint h = .ok greatest ∧
      (durableStore.run {} calls).2.getCheckpoint h = .ok greatest) ∧
    ∀ call : StoreCall, call.Fits → call.Framed →
      (memoryStore.step (memoryStore.run {} calls).2 call).1 =
          (memoryStore.step (memoryStore.run {} (callsOf call.hostId calls)).2 call).1 ∧
        (durableStore.step (durableStore.run {} calls).2 call).1 =
          (durableStore.step (durableStore.run {} (callsOf call.hostId calls)).2 call).1 := by
  obtain ⟨hanswers, hkept⟩ := BothHold.init.run hfits hframed
  rw [List.nil_append] at hkept
  refine ⟨hanswers, fun h n => ⟨?_, ?_⟩, fun h hhost => ?_, fun call hcall hframe => ?_⟩
  · exact congrArg _ (hkept.first h n)
  · have hdrop : (fun value : Str => value.drop 13) ∘ serializeRecordValue =
        IngestLogRecord.rawFrame := funext drop_serializeRecordValue
    rw [frame, hkept.value, Option.map_map, hdrop]
  · refine ⟨_, hkept.greatest h, ?_, ?_⟩
    · rw [InMemoryIngestStore.getCheckpoint, if_neg hhost]
    · rw [LmdbIngestStore.getCheckpoint, if_neg hhost, (hkept.encoded h).read hhost]
  · have hfits' : ∀ c ∈ callsOf call.hostId calls, c.Fits :=
      fun c hc => hfits c (List.mem_of_mem_filter hc)
    have hframed' : ∀ c ∈ callsOf call.hostId calls, c.Framed :=
      fun c hc => hframed c (List.mem_of_mem_filter hc)
    obtain ⟨-, halone⟩ := BothHold.init.run hfits' hframed'
    rw [List.nil_append, appendedIn_callsOf] at halone
    have hmemory := hkept.apart halone call
      (fun n => (firstOf_filter _ _ n).symm) (sequencesOf_filter _ _).symm
    exact ⟨hmemory, (hkept.step hcall hframe).1.symm.trans
      (hmemory.trans (halone.step hcall hframe).1)⟩

/-- A repeat with another frame, a sequence out of order, and a host whose id reads like a
key of the other. -/
def exampleCalls : List StoreCall :=
  [.append { hostId := str "a", sequence := 12, rawFrame := str "x" },
    .append { hostId := str "a", sequence := 12, rawFrame := str "y" },
    .append { hostId := str "a", sequence := 3, rawFrame := str "z" },
    .append { hostId := str "a#1", sequence := 2, rawFrame := str "w" },
    .hasRecord (str "a") 2, .getCheckpoint (str "a")]

theorem exampleCalls_interchangeable :
    (memoryStore.run {} exampleCalls).1 = (durableStore.run {} exampleCalls).1 ∧
      (durableStore.run {} exampleCalls).2.frame (str "a") 12 = some (str "x") := by
  have hfits : ∀ call ∈ exampleCalls, call.Fits := by
    simp [exampleCalls, StoreCall.Fits, str]
  have hframed : ∀ call ∈ exampleCalls, call.Framed := by
    simp [exampleCalls, StoreCall.Framed, str, maxDataSize]
  obtain ⟨hanswers, hframes, -, -⟩ := ingestStores_interchangeable hfits hframed
  exact ⟨hanswers, (hframes (str "a") 12).2.trans (by decide)⟩

/-- A frame of 2^32 - 13 bytes, which passes the check of its size. -/
def largeAppend : StoreCall :=
  .append { hostId := str "a", sequence := 1, rawFrame := List.replicate (2 ^ 32 - 13) 0 }

theorem not_ingestStores_interchangeable : ¬ ∀ calls : List StoreCall,
    (∀ call ∈ calls, call.Fits) →
      (memoryStore.run {} calls).1 = (durableStore.run {} calls).1 := by
  intro hall
  have hlength : (List.replicate (2 ^ 32 - 13) (0 : UInt8)).length = 2 ^ 32 - 13 :=
    List.length_replicate
  have hsame := hall [largeAppend] (List.forall_mem_singleton.mpr
    ⟨(by decide : (str "a").length ≤ 500), by rw [hlength]; omega⟩)
  have hmemory : (memoryStore.run {} [largeAppend]).1 = [.appended true] := rfl
  have hfails : ∀ store : LmdbIngestStore, (store.appendIfAbsentAndCheckpoint
      { hostId := str "a", sequence := 1, rawFrame := List.replicate (2 ^ 32 - 13) 0 }).1.ok =
        false := by
    intro store
    have hlarge : maxDataSize < (serializeRecordValue
        { hostId := str "a", sequence := 1, rawFrame := List.replicate (2 ^ 32 - 13) 0 }).length := by
      rw [serializeRecordValue_length, hlength, maxDataSize]
      omega
    rw [LmdbIngestStore.appendIfAbsentAndCheckpoint, if_neg (by decide), if_neg (by decide),
      if_neg (by decide), if_neg (by rw [hlength]; omega), appendTxn, putRecord,
      Db.putKey_large hlarge]
    rfl
  have hdurable : (durableStore.run {} [largeAppend]).1 = [.appended false] := by
    show [StoreAnswer.appended _] = _
    rw [← hfails {}]
    rfl
  rw [hmemory, hdurable] at hsame
  cases hsame

end ServerStorage.Hugin
