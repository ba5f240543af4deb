/-
# `ServerStorage.Hugin.LmdbIngestStore` — `storage/lmdb_ingest_store.cpp`

The durable ingest store once it is open, over LMDB as an ordered map: what the calls of one
method answer from the pairs, with the limits on keys and values.  No call fails for a reason
outside, and the map has room.  A transaction is the step from one pair of databases to the
next, or an error that leaves them as they were.  The table `meta`,
written when the store is opened and read by no method, is left out.
-/
import ServerStorage.Hugin.IngestSpec
import ServerStorage.Lib.Lmdb

namespace ServerStorage.Hugin

open Lib Lib.Lmdb ServerStorage.Muninn InMemoryIngestStore

/-! ## The store -/

structure LmdbIngestStore where
  ingestLog : Db := {}
  checkpoints : Db := {}

namespace LmdbIngestStore

def recordVersion : UInt8 := 1

/-- The text of `lmdb_error`. -/
def ingestError (fault : Fault) (message : String) : Status :=
  { code := .storageError
    message :=
      str message ++ str " (rc=" ++ decimalInt fault.rc ++ str ", detail=" ++ fault.detail.bytes ++
        str ")" }

def makeIngestKey (hostId : Str) (sequence : UInt64) : Str :=
  encodeU16Be hostId.length.toUInt16 ++ hostId ++ encodeU64Be sequence

def serializeRecordValue (record : IngestLogRecord) : Str :=
  recordVersion :: encodeU64Be record.receivedAtUnixSeconds ++
    encodeU32Be record.rawFrame.length.toUInt32 ++ record.rawFrame

def checkpointInTxn (checkpoints : Db) (hostId : Str) : Except Status UInt64 :=
  match checkpoints.getKey hostId with
  | .ok none => .ok 0
  | .error _ => .error (.failure .storageError "mdb_get(checkpoint) failed.")
  | .ok (some value) =>
      if value.length ≠ 8 then .error (.failure .parseError "Checkpoint payload size is invalid.")
      else .ok (decodeU64Be value)

def getCheckpoint (store : LmdbIngestStore) (hostId : Str) : Except Status UInt64 :=
  if hostId = [] then .error (invalidArgument "Host id is empty.")
  else checkpointInTxn store.checkpoints hostId

def hasRecord (store : LmdbIngestStore) (hostId : Str) (sequence : UInt64) :
    Except Status Bool :=
  if hostId = [] ∨ sequence = 0 then .error (invalidArgument "Host id or sequence is invalid.")
  else if 0xffff < hostId.length then .error (invalidArgument "Host id is too long.")
  else
    match store.ingestLog.getKey (makeIngestKey hostId sequence) with
    | .ok none => .ok false
    | .error _ => .error (.failure .storageError "mdb_get(ingest_log) failed.")
    | .ok (some _) => .ok true

/-- The put of the record; a key that is there already is no error. -/
def putRecord (ingestLog : Db) (record : IngestLogRecord) : Except Status Db :=
  match ingestLog.putKey (makeIngestKey record.hostId record.sequence)
      (serializeRecordValue record) true with
  | .ok db => .ok db
  | .error fault =>
      if fault = keyExist then .ok ingestLog else .error (ingestError fault "mdb_put(ingest_log)")

/-- The put of a checkpoint that is greater than the one there. -/
def raiseCheckpoint (checkpoints : Db) (hostId : Str) (checkpoint sequence : UInt64) :
    Except Status Db :=
  if checkpoint < max checkpoint sequence then
    match checkpoints.putKey hostId (encodeU64Be (max checkpoint sequence)) false with
    | .ok db => .ok db
    | .error fault => .error (ingestError fault "mdb_put")
  else .ok checkpoints

/-- The write transaction. -/
def appendTxn (store : LmdbIngestStore) (record : IngestLogRecord) :
    Except Status LmdbIngestStore := do
  let ingestLog ← putRecord store.ingestLog record
  let checkpoint ← checkpointInTxn store.checkpoints record.hostId
  let checkpoints ← raiseCheckpoint store.checkpoints record.hostId checkpoint record.sequence
  return { ingestLog := ingestLog, checkpoints := checkpoints }

def appendIfAbsentAndCheckpoint (store : LmdbIngestStore) (record : IngestLogRecord) :
    Status × LmdbIngestStore :=
  if record.hostId = [] then (invalidArgument "Host id is empty.", store)
  else if record.sequence = 0 then (invalidArgument "Sequence must be non-zero.", store)
  else if 0xffff < record.hostId.length then (invalidArgument "Host id is too long.", store)
  else if 0xffffffff < record.rawFrame.length then
    (invalidArgument "Raw frame is too large.", store)
  else
    match store.appendTxn record with
    | .ok store' => (.success, store')
    | .error status => (status, store)

/-- The frame of the record kept under a host and a sequence: what follows the version,
the time and the size. -/
def frame (store : LmdbIngestStore) (hostId : Str) (sequence : UInt64) : Option Str :=
  (store.ingestLog.get (makeIngestKey hostId sequence)).map fun value => value.drop 13

/-! ## Keys and values -/

/-- A key's host stands between two fields of a fixed size. -/
theorem makeIngestKey_inj {h h' : Str} {n n' : UInt64} :
    makeIngestKey h n = makeIngestKey h' n' ↔ h = h' ∧ n = n' := by
  constructor
  · intro heq
    obtain ⟨hhost, hseq⟩ := List.append_inj' heq (by rw [encodeU64Be_length, encodeU64Be_length])
    have hhost := (List.append_inj hhost (by rw [encodeU16Be_length, encodeU16Be_length])).2
    exact ⟨hhost, encodeU64Be_inj.mp hseq⟩
  · rintro ⟨rfl, rfl⟩
    rfl

theorem makeIngestKey_ne (h : Str) (n : UInt64) : makeIngestKey h n ≠ [] := by
  intro heq
  have hlen := congrArg List.length heq
  simp [makeIngestKey] at hlen

theorem makeIngestKey_length (h : Str) (n : UInt64) : (makeIngestKey h n).length = h.length + 10 := by
  simp [makeIngestKey]
  omega

theorem drop_serializeRecordValue (record : IngestLogRecord) :
    (serializeRecordValue record).drop 13 = record.rawFrame := by
  have hhead : (recordVersion :: encodeU64Be record.receivedAtUnixSeconds ++
      encodeU32Be record.rawFrame.length.toUInt32).length = 13 := rfl
  rw [serializeRecordValue, List.drop_append_of_le_length hhead.ge, ← hhead, List.drop_length,
    List.nil_append]

/-! ## The parts of a transaction -/

section
variable {checkpoints : Db} {hostId : Str} {checkpoint : UInt64}

/-- A host's checkpoint stands in the table, unless it is zero. -/
def Encoded (checkpoints : Db) (hostId : Str) (checkpoint : UInt64) : Prop :=
  checkpoints.get hostId = if checkpoint = 0 then none else some (encodeU64Be checkpoint)

theorem Encoded.read (h : Encoded checkpoints hostId checkpoint) (hhost : hostId ≠ []) :
    checkpointInTxn checkpoints hostId = .ok checkpoint := by
  rw [Encoded] at h
  by_cases hzero : checkpoint = 0
  · rw [if_pos hzero] at h
    rw [checkpointInTxn, Db.getKey_ok hhost, h, hzero]
  · rw [if_neg hzero] at h
    rw [checkpointInTxn, Db.getKey_ok hhost, h]
    show (if _ then _ else _) = _
    rw [if_neg (by simp), decodeU64Be_encodeU64Be]

theorem serializeRecordValue_length (record : IngestLogRecord) :
    (serializeRecordValue record).length = record.rawFrame.length + 13 := by
  rw [serializeRecordValue, List.length_append, Nat.add_comm]
  rfl

theorem putRecord_ok (ingestLog : Db) (record : IngestLogRecord) (hsize : record.hostId.length ≤ 500)
    (hframe : record.rawFrame.length + 13 ≤ maxDataSize) :
    ∃ log, putRecord ingestLog record = .ok log ∧ ∀ key, log.get key =
      if key = makeIngestKey record.hostId record.sequence ∧ ingestLog.get key = none then
        some (serializeRecordValue record)
      else ingestLog.get key := by
  have hlen : (makeIngestKey record.hostId record.sequence).length ≤ maxKeySize := by
    rw [makeIngestKey_length, maxKeySize]
    omega
  have hne := makeIngestKey_ne record.hostId record.sequence
  rw [← serializeRecordValue_length] at hframe
  cases hget : ingestLog.get (makeIngestKey record.hostId record.sequence) with
  | some old =>
      refine ⟨ingestLog, ?_, fun key => ?_⟩
      · rw [putRecord, Db.putKey_taken hne hlen hframe (by rw [hget]; rfl)]
        rfl
      · rw [if_neg]
        rintro ⟨rfl, hnone⟩
        rw [hget] at hnone
        exact absurd hnone (by simp)
  | none =>
      refine ⟨ingestLog.put (makeIngestKey record.hostId record.sequence)
        (serializeRecordValue record), ?_, fun key => ?_⟩
      · rw [putRecord, Db.putKey_ok hne hlen hframe fun _ => hget]
      · rw [Db.get_put]
        by_cases hkey : key = makeIngestKey record.hostId record.sequence
        · rw [if_pos hkey, if_pos ⟨hkey, hkey ▸ hget⟩]
        · rw [if_neg hkey, if_neg fun h => hkey h.1]

theorem raiseCheckpoint_ok (sequence : UInt64) (hhost : hostId ≠ []) (hsize : hostId.length ≤ 500)
    (h : Encoded checkpoints hostId checkpoint) :
    ∃ table, raiseCheckpoint checkpoints hostId checkpoint sequence = .ok table ∧
      Encoded table hostId (max checkpoint sequence) ∧
      ∀ other, other ≠ hostId → table.get other = checkpoints.get other := by
  have hlen : hostId.length ≤ maxKeySize := hsize.trans (by decide)
  rw [raiseCheckpoint]
  split
  next hlt =>
    rw [Db.putKey_ok hhost hlen (by rw [encodeU64Be_length]; decide) (by simp)]
    refine ⟨_, rfl, ?_, fun other hother => by rw [Db.get_put, if_neg hother]⟩
    have hne : max checkpoint sequence ≠ 0 := by
      intro hzero
      rw [hzero] at hlt
      exact absurd hlt (by simp)
    rw [Encoded, Db.get_put, if_pos rfl, if_neg hne]
  next hge =>
    have hmax : max checkpoint sequence = checkpoint :=
      le_antisymm (not_lt.mp hge) (le_max_left _ _)
    rw [hmax]
    exact ⟨checkpoints, rfl, h, fun _ _ => rfl⟩

end

end LmdbIngestStore

end ServerStorage.Hugin
