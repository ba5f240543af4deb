/-
# `ServerStorage.Muninn.Feeding` — the outbox as the feed of one consumer

What Muninn does to the outbox is, for one consumer, a run of the steps of `Lib.Feed`, as
long as the acks under the consumer's id are covered (`OutboxRun.feed`).  A batch that a
session is sent leaves out no record up to its last one, so its last sequence is a covered
mark once the batch has been handed over (`batch_brings`).
-/
import ServerStorage.Lib.Feed
import ServerStorage.Muninn.Answers
import ServerStorage.Muninn.AckBound

namespace ServerStorage.Muninn

open Lib Lmdb Dbi Crud Relation LmdbStore

/-! ## The feed -/

/-- The message that a frame of the outbox is sent as. -/
def recordMessage (sequence : UInt64) (frame : Str) : Option TransportRecordMessage :=
  (parseFrame sequence frame).toOption.map CrudCommandProcessor.toMessage

/-- The message of the frame is among those delivered. -/
def HandedOver (delivered : List TransportRecordMessage) (sequence : UInt64) (frame : Str) :
    Prop :=
  ∃ message ∈ delivered, recordMessage sequence frame = some message

def feed (env : Env Dbi) (consumerId : Str) (delivered : List TransportRecordMessage) :
    Feed UInt64 Str where
  next := nextSequenceOf env
  held := outboxFrame env
  mark := storedAck env consumerId
  handed := HandedOver delivered

section
variable {env env' : Env Dbi} {c : Str} {delivered delivered' : List TransportRecordMessage}

theorem HandedOver.mono (hsub : delivered ⊆ delivered') {s : UInt64} {frame : Str}
    (h : HandedOver delivered s frame) : HandedOver delivered' s frame := by
  obtain ⟨message, hmem, hmessage⟩ := h
  exact ⟨message, hsub hmem, hmessage⟩

theorem feed_congr (hnext : nextSequenceOf env' = nextSequenceOf env)
    (hheld : env'.db transportDbi = env.db transportDbi)
    (hmark : storedAck env' c = storedAck env c) :
    feed env' c delivered = feed env c delivered := by
  have hframes : outboxFrame env' = outboxFrame env := by
    funext s
    rw [outboxFrame, outboxFrame, hheld]
  rw [feed, feed, hnext, hframes, hmark]

theorem feed_acked (env : Env Dbi) (c : Str) (a : UInt64) :
    feed (acked env c a) c delivered = { feed env c delivered with mark := some a } := by
  have hframes : outboxFrame (acked env c a) = outboxFrame env := by
    funext s
    rw [outboxFrame, outboxFrame, outbox_acked]
  rw [feed, nextSequenceOf_acked, hframes, storedAck_acked, if_pos rfl]
  rfl

theorem feed_enqueued (env : Env Dbi) (frame : Str) :
    feed (enqueued env frame) c delivered =
      { feed env c delivered with
        next := nextSequenceOf env + 1, held := outboxFrame (enqueued env frame) } := by
  rw [feed, nextSequenceOf_enqueued, storedAck_congr (consumers_enqueued env frame)]
  rfl

/-- Sequences start at 1, so nothing is held up to 0. -/
theorem Numbered.covered_zero (h : Numbered env) : (feed env c delivered).Covered 0 where
  below := h.counter
  handed s frame hframe hs := by
    have hkey := (h.keys _ (Db.get_eq_some.mp hframe)).2.1
    rw [decodeU64Be_encodeU64Be] at hkey
    exact absurd hkey (not_lt.mpr hs)

/-- What the outbox does and what is handed over go on side by side. -/
theorem feed_onward (h : Feed.Onward (feed env c delivered) (feed env' c delivered))
    {before after : List TransportRecordMessage} (hsub : before ⊆ after) :
    Feed.Onward (feed env c before) (feed env' c after) where
  next := h.next
  held := h.held
  handed _ _ hhanded := hhanded.mono hsub

/-! ## Outbox steps are steps of the feed -/

variable {guard : Guard}

theorem OutboxStep.within_all
    (hroom : ∀ env, guard.enqueue env → (nextSequenceOf env).toNat + 1 < 2 ^ 64)
    (h : OutboxStep guard env env') : OutboxStep (withinGuard (2 ^ 64 - 1)) env env' := by
  cases h with
  | ack hc _ _ => exact .ack hc trivial trivial
  | register hc hnone _ => exact .register hc hnone trivial
  | enqueue hsize henqueue _ => exact .enqueue hsize (Nat.le_sub_one_of_lt (hroom _ henqueue)) trivial
  | compact hne => exact .compact hne
  | setCounter hnone => exact .setCounter hnone
  | other hsame => exact .other hsame

theorem OutboxStep.feed (hnumbered : Numbered env)
    (hroom : ∀ env, guard.enqueue env → (nextSequenceOf env).toNat + 1 < 2 ^ 64)
    (hack : guard.consumer c → ∀ a, guard.ack env a → (feed env c delivered).Covered a)
    (h : OutboxStep guard env env') :
    (Muninn.feed env c delivered).Run (Muninn.feed env' c delivered) := by
  cases h with
  | @ack c' a hc ha hconsumer =>
      by_cases heq : c = c'
      · subst heq
        have hmark : (Muninn.feed env c delivered).marked a =
            some (max ((storedAck env c).getD 0) a) := by
          show some ((storedAck env c).elim a fun m => max m a) = _
          cases storedAck env c with
          | none => exact congrArg some (max_eq_right UInt64.zero_le).symm
          | some m => rfl
        rw [feed_acked, ← hmark]
        exact .single (.ack (hack hconsumer a ha))
      · rw [feed_congr (nextSequenceOf_acked _ _ _) (outbox_acked _ _ _)
          (by rw [storedAck_acked, if_neg heq])]
  | @register c' hc hnone hconsumer =>
      by_cases heq : c = c'
      · subst heq
        have hmark : (Muninn.feed env c delivered).marked 0 = some 0 := by
          show some ((storedAck env c).elim 0 fun m => max m 0) = _
          rw [hnone]
          rfl
        rw [feed_acked, ← hmark]
        exact .single (.ack hnumbered.covered_zero)
      · rw [feed_congr (nextSequenceOf_acked _ _ _) (outbox_acked _ _ _)
          (by rw [storedAck_acked, if_neg heq])]
  | enqueue hsize henqueue _ =>
      rw [feed_enqueued]
      have hnext : (Muninn.feed env c delivered).next < nextSequenceOf env + 1 :=
        lt_succ (hroom env henqueue)
      refine .single (.enqueue hnext fun s hs => ?_)
      rw [outboxFrame_enqueued]
      exact if_neg hs
  | compact hne =>
      have hsame : Muninn.feed (compacted env ((minAcked env).getD 0)) c delivered =
          { Muninn.feed env c delivered with
            held := outboxFrame (compacted env ((minAcked env).getD 0)) } := by
        rw [Muninn.feed, nextSequenceOf_compacted, storedAck_congr (consumers_compacted _ _)]
        rfl
      rw [hsame]
      refine .single (.forget (fun s frame hframe => ?_) fun m hm s frame hframe hlt => ?_)
      · rw [outboxFrame, outbox_compacted, Db.get_filter] at hframe
        split at hframe
        · exact hframe
        · cases hframe
      · -- The least ack is at most the one of this consumer.
        have hmin := (minAcked_le hm).trans_lt hlt
        rw [outboxFrame, outbox_compacted, Db.get_filter, if_pos]
        · exact hframe
        · exact decide_eq_true (encodeU64Be_lt.mpr hmin)
  | setCounter hnone =>
      have hone : nextSequenceOf env = 1 := by rw [nextSequenceOf, hnone]; rfl
      rw [feed_congr ((nextSequenceOf_counted _ _).trans hone.symm) (outbox_counted _ _)
        (storedAck_congr (consumers_counted _ _) _)]
  | other hsame =>
      rw [feed_congr hsame.nextSequenceOf hsame.2.1 (storedAck_congr hsame.2.2 _)]

/-- A run whose acks for the consumer are covered is a run of its feed. -/
theorem OutboxRun.feed (hnumbered : Numbered env)
    (hroom : ∀ env, guard.enqueue env → (nextSequenceOf env).toNat + 1 < 2 ^ 64)
    (hack : guard.consumer c → ∀ env' a, guard.ack env' a → (feed env c delivered).Covered a)
    (hrun : OutboxRun guard env env') :
    (Muninn.feed env c delivered).Run (Muninn.feed env' c delivered) ∧ Numbered env' := by
  induction hrun with
  | refl => exact ⟨.refl, hnumbered⟩
  | tail _ hstep ih =>
      obtain ⟨hfeed, hbefore⟩ := ih
      have hgrows := (hstep.within_all hroom).grows (by decide)
      refine ⟨hfeed.trans (hstep.feed hbefore hroom fun hc a ha => ?_), hbefore.grows hgrows⟩
      exact (hack hc _ a ha).onward hfeed.onward

end

/-! ## Batches -/

/-- Handed over, the records cover each of their sequences. -/
def Brings (env : Env Dbi) (c : Str) (delivered records : List TransportRecordMessage) : Prop :=
  ∀ record ∈ records, (feed env c (delivered ++ records)).Covered record.sequence

/-- The message is the one of a record in the outbox. -/
def FromOutbox (env : Env Dbi) (message : TransportRecordMessage) : Prop :=
  ∃ frame, outboxFrame env message.sequence = some frame ∧
    recordMessage message.sequence frame = some message

/-- A key no greater than one of the front belongs to a pair of the front. -/
theorem mem_take_of_le {pairs : List (Str × Str)} (hsorted : pairs.Pairwise fun a b => a.1 < b.1)
    {n : Nat} {e e' : Str × Str} (he : e ∈ pairs.take n) (he' : e' ∈ pairs) (hle : e'.1 ≤ e.1) :
    e' ∈ pairs.take n := by
  have hsplit := List.take_append_drop n pairs
  by_contra hnot
  have hrest : e' ∈ pairs.drop n := by
    rw [← hsplit] at he'
    exact (List.mem_append.mp he').resolve_left hnot
  rw [← hsplit] at hsorted
  obtain ⟨-, -, hbefore⟩ := List.pairwise_append.mp hsorted
  exact not_lt.mpr hle (hbefore e he e' hrest)

theorem pending_sorted (env : Env Dbi) (c : Str) :
    (pending env c).Pairwise fun a b => a.1 < b.1 := by
  rw [pending, pendingRange]
  split
  · exact (env.db transportDbi).sorted
  · exact Db.seek_sorted _ _

section
variable {store : LmdbStore} {c : Str} {delivered records : List TransportRecordMessage}
  {maxItems : Nat} {io : List (Option Fault)}

theorem ReadAs.reads {entries : List (Str × Str)} {read : List TransportRecord}
    {e : Str × Str} (h : ReadAs entries read) (hmem : e ∈ entries) :
    ∃ record ∈ read, e.1.length = 8 ∧ parseFrame (decodeU64Be e.1) e.2 = .ok record := by
  induction h with
  | nil => exact absurd hmem List.not_mem_nil
  | cons hread _ ih =>
      rcases List.mem_cons.mp hmem with rfl | hmem
      · exact ⟨_, List.mem_cons_self, hread⟩
      · obtain ⟨record, hrecord, hparse⟩ := ih hmem
        exact ⟨record, List.mem_cons_of_mem _ hrecord, hparse⟩

/-- The records of a batch, each with the pair of the outbox it was read from. -/
theorem batch_source (h : CrudCommandProcessor.appendTransportRecords store c maxItems io =
      .ok (some records)) {message : TransportRecordMessage} (hmem : message ∈ records) :
    ∃ frame, (encodeU64Be message.sequence, frame) ∈ (pending store.env c).take (max 1 maxItems) ∧
      recordMessage message.sequence frame = some message := by
  obtain ⟨fetched, hfetch, rfl⟩ := CrudCommandProcessor.appendTransportRecords_ok h
  obtain ⟨record, hrecord, rfl⟩ := List.mem_map.mp hmem
  obtain ⟨e, he, hlen, hparse⟩ := ReadAs.source (fetchTransportBatch_ok hfetch) hrecord
  have hsequence := parseFrame_sequence hparse
  have hkey : encodeU64Be record.sequence = e.1 := by
    rw [hsequence, encodeU64Be_decodeU64Be hlen]
  refine ⟨e.2, ?_, ?_⟩
  · show (encodeU64Be record.sequence, e.2) ∈ _
    rw [hkey]
    exact he
  · show recordMessage record.sequence e.2 = _
    rw [recordMessage, hsequence, hparse]
    rfl

theorem batch_fromOutbox (h : CrudCommandProcessor.appendTransportRecords store c maxItems io =
      .ok (some records)) : ∀ message ∈ records, FromOutbox store.env message := by
  intro message hmem
  obtain ⟨frame, he, hmessage⟩ := batch_source h hmem
  exact ⟨frame, Db.get_eq_some.mpr (pending_subset (List.mem_of_mem_take he)), hmessage⟩

/-- What stands among the pairs of a batch is among its messages. -/
theorem batch_holds (h : CrudCommandProcessor.appendTransportRecords store c maxItems io =
      .ok (some records)) {s : UInt64} {frame : Str}
    (hmem : (encodeU64Be s, frame) ∈ (pending store.env c).take (max 1 maxItems)) :
    HandedOver records s frame := by
  obtain ⟨fetched, hfetch, rfl⟩ := CrudCommandProcessor.appendTransportRecords_ok h
  obtain ⟨record, hrecord, -, hparse⟩ := ReadAs.reads (fetchTransportBatch_ok hfetch) hmem
  rw [decodeU64Be_encodeU64Be] at hparse
  refine ⟨_, List.mem_map_of_mem hrecord, ?_⟩
  rw [recordMessage, hparse]
  rfl

/-- **A batch leaves nothing out**: what the outbox holds up to one of its records was
acked before, or is in the batch. -/
theorem batch_brings (hnumbered : Numbered store.env)
    (hsound : (feed store.env c delivered).Sound)
    (h : CrudCommandProcessor.appendTransportRecords store c maxItems io = .ok (some records)) :
    Brings store.env c delivered records := by
  intro message hmem
  obtain ⟨frame, he, -⟩ := batch_source h hmem
  have hbelow := (hnumbered.keys _ (pending_subset (List.mem_of_mem_take he))).2.2
  rw [decodeU64Be_encodeU64Be] at hbelow
  refine ⟨hbelow, fun s frame' hframe hs => ?_⟩
  change outboxFrame store.env s = some frame' at hframe
  rcases le_or_gt s ((storedAck store.env c).getD 0) with hle | hlt
  · -- Acked before: the mark is covered.
    have hcovered : (feed store.env c delivered).Covered ((storedAck store.env c).getD 0) := by
      cases hack : storedAck store.env c with
      | none => exact hnumbered.covered_zero
      | some ack => exact hsound ack hack
    exact (hcovered.handed s frame' hframe hle).mono (List.subset_append_left _ _)
  · have hpending := mem_pending hlt hframe
    have htaken := mem_take_of_le (pending_sorted store.env c) he hpending
      (encodeU64Be_le.mpr hs)
    exact (batch_holds h htaken).mono (List.subset_append_right _ _)

end

/-! ## What a session does to the feed of its consumer -/

/-- A message of the bridge: its ack is one of those allowed, and its hello names the
consumer. -/
structure Fair (allowed : UInt64 → Prop) (c : Str) (payload : Json) : Prop where
  ack : allowed (ackIn payload)
  hello : ∀ hello, parseHello payload = .ok (some hello) →
    CrudWebsocketSession.consumerIdOf hello = c

theorem Fair.mono {allowed allowed' : UInt64 → Prop} (hmono : ∀ a, allowed a → allowed' a)
    {c : Str} {payload : Json} (h : Fair allowed c payload) : Fair allowed' c payload :=
  ⟨hmono _ h.ack, h.hello⟩

/-- A reply that can be handed over: its records are the outbox's, and leave nothing out. -/
def Tells (env : Env Dbi) (c : Str) (delivered : List TransportRecordMessage) (reply : Json) :
    Prop :=
  ∀ result, parseCrudResult reply = .ok (some result) →
    Brings env c delivered result.records ∧ ∀ message ∈ result.records, FromOutbox env message

section
variable {env : Env Dbi} {c : Str} {delivered : List TransportRecordMessage}

/-- A record is read back as it was written, or rejected. -/
theorem parseTransportRecord_toJson_eq (msg : TransportRecordMessage) :
    parseTransportRecord msg.toJson =
      .ok (if msg.sequence = 0 ∨ msg.payloadB64 = [] then none else some msg) := by
  rw [parseTransportRecord, if_neg (show ¬(!msg.toJson.isObject) = true from Bool.false_ne_true)]
  refine except_bind_ok.mpr ⟨msg.sequence, value_of_find rfl ?_ (getU64_unsigned _),
    except_bind_ok.mpr ⟨msg.recordType, value_of_find rfl ?_ (getU8_unsigned _),
    except_bind_ok.mpr ⟨msg.createdAt, value_of_find rfl ?_ (getU64_unsigned _),
    except_bind_ok.mpr ⟨msg.routingKey, value_of_find rfl ?_ (getString_string _),
    except_bind_ok.mpr ⟨msg.payloadB64, value_of_find rfl ?_ (getString_string _), ?_⟩⟩⟩⟩⟩
  case refine_6 =>
    split
    · rfl
    · rfl
  all_goals
    simp (disch := decide) only [TransportRecordMessage.toJson, find_cons_of_ne, find_cons_self]

theorem parseTransportRecord_some {msg msg' : TransportRecordMessage}
    (h : parseTransportRecord msg.toJson = .ok (some msg')) : msg' = msg := by
  rw [parseTransportRecord_toJson_eq] at h
  replace h := Except.ok.inj h
  split at h
  · cases h
  · exact (Option.some.inj h).symm

theorem parseRecords_some : ∀ {records records' : List TransportRecordMessage},
    parseRecords (records.map TransportRecordMessage.toJson) = .ok (some records') →
      records' = records
  | [], records', h => (Option.some.inj (Except.ok.inj h)).symm
  | msg :: rest, records', h => by
      rw [List.map_cons, parseRecords] at h
      obtain ⟨first, hfirst, h⟩ := except_bind_ok.mp h
      cases first with
      | none => cases h
      | some msg' =>
          obtain ⟨others, hothers, h⟩ := except_bind_ok.mp h
          cases others with
          | none => cases h
          | some rest' =>
              obtain rfl := Option.some.inj (Except.ok.inj h)
              rw [parseTransportRecord_some hfirst, parseRecords_some hothers]

/-- Whatever is read from a result, its records are those it was made of. -/
theorem parseCrudResult_records {msg result : CrudResultMessage}
    (h : parseCrudResult msg.toJson = .ok (some result)) : result.records = msg.records := by
  obtain ⟨-, h⟩ := ofType_some h
  obtain ⟨version, -, h⟩ := except_bind_ok.mp h
  obtain ⟨requestId, -, h⟩ := except_bind_ok.mp h
  obtain ⟨ok, -, h⟩ := except_bind_ok.mp h
  obtain ⟨message, -, h⟩ := except_bind_ok.mp h
  obtain ⟨snapshotId, -, h⟩ := except_bind_ok.mp h
  obtain ⟨baseSnapshotId, -, h⟩ := except_bind_ok.mp h
  obtain ⟨targetSnapshotId, -, h⟩ := except_bind_ok.mp h
  have harray : arrayAt msg.toJson "records" =
      some (msg.records.map TransportRecordMessage.toJson) := by
    simp (disch := decide) only [CrudResultMessage.toJson, arrayAt, find_cons_of_ne, find_cons_self]
  rw [harray] at h
  obtain ⟨found, hfound, h⟩ := except_bind_ok.mp h
  cases found with
  | none => cases h
  | some records =>
      obtain rfl := parseRecords_some hfound
      dsimp only at h
      split at h
      · cases h
      · obtain rfl := Option.some.inj (Except.ok.inj h)
        rfl

theorem tells_result {msg : CrudResultMessage} (hbrings : Brings env c delivered msg.records)
    (hfrom : ∀ message ∈ msg.records, FromOutbox env message) :
    Tells env c delivered msg.toJson := by
  intro result h
  rw [parseCrudResult_records h]
  exact ⟨hbrings, hfrom⟩

theorem tells_empty {msg : CrudResultMessage} (hempty : msg.records = []) :
    Tells env c delivered msg.toJson := by
  refine tells_result ?_ ?_ <;> rw [hempty] <;> exact fun _ hmem => absurd hmem List.not_mem_nil

theorem tells_helloAck (msg : HelloAckMessage) : Tells env c delivered msg.toJson := by
  intro result h
  have htype : stringOr msg.toJson "type" = .ok (str "hello_ack") :=
    value_of_find rfl (find_cons_self ..) (getString_string _)
  exact absurd (Except.ok.inj (htype.symm.trans (ofType_some h).1)) (by decide)

end

namespace CrudWebsocketSession

/-- What a message of the bridge leaves behind, `before` being where it found the store. -/
structure FeedServed (c : Str) (delivered : List TransportRecordMessage) (before : Env Dbi)
    (sent : List Json) (served : Served) : Prop where
  run : (feed before c delivered).Run (feed served.store.env c delivered)
  numbered : Numbered served.store.env
  consumer : served.session.helloAccepted = true → served.session.consumerId = c
  replies : ∀ reply ∈ served.sent, reply ∈ sent ∨ Tells served.store.env c delivered reply

section
variable {c : Str} {delivered : List TransportRecordMessage} {served : Served}
  {options : CrudServerOptions} {io : MessageIo} {payload : Json}

theorem mem_queued {reply payload : Json} {served : Served}
    (h : reply ∈ (queued served payload).2.sent) : reply ∈ served.sent ∨ reply = payload := by
  rw [queued_sent] at h
  refine (List.mem_append.mp h).imp_right fun hmem => ?_
  split at hmem
  · exact List.mem_singleton.mp hmem
  · exact absurd hmem List.not_mem_nil

theorem Dispatches.tells {outcome : Except Escape Unit × Served}
    (h : Dispatches options io payload served outcome) (hnumbered : Numbered outcome.2.store.env)
    (hsound : (feed outcome.2.store.env c delivered).Sound)
    (hconsumer : served.session.helloAccepted = true → served.session.consumerId = c) :
    ∀ reply ∈ outcome.2.sent, reply ∈ served.sent ∨ Tells outcome.2.store.env c delivered reply := by
  intro reply hreply
  cases h with
  | raised | silent | acked | overran | diverged => exact .inl hreply
  | notice | unauthenticated | ackFailed =>
      refine (mem_queued hreply).imp_right fun heq => ?_
      rw [heq]
      exact tells_empty rfl
  | refused | unregistered | welcomed =>
      refine (mem_queued hreply).imp_right fun heq => ?_
      rw [heq]
      exact tells_helloAck _
  | commanded command result store haccepted _ hprocess _ =>
      refine (mem_queued hreply).imp_right fun heq => ?_
      have hanswer := CrudCommandProcessor.process_answersFor hprocess
      rw [hconsumer haccepted] at hanswer
      rw [queued_store] at hnumbered hsound ⊢
      rw [heq]
      rcases hanswer.records with hnil | ⟨maxItems, io, hbatch⟩
      · exact tells_empty hnil
      · exact tells_result (batch_brings hnumbered hsound hbatch) (batch_fromOutbox hbatch)

/-- The acks of one message. -/
def oneAck (a : UInt64) : Guard where
  ack _ sequence := sequence = a
  enqueue env := (nextSequenceOf env).toNat + 1 < 2 ^ 64

/-- **One message of the bridge**: the acks it stores are covered if its own is, and what it
is answered can be handed over. -/
theorem handleMessage_feeds (hnumbered : Numbered served.store.env)
    (hsound : (feed served.store.env c delivered).Sound)
    (hroom : (nextSequenceOf served.store.env).toNat + 2 < 2 ^ 64)
    (hconsumer : served.session.helloAccepted = true → served.session.consumerId = c)
    (hfair : Fair (feed served.store.env c delivered).Covered c payload) (text : Str) :
    FeedServed c delivered served.store.env served.sent
      ((handleMessage (fun _ => some payload) options io text).run.run served).2 := by
  rcases handleMessage_dispatches (fun _ => some payload) text with
    ⟨hnone, heq⟩ | ⟨payload', hparse, hobject, hends⟩
  · rw [heq]
    refine ⟨?_, ?_, ?_, fun reply hreply => (mem_queued hreply).imp_right fun h => ?_⟩
    · rw [queued_store]
    · rw [queued_store]
      exact hnumbered
    · rw [queued_session]
      exact hconsumer
    · rw [h]
      exact tells_empty rfl
  obtain rfl := Option.some.inj hparse
  have hdispatch : (handleMessage (fun _ => some payload) options io text).run.run served =
      (dispatch options io payload).run.run served := by
    rw [handleMessage]
    exact congrFun (congrArg _ (if_neg (by rw [hobject]; decide))) _
  rw [hdispatch] at hends ⊢
  have hrun : OutboxRun (oneAck (ackIn payload)) served.store.env
      ((dispatch options io payload).run.run served).2.store.env :=
    dispatch_run (fun _ _ => rfl) (fun _ _ env henv => by
      show (nextSequenceOf env).toNat + 1 < 2 ^ 64
      rcases henv with henv | henv
      · rw [henv]
        omega
      · rw [henv, toNat_succ (by omega)]
        omega) fun _ => trivial
  have hacks : (oneAck (ackIn payload)).consumer c → ∀ env' a, (oneAck (ackIn payload)).ack env' a →
      (feed served.store.env c delivered).Covered a := by
    intro _ env' a ha
    rw [show a = ackIn payload from ha]
    exact hfair.ack
  obtain ⟨hfeed, hafter⟩ := hrun.feed hnumbered (fun _ h => h) hacks
  have hsession : Leaves (dispatch options io payload) served fun session _ =>
      session.helloAccepted = true → session.consumerId = c := by
    refine dispatch_leaves hconsumer (fun hello hparsed _ => ⟨hconsumer, fun _ _ => ?_⟩)
      (fun _ _ _ _ _ => hconsumer) fun _ _ _ _ _ _ => hconsumer
    exact hfair.hello hello hparsed
  exact ⟨hfeed, hafter, hsession, hends.tells hafter (hsound.run hfeed) hconsumer⟩

end

end CrudWebsocketSession

/-! ## What goes on beside the sessions of the consumer -/

/-- The step is not done under the consumer's id. -/
def StoreOp.spares (c : Str) : StoreOp → Bool
  | .message session _ _ payload =>
      (!session.helloAccepted || session.consumerId != c) &&
        match parseHello payload with
        | .ok (some hello) => CrudWebsocketSession.consumerIdOf hello != c
        | _ => true
  | .registerTransportConsumer consumerId _ => consumerId != c
  | _ => true

/-- Everything but the acks of one consumer. -/
def sparing (c : Str) : Guard where
  ack _ _ := True
  enqueue env := (nextSequenceOf env).toNat + 1 < 2 ^ 64
  consumer consumerId := consumerId ≠ c

theorem dispatch_sparing {c : Str} {served : Served} {options : CrudServerOptions}
    {io : MessageIo} {payload : Json} (hroom : HasRoom (sparing c) served.store.env)
    (hsession : served.session.helloAccepted = true → served.session.consumerId ≠ c)
    (hhello : ∀ hello, parseHello payload = .ok (some hello) →
      CrudWebsocketSession.consumerIdOf hello ≠ c) :
    Leaves (CrudWebsocketSession.dispatch options io payload) served fun _ store =>
      OutboxRun (sparing c) served.store.env store.env := by
  refine CrudWebsocketSession.dispatch_leaves .refl ?_ ?_ ?_
  · intro hello hparse _
    have hrun : OutboxRun (sparing c) served.store.env _ :=
      LmdbStore.registerTransportConsumer_run _ io.register (hhello hello hparse)
    exact ⟨hrun, fun _ => hrun⟩
  · intro haccepted ack _ _ _
    exact LmdbStore.ackTransportUntil_run _ _ _ trivial (hsession haccepted)
  · intro haccepted command result store _ hprocess
    exact CrudCommandProcessor.process_run (fun _ => trivial) (fun _ => hroom)
      (hsession haccepted) hprocess

theorem StoreOp.sparingRun {c : Str} {op : StoreOp} {store : LmdbStore} (h : op.spares c = true)
    (hroom : (nextSequenceOf store.env).toNat + 2 < 2 ^ 64) :
    OutboxRun (sparing c) store.env (op.run store).env := by
  have htwo : HasRoom (sparing c) store.env := by
    intro env henv
    show (nextSequenceOf env).toNat + 1 < 2 ^ 64
    rcases henv with henv | henv
    · rw [henv]
      omega
    · rw [henv, toNat_succ (by omega)]
      omega
  have hone : ∀ env, nextSequenceOf env = nextSequenceOf store.env → (sparing c).enqueue env :=
    fun env heq => htwo env (.inl heq)
  cases op with
  | enqueueTransportRecord => exact LmdbStore.enqueueTransportRecord_run _ _ _ _ _ (hone _ rfl) trivial
  | enqueueSnapshot => exact LmdbStore.enqueueSnapshot_run _ _ _ _ (hone _ rfl)
  | enqueueDelta => exact LmdbStore.enqueueDelta_run _ _ _ _ _ _ (hone _ rfl)
  | putSnapshotWithTransport => exact LmdbStore.putSnapshotWithTransport_run _ _ _ _ _ fun _ => hone
  | putSnapshotAndDeltaWithTransport =>
      exact LmdbStore.putSnapshotAndDelta_run _ _ _ _ _ _ _ fun _ => htwo
  | registerTransportConsumer consumerId io =>
      exact LmdbStore.registerTransportConsumer_run _ _ (bne_iff_ne.mp h)
  | fetchTransportBatch => exact .refl
  | message session options io payload =>
      obtain ⟨hsession, hhello⟩ := (Bool.and_eq_true _ _).mp h
      refine @dispatch_sparing c { session, store } options io payload htwo (fun haccepted => ?_)
        fun hello hparse => ?_
      · rw [show session.helloAccepted = true from haccepted] at hsession
        exact bne_iff_ne.mp hsession
      · rw [hparse] at hhello
        exact bne_iff_ne.mp hhello
  | compactTransport io => exact LmdbStore.compactTransport_run _
  | openStore options directoryError io => exact LmdbStore.openStore_run _ _ _
  | close => exact .refl

/-- What is done under other ids is a run of the feed. -/
theorem StoreOp.feeds {c : Str} {op : StoreOp} {store : LmdbStore}
    {delivered : List TransportRecordMessage} (hnumbered : Numbered store.env)
    (h : op.spares c = true) (hroom : (nextSequenceOf store.env).toNat + 2 < 2 ^ 64) :
    (feed store.env c delivered).Run (feed (op.run store).env c delivered) ∧
      Numbered (op.run store).env :=
  (op.sparingRun h hroom).feed hnumbered (fun _ h => h) fun hc => absurd rfl hc

end ServerStorage.Muninn
