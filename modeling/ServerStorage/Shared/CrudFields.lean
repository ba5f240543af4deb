/-
# `ServerStorage.Shared.CrudFields` — where the parsers of `shared/crud_protocol.hpp` return

A parser is left by an exception of the library where a field that it comes to read is
there with a type that does not convert.  For each parser, the fields it comes to read:
all of them in order, up to an operation it does not know and up to the first record it
rejects.
-/
import ServerStorage.Shared.CrudSpec

namespace ServerStorage.Crud

open Lib Lmdb

/-- The parser returns, with a message or without one. -/
def Returns {α : Type} (parsed : Parsed α) : Prop := ∃ a, parsed = .ok a

section
variable {α β : Type} {parsed : Parsed α} {f : α → Parsed β} {Rest : Prop}

theorem returns_pure (a : α) : Returns (pure a : Parsed α) := ⟨a, rfl⟩

theorem returns_bind : Returns (parsed >>= f) ↔ ∃ a, parsed = .ok a ∧ Returns (f a) := by
  constructor
  · intro ⟨b, hb⟩
    obtain ⟨a, ha, hb⟩ := except_bind_ok.mp hb
    exact ⟨a, ha, b, hb⟩
  · intro ⟨a, ha, b, hb⟩
    exact ⟨b, except_bind_ok.mpr ⟨a, ha, hb⟩⟩

/-- What follows a field comes to the same whatever was read. -/
theorem returns_bind_of (h : ∀ a, parsed = .ok a → (Returns (f a) ↔ Rest)) :
    Returns (parsed >>= f) ↔ Returns parsed ∧ Rest := by
  rw [returns_bind]
  constructor
  · intro ⟨a, ha, hf⟩
    exact ⟨⟨a, ha⟩, (h a ha).mp hf⟩
  · intro ⟨⟨a, ha⟩, hrest⟩
    exact ⟨a, ha, (h a ha).mpr hrest⟩

variable {get : Json → Option α} {json : Json} {key : String} {default : α}

/-- A field that is read, and the fields after it. -/
theorem returns_field
    (h : ∀ a, json.value get key default = .ok a → (Returns (f a) ↔ Rest)) :
    Returns (json.value get key default >>= f) ↔ json.fits get key = true ∧ Rest :=
  (returns_bind_of h).trans (and_congr_left' Json.value_isOk)

theorem returns_lastField (h : ∀ a, Returns (f a)) :
    Returns (json.value get key default >>= f) ↔ json.fits get key = true :=
  (returns_field fun a _ => iff_true_intro (h a)).trans (and_iff_left trivial)

theorem returns_ite {c : Prop} [Decidable c] {a b : α} :
    Returns (if c then pure a else pure b : Parsed α) := by
  split
  · exact returns_pure a
  · exact returns_pure b

end

/-! ## The fields of each message -/

section
variable {json : Json}

def TypeFits (json : Json) : Prop := json.fits Json.getString "type" = true

def TypeIs (json : Json) (type : String) : Prop := stringOr json "type" = .ok (str type)

theorem ofType_returns {α : Type} {type : String} {fields : Parsed (Option α)} {Fields : Prop}
    (h : Returns fields ↔ Fields) :
    Returns (ofType type json fields) ↔
      (json.isObject = true → TypeFits json ∧ (TypeIs json type → Fields)) := by
  rw [ofType]
  cases hobject : json.isObject with
  | false =>
      exact iff_of_true (returns_pure none) fun h => absurd h Bool.false_ne_true
  | true =>
      rw [if_neg (show ¬(!true) = true from Bool.false_ne_true)]
      rw [forall_prop_of_true (show true = true from rfl)]
      refine returns_field fun found hfound => ?_
      rw [TypeIs, show stringOr json "type" = .ok found from hfound, Except.ok.injEq]
      by_cases hfound : found = str type
      · rw [if_neg (not_not.mpr hfound), h, forall_prop_of_true hfound]
      · rw [if_pos hfound]
        exact iff_of_true (returns_pure none) fun heq => absurd heq hfound

def HelloFields (json : Json) : Prop :=
  json.fits Json.getU32 "protocol_version" = true ∧ json.fits Json.getString "host_id" = true ∧
    json.fits Json.getString "client_instance_id" = true ∧
    json.fits Json.getString "auth_token" = true

theorem parseHello_returns :
    Returns (parseHello json) ↔
      (json.isObject = true → TypeFits json ∧ (TypeIs json "hello" → HelloFields json)) :=
  ofType_returns (returns_field fun _ _ => returns_field fun _ _ => returns_field fun _ _ =>
    returns_lastField fun _ => returns_ite)

def HelloAckFields (json : Json) : Prop :=
  json.fits Json.getU32 "protocol_version" = true ∧ json.fits Json.getBoolean "accepted" = true ∧
    json.fits Json.getString "reason" = true

theorem parseHelloAck_returns :
    Returns (parseHelloAck json) ↔
      (json.isObject = true → TypeFits json ∧ (TypeIs json "hello_ack" → HelloAckFields json)) :=
  ofType_returns (returns_field fun _ _ => returns_field fun _ _ =>
    returns_lastField fun _ => returns_ite)

/-- The operation is one of the four. -/
def OperationKnown (json : Json) : Prop :=
  ∃ name operation, stringOr json "operation" = .ok name ∧
    operationFromString name = some operation

def CrudCommandFields (json : Json) : Prop :=
  json.fits Json.getU32 "protocol_version" = true ∧ json.fits Json.getString "request_id" = true ∧
    json.fits Json.getString "operation" = true ∧
    (OperationKnown json →
      json.fits Json.getString "root_path" = true ∧ json.fits Json.getU64 "snapshot_id" = true ∧
        json.fits Json.getU64 "base_snapshot_id" = true ∧
        json.fits Json.getU64 "ack_sequence" = true ∧
        json.fits Json.getU32 "outbox_batch_size" = true)

theorem parseCrudCommand_returns :
    Returns (parseCrudCommand json) ↔
      (json.isObject = true →
        TypeFits json ∧ (TypeIs json "crud_command" → CrudCommandFields json)) := by
  refine ofType_returns (returns_field fun _ _ => returns_field fun _ _ =>
    returns_field fun name hname => ?_)
  cases hoperation : operationFromString name with
  | none =>
      refine iff_of_true (returns_pure none) ?_
      intro ⟨name', operation, hname', hknown⟩
      obtain rfl := Except.ok.inj (hname.symm.trans hname')
      exact nomatch hoperation.symm.trans hknown
  | some operation =>
      rw [forall_prop_of_true (show OperationKnown json from ⟨name, operation, hname, hoperation⟩)]
      exact returns_field fun _ _ => returns_field fun _ _ => returns_field fun _ _ =>
        returns_field fun _ _ => returns_lastField fun _ => returns_ite

def RecordFields (json : Json) : Prop :=
  json.fits Json.getU64 "sequence" = true ∧ json.fits Json.getU8 "record_type" = true ∧
    json.fits Json.getU64 "created_at" = true ∧ json.fits Json.getString "routing_key" = true ∧
    json.fits Json.getString "payload_b64" = true

theorem parseTransportRecord_returns :
    Returns (parseTransportRecord json) ↔ (json.isObject = true → RecordFields json) := by
  rw [parseTransportRecord]
  cases hobject : json.isObject with
  | false =>
      exact iff_of_true (returns_pure none) fun h => absurd h Bool.false_ne_true
  | true =>
      rw [if_neg (show ¬(!true) = true from Bool.false_ne_true), forall_prop_of_true rfl]
      exact returns_field fun _ _ => returns_field fun _ _ => returns_field fun _ _ =>
        returns_field fun _ _ => returns_lastField fun _ => returns_ite

/-- The fields of the records up to the first one rejected. -/
def RecordsFields : List Json → Prop
  | [] => True
  | item :: rest =>
      (item.isObject = true → RecordFields item) ∧
        ∀ record, parseTransportRecord item = .ok (some record) → RecordsFields rest

theorem parseRecords_returns : ∀ items : List Json,
    Returns (parseRecords items) ↔ RecordsFields items
  | [] => iff_of_true (returns_pure _) trivial
  | item :: rest => by
      rw [parseRecords, RecordsFields, ← parseTransportRecord_returns]
      refine returns_bind_of fun found hfound => ?_
      cases found with
      | none =>
          refine iff_of_true (returns_pure none) fun record hrecord => ?_
          cases hfound.symm.trans hrecord
      | some record =>
          have hrest : (∀ record', parseTransportRecord item = .ok (some record') →
              RecordsFields rest) ↔ RecordsFields rest :=
            ⟨fun h => h record hfound, fun h _ _ => h⟩
          rw [hrest, ← parseRecords_returns rest]
          refine (returns_bind_of fun records _ => iff_true_intro ?_).trans (and_iff_left trivial)
          cases records with
          | none => exact returns_pure none
          | some records => exact returns_pure _

def CrudResultFields (json : Json) : Prop :=
  json.fits Json.getU32 "protocol_version" = true ∧ json.fits Json.getString "request_id" = true ∧
    json.fits Json.getBoolean "ok" = true ∧ json.fits Json.getString "message" = true ∧
    json.fits Json.getU64 "snapshot_id" = true ∧ json.fits Json.getU64 "base_snapshot_id" = true ∧
    json.fits Json.getU64 "target_snapshot_id" = true ∧
    ∀ items, arrayAt json "records" = some items → RecordsFields items

theorem parseCrudResult_returns :
    Returns (parseCrudResult json) ↔
      (json.isObject = true →
        TypeFits json ∧ (TypeIs json "crud_result" → CrudResultFields json)) := by
  refine ofType_returns (returns_field fun _ _ => returns_field fun _ _ =>
    returns_field fun _ _ => returns_field fun _ _ => returns_field fun _ _ =>
    returns_field fun _ _ => returns_field fun _ _ => ?_)
  cases hitems : arrayAt json "records" with
  | none => exact iff_of_true (returns_pure none) nofun
  | some items =>
      have hfields : (∀ items', some items = some items' → RecordsFields items') ↔
          RecordsFields items :=
        ⟨fun h => h items rfl, fun h _ heq => Option.some.inj heq ▸ h⟩
      rw [hfields, ← parseRecords_returns items]
      refine (returns_bind_of fun found _ => iff_true_intro ?_).trans (and_iff_left trivial)
      cases found with
      | none => exact returns_pure none
      | some records => exact returns_ite

def IngestAckFields (json : Json) : Prop :=
  json.fits Json.getU32 "protocol_version" = true ∧ json.fits Json.getString "request_id" = true ∧
    json.fits Json.getBoolean "ok" = true ∧ json.fits Json.getU64 "ack_sequence" = true ∧
    json.fits Json.getString "message" = true

theorem parseIngestAck_returns :
    Returns (parseIngestAck json) ↔
      (json.isObject = true →
        TypeFits json ∧ (TypeIs json "ingest_ack" → IngestAckFields json)) :=
  ofType_returns (returns_field fun _ _ => returns_field fun _ _ => returns_field fun _ _ =>
    returns_field fun _ _ => returns_lastField fun _ => returns_ite)

end

end ServerStorage.Crud
