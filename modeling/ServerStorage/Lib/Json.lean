/-
# `ServerStorage.Lib.Json` — JSON values and typed access to their fields

What `nlohmann::json` documents of a value: numbers are kept apart by kind, an
object has each key once, `value(key, default)` raises where the key is there with
an incompatible type (302) or the value is no object (306), and `dump` raises on a
string that is not UTF-8 (316).  Which kinds an arithmetic type accepts is the
library's conversion for a type that is not one of its own number types, as
`unsigned`, `unsigned char` and (under LP64) `unsigned long long` are: every number
kind, and a boolean.
-/
import ServerStorage.Lib.Bytes

namespace Lib

inductive Json where
  | null
  | boolean (b : Bool)
  | string (s : Str)
  | numberInteger (i : Int64)
  | numberUnsigned (u : UInt64)
  /-- A double, by its bits. -/
  | numberFloat (bits : UInt64)
  | array (items : List Json)
  | object (fields : List (Str × Json))

/-- An exception of the library, by its number. -/
structure JsonException where
  id : Nat
  deriving DecidableEq, Repr

namespace Json

/-! ## Kinds and conversions -/

def isObject : Json → Bool
  | object _ => true
  | _ => false

def isNumberUnsigned : Json → Bool
  | numberUnsigned _ => true
  | _ => false

/-- Unsigned numbers are integers too. -/
def isNumberInteger : Json → Bool
  | numberInteger _ | numberUnsigned _ => true
  | _ => false

/-- The number of an integer. -/
def integer : Json → Int
  | numberInteger i => i.toInt
  | numberUnsigned u => u.toNat
  | _ => 0

/-- A double cut to an integer; where it is out of range the source leaves the
conversion open. -/
def truncate (bits : UInt64) : Int :=
  let exponent := ((bits >>> 52) &&& 0x7ff).toNat
  let fraction := (bits &&& 0xfffffffffffff).toNat
  let magnitude : Nat :=
    if exponent = 0 then 0
    else if 1075 ≤ exponent then (2 ^ 52 + fraction) * 2 ^ (exponent - 1075)
    else (2 ^ 52 + fraction) / 2 ^ (1075 - exponent)
  if bits >>> 63 = 0 then magnitude else -magnitude

/-- The number an arithmetic type is converted from. -/
def getNumber : Json → Option Int
  | boolean b => some (if b then 1 else 0)
  | numberInteger i => some i.toInt
  | numberUnsigned u => some u.toNat
  | numberFloat bits => some (truncate bits)
  | _ => none

def getU64 (json : Json) : Option UInt64 := (getNumber json).map UInt64.ofInt
def getU32 (json : Json) : Option UInt32 := (getNumber json).map UInt32.ofInt
def getU8 (json : Json) : Option UInt8 := (getNumber json).map UInt8.ofInt

def getString : Json → Option Str
  | string s => some s
  | _ => none

def getBoolean : Json → Option Bool
  | boolean b => some b
  | _ => none

/-! ## Fields -/

/-- The value of a key, in an object. -/
def find : Json → Str → Option Json
  | object fields, key => fields.lookup key
  | _, _ => none

def typeError : JsonException := ⟨302⟩
def notAnObject : JsonException := ⟨306⟩
def invalidUtf8 : JsonException := ⟨316⟩

/-- `value(key, default)`, read as the type `get` converts to. -/
def value {α : Type} (get : Json → Option α) (json : Json) (key : String) (default : α) :
    Except JsonException α :=
  if !json.isObject then .error notAnObject
  else
    match json.find (str key) with
    | none => .ok default
    | some v =>
        match get v with
        | none => .error typeError
        | some a => .ok a

/-- `value` returns: the key is absent, or its value converts. -/
def fits {α : Type} (get : Json → Option α) (json : Json) (key : String) : Bool :=
  json.isObject && ((json.find (str key)).all fun v => (get v).isSome)

theorem value_isOk {α : Type} {get : Json → Option α} {json : Json} {key : String} {default : α} :
    (∃ a, json.value get key default = .ok a) ↔ json.fits get key = true := by
  rw [value, fits]
  cases hobj : json.isObject with
  | false => simp
  | true =>
      cases hfind : json.find (str key) with
      | none => simp
      | some v =>
          cases hget : get v with
          | none => simp [hget]
          | some a => simp [hget]

/-! ## `dump` -/

/-- A continuation byte of UTF-8. -/
def continuation : UInt8 × UInt8 := (0x80, 0xBF)

/-- The ranges of the bytes that must follow a first byte. -/
def utf8Lead (b : UInt8) : Option (List (UInt8 × UInt8)) :=
  if b < 0x80 then some []
  else if b < 0xC2 then none
  else if b < 0xE0 then some [continuation]
  else if b = 0xE0 then some [(0xA0, 0xBF), continuation]
  else if b = 0xED then some [(0x80, 0x9F), continuation]
  else if b < 0xF0 then some [continuation, continuation]
  else if b = 0xF0 then some [(0x90, 0xBF), continuation, continuation]
  else if b < 0xF4 then some [continuation, continuation, continuation]
  else if b = 0xF4 then some [(0x80, 0x8F), continuation, continuation]
  else none

/-- The decoder's run, with the ranges the next bytes must lie in. -/
def utf8Run : List (UInt8 × UInt8) → Str → Bool
  | pending, [] => pending.isEmpty
  | range :: pending, b :: rest =>
      decide (range.1 ≤ b) && decide (b ≤ range.2) && utf8Run pending rest
  | [], b :: rest =>
      match utf8Lead b with
      | none => false
      | some pending => utf8Run pending rest

def validUtf8 (s : Str) : Bool := utf8Run [] s

mutual

/-- Whether `dump` returns: every string in the value is UTF-8. -/
def dumps : Json → Bool
  | string s => validUtf8 s
  | array items => dumpsItems items
  | object fields => dumpsFields fields
  | _ => true

def dumpsItems : List Json → Bool
  | [] => true
  | item :: rest => dumps item && dumpsItems rest

def dumpsFields : List (Str × Json) → Bool
  | [] => true
  | (key, item) :: rest => validUtf8 key && dumps item && dumpsFields rest

end

example : truncate 0x4045000000000000 = 42 ∧ validUtf8 [0xC3, 0xA9] ∧ !validUtf8 [0xC3] := by
  decide +kernel

end Json

end Lib
