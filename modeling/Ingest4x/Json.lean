import Mathlib.Tactic.Basic

/-! # JSON values

`serde_json::Value`, as the WAL, the processors and the sinks pass it around. Parsing and printing
belong to the crate and are parameters of the model (`JsonCodec`). -/

namespace Ingest4x

/-- `serde_json::Number`: a non-negative integer, a negative integer, or a float by its bits. -/
inductive Number
  | posInt (n : UInt64)
  | negInt (n : Int64)
  | float (bits : UInt64)
  deriving DecidableEq

/-- **`serde_json::Value`.** The fields of an object are listed in the order of the map. -/
inductive Value
  | null
  | bool (b : Bool)
  | number (n : Number)
  | string (s : String)
  | array (items : List Value)
  | object (fields : List (String × Value))

namespace Value

mutual

/-- Equality of JSON values is decidable. -/
def decEq : (a b : Value) → Decidable (a = b)
  | .null, .null => isTrue rfl
  | .bool a, .bool b =>
    if h : a = b then isTrue (by rw [h]) else isFalse (fun heq => h (by injection heq))
  | .number a, .number b =>
    if h : a = b then isTrue (by rw [h]) else isFalse (fun heq => h (by injection heq))
  | .string a, .string b =>
    if h : a = b then isTrue (by rw [h]) else isFalse (fun heq => h (by injection heq))
  | .array as, .array bs =>
    match decEqItems as bs with
    | isTrue h => isTrue (by rw [h])
    | isFalse h => isFalse (fun heq => h (by injection heq))
  | .object as, .object bs =>
    match decEqFields as bs with
    | isTrue h => isTrue (by rw [h])
    | isFalse h => isFalse (fun heq => h (by injection heq))
  | .null, .bool _ | .null, .number _ | .null, .string _ | .null, .array _ | .null, .object _
  | .bool _, .null | .bool _, .number _ | .bool _, .string _ | .bool _, .array _
  | .bool _, .object _
  | .number _, .null | .number _, .bool _ | .number _, .string _ | .number _, .array _
  | .number _, .object _
  | .string _, .null | .string _, .bool _ | .string _, .number _ | .string _, .array _
  | .string _, .object _
  | .array _, .null | .array _, .bool _ | .array _, .number _ | .array _, .string _
  | .array _, .object _
  | .object _, .null | .object _, .bool _ | .object _, .number _ | .object _, .string _
  | .object _, .array _ => isFalse (fun heq => by cases heq)

/-- Equality of the items of arrays. -/
def decEqItems : (as bs : List Value) → Decidable (as = bs)
  | [], [] => isTrue rfl
  | [], _ :: _ => isFalse (fun heq => by cases heq)
  | _ :: _, [] => isFalse (fun heq => by cases heq)
  | a :: as, b :: bs =>
    match decEq a b, decEqItems as bs with
    | isTrue h, isTrue hs => isTrue (by rw [h, hs])
    | isFalse h, _ => isFalse (fun heq => h (by injection heq))
    | _, isFalse hs => isFalse (fun heq => hs (by injection heq))

/-- Equality of the fields of objects. -/
def decEqFields : (as bs : List (String × Value)) → Decidable (as = bs)
  | [], [] => isTrue rfl
  | [], _ :: _ => isFalse (fun heq => by cases heq)
  | _ :: _, [] => isFalse (fun heq => by cases heq)
  | (k, a) :: as, (l, b) :: bs =>
    if hk : k = l then
      match decEq a b, decEqFields as bs with
      | isTrue h, isTrue hs => isTrue (by rw [hk, h, hs])
      | isFalse h, _ => isFalse (fun heq => h (by injection heq with h₁; injection h₁))
      | _, isFalse hs => isFalse (fun heq => hs (by injection heq))
    else isFalse (fun heq => hk (by injection heq with h₁; injection h₁))

end

instance : DecidableEq Value := decEq

/-- `Value::get` with a field name: the field of an object. -/
def get (value : Value) (name : String) : Option Value :=
  match value with
  | .object fields => (fields.find? fun field => field.1 == name).map Prod.snd
  | _ => none

/-- `Map::remove`: the value of a field, and the fields without it. -/
def removeField (fields : List (String × Value)) (field : String) :
    Option Value × List (String × Value) :=
  ((object fields).get field, fields.filter fun f => f.1 ≠ field)

/-- `Value::as_str`. -/
def asStr : Value → Option String
  | .string s => some s
  | _ => none

end Value

/-- **The JSON crate**: `serde_json::from_slice` and `serde_json::to_vec` of a value. -/
class JsonCodec where
  fromSlice : List UInt8 → Except String Value
  toVec : Value → Except String (List UInt8)

end Ingest4x
