import Ingest4x.Sinks.Parquet

/-! # Validation of events in scripts

The functions of an event that a processor script calls to check its fields: a start (`required`,
`optional`, `field`) gives a `FieldRef`, and the calls of a chain check it one after the other. Every
call changes the `FieldRef` and answers a copy of it, so a chain hands one value on.

* **`lookupPath`** — the value at a dotted path.
* **`FieldRef`** — the event, the path, and what the calls so far have set.
* **`FieldRef.valueForChainedValidation`** — the value that a call checks, if it is to check one.
* **`Call` / `runCalls`** — the calls of a chain, and a chain of them. -/

namespace Ingest4x.Rhai

open Sinks.Parquet (asI64 asU64)

/-! ### The engine's values -/

/-- **The Rhai crate's maps**: an event as a script has it, and `from_dynamic` to a JSON value. -/
class EventMap where
  Map : Type
  fromDynamic : Map → Except String Value

/-- `rhai::Dynamic`, as an argument of a call. -/
inductive Dynamic
  | unit
  | bool (b : Bool)
  | int (n : Int64)
  | float (x : Float.Model)
  | char (c : Char)
  | string (s : String)
  | array (items : List Dynamic)
  | map (fields : List (String × Dynamic))

/-- `try_cast::<ImmutableString>`. -/
def Dynamic.tryCastString : Dynamic → Option String
  | .string s => some s
  | _ => none

/-- **A script error**: its text. The threshold of a comparison, which is printed at the end of the
text, stays a number. -/
inductive ScriptError
  | text (message : String)
  | threshold (message : String) (threshold : Float.Model)

/-! ### Values -/

/-- `Value::as_f64`: an integer is rounded to the nearest number of the format. -/
def asF64 : Value → Option Float.Model
  | .number (.posInt n) => some (Float.Model.ofUInt64 n)
  | .number (.negInt n) => some (Float.Model.ofInt64 n)
  | .number (.float bits) => some (Float.Model.ofBits bits)
  | _ => none

/-- The loop of `lookup_path` over the segments of a path. -/
def lookupSegments (current : Value) : List String → Option Value
  | [] => some current
  | segment :: segments => (current.get segment).bind fun next => lookupSegments next segments

/-- **`lookup_path`.** -/
def lookupPath (payload : Value) (path : String) : Option Value :=
  lookupSegments payload ((path.toList.splitOn '.').map String.ofList)

/-- `str::eq_ignore_ascii_case`. -/
def eqIgnoreAsciiCase (left right : String) : Bool :=
  left.toList.map Char.toLower = right.toList.map Char.toLower

/-- `strings_equal`. -/
def stringsEqual (left right : String) (ignoreCase : Bool) : Bool :=
  if ignoreCase then eqIgnoreAsciiCase left right else left = right

/-- `is_present`. -/
def isPresent : Option Value → Bool
  | some .null | none => false
  | some (.string text) => text ≠ ""
  | some _ => true

/-- `exists_non_null`. -/
def existsNonNull : Option Value → Bool
  | some .null | none => false
  | some _ => true

/-- `dynamic_array_to_strings`: what is no string is left out. -/
def dynamicArrayToStrings (values : List Dynamic) : List String :=
  values.filterMap Dynamic.tryCastString

/-- An item of a list of texts. -/
def enumString (path : String) (value : Dynamic) : Except ScriptError String :=
  match value.tryCastString with
  | some s => .ok s
  | none => .error (.text ("enum values for field \x60" ++ path ++ "\x60 must all be strings"))

/-- `dynamic_array_to_string_enum`: what is no string is an error. -/
def dynamicArrayToStringEnum (values : List Dynamic) (path : String) :
    Except ScriptError (List String) :=
  values.mapM (enumString path)

/-! ### Fields -/

/-- `FieldPresence`. -/
inductive FieldPresence
  | inspect
  | required
  | optional
  deriving DecidableEq

/-- `FieldType`. -/
inductive FieldType
  | string
  | number
  | integer
  | boolean
  | object
  | array
  deriving DecidableEq

/-- `NumberComparison`. -/
inductive NumberComparison
  | gt
  | gte
  | lt
  | lte
  deriving DecidableEq

/-- **`FieldRef`**: a field of an event, and what the calls so far have set. -/
structure FieldRef where
  payload : Value
  path : String
  presence : FieldPresence
  fieldType : Option FieldType
  ignoreCase : Bool

/-- `AnyFields`. -/
structure AnyFields where
  payload : Value
  paths : List String

/-- `FieldType::matches`. -/
def FieldType.matchesValue (fieldType : FieldType) (value : Value) : Bool :=
  match fieldType, value with
  | .string, .string _ => true
  | .number, .number _ => true
  | .integer, value => (asI64 value).isSome || (asU64 value).isSome
  | .boolean, .bool _ => true
  | .object, .object _ => true
  | .array, .array _ => true
  | _, _ => false

/-- `FieldType::display`. -/
def FieldType.display : FieldType → String
  | .string => "String"
  | .number => "Number"
  | .integer => "Integer"
  | .boolean => "Boolean"
  | .object => "Object"
  | .array => "Array"

/-- `NumberComparison::matches`. -/
def NumberComparison.matchesNumbers (comparison : NumberComparison) (value threshold : Float.Model) :
    Bool :=
  match comparison with
  | .gt => threshold < value
  | .gte => threshold ≤ value
  | .lt => value < threshold
  | .lte => value ≤ threshold

/-- `NumberComparison::description`. -/
def NumberComparison.description : NumberComparison → String
  | .gt => "greater than"
  | .gte => "greater than or equal to"
  | .lt => "less than"
  | .lte => "less than or equal to"

/-- `type_mismatch_error`. -/
def typeMismatchError (path : String) (fieldType : FieldType) : ScriptError :=
  .text ("field \x60" ++ path ++ "\x60 expected type \x60" ++ fieldType.display ++ "\x60")

/-- The error for a text that is none of the listed ones. -/
def notOneOf (path : String) (values : List String) : ScriptError :=
  .text ("field \x60" ++ path ++ "\x60 must be one of [" ++ String.intercalate ", " values ++ "]")

namespace FieldRef

/-- `FieldRef::new`. -/
def new (payload : Value) (path : String) (presence : FieldPresence) : FieldRef where
  payload := payload
  path := path
  presence := presence
  fieldType := none
  ignoreCase := false

/-- **`value_for_chained_validation`**: the value, unless it is missing or null. -/
def valueForChainedValidation (field : FieldRef) : Option Value :=
  let value := lookupPath field.payload field.path
  if field.presence = .optional && !existsNonNull value then none
  else value.filter fun value => value ≠ .null

/-- **`validate_chained_type`.** The type is set before the value is looked at. -/
def validateChainedType (field : FieldRef) (fieldType : FieldType) : Except ScriptError FieldRef :=
  let field := { field with fieldType := some fieldType }
  match field.valueForChainedValidation with
  | none => .ok field
  | some value =>
    if fieldType.matchesValue value then .ok field
    else .error (typeMismatchError field.path fieldType)

/-- `string`. -/
def string (field : FieldRef) : Except ScriptError FieldRef := field.validateChainedType .string

/-- `number`. -/
def number (field : FieldRef) : Except ScriptError FieldRef := field.validateChainedType .number

/-- `integer`. -/
def integer (field : FieldRef) : Except ScriptError FieldRef := field.validateChainedType .integer

/-- `boolean`. -/
def boolean (field : FieldRef) : Except ScriptError FieldRef := field.validateChainedType .boolean

/-- `object`. -/
def object (field : FieldRef) : Except ScriptError FieldRef := field.validateChainedType .object

/-- `array`. -/
def array (field : FieldRef) : Except ScriptError FieldRef := field.validateChainedType .array

/-- `min_int`: a length for texts, in characters; other values pass. -/
def minInt (field : FieldRef) (threshold : Int64) : Except ScriptError FieldRef :=
  match field.valueForChainedValidation with
  | none => .ok field
  | some value =>
    match value.asStr with
    | none => .ok field
    | some text =>
      if text.length < (max threshold.toInt 0).toNat then
        .error (.text ("field \x60" ++ field.path ++ "\x60 length must be at least "
          ++ toString threshold.toInt))
      else .ok field

/-- `ignore_case`. -/
def setIgnoreCase (field : FieldRef) : FieldRef := { field with ignoreCase := true }

/-- **`enum_strings`**: the list is looked at before the value. -/
def enumStrings (field : FieldRef) (values : List Dynamic) : Except ScriptError FieldRef :=
  if field.fieldType ≠ some .string then
    .error (.text ("enum for field \x60" ++ field.path ++ "\x60 must follow string()"))
  else
    match dynamicArrayToStringEnum values field.path with
    | .error error => .error error
    | .ok enumValues =>
      if enumValues.isEmpty then
        .error (.text ("enum values for field \x60" ++ field.path ++ "\x60 must not be empty"))
      else
        match field.valueForChainedValidation with
        | none => .ok field
        | some value =>
          match value.asStr with
          | none => .error (typeMismatchError field.path .string)
          | some actual =>
            if enumValues.any fun expected => stringsEqual actual expected field.ignoreCase then
              .ok field
            else .error (notOneOf field.path enumValues)

/-- **`one_of`**: letters always lose their case here. -/
def oneOf (field : FieldRef) (values : List Dynamic) : Except ScriptError FieldRef :=
  match field.valueForChainedValidation with
  | none => .ok field
  | some value =>
    match value.asStr with
    | none => .error (typeMismatchError field.path .string)
    | some actual =>
      let enumValues := dynamicArrayToStrings values
      if enumValues.any fun expected => eqIgnoreAsciiCase expected actual then .ok field
      else .error (notOneOf field.path enumValues)

/-- **`compare_number`.** -/
def compareNumber (field : FieldRef) (comparison : NumberComparison) (threshold : Float.Model) :
    Except ScriptError FieldRef :=
  match field.valueForChainedValidation with
  | none => .ok field
  | some value =>
    match asF64 value with
    | none => .error (.text ("field \x60" ++ field.path ++ "\x60 could not be represented as f64"))
    | some number =>
      if comparison.matchesNumbers number threshold then .ok field
      else
        .error (.threshold ("field \x60" ++ field.path ++ "\x60 must be "
          ++ comparison.description ++ " ") threshold)

/-- `gt_int`. -/
def gtInt (field : FieldRef) (threshold : Int64) : Except ScriptError FieldRef :=
  field.compareNumber .gt (Float.Model.ofInt64 threshold)

/-- `gt_float`. -/
def gtFloat (field : FieldRef) (threshold : Float.Model) : Except ScriptError FieldRef :=
  field.compareNumber .gt threshold

/-- `gte_int`. -/
def gteInt (field : FieldRef) (threshold : Int64) : Except ScriptError FieldRef :=
  field.compareNumber .gte (Float.Model.ofInt64 threshold)

/-- `gte_float`. -/
def gteFloat (field : FieldRef) (threshold : Float.Model) : Except ScriptError FieldRef :=
  field.compareNumber .gte threshold

/-- `lt_int`. -/
def ltInt (field : FieldRef) (threshold : Int64) : Except ScriptError FieldRef :=
  field.compareNumber .lt (Float.Model.ofInt64 threshold)

/-- `lt_float`. -/
def ltFloat (field : FieldRef) (threshold : Float.Model) : Except ScriptError FieldRef :=
  field.compareNumber .lt threshold

/-- `lte_int`. -/
def lteInt (field : FieldRef) (threshold : Int64) : Except ScriptError FieldRef :=
  field.compareNumber .lte (Float.Model.ofInt64 threshold)

/-- `lte_float`. -/
def lteFloat (field : FieldRef) (threshold : Float.Model) : Except ScriptError FieldRef :=
  field.compareNumber .lte threshold

/-- `exists`. -/
def exists_ (field : FieldRef) : Bool := isPresent (lookupPath field.payload field.path)

/-- `missing`. -/
def missing (field : FieldRef) : Bool := !field.exists_

end FieldRef

/-- `AnyFields::required`. -/
def AnyFields.required (fields : AnyFields) : Except ScriptError AnyFields :=
  if fields.paths.any fun path => isPresent (lookupPath fields.payload path) then .ok fields
  else .error (.text ("at least one field is required: " ++ String.intercalate ", " fields.paths))

/-! ### Starts -/

section Starts

variable [EventMap]

/-- `map_to_json`. -/
def mapToJson (event : EventMap.Map) : Except ScriptError Value :=
  (EventMap.fromDynamic event).mapError fun error =>
    .text ("failed to read processor event as json: " ++ error)

/-- `map_field`. -/
def mapField (event : EventMap.Map) (path : String) : Except ScriptError FieldRef :=
  (mapToJson event).map fun payload => FieldRef.new payload path .inspect

/-- **`map_required`.** -/
def mapRequired (event : EventMap.Map) (path : String) : Except ScriptError FieldRef :=
  (mapToJson event).bind fun payload =>
    let field := FieldRef.new payload path .required
    if !existsNonNull (lookupPath field.payload field.path) then
      .error (.text ("missing required field \x60" ++ field.path ++ "\x60"))
    else .ok field

/-- `map_optional`. -/
def mapOptional (event : EventMap.Map) (path : String) : Except ScriptError FieldRef :=
  (mapToJson event).map fun payload => FieldRef.new payload path .optional

/-- `map_any`. -/
def mapAny (event : EventMap.Map) (paths : List Dynamic) : Except ScriptError AnyFields :=
  (mapToJson event).map fun payload =>
    { payload := payload, paths := dynamicArrayToStrings paths }

/-- A start of a chain. -/
inductive Start
  | required
  | optional
  | field
  deriving DecidableEq

/-- The field that a chain starts with. -/
def Start.open (start : Start) (event : EventMap.Map) (path : String) : Except ScriptError FieldRef :=
  match start with
  | .required => mapRequired event path
  | .optional => mapOptional event path
  | .field => mapField event path

end Starts

/-! ### Chains -/

/-- **A call of a chain**, as `register_event_api` names it, with its arguments. -/
inductive Call
  | string
  | number
  | integer
  | boolean
  | object
  | array
  | min (threshold : Int64)
  | ignoreCase
  | enum (values : List Dynamic)
  | oneOf (values : List Dynamic)
  | gtInt (threshold : Int64)
  | gtFloat (threshold : Float.Model)
  | gteInt (threshold : Int64)
  | gteFloat (threshold : Float.Model)
  | ltInt (threshold : Int64)
  | ltFloat (threshold : Float.Model)
  | lteInt (threshold : Int64)
  | lteFloat (threshold : Float.Model)

/-- The function that a call means. -/
def Call.run (call : Call) (field : FieldRef) : Except ScriptError FieldRef :=
  match call with
  | .string => field.string
  | .number => field.number
  | .integer => field.integer
  | .boolean => field.boolean
  | .object => field.object
  | .array => field.array
  | .min threshold => field.minInt threshold
  | .ignoreCase => .ok field.setIgnoreCase
  | .enum values => field.enumStrings values
  | .oneOf values => field.oneOf values
  | .gtInt threshold => field.gtInt threshold
  | .gtFloat threshold => field.gtFloat threshold
  | .gteInt threshold => field.gteInt threshold
  | .gteFloat threshold => field.gteFloat threshold
  | .ltInt threshold => field.ltInt threshold
  | .ltFloat threshold => field.ltFloat threshold
  | .lteInt threshold => field.lteInt threshold
  | .lteFloat threshold => field.lteFloat threshold

/-- The calls of a chain, one after the other; the first error ends it. -/
def runCalls (field : FieldRef) : List Call → Except ScriptError FieldRef
  | [] => .ok field
  | call :: calls => (call.run field).bind fun field => runCalls field calls

/-- **A chain**: a start, and the calls after it. -/
def chain [EventMap] (start : Start) (event : EventMap.Map) (path : String) (calls : List Call) :
    Except ScriptError FieldRef :=
  (start.open event path).bind fun field => runCalls field calls

/-- A script error is raised. -/
def Raises {α : Type} (result : Except ScriptError α) : Prop := ∃ error, result = .error error

end Ingest4x.Rhai
