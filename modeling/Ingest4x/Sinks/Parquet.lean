import Ingest4x.Effect.Result
import Ingest4x.Sinks.Config
import Mathlib.Data.List.Forall2
import Mathlib.Data.List.Nodup

/-! # Parquet files

The events of a batch as a table: a column for each configured path, and the whole events as texts. The
arrays and the file format belong to the Arrow crates: a builder of an array appends to a list, and what
a record batch and a file are made of is a parameter (`ArrowParquet`).

* **`encodeEventsAsParquet`** — the columns of the events, written to a file.
* **`ColumnConfig.Fits` / `ColumnConfig.cell`** — when an event has a value for a column, and which.
* **`projectColumn_ok`** — a column has one row for each event.
* **`encodeEventsAsParquet_rows`** — the files that are written. -/

namespace Ingest4x.Sinks.Parquet

open Result

/-! ### Values -/

/-- `Value::as_f64`: every number has one. -/
def asF64 : Value → Option Float
  | .number (.posInt n) => some n.toFloat
  | .number (.negInt n) => some n.toFloat
  | .number (.float bits) => some (Float.ofBits bits)
  | _ => none

/-- `Value::as_i64`. -/
def asI64 : Value → Option Int64
  | .number (.posInt n) => if n.toNat < 2 ^ 63 then some n.toInt64 else none
  | .number (.negInt n) => some n
  | _ => none

/-- `Value::as_u64`. -/
def asU64 : Value → Option UInt64
  | .number (.posInt n) => some n
  | _ => none

/-- `Value::as_bool`. -/
def asBool : Value → Option Bool
  | .bool b => some b
  | _ => none

/-- `json_i64`. -/
def jsonI64 (value : Value) : Option Int64 :=
  (asI64 value).orElse fun _ =>
    (asU64 value).bind fun n => if n.toNat < 2 ^ 63 then some n.toInt64 else none

/-- `json_type_name`. -/
def jsonTypeName : Value → String
  | .null => "null"
  | .bool _ => "boolean"
  | .number _ => "number"
  | .string _ => "string"
  | .array _ => "array"
  | .object _ => "object"

/-- The loop of `extract_path` over the segments of a path. -/
def extractSegments (current : Value) : List String → Option Value
  | [] => some current
  | segment :: segments =>
    if segment = "" then none
    else (current.get segment).bind fun next => extractSegments next segments

/-- `extract_path`. -/
def extractPath (event : Value) (path : String) : Option Value :=
  if path = "$" then some event
  else extractSegments event ((path.toList.splitOn '.').map String.ofList)

/-- `is_missing_or_null`. -/
def isMissingOrNull (event : Value) (path : String) : Bool :=
  match extractPath event path with
  | none => true
  | some .null => true
  | some _ => false

/-! ### Arrays -/

/-- `arrow_schema::DataType`, as far as it is used. -/
inductive DataType
  | utf8
  | float64
  | int64
  | boolean
  deriving DecidableEq

/-- `arrow_data_type`. -/
def arrowDataType : ColumnType → DataType
  | .string => .utf8
  | .json => .utf8
  | .number => .float64
  | .integer => .int64
  | .boolean => .boolean

/-- **An Arrow array**: its rows, which may be null. -/
inductive ArrowArray
  | utf8 (rows : List (Option String))
  | float64 (rows : List (Option Float))
  | int64 (rows : List (Option Int64))
  | boolean (rows : List (Option Bool))

/-- A value in a row. -/
inductive Cell
  | utf8 (text : String)
  | float64 (value : Float)
  | int64 (value : Int64)
  | boolean (value : Bool)

/-- The type of an array. -/
def ArrowArray.dataType : ArrowArray → DataType
  | .utf8 _ => .utf8
  | .float64 _ => .float64
  | .int64 _ => .int64
  | .boolean _ => .boolean

/-- The rows of an array. -/
def ArrowArray.rows : ArrowArray → List (Option Cell)
  | .utf8 rows => rows.map (Option.map .utf8)
  | .float64 rows => rows.map (Option.map .float64)
  | .int64 rows => rows.map (Option.map .int64)
  | .boolean rows => rows.map (Option.map .boolean)

/-- `arrow_schema::Field`. -/
structure ArrowField where
  name : String
  dataType : DataType
  nullable : Bool
  deriving DecidableEq

/-- **The Arrow crates**: `RecordBatch::try_new`, and `ArrowWriter` with the bytes that it writes. -/
class ArrowParquet where
  RecordBatch : Type
  File : Type
  tryNew : List ArrowField → List ArrowArray → Except String RecordBatch
  write : RecordBatch → Except String File

/-- **`serde_json::to_string`** of a value. -/
class JsonText where
  toText : Value → Except String String

/-! ### Rows -/

/-- The error for a required column that is missing. -/
def missingRequired (column : ColumnConfig) : String :=
  "missing required parquet column \x60" ++ column.name ++ "\x60"

/-- The error for a value of another type. -/
def unexpectedType (column : ColumnConfig) (expected got : String) : String :=
  "parquet column \x60" ++ column.name ++ "\x60 expected " ++ expected ++ ", got " ++ got

/-- A row of a string column. -/
def stringRow (column : ColumnConfig) (event : Value) : Except String (Option String) :=
  match extractPath event column.path with
  | some (.string value) => .ok (some value)
  | some .null | none =>
    if column.nullable then .ok none else .error (missingRequired column)
  | some value => .error (unexpectedType column "string" (jsonTypeName value))

/-- **A row of a column** whose values `read` takes from the JSON values. -/
def typedRow {α : Type} (expected : String) (read : Value → Option α) (column : ColumnConfig)
    (event : Value) : Except String (Option α) :=
  match (extractPath event column.path).bind read with
  | some value => .ok (some value)
  | none =>
    if isMissingOrNull event column.path && column.nullable then .ok none
    else if isMissingOrNull event column.path then .error (missingRequired column)
    else
      .error (unexpectedType column expected
        (((extractPath event column.path).map jsonTypeName).getD "missing"))

/-- A row of a number column. -/
def numberRow : ColumnConfig → Value → Except String (Option Float) := typedRow "number" asF64

/-- A row of an integer column. -/
def integerRow : ColumnConfig → Value → Except String (Option Int64) := typedRow "integer" jsonI64

/-- A row of a boolean column. -/
def booleanRow : ColumnConfig → Value → Except String (Option Bool) := typedRow "boolean" asBool

/-- A row of a JSON column. -/
def jsonRow [JsonText] (column : ColumnConfig) (event : Value) : Except String (Option String) :=
  match extractPath event column.path with
  | some .null | none =>
    if column.nullable then .ok none else .error (missingRequired column)
  | some value => (JsonText.toText value).map some

/-- A row of the events as texts. -/
def eventJsonRow [JsonText] (event : Value) : Except String (Option String) :=
  (JsonText.toText event).map some

/-! ### Columns -/

/-- The loop over the events, with a builder that has the rows so far. -/
def projectRows {α : Type} (row : Value → Except String (Option α)) :
    List Value → List (Option α) → Except String (List (Option α))
  | [], builder => .ok builder
  | event :: events, builder =>
    match row event with
    | .error message => .error message
    | .ok cell => projectRows row events (builder ++ [cell])

section Encode

variable [JsonText]

/-- `project_column`. -/
def projectColumn (events : List Value) (column : ColumnConfig) : Except String ArrowArray :=
  match column.dataType with
  | .string => (projectRows (stringRow column) events []).map .utf8
  | .number => (projectRows (numberRow column) events []).map .float64
  | .integer => (projectRows (integerRow column) events []).map .int64
  | .boolean => (projectRows (booleanRow column) events []).map .boolean
  | .json => (projectRows (jsonRow column) events []).map .utf8

/-- `build_event_json_array`. -/
def buildEventJsonArray (events : List Value) : Except String ArrowArray :=
  (projectRows eventJsonRow events []).map .utf8

/-- The field of a column. -/
def columnField (column : ColumnConfig) : ArrowField :=
  ⟨column.name, arrowDataType column.dataType, column.nullable⟩

/-- The loop over the columns. -/
def projectColumns (events : List Value) :
    List ColumnConfig → List ArrowField → List ArrowArray →
    Except String (List ArrowField × List ArrowArray)
  | [], fields, arrays => .ok (fields, arrays)
  | column :: columns, fields, arrays => do
    let array ← projectColumn events column
    projectColumns events columns (fields ++ [columnField column]) (arrays ++ [array])

/-- The columns of the events, and the events as texts. -/
def projectEvents (events : List Value) (columns : List ColumnConfig) (includeEventJson : Bool) :
    Except String (List ArrowField × List ArrowArray) := do
  let (fields, arrays) ← projectColumns events columns [] []
  if includeEventJson then do
    let array ← buildEventJsonArray events
    pure (fields ++ [⟨"event_json", .utf8, false⟩], arrays ++ [array])
  else pure (fields, arrays)

/-- **`encode_events_as_parquet`.** -/
def encodeEventsAsParquet [ArrowParquet] (events : List Value) (columns : List ColumnConfig)
    (includeEventJson : Bool) : Except String ArrowParquet.File := do
  let (fields, arrays) ← projectEvents events columns includeEventJson
  let batch ← ArrowParquet.tryNew fields arrays
  ArrowParquet.write batch

end Encode

/-! ### What a column holds -/

/-- **The value has the type of a column.** -/
inductive HasType : ColumnType → Value → Prop
  | string (text : String) : HasType .string (.string text)
  | number (n : Number) : HasType .number (.number n)
  | posInt (n : UInt64) (hfits : n.toNat < 2 ^ 63) : HasType .integer (.number (.posInt n))
  | negInt (n : Int64) : HasType .integer (.number (.negInt n))
  | boolean (b : Bool) : HasType .boolean (.bool b)
  | json (value : Value) (hnull : value ≠ .null) : HasType .json value

/-- There is no value at the path, or it is null. -/
def MissingOrNull (event : Value) (path : String) : Prop :=
  extractPath event path = none ∨ extractPath event path = some .null

theorem isMissingOrNull_iff {event : Value} {path : String} :
    isMissingOrNull event path = true ↔ MissingOrNull event path := by
  rw [isMissingOrNull, MissingOrNull]
  cases extractPath event path with
  | none => simp
  | some value => cases value <;> simp

/-- **An event fits a column**: its value has the type of the column, or there is none and the column is
nullable. -/
def ColumnConfig.Fits (column : ColumnConfig) (event : Value) : Prop :=
  (∃ value, extractPath event column.path = some value ∧ HasType column.dataType value) ∨
    (MissingOrNull event column.path ∧ column.nullable = true)

section Cells

variable [JsonText]

/-- A JSON value as one of a type. -/
def readCell : ColumnType → Value → Option Cell
  | .string, value => value.asStr.map .utf8
  | .number, value => (asF64 value).map .float64
  | .integer, value => (jsonI64 value).map .int64
  | .boolean, value => (asBool value).map .boolean
  | .json, value => if value = .null then none else (JsonText.toText value).toOption.map .utf8

/-- **The row of an event in a column.** -/
def ColumnConfig.cell (column : ColumnConfig) (event : Value) : Option Cell :=
  (extractPath event column.path).bind (readCell column.dataType)

/-- The row of an event as text. -/
def eventJsonCell (event : Value) : Option Cell := (JsonText.toText event).toOption.map .utf8

/-- Every JSON value has a text. -/
def Prints : Prop := ∀ value, ∃ text, JsonText.toText value = .ok text

omit [JsonText] in
@[simp] theorem jsonI64_posInt (n : UInt64) :
    jsonI64 (.number (.posInt n)) = if n.toNat < 2 ^ 63 then some n.toInt64 else none := by
  rw [jsonI64, asI64, asU64]
  split_ifs with hfits
  · rfl
  · exact if_neg hfits

/-- **A value can be read as a type** if and only if it has it. -/
theorem isSome_readCell (hprints : Prints) {dataType : ColumnType} {value : Value} :
    (readCell dataType value).isSome = true ↔ HasType dataType value := by
  constructor
  · intro h
    cases dataType with
    | string =>
      cases value <;> first | exact .string _ | cases h
    | number =>
      cases value <;> first | exact .number _ | cases h
    | boolean =>
      cases value <;> first | exact .boolean _ | cases h
    | json =>
      refine .json value fun hnull => ?_
      rw [readCell, if_pos hnull] at h
      cases h
    | integer =>
      cases value with
      | number n =>
        cases n with
        | posInt n =>
          rw [readCell, jsonI64_posInt] at h
          split_ifs at h with hfits
          · exact .posInt n hfits
          · cases h
        | negInt n => exact .negInt n
        | float bits => cases h
      | null | bool _ | string _ | array _ | object _ => cases h
  · intro h
    cases h with
    | string text => rfl
    | number n => cases n <;> rfl
    | posInt n hfits =>
      rw [readCell, jsonI64_posInt, if_pos hfits]
      rfl
    | negInt n => rfl
    | boolean b => rfl
    | json value hnull =>
      obtain ⟨text, htext⟩ := hprints value
      rw [readCell, if_neg hnull, htext]
      rfl

/-- Null has no type. -/
theorem readCell_null (dataType : ColumnType) : readCell dataType .null = none := by
  cases dataType <;> rfl

/-- **The row of an event that fits** is null exactly where there is no value. -/
theorem ColumnConfig.cell_eq_none_iff (hprints : Prints) {column : ColumnConfig} {event : Value}
    (hfits : column.Fits event) : column.cell event = none ↔ MissingOrNull event column.path := by
  constructor
  · intro hnone
    rcases hfits with ⟨value, hvalue, htype⟩ | ⟨hmissing, -⟩
    · rw [cell, hvalue, Option.bind_some] at hnone
      have hsome := (isSome_readCell hprints).mpr htype
      rw [hnone] at hsome
      cases hsome
    · exact hmissing
  · rintro (hnone | hnull)
    · rw [cell, hnone, Option.bind_none]
    · rw [cell, hnull, Option.bind_some, readCell_null]

end Cells

/-! ### Rows and columns as they are projected -/

/-- The string column is one of the typed columns. -/
theorem stringRow_eq (column : ColumnConfig) (event : Value) :
    stringRow column event = typedRow "string" Value.asStr column event := by
  rw [stringRow, typedRow, isMissingOrNull]
  cases extractPath event column.path with
  | none => cases column.nullable <;> rfl
  | some value => cases value <;> cases column.nullable <;> rfl

/-- **A row as its specification has it**: there is one if and only if the event fits, and it is the
event's cell. -/
structure RowOf {α : Type} (wrap : α → Cell) (row : Value → Except String (Option α))
    (fits : Value → Prop) (cell : Value → Option Cell) : Prop where
  isOk : ∀ event, (∃ a, row event = .ok a) ↔ fits event
  eq : ∀ event a, row event = .ok a → a.map wrap = cell event

/-- **The rows of a column** that has its rows as specified: one for each event. -/
theorem RowOf.projectRows_ok {α : Type} {wrap : α → Cell} {row : Value → Except String (Option α)}
    {fits : Value → Prop} {cell : Value → Option Cell} (h : RowOf wrap row fits cell)
    (events : List Value) (builder : List (Option α)) :
    ((∃ rows, projectRows row events builder = .ok rows) ↔ ∀ event ∈ events, fits event) ∧
      ∀ rows, projectRows row events builder = .ok rows →
        rows.map (Option.map wrap) = builder.map (Option.map wrap) ++ events.map cell := by
  induction events generalizing builder with
  | nil =>
    refine ⟨⟨fun _ _ hmem => absurd hmem List.not_mem_nil, fun _ => ⟨builder, rfl⟩⟩, ?_⟩
    rintro rows ⟨⟩
    rw [List.map_nil, List.append_nil]
  | cons event events ih =>
    rw [projectRows]
    cases hrow : row event with
    | error message =>
      have hnot : ¬fits event := by
        rw [← h.isOk event, hrow]
        rintro ⟨a, ⟨⟩⟩
      refine ⟨⟨?_, fun hall => absurd (hall event List.mem_cons_self) hnot⟩, ?_⟩
      · rintro ⟨rows, ⟨⟩⟩
      · rintro rows ⟨⟩
    | ok a =>
      obtain ⟨hisOk, hrows⟩ := ih (builder ++ [a])
      have hfits : fits event := (h.isOk event).mp ⟨a, hrow⟩
      refine ⟨?_, fun rows hok => ?_⟩
      · rw [List.forall_mem_cons, and_iff_right hfits]
        exact hisOk
      · rw [hrows rows hok, List.map_append, List.map_singleton, List.append_assoc,
          List.singleton_append, h.eq event a hrow, List.map_cons]

section Projection

variable [JsonText]

/-- **The rows of a typed column.** -/
theorem rowOf_typedRow (hprints : Prints) {α : Type} {wrap : α → Cell} {expected : String}
    {read : Value → Option α} {column : ColumnConfig}
    (hread : ∀ value, readCell column.dataType value = (read value).map wrap) :
    RowOf wrap (typedRow expected read column) column.Fits column.cell where
  isOk event := by
    rw [typedRow, ColumnConfig.Fits]
    cases hvalue : (extractPath event column.path).bind read with
    | some a =>
      obtain ⟨value, hextract, ha⟩ := Option.bind_eq_some_iff.mp hvalue
      refine iff_of_true ⟨_, rfl⟩ (Or.inl ⟨value, hextract, (isSome_readCell hprints).mp ?_⟩)
      rw [hread, ha]
      rfl
    | none =>
      have hnot : ¬∃ value, extractPath event column.path = some value ∧
          HasType column.dataType value := by
        rintro ⟨value, hextract, htype⟩
        have hsome := (isSome_readCell hprints).mpr htype
        rw [hextract, Option.bind_some] at hvalue
        rw [hread, hvalue] at hsome
        cases hsome
      rw [or_iff_right hnot, ← isMissingOrNull_iff]
      cases isMissingOrNull event column.path <;> cases column.nullable <;> simp
  eq event a := by
    rw [typedRow, ColumnConfig.cell]
    have hcell : (extractPath event column.path).bind (readCell column.dataType) =
        ((extractPath event column.path).bind read).map wrap := by
      cases extractPath event column.path with
      | none => rfl
      | some value => exact hread value
    rw [hcell]
    cases (extractPath event column.path).bind read with
    | some b =>
      rintro ⟨⟩
      rfl
    | none =>
      dsimp only
      split_ifs
      · rintro ⟨⟩
        rfl
      · rintro ⟨⟩
      · rintro ⟨⟩

/-- **The rows of a JSON column.** -/
theorem rowOf_jsonRow (hprints : Prints) {column : ColumnConfig} (htype : column.dataType = .json) :
    RowOf .utf8 (jsonRow column) column.Fits column.cell where
  isOk event := by
    rw [jsonRow, ColumnConfig.Fits, MissingOrNull, htype]
    cases extractPath event column.path with
    | none => cases column.nullable <;> simp
    | some value =>
      by_cases hnull : value = .null
      · subst hnull
        have hnot : ¬HasType .json .null := fun h => by
          cases h with
          | json _ hne => exact hne rfl
        cases column.nullable <;> simp [hnot]
      · obtain ⟨text, htext⟩ := hprints value
        have hrow : (∃ a, (JsonText.toText value).map some = .ok a) := ⟨some text, by rw [htext]; rfl⟩
        cases value with
        | null => exact absurd rfl hnull
        | bool _ | number _ | string _ | array _ | object _ =>
          exact iff_of_true hrow (Or.inl ⟨_, rfl, .json _ hnull⟩)
  eq event a := by
    rw [jsonRow, ColumnConfig.cell, htype]
    have hmissing : (if column.nullable then (.ok none : Except String (Option String))
        else .error (missingRequired column)) = .ok a → a.map Cell.utf8 = none := by
      split_ifs
      · rintro ⟨⟩
        rfl
      · rintro ⟨⟩
    cases extractPath event column.path with
    | none => exact hmissing
    | some value =>
      by_cases hnull : value = .null
      · subst hnull
        exact hmissing
      · obtain ⟨text, htext⟩ := hprints value
        have hrow : (JsonText.toText value).map some = .ok a →
            a.map Cell.utf8 = readCell .json value := by
          rw [readCell, if_neg hnull, htext]
          rintro ⟨⟩
          rfl
        cases value with
        | null => exact absurd rfl hnull
        | bool _ | number _ | string _ | array _ | object _ => exact hrow

/-- The rows of the events as texts. -/
theorem rowOf_eventJsonRow (hprints : Prints) :
    RowOf .utf8 eventJsonRow (fun _ => True) eventJsonCell where
  isOk event := by
    obtain ⟨text, htext⟩ := hprints event
    rw [eventJsonRow, htext]
    exact iff_of_true ⟨some text, rfl⟩ trivial
  eq event a := by
    obtain ⟨text, htext⟩ := hprints event
    rw [eventJsonRow, eventJsonCell, htext]
    rintro ⟨⟩
    rfl

omit [JsonText] in
/-- An array of projected rows. -/
theorem RowOf.array_ok {α : Type} {wrap : α → Cell} {row : Value → Except String (Option α)}
    {fits : Value → Prop} {cell : Value → Option Cell} (h : RowOf wrap row fits cell)
    (make : List (Option α) → ArrowArray) {dataType : DataType}
    (hrows : ∀ rows, (make rows).rows = rows.map (Option.map wrap))
    (htype : ∀ rows, (make rows).dataType = dataType) (events : List Value) :
    ((∃ array, (projectRows row events []).map make = .ok array) ↔ ∀ event ∈ events, fits event) ∧
      ∀ array, (projectRows row events []).map make = .ok array →
        array.dataType = dataType ∧ array.rows = events.map cell := by
  obtain ⟨hisOk, hcells⟩ := h.projectRows_ok events []
  refine ⟨?_, fun array harray => ?_⟩
  · rw [← hisOk]
    cases projectRows row events [] with
    | error message => simp [Except.map]
    | ok rows => simp [Except.map]
  · obtain ⟨rows, hok, rfl⟩ := map_eq_ok.mp harray
    exact ⟨htype rows, (hrows rows).trans (hcells rows hok)⟩

/-- **A column has one row for each event**, and is projected if and only if every event fits. -/
theorem projectColumn_ok (hprints : Prints) (events : List Value) (column : ColumnConfig) :
    ((∃ array, projectColumn events column = .ok array) ↔ ∀ event ∈ events, column.Fits event) ∧
      ∀ array, projectColumn events column = .ok array →
        array.dataType = arrowDataType column.dataType ∧ array.rows = events.map column.cell := by
  rw [projectColumn]
  cases htype : column.dataType with
  | string =>
    have hrow : RowOf .utf8 (stringRow column) column.Fits column.cell := by
      rw [funext (stringRow_eq column)]
      exact rowOf_typedRow hprints fun value => by rw [htype]; rfl
    exact hrow.array_ok .utf8 (fun _ => rfl) (fun _ => rfl) events
  | number =>
    have hrow : RowOf .float64 (numberRow column) column.Fits column.cell :=
      rowOf_typedRow hprints fun value => by rw [htype]; rfl
    exact hrow.array_ok .float64 (fun _ => rfl) (fun _ => rfl) events
  | integer =>
    have hrow : RowOf .int64 (integerRow column) column.Fits column.cell :=
      rowOf_typedRow hprints fun value => by rw [htype]; rfl
    exact hrow.array_ok .int64 (fun _ => rfl) (fun _ => rfl) events
  | boolean =>
    have hrow : RowOf .boolean (booleanRow column) column.Fits column.cell :=
      rowOf_typedRow hprints fun value => by rw [htype]; rfl
    exact hrow.array_ok .boolean (fun _ => rfl) (fun _ => rfl) events
  | json =>
    exact (rowOf_jsonRow hprints htype).array_ok .utf8 (fun _ => rfl) (fun _ => rfl) events

/-- **The array of a column**: the rows are the cells of the events. -/
structure IsColumn (events : List Value) (column : ColumnConfig) (array : ArrowArray) : Prop where
  dataType : array.dataType = arrowDataType column.dataType
  rows : array.rows = events.map column.cell

/-- **The loop over the columns** makes a field and an array of each, if every event fits each. -/
theorem projectColumns_ok (hprints : Prints) (events : List Value) (columns : List ColumnConfig)
    (fields : List ArrowField) (arrays : List ArrowArray) :
    ((∃ table, projectColumns events columns fields arrays = .ok table) ↔
        ∀ column ∈ columns, ∀ event ∈ events, column.Fits event) ∧
      ∀ table, projectColumns events columns fields arrays = .ok table →
        ∃ arrays', table = (fields ++ columns.map columnField, arrays ++ arrays') ∧
          List.Forall₂ (IsColumn events) columns arrays' := by
  induction columns generalizing fields arrays with
  | nil =>
    refine ⟨⟨fun _ _ hmem => absurd hmem List.not_mem_nil, fun _ => ⟨_, rfl⟩⟩, ?_⟩
    rintro table ⟨⟩
    exact ⟨[], by simp, List.Forall₂.nil⟩
  | cons column columns ih =>
    obtain ⟨hisOk, hcolumn⟩ := projectColumn_ok hprints events column
    rw [projectColumns, List.forall_mem_cons, ← hisOk]
    cases hproject : projectColumn events column with
    | error message =>
      refine ⟨⟨?_, ?_⟩, ?_⟩
      · rintro ⟨table, ⟨⟩⟩
      · rintro ⟨⟨array, ⟨⟩⟩, -⟩
      · rintro table ⟨⟩
    | ok array =>
      obtain ⟨hisOk', htable⟩ := ih (fields ++ [columnField column]) (arrays ++ [array])
      refine ⟨?_, fun table hok => ?_⟩
      · rw [and_iff_right ⟨array, rfl⟩]
        exact hisOk'
      · obtain ⟨arrays', rfl, hall⟩ := htable table hok
        obtain ⟨htype, hrows⟩ := hcolumn array hproject
        refine ⟨array :: arrays', ?_, List.Forall₂.cons ⟨htype, hrows⟩ hall⟩
        simp only [List.append_assoc, List.singleton_append, List.map_cons]

end Projection

/-! ### The file -/

/-- **A table as a record batch has it**: fields of distinct names, an array of its type for each, as
many rows in all of them, and no null where a field is not nullable. -/
structure IsTable (fields : List ArrowField) (arrays : List ArrowArray) : Prop where
  nonempty : fields ≠ []
  names : (fields.map ArrowField.name).Nodup
  columns : List.Forall₂ (fun field array => array.dataType = field.dataType ∧
    (field.nullable = false → none ∉ array.rows)) fields arrays
  rows : ∃ n, ∀ array ∈ arrays, array.rows.length = n

/-- **The Arrow crates accept tables**: there is a record batch of each, and it can be written. -/
structure AcceptsTables [ArrowParquet] : Prop where
  tryNew : ∀ fields arrays, IsTable fields arrays → ∃ batch, ArrowParquet.tryNew fields arrays =
    .ok batch
  write : ∀ fields arrays batch, IsTable fields arrays →
    ArrowParquet.tryNew fields arrays = .ok batch → ∃ file, ArrowParquet.write batch = .ok file

/-- The names of the columns of a configuration that is valid. -/
theorem validateColumns_ok {names names' : List String} {columns : List ColumnConfig}
    (h : validateColumns names columns = .ok names') (hnames : names.Nodup) :
    names' = (columns.map ColumnConfig.name).reverse ++ names ∧ names'.Nodup := by
  induction columns generalizing names with
  | nil =>
    cases h
    exact ⟨rfl, hnames⟩
  | cons column columns ih =>
    rw [validateColumns] at h
    split at h
    · cases h
    · next hchecks =>
      have hnew : column.name ∉ names := by
        intro hmem
        rw [if_pos hmem] at hchecks
        simp only [validateRequiredString] at hchecks
        split_ifs at hchecks <;> cases hchecks
      obtain ⟨rfl, hnodup⟩ := ih h (List.nodup_cons.mpr ⟨hnew, hnames⟩)
      refine ⟨?_, hnodup⟩
      rw [List.map_cons, List.reverse_cons, List.append_assoc, List.singleton_append]

/-- The names of the fields: the configured ones, then that of the texts. -/
def fieldNames (columns : List ColumnConfig) (includeEventJson : Bool) : List String :=
  columns.map ColumnConfig.name ++ if includeEventJson then ["event_json"] else []

/-- **The names of a valid configuration** are distinct, and there is one. -/
theorem DestinationConfig.fieldNames_ok {config : DestinationConfig}
    (h : config.validate = .ok ()) :
    (fieldNames config.columns config.includeEventJson).Nodup ∧
      fieldNames config.columns config.includeEventJson ≠ [] := by
  rw [validate] at h
  split at h
  · cases h
  · next hchecks =>
    have hsome : ¬(config.columns = [] ∧ config.includeEventJson = false) := by
      intro hempty
      rw [if_pos hempty] at hchecks
      simp only [validateRequiredString] at hchecks
      split_ifs at hchecks <;> cases hchecks
    split at h
    · cases h
    · next names hnames =>
      obtain ⟨rfl, hnodup⟩ := validateColumns_ok hnames List.nodup_nil
      split_ifs at h with hconflict
      rw [List.append_nil] at hnodup hconflict
      rw [List.mem_reverse] at hconflict
      rw [fieldNames]
      constructor
      · have hnodup := List.pairwise_reverse.mp hnodup
        have hnodup : (config.columns.map ColumnConfig.name).Nodup := hnodup.imp Ne.symm
        cases hinclude : config.includeEventJson with
        | false => rwa [if_neg Bool.false_ne_true, List.append_nil]
        | true =>
          rw [if_pos rfl]
          refine List.nodup_append.mpr ⟨hnodup, List.nodup_singleton _, ?_⟩
          rintro name hmem _ hname rfl
          rw [List.mem_singleton.mp hname] at hmem
          exact hconflict ⟨hinclude, hmem⟩
      · intro hnil
        obtain ⟨hcolumns, hrest⟩ := List.append_eq_nil_iff.mp hnil
        refine hsome ⟨List.map_eq_nil_iff.mp hcolumns, ?_⟩
        cases hinclude : config.includeEventJson with
        | false => rfl
        | true =>
          rw [hinclude] at hrest
          cases hrest

section File

variable [JsonText]

/-- **The columns of a file**, each with a row for each event: the configured ones in order, then the
events as texts. -/
def tableColumns (events : List Value) (columns : List ColumnConfig) (includeEventJson : Bool) :
    List (ArrowField × List (Option Cell)) :=
  (columns.map fun column => (columnField column, events.map column.cell)) ++
    if includeEventJson then [(⟨"event_json", .utf8, false⟩, events.map eventJsonCell)] else []

/-- **The fields and the arrays of the events** are those columns. -/
structure TableOf (events : List Value) (columns : List ColumnConfig) (includeEventJson : Bool)
    (fields : List ArrowField) (arrays : List ArrowArray) : Prop where
  schema : fields = (tableColumns events columns includeEventJson).map Prod.fst
  types : arrays.map ArrowArray.dataType = fields.map ArrowField.dataType
  rows : arrays.map ArrowArray.rows = (tableColumns events columns includeEventJson).map Prod.snd

/-- The table of the configured columns. -/
theorem tableOf_columns {events : List Value} {columns : List ColumnConfig}
    {arrays : List ArrowArray} (h : List.Forall₂ (IsColumn events) columns arrays) :
    TableOf events columns false (columns.map columnField) arrays := by
  induction h with
  | nil => exact ⟨rfl, rfl, rfl⟩
  | cons hcolumn _ ih =>
    refine ⟨congrArg (List.cons _) ih.schema, ?_, ?_⟩
    · exact List.cons_eq_cons.mpr ⟨hcolumn.dataType, ih.types⟩
    · exact List.cons_eq_cons.mpr ⟨hcolumn.rows, ih.rows⟩

/-- The table with the events as texts. -/
theorem TableOf.withEventJson {events : List Value} {columns : List ColumnConfig}
    {fields : List ArrowField} {arrays : List ArrowArray} {array : ArrowArray}
    (h : TableOf events columns false fields arrays) (htype : array.dataType = .utf8)
    (hrows : array.rows = events.map eventJsonCell) :
    TableOf events columns true (fields ++ [⟨"event_json", .utf8, false⟩]) (arrays ++ [array]) where
  schema := by
    rw [h.schema]
    simp [tableColumns]
  types := by rw [List.map_append, List.map_append, h.types, List.map_singleton, htype]; rfl
  rows := by
    rw [List.map_append, h.rows, List.map_singleton, hrows]
    simp [tableColumns]

/-- **The columns of the events** are projected if and only if every event fits every column. -/
theorem projectEvents_ok (hprints : Prints) (events : List Value) (columns : List ColumnConfig)
    (includeEventJson : Bool) :
    ((∃ table, projectEvents events columns includeEventJson = .ok table) ↔
        ∀ column ∈ columns, ∀ event ∈ events, column.Fits event) ∧
      ∀ fields arrays, projectEvents events columns includeEventJson = .ok (fields, arrays) →
        TableOf events columns includeEventJson fields arrays := by
  obtain ⟨hisOk, htable⟩ := projectColumns_ok hprints events columns [] []
  have hjson := (rowOf_eventJsonRow hprints).array_ok .utf8 (fun _ => rfl) (fun _ => rfl) events
  rw [← hisOk, projectEvents]
  cases hcolumns : projectColumns events columns [] [] with
  | error message =>
    refine ⟨⟨?_, ?_⟩, ?_⟩
    · rintro ⟨table, ⟨⟩⟩
    · rintro ⟨table, ⟨⟩⟩
    · rintro fields arrays ⟨⟩
  | ok table =>
    obtain ⟨arrays, rfl, hall⟩ := htable table hcolumns
    have hcolumnTable := tableOf_columns hall
    obtain ⟨array, harray⟩ := hjson.1.mpr fun _ _ => trivial
    obtain ⟨htype, hrows⟩ := hjson.2 array harray
    have harray : buildEventJsonArray events = .ok array := harray
    cases includeEventJson with
    | false =>
      refine ⟨iff_of_true ⟨_, rfl⟩ ⟨_, rfl⟩, ?_⟩
      rintro fields arrays' ⟨⟩
      exact hcolumnTable
    | true =>
      rw [harray]
      refine ⟨iff_of_true ⟨_, rfl⟩ ⟨_, rfl⟩, ?_⟩
      rintro fields arrays' ⟨⟩
      exact hcolumnTable.withEventJson htype hrows

/-- The names of the fields of a table. -/
theorem TableOf.names {events : List Value} {columns : List ColumnConfig} {includeEventJson : Bool}
    {fields : List ArrowField} {arrays : List ArrowArray}
    (h : TableOf events columns includeEventJson fields arrays) :
    fields.map ArrowField.name = fieldNames columns includeEventJson := by
  rw [h.schema, fieldNames, tableColumns, List.map_map, List.map_append, List.map_map]
  cases includeEventJson <;> rfl

omit [JsonText] in
/-- Arrays with the types and the rows of columns that have no null where they may not. -/
theorem forall₂_of_columns {table : List (ArrowField × List (Option Cell))}
    {arrays : List ArrowArray}
    (htypes : arrays.map ArrowArray.dataType = (table.map Prod.fst).map ArrowField.dataType)
    (hrows : arrays.map ArrowArray.rows = table.map Prod.snd)
    (hnull : ∀ column ∈ table, column.1.nullable = false → none ∉ column.2) :
    List.Forall₂ (fun field array => array.dataType = field.dataType ∧
      (field.nullable = false → none ∉ array.rows)) (table.map Prod.fst) arrays := by
  induction table generalizing arrays with
  | nil =>
    rw [List.map_nil, List.map_eq_nil_iff] at hrows
    rw [hrows]
    exact List.Forall₂.nil
  | cons column table ih =>
    cases arrays with
    | nil => cases hrows
    | cons array arrays =>
      obtain ⟨htype, htypes⟩ := List.cons_eq_cons.mp htypes
      obtain ⟨hrow, hrows⟩ := List.cons_eq_cons.mp hrows
      refine List.Forall₂.cons ⟨htype, fun hnullable => ?_⟩ (ih htypes hrows fun column hmem =>
        hnull column (List.mem_cons_of_mem _ hmem))
      rw [hrow]
      exact hnull column List.mem_cons_self hnullable

/-- The cells of events that fit a column that is not nullable. -/
theorem ColumnConfig.Fits.cell_ne_none (hprints : Prints) {column : ColumnConfig} {event : Value}
    (h : column.Fits event) (hnullable : column.nullable = false) : column.cell event ≠ none := by
  rcases h with ⟨value, hvalue, htype⟩ | ⟨-, hnull⟩
  · rw [cell, hvalue, Option.bind_some, Option.ne_none_iff_isSome]
    exact (isSome_readCell hprints).mpr htype
  · rw [hnullable] at hnull
    cases hnull

/-- **The table of events that fit** is one that the Arrow crates accept. -/
theorem TableOf.isTable (hprints : Prints) {events : List Value} {config : DestinationConfig}
    {fields : List ArrowField} {arrays : List ArrowArray}
    (h : TableOf events config.columns config.includeEventJson fields arrays)
    (hvalid : config.validate = .ok ())
    (hfits : ∀ column ∈ config.columns, ∀ event ∈ events, column.Fits event) :
    IsTable fields arrays := by
  obtain ⟨hnodup, hne⟩ := DestinationConfig.fieldNames_ok hvalid
  rw [← h.names] at hnodup hne
  refine ⟨fun hnil => hne (by rw [hnil]; rfl), hnodup, ?_, events.length, fun array hmem => ?_⟩
  · have htypes := h.types
    rw [h.schema] at htypes ⊢
    refine forall₂_of_columns htypes h.rows fun column hcolumn hnullable hnone => ?_
    rcases List.mem_append.mp hcolumn with hcolumn | hcolumn
    · obtain ⟨config', hconfig', rfl⟩ := List.mem_map.mp hcolumn
      obtain ⟨event, hevent, hcell⟩ := List.mem_map.mp hnone
      exact (hfits config' hconfig' event hevent).cell_ne_none hprints hnullable hcell
    · split_ifs at hcolumn
      · rw [List.mem_singleton.mp hcolumn] at hnone
        obtain ⟨event, -, hcell⟩ := List.mem_map.mp hnone
        obtain ⟨text, htext⟩ := hprints event
        rw [eventJsonCell, htext] at hcell
        cases hcell
      · cases hcolumn
  · have hrows : array.rows ∈ arrays.map ArrowArray.rows := List.mem_map_of_mem hmem
    rw [h.rows] at hrows
    obtain ⟨column, hcolumn, heq⟩ := List.mem_map.mp hrows
    rw [← heq]
    rcases List.mem_append.mp hcolumn with hcolumn | hcolumn
    · obtain ⟨config', -, rfl⟩ := List.mem_map.mp hcolumn
      exact List.length_map ..
    · split_ifs at hcolumn
      · rw [List.mem_singleton.mp hcolumn]
        exact List.length_map ..
      · cases hcolumn

/-- **The projection is complete and row-aligned**, for every list of events and every valid
configuration. A file is written if and only if every event fits every column. It holds the configured
columns in order, and the events as texts where they are included, under distinct names, each with one
row for each event; a row is a function of its event, and null exactly where there is no value. -/
theorem encodeEventsAsParquet_rows [ArrowParquet] (hprints : Prints) (haccepts : AcceptsTables)
    {config : DestinationConfig} (hvalid : config.validate = .ok ()) (events : List Value) :
    ((∃ file, encodeEventsAsParquet events config.columns config.includeEventJson = .ok file) ↔
        ∀ column ∈ config.columns, ∀ event ∈ events, column.Fits event) ∧
      ∀ file, encodeEventsAsParquet events config.columns config.includeEventJson = .ok file →
        (∃ fields arrays batch, ArrowParquet.tryNew fields arrays = .ok batch ∧
          ArrowParquet.write batch = .ok file ∧
          TableOf events config.columns config.includeEventJson fields arrays) ∧
        (fieldNames config.columns config.includeEventJson).Nodup ∧
        ∀ column ∈ config.columns, ∀ event ∈ events,
          (column.cell event = none ↔ MissingOrNull event column.path) := by
  obtain ⟨hisOk, htable⟩ := projectEvents_ok hprints events config.columns config.includeEventJson
  have hfile : ∀ file, encodeEventsAsParquet events config.columns config.includeEventJson = .ok file →
      ∃ fields arrays batch, ArrowParquet.tryNew fields arrays = .ok batch ∧
        ArrowParquet.write batch = .ok file ∧
        projectEvents events config.columns config.includeEventJson = .ok (fields, arrays) := by
    intro file hok
    simp only [encodeEventsAsParquet, bind_eq_ok] at hok
    obtain ⟨⟨fields, arrays⟩, hproject, batch, hbatch, hwrite⟩ := hok
    exact ⟨fields, arrays, batch, hbatch, hwrite, hproject⟩
  refine ⟨⟨?_, fun hfits => ?_⟩, fun file hok => ?_⟩
  · rintro ⟨file, hok⟩
    obtain ⟨fields, arrays, -, -, -, hproject⟩ := hfile file hok
    exact hisOk.mp ⟨_, hproject⟩
  · obtain ⟨⟨fields, arrays⟩, hproject⟩ := hisOk.mpr hfits
    have htable := (htable fields arrays hproject).isTable hprints hvalid hfits
    obtain ⟨batch, hbatch⟩ := haccepts.tryNew fields arrays htable
    obtain ⟨file, hwrite⟩ := haccepts.write fields arrays batch htable hbatch
    refine ⟨file, ?_⟩
    simp only [encodeEventsAsParquet, bind_eq_ok]
    exact ⟨_, hproject, batch, hbatch, hwrite⟩
  · obtain ⟨fields, arrays, batch, hbatch, hwrite, hproject⟩ := hfile file hok
    have hfits := hisOk.mp ⟨_, hproject⟩
    exact ⟨⟨fields, arrays, batch, hbatch, hwrite, htable fields arrays hproject⟩,
      (DestinationConfig.fieldNames_ok hvalid).1,
      fun column hcolumn event hevent =>
        ColumnConfig.cell_eq_none_iff hprints (hfits column hcolumn event hevent)⟩

end File

section Sample

/-- A column of each of two types, the second nullable. -/
def sampleConfig : DestinationConfig where
  pathPrefix := "events"
  columns := [⟨"appid", "appid", .string, false⟩, ⟨"level", "xcontext.level", .integer, true⟩]
  includeEventJson := false

/-- Two events, the second without a level. -/
def sampleEvents : List Value :=
  [.object [("appid", .string "a"), ("xcontext", .object [("level", .number (.posInt 3))])],
    .object [("appid", .string "b")]]

/-- The texts of these events do not go into the file. -/
@[reducible] def sampleText : JsonText := ⟨fun _ => .ok ""⟩

/-- A file is what it holds. -/
@[reducible] def sampleParquet : ArrowParquet where
  RecordBatch := List ArrowField × List ArrowArray
  File := List ArrowField × List ArrowArray
  tryNew fields arrays := .ok (fields, arrays)
  write := .ok

attribute [local instance] sampleText sampleParquet

/-- The file of the two events is written, and the level of the second is null. -/
theorem encodeEventsAsParquet_rows_sample :
    (∃ file, encodeEventsAsParquet sampleEvents sampleConfig.columns false = .ok file) ∧
      ColumnConfig.cell ⟨"level", "xcontext.level", .integer, true⟩ (.object [("appid", .string "b")]) =
        none := by
  have hvalid : sampleConfig.validate = .ok () := by
    have h : sampleConfig.validate.toOption = some () := by decide +kernel
    cases hvalidate : sampleConfig.validate with
    | error message =>
      rw [hvalidate] at h
      cases h
    | ok u => rfl
  obtain ⟨hiff, hrows⟩ := encodeEventsAsParquet_rows (fun _ => ⟨"", rfl⟩)
    ⟨fun _ _ _ => ⟨_, rfl⟩, fun _ _ _ _ _ => ⟨_, rfl⟩⟩ hvalid sampleEvents
  have hmissing : extractPath (.object [("appid", .string "b")]) "xcontext.level" = none := by
    decide +kernel
  have hfits : ∀ column ∈ sampleConfig.columns, ∀ event ∈ sampleEvents, column.Fits event := by
    simp only [sampleConfig, sampleEvents, List.forall_mem_cons, List.not_mem_nil, false_implies,
      implies_true, and_true]
    refine ⟨⟨Or.inl ⟨.string "a", by decide +kernel, .string "a"⟩,
      Or.inl ⟨.string "b", by decide +kernel, .string "b"⟩⟩,
      Or.inl ⟨.number (.posInt 3), by decide +kernel, .posInt 3 (by decide)⟩,
      Or.inr ⟨Or.inl hmissing, rfl⟩⟩
  obtain ⟨file, hfile⟩ := hiff.mpr hfits
  refine ⟨⟨file, hfile⟩, ?_⟩
  exact ((hrows file hfile).2.2 _ (by simp [sampleConfig]) _ (by simp [sampleEvents])).mpr
    (Or.inl hmissing)

end Sample

end Ingest4x.Sinks.Parquet
