import Ingest4x.Json.Serde
import Ingest4x.Settings
import Ingest4x.Text

/-! # Sink configurations

The JSON configurations of delivery targets and of event sinks: how each provider reads, checks and
writes them. The same reader is used where a configuration is saved and where a sink is built from
it. -/

namespace Ingest4x.Sinks

/-- **The text of a reading error** of the `serde` crate, for the name of a type and a value that does
not have it. -/
class SerdeText where
  message : String → Value → String

/-- `validate_required_string`. -/
def validateRequiredString (field value : String) : Except String Unit :=
  if Text.trim value = "" then .error s!"{field} must not be empty" else .ok ()

/-- **`SinkConfig`**: a type of configurations. The writer gives an object without a batch field,
which passes the first check of the reader. -/
structure SinkConfig (α : Type) where
  typeName : String
  codec : Codec α
  precheck : Value → Except String Unit
  validate : α → Except String Unit
  precheck_encode : ∀ config, precheck (codec.encode config) = .ok ()
  encode_object : ∀ config, ∃ table : SortedTable String Value,
    codec.encode config = .object table.entries ∧ table.lookup "batch" = none

namespace SinkConfig

variable [SerdeText] {α : Type} {c : SinkConfig α}

/-- `SinkConfig::parse`. -/
def parse (c : SinkConfig α) (configJson : Value) : Except String α :=
  match c.precheck configJson with
  | .error message => .error message
  | .ok () =>
    match c.codec.decode configJson with
    | none => .error (SerdeText.message c.typeName configJson)
    | some config =>
      match c.validate config with
      | .error message => .error message
      | .ok () => .ok config

/-- `SinkConfig::normalize`. -/
def normalize (c : SinkConfig α) (configJson : Value) : Except String Value :=
  (c.parse configJson).map c.codec.encode

theorem parse_ok {configJson : Value} {config : α} :
    c.parse configJson = .ok config ↔ c.precheck configJson = .ok () ∧
      c.codec.decode configJson = some config ∧ c.validate config = .ok () := by
  rw [parse]
  cases hpre : c.precheck configJson with
  | error message => simp
  | ok u =>
    cases hdecode : c.codec.decode configJson with
    | none => simp
    | some config' =>
      cases hvalidate : c.validate config' with
      | error message =>
        simp only [hvalidate, Option.some.injEq, true_and]
        refine ⟨nofun, ?_⟩
        rintro ⟨rfl, hok⟩
        rw [hvalidate] at hok
        cases hok
      | ok u =>
        simp only [hvalidate, Except.ok.injEq, Option.some.injEq, true_and]
        constructor
        · rintro rfl
          exact ⟨rfl, hvalidate⟩
        · exact fun h => h.1

/-- **A configuration that was accepted is accepted again** from what is stored for it. -/
theorem parse_encode {configJson : Value} {config : α} (h : c.parse configJson = .ok config) :
    c.parse (c.codec.encode config) = .ok config := by
  obtain ⟨-, hdecode, hvalidate⟩ := parse_ok.mp h
  exact parse_ok.mpr ⟨c.precheck_encode config, c.codec.decode_encode hdecode, hvalidate⟩

theorem normalize_ok {configJson normalized : Value} (h : c.normalize configJson = .ok normalized) :
    ∃ config, normalized = c.codec.encode config ∧ c.parse normalized = .ok config := by
  rw [normalize] at h
  cases hparse : c.parse configJson with
  | error message =>
    rw [hparse] at h
    cases h
  | ok config =>
    rw [hparse] at h
    cases h
    exact ⟨config, rfl, parse_encode hparse⟩

end SinkConfig

/-- The checks of a configuration one after another. -/
def checks : List (Except String Unit) → Except String Unit
  | [] => .ok ()
  | .ok () :: rest => checks rest
  | .error message :: _ => .error message

/-- **The configuration of a struct**, by its fields. -/
def SinkConfig.ofStruct {α β : Type} (typeName : String) (fields : FieldsCodec β)
    (hnames : fields.names.Nodup) (hbatch : "batch" ∉ fields.names) (make : β → α) (parts : α → β)
    (parts_make : ∀ b, parts (make b) = b) (validate : α → Except String Unit) : SinkConfig α where
  typeName := typeName
  codec := .struct fields hnames make parts parts_make
  precheck _ := .ok ()
  validate := validate
  precheck_encode _ := rfl
  encode_object config := by
    obtain ⟨table, hencode, htable⟩ := Codec.struct_encode fields hnames make parts parts_make config
    exact ⟨table, hencode, htable _ hbatch⟩

/-! ### Configurations without fields -/

/-- `EmptyConfig`. -/
structure EmptyConfig where
  deriving DecidableEq

/-- The reader of `EmptyConfig`. -/
def EmptyConfig.sinkConfig : SinkConfig EmptyConfig :=
  .ofStruct "EmptyConfig" .nil List.nodup_nil List.not_mem_nil (fun _ => ⟨⟩) (fun _ => ())
    (fun _ => rfl) fun _ => .ok ()

/-! ### Blackhole -/

namespace Blackhole

/-- `BlackholeMode`. -/
inductive BlackholeMode
  | ok
  | slow
  | fail
  deriving DecidableEq

/-- The name of a mode. -/
def BlackholeMode.name : BlackholeMode → String
  | .ok => "ok"
  | .slow => "slow"
  | .fail => "fail"

/-- `BlackholeMode` in JSON. -/
def BlackholeMode.codec : Codec BlackholeMode :=
  .unitEnum BlackholeMode.name [.ok, .slow, .fail] (by decide)

/-- `blackhole::DestinationConfig`. -/
structure DestinationConfig where
  mode : BlackholeMode
  delayMs : Nat
  deriving DecidableEq

/-- The reader of `blackhole::DestinationConfig`. -/
def DestinationConfig.sinkConfig : SinkConfig DestinationConfig :=
  .ofStruct "DestinationConfig"
    (.cons "mode" (.skipped BlackholeMode.codec .ok) (.cons "delay_ms" (.skipped .u64 0) .nil))
    (by decide) (by decide) (fun parts => ⟨parts.1, parts.2.1⟩)
    (fun config => (config.mode, config.delayMs, ())) (fun _ => rfl) fun _ => .ok ()

end Blackhole

/-! ### Kafka -/

namespace Kafka

/-- `kafka::TargetConfig`. -/
structure TargetConfig where
  bootstrapServers : String
  deliveryTimeoutMs : String
  queueBufferingMaxMs : String
  batchNumMessages : String
  queueBufferingMaxMessages : String
  lingerMs : String
  deriving DecidableEq

/-- `kafka::TargetConfig::validate`. -/
def TargetConfig.validate (config : TargetConfig) : Except String Unit :=
  checks [
    validateRequiredString "bootstrap_servers" config.bootstrapServers,
    validateRequiredString "delivery_timeout_ms" config.deliveryTimeoutMs,
    validateRequiredString "queue_buffering_max_ms" config.queueBufferingMaxMs,
    validateRequiredString "batch_num_messages" config.batchNumMessages,
    validateRequiredString "queue_buffering_max_messages" config.queueBufferingMaxMessages,
    validateRequiredString "linger_ms" config.lingerMs]

/-- The reader of `kafka::TargetConfig`, with the defaults of its fields. -/
def TargetConfig.sinkConfig : SinkConfig TargetConfig :=
  .ofStruct "TargetConfig"
    (.cons "bootstrap_servers" (.required .string) <|
      .cons "delivery_timeout_ms" (.defaulted .string "3000" rfl) <|
      .cons "queue_buffering_max_ms" (.defaulted .string "0" rfl) <|
      .cons "batch_num_messages" (.defaulted .string "100" rfl) <|
      .cons "queue_buffering_max_messages" (.defaulted .string "300" rfl) <|
      .cons "linger_ms" (.defaulted .string "100" rfl) .nil)
    (by decide) (by decide)
    (fun (servers, timeout, queueMs, batch, queueMessages, linger, _) =>
      ⟨servers, timeout, queueMs, batch, queueMessages, linger⟩)
    (fun c => (c.bootstrapServers, c.deliveryTimeoutMs, c.queueBufferingMaxMs, c.batchNumMessages,
      c.queueBufferingMaxMessages, c.lingerMs, ()))
    (fun _ => rfl) TargetConfig.validate

/-- The defaults of a Kafka target pass its own checks. -/
theorem TargetConfig.validate_defaults {servers : String} (h : Text.trim servers ≠ "") :
    TargetConfig.validate ⟨servers, "3000", "0", "100", "300", "100"⟩ = .ok () := by
  have hdigits : ∀ field, ∀ value ∈ ["3000", "0", "100", "300"],
      validateRequiredString field value = .ok () := by
    intro field value hvalue
    have hne : ∀ value ∈ ["3000", "0", "100", "300"], Text.trim value ≠ "" := by decide +kernel
    rw [validateRequiredString, if_neg (hne value hvalue)]
  rw [TargetConfig.validate, validateRequiredString, if_neg h, hdigits _ "3000" (by simp),
    hdigits _ "0" (by simp), hdigits _ "100" (by simp), hdigits _ "300" (by simp),
    hdigits _ "100" (by simp)]
  rfl

/-- `kafka::DestinationConfig`. -/
structure DestinationConfig where
  topic : String
  deriving DecidableEq

/-- The fields of `kafka::DestinationConfig`. -/
def DestinationConfig.fields : FieldsCodec (String × Unit) :=
  .cons "topic" (.required .string) .nil

/-- The reader of `kafka::DestinationConfig`, which looks for the topic first: an array is refused. -/
def DestinationConfig.sinkConfig : SinkConfig DestinationConfig :=
  { SinkConfig.ofStruct "DestinationConfig" DestinationConfig.fields (by decide) (by decide)
      (fun parts => ⟨parts.1⟩) (fun config => (config.topic, ())) (fun _ => rfl)
      (fun config => validateRequiredString "topic" config.topic) with
    precheck := fun configJson =>
      if (configJson.get "topic").isNone then .error "missing field \x60topic\x60" else .ok ()
    precheck_encode := fun config => by
      have hget := Codec.struct_get DestinationConfig.fields (by decide)
        (fun parts => DestinationConfig.mk parts.1) (fun config => (config.topic, ()))
        (fun _ => rfl) config
      rw [if_neg]
      rw [SinkConfig.ofStruct, (List.cons.inj hget).1]
      exact Bool.false_ne_true }

end Kafka

/-! ### Parquet -/

namespace Parquet

/-- `parquet::TargetConfig`. -/
structure TargetConfig where
  scheme : String
  options : SortedTable String String
  deriving DecidableEq

/-- **`parquet::TargetConfig::validate`.** Any scheme that is not blank passes. -/
def TargetConfig.validate (config : TargetConfig) : Except String Unit :=
  checks [
    validateRequiredString "scheme" config.scheme,
    if config.options.entries = [] then .error "options must not be empty" else .ok ()]

/-- The reader of `parquet::TargetConfig`. -/
def TargetConfig.sinkConfig : SinkConfig TargetConfig :=
  .ofStruct "TargetConfig"
    (.cons "scheme" (.required .string) (.cons "options" (.required .stringMap) .nil))
    (by decide) (by decide) (fun parts => ⟨parts.1, parts.2.1⟩)
    (fun config => (config.scheme, config.options, ())) (fun _ => rfl) TargetConfig.validate

/-- `ColumnType`. -/
inductive ColumnType
  | string
  | number
  | integer
  | boolean
  | json
  deriving DecidableEq

/-- The name of a column type. -/
def ColumnType.name : ColumnType → String
  | .string => "string"
  | .number => "number"
  | .integer => "integer"
  | .boolean => "boolean"
  | .json => "json"

/-- `ColumnType` in JSON. -/
def ColumnType.codec : Codec ColumnType :=
  .unitEnum ColumnType.name [.string, .number, .integer, .boolean, .json] (by decide)

/-- `ColumnConfig`. -/
structure ColumnConfig where
  name : String
  path : String
  dataType : ColumnType
  nullable : Bool
  deriving DecidableEq

/-- `ColumnConfig` in JSON. -/
def ColumnConfig.codec : Codec ColumnConfig :=
  .struct
    (.cons "name" (.required .string) <| .cons "path" (.required .string) <|
      .cons "type" (.required ColumnType.codec) <| .cons "nullable" (.defaulted .bool false rfl) .nil)
    (by decide) (fun parts => ⟨parts.1, parts.2.1, parts.2.2.1, parts.2.2.2.1⟩)
    (fun column => (column.name, column.path, column.dataType, column.nullable, ())) fun _ => rfl

/-- `parquet::DestinationConfig`. -/
structure DestinationConfig where
  pathPrefix : String
  columns : List ColumnConfig
  includeEventJson : Bool
  deriving DecidableEq

/-- The check of the columns: the names seen so far are collected. -/
def validateColumns (names : List String) : List ColumnConfig → Except String (List String)
  | [] => .ok names
  | column :: columns =>
    match checks [
        validateRequiredString "columns[].name" column.name,
        validateRequiredString "columns[].path" column.path,
        if column.name ∈ names then .error ("duplicate parquet column \x60" ++ column.name ++ "\x60")
        else .ok ()] with
    | .error message => .error message
    | .ok () => validateColumns (column.name :: names) columns

/-- `parquet::DestinationConfig::validate`. -/
def DestinationConfig.validate (config : DestinationConfig) : Except String Unit :=
  match checks [
      validateRequiredString "path_prefix" config.pathPrefix,
      if config.columns = [] ∧ config.includeEventJson = false then
        .error "columns must not be empty when include_event_json is false"
      else .ok ()] with
  | .error message => .error message
  | .ok () =>
    match validateColumns [] config.columns with
    | .error message => .error message
    | .ok names =>
      if config.includeEventJson = true ∧ "event_json" ∈ names then
        .error "column \x60event_json\x60 conflicts with include_event_json"
      else .ok ()

/-- The reader of `parquet::DestinationConfig`. -/
def DestinationConfig.sinkConfig : SinkConfig DestinationConfig :=
  .ofStruct "DestinationConfig"
    (.cons "path_prefix" (.required .string) <|
      .cons "columns" (.defaulted (.list ColumnConfig.codec) [] rfl) <|
      .cons "include_event_json" (.defaulted .bool true rfl) .nil)
    (by decide) (by decide) (fun parts => ⟨parts.1, parts.2.1, parts.2.2.1⟩)
    (fun config => (config.pathPrefix, config.columns, config.includeEventJson, ())) (fun _ => rfl)
    DestinationConfig.validate

end Parquet

/-! ### Batch settings -/

deriving instance DecidableEq for EventSinkBatchConfig

/-- `EventSinkBatchConfig` in JSON. -/
def batchCodec : Codec EventSinkBatchConfig :=
  .struct
    (.cons "max_events" (.optional .u64 fun _ => nofun) <|
      .cons "max_bytes" (.optional .u64 fun _ => nofun) <|
      .cons "timeout" (.optional .string fun _ => nofun) .nil)
    (by decide) (fun parts => ⟨parts.1, parts.2.1, parts.2.2.1⟩)
    (fun config => (config.maxEvents, config.maxBytes, config.timeout, ())) fun _ => rfl

variable [DurationCodec]

/-- `EventSinkBatchConfig::validate`. -/
def validateBatch (config : EventSinkBatchConfig) : Except String Unit :=
  checks [
    if config.maxEvents = some 0 then .error "batch.max_events must be greater than 0" else .ok (),
    if config.maxBytes = some 0 then .error "batch.max_bytes must be greater than 0" else .ok (),
    match config.timeout.map DurationCodec.parseDuration with
    | some (.error error) => .error s!"batch.timeout invalid duration: {error}"
    | _ => .ok ()]

variable [SerdeText]

/-- The batch settings in a field: read and checked. -/
def parseBatch (batchJson : Value) : Except String EventSinkBatchConfig :=
  match batchCodec.decode batchJson with
  | none => .error (SerdeText.message "EventSinkBatchConfig" batchJson)
  | some config => (validateBatch config).map fun _ => config

/-- Batch settings that were accepted are accepted again. -/
theorem parseBatch_encode {batchJson : Value} {config : EventSinkBatchConfig}
    (h : parseBatch batchJson = .ok config) : parseBatch (batchCodec.encode config) = .ok config := by
  rw [parseBatch] at h
  cases hdecode : batchCodec.decode batchJson with
  | none =>
    rw [hdecode] at h
    cases h
  | some config' =>
    simp only [hdecode] at h
    cases hvalidate : validateBatch config' with
    | error message =>
      rw [hvalidate] at h
      cases h
    | ok u =>
      rw [hvalidate] at h
      cases h
      simp only [parseBatch, batchCodec.decode_encode hdecode, hvalidate]
      rfl

/-- `event_sink_batch_config`. -/
def eventSinkBatchConfig (destinationJson : Value) : Except String (Option EventSinkBatchConfig) :=
  match destinationJson.get "batch" with
  | none => .ok none
  | some batchJson => (parseBatch batchJson).map some

/-- `split_event_sink_batch_config`. -/
def splitEventSinkBatchConfig (configJson : Value) :
    Except String (Value × Option EventSinkBatchConfig) :=
  match configJson with
  | .object fields =>
    match Value.removeField fields "batch" with
    | (none, object) => .ok (.object object, none)
    | (some batchJson, object) =>
      (parseBatch batchJson).map fun config => (.object object, some config)
  | _ => .ok (configJson, none)

/-- `append_event_sink_batch_config`. -/
def appendEventSinkBatchConfig (normalized : Value) (batchConfig : Option EventSinkBatchConfig) :
    Except String Value :=
  match batchConfig with
  | none => .ok normalized
  | some config =>
    match normalized with
    | .object fields =>
      .ok (.object ((SortedTable.ofPairs fields).insert "batch" (batchCodec.encode config)).entries)
    | _ => .error "event sink config must normalize to a JSON object"

end Ingest4x.Sinks
