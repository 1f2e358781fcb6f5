import Ingest4x.Sinks.Buildable

/-! # Normalised configurations

The configuration of an event sink is read three times: when it is saved, and from what was stored, by
the router for the batch settings and by the builder for the sink. The batch field is split off before
the provider reads the rest, which refuses unknown fields.

* **`splitEventSinkBatchConfig_eq`** — what splitting gives is what the router reads and the rest.
* **`Provider.readEventSinkConfig`** — all that is read from a configuration.
* **`RefusedBatch`** — the batch settings that are refused.
* **`normalizeConfig_faithful`** — what is stored reads as what was given. -/

namespace Ingest4x.Sinks

open Result

/-- A configuration without its batch field; what is not an object has none. -/
def withoutBatch : Value → Value
  | .object fields => .object (fields.filter fun field => field.1 ≠ "batch")
  | configJson => configJson

section Read

variable [SerdeText] [DurationCodec]

/-- **Splitting agrees with the router** on every JSON value: it fails where the router does, with the
same message, and gives the batch settings that the router reads and the rest. -/
theorem splitEventSinkBatchConfig_eq (configJson : Value) :
    splitEventSinkBatchConfig configJson =
      (eventSinkBatchConfig configJson).map fun batchConfig =>
        (withoutBatch configJson, batchConfig) := by
  cases configJson with
  | object fields =>
    rw [splitEventSinkBatchConfig, eventSinkBatchConfig, Value.removeField, withoutBatch]
    cases (Value.object fields).get "batch" with
    | none => rfl
    | some batchJson =>
      cases hparse : parseBatch batchJson with
      | error message =>
        simp only [hparse]
        rfl
      | ok config =>
        simp only [hparse]
        rfl
  | _ => rfl

/-- **The configuration that a sink is built from**: `build_sink` splits the batch field off and ignores
it. -/
def Provider.sinkConfig [SinkBackends] (provider : Provider) (destinationJson : Value) :
    Except String provider.Destination :=
  match splitEventSinkBatchConfig destinationJson with
  | .error message => .error message
  | .ok (destinationJson, _) => provider.destination.parse destinationJson

/-- **All that is read from the configuration of an event sink.** -/
def Provider.readEventSinkConfig [SinkBackends] (provider : Provider) (configJson : Value) :
    Except String (provider.Destination × Option EventSinkBatchConfig) :=
  match eventSinkBatchConfig configJson with
  | .error message => .error message
  | .ok batchConfig =>
    (provider.destination.parse (withoutBatch configJson)).map fun config => (config, batchConfig)

end Read

section Normalize

variable [SinkBackends] [SerdeText] [DurationCodec] {provider : Provider}

/-- `build_sink` reads the target, then the configuration of the sink. -/
theorem Provider.buildSink_eq (sink : RuntimeEventSink) :
    provider.buildSink sink =
      (provider.target.parse sink.target.configJson).bind fun target =>
        (provider.sinkConfig sink.destinationJson).bind fun config =>
          provider.fromConfigWithContext target config sink.sinkId := by
  rw [buildSink, sinkConfig]
  cases provider.target.parse sink.target.configJson with
  | error message => rfl
  | ok target =>
    cases splitEventSinkBatchConfig sink.destinationJson with
    | error message => rfl
    | ok parts =>
      obtain ⟨destinationJson, batchConfig⟩ := parts
      show _ = (provider.destination.parse destinationJson).bind _
      cases hparse : provider.destination.parse destinationJson with
      | error message => simp only [hparse]; rfl
      | ok config => simp only [hparse]; rfl

/-- What is read is the configuration of the sink and the batch settings of the router. -/
theorem Provider.readEventSinkConfig_ok {configJson : Value} {config : provider.Destination}
    {batchConfig : Option EventSinkBatchConfig} :
    provider.readEventSinkConfig configJson = .ok (config, batchConfig) ↔
      eventSinkBatchConfig configJson = .ok batchConfig ∧
        provider.destination.parse (withoutBatch configJson) = .ok config := by
  rw [readEventSinkConfig]
  cases eventSinkBatchConfig configJson with
  | error message => simp
  | ok batchConfig' =>
    cases provider.destination.parse (withoutBatch configJson) with
    | error message => simp [Except.map]
    | ok config' =>
      simp only [Except.map, Except.ok.injEq, Prod.mk.injEq]
      exact and_comm

/-- The builder reads the same configuration. -/
theorem Provider.sinkConfig_of_read {configJson : Value} {config : provider.Destination}
    {batchConfig : Option EventSinkBatchConfig}
    (h : provider.readEventSinkConfig configJson = .ok (config, batchConfig)) :
    provider.sinkConfig configJson = .ok config := by
  obtain ⟨hbatch, hparse⟩ := readEventSinkConfig_ok.mp h
  rw [sinkConfig, splitEventSinkBatchConfig_eq, hbatch]
  exact hparse

/-- **Normalising writes what is read.** -/
theorem Provider.normalizeEventSinkConfig_ok {configJson stored : Value} :
    provider.normalizeEventSinkConfig configJson = .ok stored ↔ ∃ config batchConfig,
      provider.readEventSinkConfig configJson = .ok (config, batchConfig) ∧
        appendEventSinkBatchConfig (provider.destination.codec.encode config) batchConfig =
          .ok stored := by
  rw [normalizeEventSinkConfig, splitEventSinkBatchConfig_eq, readEventSinkConfig]
  cases eventSinkBatchConfig configJson with
  | error message => simp [Except.map]
  | ok batchConfig =>
    simp only [Except.map, SinkConfig.normalize]
    cases provider.destination.parse (withoutBatch configJson) with
    | error message => simp
    | ok config =>
      simp only [Except.ok.injEq, Prod.mk.injEq]
      constructor
      · exact fun h => ⟨config, batchConfig, ⟨rfl, rfl⟩, h⟩
      · rintro ⟨_, _, ⟨rfl, rfl⟩, h⟩
        exact h

omit [SinkBackends] in
/-- The batch settings that were read are those of the field. -/
theorem eventSinkBatchConfig_ok {configJson : Value} {batchConfig : Option EventSinkBatchConfig} :
    eventSinkBatchConfig configJson = .ok batchConfig ↔
      (configJson.get "batch" = none ∧ batchConfig = none) ∨
        ∃ batchJson config, configJson.get "batch" = some batchJson ∧
          parseBatch batchJson = .ok config ∧ batchConfig = some config := by
  rw [eventSinkBatchConfig]
  cases configJson.get "batch" with
  | none => simp [eq_comm]
  | some batchJson =>
    cases hparse : parseBatch batchJson with
    | error message => simp [hparse, Except.map]
    | ok config => simp [hparse, Except.map, eq_comm]

/-- **What is stored reads as what was given.** -/
theorem Provider.readEventSinkConfig_append {configJson stored : Value}
    {config : provider.Destination} {batchConfig : Option EventSinkBatchConfig}
    (h : provider.readEventSinkConfig configJson = .ok (config, batchConfig))
    (happend : appendEventSinkBatchConfig (provider.destination.codec.encode config) batchConfig =
      .ok stored) :
    provider.readEventSinkConfig stored = .ok (config, batchConfig) := by
  obtain ⟨hbatch, hparse⟩ := readEventSinkConfig_ok.mp h
  have hencode := SinkConfig.parse_encode hparse
  obtain ⟨table, htable, hnone⟩ := provider.destination.encode_object config
  rw [htable] at happend hencode
  rcases eventSinkBatchConfig_ok.mp hbatch with ⟨-, rfl⟩ | ⟨batchJson, batch, -, hbatchJson, rfl⟩
  · cases happend
    obtain ⟨hsplit, hread⟩ := split_object.1 hnone
    rw [splitEventSinkBatchConfig_eq, hread] at hsplit
    refine readEventSinkConfig_ok.mpr ⟨hread, ?_⟩
    rw [(Prod.mk.inj (Except.ok.inj hsplit)).1]
    exact hencode
  · rw [appendEventSinkBatchConfig, SortedTable.ofPairs_entries] at happend
    cases happend
    obtain ⟨hsplit, hread⟩ := split_object.2 _ _ (parseBatch_encode hbatchJson) hnone
    rw [splitEventSinkBatchConfig_eq, hread] at hsplit
    refine readEventSinkConfig_ok.mpr ⟨hread, ?_⟩
    rw [(Prod.mk.inj (Except.ok.inj hsplit)).1]
    exact hencode

/-- **A normalised configuration**: it is normalised to itself, the router reads from it the batch
settings that were given, and the builder the rest that was given. What is written depends only on what
is read, so the text that is stored is the same too. -/
structure NormalizedFrom (provider : Provider) (configJson stored : Value) : Prop where
  again : provider.normalizeEventSinkConfig stored = .ok stored
  read : provider.readEventSinkConfig stored = provider.readEventSinkConfig configJson
  noBatch : configJson.get "batch" = none → eventSinkBatchConfig stored = .ok none
  batch : ∀ batchJson, configJson.get "batch" = some batchJson →
    ∃ config, parseBatch batchJson = .ok config ∧ eventSinkBatchConfig stored = .ok (some config)
  sink : ∃ config, provider.destination.parse (withoutBatch configJson) = .ok config ∧
    provider.sinkConfig stored = .ok config

/-- **Normalising is faithful and idempotent.** -/
theorem Provider.normalizedFrom {configJson stored : Value}
    (h : provider.normalizeEventSinkConfig configJson = .ok stored) :
    NormalizedFrom provider configJson stored := by
  obtain ⟨config, batchConfig, hread, happend⟩ := normalizeEventSinkConfig_ok.mp h
  have hstored := readEventSinkConfig_append hread happend
  obtain ⟨hbatch, hparse⟩ := readEventSinkConfig_ok.mp hread
  obtain ⟨hbatchStored, -⟩ := readEventSinkConfig_ok.mp hstored
  refine ⟨normalizeEventSinkConfig_ok.mpr ⟨_, _, hstored, happend⟩, hstored.trans hread.symm,
    fun hnone => ?_, fun batchJson hsome => ?_, config, hparse, sinkConfig_of_read hstored⟩
  · rcases eventSinkBatchConfig_ok.mp hbatch with ⟨-, rfl⟩ | ⟨batchJson, _, hget, -⟩
    · exact hbatchStored
    · rw [hnone] at hget
      cases hget
  · rcases eventSinkBatchConfig_ok.mp hbatch with ⟨hget, -⟩ | ⟨batchJson', batch, hget, hok, rfl⟩
    · rw [hsome] at hget
      cases hget
    · rw [hsome] at hget
      cases hget
      exact ⟨batch, hok, hbatchStored⟩

omit [SinkBackends] [DurationCodec] in
/-- A target's configuration is normalised to itself. -/
theorem SinkConfig.normalize_again {α : Type} {c : SinkConfig α} {configJson stored : Value}
    (h : c.normalize configJson = .ok stored) : c.normalize stored = .ok stored := by
  obtain ⟨config, rfl, hparse⟩ := SinkConfig.normalize_ok h
  rw [SinkConfig.normalize, hparse]
  rfl

end Normalize

/-! ### Batch settings that are refused -/

/-- The fields of `EventSinkBatchConfig`. -/
def batchFields : List String := ["max_events", "max_bytes", "timeout"]

/-- The value of a field of the batch settings, in an object by name and in an array by position. -/
def batchField (name : String) : Value → Option Value
  | .object fields => (Value.object fields).get name
  | .array items => items[batchFields.idxOf name]?
  | _ => none

/-- The values of a struct are those of its fields. -/
theorem structValues_batchFields {batchJson : Value} {values : List (Option Value)}
    (h : structValues batchFields batchJson = some values) :
    values = batchFields.map fun name => batchField name batchJson := by
  cases batchJson with
  | object fields =>
    rw [structValues] at h
    split_ifs at h
    cases h
    rfl
  | array items =>
    rw [structValues] at h
    split_ifs at h with hlength
    cases h
    -- at most three items, since there are three fields
    rcases items with _ | ⟨_, _ | ⟨_, _ | ⟨_, _ | ⟨_, items⟩⟩⟩⟩
    · rfl
    · rfl
    · rfl
    · rfl
    · simp only [batchFields, List.length_cons, List.length_nil] at hlength
      omega
  | null | bool _ | number _ | string _ => cases h

section Refused

variable [DurationCodec]

/-- **Batch settings that are refused**: with an unknown field, a limit of zero, or a timeout that is
not a duration. -/
inductive RefusedBatch : Value → Prop
  | unknownField {fields : List (String × Value)} {field : String × Value} (hmem : field ∈ fields)
      (hname : field.1 ∉ batchFields) : RefusedBatch (.object fields)
  | maxEvents {batchJson : Value}
      (hzero : batchField "max_events" batchJson = some (.number (.posInt 0))) :
      RefusedBatch batchJson
  | maxBytes {batchJson : Value}
      (hzero : batchField "max_bytes" batchJson = some (.number (.posInt 0))) :
      RefusedBatch batchJson
  | timeout {batchJson value : Value} (hvalue : batchField "timeout" batchJson = some value)
      (hnull : value ≠ .null)
      (hmalformed : ∀ text, value = .string text →
        ∃ error, DurationCodec.parseDuration text = .error error) :
      RefusedBatch batchJson

omit [DurationCodec] in
/-- Checks that all pass. -/
theorem checks_ok {results : List (Except String Unit)} (h : checks results = .ok ()) :
    ∀ result ∈ results, result = .ok () := by
  induction results with
  | nil => exact fun _ hmem => absurd hmem List.not_mem_nil
  | cons result results ih =>
    cases result with
    | error message => cases h
    | ok u =>
      intro result hmem
      rcases List.mem_cons.mp hmem with rfl | hmem
      · rfl
      · exact ih h result hmem

omit [DurationCodec] in
/-- What a reader of an optional field of a codec gives. -/
theorem read_optional {α : Type} {c : Codec α} {hencode : ∀ a, c.encode a ≠ .null} {value : Value}
    {result : Option α} (hvalue : value ≠ .null)
    (h : (FieldCodec.optional c hencode).read (some value) = some result) :
    ∃ a, c.decode value = some a ∧ result = some a := by
  simp only [FieldCodec.optional, if_neg hvalue] at h
  obtain ⟨a, ha, rfl⟩ := Option.map_eq_some_iff.mp h
  exact ⟨a, ha, rfl⟩

/-- What the checks of batch settings say. -/
theorem validateBatch_ok {config : EventSinkBatchConfig} (h : validateBatch config = .ok ()) :
    config.maxEvents ≠ some 0 ∧ config.maxBytes ≠ some 0 ∧
      ∀ text error, config.timeout = some text → DurationCodec.parseDuration text ≠ .error error := by
  have hchecks := checks_ok h
  refine ⟨fun hzero => ?_, fun hzero => ?_, fun text error htext herror => ?_⟩
  · have hcheck := hchecks _ List.mem_cons_self
    rw [if_pos hzero] at hcheck
    cases hcheck
  · have hcheck := hchecks _ (List.mem_cons_of_mem _ List.mem_cons_self)
    rw [if_pos hzero] at hcheck
    cases hcheck
  · have hcheck := hchecks _
      (List.mem_cons_of_mem _ (List.mem_cons_of_mem _ List.mem_cons_self))
    rw [htext, Option.map_some, herror] at hcheck
    cases hcheck

omit [DurationCodec] in
/-- What is read for batch settings: the fields one by one, and no others. -/
theorem batchCodec_decode {batchJson : Value} {config : EventSinkBatchConfig}
    (h : batchCodec.decode batchJson = some config) :
    (FieldCodec.optional Codec.u64 fun _ => nofun).read (batchField "max_events" batchJson) =
        some config.maxEvents ∧
      (FieldCodec.optional Codec.u64 fun _ => nofun).read (batchField "max_bytes" batchJson) =
        some config.maxBytes ∧
      (FieldCodec.optional Codec.string fun _ => nofun).read (batchField "timeout" batchJson) =
        some config.timeout ∧
      ∀ fields, batchJson = .object fields → ∀ field ∈ fields, field.1 ∈ batchFields := by
  obtain ⟨parts, hparts, rfl⟩ := Option.map_eq_some_iff.mp h
  obtain ⟨values, hvalues, hread⟩ := Option.bind_eq_some_iff.mp hparts
  have hvalues : structValues batchFields batchJson = some values := hvalues
  rw [structValues_batchFields hvalues] at hread
  obtain ⟨hmaxEvents, hread⟩ := FieldsCodec.read_cons.mp hread
  obtain ⟨hmaxBytes, hread⟩ := FieldsCodec.read_cons.mp hread
  obtain ⟨htimeout, -⟩ := FieldsCodec.read_cons.mp hread
  refine ⟨hmaxEvents, hmaxBytes, htimeout, ?_⟩
  rintro fields rfl
  rw [structValues] at hvalues
  split_ifs at hvalues with hall
  exact hall

variable [SerdeText]

/-- **Batch settings that are accepted** are not among those that are refused. -/
theorem not_refusedBatch {batchJson : Value} {config : EventSinkBatchConfig}
    (h : parseBatch batchJson = .ok config) : ¬RefusedBatch batchJson := by
  obtain ⟨hdecode, hvalidate⟩ : batchCodec.decode batchJson = some config ∧
      validateBatch config = .ok () := by
    rw [parseBatch] at h
    cases hdecode : batchCodec.decode batchJson with
    | none =>
      rw [hdecode] at h
      cases h
    | some config' =>
      simp only [hdecode] at h
      cases hvalidate : validateBatch config' with
      | error message =>
        rw [hvalidate] at h
        cases h
      | ok u =>
        rw [hvalidate] at h
        cases h
        exact ⟨rfl, hvalidate⟩
  obtain ⟨hmaxEvents, hmaxBytes, htimeout, hnames⟩ := batchCodec_decode hdecode
  obtain ⟨hevents, hbytes, hduration⟩ := validateBatch_ok hvalidate
  intro hrefused
  cases hrefused with
  | unknownField hmem hname => exact hname (hnames _ rfl _ hmem)
  | maxEvents hzero =>
    rw [hzero] at hmaxEvents
    obtain ⟨n, hn, hconfig⟩ := read_optional (by rintro ⟨⟩) hmaxEvents
    cases hn
    exact hevents hconfig
  | maxBytes hzero =>
    rw [hzero] at hmaxBytes
    obtain ⟨n, hn, hconfig⟩ := read_optional (by rintro ⟨⟩) hmaxBytes
    cases hn
    exact hbytes hconfig
  | @timeout _ value hvalue hnull hmalformed =>
    rw [hvalue] at htimeout
    obtain ⟨text, htext, hconfig⟩ := read_optional hnull htimeout
    cases value with
    | string text' =>
      cases htext
      obtain ⟨error, herror⟩ := hmalformed text rfl
      exact hduration text error hconfig herror
    | null | bool _ | number _ | array _ | object _ => cases htext

end Refused

/-! ### The repository -/

section Stored

variable [SinkBackends] [SerdeText] [DurationCodec]

/-- An operation that stores a configuration of an event sink. -/
def StoresDestination (configJson : Value) : EventSinkOp → Prop
  | .createEventSink input => input.destinationJson = configJson
  | .updateEventSink _ input => input.destinationJson = some configJson
  | _ => False

/-- A configuration with refused batch settings is not normalised. -/
theorem not_normalized_of_refusedBatch {configJson batchJson : Value}
    (hget : configJson.get "batch" = some batchJson) (hrefused : RefusedBatch batchJson)
    (targetType : String) : ∃ message, normalizeEventSinkConfig targetType configJson =
      .error message := by
  cases hnormalize : normalizeEventSinkConfig targetType configJson with
  | error message => exact ⟨message, rfl⟩
  | ok stored =>
    rw [normalizeEventSinkConfig] at hnormalize
    cases hprovider : providerFor targetType with
    | none =>
      rw [hprovider] at hnormalize
      cases hnormalize
    | some provider =>
      rw [hprovider] at hnormalize
      obtain ⟨config, hparse, -⟩ := (Provider.normalizedFrom hnormalize).batch batchJson hget
      exact absurd hrefused (not_refusedBatch hparse)

/-- **It is not stored.** -/
theorem run_error_of_refusedBatch {configJson batchJson : Value}
    (hget : configJson.get "batch" = some batchJson) (hrefused : RefusedBatch batchJson)
    {op : EventSinkOp} (hstores : StoresDestination configJson op) (db : Database) :
    ∃ error, op.run db = .error error := by
  cases hrun : op.run db with
  | error error => exact ⟨error, rfl⟩
  | ok db' =>
    obtain ⟨targetType, stored, hnormalize⟩ : ∃ targetType stored,
        normalizeEventSinkConfig targetType configJson = .ok stored := by
      cases op with
      | createEventSink input =>
        obtain ⟨a, h⟩ := map_snd_eq_ok.mp hrun
        simp only [EventSinkRepository.createEventSink, bind_eq_ok, mapError_eq_ok] at h
        obtain ⟨_, -, target, -, targetType, -, stored, hnormalize, -⟩ := h
        cases hstores
        exact ⟨targetType, stored, hnormalize⟩
      | updateEventSink id input =>
        obtain ⟨a, h⟩ := map_snd_eq_ok.mp hrun
        simp only [EventSinkRepository.updateEventSink, bind_eq_ok, mapError_eq_ok] at h
        obtain ⟨existing, -, target, -, targetType, -, stored, hnormalize, -⟩ := h
        have hstores : input.destinationJson = some configJson := hstores
        rw [hstores] at hnormalize
        exact ⟨targetType, stored, hnormalize⟩
      | createDeliveryTarget input | updateDeliveryTarget id input | deleteDeliveryTarget id
      | deleteEventSink id => exact hstores.elim
    obtain ⟨message, herror⟩ := not_normalized_of_refusedBatch hget hrefused targetType
    rw [herror] at hnormalize
    cases hnormalize

/-- **Normalising a configuration is faithful and idempotent**, for every target type and every JSON
value. What is stored for an event sink is normalised to itself, the router reads the batch settings
that were given from it and the builder the rest; what is stored for a target is normalised to itself.
With batch settings that are refused nothing is normalised, and no operation stores it. -/
theorem normalizeConfig_faithful (targetType : String) (configJson : Value) :
    (∀ stored, normalizeEventSinkConfig targetType configJson = .ok stored →
      normalizeEventSinkConfig targetType stored = .ok stored ∧
        ∃ provider, providerFor targetType = some provider ∧
          NormalizedFrom provider configJson stored) ∧
    (∀ stored, normalizeDeliveryTargetConfig targetType configJson = .ok stored →
      normalizeDeliveryTargetConfig targetType stored = .ok stored) ∧
    ∀ batchJson, configJson.get "batch" = some batchJson → RefusedBatch batchJson →
      (∃ message, normalizeEventSinkConfig targetType configJson = .error message) ∧
        ∀ op, StoresDestination configJson op → ∀ db, ∃ error, op.run db = .error error := by
  refine ⟨fun stored h => ?_, fun stored h => ?_, fun batchJson hget hrefused => ?_⟩
  · rw [normalizeEventSinkConfig] at h ⊢
    cases hprovider : providerFor targetType with
    | none =>
      rw [hprovider] at h
      cases h
    | some provider =>
      rw [hprovider] at h
      have hnormalized := Provider.normalizedFrom h
      exact ⟨hnormalized.again, provider, rfl, hnormalized⟩
  · rw [normalizeDeliveryTargetConfig] at h ⊢
    cases hprovider : providerFor targetType with
    | none =>
      rw [hprovider] at h
      cases h
    | some provider =>
      rw [hprovider] at h
      exact SinkConfig.normalize_again h
  · exact ⟨not_normalized_of_refusedBatch hget hrefused targetType,
      fun op hstores db => run_error_of_refusedBatch hget hrefused hstores db⟩

end Stored

section Sample

attribute [local instance] acceptingBackends typeNameText secondsCodec

/-- Batch settings by position are stored by name. -/
example :
    (normalizeEventSinkConfig "kafka" (.object [
      ("batch", .array [.number (.posInt 5)]), ("topic", .string "events")])).toOption =
    some (.object [
      ("batch", .object [("max_events", .number (.posInt 5))]), ("topic", .string "events")]) := by
  decide +kernel

end Sample

end Ingest4x.Sinks
