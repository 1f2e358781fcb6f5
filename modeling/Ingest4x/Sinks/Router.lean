import Ingest4x.Sinks.Config

/-! # The event router

The providers of sinks, and the router that is built from the enabled sinks of the database: at
startup, and by every refresh.

* **`Provider`** — one kind of sink: how its configurations are normalized when they are saved, and
  how a sink is built from them.
* **`EventRouter.fromRuntimeSinks`** — the router; one sink that cannot be built fails all of it.
* **`buildEntry_isOk`** — for normalized configurations, only the construction can fail. -/

namespace Ingest4x.Sinks

/-! ### Sinks -/

/-- The OpenDAL services the code has a constructor for. -/
inductive OpendalService
  | fs
  | s3
  | cos
  | memory
  deriving DecidableEq

/-- **The client libraries**: `KafkaProducer::new` for a client configuration, and
`Operator::from_iter` for the options of a service. -/
class SinkBackends where
  kafkaProducer : List (String × String) → Except String Unit
  operator : OpendalService → SortedTable String String → Except String Unit

/-- A sink that was built. -/
inductive Sink
  | blackhole (mode : Blackhole.BlackholeMode) (delayMs : Nat)
  | kafka (client : List (String × String)) (topic : String)
  | parquet (service : OpendalService) (options : SortedTable String String) (pathPrefix : String)
      (sinkPathComponent : String) (columns : List Parquet.ColumnConfig) (includeEventJson : Bool)
  | stdout
  deriving DecidableEq

/-- `BlackholeSink::from_config`. -/
def Blackhole.fromConfig (_target : EmptyConfig) (config : Blackhole.DestinationConfig)
    (_sinkId : String) : Except String Sink :=
  .ok (.blackhole config.mode config.delayMs)

/-- `StdoutSink::from_config`. -/
def Stdout.fromConfig (_target : EmptyConfig) (_config : EmptyConfig) (_sinkId : String) :
    Except String Sink :=
  .ok .stdout

/-- The client configuration of `KafkaSink::from_parts`. -/
def Kafka.clientConfig (config : Kafka.TargetConfig) : List (String × String) :=
  [("bootstrap.servers", config.bootstrapServers),
   ("queue.buffering.max.ms", config.queueBufferingMaxMs),
   ("delivery.timeout.ms", config.deliveryTimeoutMs),
   ("batch.num.messages", config.batchNumMessages),
   ("queue.buffering.max.messages", config.queueBufferingMaxMessages),
   ("linger.ms", config.lingerMs),
   ("compression.type", "snappy")]

/-- The service of a scheme. -/
def Parquet.service? (scheme : String) : Option OpendalService :=
  if scheme = "fs" then some .fs
  else if scheme = "s3" then some .s3
  else if scheme = "cos" then some .cos
  else if scheme = "memory" then some .memory
  else none

variable [SinkBackends]

/-- `KafkaSink::from_parts`. -/
def Kafka.fromParts (target : Kafka.TargetConfig) (config : Kafka.DestinationConfig)
    (_sinkId : String) : Except String Sink :=
  (SinkBackends.kafkaProducer (Kafka.clientConfig target)).map fun _ =>
    .kafka (Kafka.clientConfig target) config.topic

/-- **`ParquetSink::from_parts`.** A scheme without a service is refused here. -/
def Parquet.fromParts (target : Parquet.TargetConfig) (config : Parquet.DestinationConfig)
    (sinkId : String) : Except String Sink :=
  match Parquet.service? target.scheme with
  | none => .error ("unsupported parquet storage scheme \x60" ++ target.scheme ++ "\x60")
  | some service =>
    (SinkBackends.operator service target.options).map fun _ =>
      .parquet service target.options (Text.trimMatches '/' config.pathPrefix) sinkId config.columns
        config.includeEventJson

/-! ### Providers -/

/-- **`EventSinkProvider`**: a kind of sink with its configurations. -/
structure Provider where
  targetType : String
  label : String
  Target : Type
  Destination : Type
  target : SinkConfig Target
  destination : SinkConfig Destination
  fromConfigWithContext : Target → Destination → String → Except String Sink

/-- `providers`. -/
def providers : List Provider :=
  [⟨"blackhole", "Blackhole", _, _, EmptyConfig.sinkConfig, Blackhole.DestinationConfig.sinkConfig,
      Blackhole.fromConfig⟩,
    ⟨"kafka", "Kafka", _, _, Kafka.TargetConfig.sinkConfig, Kafka.DestinationConfig.sinkConfig,
      Kafka.fromParts⟩,
    ⟨"parquet", "Parquet", _, _, Parquet.TargetConfig.sinkConfig, Parquet.DestinationConfig.sinkConfig,
      Parquet.fromParts⟩,
    ⟨"stdout", "stdout", _, _, EmptyConfig.sinkConfig, EmptyConfig.sinkConfig, Stdout.fromConfig⟩]

/-- `provider_for`. -/
def providerFor (targetType : String) : Option Provider :=
  providers.find? fun provider => provider.targetType = targetType

theorem providerFor_eq_some {targetType : String} {provider : Provider}
    (h : providerFor targetType = some provider) :
    provider ∈ providers ∧ provider.targetType = targetType := by
  rw [providerFor] at h
  exact ⟨List.mem_of_find?_eq_some h, by simpa using List.find?_some h⟩

/-- A delivery target as the router reads it, less its times. -/
structure DeliveryTarget where
  id : Nat
  targetId : String
  name : String
  targetType : String
  configJson : Value
  enabled : Bool
  deriving DecidableEq

/-- `RuntimeEventSink`. -/
structure RuntimeEventSink where
  sinkId : String
  name : String
  destinationJson : Value
  autoOffsetReset : AutoOffsetReset
  target : DeliveryTarget
  deriving DecidableEq

variable [SerdeText]

/-- `normalize_delivery_target_config`. -/
def normalizeDeliveryTargetConfig (targetType : String) (configJson : Value) : Except String Value :=
  match providerFor targetType with
  | none => .error ("unknown delivery target type \x60" ++ targetType ++ "\x60")
  | some provider => provider.target.normalize configJson

variable [DurationCodec]

/-- `ErasedEventSinkProvider::normalize_event_sink_config`. -/
def Provider.normalizeEventSinkConfig (provider : Provider) (configJson : Value) :
    Except String Value :=
  match splitEventSinkBatchConfig configJson with
  | .error message => .error message
  | .ok (sinkConfigJson, batchConfig) =>
    match provider.destination.normalize sinkConfigJson with
    | .error message => .error message
    | .ok normalized => appendEventSinkBatchConfig normalized batchConfig

/-- `normalize_event_sink_config`. -/
def normalizeEventSinkConfig (targetType : String) (configJson : Value) : Except String Value :=
  match providerFor targetType with
  | none => .error ("unknown delivery target type \x60" ++ targetType ++ "\x60")
  | some provider => provider.normalizeEventSinkConfig configJson

/-- `ErasedEventSinkProvider::build_sink`. -/
def Provider.buildSink (provider : Provider) (sink : RuntimeEventSink) : Except String Sink :=
  match provider.target.parse sink.target.configJson with
  | .error message => .error message
  | .ok targetConfig =>
    match splitEventSinkBatchConfig sink.destinationJson with
    | .error message => .error message
    | .ok (destinationJson, _) =>
      match provider.destination.parse destinationJson with
      | .error message => .error message
      | .ok sinkConfig => provider.fromConfigWithContext targetConfig sinkConfig sink.sinkId

/-- `build_sink`. -/
def buildSink (sink : RuntimeEventSink) : Except String Sink :=
  match providerFor sink.target.targetType with
  | none => .error ("unknown delivery target type \x60" ++ sink.target.targetType ++ "\x60")
  | some provider => provider.buildSink sink

/-! ### The router -/

/-- `EventSinkEntry`. -/
structure EventSinkEntry where
  sink : Sink
  autoOffsetReset : AutoOffsetReset
  batchConfig : Option EventSinkBatchConfig
  deriving DecidableEq

/-- **`EventRouter`**: the sinks by their ids. -/
structure EventRouter where
  sinks : SortedTable String EventSinkEntry
  deriving DecidableEq

/-- The router without sinks. -/
def EventRouter.empty : EventRouter := ⟨∅⟩

/-- `contains_sink`. -/
def EventRouter.containsSink (router : EventRouter) (name : String) : Bool :=
  (router.sinks.lookup name).isSome

/-- The entry of one sink. -/
def buildEntry (sink : RuntimeEventSink) : Except String EventSinkEntry :=
  match eventSinkBatchConfig sink.destinationJson with
  | .error message => .error message
  | .ok batchConfig => (buildSink sink).map fun built => ⟨built, sink.autoOffsetReset, batchConfig⟩

/-- The sinks are inserted one after another. -/
def EventRouter.addSinks (router : EventRouter) : List RuntimeEventSink → Except String EventRouter
  | [] => .ok router
  | sink :: sinks =>
    match buildEntry sink with
    | .error message => .error message
    | .ok entry => addSinks ⟨router.sinks.insert sink.sinkId entry⟩ sinks

/-- **`EventRouter::from_runtime_sinks`.** -/
def EventRouter.fromRuntimeSinks (sinks : List RuntimeEventSink) : Except String EventRouter :=
  EventRouter.empty.addSinks sinks

/-- The router is built exactly when every sink can be. -/
theorem EventRouter.addSinks_isOk {router : EventRouter} {sinks : List RuntimeEventSink} :
    (∃ router', router.addSinks sinks = .ok router') ↔
      ∀ sink ∈ sinks, ∃ entry, buildEntry sink = .ok entry := by
  induction sinks generalizing router with
  | nil => exact ⟨fun _ => nofun, fun _ => ⟨router, rfl⟩⟩
  | cons sink sinks ih =>
    rw [addSinks, List.forall_mem_cons]
    cases hentry : buildEntry sink with
    | error message => simp
    | ok entry => simpa using ih

/-- The router has the sinks it was built from and no others. -/
theorem EventRouter.containsSink_addSinks {router router' : EventRouter}
    {sinks : List RuntimeEventSink} (h : router.addSinks sinks = .ok router') (name : String) :
    router'.containsSink name = true ↔
      router.containsSink name = true ∨ ∃ sink ∈ sinks, sink.sinkId = name := by
  induction sinks generalizing router with
  | nil =>
    cases h
    simp
  | cons sink sinks ih =>
    rw [addSinks] at h
    cases hentry : buildEntry sink with
    | error message =>
      rw [hentry] at h
      cases h
    | ok entry =>
      rw [hentry] at h
      rw [ih h, containsSink, SortedTable.lookup_insert, List.exists_mem_cons_iff, ← or_assoc]
      refine or_congr_left ?_
      by_cases hname : name = sink.sinkId
      · simp [hname]
      · simp [hname, containsSink, Ne.symm hname]

/-! ### What was normalized can be read -/

/-- **The stored destination** splits into the batch settings and a configuration that its reader
accepts. -/
structure DestinationNormal {α : Type} (c : SinkConfig α) (stored : Value) : Prop where
  read : ∃ destinationJson batchConfig config,
    splitEventSinkBatchConfig stored = .ok (destinationJson, batchConfig) ∧
    eventSinkBatchConfig stored = .ok batchConfig ∧ c.parse destinationJson = .ok config

omit [SinkBackends] in
/-- The batch settings that splitting finds passed their check. -/
theorem splitEventSinkBatchConfig_batch {configJson sinkConfigJson : Value}
    {batchConfig : EventSinkBatchConfig}
    (h : splitEventSinkBatchConfig configJson = .ok (sinkConfigJson, some batchConfig)) :
    ∃ batchJson, parseBatch batchJson = .ok batchConfig := by
  cases configJson with
  | object fields =>
    rw [splitEventSinkBatchConfig, Value.removeField] at h
    cases hget : (Value.object fields).get "batch" with
    | none =>
      simp only [hget] at h
      cases h
    | some batchJson =>
      simp only [hget] at h
      cases hparse : parseBatch batchJson with
      | error message =>
        rw [hparse] at h
        cases h
      | ok config =>
        rw [hparse] at h
        cases h
        exact ⟨batchJson, hparse⟩
  | _ => cases h

omit [SinkBackends] in
/-- An object that has a batch field is read as its batch settings and the other fields. -/
theorem split_object {table : SortedTable String Value} :
    (table.lookup "batch" = none →
      splitEventSinkBatchConfig (.object table.entries) = .ok (.object table.entries, none) ∧
        eventSinkBatchConfig (.object table.entries) = .ok none) ∧
    ∀ batchJson config, parseBatch batchJson = .ok config → table.lookup "batch" = none →
      splitEventSinkBatchConfig (.object (table.insert "batch" batchJson).entries) =
          .ok (.object table.entries, some config) ∧
        eventSinkBatchConfig (.object (table.insert "batch" batchJson).entries) =
          .ok (some config) := by
  have herase : ∀ t : SortedTable String Value, t.lookup "batch" = none →
      ∀ t' : SortedTable String Value, (∀ k, k ≠ "batch" → t'.lookup k = t.lookup k) →
        (t'.entries.filter fun f => f.1 ≠ "batch") = t.entries := by
    intro t hnone t' hsame
    have heq : t'.erase "batch" = t := by
      refine SortedTable.ext_lookup fun k => ?_
      rw [SortedTable.lookup_erase]
      split
      · next hk => rw [hk, hnone]
      · next hk => exact hsame k hk
    rw [← heq, SortedTable.entries_erase]
  constructor
  · intro hnone
    rw [splitEventSinkBatchConfig, Value.removeField, eventSinkBatchConfig, Value.get_entries, hnone]
    simp only [herase table hnone table fun _ _ => rfl, and_self]
  · intro batchJson config hparse hnone
    have hget : (table.insert "batch" batchJson).lookup "batch" = some batchJson := by
      rw [SortedTable.lookup_insert, if_pos rfl]
    have hrest := herase table hnone (table.insert "batch" batchJson) fun k hk => by
      rw [SortedTable.lookup_insert, if_neg hk]
    rw [splitEventSinkBatchConfig, Value.removeField, eventSinkBatchConfig, Value.get_entries, hget]
    simp only [hrest, hparse]
    exact ⟨rfl, rfl⟩

omit [SinkBackends] in
/-- **What is stored for a destination that was accepted can be read.** -/
theorem Provider.normalizeEventSinkConfig_normal {provider : Provider} {configJson stored : Value}
    (h : provider.normalizeEventSinkConfig configJson = .ok stored) :
    DestinationNormal provider.destination stored := by
  rw [normalizeEventSinkConfig] at h
  cases hsplit : splitEventSinkBatchConfig configJson with
  | error message =>
    rw [hsplit] at h
    cases h
  | ok parts =>
    obtain ⟨sinkConfigJson, batchConfig⟩ := parts
    simp only [hsplit] at h
    cases hnormalize : provider.destination.normalize sinkConfigJson with
    | error message =>
      rw [hnormalize] at h
      cases h
    | ok normalized =>
      simp only [hnormalize] at h
      obtain ⟨config, rfl, hparse⟩ := SinkConfig.normalize_ok hnormalize
      obtain ⟨table, hencode, hbatch⟩ := provider.destination.encode_object config
      rw [hencode] at h hparse
      cases batchConfig with
      | none =>
        cases h
        obtain ⟨hsplit', hread⟩ := split_object.1 hbatch
        exact ⟨_, _, _, hsplit', hread, hparse⟩
      | some batch =>
        obtain ⟨batchJson, hparseBatch⟩ := splitEventSinkBatchConfig_batch hsplit
        rw [appendEventSinkBatchConfig, SortedTable.ofPairs_entries] at h
        cases h
        obtain ⟨hsplit', hread⟩ := split_object.2 _ _ (parseBatch_encode hparseBatch) hbatch
        exact ⟨_, _, _, hsplit', hread, hparse⟩

/-! ### What can still fail -/

/-- The schemes that `ParquetSink::from_parts` has a constructor for. -/
def Parquet.supportedSchemes : List String := ["fs", "s3", "cos", "memory"]

/-- The scheme in the configuration of a Parquet target is one of them. -/
def Parquet.SupportedScheme (configJson : Value) : Prop :=
  ∃ scheme ∈ Parquet.supportedSchemes, configJson.get "scheme" = some (.string scheme)

omit [SinkBackends] [SerdeText] [DurationCodec] in
theorem Parquet.isSome_service? {scheme : String} :
    (Parquet.service? scheme).isSome = true ↔ scheme ∈ Parquet.supportedSchemes := by
  rw [Parquet.service?, Parquet.supportedSchemes]
  split_ifs with h₁ h₂ h₃ h₄ <;> simp_all

/-- **The client libraries accept everything**: a producer is created from every configuration, and
an operator of each of the four services from all options. -/
structure BackendsSucceed : Prop where
  kafkaProducer : ∀ client, SinkBackends.kafkaProducer client = .ok ()
  operator : ∀ service options, SinkBackends.operator service options = .ok ()

/-- **The stored configuration of a target**: what its own reader accepts and writes. -/
structure TargetNormal {α : Type} (c : SinkConfig α) (stored : Value) : Prop where
  read : ∃ config, stored = c.codec.encode config ∧ c.parse stored = .ok config

omit [SinkBackends] [DurationCodec] in
/-- What is stored for a target that was accepted can be read. -/
theorem SinkConfig.normalize_targetNormal {α : Type} {c : SinkConfig α} {configJson stored : Value}
    (h : c.normalize configJson = .ok stored) : TargetNormal c stored :=
  ⟨SinkConfig.normalize_ok h⟩

omit [SinkBackends] [SerdeText] [DurationCodec] in
/-- The scheme is found in what is stored for a Parquet target. -/
theorem Parquet.get_scheme (config : Parquet.TargetConfig) :
    (Parquet.TargetConfig.sinkConfig.codec.encode config).get "scheme" =
      some (.string config.scheme) := by
  have hget := Codec.struct_get
    (.cons "scheme" (.required .string) (.cons "options" (.required .stringMap) .nil))
    (by decide) (fun parts => Parquet.TargetConfig.mk parts.1 parts.2.1)
    (fun config => (config.scheme, config.options, ())) (fun _ => rfl) config
  exact (List.cons.inj hget).1

omit [SerdeText] [DurationCodec] in
/-- **Construction fails only for an unknown scheme**, if the client libraries do not fail. -/
theorem Provider.fromConfigWithContext_isOk (hbackends : BackendsSucceed) {provider : Provider}
    (hprovider : provider ∈ providers) (target : provider.Target)
    (destination : provider.Destination) (sinkId : String) :
    (∃ sink, provider.fromConfigWithContext target destination sinkId = .ok sink) ↔
      (provider.targetType = "parquet" →
        Parquet.SupportedScheme (provider.target.codec.encode target)) := by
  simp only [providers, List.mem_cons, List.not_mem_nil, or_false] at hprovider
  rcases hprovider with rfl | rfl | rfl | rfl
  · exact ⟨fun _ h => absurd (show "blackhole" = "parquet" from h) (by decide), fun _ => ⟨_, rfl⟩⟩
  · refine ⟨fun _ h => absurd (show "kafka" = "parquet" from h) (by decide), fun _ => ?_⟩
    simp only [Kafka.fromParts, hbackends.kafkaProducer]
    exact ⟨_, rfl⟩
  · simp only [Parquet.fromParts, forall_true_left]
    have hscheme : Parquet.SupportedScheme (Parquet.TargetConfig.sinkConfig.codec.encode target) ↔
        (Parquet.service? target.scheme).isSome = true := by
      rw [Parquet.isSome_service?, Parquet.SupportedScheme, Parquet.get_scheme]
      simp
    rw [hscheme]
    cases Parquet.service? target.scheme with
    | none => simp
    | some service =>
      simp only [hbackends.operator, Option.isSome_some, iff_true]
      exact ⟨_, rfl⟩
  · exact ⟨fun _ h => absurd (show "stdout" = "parquet" from h) (by decide), fun _ => ⟨_, rfl⟩⟩

/-- **The entry of a sink whose configurations were accepted** is built exactly when its target is no
Parquet target with an unknown scheme. -/
theorem buildEntry_isOk (hbackends : BackendsSucceed) {sink : RuntimeEventSink} {provider : Provider}
    (hprovider : providerFor sink.target.targetType = some provider)
    (htarget : TargetNormal provider.target sink.target.configJson)
    (hdestination : DestinationNormal provider.destination sink.destinationJson) :
    (∃ entry, buildEntry sink = .ok entry) ↔
      (sink.target.targetType = "parquet" → Parquet.SupportedScheme sink.target.configJson) := by
  obtain ⟨target, hstored, htarget⟩ := htarget.read
  obtain ⟨destinationJson, batchConfig, config, hsplit, hbatch, hparse⟩ := hdestination.read
  obtain ⟨hmem, htype⟩ := providerFor_eq_some hprovider
  rw [← htype, hstored,
    ← Provider.fromConfigWithContext_isOk hbackends hmem target config sink.sinkId, buildEntry]
  simp only [hbatch, buildSink, hprovider, Provider.buildSink, htarget, hsplit, hparse]
  cases provider.fromConfigWithContext target config sink.sinkId with
  | error message => exact ⟨by rintro ⟨_, ⟨⟩⟩, by rintro ⟨_, ⟨⟩⟩⟩
  | ok built => exact ⟨fun _ => ⟨_, rfl⟩, fun _ => ⟨_, rfl⟩⟩

end Ingest4x.Sinks
