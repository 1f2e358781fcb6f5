import Ingest4x.Json
import Ingest4x.Settings
import Ingest4x.Table.Sorted
import Ingest4x.Text
import Ingest4x.Wal.Issue
import Mathlib.Data.String.Basic

/-! # The replay context

What one replay call is given besides the directory: the sinks with their policies, the projects,
the processor and the settings; and the pure functions of the replay over them. The processor and
the registry of projects are parameters: any function of what the source passes to them. -/

namespace Ingest4x.Wal

/-! ### The context -/

/-- `EventSinkEntry`, less the sink itself, which is part of the world. -/
structure EventSinkEntry where
  autoOffsetReset : AutoOffsetReset
  batchConfig : Option EventSinkBatchConfig

/-- The router of `EventSinkState`: the enabled sinks by name. -/
abbrev EventSinks : Type := SortedTable String EventSinkEntry

/-- `ProcessorDelivery`: one `emit` of a script. -/
structure ProcessorDelivery where
  target : String
  event : Value
  deriving DecidableEq

/-- `ProcessorRequestContext`. -/
structure ProcessorRequestContext where
  ip : Option String
  method : String
  path : String
  headers : SortedTable String String
  requestId : Option String
  receivedAtMs : Option UInt64

/-- **`WalReplayContext`.** -/
structure WalReplayContext where
  eventSinks : EventSinks
  containsProjectId : Int32 → Bool
  processEvent : Int32 → Value → ProcessorRequestContext → Except String (List ProcessorDelivery)
  checkpoint : CheckpointSettings
  replay : ReplaySettings

/-- `pipeline_auto_offset_reset`: earliest if any sink asks for it. -/
def pipelineAutoOffsetReset (eventSinks : EventSinks) : AutoOffsetReset :=
  if eventSinks.values.any fun entry => entry.autoOffsetReset = .earliest then .earliest
  else .latest

/-! ### Policies -/

/-- `CheckpointFlushPolicy`. -/
structure CheckpointFlushPolicy where
  flushInterval : Nat
  flushRecords : Nat
  flushBytes : Nat

/-- `ReplayWindowPolicy`. -/
structure ReplayWindowPolicy where
  maxRecords : Nat
  maxBytes : Nat

/-- `SinkBatchPolicy`. -/
structure SinkBatchPolicy where
  maxEvents : Nat
  maxBytes : Nat
  timeout : Nat

/-- `checkpoint_flush_policy`. -/
def checkpointFlushPolicy [DurationCodec] (settings : CheckpointSettings) :
    Except ReplayIssue CheckpointFlushPolicy :=
  match DurationCodec.parseDuration settings.flushInterval with
  | .error error =>
    .error (.checkpointConfigInvalid s!"invalid checkpoint.flush_interval: {error}")
  | .ok flushInterval =>
    .ok ⟨max flushInterval millisecond, max settings.flushRecords 1, max settings.flushBytes 1⟩

/-- `replay_window_policy`. -/
def replayWindowPolicy (settings : ReplaySettings) : ReplayWindowPolicy :=
  ⟨max settings.maxRecords 1, max settings.maxBytes 1⟩

/-- `sink_batch_policy`. -/
def sinkBatchPolicy [DurationCodec] (settings : ReplaySettings)
    (overrideConfig : Option EventSinkBatchConfig) : Except ReplayIssue SinkBatchPolicy :=
  let timeout := (overrideConfig.bind EventSinkBatchConfig.timeout).getD settings.sinkBatch.timeout
  match DurationCodec.parseDuration timeout with
  | .error error => .error (.sinkBatchConfigInvalid s!"invalid sink_batch.timeout: {error}")
  | .ok timeout =>
    .ok {
      maxEvents :=
        max ((overrideConfig.bind EventSinkBatchConfig.maxEvents).getD
          settings.sinkBatch.maxEvents) 1
      maxBytes :=
        max ((overrideConfig.bind EventSinkBatchConfig.maxBytes).getD settings.sinkBatch.maxBytes) 1
      timeout := timeout }

/-- The batch policy of one sink of the context. -/
def sinkPolicy [DurationCodec] (context : WalReplayContext) (sinkName : String) :
    Except ReplayIssue SinkBatchPolicy :=
  sinkBatchPolicy context.replay
    ((context.eventSinks.lookup sinkName).bind EventSinkEntry.batchConfig)

/-! ### Processing one record -/

/-- `request_context`: header names are lowercased, a later name wins. -/
def requestContext (record : WalRecord) : ProcessorRequestContext :=
  let http := record.http
  { ip := http.remoteAddr
    method := http.method
    path := http.path
    headers := http.headers.foldl (fun table (name, value) =>
      table.insert (name.map Char.toLower) value) ∅
    requestId := some record.recordId
    receivedAtMs := some record.receivedAtMs }

/-- **`process_record`.** -/
def processRecord [JsonCodec] (context : WalReplayContext) (record : WalRecord) :
    Except ReplayIssue (List ProcessorDelivery) :=
  match JsonCodec.fromSlice record.payload with
  | .error error => .error (.invalidJsonBody error)
  | .ok json =>
    let xwhat := (json.get "xwhat").bind Value.asStr
    if ¬context.containsProjectId record.projectId then
      .error (.unknownProjectId record.projectId xwhat)
    else
      match context.processEvent record.projectId json (requestContext record) with
      | .error error => .error (.processorRuntimeFailed error)
      | .ok deliveries => .ok deliveries

/-- The loop of `group_deliveries_by_sink`. -/
def groupDeliveriesLoop (context : WalReplayContext) :
    List ProcessorDelivery → SortedTable String (List Value) →
    Except ReplayIssue (SortedTable String (List Value))
  | [], table => .ok table
  | delivery :: deliveries, table =>
    if Text.trim delivery.target = "" then .error .emptySinkTarget
    else if (context.eventSinks.lookup delivery.target).isSome then
      groupDeliveriesLoop context deliveries
        (table.insert delivery.target ((table.lookup delivery.target).getD [] ++ [delivery.event]))
    else .error (.unknownSinkTarget delivery.target)

/-- **`group_deliveries_by_sink`.** -/
def groupDeliveriesBySink (context : WalReplayContext) (deliveries : List ProcessorDelivery) :
    Except ReplayIssue (SortedTable String (List Value)) :=
  groupDeliveriesLoop context deliveries ∅

/-- `json_event_bytes`. -/
def jsonEventBytes [JsonCodec] (event : Value) : Nat :=
  match JsonCodec.toVec event with
  | .ok bytes => bytes.length
  | .error _ => 0

/-! ### Windows -/

/-- `ReplayEntryDeliveries`: an entry with its deliveries by sink. -/
structure ReplayEntryDeliveries where
  entry : WalEntry
  deliveriesBySink : SortedTable String (List Value)

/-- `SinkDeliveryEvent`. -/
structure SinkDeliveryEvent where
  nodeId : String
  lsn : Nat
  event : Value
  bytes : Nat

/-- The length of an entry's frame, as the replay counts it. -/
def entryBytes (entry : WalEntry) : Nat := entry.nextPosition.offset - entry.position.offset

/-- `u64::saturating_add`. -/
def saturatingAdd (a b : Nat) : Nat := min (a + b) (2 ^ 64 - 1)

/-- `replay_batch_bytes`. -/
def replayBatchBytes (batch : List ReplayEntryDeliveries) : Nat :=
  batch.foldl (fun bytes item => saturatingAdd bytes (entryBytes item.entry)) 0

/-- `replay_batch_reaches_window_policy`. -/
def replayBatchReachesWindowPolicy (batch : List ReplayEntryDeliveries)
    (policy : ReplayWindowPolicy) : Bool :=
  decide (policy.maxRecords ≤ batch.length) || decide (policy.maxBytes ≤ replayBatchBytes batch)

/-- `checkpoint_covers_entry`. -/
def checkpointCoversEntry (checkpoint : Option WalPosition) (entry : WalEntry) : Bool :=
  checkpoint.any fun checkpoint => decide (entry.position.lsn ≤ checkpoint.lsn)

/-- The delivery events of one entry for one sink. -/
def sinkDeliveryEvents [JsonCodec] (entry : WalEntry) (events : List Value) :
    List SinkDeliveryEvent :=
  events.map fun event => ⟨entry.record.nodeId, entry.position.lsn, event, jsonEventBytes event⟩

/-- The inner loop of `replay_batch_to_sinks`: add the deliveries of one entry. -/
def addEntryDeliveries [JsonCodec] (item : ReplayEntryDeliveries)
    (table : SortedTable String (List SinkDeliveryEvent)) :
    SortedTable String (List SinkDeliveryEvent) :=
  item.deliveriesBySink.entries.foldl (fun table (sinkName, events) =>
    if events = [] then table
    else
      table.insert sinkName
        ((table.lookup sinkName).getD [] ++ sinkDeliveryEvents item.entry events)) table

/-- `sink_events_by_name` of `replay_batch_to_sinks`. -/
def sinkEventsByName [JsonCodec] (checkpoint : Option WalPosition)
    (batch : List ReplayEntryDeliveries) : SortedTable String (List SinkDeliveryEvent) :=
  batch.foldl (fun table item =>
    if checkpointCoversEntry checkpoint item.entry then table
    else addEntryDeliveries item table) ∅

/-- `sink_delivery_events_bytes`. -/
def sinkDeliveryEventsBytes (events : List SinkDeliveryEvent) : Nat :=
  events.foldl (fun bytes event => saturatingAdd bytes event.bytes) 0

end Ingest4x.Wal
