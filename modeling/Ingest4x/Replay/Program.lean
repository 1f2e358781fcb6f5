import Ingest4x.Replay.Context
import Ingest4x.Wal.Writer

/-! # The replay

`replay_once`: read the log from the checkpoint, run the processor on each record, collect windows,
send each sink its events in batches, and move the checkpoint. The checkpoint state of the call and
the deferral times that survive the call are the local state of the commands. -/

namespace Ingest4x.Wal

open Effect

/-- `ReplayCheckpointState`. -/
structure ReplayCheckpointState where
  checkpoint : Option WalPosition
  pendingCheckpoint : Option WalPosition
  pendingRecords : Nat
  pendingBytes : Nat
  lastCheckpointFlush : Nat
  deriving DecidableEq

/-- `WalReplayRuntimeState`: since when each sink has waited for more events. -/
abbrev PendingSince : Type := SortedTable String Nat

/-- **The local state of a replay call**: the checkpoint state, and the runtime state if the call
was given one. -/
structure ReplayLocal where
  state : ReplayCheckpointState
  runtime : Option PendingSince

/-- `ReplayBatchFlushMode`. -/
inductive ReplayBatchFlushMode
  | allowDefer
  | force
  deriving DecidableEq

/-- How a replay call ends early: with an issue, or in one of its `expect`s. -/
inductive ReplayError
  | issue (issue : ReplayIssue)
  | panic (message : String)
  deriving DecidableEq

/-- Commands of the replay. -/
abbrev Replay : Type → Type := Cmd SysOp SysResp ReplayLocal ReplayError

variable [RecordCodec] [CheckpointCodec] [DurationCodec] [JsonCodec]

/-! ### The checkpoint -/

/-- **`write_checkpoint`.** -/
def writeCheckpoint {τ : Type} (position : WalPosition) : Sys τ Unit := do
  let dir ← readDir
  let nodeId ← (MonadExcept.ofExcept (readNodeId dir) : Sys τ String)
  let updatedAt ← sys .nowMs
  fileOp (sys (.writeCheckpointFile
    (CheckpointCodec.toVec (WalCheckpoint.new position nodeId none updatedAt.toNat))))

/-- `checkpoint_before_wal_floor`. -/
def checkpointBeforeWalFloor (position : WalPosition) (bounds : WalBounds) : Bool :=
  match bounds.floor with
  | none => false
  | some floor =>
    decide (position.segment < floor.segment) ||
      (decide (position.segment = floor.segment) && decide (position.offset < floor.offset))

/-- **`reset_checkpoint`.** -/
def resetCheckpoint {τ : Type} (reset : AutoOffsetReset) (bounds : WalBounds) :
    Sys τ (Option WalPosition) :=
  match reset with
  | .earliest => pure none
  | .latest =>
    match bounds.tail with
    | none => pure none
    | some position => do
      writeCheckpoint position
      pure (some position)

/-- **`read_checkpoint`.** -/
def readCheckpoint {τ : Type} (reset : AutoOffsetReset) (bounds : WalBounds) :
    Sys τ (Option WalPosition) := do
  let dir ← readDir
  match dir.checkpointFile with
  | none => resetCheckpoint reset bounds
  | some file => do
    let position ← (MonadExcept.ofExcept
      (readCheckpointFile (checkpointPath dir.path) (readNodeId dir) file) : Sys τ WalPosition)
    if checkpointBeforeWalFloor position bounds then resetCheckpoint reset bounds
    else pure (some position)

/-- **`read_replay_checkpoint_state`.** -/
def readReplayCheckpointState {τ : Type} (eventSinks : EventSinks) :
    Sys τ ReplayCheckpointState := do
  let dir ← readDir
  let bounds ← (MonadExcept.ofExcept (readWalBounds dir) : Sys τ WalBounds)
  let checkpoint ← readCheckpoint (pipelineAutoOffsetReset eventSinks) bounds
  let now ← sys .instantNow
  pure ⟨checkpoint, none, 0, 0, now⟩

/-- **`initialize_replay_checkpoint`.** -/
def initializeReplayCheckpoint {τ : Type} (eventSinks : EventSinks) : Sys τ Unit := do
  let _ ← readReplayCheckpointState eventSinks
  pure ()

/-- `mark_checkpoint_pending`. -/
def markCheckpointPending (state : ReplayCheckpointState) (entry : WalEntry) :
    ReplayCheckpointState :=
  { state with
    pendingCheckpoint := some entry.nextPosition
    pendingRecords := state.pendingRecords + 1
    pendingBytes := state.pendingBytes + entryBytes entry }

/-- **`flush_pending_checkpoint`.** -/
def flushPendingCheckpoint : Sys ReplayLocal Unit := do
  let env ← get
  match env.state.pendingCheckpoint with
  | none => pure ()
  | some position => do
    writeCheckpoint position
    let now ← sys .instantNow
    set { env with state := ⟨some position, none, 0, 0, now⟩ }

/-- The loop of `remove_segments_covered_by_checkpoint`: was a segment removed? -/
def removeCoveredLoop {τ : Type} (path : String) (checkpointLsn keepFromSegment : Nat) :
    List (Nat × SegmentFile) → Bool → Sys τ Bool
  | [], removed => pure removed
  | (segmentId, file) :: segments, removed =>
    if keepFromSegment ≤ segmentId then
      removeCoveredLoop path checkpointLsn keepFromSegment segments removed
    else do
      let covered ← (MonadExcept.ofExcept
        (segmentCovered path segmentId file.bytes checkpointLsn) : Sys τ Bool)
      if covered then do
        fileOp (sys (.removeSegment .cleanup segmentId))
        removeCoveredLoop path checkpointLsn keepFromSegment segments true
      else removeCoveredLoop path checkpointLsn keepFromSegment segments removed

/-- **`remove_segments_covered_by_checkpoint`.** -/
def removeSegmentsCoveredByCheckpoint {τ : Type} (checkpointLsn keepFromSegment : Nat) :
    Sys τ Unit := do
  let dir ← readDir
  let removed ← removeCoveredLoop dir.path checkpointLsn keepFromSegment dir.segments.entries false
  if removed then fileOp (sys (.syncDirectory .cleanup)) else pure ()

/-- **`cleanup_covered_segments`.** -/
def cleanupCoveredSegments : Sys ReplayLocal Unit := do
  let env ← get
  match env.state.checkpoint with
  | none => pure ()
  | some watermark => removeSegmentsCoveredByCheckpoint watermark.lsn watermark.segment

/-- A file error of the replay as an issue. -/
def orIssue (issue : IoError → ReplayIssue) {α : Type} (c : Sys ReplayLocal α) : Replay α :=
  c.mapError fun error => .issue (issue error)

/-! ### Sending batches -/

/-- The variables of `send_sink_events_in_batches`. -/
structure SinkBatch where
  events : List Value
  bytes : Nat
  nodeId : Option String
  firstLsn : Option Nat
  lastLsn : Option Nat

/-- How sending fails: with the first LSN of the batch and the sink's error, or in an `expect`. -/
inductive SendError
  | failed (lsn : Nat) (error : String)
  | panic (message : String)

/-- `Option::expect`. -/
def expect {τ α : Type} (message : String) : Option α → Cmd SysOp SysResp τ SendError α
  | some a => pure a
  | none => throw (.panic message)

/-- `send_sink_batch`. -/
def sendSinkBatch {τ : Type} (sinkName : String) (events : List Value)
    (metadata : EventSinkBatchMetadata) : Cmd SysOp SysResp τ SendError Unit := do
  let result ← (Cmd.perform (SysOp.sendBatch sinkName events metadata) :
    Cmd SysOp SysResp τ SendError (Except String Unit))
  match result with
  | .ok () => pure ()
  | .error error => throw (.failed metadata.lsnStart error)

/-- Does the next delivery start a new batch? -/
def startsNewBatch (policy : SinkBatchPolicy) (batch : SinkBatch) (delivery : SinkDeliveryEvent) :
    Bool :=
  decide (policy.maxEvents ≤ batch.events.length) ||
    (decide (batch.events ≠ []) &&
      decide (policy.maxBytes < saturatingAdd batch.bytes delivery.bytes))

/-- Add a delivery to the batch. -/
def SinkBatch.push (batch : SinkBatch) (delivery : SinkDeliveryEvent) : SinkBatch :=
  { events := batch.events ++ [delivery.event]
    bytes := saturatingAdd batch.bytes delivery.bytes
    nodeId := some (batch.nodeId.getD delivery.nodeId)
    firstLsn := some (batch.firstLsn.getD delivery.lsn)
    lastLsn := some delivery.lsn }

/-- The loop of `send_sink_events_in_batches`. -/
def sendBatchesLoop {τ : Type} (sinkName : String) (policy : SinkBatchPolicy) :
    List SinkDeliveryEvent → SinkBatch → Cmd SysOp SysResp τ SendError SinkBatch
  | [], batch => pure batch
  | delivery :: deliveries, batch =>
    if startsNewBatch policy batch delivery then do
      let failedLsn ← expect "non-empty sink batch should have first lsn" batch.firstLsn
      let nodeId ← expect "non-empty sink batch should have node id" batch.nodeId
      let lastLsn ← expect "non-empty sink batch should have last lsn" batch.lastLsn
      sendSinkBatch sinkName batch.events ⟨nodeId, failedLsn, lastLsn⟩
      sendBatchesLoop sinkName policy deliveries
        (SinkBatch.push { batch with events := [], bytes := 0, nodeId := none, firstLsn := none }
          delivery)
    else sendBatchesLoop sinkName policy deliveries (batch.push delivery)

/-- **`send_sink_events_in_batches`.** The last batch carries the node id of the first event of the
list. -/
def sendSinkEventsInBatches {τ : Type} (sinkName : String) (events : List SinkDeliveryEvent)
    (policy : SinkBatchPolicy) : Cmd SysOp SysResp τ SendError Unit := do
  let batch ← sendBatchesLoop sinkName policy events ⟨[], 0, none, none, none⟩
  if batch.events = [] then pure ()
  else do
    let failedLsn ← expect "non-empty sink batch should have first lsn" batch.firstLsn
    let nodeId ← expect "index out of bounds" (events.head?.map SinkDeliveryEvent.nodeId)
    let lastLsn ← expect "non-empty sink batch should have last lsn" batch.lastLsn
    sendSinkBatch sinkName batch.events ⟨nodeId, failedLsn, lastLsn⟩

/-! ### Windows -/

/-- **The loop of `sinks_deferred_by_batch_timeout`** at time `now`: the sinks that wait, and the
times they wait since. A sink that is full or has waited long enough ends the waiting of all. -/
def sinksDeferredLoop (context : WalReplayContext) (now : Nat) :
    List (String × List SinkDeliveryEvent) → List String → PendingSince →
    Except ReplayIssue (List String) × PendingSince
  | [], deferred, pending => (.ok deferred, pending)
  | (sinkName, events) :: sinks, deferred, pending =>
    match sinkPolicy context sinkName with
    | .error issue => (.error issue, pending)
    | .ok policy =>
      if policy.timeout = 0 ∨ policy.maxEvents ≤ events.length ∨
          policy.maxBytes ≤ sinkDeliveryEventsBytes events then (.ok [], pending)
      else
        let pendingSince := (pending.lookup sinkName).getD now
        let pending := SortedTable.insert pending sinkName pendingSince
        if policy.timeout ≤ now - pendingSince then (.ok [], pending)
        else sinksDeferredLoop context now sinks (deferred ++ [sinkName]) pending

/-- **`sinks_deferred_by_batch_timeout`.** -/
def sinksDeferredByBatchTimeout (context : WalReplayContext)
    (sinkEvents : SortedTable String (List SinkDeliveryEvent)) : Replay (List String) := do
  let env ← get
  if sinkEvents.entries = [] then pure []
  else
    match env.runtime with
    | none => pure []
    | some pending => do
      let now ← (Cmd.perform SysOp.instantNow : Replay Nat)
      let (deferred, pending) := sinksDeferredLoop context now sinkEvents.entries [] pending
      set { env with runtime := some pending }
      MonadExcept.ofExcept (deferred.mapError .issue)

/-- `should_flush_checkpoint`, with the checkpoint state of the call. -/
def shouldFlushCheckpoint (policy : CheckpointFlushPolicy) (state : ReplayCheckpointState) :
    Replay Bool :=
  if policy.flushRecords ≤ state.pendingRecords ∨ policy.flushBytes ≤ state.pendingBytes then
    pure true
  else do
    let now ← (Cmd.perform SysOp.instantNow : Replay Nat)
    pure (decide (policy.flushInterval ≤ now - state.lastCheckpointFlush))

/-- Send one sink the events of a window. -/
def sendSinkWindow (context : WalReplayContext) (sinkName : String)
    (events : List SinkDeliveryEvent) : Replay Unit := do
  let policy ← ((MonadExcept.ofExcept ((sinkPolicy context sinkName).mapError .issue)) :
    Replay SinkBatchPolicy)
  (sendSinkEventsInBatches sinkName events policy).mapError fun
    | .failed lsn error => .issue (.sinkSendFailed sinkName lsn error)
    | .panic message => .panic message

/-- The entries of a window become pending, less those the checkpoint covers. -/
def markBatchPending (state : ReplayCheckpointState) (batch : List ReplayEntryDeliveries) :
    ReplayCheckpointState :=
  batch.foldl (fun state item =>
    if checkpointCoversEntry state.checkpoint item.entry then state
    else markCheckpointPending state item.entry) state

/-- The part of `replay_batch_to_sinks` after the sends: the sinks no longer wait, the entries
become pending, and the checkpoint is written where a threshold is reached. -/
def commitBatch (policy : CheckpointFlushPolicy)
    (sinkEvents : SortedTable String (List SinkDeliveryEvent))
    (batch : List ReplayEntryDeliveries) : Replay Unit := do
  let env ← get
  let runtime := env.runtime.map fun pending => SortedTable.filter pending fun sinkName _ =>
    (sinkEvents.lookup sinkName).isNone
  let state := markBatchPending env.state batch
  set (ReplayLocal.mk state runtime)
  let flush ← shouldFlushCheckpoint policy state
  if flush then do
    orIssue .checkpointWriteFailed flushPendingCheckpoint
    orIssue .checkpointWriteFailed cleanupCoveredSegments
  else pure ()

/-- **`replay_batch_to_sinks`**: `false` where the window was deferred. -/
def replayBatchToSinks (context : WalReplayContext) (policy : CheckpointFlushPolicy)
    (batch : List ReplayEntryDeliveries) (mode : ReplayBatchFlushMode) : Replay Bool :=
  if batch = [] then pure true
  else do
    let env ← get
    let sinkEvents := sinkEventsByName env.state.checkpoint batch
    let deferredSinks ←
      (match mode with
      | .allowDefer => sinksDeferredByBatchTimeout context sinkEvents
      | .force => pure [])
    if deferredSinks ≠ [] then pure false
    else do
      Cmd.forEach (fun (sinkName, events) => sendSinkWindow context sinkName events)
        sinkEvents.entries
      commitBatch policy sinkEvents batch
      pure true

/-! ### The call -/

/-- `quarantine_replay_issue`. -/
def quarantineReplayIssue (entry : WalEntry) (issue : ReplayIssue) : Replay Unit := do
  Cmd.perform (SysOp.quarantine entry issue)
  modify fun env => { env with state := markCheckpointPending env.state entry }

/-- The variables of the loop of `replay_once_inner`. -/
structure ReplayLoop where
  expectedLsn : Option Nat
  replayBatch : List ReplayEntryDeliveries
  replayed : Nat

/-- What processing and grouping one record gives; an issue of the grouping that does not quarantine
stops the replay without a flush, one of the processing flushes first. -/
inductive Processed
  | deliveries (bySink : SortedTable String (List Value))
  | quarantine (issue : ReplayIssue)
  | stopAfterFlush (issue : ReplayIssue)
  | stop (issue : ReplayIssue)

/-- `process_record` and `group_deliveries_by_sink` on one record. -/
def processEntry (context : WalReplayContext) (entry : WalEntry) : Processed :=
  match processRecord context entry.record with
  | .error issue =>
    if issue.action = .quarantineRecord then .quarantine issue else .stopAfterFlush issue
  | .ok deliveries =>
    match groupDeliveriesBySink context deliveries with
    | .error issue => if issue.action = .quarantineRecord then .quarantine issue else .stop issue
    | .ok bySink => .deliveries bySink

/-- **The loop of `replay_once_inner`** over the entries read. -/
def replayEntries (context : WalReplayContext) (policy : CheckpointFlushPolicy)
    (window : ReplayWindowPolicy) : List WalEntry → ReplayLoop → Replay ReplayLoop
  | [], loop => pure loop
  | entry :: entries, loop =>
    let expected := loop.expectedLsn.getD entry.position.lsn
    if entry.position.lsn ≠ expected then do
      let _ ← replayBatchToSinks context policy loop.replayBatch .force
      throw (.issue (.walLsnGap expected entry.position.lsn))
    else
      match processEntry context entry with
      | .quarantine issue => do
        let _ ← replayBatchToSinks context policy loop.replayBatch .force
        quarantineReplayIssue entry issue
        replayEntries context policy window entries
          ⟨some (entry.position.lsn + 1), [], loop.replayed + 1⟩
      | .stopAfterFlush issue => do
        let _ ← replayBatchToSinks context policy loop.replayBatch .force
        throw (.issue issue)
      | .stop issue => throw (.issue issue)
      | .deliveries bySink =>
        let batch := loop.replayBatch ++ [⟨entry, bySink⟩]
        if replayBatchReachesWindowPolicy batch window then do
          let _ ← replayBatchToSinks context policy batch .force
          replayEntries context policy window entries
            ⟨some (entry.position.lsn + 1), [], loop.replayed + 1⟩
        else
          replayEntries context policy window entries
            ⟨some (entry.position.lsn + 1), batch, loop.replayed + 1⟩

/-- `REPLAY_BATCH_SIZE`. -/
def replayBatchSize : Nat := 1024

/-- The part of `replay_once_inner` after the entries are read. -/
def replayFrom (context : WalReplayContext) (policy : CheckpointFlushPolicy)
    (replayStart : Option WalPosition) (entries : List WalEntry) : Replay Nat := do
  let loop ← replayEntries context policy (replayWindowPolicy context.replay) entries
    ⟨replayStart.map fun position => position.lsn + 1, [], 0⟩
  let flushed ← replayBatchToSinks context policy loop.replayBatch .allowDefer
  if flushed then do
    orIssue .checkpointWriteFailed flushPendingCheckpoint
    orIssue .checkpointWriteFailed cleanupCoveredSegments
    pure loop.replayed
  else pure 0

/-- **`replay_once_inner`.** The checkpoint state that the call starts with is overwritten by the one
it reads. -/
def replayOnceInner (context : WalReplayContext) : Replay Nat := do
  let policy ← (MonadExcept.ofExcept
    ((checkpointFlushPolicy context.checkpoint).mapError .issue) : Replay CheckpointFlushPolicy)
  if context.eventSinks.entries = [] then pure 0
  else do
    let state ← orIssue .checkpointCorrupt (readReplayCheckpointState context.eventSinks)
    modify fun env => { env with state := state }
    let entries ← orIssue .walReadFailed (do
      let dir ← readDir
      MonadExcept.ofExcept (readEntriesAfterLimit dir state.checkpoint (some replayBatchSize)))
    replayFrom context policy state.checkpoint entries

end Ingest4x.Wal
