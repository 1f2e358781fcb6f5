import Ingest4x.Settings
import Ingest4x.Wal.System

/-! # The log writer

`WalWriter`: starting on a directory, buffering records and flushing the buffer into the active
segment. The state behind the mutex is the local state of the commands; what the source does to it
before an error stays done.

The source's `u64` counters are natural numbers here; where one of them would overflow, the command
stops with an error and changes nothing. -/

namespace Ingest4x.Wal

open Effect

/-- `BufferedWalRecord`: a record not yet written, with the channel its append waits on. -/
structure BufferedWalRecord where
  record : WalRecord
  response : Option Nat
  deriving DecidableEq

/-- **`WalWriterState`.** -/
structure WalWriterState where
  segmentId : Nat
  offset : Nat
  nextLsn : Nat
  buffered : List BufferedWalRecord
  deriving DecidableEq

/-- `WalWriterInner`, less the state. -/
structure WalWriterInner where
  nodeId : String
  segmentMaxBytes : Nat
  flushInterval : Nat
  flushRecords : Nat
  noSync : Bool
  minFreeBytes : Nat
  deriving DecidableEq

/-- Commands of the log with local state `τ`. -/
abbrev Sys (τ : Type) : Type → Type := Cmd SysOp SysResp τ IoError

variable {τ : Type}

/-- Perform an operation. -/
abbrev sys (o : SysOp) : Sys τ (SysResp o) := Cmd.perform o

/-- Perform a file operation and stop where it fails. -/
abbrev fileOp {α : Type} (c : Sys τ (Except IoError α)) : Sys τ α := c.orThrow

/-- Read the directory. -/
def readDir : Sys τ WalDir := fileOp (sys .readDir)

/-- A `u64` counter after one more step. -/
def checkedNext (n : Nat) : Except IoError Nat :=
  if n + 1 < 2 ^ 64 then .ok (n + 1) else .error (.other "attempt to add with overflow")

/-! ### Segment files -/

/-- `ensure_wal_disk_space`. -/
def ensureWalDiskSpace (minFreeBytes estimatedWalBytes : Nat) : Sys τ Unit :=
  if minFreeBytes = 0 then pure ()
  else do
    let availableBytes ← fileOp (sys .availableSpace)
    if availableBytes - estimatedWalBytes < minFreeBytes then
      throw (.other (s!"wal disk space is insufficient: available_bytes={availableBytes} " ++
        s!"estimated_wal_bytes={estimatedWalBytes} min_free_bytes={minFreeBytes}"))
    else pure ()

variable [RecordCodec]

/-- **`create_segment_file`.** -/
def createSegmentFile (site : Site) (segmentId : Nat) (nodeId : String) (startLsn : Nat) :
    Sys τ Unit := do
  let nowMs ← sys .nowMs
  let header ← (MonadExcept.ofExcept
    (serializeSegmentHeader (UInt64.ofNat segmentId) nodeId (UInt64.ofNat startLsn) nowMs) :
    Sys τ Bytes)
  fileOp (sys (.createSegment site segmentId header))

/-- **`ensure_segment_file`.** A file that holds only a header with another start LSN is created
again. -/
def ensureSegmentFile (site : Site) (segmentId : Nat) (nodeId : String) (startLsn : Nat) :
    Sys τ Unit := do
  let dir ← readDir
  match dir.segments.lookup segmentId with
  | none => createSegmentFile site segmentId nodeId startLsn
  | some file =>
    let path := segmentPath dir.path segmentId
    let (header, _) ← (MonadExcept.ofExcept (readSegmentHeader path file.bytes) :
      Sys τ (SegmentHeader × Bytes))
    let found := header.segmentId
    if found ≠ UInt64.ofNat segmentId then
      throw (.invalidData s!"wal segment id mismatch: expected {segmentId}, got {found}: {path}")
    else if header.nodeId ≠ nodeId then
      throw (.invalidData s!"wal segment node_id mismatch: {path}")
    else if file.bytes.length = segmentHeaderLen ∧ header.startLsn ≠ UInt64.ofNat startLsn then do
      fileOp (sys (.removeSegment site segmentId))
      fileOp (sys (.syncDirectory site))
      createSegmentFile site segmentId nodeId startLsn
    else pure ()

/-- **`repair_segment_tail`** on the file of a segment. -/
def repairSegmentTailFile (segmentId : Nat) : Sys τ Nat := do
  let dir ← readDir
  match dir.segments.lookup segmentId with
  | none => throw notFoundError
  | some file => do
    let scan ← (MonadExcept.ofExcept
      (scanSegment (segmentPath dir.path segmentId) segmentId file.bytes) : Sys τ SegmentScan)
    fileOp (sys (.truncateSegment .start segmentId scan.validOffset))
    pure scan.validOffset

/-! ### Flushing -/

/-- The rotation of `append_frame_locked`: go on to the next segment. -/
def rotateSegment (inner : WalWriterInner) (lsn : Nat) : Sys WalWriterState Unit := do
  let state ← get
  let segmentId ← (MonadExcept.ofExcept (checkedNext state.segmentId) : Sys WalWriterState Nat)
  set { state with segmentId := segmentId, offset := segmentHeaderLen }
  ensureSegmentFile .rotate segmentId inner.nodeId lsn

/-- **`append_frame_locked`**, for a frame with this LSN. -/
def appendFrameLocked (inner : WalWriterInner) (bytes : Bytes) (lsn : Nat) (sync : Bool) :
    Sys WalWriterState WalPosition := do
  let state ← get
  (if segmentHeaderLen < state.offset ∧ inner.segmentMaxBytes < state.offset + bytes.length then
    rotateSegment inner lsn
  else pure ())
  ensureWalDiskSpace inner.minFreeBytes bytes.length
  let state ← get
  fileOp (sys (.appendSegment state.segmentId bytes))
  (if sync then fileOp (sys (.syncSegment state.segmentId)) else pure ())
  set { state with offset := state.offset + bytes.length }
  pure ⟨lsn, state.segmentId, state.offset⟩

/-- The loop of `flush_buffer_locked` over the buffered records. -/
def appendBufferedFrames (inner : WalWriterInner) :
    List BufferedWalRecord → Sys WalWriterState (List WalPosition)
  | [] => pure []
  | entry :: entries => do
    let bytes ← (MonadExcept.ofExcept (serializeFrame entry.record) : Sys WalWriterState Bytes)
    let position ← appendFrameLocked inner bytes entry.record.lsn.toNat false
    let positions ← appendBufferedFrames inner entries
    pure (position :: positions)

/-- The ordered set `touched_segments`. -/
def touchedSegments (positions : List WalPosition) : List Nat :=
  (positions.foldl (fun set position => set.insert position.segment ())
    (∅ : SortedTable Nat Unit)).keys

/-- The fallible part of `flush_buffer_locked`: append every frame, then sync what was touched. -/
def writeBuffered (inner : WalWriterInner) (buffered : List BufferedWalRecord) :
    Sys WalWriterState (List WalPosition) := do
  let positions ← appendBufferedFrames inner buffered
  Cmd.forEach (fun segmentId => fileOp (sys (.syncSegment segmentId)))
    (touchedSegments positions)
  pure positions

/-- Remove a segment that the rolled-back flush may have created. -/
def removeStaleSegment (segmentId : Nat) : Sys τ Unit := do
  let result ← sys (.removeSegment .rollback segmentId)
  match result with
  | .ok () => pure ()
  | .error error => if error.kind = .notFound then pure () else throw error

/-- **`truncate_after`.** -/
def truncateAfter (segmentId offset currentSegmentId : Nat) : Sys τ Unit := do
  fileOp (sys (.truncateSegment .rollback segmentId offset))
  Cmd.forEach removeStaleSegment (List.range' (segmentId + 1) (currentSegmentId - segmentId))
  fileOp (sys (.syncDirectory .rollback))

/-- `notify_buffered_success`. -/
def notifyBufferedSuccess (buffered : List BufferedWalRecord) (positions : List WalPosition) :
    Sys τ Unit :=
  Cmd.forEach (fun (entry, position) =>
    match entry.response with
    | some channel => sys (.respond channel entry.record (.ok position))
    | none => pure ()) (buffered.zip positions)

/-- `notify_buffered_failure`. -/
def notifyBufferedFailure (buffered : List BufferedWalRecord) (message : String) : Sys τ Unit :=
  Cmd.forEach (fun entry =>
    match entry.response with
    | some channel => sys (.respond channel entry.record (.error (.other message)))
    | none => pure ()) buffered

/-- **`flush_buffer_locked`.** -/
def flushBufferLocked (inner : WalWriterInner) : Sys WalWriterState Unit := do
  let before ← get
  match before.buffered with
  | [] => pure ()
  | first :: rest => do
    let buffered := first :: rest
    set { before with buffered := [] }
    let result ← (writeBuffered inner buffered).attempt
    match result with
    | .error error => do
      let state ← get
      truncateAfter before.segmentId before.offset state.segmentId
      (if buffered.any fun entry => entry.response.isSome then do
        -- the appends were answered with the error, so their LSNs are free again
        set (WalWriterState.mk before.segmentId before.offset first.record.lsn.toNat [])
        notifyBufferedFailure buffered error.message
      else
        set (WalWriterState.mk before.segmentId before.offset state.nextLsn buffered))
      throw error
    | .ok positions => notifyBufferedSuccess buffered positions

/-- **`append_buffered`**: give the record the next LSN and buffer it; a full buffer is flushed. -/
def appendBuffered (inner : WalWriterInner) (record : WalRecord) (response : Option Nat) :
    Sys WalWriterState WalPosition := do
  let state ← get
  let nextLsn ← (MonadExcept.ofExcept (checkedNext state.nextLsn) : Sys WalWriterState Nat)
  let buffered :=
    state.buffered ++ [⟨assignWalMetadata record state.nextLsn inner.nodeId, response⟩]
  set { state with nextLsn := nextLsn, buffered := buffered }
  (if inner.flushRecords ≤ buffered.length then flushBufferLocked inner else pure ())
  pure ⟨state.nextLsn, state.segmentId, state.offset⟩

/-- `Drop` of the last handle: flush what is buffered, and only log a failure. -/
def dropWriter (inner : WalWriterInner) : Sys WalWriterState Unit := do
  let _ ← (flushBufferLocked inner).attempt
  pure ()

/-! ### Starting -/

/-- `validate_node_id`. -/
def validateNodeId (nodeId : String) : Except IoError Unit :=
  if nodeId.toList.all fun c => c.isAlphanum || c == '_' || c == '-' || c == '.' then .ok ()
  else .error (.invalidInput "wal node_id can only contain [A-Za-z0-9_.-]")

/-- The last lines of `resolve_node_id`: a new node id. -/
def newNodeId : Sys τ String := do
  let nodeId ← sys .newUuid
  fileOp (sys (.writeNodeIdFile nodeId))
  pure nodeId

/-- **`resolve_node_id`.** -/
def resolveNodeId (configuredNodeId : Option String) : Sys τ String := do
  let dir ← readDir
  match (configuredNodeId.map Text.trim).filter fun nodeId => nodeId ≠ "" with
  | some nodeId => do
    (MonadExcept.ofExcept (validateNodeId nodeId) : Sys τ Unit)
    match dir.nodeIdFile with
    | some text =>
      let existing := Text.trim text
      if existing ≠ nodeId then
        throw (.invalidInput (s!"configured wal node_id '{nodeId}' conflicts with persisted " ++
          s!"node_id '{existing}'"))
      else pure nodeId
    | none => do
      fileOp (sys (.writeNodeIdFile nodeId))
      pure nodeId
  | none =>
    match dir.nodeIdFile with
    | some text =>
      if Text.trim text ≠ "" then do
        (MonadExcept.ofExcept (validateNodeId (Text.trim text)) : Sys τ Unit)
        pure (Text.trim text)
      else newNodeId
    | none => newNodeId

variable [CheckpointCodec] [DurationCodec]

/-- **`WalWriter::new`.** -/
def WalWriter.new (settings : WalSettings) : Sys τ (WalWriterInner × WalWriterState) := do
  fileOp (sys .createDirAll)
  fileOp (sys .acquireWalLock)
  let nodeId ← resolveNodeId settings.nodeId
  let dir ← readDir
  let checkpoint ← (MonadExcept.ofExcept (readPipelineCheckpoint dir nodeId) :
    Sys τ (Option WalCheckpoint))
  let segmentId := recoverActiveSegmentId dir checkpoint
  (if 2 ^ 64 ≤ segmentId then throw (.other "attempt to add with overflow") else pure ())
  let nextLsn ← (MonadExcept.ofExcept (recoverNextLsn dir checkpoint) : Sys τ Nat)
  (if 2 ^ 64 ≤ nextLsn then throw (.other "attempt to add with overflow") else pure ())
  ensureSegmentFile .start segmentId nodeId nextLsn
  let offset ← repairSegmentTailFile segmentId
  ensureWalDiskSpace settings.write.minFreeBytes 0
  match DurationCodec.parseDuration settings.write.flushInterval with
  | .error error => throw (.invalidInput s!"invalid wal.write.flush_interval: {error}")
  | .ok flushInterval =>
    pure ({
      nodeId := nodeId
      segmentMaxBytes := max settings.write.segmentMaxBytes (segmentHeaderLen + 1)
      flushInterval := max flushInterval millisecond
      flushRecords := max settings.write.flushRecords 1
      noSync := settings.write.noSync
      minFreeBytes := settings.write.minFreeBytes },
      { segmentId := segmentId
        offset := offset
        nextLsn := nextLsn
        buffered := [] })

end Ingest4x.Wal
