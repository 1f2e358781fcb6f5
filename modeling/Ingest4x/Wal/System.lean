import Ingest4x.Effect.Command
import Ingest4x.Json
import Ingest4x.Wal.Directory
import Ingest4x.Wal.Issue

/-! # The system around the log

The operations through which the writer and the replay act: the files of the WAL directory, the
clocks, the answers to waiting appends and the sinks. A run of a program is a run under `sysEnv`,
which says what each operation does to the world and how it may fail.

* **`SysOp`** — the operations; an operation that the source performs at several places carries its
  `Site`, so that a run can say which of them fail.
* **`World`** — the directory, the monotonic clock and the trace of what was sent and answered.
* **`sysEnv mayFail`** — the environment where the operations in `mayFail` may fail. -/

namespace Ingest4x.Wal

open Effect

/-- `EventSinkBatchMetadata`. -/
structure EventSinkBatchMetadata where
  nodeId : String
  lsnStart : Nat
  lsnEnd : Nat
  deriving DecidableEq

/-- The place of the source that performs a file operation. -/
inductive Site
  | start
  | rotate
  | rollback
  | cleanup
  deriving DecidableEq

/-- **The operations of the log.** -/
inductive SysOp
  /-- `fs::create_dir_all` of the directory. -/
  | createDirAll
  /-- `acquire_wal_lock`. -/
  | acquireWalLock
  /-- Read the files of the directory. -/
  | readDir
  /-- `now_ms` and `current_timestamp_as_u64`. -/
  | nowMs
  /-- `Instant::now`, in nanoseconds. -/
  | instantNow
  /-- `fs2::available_space`. -/
  | availableSpace
  /-- `Uuid::new_v4`. -/
  | newUuid
  /-- `write_node_id_file`. -/
  | writeNodeIdFile (nodeId : String)
  /-- `create_segment_file` with these header bytes. -/
  | createSegment (site : Site) (segmentId : Nat) (header : Bytes)
  /-- `fs::remove_file` of a segment. -/
  | removeSegment (site : Site) (segmentId : Nat)
  /-- `sync_directory`. -/
  | syncDirectory (site : Site)
  /-- Open a segment for appending and `write_all`. -/
  | appendSegment (segmentId : Nat) (bytes : Bytes)
  /-- `sync_data` on a segment. -/
  | syncSegment (segmentId : Nat)
  /-- `set_len` and `sync_data` on a segment. -/
  | truncateSegment (site : Site) (segmentId : Nat) (len : Nat)
  /-- Write the checkpoint file and rename it into place. -/
  | writeCheckpointFile (file : Bytes)
  /-- Answer the append that waits on a channel. -/
  | respond (channel : Nat) (record : WalRecord) (result : Except IoError WalPosition)
  /-- `send_event_batch_to_sink`. -/
  | sendBatch (sink : String) (events : List Value) (metadata : EventSinkBatchMetadata)
  /-- The warning that records a quarantined entry. -/
  | quarantine (entry : WalEntry) (issue : ReplayIssue)

/-- The answers to the operations. -/
abbrev SysResp : SysOp → Type
  | .readDir => Except IoError WalDir
  | .nowMs => UInt64
  | .instantNow => Nat
  | .availableSpace => Except IoError Nat
  | .newUuid => String
  | .sendBatch _ _ _ => Except String Unit
  | .respond _ _ _ => Unit
  | .quarantine _ _ => Unit
  | _ => Except IoError Unit

/-- What the world outside the directory has seen. -/
inductive Event
  | responded (channel : Nat) (record : WalRecord) (result : Except IoError WalPosition)
  | sent (sink : String) (events : List Value) (metadata : EventSinkBatchMetadata)
      (result : Except String Unit)
  | quarantined (entry : WalEntry) (issue : ReplayIssue)

/-- Is the event one of the replay? Answers to appends are not. -/
def Event.isReplay : Event → Bool
  | .responded _ _ _ => false
  | .sent _ _ _ _ => true
  | .quarantined _ _ => true

/-- **The world**: the directory, the monotonic clock (`clock i` is the answer to its `i`-th
reading) and the trace. -/
structure World where
  dir : WalDir
  clock : Nat → Nat
  ticks : Nat
  trace : List Event

namespace WalDir

/-- The directory with other segments. -/
def withSegments (dir : WalDir) (segments : SortedTable Nat SegmentFile) : WalDir :=
  { dir with segments := segments }

@[simp] theorem withSegments_segments (dir : WalDir) (segments : SortedTable Nat SegmentFile) :
    (dir.withSegments segments).segments = segments := rfl

@[simp] theorem withSegments_path (dir : WalDir) (segments : SortedTable Nat SegmentFile) :
    (dir.withSegments segments).path = dir.path := rfl

@[simp] theorem withSegments_nodeIdFile (dir : WalDir)
    (segments : SortedTable Nat SegmentFile) :
    (dir.withSegments segments).nodeIdFile = dir.nodeIdFile := rfl

@[simp] theorem withSegments_checkpointFile (dir : WalDir)
    (segments : SortedTable Nat SegmentFile) :
    (dir.withSegments segments).checkpointFile = dir.checkpointFile := rfl

@[simp] theorem withSegments_self (dir : WalDir) : dir.withSegments dir.segments = dir := rfl

@[simp] theorem withSegments_withSegments (dir : WalDir)
    (segments segments' : SortedTable Nat SegmentFile) :
    (dir.withSegments segments).withSegments segments' = dir.withSegments segments' := rfl

end WalDir

namespace SegmentFile

/-- A file just created and synced with these contents. -/
def created (bytes : Bytes) : SegmentFile := ⟨bytes, bytes.length⟩

/-- Bytes written at the end, not synced. -/
def append (file : SegmentFile) (bytes : Bytes) : SegmentFile :=
  { file with bytes := file.bytes ++ bytes }

/-- Every byte synced. -/
def sync (file : SegmentFile) : SegmentFile := { file with synced := file.bytes.length }

/-- The length set, not synced. -/
def truncate (file : SegmentFile) (len : Nat) : SegmentFile :=
  ⟨setLen len file.bytes, min file.synced len⟩

@[simp] theorem append_nil (file : SegmentFile) : file.append [] = file := by
  rw [append, List.append_nil]

end SegmentFile

namespace World

/-- The world with other segments in the directory. -/
def withSegments (w : World) (segments : SortedTable Nat SegmentFile) : World :=
  { w with dir := w.dir.withSegments segments }

/-- The world after one more event. -/
def record (w : World) (event : Event) : World := { w with trace := w.trace ++ [event] }

@[simp] theorem withSegments_dir (w : World) (segments : SortedTable Nat SegmentFile) :
    (w.withSegments segments).dir = w.dir.withSegments segments := rfl

@[simp] theorem record_dir (w : World) (event : Event) : (w.record event).dir = w.dir := rfl

/-- The world after more events. -/
def log (w : World) (events : List Event) : World := { w with trace := w.trace ++ events }

@[simp] theorem log_dir (w : World) (events : List Event) : (w.log events).dir = w.dir := rfl

@[simp] theorem log_nil (w : World) : w.log [] = w := by
  rw [log, List.append_nil]

@[simp] theorem log_log (w : World) (events events' : List Event) :
    (w.log events).log events' = w.log (events ++ events') := by
  rw [log, log, log, List.append_assoc]

theorem record_eq_log (w : World) (event : Event) : w.record event = w.log [event] := rfl

end World

/-- The shape of a fallible operation: it succeeds and leaves `done`, or it may fail and leaves one
of the states `partly`. -/
def Fallible {σ : Type} (mayFail : Prop) (done : σ) (partly : σ → Prop) (r : Except IoError Unit)
    (s' : σ) : Prop :=
  (r = .ok () ∧ s' = done) ∨ (mayFail ∧ (∃ e, r = .error e) ∧ partly s')

/-- An operation on a segment file that must be there. -/
def OnSegment {σ : Type} (segments : SortedTable Nat SegmentFile) (segmentId : Nat) (s : σ)
    (r : Except IoError Unit) (s' : σ) (found : Prop) : Prop :=
  (segments.lookup segmentId = none ∧ r = .error notFoundError ∧ s' = s) ∨
    (segments.lookup segmentId ≠ none ∧ found)

/-- The view of a fallible operation. -/
theorem Fallible.map {σ τ : Type} {mayFail : Prop} {done s' : σ} {partly : σ → Prop}
    {r : Except IoError Unit} (h : Fallible mayFail done partly r s') (view : σ → τ) {done' : τ}
    {partly' : τ → Prop} (hdone : view done = done')
    (hpartly : ∀ s, partly s → partly' (view s)) : Fallible mayFail done' partly' r (view s') := by
  rcases h with ⟨hr, rfl⟩ | ⟨hmay, hr, h⟩
  · exact Or.inl ⟨hr, hdone⟩
  · exact Or.inr ⟨hmay, hr, hpartly s' h⟩

/-- The text of a version 4 UUID: 36 lower-case hexadecimal digits and hyphens. -/
def IsUuid (text : String) : Prop :=
  text.toList.length = 36 ∧ ∀ c ∈ text.toList, c.isDigit ∨ ('a' ≤ c ∧ c ≤ 'f') ∨ c = '-'

/-- **The environment of the log.** An operation in `mayFail` may also fail; a failed write may have
written any part, a failed creation or rename may or may not have happened. -/
def sysEnv (mayFail : SysOp → Prop) : Env SysOp SysResp World
  | .createDirAll, w, r, w' => Fallible (mayFail .createDirAll) w (· = w) r w'
  | .acquireWalLock, w, r, w' => Fallible (mayFail .acquireWalLock) w (· = w) r w'
  | .readDir, w, r, w' =>
    w' = w ∧ (r = .ok w.dir ∨ (mayFail .readDir ∧ ∃ e, r = .error e))
  | .nowMs, w, _, w' => w' = w
  | .instantNow, w, r, w' => r = w.clock w.ticks ∧ w' = { w with ticks := w.ticks + 1 }
  | .availableSpace, w, r, w' =>
    w' = w ∧ ((∃ bytes, r = .ok bytes) ∨ (mayFail .availableSpace ∧ ∃ e, r = .error e))
  | .newUuid, w, r, w' => w' = w ∧ IsUuid r
  | .writeNodeIdFile nodeId, w, r, w' =>
    let done := { w with dir := { w.dir with nodeIdFile := some (nodeId ++ "\n") } }
    Fallible (mayFail (.writeNodeIdFile nodeId)) done (fun w' => w' = w ∨ w' = done) r w'
  | .createSegment site segmentId header, w, r, w' =>
    let done := w.withSegments (w.dir.segments.insert segmentId (.created header))
    Fallible (mayFail (.createSegment site segmentId header)) done
      (fun w' => w' = w ∨ w' = done) r w'
  | .removeSegment site segmentId, w, r, w' =>
    OnSegment w.dir.segments segmentId w r w' <|
      Fallible (mayFail (.removeSegment site segmentId))
        (w.withSegments (w.dir.segments.erase segmentId)) (· = w) r w'
  | .syncDirectory site, w, r, w' => Fallible (mayFail (.syncDirectory site)) w (· = w) r w'
  | .appendSegment segmentId bytes, w, r, w' =>
    OnSegment w.dir.segments segmentId w r w' <|
      Fallible (mayFail (.appendSegment segmentId bytes))
        (w.withSegments (w.dir.segments.modify segmentId (·.append bytes)))
        (fun w' => ∃ written, written <+: bytes ∧
          w' = w.withSegments (w.dir.segments.modify segmentId (·.append written))) r w'
  | .syncSegment segmentId, w, r, w' =>
    OnSegment w.dir.segments segmentId w r w' <|
      Fallible (mayFail (.syncSegment segmentId))
        (w.withSegments (w.dir.segments.modify segmentId .sync)) (· = w) r w'
  | .truncateSegment site segmentId len, w, r, w' =>
    OnSegment w.dir.segments segmentId w r w' <|
      Fallible (mayFail (.truncateSegment site segmentId len))
        (w.withSegments (w.dir.segments.modify segmentId fun file => (file.truncate len).sync))
        (fun w' => w' = w ∨
          w' = w.withSegments (w.dir.segments.modify segmentId (·.truncate len))) r w'
  | .writeCheckpointFile file, w, r, w' =>
    let done := { w with dir := { w.dir with checkpointFile := some file } }
    Fallible (mayFail (.writeCheckpointFile file)) done (fun w' => w' = w ∨ w' = done) r w'
  | .respond channel record result, w, _, w' => w' = w.record (.responded channel record result)
  | .sendBatch sink events metadata, w, r, w' =>
    w' = w.record (.sent sink events metadata r) ∧
      (r = .ok () ∨ (mayFail (.sendBatch sink events metadata) ∧ ∃ e, r = .error e))
  | .quarantine entry issue, w, _, w' => w' = w.record (.quarantined entry issue)

end Ingest4x.Wal
