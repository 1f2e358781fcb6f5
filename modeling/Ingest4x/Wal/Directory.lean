import Ingest4x.Table.Sorted
import Ingest4x.Text
import Ingest4x.Wal.Checkpoint
import Ingest4x.Wal.Segment

/-! # The log directory

The files of a WAL directory and the functions that read it. `read_dir` lists the segment files in
no particular order and the source sorts them wherever the order matters; here the table of segments
is listed by id.

* **`WalDir`** — the node id file, the segment files and the checkpoint file.
* **`readEntriesAfterLimit`**, **`readWalBounds`** — what the replay reads.
* **`recoverActiveSegmentId`**, **`recoverNextLsn`** — what a starting writer recovers. -/

namespace Ingest4x.Wal

/-- A segment file: its contents, and how many bytes of it `sync_data` has made durable. -/
structure SegmentFile where
  bytes : Bytes
  synced : Nat
  deriving DecidableEq

/-- **A WAL directory.** -/
structure WalDir where
  path : String
  nodeIdFile : Option String
  segments : SortedTable Nat SegmentFile
  checkpointFile : Option Bytes
  deriving DecidableEq

/-- `segment_path`. -/
def segmentPath (path : String) (segmentId : Nat) : String :=
  path ++ "/" ++ Text.zeroPad 16 segmentId ++ ".wal"

/-- `checkpoint_path`. -/
def checkpointPath (path : String) : String := path ++ "/checkpoint.json"

/-- The error of opening a file that is not there. -/
def notFoundError : IoError := ⟨.notFound, "No such file or directory (os error 2)"⟩

/-- `segment_ids`. -/
def segmentIds (dir : WalDir) : List Nat := dir.segments.keys

/-- `last_segment_id`. -/
def lastSegmentId (dir : WalDir) : Option Nat := (segmentIds dir).max?

section Reading

variable [RecordCodec]

/-! ### Reading entries -/

/-- The offset from which `read_entries_after_limit` reads a segment. -/
def startOffset (checkpoint : Option WalPosition) (segmentId : Nat) : Nat :=
  ((checkpoint.filter fun checkpoint => checkpoint.segment = segmentId).map
    WalPosition.offset).getD segmentHeaderLen

/-- The loop of `read_entries_after_limit` over the segments. -/
def readSegmentsAfter (path : String) (checkpoint : Option WalPosition) (limit : Option Nat) :
    List (Nat × SegmentFile) → List WalEntry → Except IoError (List WalEntry)
  | [], entries => .ok entries
  | (segmentId, file) :: segments, entries =>
    if checkpoint.any fun checkpoint => segmentId < checkpoint.segment then
      readSegmentsAfter path checkpoint limit segments entries
    else
      let remaining := limit.map (· - entries.length)
      if remaining = some 0 then .ok entries
      else
        match readSegmentEntriesAfter (segmentPath path segmentId) segmentId file.bytes
            (startOffset checkpoint segmentId) remaining with
        | .error error => .error error
        | .ok found =>
          if limit.any fun limit => limit ≤ (entries ++ found).length then .ok (entries ++ found)
          else readSegmentsAfter path checkpoint limit segments (entries ++ found)

/-- **`read_entries_after_limit`.** -/
def readEntriesAfterLimit (dir : WalDir) (checkpoint : Option WalPosition) (limit : Option Nat) :
    Except IoError (List WalEntry) :=
  readSegmentsAfter dir.path checkpoint limit dir.segments.entries []

/-- `read_entries_after`. -/
def readEntriesAfter (dir : WalDir) (checkpoint : Option WalPosition) :
    Except IoError (List WalEntry) :=
  readEntriesAfterLimit dir checkpoint none

/-! ### The bounds of the log -/

/-- The variables of `read_wal_bounds`. -/
structure BoundsScan where
  floor : Option WalPosition
  tail : Option WalPosition
  maxLsn : Nat
  lastSegment : Option (Nat × Nat)

/-- The inner loop of `read_wal_bounds` over the entries of one segment. -/
def BoundsScan.addEntries (scan : BoundsScan) (entries : List WalEntry) : BoundsScan :=
  entries.foldl (fun scan entry =>
    { scan with
      floor := some (scan.floor.getD entry.position)
      maxLsn := max scan.maxLsn entry.position.lsn
      tail := some entry.nextPosition }) scan

/-- The loop of `read_wal_bounds` over the segments. -/
def scanBounds (path : String) : List (Nat × SegmentFile) → BoundsScan → Except IoError BoundsScan
  | [], scan => .ok scan
  | (segmentId, file) :: segments, scan =>
    match readSegmentEntriesAfter (segmentPath path segmentId) segmentId file.bytes segmentHeaderLen
        none with
    | .error error => .error error
    | .ok entries =>
      scanBounds path segments
        ({ scan with lastSegment := some (segmentId, file.bytes.length) }.addEntries entries)

/-- The end of the log: after the last entry, or the end of the last file where that is further. -/
def BoundsScan.finalTail (scan : BoundsScan) : Option WalPosition :=
  match scan.lastSegment with
  | none => scan.tail
  | some (segment, offset) =>
    if scan.tail.all fun position => position.segment < segment ∨ position.offset < offset then
      some ⟨scan.maxLsn, segment, offset⟩
    else scan.tail

/-- **`read_wal_bounds`.** -/
def readWalBounds (dir : WalDir) : Except IoError WalBounds :=
  (scanBounds dir.path dir.segments.entries ⟨none, none, 0, none⟩).map fun scan =>
    ⟨scan.floor, scan.finalTail⟩

/-! ### Recovery -/

/-- `recover_active_segment_id`. -/
def recoverActiveSegmentId (dir : WalDir) (checkpoint : Option WalCheckpoint) : Nat :=
  ((lastSegmentId dir).toList ++
    (checkpoint.map fun c : WalCheckpoint => c.checkpointSegmentId + 1).toList).max?.getD 1

/-- The loop of `recover_next_lsn` over the segments: the largest LSN. -/
def scanMaxLsn (path : String) : List (Nat × SegmentFile) → Nat → Except IoError Nat
  | [], maxLsn => .ok maxLsn
  | (segmentId, file) :: segments, maxLsn =>
    match readSegmentRecords (segmentPath path segmentId) segmentId file.bytes with
    | .error error => .error error
    | .ok records =>
      scanMaxLsn path segments (records.foldl (fun acc record => max acc record.lsn.toNat) maxLsn)

/-- **`recover_next_lsn`.** -/
def recoverNextLsn (dir : WalDir) (checkpoint : Option WalCheckpoint) : Except IoError Nat :=
  (scanMaxLsn dir.path dir.segments.entries 0).map fun maxLsn =>
    max maxLsn ((checkpoint.map WalCheckpoint.checkpointLsn).getD 0) + 1

/-- `remove_segments_covered_by_checkpoint`: is the segment covered by a checkpoint at this LSN? -/
def segmentCovered (path : String) (segmentId : Nat) (file : Bytes) (checkpointLsn : Nat) :
    Except IoError Bool :=
  (readSegmentRecords (segmentPath path segmentId) segmentId file).map fun records =>
    decide (((records.map fun record => record.lsn.toNat).max?.getD 0) ≤ checkpointLsn)

end Reading

/-! ### The checkpoint and the node id -/

/-- `read_node_id`. -/
def readNodeId (dir : WalDir) : Except IoError String :=
  match dir.nodeIdFile with
  | none => .error notFoundError
  | some text => .ok (Text.trim text)

section Checkpoint

variable [RecordCodec] [CheckpointCodec]

/-- **`read_pipeline_checkpoint`.** -/
def readPipelineCheckpoint (dir : WalDir) (nodeId : String) :
    Except IoError (Option WalCheckpoint) :=
  match dir.checkpointFile with
  | none => .ok none
  | some file => (readCheckpointFileStrict (checkpointPath dir.path) nodeId file).map some

end Checkpoint

end Ingest4x.Wal
