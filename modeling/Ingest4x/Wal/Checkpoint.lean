import Ingest4x.Wal.Codec

/-! # The checkpoint file

The position up to which the log has been replayed, as it is stored in `checkpoint.json`. The writer
and the replay read the same file with different checks; both checks are here, on the contents of
the file. -/

namespace Ingest4x.Wal

/-- **`WalCheckpoint`.** -/
structure WalCheckpoint where
  version : Nat
  nodeId : String
  sinkId : Option String
  checkpointLsn : Nat
  checkpointSegmentId : Nat
  checkpointSegmentOffset : Nat
  updatedAt : Nat
  checksum : UInt32
  deriving DecidableEq

/-- `WalCheckpointChecksum`: the fields that the checksum covers. -/
structure WalCheckpointChecksum where
  version : Nat
  nodeId : String
  sinkId : Option String
  checkpointLsn : Nat
  checkpointSegmentId : Nat
  checkpointSegmentOffset : Nat
  updatedAt : Nat
  deriving DecidableEq

/-- **The JSON form of the checkpoint**, from `serde_json`. The writer parses it into a struct whose
fields are required (`fromSliceStrict`), the replay into one whose fields have defaults
(`fromSlice`); what was written parses back in both. -/
class CheckpointCodec where
  toVec : WalCheckpoint → Bytes
  checksumToVec : WalCheckpointChecksum → Bytes
  fromSlice : Bytes → Except String WalCheckpoint
  fromSliceStrict : Bytes → Except String WalCheckpoint
  fromSlice_toVec : ∀ checkpoint, fromSlice (toVec checkpoint) = .ok checkpoint
  fromSliceStrict_toVec : ∀ checkpoint, fromSliceStrict (toVec checkpoint) = .ok checkpoint

variable [RecordCodec] [CheckpointCodec]

/-- `checkpoint_version`. -/
def checkpointVersion : Nat := 1

namespace WalCheckpoint

/-- `WalCheckpoint::compute_checksum`. -/
def computeChecksum (checkpoint : WalCheckpoint) : UInt32 :=
  RecordCodec.hash (CheckpointCodec.checksumToVec {
    version := checkpoint.version
    nodeId := checkpoint.nodeId
    sinkId := checkpoint.sinkId
    checkpointLsn := checkpoint.checkpointLsn
    checkpointSegmentId := checkpoint.checkpointSegmentId
    checkpointSegmentOffset := checkpoint.checkpointSegmentOffset
    updatedAt := checkpoint.updatedAt })

/-- **`WalCheckpoint::new`**, at time `updatedAt`. -/
def new (position : WalPosition) (nodeId : String) (sinkId : Option String) (updatedAt : Nat) :
    WalCheckpoint :=
  let checkpoint : WalCheckpoint := {
    version := checkpointVersion
    nodeId := nodeId
    sinkId := sinkId
    checkpointLsn := position.lsn
    checkpointSegmentId := position.segment
    checkpointSegmentOffset := position.offset
    updatedAt := updatedAt
    checksum := 0 }
  { checkpoint with checksum := checkpoint.computeChecksum }

/-- `WalCheckpoint::position`. -/
def position (checkpoint : WalCheckpoint) : WalPosition :=
  ⟨checkpoint.checkpointLsn, checkpoint.checkpointSegmentId, checkpoint.checkpointSegmentOffset⟩

@[simp] theorem position_new (p : WalPosition) (nodeId : String) (sinkId : Option String)
    (updatedAt : Nat) : (new p nodeId sinkId updatedAt).position = p := rfl

@[simp] theorem nodeId_new (p : WalPosition) (nodeId : String) (sinkId : Option String)
    (updatedAt : Nat) : (new p nodeId sinkId updatedAt).nodeId = nodeId := rfl

@[simp] theorem sinkId_new (p : WalPosition) (nodeId : String) (sinkId : Option String)
    (updatedAt : Nat) : (new p nodeId sinkId updatedAt).sinkId = sinkId := rfl

/-- A new checkpoint has its own checksum. -/
@[simp] theorem checksum_new (p : WalPosition) (nodeId : String) (sinkId : Option String)
    (updatedAt : Nat) :
    (new p nodeId sinkId updatedAt).checksum = (new p nodeId sinkId updatedAt).computeChecksum :=
  rfl

end WalCheckpoint

/-! ### The writer's reader -/

/-- The text of `{:?}` on an optional sink id. -/
def debugSinkId : Option String → String
  | none => "None"
  | some sinkId => s!"Some(\"{sinkId}\")"

/-- **`read_checkpoint_file`** of the writer, on the contents of the file. -/
def readCheckpointFileStrict (path nodeId : String) (file : Bytes) :
    Except IoError WalCheckpoint :=
  match CheckpointCodec.fromSliceStrict file with
  | .error error => .error (.invalidData error)
  | .ok checkpoint =>
    let found := checkpoint.nodeId
    let sinkId := debugSinkId checkpoint.sinkId
    if found ≠ nodeId then
      .error (.invalidData s!"checkpoint node_id mismatch: checkpoint={found} current={nodeId}")
    else if checkpoint.sinkId.isSome then
      .error (.invalidData
        s!"checkpoint sink_id mismatch: checkpoint={sinkId} current=<pipeline>")
    else if checkpoint.checksum ≠ checkpoint.computeChecksum then
      .error (.invalidData s!"checkpoint checksum mismatch: {path}")
    else
      .ok checkpoint

/-- The writer accepts the checkpoint that the replay writes for its node. -/
theorem readCheckpointFileStrict_new (path nodeId : String) (position : WalPosition)
    (updatedAt : Nat) :
    readCheckpointFileStrict path nodeId
        (CheckpointCodec.toVec (WalCheckpoint.new position nodeId none updatedAt)) =
      .ok (WalCheckpoint.new position nodeId none updatedAt) := by
  simp [readCheckpointFileStrict, CheckpointCodec.fromSliceStrict_toVec]

/-! ### The replay's reader -/

/-- **`read_checkpoint_file`, `validate_checkpoint` and the sink check** of the replay, on the
contents of the file; `nodeId` is what reading the node id file gives. -/
def readCheckpointFile (path : String) (nodeId : Except IoError String) (file : Bytes) :
    Except IoError WalPosition :=
  match CheckpointCodec.fromSlice file with
  | .error error => .error (.invalidData error)
  | .ok checkpoint =>
    if checkpoint.checksum ≠ checkpoint.computeChecksum then
      .error (.invalidData s!"checkpoint checksum mismatch: {path}")
    else
      match nodeId with
      | .error error => .error error
      | .ok nodeId =>
        let found := checkpoint.nodeId
        let sinkId := debugSinkId checkpoint.sinkId
        if found ≠ nodeId then
          .error (.invalidData s!"checkpoint node_id mismatch: checkpoint={found} current={nodeId}")
        else if checkpoint.sinkId.isSome then
          .error (.invalidData
            s!"checkpoint sink_id mismatch: checkpoint={sinkId} current=<pipeline>")
        else
          .ok checkpoint.position

/-- The replay reads back the position it wrote. -/
theorem readCheckpointFile_new (path nodeId : String) (position : WalPosition) (updatedAt : Nat) :
    readCheckpointFile path (.ok nodeId)
        (CheckpointCodec.toVec (WalCheckpoint.new position nodeId none updatedAt)) =
      .ok position := by
  simp [readCheckpointFile, CheckpointCodec.fromSlice_toVec]

end Ingest4x.Wal
