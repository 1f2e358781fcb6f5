import Ingest4x.Wal.Record
import Mathlib.Data.List.Infix

/-! # Replay issues

The errors of the replay and what each of them asks the replay to do: stop, set the record aside, or
wait for the sink. -/

namespace Ingest4x.Wal

/-- `ReplayAction`. -/
inductive ReplayAction
  | stopReplay
  | quarantineRecord
  | blockSink
  deriving DecidableEq, Repr

/-- `ReplayAction::as_str`. -/
def ReplayAction.asStr : ReplayAction → String
  | .stopReplay => "stop_replay"
  | .quarantineRecord => "quarantine_record"
  | .blockSink => "block_sink"

/-- **`ReplayIssue`.** -/
inductive ReplayIssue
  | wal (code message : String)
  | eventPayload (code message : String) (xwhat : Option String)
  | project (code message : String) (projectId : Int32)
  | processor (code message : String)
  | deliveryPlan (code message : String) (target : Option String)
  | sink (code message sink : String)
  | runtime (code message : String)
  deriving DecidableEq

namespace ReplayIssue

/-- `wal_lsn_gap`. -/
def walLsnGap (expected actual : Nat) : ReplayIssue :=
  .wal "replay_wal_lsn_gap" s!"non-contiguous wal lsn: expected {expected}, got {actual}"

/-- `str::contains`. -/
def contains (text part : String) : Bool := decide (part.toList <:+: text.toList)

/-- `wal_read_failed`: the code is chosen by the kind and the text of the error. -/
def walReadFailed (error : IoError) : ReplayIssue :=
  let code :=
    if error.kind = .invalidData then
      if contains error.message "crc mismatch" then "replay_wal_crc_mismatch"
      else if contains error.message "segment header" then "replay_segment_header_corrupt"
      else "replay_wal_frame_corrupt"
    else "replay_wal_read_failed"
  .wal code error.message

/-- `checkpoint_corrupt`. -/
def checkpointCorrupt (error : IoError) : ReplayIssue :=
  .wal "replay_checkpoint_corrupt" error.message

/-- `checkpoint_config_invalid`. -/
def checkpointConfigInvalid (error : String) : ReplayIssue :=
  .runtime "replay_checkpoint_config_invalid" error

/-- `sink_batch_config_invalid`. -/
def sinkBatchConfigInvalid (error : String) : ReplayIssue :=
  .runtime "replay_sink_batch_config_invalid" error

/-- `checkpoint_write_failed`. -/
def checkpointWriteFailed (error : IoError) : ReplayIssue :=
  .runtime "replay_checkpoint_write_failed" error.message

/-- `invalid_json_body`. -/
def invalidJsonBody (error : String) : ReplayIssue :=
  .eventPayload "replay_invalid_json_body" s!"invalid wal record json body: {error}" none

/-- `unknown_project_id`. -/
def unknownProjectId (projectId : Int32) (_xwhat : Option String) : ReplayIssue :=
  .project "replay_unknown_project" s!"wal record references unknown project \x60{projectId}\x60"
    projectId

/-- `processor_runtime_failed`. -/
def processorRuntimeFailed (error : String) : ReplayIssue :=
  .processor "replay_processor_runtime_failed" error

/-- `unknown_sink_target`. -/
def unknownSinkTarget (target : String) : ReplayIssue :=
  .deliveryPlan "replay_unknown_sink_target"
    s!"processor emitted unknown sink target \x60{target}\x60" (some target)

/-- `empty_sink_target`. -/
def emptySinkTarget : ReplayIssue :=
  .deliveryPlan "replay_empty_sink_target" "processor emitted empty sink target" none

/-- `sink_send_failed`, with the text of the error chain. -/
def sinkSendFailed (sink : String) (lsn : Nat) (error : String) : ReplayIssue :=
  .sink "replay_sink_send_failed" s!"sink \x60{sink}\x60 failed at lsn {lsn}: {error}" sink

/-- `ReplayIssue::code`. -/
def code : ReplayIssue → String
  | .wal code _ | .eventPayload code _ _ | .project code _ _ | .processor code _
  | .deliveryPlan code _ _ | .sink code _ _ | .runtime code _ => code

/-- `ReplayIssue::message`. -/
def message : ReplayIssue → String
  | .wal _ message | .eventPayload _ message _ | .project _ message _ | .processor _ message
  | .deliveryPlan _ message _ | .sink _ message _ | .runtime _ message => message

/-- **`ReplayIssue::action`.** -/
def action : ReplayIssue → ReplayAction
  | .wal _ _ | .runtime _ _ => .stopReplay
  | .eventPayload _ _ _ | .processor _ _ | .deliveryPlan _ _ _ => .quarantineRecord
  | .project code _ _ =>
    if code = "replay_control_plane_unavailable" then .stopReplay else .quarantineRecord
  | .sink _ _ _ => .blockSink

end ReplayIssue

end Ingest4x.Wal
