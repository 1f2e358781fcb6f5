import Mathlib.Tactic.Basic

/-! # Settings

The settings of the log and of its replay. Durations are texts that the `humantime` crate parses. -/

namespace Ingest4x

/-- **`humantime::parse_duration`**, in nanoseconds. -/
class DurationCodec where
  parseDuration : String → Except String Nat

/-- One millisecond in nanoseconds. -/
def millisecond : Nat := 1000000

/-- `AutoOffsetReset`. -/
inductive AutoOffsetReset
  | earliest
  | latest
  deriving DecidableEq, Repr

/-- `WalWriteSettings`. -/
structure WalWriteSettings where
  flushInterval : String
  flushRecords : Nat
  noSync : Bool
  segmentMaxBytes : Nat
  minFreeBytes : Nat

/-- `CheckpointSettings`. -/
structure CheckpointSettings where
  flushInterval : String
  flushRecords : Nat
  flushBytes : Nat

/-- `ReplaySinkBatchSettings`. -/
structure ReplaySinkBatchSettings where
  maxEvents : Nat
  maxBytes : Nat
  timeout : String

/-- `ReplaySettings`. -/
structure ReplaySettings where
  maxRecords : Nat
  maxBytes : Nat
  sinkBatch : ReplaySinkBatchSettings

/-- `WalSettings`, less the directory, which is part of the world. -/
structure WalSettings where
  nodeId : Option String
  write : WalWriteSettings
  checkpoint : CheckpointSettings
  replay : ReplaySettings

/-- `EventSinkBatchConfig`: what a sink overrides of the batch settings. -/
structure EventSinkBatchConfig where
  maxEvents : Option Nat
  maxBytes : Option Nat
  timeout : Option String

end Ingest4x
