import Ingest4x.Lifecycle.Calls
import Ingest4x.Lifecycle.Restart

/-! # The system over its whole life

A process starts on the WAL directory, appends and flushes; the replay runs beside it, with calls of the
writer between any two of its operations. Starts and calls may fail, and the machine may go down at any
moment; then another process starts.

* **`System`** — the world, the running process, and what was appended and replayed so far.
* **`SystemStep`** — one step of a history, and **`History`**, any number of them.
* **`Served`** — the invariant of a history. -/

namespace Ingest4x.Wal

open Effect

/-! ### The system -/

/-- **A replay call as it runs**: its context, the rest of its program, and the number of replay events
before it. -/
structure RunningReplay where
  context : WalReplayContext
  program : Prog SysOp SysResp (Except ReplayError Nat × ReplayLocal)
  since : Nat

/-- **What a replay call did**: its context and its events. -/
structure ReplayRecord where
  context : WalReplayContext
  events : List Event

/-- What a running call has done so far. -/
def RunningReplay.record (run : RunningReplay) (w : World) : ReplayRecord :=
  ⟨run.context, (w.trace.filter Event.isReplay).drop run.since⟩

/-- **The system**: the world; the writer and the replay call of the running process; and, of its whole
history, the records that were put into the buffer and the replay calls that are over. -/
structure System where
  world : World
  writer : Option (WalWriterInner × WalWriterState)
  replay : Option RunningReplay
  appended : List WalRecord
  ended : List ReplayRecord

namespace System

/-- The replay calls so far, the running one included. -/
def replays (s : System) : List ReplayRecord :=
  s.ended ++ s.replay.toList.map fun run => run.record s.world

/-- After the process is gone. -/
def stop (s : System) (w : World) (appended : List WalRecord) : System where
  world := w
  writer := none
  replay := none
  appended := s.appended ++ appended
  ended := s.replays

end System

/-- **Before the first start**: the directory holds no segment and no checkpoint. -/
structure System.Fresh (s : System) : Prop where
  segments : s.world.dir.segments = ∅
  checkpointFile : s.world.dir.checkpointFile = none
  trace : s.world.trace = []
  writer : s.writer = none
  replay : s.replay = none
  appended : s.appended = []
  ended : s.ended = []

/-! ### Steps -/

section Steps

variable [RecordCodec] [CheckpointCodec] [DurationCodec] [JsonCodec]

/-- **A step of a history.** -/
inductive SystemStep (mayFail : SysOp → Prop) (s : System) : System → Prop
  /-- A process starts. -/
  | start {settings : WalSettings} {inner : WalWriterInner} {t : WalWriterState} {w : World}
      (hdown : s.writer = none) (hstart : Starts mayFail settings s.world (.ok (inner, t)) w) :
      SystemStep mayFail s { s with world := w, writer := some (inner, t) }
  /-- A start fails. -/
  | startFails {settings : WalSettings} {error : IoError} {w : World} (hdown : s.writer = none)
      (hstart : Starts mayFail settings s.world (.error error) w) :
      SystemStep mayFail s { s with world := w }
  /-- The machine goes down while a process starts. -/
  | startDies {settings : WalSettings}
      {c : Prog SysOp SysResp (Except IoError (WalWriterInner × WalWriterState) × Unit) × World}
      {w : World} (hdown : s.writer = none)
      (hreach : Reaches (sysEnv mayFail) ((WalWriter.new settings : Sys Unit _).start (), s.world) c)
      (hcrash : Crashed c.2 w) : SystemStep mayFail s { s with world := w }
  /-- A call of the writer, with any result. -/
  | call {inner : WalWriterInner} {t t' : WalWriterState} {call : WriterCall}
      {result : Except IoError Unit} {w : World} (hup : s.writer = some (inner, t))
      (hrun : Runs (sysEnv mayFail) ((call.run inner).start t) s.world (result, t') w) :
      SystemStep mayFail s
        { s with world := w, writer := some (inner, t'), appended := s.appended ++ call.appended inner t }
  /-- The machine goes down, at rest or in a call that has not opened another segment. -/
  | dies {inner : WalWriterInner} {t : WalWriterState} {call : WriterCall}
      {c : Prog SysOp SysResp (Except IoError Unit × WalWriterState) × World} {w : World}
      (hup : s.writer = some (inner, t))
      (hreach : Reaches (sysEnv mayFail) ((call.run inner).start t, s.world) c)
      (hsingle : ∀ id ∈ c.2.dir.segments.keys, id ≤ t.segmentId) (hcrash : Crashed c.2 w) :
      SystemStep mayFail s (s.stop w (call.appended inner t))
  /-- A replay call begins; its sinks take up every record. -/
  | replayStarts {context : WalReplayContext} {t : ReplayLocal} (hup : s.writer ≠ none)
      (hidle : s.replay = none)
      (hreset : pipelineAutoOffsetReset context.eventSinks = .earliest) :
      SystemStep mayFail s { s with
        replay := some ⟨context, (replayOnceInner context).start t,
          (s.world.trace.filter Event.isReplay).length⟩ }
  /-- The replay performs one operation. -/
  | replayStep {run : RunningReplay} {program : Prog SysOp SysResp (Except ReplayError Nat × ReplayLocal)}
      {w : World} (hrun : s.replay = some run)
      (hstep : Step (sysEnv mayFail) (run.program, s.world) (program, w)) :
      SystemStep mayFail s { s with world := w, replay := some { run with program := program } }
  /-- A replay call ends, with any result. -/
  | replayEnds {run : RunningReplay} {result : Except ReplayError Nat × ReplayLocal}
      (hrun : s.replay = some run) (hend : run.program = .pure result) :
      SystemStep mayFail s { s with replay := none, ended := s.replays }

/-- **A history.** -/
def History (mayFail : SysOp → Prop) : System → System → Prop :=
  Relation.ReflTransGen (SystemStep mayFail)

end Steps

/-! ### The invariant -/

section Invariant

variable [JsonCodec]

/-- **A record is done with** in one of the replay calls: the call went through the records before it and
this one, and it set it aside or every sink acknowledged its deliveries. -/
def DoneIn (replays : List ReplayRecord) (entries : List WalEntry) (entry : WalEntry) : Prop :=
  ∃ replay ∈ replays, ∃ before, before ++ [entry] <:+: entries ∧
    DoneWith replay.context replay.events before entry

/-- **A replay call keeps to the log**: it sends only deliveries of entries that follow each other there,
in order, and sets aside only entries without deliveries. -/
structure KeepsTo (entries : List WalEntry) (replay : ReplayRecord) : Prop where
  sent : ∃ read, read <:+: entries ∧
    ∀ sink, sentEvents sink replay.events <+: expectedEvents replay.context sink read
  quarantined : ∀ entry ∈ quarantinedEntries replay.events,
    entry ∈ entries ∧ recordDeliveries replay.context entry.record = none

variable [RecordCodec] [CheckpointCodec]

/-- **The running replay call**, as it started in the logged world `s₀`. -/
structure Replaying (mayFail : SysOp → Prop) (run : RunningReplay) (ended : List ReplayRecord)
    (s₀ s : LoggedWorld) : Prop where
  since : run.since = (s₀.world.trace.filter Event.isReplay).length
  whole : WholeLog s₀.world.dir s₀.log
  started : ∀ entry ∈ s₀.entries, Covered s₀.durable entry → DoneIn ended s₀.entries entry
  rest : wp (replayEnv mayFail)
    (fun o s => Guard o (replayView s.world) ∧ ReplayMoment run.context s₀ s) run.program
    (fun _ => ReplayMoment run.context s₀) s

/-- **The invariant**, with the whole log. -/
structure Served (mayFail : SysOp → Prop) (s : System) (log : List LogSegment) : Prop where
  whole : WholeLog s.world.dir log
  writer : ∀ inner t, s.writer = some (inner, t) → ∃ older active, log = older ++ [active] ∧
    Running inner t s.world.dir older active
  up : s.writer = none → s.replay = none
  records : ((logEntries log).map WalEntry.record ++
    (s.writer.elim [] fun writer => writer.2.records)).Sublist s.appended
  answered : Answered (logEntries log) s.world.trace
  covered : s.replay = none → ∀ entry ∈ logEntries log,
    Covered (durableCheckpoint s.world.dir) entry → DoneIn s.ended (logEntries log) entry
  keepsTo : ∀ replay ∈ s.ended, KeepsTo (logEntries log) replay
  replay : ∀ run, s.replay = some run →
    ∃ s₀, Replaying mayFail run s.ended s₀ ⟨s.world, log⟩

end Invariant

end Ingest4x.Wal
