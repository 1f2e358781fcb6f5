import Ingest4x.Lifecycle.System
import Ingest4x.Wal.Answer

/-! # Running the system

A history that computes: starts, calls and whole replay calls in which nothing fails.

* **`System.exec`** — the system after an action.
* **`System.exec_history`** — what is executed is a history. -/

namespace Ingest4x.Wal

open Effect

/-- **An action** of the running system. -/
inductive SystemAction
  | start (settings : WalSettings)
  | call (call : WriterCall)
  | replay (context : WalReplayContext) (t : ReplayLocal)

section Codec

variable [RecordCodec] [CheckpointCodec] [DurationCodec] [JsonCodec] {mayFail : SysOp → Prop}
  {s : System}

/-- The answers of a system in which nothing fails. -/
def healthyAnswer (o : SysOp) (w : World) : SysResp o × World := sysAnswer (fun _ => none) o w

omit [RecordCodec] [CheckpointCodec] [DurationCodec] [JsonCodec] in
theorem runs_healthyAnswer {α : Type} (p : Prog SysOp SysResp α) (w : World) :
    Runs (sysEnv mayFail) p w (p.exec healthyAnswer w).1 (p.exec healthyAnswer w).2 :=
  runs_sysAnswer (fun _ h => absurd rfl h) p w

namespace System

/-- The run of a start. -/
def startRun (settings : WalSettings) (w : World) :
    (Except IoError (WalWriterInner × WalWriterState) × Unit) × World :=
  ((WalWriter.new settings : Sys Unit _).start ()).exec healthyAnswer w

/-- The replay call that begins now. -/
def nextReplay (s : System) (context : WalReplayContext) (t : ReplayLocal) : RunningReplay :=
  ⟨context, (replayOnceInner context).start t, (s.world.trace.filter Event.isReplay).length⟩

/-- A start. -/
def execStart (s : System) (settings : WalSettings) : System :=
  match s.writer, (startRun settings s.world).1.1 with
  | none, .ok writer => { s with world := (startRun settings s.world).2, writer := some writer }
  | none, .error _ => { s with world := (startRun settings s.world).2 }
  | some _, _ => s

/-- A call of the writer. -/
def execCall (s : System) (call : WriterCall) : System :=
  match s.writer with
  | none => s
  | some (inner, t) =>
    let run := ((call.run inner).start t).exec healthyAnswer s.world
    { s with
      world := run.2
      writer := some (inner, run.1.2)
      appended := s.appended ++ call.appended inner t }

/-- A whole replay call. -/
def execReplay (s : System) (context : WalReplayContext) (t : ReplayLocal) : System :=
  if s.writer.isSome ∧ s.replay.isNone ∧
      pipelineAutoOffsetReset context.eventSinks = .earliest then
    let w := ((s.nextReplay context t).program.exec healthyAnswer s.world).2
    { s with world := w, ended := s.ended ++ [(s.nextReplay context t).record w] }
  else s

/-- **The system after an action**; one that is not possible does nothing. -/
def exec (s : System) : SystemAction → System
  | .start settings => s.execStart settings
  | .call call => s.execCall call
  | .replay context t => s.execReplay context t

end System

/-- **A run of the replay call** is a history. -/
theorem History.of_reaches {run : RunningReplay} (hrun : s.replay = some run)
    {c : Prog SysOp SysResp (Except ReplayError Nat × ReplayLocal) × World}
    (hreach : Reaches (sysEnv mayFail) (run.program, s.world) c) :
    History mayFail s { s with world := c.2, replay := some { run with program := c.1 } } := by
  induction hreach with
  | refl =>
    have hsame : { s with replay := some run } = s := by rw [← hrun]
    show History mayFail s { s with replay := some run }
    rw [hsame]
    exact Relation.ReflTransGen.refl
  | @tail c c' _ hstep ih =>
    obtain ⟨program, w⟩ := c
    obtain ⟨program', w'⟩ := c'
    have hnow : SystemStep mayFail
        { s with world := w, replay := some { run with program := program } } _ :=
      .replayStep rfl hstep
    exact ih.tail hnow

theorem System.execStart_history (s : System) (settings : WalSettings) :
    History mayFail s (s.execStart settings) := by
  have hruns : Starts mayFail settings s.world (startRun settings s.world).1.1
      (startRun settings s.world).2 :=
    runs_healthyAnswer ((WalWriter.new settings : Sys Unit _).start ()) s.world
  unfold System.execStart
  cases hdown : s.writer with
  | some writer => exact Relation.ReflTransGen.refl
  | none =>
    cases hresult : (startRun settings s.world).1.1 with
    | ok writer =>
      rw [hresult] at hruns
      exact Relation.ReflTransGen.single (.start hdown hruns)
    | error error =>
      rw [hresult] at hruns
      have hstep : SystemStep mayFail s _ := .startFails hdown hruns
      rw [hdown] at hstep
      exact Relation.ReflTransGen.single hstep

theorem System.execCall_history (s : System) (call : WriterCall) :
    History mayFail s (s.execCall call) := by
  unfold System.execCall
  cases hup : s.writer with
  | none => exact Relation.ReflTransGen.refl
  | some writer => exact Relation.ReflTransGen.single (.call hup (runs_healthyAnswer _ _))

theorem System.execReplay_history (s : System) (context : WalReplayContext) (t : ReplayLocal) :
    History mayFail s (s.execReplay context t) := by
  unfold System.execReplay
  split_ifs with hready
  · obtain ⟨hup, hidle, hreset⟩ := hready
    have hidle : s.replay = none := Option.isNone_iff_eq_none.mp hidle
    have hstart : SystemStep mayFail s { s with replay := some (s.nextReplay context t) } :=
      .replayStarts (Option.isSome_iff_ne_none.mp hup) hidle hreset
    have hrun : History mayFail { s with replay := some (s.nextReplay context t) } _ :=
      History.of_reaches rfl (runs_healthyAnswer (s.nextReplay context t).program s.world)
    refine ((Relation.ReflTransGen.single hstart).trans hrun).tail ?_
    rw [hidle]
    exact .replayEnds rfl rfl
  · exact Relation.ReflTransGen.refl

/-- **What is executed is a history.** -/
theorem System.exec_history (s : System) (action : SystemAction) :
    History mayFail s (s.exec action) := by
  cases action with
  | start settings => exact s.execStart_history settings
  | call call => exact s.execCall_history call
  | replay context t => exact s.execReplay_history context t

/-- **Actions one after the other** are a history. -/
theorem System.execAll_history (s : System) (actions : List SystemAction) :
    History mayFail s (actions.foldl System.exec s) := by
  induction actions generalizing s with
  | nil => exact Relation.ReflTransGen.refl
  | cons action actions ih => exact (s.exec_history action).trans (ih (s.exec action))

end Codec

end Ingest4x.Wal
