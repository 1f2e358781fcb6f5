import Ingest4x.Wal.Answer
import Ingest4x.Wal.Writing

/-! # Group commit

The appends of many callers and the flushes of the buffer, in any order. Each takes the mutex, so one
runs after another; an append that fills the buffer flushes it, and the flush answers every append that
it took.

* **`Group`** — the calls in the order in which they took the mutex, the writer and the world.
* **`Group.answer`** — what a caller gets: the error that its own call returned, or the message on its
  channel.
* **`GroupRuns`** — the runs of a group.
* **`GroupStep.outcome`** — all that a step can do to a writer at rest. -/

namespace Ingest4x.Wal

open Effect

/-! ### Calls and answers -/

/-- **A call of `append`** that took the mutex: its record, what `append_buffered` returned to it, and
whether there was no LSN left for it. -/
structure AppendCall where
  record : WalRecord
  returned : Except IoError WalPosition
  refused : Bool

/-- **The writer with its callers**, and the number of calls before the last flush that succeeded. -/
structure Group where
  calls : List AppendCall
  state : WalWriterState
  world : World
  flushed : Nat

/-- The message of an event, with its channel. -/
def Event.message : Event → Option (Nat × Except IoError WalPosition)
  | .responded channel _ result => some (channel, result)
  | .sent _ _ _ _ => none
  | .quarantined _ _ => none

/-- The calls whose records were buffered. -/
def acceptedCalls (calls : List AppendCall) : List AppendCall :=
  calls.filter fun call => !call.refused

namespace Group

/-- The messages so far; a call has its place among the calls as its channel. -/
def messages (g : Group) : List (Nat × Except IoError WalPosition) :=
  g.world.trace.filterMap Event.message

/-- The calls that wait for a message. -/
def waiting (g : Group) : List Nat := g.state.buffered.filterMap BufferedWalRecord.response

/-- The places of the calls whose records were buffered. -/
def accepted (g : Group) : List Nat :=
  (List.range g.calls.length).filter fun i => (g.calls[i]?).any fun call => !call.refused

/-- **What a caller gets**: what its call returned where it does not wait; else an error of its own
call, or the first message on its channel. -/
def answer (inner : WalWriterInner) (g : Group) (i : Nat) : Option (Except IoError WalPosition) :=
  (g.calls[i]?).bind fun call =>
    if inner.noSync then some call.returned
    else
      match call.returned with
      | .error error => some (.error error)
      | .ok _ => ((g.messages.filter fun message => message.1 = i).head?).map Prod.snd

end Group

/-! ### Steps -/

/-- A step: an append, or a flush of a caller or of the flush thread. -/
inductive GroupAction
  | append (record : WalRecord)
  | flush

/-- The channel of a call; it has none where appends do not wait. -/
def WalWriterInner.channel (inner : WalWriterInner) (i : Nat) : Option Nat :=
  if inner.noSync then none else some i

variable [RecordCodec]

/-- **A step of the group**, run to its end under the mutex. -/
inductive GroupStep (mayFail : SysOp → Prop) (inner : WalWriterInner) (g : Group) :
    GroupAction → Group → Prop
  | append {record : WalRecord} {returned : Except IoError WalPosition} {t : WalWriterState} {w : World}
      (hrun : Runs (sysEnv mayFail)
        ((appendBuffered inner record (inner.channel g.calls.length)).start g.state) g.world
        (returned, t) w) :
      GroupStep mayFail inner g (.append record) {
        calls := g.calls ++ [⟨record, returned, decide (2 ^ 64 ≤ g.state.nextLsn + 1)⟩]
        state := t
        world := w
        flushed := if returned.isOk = true ∧ t.buffered = [] then g.calls.length + 1 else g.flushed }
  | flush {result : Except IoError Unit} {t : WalWriterState} {w : World}
      (hrun : Runs (sysEnv mayFail) ((flushBufferLocked inner).start g.state) g.world (result, t) w) :
      GroupStep mayFail inner g .flush {
        calls := g.calls
        state := t
        world := w
        flushed := if result.isOk = true then g.calls.length else g.flushed }

/-- **The runs of a group.** -/
def GroupRuns (mayFail : SysOp → Prop) (inner : WalWriterInner) : Group → Group → Prop :=
  Relation.ReflTransGen fun g g' => ∃ action, GroupStep mayFail inner g action g'

/-- **A group that was opened** on a log: the writer rests on it, nothing is buffered, and nobody has
called. -/
structure Opened (inner : WalWriterInner) (k n : Nat) (initial : List WalEntry) (g : Group) : Prop where
  calls : g.calls = []
  trace : g.world.trace = []
  buffered : g.state.buffered = []
  flushed : g.flushed = 0
  rest : ∃ older active, AtRest inner g.state g.world.dir older active k n ∧
    logEntries (older ++ [active]) = initial

/-! ### Running a group -/

/-- **The next step under given answers.** -/
def Group.exec (fails : SysOp → Option IoError) (inner : WalWriterInner) (g : Group) :
    GroupAction → Group
  | .append record =>
    let r := ((appendBuffered inner record (inner.channel g.calls.length)).start g.state).exec
      (sysAnswer fails) g.world
    { calls := g.calls ++ [⟨record, r.1.1, decide (2 ^ 64 ≤ g.state.nextLsn + 1)⟩]
      state := r.1.2
      world := r.2
      flushed := if r.1.1.isOk = true ∧ r.1.2.buffered = [] then g.calls.length + 1 else g.flushed }
  | .flush =>
    let r := ((flushBufferLocked inner).start g.state).exec (sysAnswer fails) g.world
    { calls := g.calls
      state := r.1.2
      world := r.2
      flushed := if r.1.1.isOk = true then g.calls.length else g.flushed }

/-- An execution is a step. -/
theorem groupStep_exec {mayFail : SysOp → Prop} {fails : SysOp → Option IoError}
    (h : ∀ o, fails o ≠ none → mayFail o) (inner : WalWriterInner) (g : Group)
    (action : GroupAction) : GroupStep mayFail inner g action (g.exec fails inner action) := by
  cases action with
  | append record => exact .append (runs_sysAnswer h _ _)
  | flush => exact .flush (runs_sysAnswer h _ _)

/-! ### The outcome of a step -/

namespace Group

/-- The group after a call for which no LSN was left. -/
def refuse (g : Group) (record : WalRecord) (error : IoError) : Group :=
  { g with calls := g.calls ++ [⟨record, .error error, true⟩] }

/-- The position that `append_buffered` reads before it buffers a record. -/
def position (g : Group) : WalPosition := ⟨g.state.nextLsn, g.state.segmentId, g.state.offset⟩

/-- The buffer entry of the next call. -/
def entry (inner : WalWriterInner) (g : Group) (record : WalRecord) : BufferedWalRecord :=
  ⟨assignWalMetadata record g.state.nextLsn inner.nodeId, inner.channel g.calls.length⟩

/-- The group after a call whose record is buffered. -/
def push (inner : WalWriterInner) (g : Group) (record : WalRecord)
    (returned : Except IoError WalPosition) : Group where
  calls := g.calls ++ [⟨record, returned, false⟩]
  state := { g.state with
    nextLsn := g.state.nextLsn + 1
    buffered := g.state.buffered ++ [g.entry inner record] }
  world := g.world
  flushed := g.flushed

/-- The group after a flush that succeeds. -/
def flushedTo (g : Group) (t : WalWriterState) (w : World) : Group := ⟨g.calls, t, w, g.calls.length⟩

/-- The group after a flush that fails. -/
def failedTo (g : Group) (t : WalWriterState) (w : World) : Group := ⟨g.calls, t, w, g.flushed⟩

omit [RecordCodec] in
@[simp] theorem push_world (inner : WalWriterInner) (g : Group) (record : WalRecord)
    (returned : Except IoError WalPosition) : (g.push inner record returned).world = g.world := rfl

omit [RecordCodec] in
@[simp] theorem push_buffered (inner : WalWriterInner) (g : Group) (record : WalRecord)
    (returned : Except IoError WalPosition) :
    (g.push inner record returned).state.buffered = g.state.buffered ++ [g.entry inner record] := rfl

end Group

/-- **All that a step can do** to a writer that rests at the end of a log. -/
inductive StepOutcome (inner : WalWriterInner) (older : List LogSegment) (active : LogSegment)
    (k n : Nat) (g : Group) : GroupAction → Group → Prop
  /-- There is no LSN left. -/
  | refused {record : WalRecord} {error : IoError} :
      StepOutcome inner older active k n g (.append record) (g.refuse record error)
  /-- The record is buffered, and the buffer is not full. -/
  | buffered {record : WalRecord}
      (rest : AtRest inner (g.push inner record (.ok g.position)).state g.world.dir older active k n) :
      StepOutcome inner older active k n g (.append record) (g.push inner record (.ok g.position))
  /-- The record fills the buffer, which is flushed. -/
  | appendFlushed {record : WalRecord} {t : WalWriterState} {w : World} {older' : List LogSegment}
      {active' : LogSegment} {added : List WalEntry}
      (rest : AtRest inner (g.push inner record (.ok g.position)).state g.world.dir older active k n)
      (front : SameFront active.id g.world w)
      (flushed : FlushedTo inner (g.push inner record (.ok g.position)).state g.world
        (older ++ [active]) k n t w older' active' added)
      (placed : PlacedAt inner (g.push inner record (.ok g.position)).state added) :
      StepOutcome inner older active k n g (.append record)
        ((g.push inner record (.ok g.position)).flushedTo t w)
  /-- The record fills the buffer, and the flush fails. -/
  | appendFailed {record : WalRecord} {error : IoError} {t : WalWriterState} {w : World}
      (rest : AtRest inner (g.push inner record (.error error)).state g.world.dir older active k n)
      (front : SameFront active.id g.world w)
      (back : RolledBackTo inner error.message (g.push inner record (.error error)).state g.world older
        active k n t w) :
      StepOutcome inner older active k n g (.append record)
        ((g.push inner record (.error error)).failedTo t w)
  /-- The buffer is flushed. -/
  | flushed {t : WalWriterState} {w : World} {older' : List LogSegment} {active' : LogSegment}
      {added : List WalEntry} (front : SameFront active.id g.world w)
      (flushed : FlushedTo inner g.state g.world (older ++ [active]) k n t w older' active' added)
      (placed : PlacedAt inner g.state added) :
      StepOutcome inner older active k n g .flush (g.flushedTo t w)
  /-- The flush fails. -/
  | failed {error : IoError} {t : WalWriterState} {w : World} (front : SameFront active.id g.world w)
      (back : RolledBackTo inner error.message g.state g.world older active k n t w) :
      StepOutcome inner older active k n g .flush (g.failedTo t w)

/-- **Every step has one of these outcomes.** -/
theorem GroupStep.outcome {mayFail : SysOp → Prop} (hmay : ∀ o, mayFail o → ¬RollbackOp o)
    {inner : WalWriterInner} {older : List LogSegment} {active : LogSegment} {k n : Nat} {g g' : Group}
    {action : GroupAction} (hrest : AtRest inner g.state g.world.dir older active k n)
    (hstep : GroupStep mayFail inner g action g') :
    StepOutcome inner older active k n g action g' := by
  cases hstep with
  | @append record returned t w hrun =>
    have hpost := wp_runs (hrest.wpc_appendBuffered hmay record (inner.channel g.calls.length)) hrun
    cases returned with
    | ok position =>
      obtain ⟨rfl, t₁, rfl, hpush, hout⟩ := hpost
      have hleft : ¬2 ^ 64 ≤ g.state.nextLsn + 1 := not_le.mpr hpush.bound
      rw [decide_eq_false hleft]
      rcases hout with ⟨rfl, rfl⟩ | ⟨hfront, older', active', added, hflushed, hplaced⟩
      · rw [if_neg (by simp)]
        exact .buffered hpush
      · rw [if_pos ⟨rfl, hflushed.buffered⟩]
        have hlength : (g.push inner record (.ok g.position)).calls.length = g.calls.length + 1 := by
          rw [Group.push, List.length_append, List.length_singleton]
        rw [← hlength]
        exact .appendFlushed hpush hfront hflushed hplaced
    | error error =>
      rw [if_neg (by simp [Except.isOk, Except.toBool])]
      rcases hpost with ⟨rfl, rfl, hbound⟩ | ⟨t₁, rfl, hpush, hfront, hback⟩
      · rw [decide_eq_true hbound]
        exact .refused
      · rw [decide_eq_false (not_le.mpr hpush.bound)]
        exact .appendFailed hpush hfront hback
  | @flush result t w hrun =>
    have hpost := wp_runs (hrest.wpc_flushBufferLocked hmay) hrun
    cases result with
    | ok =>
      obtain ⟨hfront, older', active', added, hflushed, hplaced⟩ := hpost
      rw [if_pos (by rfl)]
      exact .flushed hfront hflushed hplaced
    | error error =>
      obtain ⟨hfront, hback⟩ := hpost
      rw [if_neg (by simp [Except.isOk, Except.toBool])]
      exact .failed hfront hback

end Ingest4x.Wal
