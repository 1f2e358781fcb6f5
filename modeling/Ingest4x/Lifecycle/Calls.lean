import Ingest4x.Lifecycle.Concurrent
import Ingest4x.Lifecycle.Crash

/-! # Calls of the writer

An append, a flush and the drop of the last handle, each made under the lock of the writer. A call may
end with an error, and the process may die in the middle of it; the log is then as long as before, or
longer by records that were buffered.

* **`WriterCall`** — the calls.
* **`Called`** — what a call has done when it ends, with `Called.moved` for the replay beside it.
* **`Running.wpc_call`** — every call does so, and is at work until then. -/

namespace Ingest4x.Wal

open Effect

variable [RecordCodec] [CheckpointCodec]

/-- **A call of the writer's handles.** -/
inductive WriterCall
  | append (record : WalRecord) (response : Option Nat)
  | flush
  | drop

namespace WriterCall

omit [CheckpointCodec] in
/-- The command of a call, as it is run under the lock. -/
def run (inner : WalWriterInner) : WriterCall → Sys WalWriterState Unit
  | append record response => do
    let _ ← appendBuffered inner record response
    pure ()
  | flush => flushBufferLocked inner
  | drop => dropWriter inner

omit [RecordCodec] [CheckpointCodec] in
/-- The record that a call puts into the buffer, with its LSN and node id. -/
def appended (inner : WalWriterInner) (t : WalWriterState) : WriterCall → List WalRecord
  | append record _ => [assignWalMetadata record t.nextLsn inner.nodeId]
  | flush => []
  | drop => []

end WriterCall

/-- The records in the buffer. -/
def WalWriterState.records (t : WalWriterState) : List WalRecord :=
  t.buffered.map BufferedWalRecord.record

/-- **What a call has done**: the writer rests at the end of a log that has grown by the entries `added`,
and the records added or still in the buffer were in the buffer or come from the call. -/
structure Called (call : WriterCall) (inner : WalWriterInner) (t : WalWriterState) (w : World)
    (log : List LogSegment) (t' : WalWriterState) (w' : World) (older' : List LogSegment)
    (active' : LogSegment) (added : List WalEntry) (events : List Event) : Prop where
  running : Running inner t' w'.dir older' active'
  entries : logEntries (older' ++ [active']) = logEntries log ++ added
  trace : w'.trace = w.trace ++ events
  answered : Answered added events
  records : (added.map WalEntry.record ++ t'.records).Sublist (t.records ++ call.appended inner t)
  front : ∃ bound, SameFront bound w w'

/-- **What a call is doing**: it is at work on a buffer with its record. -/
def Calling (call : WriterCall) (inner : WalWriterInner) (t : WalWriterState) (w : World)
    (older : List LogSegment) (active : LogSegment) (w' : World) : Prop :=
  ∃ t₁, Running inner t₁ w.dir older active ∧ Working inner t₁ w older active w' ∧
    t₁.records.Sublist (t.records ++ call.appended inner t)

variable {mayFail : SysOp → Prop} {call : WriterCall} {inner : WalWriterInner}
  {t t₁ t' : WalWriterState} {w w' : World} {older older' : List LogSegment}
  {active active' : LogSegment} {added : List WalEntry} {events : List Event}

/-- A call that has done nothing yet, or nothing but to buffer its record. -/
theorem Called.idle (h : Running inner t' w.dir older active)
    (hrecords : t'.records.Sublist (t.records ++ call.appended inner t)) :
    Called call inner t w (older ++ [active]) t' w older active [] [] :=
  ⟨h, (List.append_nil _).symm, (List.append_nil _).symm, answered_nil [], hrecords, 0,
    SameFront.refl 0 w⟩

/-- A call that ends with a flush that succeeds. -/
theorem Called.committed
    (h : Running.Committed inner t₁ w (older ++ [active]) t' w' older' active' added)
    (hrecords : t₁.records.Sublist (t.records ++ call.appended inner t)) :
    Called call inner t w (older ++ [active]) t' w' older' active' added
      (successEvents t₁.buffered (added.map WalEntry.position)) := by
  refine ⟨h.running, h.entries, h.trace, answered_successEvents h.records, ?_, h.front⟩
  rw [h.records, WalWriterState.records, h.buffered, List.map_nil, List.append_nil]
  exact hrecords

/-- A call that ends with a flush that is rolled back. -/
theorem Called.undone {message : String}
    (h : Running.Undone inner message t₁ w older active t' w')
    (hrecords : t₁.records.Sublist (t.records ++ call.appended inner t)) :
    ∃ events, Called call inner t w (older ++ [active]) t' w' older active [] events := by
  have hbuffer : t'.records.Sublist (t.records ++ call.appended inner t) := by
    rcases h.buffered with hnone | hsame
    · rw [WalWriterState.records, hnone]
      exact List.nil_sublist _
    · rw [WalWriterState.records, hsame]
      exact hrecords
  rcases h.trace with htrace | htrace
  · exact ⟨[], h.running, (List.append_nil _).symm, htrace.trans (List.append_nil _).symm,
      answered_nil [], hbuffer, h.front⟩
  · exact ⟨_, h.running, (List.append_nil _).symm, htrace, answered_failureEvents [] _ _, hbuffer,
      h.front⟩

/-- **Beside a replay**, a call only lets the log grow. -/
theorem Called.moved {log : List LogSegment}
    (h : Called call inner t w log t' w' older' active' added events) :
    WriterMoved ⟨w, log⟩ ⟨w', older' ++ [active']⟩ := by
  obtain ⟨bound, hfront⟩ := h.front
  refine ⟨hfront.path, hfront.nodeIdFile, hfront.checkpointFile, hfront.clock, hfront.ticks, ?_,
    fun _ => h.running.whole, ?_⟩
  · obtain ⟨events, htrace, hevents⟩ := hfront.trace
    have hnone : events.filter Event.isReplay = [] :=
      List.filter_eq_nil_iff.mpr fun event hevent => by rw [hevents event hevent]; simp
    show w'.trace.filter _ = w.trace.filter _
    rw [htrace, List.filter_append, hnone, List.append_nil]
  · exact ⟨added, h.entries.symm⟩

/-! ### The calls -/

/-- The ends of a call. -/
def CallEnd (call : WriterCall) (inner : WalWriterInner) (t : WalWriterState) (w : World)
    (older : List LogSegment) (active : LogSegment) (t' : WalWriterState) (w' : World) : Prop :=
  ∃ older' active' added events,
    Called call inner t w (older ++ [active]) t' w' older' active' added events

/-- A flush at the end of a call. -/
theorem Running.wpc_flush_call (hmay : ∀ o, mayFail o → ¬RollbackOp o)
    (h : Running inner t₁ w.dir older active)
    (hrecords : t₁.records.Sublist (t.records ++ call.appended inner t)) :
    wpc (sysEnv mayFail) (fun _ => Calling call inner t w older active) (flushBufferLocked inner)
      (fun _ => CallEnd call inner t w older active) (fun _ => CallEnd call inner t w older active)
      t₁ w := by
  refine wpc_mono (h.wpc_flush_working hmay) (fun o w' hworking => ⟨t₁, h, hworking, hrecords⟩) ?_ ?_
  · rintro _ t' w' ⟨-, older', active', added, hcommitted⟩
    exact ⟨older', active', added, _, .committed hcommitted hrecords⟩
  · rintro error t' w' ⟨-, hundone⟩
    obtain ⟨events, hcalled⟩ := Called.undone hundone hrecords
    exact ⟨older, active, [], events, hcalled⟩

/-- **A call of the running writer.** -/
theorem Running.wpc_call (hmay : ∀ o, mayFail o → ¬RollbackOp o)
    (h : Running inner t w.dir older active) (call : WriterCall) :
    wpc (sysEnv mayFail) (fun _ => Calling call inner t w older active) (call.run inner)
      (fun _ => CallEnd call inner t w older active) (fun _ => CallEnd call inner t w older active)
      t w := by
  have hbuffer : t.records.Sublist (t.records ++ call.appended inner t) :=
    List.sublist_append_left _ _
  cases call with
  | append record response =>
    rw [WriterCall.run, wpc_bind, appendBuffered, wpc_bind, wpc_get, wpc_bind, wpc_ofExcept]
    refine ⟨fun nextLsn hnext => ?_, fun error _ => ⟨older, active, [], [], .idle h hbuffer⟩⟩
    have hpush := h.push record response hnext
    have hrecords : (WalWriterState.records { t with
        nextLsn := nextLsn
        buffered := t.buffered ++ [⟨assignWalMetadata record t.nextLsn inner.nodeId, response⟩] }).Sublist
        (t.records ++ (WriterCall.append record response).appended inner t) := by
      rw [WalWriterState.records, List.map_append]
      exact List.Sublist.refl _
    rw [wpc_bind, wpc_set, wpc_bind, wpc_ite]
    refine ⟨fun _ => hpush.wpc_flush_call hmay hrecords, fun _ => ?_⟩
    exact ⟨older, active, [], [], .idle hpush hrecords⟩
  | flush => exact h.wpc_flush_call hmay hbuffer
  | drop =>
    rw [WriterCall.run, dropWriter, wpc_bind, wpc_attempt]
    exact h.wpc_flush_call hmay hbuffer

end Ingest4x.Wal
