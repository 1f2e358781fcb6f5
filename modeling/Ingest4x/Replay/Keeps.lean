import Ingest4x.Replay.Once

/-! # What a replay call keeps

A call in which nothing fails keeps what its parts keep: the two that save, the sending of a window, the
deferral, and the few steps between them that change the local state or the clock.

* **`KeptByParts`** — what the parts of a call have to keep.
* **`KeptByParts.replayFrom`** — then the call keeps it. -/

namespace Ingest4x.Wal

open Effect

/-- Nothing fails. -/
def NoFailure (_ : SysOp) : Prop := False

section Parts

variable [RecordCodec] [CheckpointCodec] [DurationCodec]

/-- **The parts of a call keep an invariant**, and an LSN gap ends in the error exit. -/
structure KeptByParts (context : WalReplayContext) (I : ReplayLocal → World → Prop)
    (E : ReplayError → ReplayLocal → World → Prop) : Prop where
  flush : Keeps (sysEnv NoFailure) I E (orIssue .checkpointWriteFailed flushPendingCheckpoint)
  cleanup : Keeps (sysEnv NoFailure) I E (orIssue .checkpointWriteFailed cleanupCoveredSegments)
  send : ∀ sinkName events, Keeps (sysEnv NoFailure) I E (sendSinkWindow context sinkName events)
  deferral : ∀ sinkEvents,
    Keeps (sysEnv NoFailure) I E (sinksDeferredByBatchTimeout context sinkEvents)
  state : ∀ t w state, I t w → I { t with state := state } w
  sent : ∀ t w keep, I t w →
    I { t with runtime := t.runtime.map fun pending => SortedTable.filter pending keep } w
  tick : ∀ t w, I t w → I t { w with ticks := w.ticks + 1 }
  quarantine : ∀ t w entry issue, I t w → I t (w.record (.quarantined entry issue))
  gap : ∀ t w expected actual, I t w → E (.issue (.walLsnGap expected actual)) t w

namespace KeptByParts

variable {context : WalReplayContext} {I : ReplayLocal → World → Prop}
  {E : ReplayError → ReplayLocal → World → Prop}

theorem commitBatch (h : KeptByParts context I E) (policy : CheckpointFlushPolicy)
    (sinkEvents : SortedTable String (List SinkDeliveryEvent)) (batch : List ReplayEntryDeliveries) :
    Keeps (sysEnv NoFailure) I E (commitBatch policy sinkEvents batch) := by
  have hsave : Keeps (sysEnv NoFailure) I E (do
      orIssue .checkpointWriteFailed flushPendingCheckpoint
      orIssue .checkpointWriteFailed cleanupCoveredSegments) := h.flush.bind fun _ => h.cleanup
  intro t w hw
  have hsent := h.state _ w (markBatchPending t.state batch)
    (h.sent t w (fun sinkName _ => (sinkEvents.lookup sinkName).isNone) hw)
  rw [Wal.commitBatch, wpc_bind, wpc_get, wpc_bind, wpc_set, shouldFlushCheckpoint, wpc_bind, wpc_ite]
  refine ⟨fun _ => hsave _ w hsent, fun _ => ?_⟩
  rw [wpc_bind, wpc_perform]
  refine ⟨trivial, ?_⟩
  rintro now w' ⟨-, rfl⟩
  rw [wpc_pure, wpc_ite]
  exact ⟨fun _ => hsave _ _ (h.tick _ w hsent), fun _ => h.tick _ w hsent⟩

variable [JsonCodec]

theorem replayBatchToSinks (h : KeptByParts context I E) (policy : CheckpointFlushPolicy)
    (batch : List ReplayEntryDeliveries) (mode : ReplayBatchFlushMode) :
    Keeps (sysEnv NoFailure) I E (replayBatchToSinks context policy batch mode) := by
  rw [Wal.replayBatchToSinks]
  refine Keeps.ite (fun _ => Keeps.pure true) fun _ => Keeps.get_bind fun t => ?_
  refine Keeps.bind ?_ fun deferred => ?_
  · cases mode with
    | allowDefer => exact h.deferral _
    | force => exact Keeps.pure []
  · refine Keeps.ite (fun _ => Keeps.pure false) fun _ => ?_
    refine (Keeps.forEach (fun row => ?_) _).bind fun _ =>
      (h.commitBatch policy _ batch).bind fun _ => Keeps.pure true
    obtain ⟨sinkName, events⟩ := row
    exact h.send sinkName events

theorem runMove (h : KeptByParts context I E) (policy : CheckpointFlushPolicy) (move : ReplayMove) :
    Keeps (sysEnv NoFailure) I E (runMove context policy move) := by
  cases move with
  | window batch => exact (h.replayBatchToSinks policy batch .force).bind fun _ => Keeps.pure ()
  | quarantine entry issue =>
    intro t w hw
    rw [Wal.runMove, quarantineReplayIssue, wpc_bind, wpc_perform]
    refine ⟨trivial, ?_⟩
    rintro r w' rfl
    exact h.state t _ _ (h.quarantine t w entry issue hw)

/-- **The part of a call after the entries are read** keeps what its parts keep. -/
theorem replayFrom (h : KeptByParts context I E) (policy : CheckpointFlushPolicy)
    (start : Option WalPosition) (entries : List WalEntry) :
    Keeps (sysEnv NoFailure) I E (replayFrom context policy start entries) := by
  rw [Wal.replayFrom, replayEntries_eq]
  refine ((Keeps.forEach (h.runMove policy) _).bind fun _ => ?_).bind fun loop =>
    (h.replayBatchToSinks policy loop.replayBatch .allowDefer).bind fun flushed => ?_
  · cases hending : (planEntries context (replayWindowPolicy context.replay) entries
      ⟨start.map fun position => position.lsn + 1, [], 0⟩).ending with
    | trailing loop => exact Keeps.pure loop
    | stop issue =>
      intro t w hw
      obtain ⟨expected, actual, -, rfl⟩ := planEntries_stop hending
      exact h.gap t w expected actual hw
  · exact Keeps.ite (fun _ => h.flush.bind fun _ => h.cleanup.bind fun _ => Keeps.pure _)
      fun _ => Keeps.pure 0

end KeptByParts

end Parts

end Ingest4x.Wal
