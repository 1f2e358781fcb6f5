import Ingest4x.Replay.Window
import Ingest4x.Wal.Order

/-! # Saving the checkpoint

The checkpoint moves in two steps: entries that were delivered are marked as pending, and the pending
position is written to the file when a threshold of records, bytes or time is reached. When that
happens depends on the windows and on the clock alone, so it is a function of the moves.

* **`ReplayClock`** — the local state of a call with the number of clock readings, and
  **`ReplayClock.after`** some moves.
* **`wpc_flushPendingCheckpoint`**, **`wpc_cleanupCoveredSegments`**, **`wpc_commitBatch`** — the
  specifications of the functions that save. -/

namespace Ingest4x.Wal

open Effect

/-! ### The local state as a function of the moves -/

/-- **The local state of a call** with the number of clock readings so far. -/
structure ReplayClock where
  env : ReplayLocal
  ticks : Nat

namespace ReplayClock

/-- Write the pending checkpoint, if there is one. -/
def flush (clock : Nat → Nat) (rc : ReplayClock) : ReplayClock :=
  match rc.env.state.pendingCheckpoint with
  | none => rc
  | some position =>
    ⟨{ rc.env with state := ⟨some position, none, 0, 0, clock rc.ticks⟩ }, rc.ticks + 1⟩

/-- **What `should_flush_checkpoint` leads to**: the clock is read only where the counts do not
decide. -/
def flushIfDue (policy : CheckpointFlushPolicy) (clock : Nat → Nat) (rc : ReplayClock) :
    ReplayClock :=
  if policy.flushRecords ≤ rc.env.state.pendingRecords ∨
      policy.flushBytes ≤ rc.env.state.pendingBytes then rc.flush clock
  else if policy.flushInterval ≤ clock rc.ticks - rc.env.state.lastCheckpointFlush then
    flush clock ⟨rc.env, rc.ticks + 1⟩
  else ⟨rc.env, rc.ticks + 1⟩

/-- After deferral was decided: the clock was read, and the waiting times may have changed. -/
def waiting (pending : PendingSince) (rc : ReplayClock) : ReplayClock :=
  ⟨{ rc.env with runtime := some pending }, rc.ticks + 1⟩

section Moves

variable [JsonCodec]

/-- The entries of a window become pending, and its sinks no longer wait. -/
def mark (batch : List ReplayEntryDeliveries) (rc : ReplayClock) : ReplayClock :=
  ⟨⟨markBatchPending rc.env.state batch, rc.env.runtime.map fun pending =>
    SortedTable.filter pending fun sinkName _ =>
      ((sinkEventsByName rc.env.state.checkpoint batch).lookup sinkName).isNone⟩, rc.ticks⟩

/-- One move. -/
def move (policy : CheckpointFlushPolicy) (clock : Nat → Nat) (rc : ReplayClock) :
    ReplayMove → ReplayClock
  | .window batch => if batch = [] then rc else (rc.mark batch).flushIfDue policy clock
  | .quarantine entry _ =>
    ⟨{ rc.env with state := markCheckpointPending rc.env.state entry }, rc.ticks⟩

/-- **The local state after some moves.** -/
def after (policy : CheckpointFlushPolicy) (clock : Nat → Nat) (rc : ReplayClock)
    (moves : List ReplayMove) : ReplayClock :=
  moves.foldl (move policy clock) rc

@[simp] theorem after_nil (policy : CheckpointFlushPolicy) (clock : Nat → Nat) (rc : ReplayClock) :
    rc.after policy clock [] = rc := rfl

@[simp] theorem after_append_singleton (policy : CheckpointFlushPolicy) (clock : Nat → Nat)
    (rc : ReplayClock) (moves : List ReplayMove) (m : ReplayMove) :
    rc.after policy clock (moves ++ [m]) = (rc.after policy clock moves).move policy clock m := by
  rw [after, List.foldl_append]
  rfl

end Moves

end ReplayClock

/-! ### Which entries are saved -/

/-- **What the checkpoint state says**: the entries `saved` are covered by the checkpoint on disk,
and the entries `unsaved` after them are pending. -/
structure SavedUpTo (start : Option WalPosition) (saved unsaved : List WalEntry)
    (state : ReplayCheckpointState) : Prop where
  checkpoint : state.checkpoint = (lastPosition saved).or start
  pendingCheckpoint : state.pendingCheckpoint = lastPosition unsaved
  pendingRecords : state.pendingRecords = unsaved.length

theorem SavedUpTo.mark {start : Option WalPosition} {saved unsaved : List WalEntry}
    {state : ReplayCheckpointState} (h : SavedUpTo start saved unsaved state) (entry : WalEntry) :
    SavedUpTo start saved (unsaved ++ [entry]) (markCheckpointPending state entry) where
  checkpoint := h.checkpoint
  pendingCheckpoint := (lastPosition_append_singleton unsaved entry).symm
  pendingRecords := by
    rw [List.length_append, ← h.pendingRecords]
    rfl

/-- A window of entries that the checkpoint does not cover becomes pending as a whole. -/
theorem SavedUpTo.markBatch {start : Option WalPosition} {saved unsaved : List WalEntry}
    {state : ReplayCheckpointState} (h : SavedUpTo start saved unsaved state)
    {batch : List ReplayEntryDeliveries}
    (hcovers : ∀ item ∈ batch, checkpointCoversEntry state.checkpoint item.entry = false) :
    SavedUpTo start saved (unsaved ++ batch.map ReplayEntryDeliveries.entry)
      (markBatchPending state batch) := by
  unfold markBatchPending
  induction batch generalizing unsaved state with
  | nil =>
    rw [List.map_nil, List.append_nil]
    exact h
  | cons item batch ih =>
    rw [List.foldl_cons, hcovers item List.mem_cons_self, if_neg Bool.false_ne_true, List.map_cons,
      ← List.singleton_append, ← List.append_assoc]
    exact ih (h.mark item.entry) fun item' hitem => hcovers item' (List.mem_cons_of_mem _ hitem)

/-- After a flush everything is saved. -/
theorem SavedUpTo.flush {start : Option WalPosition} {saved unsaved : List WalEntry}
    {clock : Nat → Nat} {rc : ReplayClock} (h : SavedUpTo start saved unsaved rc.env.state) :
    SavedUpTo start (saved ++ unsaved) [] (rc.flush clock).env.state := by
  unfold ReplayClock.flush
  cases hpending : rc.env.state.pendingCheckpoint with
  | none =>
    have hnil : unsaved = [] := lastPosition_eq_none (h.pendingCheckpoint ▸ hpending)
    subst hnil
    rw [List.append_nil]
    exact h
  | some position =>
    rw [h.pendingCheckpoint] at hpending
    refine ⟨?_, rfl, rfl⟩
    rw [lastPosition_append, hpending]
    rfl

section Specs

variable [RecordCodec] [CheckpointCodec]

variable {mayFail : SysOp → Prop} {P : SysOp → ReplayView → Prop}

/-! ### Specifications -/

/-- Why the checkpoint file may not be written. -/
def WriteMayFail (mayFail : SysOp → Prop) (nodeIdFile : Option String) : Prop :=
  mayFail .readDir ∨ nodeIdFile = none ∨ ∃ file, mayFail (.writeCheckpointFile file)

/-- **Writing the checkpoint**: the file holds the position, or the write fails before or after. -/
theorem wpc_writeCheckpoint {τ : Type} {Q : Unit → τ → ReplayView → Prop}
    {E : IoError → τ → ReplayView → Prop} {t : τ} {v : ReplayView} (position : WalPosition)
    (hreadDir : P .readDir v) (hnowMs : P .nowMs v)
    (hwrite : ∀ file, filePosition file = some position → P (.writeCheckpointFile file) v)
    (hQ : Q () t (v.save (some position)))
    (hE : ∀ error v', WriteMayFail mayFail v.nodeIdFile → (v' = v ∨ v' = v.save (some position)) →
      E error t v') :
    wpc (viewEnv mayFail) P (writeCheckpoint position) Q E t v := by
  rw [writeCheckpoint, wpc_bind, readDir, wpc_orThrow, wpc_perform]
  refine ⟨hreadDir, ?_⟩
  rintro r v' ⟨rfl, ⟨dir, rfl, hnode⟩ | ⟨hmay, e, rfl⟩⟩
  · refine ⟨?_, by simp⟩
    rintro _ ⟨⟩
    rw [wpc_bind, wpc_ofExcept]
    refine ⟨fun nodeId _ => ?_, fun e herror => ?_⟩
    · rw [wpc_bind, wpc_perform]
      refine ⟨hnowMs, ?_⟩
      rintro updatedAt v'' rfl
      rw [wpc_orThrow, wpc_perform]
      refine ⟨hwrite _ (filePosition_toVec _ _ _ _), ?_⟩
      rintro r v' (⟨rfl, rfl⟩ | ⟨hmay, ⟨e, rfl⟩, hv⟩)
      · rw [filePosition_toVec]
        exact ⟨fun _ _ => hQ, by simp⟩
      · rw [filePosition_toVec] at hv
        exact ⟨by simp, fun e _ => hE e v' (Or.inr (Or.inr ⟨_, hmay⟩)) hv⟩
    · have hnone : v'.nodeIdFile = none := by
        rw [← hnode]
        unfold readNodeId at herror
        cases hfile : dir.nodeIdFile with
        | none => rfl
        | some text => simp [hfile] at herror
      exact hE e v' (Or.inr (Or.inl hnone)) (Or.inl rfl)
  · exact ⟨by simp, fun e _ => hE e v' (Or.inl hmay) (Or.inl rfl)⟩

/-- **`flush_pending_checkpoint`.** -/
theorem wpc_flushPendingCheckpoint {Q : Unit → ReplayLocal → ReplayView → Prop}
    {E : IoError → ReplayLocal → ReplayView → Prop} {t : ReplayLocal} {v : ReplayView}
    (hreadDir : P .readDir v) (hnowMs : P .nowMs v)
    (hwrite : ∀ position, t.state.pendingCheckpoint = some position →
      (∀ file, filePosition file = some position → P (.writeCheckpointFile file) v) ∧
        P .instantNow (v.save (some position)))
    (hQ : ∀ v', v'.ticks = (ReplayClock.flush v.clock ⟨t, v.ticks⟩).ticks →
      (∀ position, t.state.pendingCheckpoint = some position →
        v' = (v.save (some position)).tick) →
      (t.state.pendingCheckpoint = none → v' = v) →
      Q () (ReplayClock.flush v.clock ⟨t, v.ticks⟩).env v')
    (hE : ∀ error position v', WriteMayFail mayFail v.nodeIdFile →
      t.state.pendingCheckpoint = some position → (v' = v ∨ v' = v.save (some position)) →
      E error t v') :
    wpc (viewEnv mayFail) P flushPendingCheckpoint Q E t v := by
  rw [flushPendingCheckpoint, wpc_bind, wpc_get]
  cases hpending : t.state.pendingCheckpoint with
  | none =>
    simp only [wpc_pure]
    have h := hQ v (by simp [ReplayClock.flush, hpending]) (by simp [hpending]) fun _ => rfl
    simpa [ReplayClock.flush, hpending] using h
  | some position =>
    obtain ⟨hfile, hinstant⟩ := hwrite position hpending
    simp only [wpc_bind]
    refine wpc_writeCheckpoint position hreadDir hnowMs hfile ?_ fun error v' hmay hv =>
      hE error position v' hmay hpending hv
    rw [wpc_perform]
    refine ⟨hinstant, ?_⟩
    rintro now v' ⟨rfl, rfl⟩
    rw [wpc_set]
    have h := hQ (v.save (some position)).tick (by simp [ReplayClock.flush, hpending])
      (by simp [hpending]) (by simp [hpending])
    simpa [ReplayClock.flush, hpending] using h

/-- The loop of the cleanup: it removes only segments before the one to keep from. -/
theorem wpc_removeCoveredLoop {τ : Type} {Q : Bool → τ → ReplayView → Prop}
    {E : IoError → τ → ReplayView → Prop} {t : τ} {v : ReplayView} (path : String)
    (checkpointLsn keepFromSegment : Nat) (segments : List (Nat × SegmentFile)) (removed : Bool)
    (hP : ∀ segmentId, segmentId < keepFromSegment → P (.removeSegment .cleanup segmentId) v)
    (hQ : ∀ removed, Q removed t v) (hE : ∀ error, E error t v) :
    wpc (viewEnv mayFail) P
      (removeCoveredLoop path checkpointLsn keepFromSegment segments removed) Q E t v := by
  induction segments generalizing removed with
  | nil => exact hQ removed
  | cons segment segments ih =>
    obtain ⟨segmentId, file⟩ := segment
    rw [removeCoveredLoop, wpc_ite]
    refine ⟨fun _ => ih removed, fun hbefore => ?_⟩
    rw [wpc_bind, wpc_ofExcept]
    refine ⟨fun covered _ => ?_, fun error _ => hE error⟩
    rw [wpc_ite]
    refine ⟨fun _ => ?_, fun _ => ih removed⟩
    rw [wpc_bind, wpc_orThrow, wpc_perform]
    refine ⟨hP segmentId (not_le.mp hbefore), ?_⟩
    rintro r v' rfl
    exact ⟨fun _ _ => ih true, fun error _ => hE error⟩

/-- **`cleanup_covered_segments`** removes only segments before the one of the checkpoint, and
changes nothing in the view. -/
theorem wpc_cleanupCoveredSegments {Q : Unit → ReplayLocal → ReplayView → Prop}
    {E : IoError → ReplayLocal → ReplayView → Prop} {t : ReplayLocal} {v : ReplayView}
    (hreadDir : P .readDir v) (hsync : P (.syncDirectory .cleanup) v)
    (hremove : ∀ position segmentId, t.state.checkpoint = some position →
      segmentId < position.segment → P (.removeSegment .cleanup segmentId) v)
    (hQ : Q () t v) (hE : ∀ error, E error t v) :
    wpc (viewEnv mayFail) P cleanupCoveredSegments Q E t v := by
  rw [cleanupCoveredSegments, wpc_bind, wpc_get]
  cases hcheckpoint : t.state.checkpoint with
  | none => exact hQ
  | some watermark =>
    simp only
    rw [removeSegmentsCoveredByCheckpoint, wpc_bind, readDir, wpc_orThrow, wpc_perform]
    refine ⟨hreadDir, ?_⟩
    rintro r v' ⟨rfl, ⟨dir, rfl, -⟩ | ⟨-, e, rfl⟩⟩
    · refine ⟨?_, by simp⟩
      rintro _ ⟨⟩
      rw [wpc_bind]
      refine wpc_removeCoveredLoop _ _ _ _ _ (fun segmentId h => hremove _ _ hcheckpoint h)
        (fun removed => ?_) hE
      rw [wpc_ite]
      refine ⟨fun _ => ?_, fun _ => hQ⟩
      rw [wpc_orThrow, wpc_perform]
      refine ⟨hsync, ?_⟩
      rintro r v'' rfl
      exact ⟨fun _ _ => hQ, fun error _ => hE error⟩
    · exact ⟨by simp, fun error _ => hE error⟩

end Specs

end Ingest4x.Wal
