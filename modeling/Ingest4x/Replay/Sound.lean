import Ingest4x.Replay.Keeps
import Ingest4x.Replay.Waiting

/-! # Sound moments

Calls that share a runtime state leave it sound: no sink waits since a time to come, and the checkpoint
file can be read again.

* **`Sound`** — a sound moment.
* **`sound_of_runs`** — a call in which nothing fails leaves a sound moment, however it ends. -/

namespace Ingest4x.Wal

open Effect

section Sound

variable [RecordCodec] [CheckpointCodec]

/-- The checkpoint file can be read, if there is one. -/
def CheckpointReadable (dir : WalDir) : Prop :=
  ∀ file, dir.checkpointFile = some file → ∃ position,
    readCheckpointFile (checkpointPath dir.path) (readNodeId dir) file = .ok position

/-- **A sound moment**: the clock does not run backward, no sink waits since a time to come, and the
checkpoint file can be read. -/
structure Sound (t : ReplayLocal) (w : World) : Prop where
  monotone : Monotone w.clock
  past : ∀ sink since, waitsSince t.runtime sink = some since → since ≤ w.clock w.ticks
  readable : CheckpointReadable w.dir

variable {t : ReplayLocal} {w w' : World}

/-- A moment is as sound as an earlier one with the same checkpoint file. -/
theorem Sound.later (h : Sound t w) (path : w'.dir.path = w.dir.path)
    (nodeIdFile : w'.dir.nodeIdFile = w.dir.nodeIdFile)
    (checkpointFile : w'.dir.checkpointFile = w.dir.checkpointFile) (clock : w'.clock = w.clock)
    (ticks : w.ticks ≤ w'.ticks) : Sound t w' where
  monotone := clock ▸ h.monotone
  past sink since hsince := by
    rw [clock]
    exact (h.past sink since hsince).trans (h.monotone ticks)
  readable file hfile := by
    rw [checkpointFile] at hfile
    rw [path, readNodeId, nodeIdFile]
    exact h.readable file hfile

/-- Only the runtime state matters. -/
theorem Sound.runtime {t' : ReplayLocal} (h : Sound t w) (hruntime : t'.runtime = t.runtime) :
    Sound t' w :=
  ⟨h.monotone, fun sink since hsince => h.past sink since (hruntime ▸ hsince), h.readable⟩

/-- A checkpoint file that the replay has written can be read. -/
theorem checkpointReadable_new {dir : WalDir} {nodeId : String} (hnode : readNodeId dir = .ok nodeId)
    (position : WalPosition) (updatedAt : Nat) :
    CheckpointReadable { dir with
      checkpointFile := some (CheckpointCodec.toVec
        (WalCheckpoint.new position nodeId none updatedAt)) } := by
  rintro file ⟨⟩
  refine ⟨position, ?_⟩
  show readCheckpointFile _ (readNodeId dir) _ = _
  rw [hnode]
  exact readCheckpointFile_new _ nodeId position updatedAt

/-! ### The parts of a call -/

/-- Commands keep moments sound, however they end. -/
def KeepsSound {ε α : Type} (c : Cmd SysOp SysResp ReplayLocal ε α) : Prop :=
  Keeps (sysEnv NoFailure) Sound (fun _ => Sound) c

theorem KeepsSound.orIssue {α : Type} {issue : IoError → ReplayIssue} {c : Sys ReplayLocal α}
    (h : KeepsSound c) : KeepsSound (orIssue issue c) :=
  Keeps.mapError h

theorem keepsSound_readDir : KeepsSound readDir := by
  refine Keeps.orThrow (Keeps.perform ?_) fun _ _ _ h => h
  rintro t w r w' h ⟨rfl, -⟩
  exact h

theorem keepsSound_instantNow {ε : Type} :
    KeepsSound (Cmd.perform SysOp.instantNow : Cmd SysOp SysResp ReplayLocal ε Nat) := by
  refine Keeps.perform ?_
  rintro t w r w' h ⟨-, rfl⟩
  exact h.later rfl rfl rfl rfl (Nat.le_succ _)

/-- **Writing the checkpoint** leaves a file that can be read. -/
theorem wpc_writeCheckpoint_readable {τ : Type} {Q : Unit → τ → World → Prop}
    {E : IoError → τ → World → Prop} {t : τ} (position : WalPosition)
    (hQ : ∀ file, CheckpointReadable { w.dir with checkpointFile := some file } →
      Q () t { w with dir := { w.dir with checkpointFile := some file } })
    (hE : ∀ error, E error t w) :
    wpc (sysEnv NoFailure) (fun _ _ => True) (writeCheckpoint position) Q E t w := by
  rw [writeCheckpoint, wpc_bind, readDir, wpc_orThrow, wpc_perform]
  refine ⟨trivial, ?_⟩
  rintro r w' ⟨rfl, rfl | ⟨hmay, -⟩⟩
  · refine ⟨?_, by simp⟩
    rintro _ ⟨⟩
    rw [wpc_bind, wpc_ofExcept]
    refine ⟨fun nodeId hnode => ?_, fun error _ => hE error⟩
    rw [wpc_bind, wpc_perform]
    refine ⟨trivial, ?_⟩
    rintro updatedAt w'' rfl
    rw [wpc_orThrow, wpc_perform]
    refine ⟨trivial, ?_⟩
    rintro r w' (⟨rfl, rfl⟩ | ⟨hmay, -⟩)
    · exact ⟨fun _ _ => hQ _ (checkpointReadable_new hnode position _), by simp⟩
    · exact hmay.elim
  · exact hmay.elim

theorem keepsSound_flush : KeepsSound (orIssue .checkpointWriteFailed flushPendingCheckpoint) := by
  refine KeepsSound.orIssue fun t w h => ?_
  rw [flushPendingCheckpoint, wpc_bind, wpc_get]
  cases t.state.pendingCheckpoint with
  | none => exact h
  | some position =>
    simp only
    rw [wpc_bind]
    refine wpc_writeCheckpoint_readable position (fun file hfile => ?_) fun _ => h
    rw [wpc_bind, wpc_perform]
    refine ⟨trivial, ?_⟩
    rintro now w' ⟨-, rfl⟩
    have hwritten : Sound t { w with dir := { w.dir with checkpointFile := some file } } :=
      ⟨h.monotone, h.past, hfile⟩
    rw [wpc_set]
    refine Sound.later (hwritten.runtime rfl) ?_ ?_ ?_ ?_ (Nat.le_succ w.ticks) <;> rfl

theorem keepsSound_removeCoveredLoop (path : String) (checkpointLsn keepFromSegment : Nat)
    (segments : List (Nat × SegmentFile)) (removed : Bool) :
    KeepsSound (removeCoveredLoop path checkpointLsn keepFromSegment segments removed) := by
  induction segments generalizing removed with
  | nil => exact Keeps.pure removed
  | cons segment segments ih =>
    obtain ⟨segmentId, file⟩ := segment
    rw [removeCoveredLoop]
    refine Keeps.ite (fun _ => ih removed) fun _ => ?_
    refine (Keeps.ofExcept _ fun _ _ _ h => h).bind fun covered => ?_
    refine Keeps.ite (fun _ => ?_) fun _ => ih removed
    refine (Keeps.orThrow (Keeps.perform ?_) fun _ _ _ h => h).bind fun _ => ih true
    rintro t w r w' h (⟨-, -, rfl⟩ | ⟨-, ⟨-, rfl⟩ | ⟨hmay, -⟩⟩)
    · exact h
    · exact h.later rfl rfl rfl rfl le_rfl
    · exact hmay.elim

theorem keepsSound_cleanup :
    KeepsSound (orIssue .checkpointWriteFailed cleanupCoveredSegments) := by
  refine KeepsSound.orIssue (Keeps.get_bind fun t => ?_)
  cases t.state.checkpoint with
  | none => exact Keeps.pure ()
  | some watermark =>
    refine keepsSound_readDir.bind fun dir =>
      (keepsSound_removeCoveredLoop _ _ _ _ _).bind fun removed => ?_
    refine Keeps.ite (fun _ => ?_) fun _ => Keeps.pure ()
    refine Keeps.orThrow (Keeps.perform ?_) fun _ _ _ h => h
    rintro t w r w' h (⟨-, rfl⟩ | ⟨hmay, -⟩)
    · exact h
    · exact hmay.elim

variable [DurationCodec]

omit [RecordCodec] [CheckpointCodec] in
/-- A sink waits since the time of the decision, or as before. -/
theorem sinksDeferredLoop_since {context : WalReplayContext} {now : Nat}
    (rows : List (String × List SinkDeliveryEvent)) (deferred : List String)
    (pending : PendingSince) (sink : String) (since : Nat)
    (h : (sinksDeferredLoop context now rows deferred pending).2.lookup sink = some since) :
    pending.lookup sink = some since ∨ since = now := by
  induction rows generalizing deferred pending with
  | nil => exact Or.inl h
  | cons row rows ih =>
    obtain ⟨name, events⟩ := row
    -- the clock of this sink runs, or it starts now
    have hstarted : (SortedTable.insert pending name ((pending.lookup name).getD now)).lookup sink =
        some since → pending.lookup sink = some since ∨ since = now := by
      intro h
      rw [SortedTable.lookup_insert] at h
      split_ifs at h with hname
      · subst hname
        cases hlookup : pending.lookup sink with
        | none =>
          rw [hlookup] at h
          exact Or.inr (Option.some.inj h).symm
        | some old =>
          rw [hlookup] at h
          exact Or.inl h
      · exact Or.inl h
    rw [sinksDeferredLoop] at h
    cases hpolicy : sinkPolicy context name with
    | error issue =>
      simp only [hpolicy] at h
      exact Or.inl h
    | ok policy =>
      simp only [hpolicy] at h
      split_ifs at h
      · exact Or.inl h
      · exact hstarted h
      · rcases ih _ _ h with h | h
        · exact hstarted h
        · exact Or.inr h

theorem keepsSound_sendSinkWindow (context : WalReplayContext) (sinkName : String)
    (events : List SinkDeliveryEvent) : KeepsSound (sendSinkWindow context sinkName events) := by
  intro t w h
  rw [sendSinkWindow, wpc_bind]
  cases hparse : sinkPolicy context sinkName with
  | error issue => exact h
  | ok policy =>
    simp only [Result.mapError_ok, wpc_ofExcept_ok, wpc_mapError]
    rw [sendSinkEventsInBatches_eq sinkName (one_le_maxEvents hparse)]
    refine Keeps.forEach (fun batch => ?_) _ t w h
    rw [sendBatchTo, sendSinkBatch]
    refine (Keeps.perform ?_).bind fun result => ?_
    · rintro t w r w' h ⟨rfl, -⟩
      exact h.later rfl rfl rfl rfl le_rfl
    · cases result with
      | ok _ => exact Keeps.pure ()
      | error error => exact fun _ _ h => h

theorem keepsSound_sinksDeferred (context : WalReplayContext)
    (sinkEvents : SortedTable String (List SinkDeliveryEvent)) :
    KeepsSound (sinksDeferredByBatchTimeout context sinkEvents) := by
  intro t w h
  rw [sinksDeferredByBatchTimeout, wpc_bind, wpc_get, wpc_ite]
  refine ⟨fun _ => h, fun _ => ?_⟩
  cases hruntime : t.runtime with
  | none => exact h
  | some pending =>
    simp only [wpc_bind, wpc_perform]
    refine ⟨trivial, ?_⟩
    rintro now w' ⟨rfl, rfl⟩
    cases hloop : sinksDeferredLoop context (w.clock w.ticks) sinkEvents.entries [] pending with
    | mk deferred pending' =>
    have hlater : Sound t { w with ticks := w.ticks + 1 } :=
      h.later rfl rfl rfl rfl (Nat.le_succ _)
    have hsound : Sound { t with runtime := some pending' } { w with ticks := w.ticks + 1 } := by
      refine ⟨h.monotone, fun sink since hsince => ?_, hlater.readable⟩
      rcases sinksDeferredLoop_since sinkEvents.entries [] pending sink since
        (by rw [hloop]; exact hsince) with hold | rfl
      · refine hlater.past sink since ?_
        rw [waitsSince, hruntime]
        exact hold
      · exact h.monotone (Nat.le_succ _)
    simp only [wpc_set]
    cases deferred with
    | ok sinks => exact hsound
    | error issue => exact hsound

/-- The parts of a call keep moments sound. -/
theorem keptByParts_sound (context : WalReplayContext) :
    KeptByParts context Sound fun _ => Sound where
  flush := keepsSound_flush
  cleanup := keepsSound_cleanup
  send := keepsSound_sendSinkWindow context
  deferral := keepsSound_sinksDeferred context
  state _ _ _ h := h.runtime rfl
  sent t w keep h := by
    refine ⟨h.monotone, fun sink since hsince => h.past sink since ?_, h.readable⟩
    unfold waitsSince at hsince ⊢
    cases hruntime : t.runtime with
    | none => simp [hruntime] at hsince
    | some pending =>
      simp only [hruntime, Option.map_some, Option.bind_some, SortedTable.lookup_filter] at hsince ⊢
      cases hlookup : pending.lookup sink with
      | none => simp [hlookup] at hsince
      | some old =>
        rw [hlookup] at hsince
        simp only [Option.filter_some] at hsince
        split_ifs at hsince
        exact hsince
  tick _ _ h := h.later rfl rfl rfl rfl (Nat.le_succ _)
  quarantine _ _ _ _ h := h.later rfl rfl rfl rfl le_rfl
  gap _ _ _ _ h := h

/-! ### The whole call -/

omit [DurationCodec] in
theorem keepsSound_readReplayCheckpointState (eventSinks : EventSinks) :
    KeepsSound (readReplayCheckpointState eventSinks) := by
  have hreset : ∀ reset bounds, KeepsSound (resetCheckpoint reset bounds) := by
    intro reset bounds
    cases reset with
    | earliest => exact Keeps.pure none
    | latest =>
      rw [resetCheckpoint]
      cases bounds.tail with
      | none => exact Keeps.pure none
      | some position =>
        refine Keeps.bind (fun t w h => ?_) fun _ => Keeps.pure (some position)
        exact wpc_writeCheckpoint_readable position
          (fun file hfile => ⟨h.monotone, h.past, hfile⟩) fun _ => h
  refine keepsSound_readDir.bind fun dir => (Keeps.ofExcept _ fun _ _ _ h => h).bind fun bounds => ?_
  refine Keeps.bind (keepsSound_readDir.bind fun dir => ?_) fun checkpoint =>
    keepsSound_instantNow.bind fun now => Keeps.pure _
  cases dir.checkpointFile with
  | none => exact hreset _ bounds
  | some file =>
    refine (Keeps.ofExcept _ fun _ _ _ h => h).bind fun position => ?_
    exact Keeps.ite (fun _ => hreset _ bounds) fun _ => Keeps.pure (some position)

variable [JsonCodec]

/-- **A call keeps moments sound**, where nothing fails. -/
theorem keepsSound_replayOnceInner (context : WalReplayContext) :
    KeepsSound (replayOnceInner context) := by
  refine (Keeps.ofExcept _ fun _ _ _ h => h).bind fun policy => ?_
  refine Keeps.ite (fun _ => Keeps.pure 0) fun _ => ?_
  refine (keepsSound_readReplayCheckpointState _).orIssue.bind fun state => ?_
  refine Keeps.bind (fun t w h => h.runtime rfl) fun _ => ?_
  refine Keeps.bind (KeepsSound.orIssue (keepsSound_readDir.bind fun dir =>
    Keeps.ofExcept _ fun _ _ _ h => h)) fun entries => ?_
  exact (keptByParts_sound context).replayFrom policy state.checkpoint entries

/-- **A call in which nothing fails leaves a sound moment**, however it ends. -/
theorem sound_of_runs {context : WalReplayContext} {t t' : ReplayLocal}
    {result : Except ReplayError Nat} (h : Sound t w)
    (hrun : Runs (sysEnv NoFailure) ((replayOnceInner context).start t) w (result, t') w') :
    Sound t' w' := by
  have hspec := wp_runs (keepsSound_replayOnceInner context t w h) hrun
  cases result with
  | ok n => exact hspec
  | error error => exact hspec

end Sound

end Ingest4x.Wal
