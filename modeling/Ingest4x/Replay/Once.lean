import Ingest4x.Replay.Start

/-! # A whole replay call

The specification of `replay_once_inner`: it finds its start, reads the entries and goes through
them. The later results on single calls instantiate this one rule.

* **`ReplayCall.From`** — the data of the call that starts in a world.
* **`wpc_replayOnceInner`** — the rule.
* **`Changed`** — what two moments of one call have in common. -/

namespace Ingest4x.Wal

open Effect

section Once

variable [RecordCodec] [CheckpointCodec] [DurationCodec] [JsonCodec]

/-- **The call that starts in a world**: with the local state `t` and the world `w` at its
beginning, and the world `w'` after it has found its start. -/
structure ReplayCall.From (context : WalReplayContext) (t : ReplayLocal) (w w' : World)
    (call : ReplayCall) : Prop where
  context_eq : call.context = context
  policy_eq : checkpointFlushPolicy context.checkpoint = .ok call.policy
  start_eq : replayStart (pipelineAutoOffsetReset context.eventSinks) w.dir = .ok call.start
  entries_eq : readEntriesAfterLimit w.dir call.start (some replayBatchSize) = .ok call.entries
  view_eq : call.view = replayView w'
  clock_eq : call.clock =
    ⟨{ t with state := ⟨call.start, none, 0, 0, w.clock w.ticks⟩ }, w.ticks + 1⟩
  moment : StartMoment (pipelineAutoOffsetReset context.eventSinks) w w'
  durable : call.start = none ∨ durableCheckpoint w'.dir = call.start
  ticks : w'.ticks = w.ticks + 1

variable {context : WalReplayContext} {t : ReplayLocal} {w w' : World} {call : ReplayCall}

omit [JsonCodec] in
/-- The entries of a call are not covered by the checkpoint that it finds on disk. -/
theorem ReplayCall.From.ordered_durable (h : call.From context t w w') {limit : Option Nat}
    {entries : List WalEntry} (hread : readEntriesAfterLimit w.dir call.start limit = .ok entries) :
    Ordered (durableCheckpoint w'.dir) entries := by
  rcases h.durable with hnone | hdurable
  · -- nothing was written, so the checkpoint is the old one
    rcases h.moment.durable with heq | ⟨position, hposition, -⟩
    · rw [heq]
      exact replayStart_ordered h.start_eq hread
    · rw [h.start_eq, hnone] at hposition
      cases hposition
  · rw [hdurable]
    exact readEntriesAfterLimit_ordered hread

omit [JsonCodec] in
theorem ReplayCall.From.started (h : call.From context t w w') : call.Started where
  state := ⟨w.clock w.ticks, by rw [h.clock_eq]⟩
  ticks := by rw [h.view_eq, h.clock_eq, replayView_ticks, h.ticks]
  ordered := readEntriesAfterLimit_ordered h.entries_eq
  uncovered := by
    rw [h.view_eq]
    exact h.ordered_durable h.entries_eq
  start := by
    rw [h.view_eq]
    exact h.durable

/-- **The rule of a replay call.** -/
theorem wpc_replayOnceInner {mayFail : SysOp → Prop} {P : SysOp → World → Prop}
    {Q : Nat → ReplayLocal → World → Prop} {E : ReplayError → ReplayLocal → World → Prop}
    (hP : ∀ o w', StartMoment (pipelineAutoOffsetReset context.eventSinks) w w' →
      Guard o (replayView w') → P o w')
    (hnoSinks : context.eventSinks.entries = [] → Q 0 t w)
    (hpolicy : ∀ issue, checkpointFlushPolicy context.checkpoint = .error issue →
      E (.issue issue) t w)
    (hstart : ∀ error t' w', ((∀ start,
        replayStart (pipelineAutoOffsetReset context.eventSinks) w.dir ≠ .ok start) ∨
        WriteMayFail mayFail w.dir.nodeIdFile) →
      StartMoment (pipelineAutoOffsetReset context.eventSinks) w w' →
      E (.issue (.checkpointCorrupt error)) t' w')
    (hread : ∀ error t' w', ((∃ start, replayStart (pipelineAutoOffsetReset context.eventSinks)
        w.dir = .ok start ∧ ∀ entries,
          readEntriesAfterLimit w.dir start (some replayBatchSize) ≠ .ok entries) ∨
        mayFail .readDir) →
      StartMoment (pipelineAutoOffsetReset context.eventSinks) w w' →
      E (.issue (.walReadFailed error)) t' w')
    (hrun : ∀ (call : ReplayCall) w', call.From context t w w' →
      wpc (sysEnv mayFail) P (replayFrom call.context call.policy call.start call.entries) Q E
        call.clock.env w') :
    wpc (sysEnv mayFail) P (replayOnceInner context) Q E t w := by
  rw [replayOnceInner, wpc_bind]
  cases hparse : checkpointFlushPolicy context.checkpoint with
  | error issue => exact hpolicy issue hparse
  | ok policy =>
    simp only [Result.mapError_ok, wpc_ofExcept_ok]
    rw [wpc_ite]
    refine ⟨hnoSinks, fun _ => ?_⟩
    rw [wpc_bind, orIssue, wpc_mapError]
    refine wpc_readReplayCheckpointState context.eventSinks rfl hP
      (fun start w' hfound hmoment hdurable hticks => ?_)
      fun error w' hreason hmoment => hstart error t w' hreason hmoment
    rw [wpc_bind, wpc_modify, wpc_bind, orIssue, wpc_mapError, wpc_bind, readDir, wpc_orThrow,
      wpc_perform]
    refine ⟨hP _ _ hmoment trivial, ?_⟩
    rintro r w'' ⟨rfl, rfl | ⟨hmay, e, rfl⟩⟩
    · refine ⟨?_, by simp⟩
      rintro _ ⟨⟩
      rw [readEntriesAfterLimit_congr hmoment.path hmoment.segments]
      cases hentries : readEntriesAfterLimit w.dir start (some replayBatchSize) with
      | error error =>
        refine hread error _ _ (Or.inl ⟨start, hfound, fun entries h => ?_⟩) hmoment
        rw [hentries] at h
        cases h
      | ok entries =>
        let call : ReplayCall := {
          context := context
          policy := policy
          start := start
          entries := entries
          view := replayView w''
          clock := ⟨{ t with state := ⟨start, none, 0, 0, w.clock w.ticks⟩ }, w.ticks + 1⟩ }
        exact hrun call w'' ⟨rfl, hparse, hfound, hentries, rfl, rfl, hmoment, hdurable, hticks⟩
    · exact ⟨by simp, fun error _ => hread error _ _ (Or.inr hmay) hmoment⟩

/-! ### Two moments of one call -/

/-- **What two moments of one call have in common**: the checkpoint on disk has not moved backward,
segments are unchanged or lie before it, and the trace has only grown. -/
structure Changed (w w' : World) : Prop where
  durable : placeOf (durableCheckpoint w.dir) ≤ placeOf (durableCheckpoint w'.dir)
  segments : ∀ segmentId file, w.dir.segments.lookup segmentId = some file →
    w'.dir.segments.lookup segmentId = some file ∨
      ∃ position ∈ durableCheckpoint w'.dir, segmentId < position.segment
  trace : ∃ events, w'.trace = w.trace ++ events ∧ events.filter Event.isReplay = events

omit [RecordCodec] [DurationCodec] [JsonCodec] in
theorem Changed.refl (w : World) : Changed w w :=
  ⟨le_rfl, fun _ _ h => Or.inl h, [], (List.append_nil _).symm, rfl⟩

omit [RecordCodec] [DurationCodec] [JsonCodec] in
theorem Changed.trans {w w' w'' : World} (h : Changed w w') (h' : Changed w' w'') :
    Changed w w'' where
  durable := h.durable.trans h'.durable
  segments segmentId file hfile := by
    rcases h.segments segmentId file hfile with hfile | hremoved
    · exact h'.segments segmentId file hfile
    · -- the checkpoint has only moved forward since the segment was removed
      exact Or.inr (exists_segment_lt_of_le h'.durable hremoved)
  trace := by
    obtain ⟨events, hevents, hfilter⟩ := h.trace
    obtain ⟨events', hevents', hfilter'⟩ := h'.trace
    exact ⟨events ++ events', by rw [hevents', hevents, List.append_assoc],
      by rw [List.filter_append, hfilter, hfilter']⟩

omit [RecordCodec] [DurationCodec] [JsonCodec] in
/-- A guarded operation respects `Changed`. -/
theorem changed_of_guard (mayFail : SysOp → Prop) {o : SysOp} {w w' : World} {r : SysResp o}
    (hguard : Guard o (replayView w)) (h : sysEnv mayFail o w r w') : Changed w w' := by
  have hrecord : ∀ event : Event, event.isReplay = true → Changed w (w.record event) :=
    fun event hevent => ⟨le_rfl, fun _ _ h => Or.inl h, [event], rfl, by
      rw [List.filter_cons, if_pos hevent, List.filter_nil]⟩
  cases o with
  | readDir =>
    obtain ⟨rfl, -⟩ := h
    exact Changed.refl _
  | nowMs =>
    obtain rfl := h
    exact Changed.refl _
  | instantNow =>
    obtain ⟨-, rfl⟩ := h
    exact ⟨le_rfl, fun _ _ h => Or.inl h, [], (List.append_nil _).symm, rfl⟩
  | syncDirectory site =>
    have h : Fallible _ w (· = w) r w' := h
    rcases h with ⟨-, rfl⟩ | ⟨-, -, rfl⟩ <;> exact Changed.refl _
  | removeSegment site segmentId =>
    obtain ⟨position, hposition, hlt⟩ := hguard
    rcases h with ⟨-, -, rfl⟩ | ⟨-, ⟨-, rfl⟩ | ⟨-, -, rfl⟩⟩
    · exact Changed.refl _
    · refine ⟨le_rfl, fun segmentId' file hfile => ?_, [], (List.append_nil _).symm, rfl⟩
      show (w.dir.segments.erase segmentId).lookup segmentId' = some file ∨ _
      rw [SortedTable.lookup_erase]
      by_cases heq : segmentId' = segmentId
      · subst heq
        exact Or.inr ⟨position, hposition, hlt⟩
      · rw [if_neg heq]
        exact Or.inl hfile
    · exact Changed.refl _
  | writeCheckpointFile file =>
    have hwritten : Changed w { w with dir := { w.dir with checkpointFile := some file } } :=
      ⟨hguard, fun _ _ h => Or.inl h, [], (List.append_nil _).symm, rfl⟩
    rcases h with ⟨-, rfl⟩ | ⟨-, -, rfl | rfl⟩
    · exact hwritten
    · exact Changed.refl _
    · exact hwritten
  | sendBatch sink events metadata =>
    obtain ⟨rfl, -⟩ := h
    exact hrecord _ rfl
  | quarantine entry issue =>
    obtain rfl := h
    exact hrecord _ rfl
  | createDirAll => exact hguard.elim
  | acquireWalLock => exact hguard.elim
  | availableSpace => exact hguard.elim
  | newUuid => exact hguard.elim
  | writeNodeIdFile nodeId => exact hguard.elim
  | createSegment site segmentId header => exact hguard.elim
  | appendSegment segmentId bytes => exact hguard.elim
  | syncSegment segmentId => exact hguard.elim
  | truncateSegment site segmentId len => exact hguard.elim
  | respond channel record result => exact hguard.elim

end Once

end Ingest4x.Wal
