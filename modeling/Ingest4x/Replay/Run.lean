import Ingest4x.Replay.Call

/-! # The run of a replay call

The specification of the part of `replay_once_inner` after the entries are read, from the
specifications of its parts. Where a call stops early its error exit is described by the reason.

* **`ReplayExits`** — the reasons for an early end, each with what holds there.
* **`wpc_replayFrom`** — the specification. -/

namespace Ingest4x.Wal

open Effect

section Save

variable [RecordCodec] [CheckpointCodec] [JsonCodec] {mayFail : SysOp → Prop}
  {context : WalReplayContext} {start : Option WalPosition} {v₀ v : ReplayView}
  {all saved unsaved : List WalEntry} {rc : ReplayClock}

/-! ### Saving -/

/-- Before a segment is removed the checkpoint has moved, where there was anything to replay. -/
def SavedBefore (v₀ : ReplayView) (all : List WalEntry) : SysOp → ReplayView → Prop
  | .removeSegment _ _, v => all ≠ [] → placeOf v₀.durable < placeOf v.durable
  | _, _ => True

/-- A guarded operation at a moment of the call, with a checkpoint saved before segments are
removed. -/
def AtSavedMoment (context : WalReplayContext) (v₀ : ReplayView) (all : List WalEntry) (o : SysOp)
    (v : ReplayView) : Prop :=
  IsMoment context v₀ all v ∧ Guard o v ∧ SavedBefore v₀ all o v

omit [RecordCodec] [CheckpointCodec] in
/-- The checkpoint moves where entries are saved. -/
theorem Standing.lt_durable (h : Standing context start v₀ saved unsaved rc v)
    (hordered : Ordered v₀.durable saved) (hne : saved ≠ []) :
    placeOf v₀.durable < placeOf v.durable := by
  obtain ⟨entry, hentry⟩ := List.exists_mem_of_ne_nil saved hne
  refine lt_of_le_of_lt (hordered.start_le hentry) ?_
  have hcovered := hordered.covered_lastPosition hentry
  rw [h.durable]
  cases hlast : lastPosition saved with
  | none => exact absurd (hlast ▸ hcovered) (not_covered_none entry)
  | some position =>
    rw [hlast] at hcovered
    rw [Option.some_or]
    exact hcovered

/-- **Flushing the pending checkpoint** in a call. -/
theorem wpc_flush {Q : Unit → ReplayLocal → ReplayView → Prop}
    {E : IoError → ReplayLocal → ReplayView → Prop}
    (h : Standing context start v₀ saved unsaved rc v) (hall : saved ++ unsaved <+: all)
    (hordered : Ordered v₀.durable all)
    (hQ : ∀ v', Standing context start v₀ (saved ++ unsaved) [] (rc.flush v₀.clock) v' →
      Q () (rc.flush v₀.clock).env v')
    (hE : ∀ error v', WriteMayFail mayFail v₀.nodeIdFile → IsMoment context v₀ all v' →
      E error rc.env v') :
    wpc (viewEnv mayFail) (AtSavedMoment context v₀ all) flushPendingCheckpoint Q E rc.env v := by
  have hrc : (⟨rc.env, v.ticks⟩ : ReplayClock) = rc := by rw [h.ticks]
  have hmoment := h.isMoment hall
  refine wpc_flushPendingCheckpoint ⟨hmoment, trivial, trivial⟩ ⟨hmoment, trivial, trivial⟩
    (fun position hpending => ⟨fun file hfile => ⟨hmoment, ?_, trivial⟩,
      h.isMoment_save hall hpending, trivial, trivial⟩) (fun v' hticks hsome hnone => ?_)
    fun error position v' hmay hpending hv' => ?_
  · show placeOf v.durable ≤ placeOf (filePosition file)
    rw [hfile]
    exact h.guard_pending hall hordered hpending
  · rw [hrc] at hticks ⊢
    have hflush := h.flush hticks hsome hnone
    rw [h.clock] at hflush ⊢
    exact hQ v' hflush
  · rw [h.nodeIdFile] at hmay
    rcases hv' with rfl | rfl
    · exact hE error v' hmay hmoment
    · exact hE error _ hmay (h.isMoment_save hall hpending)

/-- **Removing the covered segments** in a call, after a flush. -/
theorem wpc_cleanup {Q : Unit → ReplayLocal → ReplayView → Prop}
    {E : IoError → ReplayLocal → ReplayView → Prop}
    (h : Standing context start v₀ saved [] rc v) (hall : saved <+: all)
    (hordered : Ordered v₀.durable all) (hne : all ≠ [] → saved ≠ [])
    (hstart : start = none ∨ v₀.durable = start)
    (hQ : Q () rc.env v) (hE : ∀ error, E error rc.env v) :
    wpc (viewEnv mayFail) (AtSavedMoment context v₀ all) cleanupCoveredSegments Q E rc.env v := by
  have hmoment : IsMoment context v₀ all v := h.isMoment (by rwa [List.append_nil])
  refine wpc_cleanupCoveredSegments ⟨hmoment, trivial, trivial⟩ ⟨hmoment, trivial, trivial⟩
    (fun position segmentId hposition hlt => ⟨hmoment, ⟨position, ?_, hlt⟩,
      fun hall' => h.lt_durable (hordered.ofPrefix hall) (hne hall')⟩) hQ hE
  -- the watermark of the call is the checkpoint on disk
  rw [h.save.checkpoint] at hposition
  rw [Option.mem_def, h.durable]
  rcases hstart with rfl | hstart
  · rw [Option.or_none] at hposition
    rw [hposition, Option.some_or]
  · rwa [hstart]

end Save

/-! ### How a call ends early -/

section Run

variable [RecordCodec] [CheckpointCodec] [DurationCodec] [JsonCodec]

/-- **The reasons for an early end**, each with what holds there: `E` is a postcondition that every
one of them establishes. -/
structure ReplayExits (mayFail : SysOp → Prop) (call : ReplayCall)
    (E : ReplayError → ReplayLocal → ReplayView → Prop) : Prop where
  /-- A sink fails. -/
  send : ∀ sinkName lsn error events metadata t v, mayFail (.sendBatch sinkName events metadata) →
    call.Meets v → E (.issue (.sinkSendFailed sinkName lsn error)) t v
  /-- The checkpoint cannot be written. -/
  write : ∀ error t v, WriteMayFail mayFail call.view.nodeIdFile → call.Meets v →
    E (.issue (.checkpointWriteFailed error)) t v
  /-- The cleanup fails, right after the checkpoint was written. -/
  cleanup : ∀ error saved rc v, saved <+: call.all → call.At saved [] rc v →
    E (.issue (.checkpointWriteFailed error)) rc.env v
  /-- The batch policy of a sink is not valid; the sinks before it got their events. -/
  policy : ∀ done batch issue saved unsaved rc pre row post trace v, call.Sends done batch →
    call.Sendable done → movesEntries done = saved ++ unsaved →
    rc.env.state = (call.after done).env.state →
    call.At saved unsaved rc v → (call.sinks done batch).entries = pre ++ row :: post →
    sinkPolicy call.context row.1 = .error issue →
    (∀ row ∈ pre, PolicyParses call.context row.1) → SentAll pre trace →
    E (.issue issue) rc.env (v.log trace)
  /-- The batch policy of a sink is not valid, found when deferral is decided. -/
  defer : ∀ issue saved unsaved rc v loop, call.plan.ending = .trailing loop →
    call.deferral loop = .error issue → call.Sendable call.plan.moves →
    movesEntries call.plan.moves = saved ++ unsaved →
    rc.env.state = (call.after call.plan.moves).env.state → call.At saved unsaved rc v →
    E (.issue issue) rc.env v
  /-- The loop stops: at an LSN gap, after the entries before it were delivered. -/
  stop : ∀ issue saved unsaved rc v, call.plan.ending = .stop issue →
    call.all = saved ++ unsaved → call.Sendable call.plan.moves →
    rc.env.state = (call.after call.plan.moves).env.state →
    call.At saved unsaved rc v → E (.issue issue) rc.env v

variable {mayFail : SysOp → Prop} {call : ReplayCall} {saved unsaved : List WalEntry}
  {rc : ReplayClock} {v : ReplayView} {E : ReplayError → ReplayLocal → ReplayView → Prop}

/-! ### Committing a window -/

omit [RecordCodec] [CheckpointCodec] [DurationCodec] in
/-- Reading the clock changes nothing else. -/
theorem Standing.tick {context : WalReplayContext} {start : Option WalPosition} {v₀ : ReplayView}
    (h : Standing context start v₀ saved unsaved rc v) :
    Standing context start v₀ saved unsaved ⟨rc.env, rc.ticks + 1⟩ v.tick :=
  ⟨h.clock, h.nodeIdFile, congrArg (· + 1) h.ticks, h.save, h.durable, h.trace⟩

/-- **Flushing where it is due.** -/
theorem wpc_flushIfDue (hcall : call.Started) (hexits : ReplayExits mayFail call E)
    {Q : Unit → ReplayLocal → ReplayView → Prop} (h : call.At saved unsaved rc v)
    (hall : saved ++ unsaved <+: call.all) (hne : saved ++ unsaved ≠ [])
    (hQ : ∀ saved' unsaved' v', saved' ++ unsaved' = saved ++ unsaved →
      call.At saved' unsaved' (rc.flushIfDue call.policy call.view.clock) v' →
      Q () (rc.flushIfDue call.policy call.view.clock).env v') :
    wpc (viewEnv mayFail) (AtSavedMoment call.context call.view call.all)
      (shouldFlushCheckpoint call.policy rc.env.state >>= fun flush =>
        if flush then do
          orIssue .checkpointWriteFailed flushPendingCheckpoint
          orIssue .checkpointWriteFailed cleanupCoveredSegments
        else pure ()) Q E rc.env v := by
  -- a flush followed by the cleanup, from any clock reading
  have hflush : ∀ (rc : ReplayClock) (v : ReplayView), call.At saved unsaved rc v →
      (∀ v', call.At (saved ++ unsaved) [] (rc.flush call.view.clock) v' →
        Q () (rc.flush call.view.clock).env v') →
      wpc (viewEnv mayFail) (AtSavedMoment call.context call.view call.all)
        (orIssue .checkpointWriteFailed flushPendingCheckpoint >>= fun _ =>
          orIssue .checkpointWriteFailed cleanupCoveredSegments) Q E rc.env v := by
    intro rc v h hQ
    rw [wpc_bind, orIssue, wpc_mapError]
    refine wpc_flush h hall (hcall.uncovered.ofPrefix (contiguousEntries_isPrefix _ _))
      (fun v' h' => ?_) fun error v' hmay hmoment => hexits.write _ _ _ hmay hmoment
    rw [orIssue, wpc_mapError]
    exact wpc_cleanup h' hall (hcall.uncovered.ofPrefix (contiguousEntries_isPrefix _ _))
      (fun _ => hne) hcall.start (hQ v' h') fun error => hexits.cleanup _ _ _ _ hall h'
  rw [ReplayClock.flushIfDue] at hQ
  rw [shouldFlushCheckpoint, wpc_bind]
  by_cases hfull : call.policy.flushRecords ≤ rc.env.state.pendingRecords ∨
      call.policy.flushBytes ≤ rc.env.state.pendingBytes
  · rw [if_pos hfull] at hQ
    rw [if_pos hfull, wpc_pure, if_pos rfl]
    exact hflush rc v h fun v' h' => hQ _ _ v' (List.append_nil _) h'
  · rw [if_neg hfull] at hQ
    rw [if_neg hfull, wpc_bind, wpc_perform]
    refine ⟨⟨h.isMoment hall, trivial, trivial⟩, ?_⟩
    rintro now v' ⟨rfl, rfl⟩
    rw [wpc_pure]
    rw [← h.clock, ← h.ticks] at hQ
    by_cases hdue : call.policy.flushInterval ≤ v.clock v.ticks - rc.env.state.lastCheckpointFlush
    · rw [if_pos hdue, h.clock, h.ticks] at hQ
      rw [if_pos (decide_eq_true hdue)]
      exact hflush ⟨rc.env, rc.ticks + 1⟩ v.tick h.tick fun v' h' => hQ _ _ v' (List.append_nil _) h'
    · rw [if_neg hdue, h.ticks] at hQ
      rw [if_neg (by simpa using hdue), wpc_pure]
      exact hQ saved unsaved _ rfl h.tick

omit [RecordCodec] [CheckpointCodec] [DurationCodec] in
/-- The sinks of a window are due what the specification expects, from every state with the
checkpoint of the call. -/
theorem ReplayCall.Window.dueEvents_sinks_at (hcall : call.Started) {done : List ReplayMove}
    {batch : List ReplayEntryDeliveries} (hwindow : call.Window done batch)
    (hdone : movesEntries done = saved ++ unsaved) (h : call.At saved unsaved rc v) (sink : String) :
    dueEvents sink (sinkEventsByName rc.env.state.checkpoint batch).entries =
      expectedEvents call.context sink (batch.map ReplayEntryDeliveries.entry) :=
  hwindow.dueEvents_sinks hcall hdone h.save.checkpoint sink

/-- **Sending and committing a window.** -/
theorem wpc_sendAndCommit (hcall : call.Started) (hexits : ReplayExits mayFail call E)
    {Q : Bool → ReplayLocal → ReplayView → Prop} {done : List ReplayMove}
    {batch : List ReplayEntryDeliveries} (hne : batch ≠ []) (hsends : call.Sends done batch)
    (hsendable : call.Sendable done) (hdone : movesEntries done = saved ++ unsaved)
    (hstate : rc.env.state = (call.after done).env.state) (h : call.At saved unsaved rc v)
    (hQ : ∀ saved' unsaved' v',
      (∀ row ∈ (call.sinks done batch).entries, PolicyParses call.context row.1) →
      saved' ++ unsaved' = movesEntries done ++ batch.map ReplayEntryDeliveries.entry →
      call.At saved' unsaved' ((rc.mark batch).flushIfDue call.policy call.view.clock) v' →
      Q true ((rc.mark batch).flushIfDue call.policy call.view.clock).env v') :
    wpc (viewEnv mayFail) (AtSavedMoment call.context call.view call.all) (do
        Cmd.forEach (fun (sinkName, events) => sendSinkWindow call.context sinkName events)
          (sinkEventsByName rc.env.state.checkpoint batch).entries
        commitBatch call.policy (sinkEventsByName rc.env.state.checkpoint batch) batch
        pure true) Q E rc.env v := by
  have hwindow := hsends.window
  have hinitial := hwindow.isPrefix
  rw [hdone] at hinitial hQ
  have hdue := hwindow.dueEvents_sinks_at hcall hdone h
  rw [wpc_bind]
  refine wpc_sendWindow call.context _
    (fun trace sinkName events metadata htrace =>
      ⟨h.isMoment_log hinitial hdue htrace, trivial, trivial⟩)
    (fun hvalid trace htrace => ?_)
    (fun pre row post issue trace hsplit hissue hparses htrace =>
      hexits.policy done batch issue saved unsaved rc pre row post trace v hsends hsendable hdone
        hstate h (by rw [ReplayCall.sinks, ← hstate, hsplit]) hissue hparses htrace)
    fun sinkName lsn error trace events metadata hmay htrace =>
      hexits.send _ _ _ _ _ _ _ hmay (h.isMoment_log hinitial hdue htrace)
  -- every sink has its events: the entries become pending
  have hmarked : call.At saved (unsaved ++ batch.map ReplayEntryDeliveries.entry) (rc.mark batch)
      (v.log trace) := by
    obtain ⟨events, hevents, hdelivered⟩ := h.trace
    refine ⟨h.clock, h.nodeIdFile, h.ticks,
      h.save.markBatch (hwindow.not_covers hcall hdone h.save.checkpoint), h.durable,
      events ++ trace, ?_, ?_⟩
    · rw [ReplayView.log_trace, hevents, List.append_assoc]
    · rw [← List.append_assoc]
      exact hdelivered.window hwindow.wellGrouped hdue htrace
  rw [wpc_bind, commitBatch, wpc_bind, wpc_get, wpc_bind, wpc_set]
  refine wpc_flushIfDue hcall hexits hmarked (by rwa [← List.append_assoc]) (by simp [hne])
    fun saved' unsaved' v' hsplit h' => ?_
  rw [hstate] at hvalid
  exact hQ saved' unsaved' v' hvalid (by rw [hsplit, List.append_assoc]) h'

/-! ### The moves -/

/-- The invariant after some moves. -/
def ReplayCall.Done (call : ReplayCall) (done : List ReplayMove) (t : ReplayLocal)
    (v : ReplayView) : Prop :=
  t = (call.after done).env ∧ call.Sendable done ∧ ∃ saved unsaved,
    movesEntries done = saved ++ unsaved ∧ call.At saved unsaved (call.after done) v

omit [RecordCodec] [CheckpointCodec] in
/-- After a window that was sent the moves are sendable. -/
theorem ReplayCall.Sendable.append_window {done : List ReplayMove}
    {batch : List ReplayEntryDeliveries} (h : call.Sendable done)
    (hvalid : ∀ row ∈ (call.sinks done batch).entries, PolicyParses call.context row.1) :
    call.Sendable (done ++ [.window batch]) := by
  intro pre batch' post hsplit
  rcases List.eq_nil_or_concat post with rfl | ⟨post, last, rfl⟩
  · obtain ⟨rfl, hwindow⟩ := List.append_inj' hsplit rfl
    cases hwindow
    exact hvalid
  · rw [List.concat_eq_append, ← List.cons_append, ← List.append_assoc] at hsplit
    exact h pre batch' post (List.append_inj' hsplit rfl).1

omit [RecordCodec] [CheckpointCodec] in
/-- An entry that is set aside is no window. -/
theorem ReplayCall.Sendable.append_quarantine {done : List ReplayMove} (h : call.Sendable done)
    (entry : WalEntry) (issue : ReplayIssue) :
    call.Sendable (done ++ [.quarantine entry issue]) := by
  intro pre batch' post hsplit
  rcases List.eq_nil_or_concat post with rfl | ⟨post, last, rfl⟩
  · obtain ⟨-, hwindow⟩ := List.append_inj' hsplit rfl
    cases hwindow
  · rw [List.concat_eq_append, ← List.cons_append, ← List.append_assoc] at hsplit
    exact h pre batch' post (List.append_inj' hsplit rfl).1

/-- **One move**: a window is sent and committed, an entry at fault is set aside. -/
theorem wpc_runMove (hcall : call.Started) (hexits : ReplayExits mayFail call E)
    {done post : List ReplayMove} {move : ReplayMove} (hmoves : call.plan.moves = done ++ move :: post)
    {t : ReplayLocal} (h : call.Done done t v) :
    wpc (viewEnv mayFail) (AtSavedMoment call.context call.view call.all)
      (runMove call.context call.policy move) (fun _ => call.Done (done ++ [move])) E t v := by
  obtain ⟨rfl, hsendable, saved, unsaved, hdone, hat⟩ := h
  have hafter : call.after (done ++ [move]) =
      (call.after done).move call.policy call.view.clock move :=
    ReplayClock.after_append_singleton ..
  have hentries : movesEntries (done ++ [move]) = movesEntries done ++ move.entries := by simp
  cases move with
  | window batch =>
    have hsends : call.Sends done batch := Or.inl ⟨post, hmoves⟩
    rw [runMove, wpc_bind, replayBatchToSinks, wpc_ite]
    refine ⟨fun hempty => ?_, fun hne => ?_⟩
    · subst hempty
      refine ⟨by rw [hafter]; rfl, hsendable.append_window ?_, saved, unsaved, ?_, ?_⟩
      · intro row hrow
        cases hrow
      · rw [hentries, hdone]
        exact List.append_nil _
      · rw [hafter]
        exact hat
    · rw [wpc_bind, wpc_get, wpc_bind, wpc_pure, if_neg (by simp)]
      refine wpc_sendAndCommit hcall hexits hne hsends hsendable hdone rfl hat
        fun saved' unsaved' v' hvalid hsplit h' => ?_
      have hmove : (call.after done).move call.policy call.view.clock (.window batch) =
          ((call.after done).mark batch).flushIfDue call.policy call.view.clock := if_neg hne
      refine ⟨by rw [hafter, hmove], hsendable.append_window hvalid, saved', unsaved', ?_, ?_⟩
      · rw [hentries, hsplit]
        rfl
      · rw [hafter, hmove]
        exact h'
  | quarantine entry issue =>
    have hall : movesEntries done ++ [entry] <+: call.all := by
      rw [← call.entries_plan, ReplayPlan.entries, hmoves, movesEntries_append, movesEntries_cons]
      simp only [ReplayMove.entries, List.append_assoc]
      rw [← List.append_assoc]
      exact List.prefix_append _ _
    have hsound := (planEntries_sound call.context (replayWindowPolicy call.context.replay)
      call.entries ⟨call.start.map fun position => position.lsn + 1, [], 0⟩
      (by simp [WellGrouped])).1 (.quarantine entry issue)
      (by
        show _ ∈ call.plan.moves
        rw [hmoves]
        exact List.mem_append_right _ List.mem_cons_self)
    rw [runMove, quarantineReplayIssue, wpc_bind, wpc_perform]
    refine ⟨⟨hat.isMoment ?_, trivial, trivial⟩, ?_⟩
    · rw [← hdone]
      exact (List.prefix_append _ _).trans hall
    · rintro r v' rfl
      rw [wpc_modify]
      obtain ⟨events, hevents, hdelivered⟩ := hat.trace
      refine ⟨by rw [hafter]; rfl, hsendable.append_quarantine entry issue, saved,
        unsaved ++ [entry], ?_, ?_⟩
      · rw [hentries, hdone, List.append_assoc]
        rfl
      · rw [hafter]
        refine ⟨hat.clock, hat.nodeIdFile, hat.ticks, hat.save.mark entry, hat.durable,
          events ++ [.quarantined entry issue], ?_, ?_⟩
        · rw [ReplayView.log_trace, hevents, List.append_assoc]
        · rw [← List.append_assoc]
          exact hdelivered.quarantine hsound

/-- **All moves.** -/
theorem wpc_moves (hcall : call.Started) (hexits : ReplayExits mayFail call E) {t : ReplayLocal}
    (h : call.Done [] t v) :
    wpc (viewEnv mayFail) (AtSavedMoment call.context call.view call.all)
      (Cmd.forEach (runMove call.context call.policy) call.plan.moves)
      (fun _ => call.Done call.plan.moves) E t v :=
  wpc_forEach call.Done call.plan.moves
    (fun _ _ _ _ _ hmoves h => wpc_runMove hcall hexits hmoves h) h

/-! ### The end of the call -/

/-- **The window left over is deferred**: these sinks wait, and the waiting times change like this. -/
structure ReplayCall.DefersWith (call : ReplayCall) (loop : ReplayLoop) (sinks : List String)
    (pending pending' : PendingSince) : Prop where
  ending : call.plan.ending = .trailing loop
  runtime : (call.after call.plan.moves).env.runtime = some pending
  loop : sinksDeferredLoop call.context (call.view.clock (call.after call.plan.moves).ticks)
    (call.sinks call.plan.moves loop.replayBatch).entries [] pending = (.ok sinks, pending')
  sinks : sinks ≠ []

omit [RecordCodec] [CheckpointCodec] in
theorem ReplayCall.DefersWith.deferral {loop : ReplayLoop} {sinks : List String}
    {pending pending' : PendingSince} (h : call.DefersWith loop sinks pending pending') :
    call.deferral loop = .ok sinks := by
  rw [ReplayCall.deferral, h.runtime]
  simp only [h.loop]

omit [RecordCodec] [CheckpointCodec] in
theorem ReplayCall.DefersWith.defers {loop : ReplayLoop} {sinks : List String}
    {pending pending' : PendingSince} (h : call.DefersWith loop sinks pending pending') :
    call.Defers :=
  ⟨loop, sinks, h.ending, h.deferral, h.sinks⟩

/-- The window left over: it is deferred, or sent and committed. -/
theorem wpc_trailing (hcall : call.Started) (hexits : ReplayExits mayFail call E)
    {Q : Bool → ReplayLocal → ReplayView → Prop} {loop : ReplayLoop}
    (hending : call.plan.ending = .trailing loop) {t : ReplayLocal}
    (h : call.Done call.plan.moves t v)
    (hsent : ∀ saved unsaved rc v', saved ++ unsaved = call.all → call.At saved unsaved rc v' →
      Q true rc.env v')
    (hdeferred : ∀ sinks pending pending', call.DefersWith loop sinks pending pending' →
      call.Sendable call.plan.moves → ∀ saved unsaved v',
      movesEntries call.plan.moves = saved ++ unsaved →
      call.At saved unsaved ((call.after call.plan.moves).waiting pending') v' →
      Q false ((call.after call.plan.moves).waiting pending').env v') :
    wpc (viewEnv mayFail) (AtSavedMoment call.context call.view call.all)
      (replayBatchToSinks call.context call.policy loop.replayBatch .allowDefer) Q E t v := by
  obtain ⟨rfl, hsendable, saved, unsaved, hdone, hat⟩ := h
  have hall : movesEntries call.plan.moves ++ loop.replayBatch.map ReplayEntryDeliveries.entry =
      call.all := by
    rw [← call.entries_plan, ReplayPlan.entries, hending]
    rfl
  -- sending, from any state with the checkpoint state of the moves
  have hsend : loop.replayBatch ≠ [] → call.deferral loop = .ok [] →
      ∀ (rc : ReplayClock) (v : ReplayView),
      rc.env.state = (call.after call.plan.moves).env.state → call.At saved unsaved rc v →
      wpc (viewEnv mayFail) (AtSavedMoment call.context call.view call.all) (do
        Cmd.forEach (fun (sinkName, events) => sendSinkWindow call.context sinkName events)
          (sinkEventsByName rc.env.state.checkpoint loop.replayBatch).entries
        commitBatch call.policy (sinkEventsByName rc.env.state.checkpoint loop.replayBatch)
          loop.replayBatch
        pure true) Q E rc.env v :=
    fun hne hnow rc v hstate hat => wpc_sendAndCommit hcall hexits hne
      (Or.inr ⟨rfl, loop, hending, rfl, hnow⟩) hsendable hdone hstate hat
      fun saved' unsaved' v' _ hsplit h' => hsent _ _ _ _ (hsplit.trans hall) h'
  rw [replayBatchToSinks, wpc_ite]
  refine ⟨fun hempty => ?_, fun hne => ?_⟩
  · refine hsent saved unsaved _ _ ?_ hat
    rw [← hdone, ← hall, hempty]
    exact (List.append_nil _).symm
  · rw [wpc_bind, wpc_get, wpc_bind, sinksDeferredByBatchTimeout, wpc_bind, wpc_get, wpc_ite]
    refine ⟨fun hempty => hsend hne ?_ _ _ rfl hat, fun _ => ?_⟩
    · rw [ReplayCall.deferral, ReplayCall.sinks, hempty]
      split <;> rfl
    cases hruntime : (call.after call.plan.moves).env.runtime with
    | none => exact hsend hne (by rw [ReplayCall.deferral, hruntime]) _ _ rfl hat
    | some pending =>
      simp only [wpc_bind, wpc_perform]
      refine ⟨⟨hat.isMoment ?_, trivial, trivial⟩, ?_⟩
      · rw [← hdone, ← hall]
        exact List.prefix_append _ _
      · rintro now v' ⟨rfl, rfl⟩
        rw [hat.clock, hat.ticks]
        -- the clock was read once more, and the waiting times may have changed
        have hlater : ∀ pending', call.At saved unsaved
            ((call.after call.plan.moves).waiting pending') v.tick := fun pending' =>
          ⟨hat.clock, hat.nodeIdFile, congrArg (· + 1) hat.ticks, hat.save, hat.durable, hat.trace⟩
        cases hloop : sinksDeferredLoop call.context
            (call.view.clock (call.after call.plan.moves).ticks)
            (call.sinks call.plan.moves loop.replayBatch).entries [] pending with
        | mk deferred pending' =>
        have hdeferral : call.deferral loop = deferred := by
          rw [ReplayCall.deferral, hruntime]
          simp only [hloop]
        simp only [ReplayCall.sinks] at hloop
        simp only [hloop, wpc_set]
        cases deferred with
        | error issue =>
          exact hexits.defer issue saved unsaved ((call.after call.plan.moves).waiting pending')
            _ loop hending hdeferral hsendable hdone rfl (hlater pending')
        | ok sinks =>
          simp only [Result.mapError_ok, wpc_ofExcept_ok]
          rw [wpc_ite]
          refine ⟨fun hsinks => ?_, fun hnone =>
            hsend hne ?_ ((call.after call.plan.moves).waiting pending') _ rfl (hlater pending')⟩
          · exact hdeferred sinks pending pending' ⟨hending, hruntime, hloop, hsinks⟩ hsendable saved
              unsaved _ hdone (hlater pending')
          · rw [hdeferral, not_not.mp hnone]

/-- **The part of `replay_once_inner` after the entries are read**, with the runtime state where it
ends with a deferral. -/
theorem wpc_replayFrom_exact (hcall : call.Started) (hexits : ReplayExits mayFail call E)
    {Q : Nat → ReplayLocal → ReplayView → Prop}
    (hdone : ∀ n rc v, call.At call.all [] rc v → Q n rc.env v)
    (hdeferred : ∀ loop sinks pending pending', call.DefersWith loop sinks pending pending' →
      call.Sendable call.plan.moves → ∀ saved unsaved v,
      movesEntries call.plan.moves = saved ++ unsaved →
      call.At saved unsaved ((call.after call.plan.moves).waiting pending') v →
      Q 0 ((call.after call.plan.moves).waiting pending').env v) :
    wpc (viewEnv mayFail) (AtSavedMoment call.context call.view call.all)
      (replayFrom call.context call.policy call.start call.entries) Q E call.clock.env
      call.view := by
  obtain ⟨now, hnow⟩ := hcall.state
  have hstart : call.Done [] call.clock.env call.view := by
    refine ⟨rfl, ?_, [], [], rfl, rfl, rfl, hcall.ticks, ?_, rfl, [], ?_, Delivered.nil⟩
    · intro pre batch post hsplit
      simp at hsplit
    · show SavedUpTo call.start [] [] call.clock.env.state
      rw [hnow]
      exact ⟨rfl, rfl, rfl⟩
    · rw [List.append_nil]
  rw [replayFrom, wpc_bind, replayEntries_eq, wpc_bind]
  refine wpc_imp (wpc_moves hcall hexits hstart) (fun _ t v h => ?_) fun _ _ _ h => h
  show wpc _ _ call.plan.ending.finish _ E t v
  cases hending : call.plan.ending with
  | stop issue =>
    obtain ⟨rfl, hsendable, saved, unsaved, hmoves, hat⟩ := h
    refine hexits.stop issue saved unsaved _ v hending ?_ hsendable rfl hat
    rw [← hmoves, ← call.entries_plan, ReplayPlan.entries, hending]
    exact List.append_nil _
  | trailing loop =>
    rw [ReplayEnding.finish, wpc_pure, wpc_bind]
    refine wpc_trailing hcall hexits hending h (fun saved unsaved rc v hall hat => ?_)
      fun sinks pending pending' hdefers hsendable saved unsaved v hmoves hat => ?_
    · have hle : saved ++ unsaved <+: call.all := hall ▸ List.prefix_rfl
      rw [if_pos rfl, wpc_bind, orIssue, wpc_mapError]
      refine wpc_flush hat hle (hcall.uncovered.ofPrefix (contiguousEntries_isPrefix _ _))
        (fun v' h' => ?_) fun error v' hmay hmoment => hexits.write _ _ _ hmay hmoment
      rw [wpc_bind, orIssue, wpc_mapError]
      refine wpc_cleanup h' hle (hcall.uncovered.ofPrefix (contiguousEntries_isPrefix _ _))
        (fun hne => hall ▸ hne) hcall.start ?_ fun error => hexits.cleanup _ _ _ _ hle h'
      rw [wpc_pure]
      exact hdone _ _ _ (hall ▸ h')
    · rw [if_neg Bool.false_ne_true, wpc_pure]
      exact hdeferred loop sinks pending pending' hdefers hsendable saved unsaved v hmoves hat

/-- **The part of `replay_once_inner` after the entries are read.** -/
theorem wpc_replayFrom (hcall : call.Started) (hexits : ReplayExits mayFail call E)
    {Q : Nat → ReplayLocal → ReplayView → Prop}
    (hdone : ∀ n rc v, call.At call.all [] rc v → Q n rc.env v)
    (hdeferred : call.Defers → call.Sendable call.plan.moves → ∀ saved unsaved rc v,
      movesEntries call.plan.moves = saved ++ unsaved →
      rc.env.state = (call.after call.plan.moves).env.state → call.At saved unsaved rc v →
      Q 0 rc.env v) :
    wpc (viewEnv mayFail) (AtMoment call.context call.view call.all)
      (replayFrom call.context call.policy call.start call.entries) Q E call.clock.env
      call.view := by
  refine wpc_mono (wpc_replayFrom_exact hcall hexits hdone
    fun loop sinks pending pending' hdefers hsendable saved unsaved v hmoves hat =>
      hdeferred hdefers.defers hsendable saved unsaved _ v hmoves rfl hat)
    (fun o v h => ⟨h.1, h.2.1⟩) (fun _ _ _ h => h) fun _ _ _ h => h

end Run

end Ingest4x.Wal
