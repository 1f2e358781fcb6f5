import Ingest4x.Lifecycle.System

/-! # The invariant of a history

Every step of a history keeps the invariant, and the whole log only grows.

* **`Replaying.doneIn`**, **`Replaying.keepsTo`** — what the running replay call has done so far.
* **`Served.doneIn`**, **`Served.keepsTo_replays`** — the same for all calls of the history.
* **`SystemStep.served`** — one step, with `History.served` for a whole history. -/

namespace Ingest4x.Wal

open Effect

/-! ### A longer log -/

section Longer

variable {entries entries' : List WalEntry} {entry : WalEntry}

/-- A checkpoint at the end of an entry covers nothing that is appended later. -/
theorem Ordered.mem_of_covered_at {durable : Option WalPosition} (h : Ordered none entries')
    (hle : entries <+: entries')
    (hat : ∀ position, durable = some position → ∃ e ∈ entries, e.nextPosition = position)
    (hmem : entry ∈ entries') (hcovered : Covered durable entry) : entry ∈ entries := by
  cases hdurable : durable with
  | none =>
    rw [hdurable] at hcovered
    exact absurd hcovered (not_covered_none entry)
  | some position =>
    obtain ⟨e, he, rfl⟩ := hat position hdurable
    obtain ⟨pre, post, rfl⟩ := List.append_of_mem he
    obtain ⟨more, rfl⟩ := hle
    rcases List.mem_append.mp hmem with hmem | hmem
    · exact hmem
    · -- what is appended lies behind the entry
      rw [hdurable] at hcovered
      rw [List.append_assoc, List.cons_append] at h
      have hbehind := (Ordered.append_iff.mp h).2.2.2.2
      exact absurd hcovered (hbehind.not_covered (List.mem_append_right _ hmem))

section Replays

variable [JsonCodec]

theorem DoneIn.mono {replays replays' : List ReplayRecord} (h : DoneIn replays entries entry)
    (hreplays : replays <+: replays') (hentries : entries <+: entries') :
    DoneIn replays' entries' entry := by
  obtain ⟨replay, hreplay, before, hbefore, hdone⟩ := h
  exact ⟨replay, hreplays.subset hreplay, before, hbefore.trans hentries.isInfix, hdone⟩

theorem KeepsTo.mono {replay : ReplayRecord} (h : KeepsTo entries replay)
    (hentries : entries <+: entries') : KeepsTo entries' replay := by
  obtain ⟨read, hread, hsent⟩ := h.sent
  refine ⟨⟨read, hread.trans hentries.isInfix, hsent⟩, fun entry hentry => ?_⟩
  obtain ⟨hmem, hnone⟩ := h.quarantined entry hentry
  exact ⟨hentries.subset hmem, hnone⟩

end Replays

/-- The checkpoint of a log covers nothing that is appended later. -/
theorem WholeLog.mem_of_covered [RecordCodec] [CheckpointCodec] {dir dir' : WalDir} {log log' : List LogSegment}
    (h : WholeLog dir log) (h' : WholeLog dir' log') (hle : logEntries log <+: logEntries log')
    (hmem : entry ∈ logEntries log') (hcovered : Covered (durableCheckpoint dir) entry) :
    entry ∈ logEntries log :=
  h'.ordered.mem_of_covered_at hle (fun _ hposition => h.checkpoint.exists_entry hposition) hmem
    hcovered

end Longer

/-! ### The running call -/

/-- An operation of the replay leaves the whole log. -/
theorem step_logged [RecordCodec] {mayFail : SysOp → Prop} {α : Type} {p p' : Prog SysOp SysResp α} {w w' : World} (log : List LogSegment)
    (h : Step (sysEnv mayFail) (p, w) (p', w')) :
    Step (loggedEnv mayFail) (p, ⟨w, log⟩) (p', ⟨w', log⟩) := by
  cases h with
  | op he => exact .op ⟨he, rfl⟩

section Replaying

variable [RecordCodec] [CheckpointCodec] [JsonCodec] {mayFail : SysOp → Prop} {run : RunningReplay} {ended : List ReplayRecord}
  {s₀ s s' : LoggedWorld}

theorem Replaying.moment (h : Replaying mayFail run ended s₀ s) : ReplayMoment run.context s₀ s :=
  wp_invariant (I := ReplayMoment run.context s₀) (fun _ _ h => h.2) (fun _ _ h => h) h.rest
    Relation.ReflTransGen.refl

/-- What the running call has done so far. -/
theorem Replaying.exists_done (h : Replaying mayFail run ended s₀ s) :
    ReplayDone run.context s₀ s (run.record s.world).events := by
  obtain ⟨events, hdone⟩ := h.moment.exists_done
  have hevents : (run.record s.world).events = events := by
    show (s.world.trace.filter Event.isReplay).drop run.since = events
    rw [hdone.trace, h.since, List.drop_left]
  rw [hevents]
  exact hdone

/-- What is covered while a call runs is done with. -/
theorem Replaying.doneIn (h : Replaying mayFail run ended s₀ s) {entry : WalEntry}
    (hentry : entry ∈ s.entries) (hcovered : Covered s.durable entry) :
    DoneIn (ended ++ [run.record s.world]) s.entries entry := by
  by_cases hold : Covered s₀.durable entry
  · have hmem := h.whole.mem_of_covered h.moment.whole h.moment.entries hentry hold
    exact (h.started entry hmem hold).mono (List.prefix_append _ _) h.moment.entries
  · obtain ⟨before, hbefore, hdone⟩ := h.exists_done.covered entry hentry hcovered hold
    refine ⟨run.record s.world, List.mem_append_right _ (List.mem_singleton.mpr rfl), before, ?_, hdone⟩
    obtain ⟨front, hfront⟩ :=
      exists_append_entriesBehind s₀.durable h.moment.whole.ordered.pairwise_place
    exact hbefore.isInfix.trans ⟨front, [], by rw [List.append_nil]; exact hfront.symm⟩

/-- The running call keeps to the log. -/
theorem Replaying.keepsTo (h : Replaying mayFail run ended s₀ s) :
    KeepsTo s.entries (run.record s.world) := by
  obtain ⟨front, hfront⟩ :=
    exists_append_entriesBehind s₀.durable h.moment.whole.ordered.pairwise_place
  exact ⟨⟨entriesBehind s₀.durable s.entries, ⟨front, [], by rw [List.append_nil]; exact hfront.symm⟩,
    h.exists_done.sent⟩, h.exists_done.quarantined⟩

/-- **Calls of the writer** leave the running call. -/
theorem Replaying.moved (h : Replaying mayFail run ended s₀ s) (hmoved : WriterMoved s s') :
    Replaying mayFail run ended s₀ s' := by
  refine ⟨h.since, h.whole, h.started, wp_rely ?_ ?_ ?_ h.rest hmoved⟩
  · exact fun _ _ _ h h' => h.trans h'
  · rintro o s s' ⟨hguard, hmoment⟩ hmoved
    exact ⟨hmoved.replayView ▸ hguard, hmoment.moved hmoved⟩
  · exact fun _ _ _ hmoment hmoved => hmoment.moved hmoved

/-- **An operation of the running call.** -/
theorem Replaying.step {program : Prog SysOp SysResp (Except ReplayError Nat × ReplayLocal)}
    {w : World} (h : Replaying mayFail run ended s₀ s)
    (hstep : Step (sysEnv mayFail) (run.program, s.world) (program, w)) :
    Replaying mayFail { run with program := program } ended s₀ ⟨w, s.log⟩ := by
  exact ⟨h.since, h.whole, h.started,
    wp_among_step WriterMoved.refl h.rest (step_logged s.log hstep)⟩

end Replaying

/-! ### All calls of a history -/

section Serving

variable [RecordCodec] [CheckpointCodec] [JsonCodec] {mayFail : SysOp → Prop} {s : System}
  {log log' : List LogSegment}

/-- **What the checkpoint covers is done with** in some call of the history. -/
theorem Served.doneIn (h : Served mayFail s log) {entry : WalEntry} (hentry : entry ∈ logEntries log)
    (hcovered : Covered (durableCheckpoint s.world.dir) entry) :
    DoneIn s.replays (logEntries log) entry := by
  cases hreplay : s.replay with
  | none =>
    rw [System.replays, hreplay]
    exact (h.covered hreplay entry hentry hcovered).mono (List.prefix_append _ _) List.prefix_rfl
  | some run =>
    obtain ⟨s₀, hrunning⟩ := h.replay run hreplay
    rw [System.replays, hreplay]
    exact hrunning.doneIn hentry hcovered

/-- **Every call of the history keeps to the log.** -/
theorem Served.keepsTo_replays (h : Served mayFail s log) :
    ∀ replay ∈ s.replays, KeepsTo (logEntries log) replay := by
  intro replay hreplay
  rcases List.mem_append.mp hreplay with hended | hrunning
  · exact h.keepsTo replay hended
  · obtain ⟨run, hrun, rfl⟩ := List.mem_map.mp hrunning
    obtain ⟨s₀, hcall⟩ := h.replay run (Option.mem_toList.mp hrun)
    exact hcall.keepsTo

/-! ### The log of the next state -/

omit [RecordCodec] [CheckpointCodec] [JsonCodec] in
/-- Answers that were given, and those of entries that are new. -/
theorem Answered.append {entries added : List WalEntry} {events events' : List Event}
    (h : Answered entries events) (h' : Answered added events') :
    Answered (entries ++ added) (events ++ events') := by
  intro channel record position hmem
  rcases List.mem_append.mp hmem with hmem | hmem
  · obtain ⟨entry, hentry, hsame⟩ := h channel record position hmem
    exact ⟨entry, List.mem_append_left _ hentry, hsame⟩
  · obtain ⟨entry, hentry, hsame⟩ := h' channel record position hmem
    exact ⟨entry, List.mem_append_right _ hentry, hsame⟩

/-- **A process that is gone** leaves the invariant to the next one: the log is longer by records that
were in the buffer or come from the last call, and the checkpoint is the same. -/
theorem Served.stop (h : Served mayFail s log) {w : World} {appended : List WalRecord}
    {added : List WalEntry} {events : List Event} (hwhole : WholeLog w.dir log')
    (hentries : logEntries log' = logEntries log ++ added)
    (hrecords : (added.map WalEntry.record).Sublist
      ((s.writer.elim [] fun writer => writer.2.records) ++ appended))
    (htrace : w.trace = s.world.trace ++ events) (hanswered : Answered added events)
    (hfile : w.dir.checkpointFile = s.world.dir.checkpointFile) :
    Served mayFail (s.stop w appended) log' := by
  have hle : logEntries log <+: logEntries log' := ⟨added, hentries.symm⟩
  have hdurable : durableCheckpoint w.dir = durableCheckpoint s.world.dir := by
    rw [durableCheckpoint, hfile, durableCheckpoint]
  refine ⟨hwhole, ?_, fun _ => rfl, ?_, ?_, fun _ entry hentry hcovered => ?_, fun replay hreplay => ?_,
    ?_⟩
  · rintro _ _ ⟨⟩
  · show (List.map _ _ ++ []).Sublist (s.appended ++ appended)
    rw [List.append_nil, hentries, List.map_append]
    have hall := h.records.append_right appended
    rw [List.append_assoc] at hall
    exact ((List.Sublist.refl _).append hrecords).trans hall
  · rw [hentries]
    show Answered _ w.trace
    rw [htrace]
    exact h.answered.append hanswered
  · have hcovered : Covered (durableCheckpoint w.dir) entry := hcovered
    rw [hdurable] at hcovered
    exact (h.doneIn (h.whole.mem_of_covered hwhole hle hentry hcovered) hcovered).mono
      List.prefix_rfl hle
  · exact (h.keepsTo_replays replay hreplay).mono hle
  · rintro _ ⟨⟩

/-- **A process that starts**, fails to start, or dies while it starts: the entries are the same. -/
theorem Served.started (h : Served mayFail s log) (hdown : s.writer = none) {w : World}
    {writer : Option (WalWriterInner × WalWriterState)} (hwhole : WholeLog w.dir log')
    (hwriter : ∀ inner t, writer = some (inner, t) → t.buffered = [] ∧
      ∃ older active, log' = older ++ [active] ∧ Running inner t w.dir older active)
    (hentries : logEntries log' = logEntries log) (hsame : Untouched s.world w) :
    Served mayFail { s with world := w, writer := writer } log' := by
  have hreplay := h.up hdown
  have hdurable : durableCheckpoint w.dir = durableCheckpoint s.world.dir := by
    rw [durableCheckpoint, hsame.2, durableCheckpoint]
  refine ⟨hwhole, fun inner t hup => (hwriter inner t hup).2, fun _ => hreplay, ?_, ?_,
    fun _ entry hentry hcovered => ?_, fun replay hended => ?_, fun run hrun => ?_⟩
  · have hbuffer : (writer.elim [] fun writer => writer.2.records) = [] := by
      cases hup : writer with
      | none => rfl
      | some pair =>
        have hnone := (hwriter pair.1 pair.2 hup).1
        show pair.2.records = []
        rw [WalWriterState.records, hnone, List.map_nil]
    have hrecords := h.records
    rw [hdown] at hrecords
    rw [hbuffer, hentries]
    exact hrecords
  · rw [hentries]
    show Answered _ w.trace
    rw [hsame.1]
    exact h.answered
  · have hcovered : Covered (durableCheckpoint w.dir) entry := hcovered
    rw [hdurable] at hcovered
    rw [hentries] at hentry ⊢
    exact h.covered hreplay entry hentry hcovered
  · rw [hentries]
    exact h.keepsTo replay hended
  · have hrun : s.replay = some run := hrun
    rw [hreplay] at hrun
    cases hrun

/-! ### The writer -/

/-- **A call of the writer** that ends. -/
theorem Served.called (h : Served mayFail s log) {call : WriterCall} {inner : WalWriterInner}
    {t t' : WalWriterState} {w : World} {older' : List LogSegment} {active' : LogSegment}
    {added : List WalEntry} {events : List Event} (hup : s.writer = some (inner, t))
    (hcalled : Called call inner t s.world log t' w older' active' added events) :
    Served mayFail
      { s with world := w, writer := some (inner, t'), appended := s.appended ++ call.appended inner t }
      (older' ++ [active']) := by
  have hmoved := hcalled.moved
  have hle : logEntries log <+: logEntries (older' ++ [active']) := hmoved.entries
  have hdurable : durableCheckpoint w.dir = durableCheckpoint s.world.dir := hmoved.durable
  refine ⟨hcalled.running.whole, ?_, ?_, ?_, ?_, fun hnone entry hentry hcovered => ?_,
    fun replay hended => (h.keepsTo replay hended).mono hle, fun run hrun => ?_⟩
  · rintro _ _ ⟨⟩
    exact ⟨older', active', rfl, hcalled.running⟩
  · rintro ⟨⟩
  · have hall := h.records
    rw [hup] at hall
    have hall := hall.append_right (call.appended inner t)
    rw [List.append_assoc] at hall
    show (List.map _ _ ++ t'.records).Sublist _
    rw [hcalled.entries, List.map_append, List.append_assoc]
    exact ((List.Sublist.refl _).append hcalled.records).trans hall
  · rw [hcalled.entries]
    show Answered _ w.trace
    rw [hcalled.trace]
    exact h.answered.append hcalled.answered
  · have hcovered : Covered (durableCheckpoint w.dir) entry := hcovered
    rw [hdurable] at hcovered
    have hmem := h.whole.mem_of_covered hcalled.running.whole hle hentry hcovered
    exact (h.covered hnone entry hmem hcovered).mono List.prefix_rfl hle
  · obtain ⟨s₀, hrunning⟩ := h.replay run hrun
    exact ⟨s₀, hrunning.moved hmoved⟩

/-- **The machine goes down**, at rest or in a call. -/
theorem Served.dies (hmay : ∀ o, mayFail o → ¬RollbackOp o) (h : Served mayFail s log)
    {call : WriterCall} {inner : WalWriterInner} {t : WalWriterState} (hup : s.writer = some (inner, t))
    {c : Prog SysOp SysResp (Except IoError Unit × WalWriterState) × World} {w : World}
    (hreach : Reaches (sysEnv mayFail) ((call.run inner).start t, s.world) c)
    (hsingle : ∀ id ∈ c.2.dir.segments.keys, id ≤ t.segmentId) (hcrash : Crashed c.2 w) :
    ∃ log', Served mayFail (s.stop w (call.appended inner t)) log' ∧
      logEntries log <+: logEntries log' := by
  obtain ⟨older, active, rfl, hrunning⟩ := h.writer inner t hup
  have hrest := wp_reaches (hrunning.wpc_call hmay call) hreach
  rw [hrunning.rest.segmentId] at hsingle
  obtain ⟨p, w₁⟩ := c
  -- at its end the call has done what it says, before it is at work on a flush
  obtain ⟨log', added, hwhole, hentries, hrecords, events, htrace, hanswered, hfile⟩ :
      ∃ log' added, WholeLog w.dir log' ∧ logEntries log' = logEntries (older ++ [active]) ++ added ∧
        (added.map WalEntry.record).Sublist (t.records ++ call.appended inner t) ∧
        ∃ events, w.trace = s.world.trace ++ events ∧ Answered added events ∧
          w.dir.checkpointFile = s.world.dir.checkpointFile := by
    cases p with
    | pure result =>
      have hend : CallEnd call inner t s.world older active result.2 w₁ := by
        obtain ⟨_ | _, t'⟩ := result <;> exact hrest
      obtain ⟨older', active', added, events, hcalled⟩ := hend
      exact ⟨_, added, hcalled.running.whole.crashed hcrash, hcalled.entries,
        (List.sublist_append_left _ _).trans hcalled.records, events,
        hcrash.trace.trans hcalled.trace, hcalled.answered,
        hcrash.checkpointFile.trans hcalled.moved.checkpointFile⟩
    | op o k =>
      obtain ⟨t₁, hrunning₁, hworking, hbuffer⟩ := hrest.1
      obtain ⟨log', added, hwhole, hentries, hpre, events, htrace, hanswered⟩ :=
        hworking.crashed hrunning₁ hsingle hcrash
      exact ⟨log', added, hwhole, hentries, hpre.sublist.trans hbuffer, events, htrace, hanswered,
        hcrash.checkpointFile.trans hworking.checkpointFile⟩
  refine ⟨log', h.stop hwhole hentries ?_ htrace hanswered hfile, added, hentries.symm⟩
  rw [hup]
  exact hrecords

/-! ### The replay -/

omit [JsonCodec] in
/-- The writer rests on the same log in another directory. -/
theorem Running.of_whole {inner : WalWriterInner} {t : WalWriterState} {dir dir' : WalDir}
    {older : List LogSegment} {active : LogSegment} (h : Running inner t dir older active)
    (hwhole : WholeLog dir' (older ++ [active])) : Running inner t dir' older active :=
  ⟨hwhole, ⟨WholeLog.stored_table dir' hwhole.ids, h.rest.log.lsns, h.rest.log.le, h.rest.log.torn⟩,
    h.rest.nodeId, h.rest.torn, h.rest.segmentId, h.rest.offset, h.rest.start, h.rest.nextLsn,
    h.rest.bound, h.rest.buffered⟩

/-- **An operation of the replay.** -/
theorem Served.replayStep (h : Served mayFail s log) {run : RunningReplay}
    {program : Prog SysOp SysResp (Except ReplayError Nat × ReplayLocal)} {w : World}
    (hrun : s.replay = some run) (hstep : Step (sysEnv mayFail) (run.program, s.world) (program, w)) :
    Served mayFail { s with world := w, replay := some { run with program := program } } log := by
  obtain ⟨s₀, hrunning⟩ := h.replay run hrun
  have hnext := hrunning.step hstep
  have hwhole : WholeLog w.dir log := hnext.moment.whole
  obtain ⟨events, htrace, hevents⟩ : ∃ events, w.trace = s.world.trace ++ events ∧
      events.filter Event.isReplay = events := by
    have hrest := hrunning.rest
    generalize hc : (run.program, s.world) = c at hstep
    generalize hc' : (program, w) = c' at hstep
    cases hstep with
    | op he =>
      cases hc'
      obtain ⟨hprogram, rfl⟩ := Prod.mk.inj hc
      rw [hprogram] at hrest
      exact (changed_of_guard mayFail hrest.1.1 he).trace
  refine ⟨hwhole, fun inner t hup => ?_, fun hdown => ?_, h.records, ?_, ?_, h.keepsTo, ?_⟩
  · obtain ⟨older, active, rfl, hwriter⟩ := h.writer inner t hup
    exact ⟨older, active, rfl, hwriter.of_whole hwhole⟩
  · have hnone := h.up hdown
    rw [hrun] at hnone
    cases hnone
  · -- the replay answers no append
    intro channel record position hmem
    have hmem : Event.responded channel record (.ok position) ∈ w.trace := hmem
    rw [htrace] at hmem
    rcases List.mem_append.mp hmem with hmem | hmem
    · exact h.answered channel record position hmem
    · rw [← hevents] at hmem
      have hreplay := (List.mem_filter.mp hmem).2
      cases hreplay
  · rintro ⟨⟩
  · rintro _ ⟨⟩
    exact ⟨s₀, hnext⟩

/-- **A replay call that ends.** -/
theorem Served.replayEnds (h : Served mayFail s log) :
    Served mayFail { s with replay := none, ended := s.replays } log := by
  refine ⟨h.whole, h.writer, fun _ => rfl, h.records, h.answered, fun _ entry hentry hcovered => ?_,
    h.keepsTo_replays, ?_⟩
  · exact h.doneIn hentry hcovered
  · rintro _ ⟨⟩

/-- **A replay call that begins.** -/
theorem Served.replayStarts [DurationCodec] (h : Served mayFail s log) {context : WalReplayContext}
    {t : ReplayLocal} (hup : s.writer ≠ none) (hidle : s.replay = none)
    (hreset : pipelineAutoOffsetReset context.eventSinks = .earliest) :
    Served mayFail { s with replay := some ⟨context, (replayOnceInner context).start t,
      (s.world.trace.filter Event.isReplay).length⟩ } log := by
  refine ⟨h.whole, h.writer, fun hdown => absurd hdown hup, h.records, h.answered, ?_, h.keepsTo, ?_⟩
  · rintro ⟨⟩
  · rintro _ ⟨⟩
    refine ⟨⟨s.world, log⟩, rfl, h.whole, h.covered hidle, ?_⟩
    refine wp_imp (wpc_replayOnceInner_concurrent hreset h.whole t) ?_
    rintro ⟨_ | _, _⟩ s' hmoment <;> exact hmoment

/-! ### Steps and histories -/

/-- **Every step keeps the invariant**, and the log only grows. -/
theorem SystemStep.served [DurationCodec] (hmay : ∀ o, mayFail o → ¬RollbackOp o) {s' : System}
    (h : Served mayFail s log) (hstep : SystemStep mayFail s s') :
    ∃ log', Served mayFail s' log' ∧ logEntries log <+: logEntries log' := by
  cases hstep with
  | start hdown hstart =>
    obtain ⟨older, active, hrunning, hentries, hbuffered, hsame⟩ := wp_runs h.whole.wpc_new hstart
    refine ⟨older ++ [active], h.started hdown hrunning.whole ?_ hentries hsame,
      hentries ▸ List.prefix_rfl⟩
    rintro _ _ ⟨⟩
    exact ⟨hbuffered, older, active, rfl, hrunning⟩
  | startFails hdown hstart =>
    obtain ⟨⟨log', hwhole, hentries⟩, hsame⟩ := wp_runs h.whole.wpc_new hstart
    have hserved : Served mayFail { s with world := _ } log' := h.started hdown hwhole (by
      intro inner t hup
      rw [hdown] at hup
      cases hup) hentries hsame
    exact ⟨log', hserved, hentries ▸ List.prefix_rfl⟩
  | startDies hdown hreach hcrash =>
    obtain ⟨⟨log', hwhole, hentries⟩, hsame⟩ := wp_invariant
      (I := Kept s.world (logEntries log)) (fun _ _ h => h) (by
        rintro ⟨_ | _, _⟩ w' hexit
        · exact hexit
        · obtain ⟨older, active, hrunning, hentries, -, hsame⟩ := hexit
          exact ⟨⟨_, hrunning.whole, hentries⟩, hsame⟩) h.whole.wpc_new hreach
    have hserved : Served mayFail { s with world := _ } log' := h.started hdown (hwhole.crashed hcrash) (by
      intro inner t hup
      rw [hdown] at hup
      cases hup) hentries (hsame.trans ⟨hcrash.trace, hcrash.checkpointFile⟩)
    exact ⟨log', hserved, hentries ▸ List.prefix_rfl⟩
  | @call inner t t' call result w hup hrun =>
    obtain ⟨older, active, rfl, hrunning⟩ := h.writer inner t hup
    have hend : CallEnd call inner t s.world older active t' w := by
      have hspec := wp_runs (hrunning.wpc_call hmay call) hrun
      cases result <;> exact hspec
    obtain ⟨older', active', added, events, hcalled⟩ := hend
    exact ⟨_, h.called hup hcalled, hcalled.moved.entries⟩
  | dies hup hreach hsingle hcrash => exact h.dies hmay hup hreach hsingle hcrash
  | replayStarts hup hidle hreset =>
    exact ⟨log, h.replayStarts hup hidle hreset, List.prefix_rfl⟩
  | replayStep hrun hstep => exact ⟨log, h.replayStep hrun hstep, List.prefix_rfl⟩
  | replayEnds hrun hend => exact ⟨log, h.replayEnds, List.prefix_rfl⟩

/-- **Every history keeps the invariant**, and the log only grows. -/
theorem History.served [DurationCodec] (hmay : ∀ o, mayFail o → ¬RollbackOp o) {s' : System}
    (h : Served mayFail s log) (hhistory : History mayFail s s') :
    ∃ log', Served mayFail s' log' ∧ logEntries log <+: logEntries log' := by
  induction hhistory with
  | refl => exact ⟨log, h, List.prefix_rfl⟩
  | tail _ hstep ih =>
    obtain ⟨log₁, h₁, hle⟩ := ih
    obtain ⟨log₂, h₂, hle'⟩ := hstep.served hmay h₁
    exact ⟨log₂, h₂, hle.trans hle'⟩

/-- Before the first start the log is empty. -/
theorem System.Fresh.served (hfresh : s.Fresh) : Served mayFail s [] := by
  have hwhole : WholeLog s.world.dir [] := by
    refine ⟨List.Pairwise.nil, rfl, ?_, ⟨fun _ => true, ?_, ?_⟩, ?_, Or.inl hfresh.checkpointFile⟩
    · intro front segment behind hsplit
      have hlen := congrArg List.length hsplit
      simp at hlen
    · rw [Stored, hfresh.segments]
      rfl
    · rintro _ ⟨⟩
    · rintro _ ⟨⟩
  refine ⟨hwhole, ?_, fun _ => hfresh.replay, ?_, ?_, ?_, ?_, ?_⟩
  · intro inner t hup
    rw [hfresh.writer] at hup
    cases hup
  · rw [hfresh.writer]
    exact List.nil_sublist _
  · rw [hfresh.trace]
    exact answered_nil _
  · rintro _ _ ⟨⟩
  · rw [hfresh.ended]
    rintro _ ⟨⟩
  · intro run hrun
    rw [hfresh.replay] at hrun
    cases hrun

end Serving

end Ingest4x.Wal
