import Ingest4x.Replay.Once
import Ingest4x.Wal.Answer

/-! # The checkpoint is safe

At every moment of a replay call, whatever fails: the checkpoint on disk covers, beyond the start of
the call, only records that are done with.

* **`DoneWith`** — a record was set aside, or all its deliveries were acknowledged.
* **`CheckpointSafe`** — what the checkpoint, the trace and the segments say at a moment.
* **`replayOnceInner_checkpoint_safe`** — every moment of a call, and every two of them. -/

namespace Ingest4x.Wal

open Effect

section Safety

variable [RecordCodec] [CheckpointCodec] [DurationCodec] [JsonCodec]

/-- **Done with a record**: it was set aside, or every sink has acknowledged the deliveries of the
records before it and its own, in order. -/
def DoneWith (context : WalReplayContext) (events : List Event) (before : List WalEntry)
    (entry : WalEntry) : Prop :=
  match recordDeliveries context entry.record with
  | none => entry ∈ quarantinedEntries events
  | some deliveries => ∀ sink,
    expectedEvents context sink before ++ eventsFor sink deliveries <+: ackedEvents sink events

/-- **A safe moment** of a call that started at `start` in the directory `dir`, with the checkpoint
`durable` on disk and the events so far. -/
structure CheckpointSafe (context : WalReplayContext) (start : Option WalPosition) (dir : WalDir)
    (durable : Option WalPosition) (events : List Event) : Prop where
  /-- What the checkpoint covers beyond the start is done with. -/
  covered : ∀ limit before entry behind,
    readEntriesAfterLimit dir start limit = .ok (before ++ entry :: behind) →
    Covered durable entry → DoneWith context events before entry
  /-- A record set aside has no deliveries. -/
  quarantined : ∀ entry ∈ quarantinedEntries events, recordDeliveries context entry.record = none
  /-- Sinks are only sent the deliveries of the records read, in order, up to the first LSN gap. -/
  sent : ∀ entries, readEntriesAfterLimit dir start (some replayBatchSize) = .ok entries →
    ∀ sink, sentEvents sink events <+: expectedEvents context sink
      (contiguousEntries (start.map fun position => position.lsn + 1) entries)

/-- The safety of a view of a call that started in the world `w`. -/
def SafeView (context : WalReplayContext) (w : World) (v : ReplayView) : Prop :=
  ∃ events, v.trace = (replayView w).trace ++ events ∧
    ∀ start, replayStart (pipelineAutoOffsetReset context.eventSinks) w.dir = .ok start →
      CheckpointSafe context start w.dir v.durable events

variable {context : WalReplayContext} {t : ReplayLocal} {w w' : World} {call : ReplayCall}

omit [DurationCodec] in
/-- While a call finds its start, nothing beyond the start is covered. -/
theorem StartMoment.safeView
    (h : StartMoment (pipelineAutoOffsetReset context.eventSinks) w w') :
    SafeView context w (replayView w') := by
  refine ⟨[], ?_, fun start hstart => ⟨fun limit before entry behind hread hcovered => ?_, by simp,
    fun _ _ _ => List.nil_prefix⟩⟩
  · rw [List.append_nil, replayView, replayView, h.trace]
  · have hmem : entry ∈ before ++ entry :: behind := List.mem_append_right _ List.mem_cons_self
    refine absurd hcovered ?_
    show ¬Covered (durableCheckpoint w'.dir) entry
    rcases h.durable with heq | ⟨position, hposition, heq⟩
    · rw [heq]
      exact (replayStart_ordered hstart hread).not_covered hmem
    · rw [hstart] at hposition
      cases hposition
      rw [heq]
      exact (readEntriesAfterLimit_ordered hread).not_covered hmem

omit [RecordCodec] [CheckpointCodec] [DurationCodec] [JsonCodec] in
/-- In ordered entries the place of an entry is determined: what is among the first entries has the
same entries before it. -/
theorem Ordered.isPrefix_of_mem {start : Option WalPosition} {entries saved before behind rest :
    List WalEntry} {entry : WalEntry} (hordered : Ordered start entries)
    (hentries : entries = before ++ entry :: behind) (hsaved : entries = saved ++ rest)
    (hmem : entry ∈ saved) : before ++ [entry] <+: saved := by
  have hbefore : before ++ [entry] <+: entries := ⟨behind, by rw [hentries]; simp⟩
  rcases List.prefix_or_prefix_of_prefix hbefore ⟨rest, hsaved.symm⟩ with h | h
  · exact h
  · -- otherwise the entry would stand twice in the list
    rcases List.prefix_concat_iff.mp h with heq | hle
    · exact heq ▸ List.prefix_rfl
    · have hpairwise := hordered.pairwise_place
      rw [hentries, List.pairwise_append] at hpairwise
      exact absurd (hpairwise.2.2 entry (hle.subset hmem) entry List.mem_cons_self) (lt_irrefl _)

/-- **Every moment of a call is safe.** -/
theorem ReplayCall.From.safeView (h : call.From context t w w') {v : ReplayView}
    (hv : call.Meets v) : SafeView context w v := by
  obtain ⟨saved, events, hmoment⟩ := hv
  have hdurable := hmoment.durable
  have htrace := hmoment.trace
  rw [h.view_eq] at hdurable htrace
  have hcontext := h.context_eq
  subst hcontext
  refine ⟨events, ?_, fun start hstart => ?_⟩
  · rw [htrace, replayView, replayView, h.moment.trace]
  · rw [h.start_eq] at hstart
    cases hstart
    have hall : call.all <+: call.entries := contiguousEntries_isPrefix _ _
    refine ⟨fun limit before entry behind hread hcovered => ?_, fun entry hentry => ?_,
      fun entries hread sink => ?_⟩
    · -- the longer of the two reads holds both lists
      obtain ⟨longer, behind', rest, hordered, hbefore, hsaved⟩ : ∃ longer behind' rest,
          Ordered (durableCheckpoint w'.dir) longer ∧ longer = before ++ entry :: behind' ∧
          longer = saved ++ rest := by
        obtain ⟨rest, hrest⟩ := hmoment.saved_le.trans hall
        rcases readEntriesAfterLimit_comparable hread h.entries_eq with hpre | hpre
        · obtain ⟨more, hmore⟩ := hpre
          exact ⟨call.entries, behind ++ more, rest, h.ordered_durable h.entries_eq,
            by rw [← hmore]; simp, hrest.symm⟩
        · obtain ⟨more, hmore⟩ := hpre
          exact ⟨before ++ entry :: behind, behind, rest ++ more, h.ordered_durable hread, rfl,
            by rw [← hmore, ← hrest, List.append_assoc]⟩
      have hmem : entry ∈ saved := by
        refine Ordered.mem_of_covered (hsaved ▸ hordered)
          (hsaved ▸ hbefore ▸ List.mem_append_right _ List.mem_cons_self) ?_
        rw [hdurable] at hcovered
        exact hcovered
      have hle := hordered.isPrefix_of_mem hbefore hsaved hmem
      unfold DoneWith
      cases hrecord : recordDeliveries call.context entry.record with
      | none =>
        refine hmoment.quarantined.subset (List.mem_filter.mpr ⟨hmem, ?_⟩)
        rw [hrecord]
        rfl
      | some deliveries =>
        intro sink
        have hexpected := expectedEvents_mono call.context sink hle
        rw [expectedEvents_append] at hexpected
        simp only [expectedEvents, List.flatMap_cons, List.flatMap_nil, List.append_nil, hrecord,
          Option.getD_some] at hexpected
        exact hexpected.trans (hmoment.acked sink)
    · have hset := hmoment.set_aside.subset hentry
      exact Option.isNone_iff_eq_none.mp (List.mem_filter.mp hset).2
    · rw [h.entries_eq] at hread
      cases hread
      exact hmoment.sent sink

omit [RecordCodec] [CheckpointCodec] in
/-- Every early end of a call is at a moment. -/
theorem ReplayCall.Started.exits_meets {mayFail : SysOp → Prop} (hcall : call.Started) :
    ReplayExits mayFail call fun _ _ v => call.Meets v where
  send _ _ _ _ _ _ _ _ h := h
  write _ _ _ _ h := h
  cleanup _ _ _ _ hle h := h.isMoment (by rwa [List.append_nil])
  policy done batch _ saved unsaved _ pre row post trace _ hsends _ hdone hstate h hsplit _ _
      htrace := by
    have hall := hsends.window.isPrefix
    rw [hdone] at hall
    refine h.isMoment_log hall (hsends.window.dueEvents_sinks_at hcall hdone h) ?_
    rw [ReplayCall.sinks, ← hstate] at hsplit
    rw [hsplit]
    exact htrace.some (row :: post)
  defer _ saved unsaved _ _ loop hending _ _ hdone _ h := by
    refine h.isMoment ?_
    rw [← hdone, ← call.entries_plan, ReplayPlan.entries]
    exact List.prefix_append _ _
  stop _ saved unsaved _ _ _ hall _ _ h := h.isMoment (hall ▸ List.prefix_rfl)

/-- **The specification of a call for safety**: every operation is guarded and at a safe moment. -/
theorem wpc_replayOnceInner_safe (mayFail : SysOp → Prop) (context : WalReplayContext)
    (t : ReplayLocal) (w : World) :
    wpc (sysEnv mayFail) (fun o w' => Guard o (replayView w') ∧ SafeView context w (replayView w'))
      (replayOnceInner context) (fun _ _ w' => SafeView context w (replayView w'))
      (fun _ _ w' => SafeView context w (replayView w')) t w := by
  have hself := StartMoment.refl (pipelineAutoOffsetReset context.eventSinks) w
  refine wpc_replayOnceInner (fun o w' hmoment hguard => ⟨hguard, hmoment.safeView⟩)
    (fun _ => hself.safeView) (fun _ _ => hself.safeView) (fun _ _ _ _ hmoment => hmoment.safeView)
    (fun _ _ _ _ hmoment => hmoment.safeView) fun call w' hfrom => ?_
  have hcall := hfrom.started
  have hview : wpc (viewEnv mayFail) (AtMoment call.context call.view call.all)
      (replayFrom call.context call.policy call.start call.entries) (fun _ _ v => call.Meets v)
      (fun _ _ v => call.Meets v) call.clock.env (replayView w') := by
    rw [← hfrom.view_eq]
    refine wpc_replayFrom hcall hcall.exits_meets
      (fun n rc v h => h.isMoment ((List.append_nil call.all).symm ▸ List.prefix_rfl))
      fun _ _ saved unsaved rc v hdone _ h => h.isMoment ?_
    rw [← hdone, ← call.entries_plan, ReplayPlan.entries]
    exact List.prefix_append _ _
  exact wpc_mono (wpc_view (sysEnv_viewEnv mayFail) hview)
    (fun o w'' h => ⟨h.2, hfrom.safeView h.1⟩) (fun _ _ w'' h => hfrom.safeView h)
    fun _ _ w'' h => hfrom.safeView h

/-- **Two moments of a call**, one after the other: the world has only changed as a call may. -/
theorem changed_of_reaches {mayFail : SysOp → Prop}
    {c c' : Prog SysOp SysResp (Except ReplayError Nat × ReplayLocal) × World}
    (h : Reaches (sysEnv mayFail) ((replayOnceInner context).start t, w) c)
    (h' : Reaches (sysEnv mayFail) c c') : Changed c.2 c'.2 :=
  wp_related Changed.refl (fun _ _ _ h h' => h.trans h')
    (fun _ _ _ _ hP he => changed_of_guard mayFail hP.1 he)
    (wp_reaches (wpc_replayOnceInner_safe mayFail context t w) h) h'

/-- **Every moment of a call is safe**, with the events since its beginning. -/
theorem checkpointSafe_of_reaches {mayFail : SysOp → Prop}
    {c : Prog SysOp SysResp (Except ReplayError Nat × ReplayLocal) × World}
    (h : Reaches (sysEnv mayFail) ((replayOnceInner context).start t, w) c) :
    ∃ events, c.2.trace = w.trace ++ events ∧
      ∀ start, replayStart (pipelineAutoOffsetReset context.eventSinks) w.dir = .ok start →
        CheckpointSafe context start w.dir (durableCheckpoint c.2.dir) events := by
  obtain ⟨events, hevents, hfilter⟩ := (changed_of_reaches Relation.ReflTransGen.refl h).trace
  have hsafe : SafeView context w (replayView c.2) := by
    refine wp_invariant (fun _ _ h => h.2) ?_ (wpc_replayOnceInner_safe mayFail context t w) h
    rintro ⟨_ | _, t'⟩ w' h <;> exact h
  obtain ⟨events', hevents', hsafe⟩ := hsafe
  refine ⟨events, hevents, fun start hstart => ?_⟩
  -- the replay's part of the trace grew by the same events
  have heq : events' = events := by
    have h : (replayView w).trace ++ events' = (replayView w).trace ++ events := by
      rw [← hevents', replayView, replayView, hevents, List.filter_append, hfilter]
    exact List.append_cancel_left h
  rw [← heq]
  exact hsafe start hstart

/-! ### The theorem -/

/-- **The replay checkpoint is safe.** For any two moments of a call, one after the other, under any
failures: the checkpoint on disk does not move backward; a segment that is gone held only records
that the checkpoint covers; and what the checkpoint covers beyond the start of the call is done
with, while a record set aside has sent nothing. -/
theorem replayOnceInner_checkpoint_safe (mayFail : SysOp → Prop) (context : WalReplayContext)
    (t : ReplayLocal) (w : World)
    (c c' : Prog SysOp SysResp (Except ReplayError Nat × ReplayLocal) × World)
    (hreach : Reaches (sysEnv mayFail) ((replayOnceInner context).start t, w) c)
    (hreach' : Reaches (sysEnv mayFail) c c') :
    placeOf (durableCheckpoint w.dir) ≤ placeOf (durableCheckpoint c.2.dir) ∧
    placeOf (durableCheckpoint c.2.dir) ≤ placeOf (durableCheckpoint c'.2.dir) ∧
    (∀ segmentId file, w.dir.segments.lookup segmentId = some file →
      c.2.dir.segments.lookup segmentId = some file ∨
        ∀ path entries, readSegmentEntriesAfter path segmentId file.bytes segmentHeaderLen none =
          .ok entries → ∀ entry ∈ entries, Covered (durableCheckpoint c.2.dir) entry) ∧
    ∃ events, c.2.trace = w.trace ++ events ∧
      ∀ start, replayStart (pipelineAutoOffsetReset context.eventSinks) w.dir = .ok start →
        CheckpointSafe context start w.dir (durableCheckpoint c.2.dir) events := by
  have hfirst := changed_of_reaches Relation.ReflTransGen.refl hreach
  refine ⟨hfirst.durable, (changed_of_reaches hreach hreach').durable,
    fun segmentId file hfile => ?_, checkpointSafe_of_reaches hreach⟩
  refine (hfirst.segments segmentId file hfile).imp_right ?_
  rintro ⟨position, hposition, hlt⟩ path entries hread entry hentry
  rw [Option.mem_def.mp hposition]
  have hsegment := ((readSegmentEntriesAfter_ordered hread 0).2 entry hentry).1
  exact covered_some.mpr (WalPosition.place_lt.mpr (Or.inl (hsegment ▸ hlt)))

end Safety

/-! ### A sample call -/

section Sample

attribute [local instance] referenceCodec referenceCheckpointCodec referenceDurationCodec
  referenceJsonCodec

/-- A context with one sink, to which every record emits its own id; the window holds two records. -/
def sampleContext (flushRecords : Nat) (timeout : String) : WalReplayContext where
  eventSinks := (∅ : SortedTable String EventSinkEntry).insert "events" ⟨.earliest, none⟩
  containsProjectId _ := true
  processEvent _ _ request := .ok [⟨"events", .string (request.requestId.getD "")⟩]
  checkpoint := ⟨"1s", flushRecords, 1000⟩
  replay := ⟨2, 100000, ⟨10, 1000, timeout⟩⟩

/-- The local state before the first call, with or without waiting times. -/
def sampleLocal (runtime : Option PendingSince) : ReplayLocal := ⟨⟨none, none, 0, 0, 0⟩, runtime⟩

/-- Three records in one segment. -/
def sampleLog : World := sampleWorld [(1, sampleFile 1 1 [(1, "a"), (2, "b"), (3, "c")])]

/-- The call on the three records, where nothing fails. -/
@[irreducible] def sampleRun : (Except ReplayError Nat × ReplayLocal) × World :=
  ((replayOnceInner (sampleContext 1000 "5s")).start (sampleLocal none)).exec
    (sysAnswer fun _ => none) sampleLog

theorem runs_sampleRun : Runs (sysEnv fun _ => False)
    ((replayOnceInner (sampleContext 1000 "5s")).start (sampleLocal none)) sampleLog sampleRun.1
    sampleRun.2 := by
  unfold sampleRun
  exact runs_sysAnswer (fun _ h => absurd rfl h) _ _

/-- The safety theorem on the sample call, which ends with all three records covered. -/
theorem replayOnceInner_checkpoint_safe_sample :
    durableCheckpoint sampleRun.2.dir ≠ none ∧
      ∃ events, sampleRun.2.trace = sampleLog.trace ++ events ∧
        CheckpointSafe (sampleContext 1000 "5s") none sampleLog.dir
          (durableCheckpoint sampleRun.2.dir) events := by
  obtain ⟨-, -, -, events, hevents, hsafe⟩ :=
    replayOnceInner_checkpoint_safe (fun _ => False) (sampleContext 1000 "5s") (sampleLocal none)
      sampleLog _ _ runs_sampleRun Relation.ReflTransGen.refl
  have hstart : replayStart (pipelineAutoOffsetReset (sampleContext 1000 "5s").eventSinks)
      sampleLog.dir = .ok none := by decide +kernel
  exact ⟨by decide +kernel, events, hevents, hsafe none hstart⟩

end Sample

end Ingest4x.Wal
