import Ingest4x.Replay.Delivery
import Ingest4x.Replay.Waiting

/-! # How a call ends

Where nothing fails and the batch policies are valid, a call delivers everything it reads, stops at an
LSN gap, or defers the window left over; here with what it leaves behind: the checkpoint, the segments
and the times since when the sinks wait.

* **`Cleaned`** — what a call does to the directory.
* **`CallEnds`** — the three ends.
* **`callEnded_of_runs`** — every call ends in one of them. -/

namespace Ingest4x.Wal

open Effect

section Cleaned

variable [CheckpointCodec]

/-! ### The directory after a call -/

/-- **What a call does to the directory**: the checkpoint on disk does not move backward, segments are
only removed before it, and none is removed while it is where it was. -/
structure Cleaned (durable : Option WalPosition) (all : List WalEntry) (w w' : World) : Prop where
  path : w'.dir.path = w.dir.path
  nodeIdFile : w'.dir.nodeIdFile = w.dir.nodeIdFile
  clock : w'.clock = w.clock
  ticks : w.ticks ≤ w'.ticks
  forward : placeOf (durableCheckpoint w.dir) ≤ placeOf (durableCheckpoint w'.dir)
  kept : ∃ keep : Nat → Bool, w'.dir.segments = w.dir.segments.filter (fun id _ => keep id) ∧
    ∀ id, keep id = false → ∃ position ∈ durableCheckpoint w'.dir, id < position.segment
  saved : w'.dir.segments = w.dir.segments ∨ all = [] ∨
    placeOf durable < placeOf (durableCheckpoint w'.dir)

variable {durable : Option WalPosition} {all : List WalEntry} {w w' w'' : World}

/-- Nothing is removed. -/
theorem Cleaned.of_segments (path : w'.dir.path = w.dir.path)
    (nodeIdFile : w'.dir.nodeIdFile = w.dir.nodeIdFile) (clock : w'.clock = w.clock)
    (ticks : w.ticks ≤ w'.ticks)
    (forward : placeOf (durableCheckpoint w.dir) ≤ placeOf (durableCheckpoint w'.dir))
    (segments : w'.dir.segments = w.dir.segments) : Cleaned durable all w w' :=
  ⟨path, nodeIdFile, clock, ticks, forward,
    ⟨fun _ => true, by rw [segments, SortedTable.filter_true], by simp⟩, Or.inl segments⟩

theorem Cleaned.refl (w : World) : Cleaned durable all w w :=
  .of_segments rfl rfl rfl le_rfl le_rfl rfl

theorem Cleaned.trans (h : Cleaned durable all w w') (h' : Cleaned durable all w' w'') :
    Cleaned durable all w w'' where
  path := h'.path.trans h.path
  nodeIdFile := h'.nodeIdFile.trans h.nodeIdFile
  clock := h'.clock.trans h.clock
  ticks := h.ticks.trans h'.ticks
  forward := h.forward.trans h'.forward
  kept := by
    obtain ⟨keep, hsegments, hremoved⟩ := h.kept
    obtain ⟨keep', hsegments', hremoved'⟩ := h'.kept
    refine ⟨fun id => keep id && keep' id, ?_, fun id hid => ?_⟩
    · rw [hsegments', hsegments]
      refine SortedTable.ext ?_
      simp only [SortedTable.entries_filter, List.filter_filter]
      exact List.filter_congr fun row _ => Bool.and_comm _ _
    · rcases Bool.and_eq_false_iff.mp hid with hid | hid
      · exact exists_segment_lt_of_le h'.forward (hremoved id hid)
      · exact hremoved' id hid
  saved := by
    rcases h'.saved with heq | hall | hlt
    · rcases h.saved with heq' | hall | hlt
      · exact Or.inl (heq.trans heq')
      · exact Or.inr (Or.inl hall)
      · exact Or.inr (Or.inr (lt_of_lt_of_le hlt h'.forward))
    · exact Or.inr (Or.inl hall)
    · exact Or.inr (Or.inr hlt)

/-- An operation of the replay after its start respects `Cleaned`. -/
theorem cleaned_of_guard (mayFail : SysOp → Prop) {v₀ : ReplayView} {o : SysOp} {r : SysResp o}
    (hguard : Guard o (replayView w)) (hsaved : SavedBefore v₀ all o (replayView w))
    (h : sysEnv mayFail o w r w') : Cleaned v₀.durable all w w' := by
  cases o with
  | readDir =>
    obtain ⟨rfl, -⟩ := h
    exact Cleaned.refl _
  | nowMs =>
    obtain rfl := h
    exact Cleaned.refl _
  | instantNow =>
    obtain ⟨-, rfl⟩ := h
    exact .of_segments rfl rfl rfl (Nat.le_succ _) le_rfl rfl
  | syncDirectory site =>
    have h : Fallible _ w (· = w) r w' := h
    rcases h with ⟨-, rfl⟩ | ⟨-, -, rfl⟩ <;> exact Cleaned.refl _
  | removeSegment site segmentId =>
    obtain ⟨position, hposition, hlt⟩ := hguard
    rcases h with ⟨-, -, rfl⟩ | ⟨-, ⟨-, rfl⟩ | ⟨-, -, rfl⟩⟩
    · exact Cleaned.refl _
    · refine ⟨rfl, rfl, rfl, le_rfl, le_rfl, ⟨fun id => decide (id ≠ segmentId), rfl, fun id hid => ?_⟩,
        Or.inr ?_⟩
      · obtain rfl : id = segmentId := by simpa using hid
        exact ⟨position, hposition, hlt⟩
      · by_cases hall : all = []
        · exact Or.inl hall
        · exact Or.inr (hsaved hall)
    · exact Cleaned.refl _
  | writeCheckpointFile file =>
    have hwritten : Cleaned v₀.durable all w
        { w with dir := { w.dir with checkpointFile := some file } } :=
      .of_segments rfl rfl rfl le_rfl hguard rfl
    rcases h with ⟨-, rfl⟩ | ⟨-, -, rfl | rfl⟩
    · exact hwritten
    · exact Cleaned.refl _
    · exact hwritten
  | sendBatch sink events metadata =>
    obtain ⟨rfl, -⟩ := h
    exact .of_segments rfl rfl rfl le_rfl le_rfl rfl
  | quarantine entry issue =>
    obtain rfl := h
    exact .of_segments rfl rfl rfl le_rfl le_rfl rfl
  | createDirAll => exact hguard.elim
  | acquireWalLock => exact hguard.elim
  | availableSpace => exact hguard.elim
  | newUuid => exact hguard.elim
  | writeNodeIdFile nodeId => exact hguard.elim
  | createSegment site segmentId header => exact hguard.elim
  | appendSegment segmentId bytes => exact hguard.elim
  | syncSegment segmentId => exact hguard.elim
  | truncateSegment site segmentId len => exact hguard.elim
  | respond channel record result => exact hguard.elim

end Cleaned

section Ends

variable [RecordCodec] [CheckpointCodec] [DurationCodec] [JsonCodec]

/-! ### The ends of a call -/

/-- **The three ends of a call**, with the local state and the view it leaves behind. -/
inductive CallEnds (call : ReplayCall) (t : ReplayLocal) (v : ReplayView) : Prop
  /-- Everything read is delivered and saved. -/
  | finished {rc : ReplayClock} (at_all : call.At call.all [] rc v)
  /-- The window left over is deferred. -/
  | deferred {loop : ReplayLoop} {sinks : List String} {pending pending' : PendingSince}
      {saved unsaved : List WalEntry} (defers : call.DefersWith loop sinks pending pending')
      (moves : movesEntries call.plan.moves = saved ++ unsaved)
      (at_moves : call.At saved unsaved ((call.after call.plan.moves).waiting pending') v)
      (runtime : t.runtime = some pending')
  /-- The call stops at an LSN gap. -/
  | stopped {issue : ReplayIssue} {saved unsaved : List WalEntry} {rc : ReplayClock}
      (ending : call.plan.ending = .stop issue) (all : call.all = saved ++ unsaved)
      (state : rc.env.state = (call.after call.plan.moves).env.state)
      (at_gap : call.At saved unsaved rc v)

/-- **How a call ended**: what it read, what it left behind, and what happened to the directory. -/
structure CallEnded (context : WalReplayContext) (t : ReplayLocal) (w : World) (t' : ReplayLocal)
    (w' : World) (call : ReplayCall) (w₁ : World) : Prop where
  started : call.From context t w w₁
  ends : CallEnds call t' (replayView w')
  cleaned : Cleaned call.view.durable call.all w₁ w'

variable {context : WalReplayContext} {t t' : ReplayLocal} {w w' : World}

/-- The early ends of a call in which nothing fails. -/
theorem ReplayCall.From.exits_ends {call : ReplayCall} {w₁ : World}
    (h : call.From context t w w₁)
    (hparses : ∀ sink, (context.eventSinks.lookup sink).isSome → PolicyParses context sink) :
    ReplayExits NoFailure call fun error t' v =>
      CallEnds call t' v ∨ ∃ e, error = .issue (.checkpointWriteFailed e) where
  send _ _ _ _ _ _ _ hmay _ := hmay.elim
  write error _ _ _ _ := Or.inr ⟨error, rfl⟩
  cleanup error _ _ _ _ _ := Or.inr ⟨error, rfl⟩
  policy done batch issue _ _ _ pre row post _ _ hsends _ _ _ _ hsplit hissue _ _ := by
    obtain ⟨sink, hsinks, hissue⟩ := h.window_issue hsends.window hsplit hissue
    obtain ⟨policy, hpolicy⟩ := hparses sink hsinks
    rw [hissue] at hpolicy
    cases hpolicy
  defer issue _ _ _ _ loop hending herror _ _ _ _ := by
    obtain ⟨sink, hsinks, hissue⟩ := h.deferral_issue hending herror
    obtain ⟨policy, hpolicy⟩ := hparses sink hsinks
    rw [hissue] at hpolicy
    cases hpolicy
  stop issue saved unsaved rc v hending hall _ hstate hat :=
    Or.inl (.stopped hending hall hstate hat)

/-- **The ends of a call**, as a specification. -/
theorem wpc_replayOnceInner_ends {policy : CheckpointFlushPolicy} {start : Option WalPosition}
    {entries : List WalEntry} (hsinks : context.eventSinks.entries ≠ [])
    (hpolicy : checkpointFlushPolicy context.checkpoint = .ok policy)
    (hstart : replayStart (pipelineAutoOffsetReset context.eventSinks) w.dir = .ok start)
    (hentries : readEntriesAfterLimit w.dir start (some replayBatchSize) = .ok entries)
    (hnode : w.dir.nodeIdFile ≠ none)
    (hparses : ∀ sink, (context.eventSinks.lookup sink).isSome → PolicyParses context sink) :
    wpc (sysEnv NoFailure) (fun _ _ => True) (replayOnceInner context)
      (fun _ t' w' => ∃ call w₁, CallEnded context t w t' w' call w₁)
      (fun error t' w' => (∃ call w₁, CallEnded context t w t' w' call w₁) ∨
        ∃ e, error = .issue (.checkpointWriteFailed e)) t w := by
  have hunfailing : ¬WriteMayFail NoFailure w.dir.nodeIdFile := fun h =>
    h.elim id fun h => h.elim (fun h => hnode h) fun ⟨_, h⟩ => h
  refine wpc_replayOnceInner (fun _ _ _ _ => trivial) (fun hempty => absurd hempty hsinks)
    (fun issue hissue => ?_) (fun error _ _ hreason _ => ?_) (fun error _ _ hreason _ => ?_)
    fun call w₁ hfrom => ?_
  · rw [hpolicy] at hissue
    cases hissue
  · rcases hreason with hnone | hmay
    · exact absurd hstart (hnone start)
    · exact absurd hmay hunfailing
  · rcases hreason with ⟨start', hstart', hnone⟩ | hmay
    · rw [hstart] at hstart'
      cases hstart'
      exact absurd hentries (hnone entries)
    · exact hmay.elim
  · have hview : wpc (viewEnv NoFailure) (AtSavedMoment call.context call.view call.all)
        (replayFrom call.context call.policy call.start call.entries)
        (fun _ t' v => CallEnds call t' v)
        (fun error t' v => CallEnds call t' v ∨ ∃ e, error = .issue (.checkpointWriteFailed e))
        call.clock.env (replayView w₁) := by
      rw [← hfrom.view_eq]
      exact wpc_replayFrom_exact hfrom.started (hfrom.exits_ends hparses)
        (fun n rc v hat => .finished hat)
        fun loop sinks pending pending' hdefers _ saved unsaved v hmoves hat =>
          .deferred hdefers hmoves hat rfl
    -- what the operations do to the directory is collected along the run
    have hop : ∀ (o : SysOp) (s : World) (r : SysResp o) (s' : World),
        AtSavedMoment call.context call.view call.all o (replayView s) →
        sysEnv NoFailure o s r s' → Cleaned call.view.durable call.all s s' :=
      fun o s r s' hP he => cleaned_of_guard NoFailure hP.2.1 hP.2.2 he
    have hframe := wpc_frame (R := Cleaned call.view.durable call.all)
      (fun _ _ _ => Cleaned.trans) hop (Cleaned.refl w₁)
      (wpc_view (sysEnv_viewEnv NoFailure) hview)
    exact wpc_mono hframe (fun _ _ _ => trivial) (fun _ t' w' h => ⟨call, w₁, hfrom, h.1, h.2⟩)
      fun error t' w' h => h.1.imp_left fun hends => ⟨call, w₁, hfrom, hends, h.2⟩

/-- **Every call in which nothing fails ends in one of the three ways.** -/
theorem callEnded_of_runs {policy : CheckpointFlushPolicy} {start : Option WalPosition}
    {entries : List WalEntry} {result : Except ReplayError Nat}
    (hsinks : context.eventSinks.entries ≠ [])
    (hpolicy : checkpointFlushPolicy context.checkpoint = .ok policy)
    (hstart : replayStart (pipelineAutoOffsetReset context.eventSinks) w.dir = .ok start)
    (hentries : readEntriesAfterLimit w.dir start (some replayBatchSize) = .ok entries)
    (hnode : w.dir.nodeIdFile ≠ none)
    (hparses : ∀ sink, (context.eventSinks.lookup sink).isSome → PolicyParses context sink)
    (hrun : Runs (sysEnv NoFailure) ((replayOnceInner context).start t) w (result, t') w') :
    ∃ call w₁, CallEnded context t w t' w' call w₁ := by
  have hspec := wp_runs
    (wpc_replayOnceInner_ends hsinks hpolicy hstart hentries hnode hparses) hrun
  have hhealthy := wp_runs (wpc_replayOnceInner_healthy hstart hnode) hrun
  cases result with
  | ok n => exact hspec
  | error error =>
    rcases hspec with hended | ⟨e, rfl⟩
    · exact hended
    · exact absurd rfl (hhealthy e)

end Ends

end Ingest4x.Wal
