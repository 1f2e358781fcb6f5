import Ingest4x.Replay.Delivery

/-! # Delivery over a sequence of calls

Every call starts from the checkpoint on disk, so what a call delivers or sets aside without saving
it is done again by the next call. A call saves all its work unless it ends early, with a deferred
window, an LSN gap or a batch policy that is not valid, at a point where entries are pending.

* **`ReplayCall.Settles`** — the condition on a call: no pending entries at an early end.
* **`CallDelivers`** — what a call did, with all of it covered by the checkpoint it leaves.
* **`replayOnceInner_no_redelivery`** — over a sequence of calls that settle, nothing is delivered or
  set aside twice. -/

namespace Ingest4x.Wal

open Effect

section Redelivery

variable [RecordCodec] [CheckpointCodec] [DurationCodec] [JsonCodec]

/-! ### The condition -/

/-- The entries that are pending after these moves: gone through, but not covered by the checkpoint
that was written last. -/
def ReplayCall.pendingEntries (call : ReplayCall) (done : List ReplayMove) : List WalEntry :=
  (movesEntries done).drop
    ((movesEntries done).length - (call.after done).env.state.pendingRecords)

/-- **Nothing is pending** after these moves: no entry, or only entries without any delivery. -/
def ReplayCall.NothingPending (call : ReplayCall) (done : List ReplayMove) : Prop :=
  ∀ entry ∈ call.pendingEntries done, recordDeliveries call.context entry.record = some []

/-- **A call settles**: where it comes to an early end, no entry is pending, and no sink of a window
that it cannot finish was sent anything. -/
structure ReplayCall.Settles (call : ReplayCall) : Prop where
  /-- A window with a batch policy that is not valid is stopped before anything is sent. -/
  windows : ∀ done batch, call.Sends done batch → call.Sendable done →
    (∀ row ∈ (call.sinks done batch).entries, PolicyParses call.context row.1) ∨
      (call.NothingPending done ∧
        ∀ row ∈ (call.sinks done batch).entries.head?, ¬PolicyParses call.context row.1)
  /-- The window left over is sent, or nothing is pending. -/
  trailing : ∀ loop, call.plan.ending = .trailing loop → call.Sendable call.plan.moves →
    call.deferral loop = .ok [] ∨ call.NothingPending call.plan.moves
  /-- At an LSN gap nothing is pending. -/
  stop : ∀ issue, call.plan.ending = .stop issue → call.Sendable call.plan.moves →
    call.NothingPending call.plan.moves

/-- **The condition on a call** in terms of its context and of the state and world it starts in. -/
def CallSettles (context : WalReplayContext) (t : ReplayLocal) (w : World) : Prop :=
  ∀ (call : ReplayCall) (w' : World), call.From context t w w' → call.Settles

/-- **Sends and checkpoint writes succeed**; every other operation may fail. -/
structure SavesAndSends (mayFail : SysOp → Prop) (w : World) : Prop where
  send : ∀ sink events metadata, ¬mayFail (.sendBatch sink events metadata)
  write : ¬WriteMayFail mayFail w.dir.nodeIdFile

/-! ### One call -/

/-- **What a call did**: it delivered the entries `delivered`, which the checkpoint did not cover
before and covers after. -/
structure CallDelivers (context : WalReplayContext) (w w' : World) (delivered : List WalEntry) :
    Prop where
  trace : ∃ events, w'.trace = w.trace ++ events ∧ Delivered context delivered events
  ordered : Ordered (durableCheckpoint w.dir) delivered
  covered : ∀ entry ∈ delivered, Covered (durableCheckpoint w'.dir) entry
  forward : placeOf (durableCheckpoint w.dir) ≤ placeOf (durableCheckpoint w'.dir)

/-- Everything that was delivered is saved. -/
def SettledView (call : ReplayCall) (v : ReplayView) : Prop :=
  ∃ delivered events, delivered <+: call.all ∧ v.trace = call.view.trace ++ events ∧
    Delivered call.context delivered events ∧
    v.durable = (lastPosition delivered).or call.view.durable

variable {context : WalReplayContext} {t : ReplayLocal} {w w' : World} {call : ReplayCall}
  {mayFail : SysOp → Prop}

omit [RecordCodec] [CheckpointCodec] [DurationCodec] in
/-- Where the entries not saved have no delivery, what was delivered is saved. -/
theorem ReplayCall.At.settledView {saved unsaved : List WalEntry} {rc : ReplayClock}
    {v : ReplayView} (h : call.At saved unsaved rc v)
    (hunsaved : ∀ entry ∈ unsaved, recordDeliveries call.context entry.record = some [])
    (hle : saved <+: call.all) : SettledView call v := by
  obtain ⟨events, hevents, hdelivered⟩ := h.trace
  have hexpected : ∀ sink, expectedEvents call.context sink unsaved = [] := by
    intro sink
    rw [expectedEvents, List.flatMap_eq_nil_iff]
    intro entry hentry
    rw [hunsaved entry hentry]
    rfl
  have hquarantined : quarantinedOf call.context unsaved = [] := by
    rw [quarantinedOf, List.filter_eq_nil_iff]
    intro entry hentry
    rw [hunsaved entry hentry]
    simp
  refine ⟨saved, events, hle, hevents, ⟨fun sink => ?_, fun sink => ?_, ?_⟩, h.durable⟩
  · rw [hdelivered.sent, expectedEvents_append, hexpected, List.append_nil]
  · rw [hdelivered.acked, expectedEvents_append, hexpected, List.append_nil]
  · rw [hdelivered.quarantined, quarantinedOf_append, hquarantined, List.append_nil]

omit [RecordCodec] [CheckpointCodec] [DurationCodec] in
/-- Sending nothing keeps what was delivered saved. -/
theorem SettledView.log {v : ReplayView} (h : SettledView call v) {trace : List Event}
    (htrace : SentAll [] trace) : SettledView call (v.log trace) := by
  obtain ⟨delivered, events, hle, hevents, hdelivered, hdurable⟩ := h
  refine ⟨delivered, events ++ trace, hle, ?_, ⟨fun sink => ?_, fun sink => ?_, ?_⟩, hdurable⟩
  · rw [ReplayView.log_trace, hevents, List.append_assoc]
  · rw [sentEvents_append, hdelivered.sent, htrace.sent]
    exact List.append_nil _
  · rw [ackedEvents_append, hdelivered.acked, htrace.acked]
    exact List.append_nil _
  · rw [quarantinedEntries_append, hdelivered.quarantined, htrace.quarantined]
    exact List.append_nil _

omit [RecordCodec] [CheckpointCodec] [DurationCodec] in
/-- The entries not saved are the pending ones. -/
theorem ReplayCall.At.unsaved_eq {done : List ReplayMove} {saved unsaved : List WalEntry}
    {rc : ReplayClock} {v : ReplayView} (hat : call.At saved unsaved rc v)
    (hstate : rc.env.state = (call.after done).env.state)
    (hdone : movesEntries done = saved ++ unsaved) : unsaved = call.pendingEntries done := by
  have hlen := hat.save.pendingRecords
  rw [hstate] at hlen
  rw [ReplayCall.pendingEntries, hlen, hdone, List.length_append, Nat.add_sub_cancel,
    List.drop_left]

omit [RecordCodec] [CheckpointCodec] in
/-- **Every early end of a call that settles has saved its work.** -/
theorem ReplayCall.Settles.exits (h : call.Settles)
    (hsend : ∀ sink events metadata, ¬mayFail (.sendBatch sink events metadata))
    (hwrite : ¬WriteMayFail mayFail call.view.nodeIdFile) :
    ReplayExits mayFail call fun _ _ v => SettledView call v where
  send sinkName _ _ events metadata _ _ hmay _ := absurd hmay (hsend sinkName events metadata)
  write _ _ _ hmay _ := absurd hmay hwrite
  cleanup _ _ _ _ hle hat := hat.settledView (by simp) hle
  policy done batch issue saved unsaved rc pre row post trace v hsends hsendable hdone hstate hat
      hsplit hissue hparses htrace := by
    have hinvalid : ¬PolicyParses call.context row.1 := by
      rintro ⟨policy, hpolicy⟩
      rw [hissue] at hpolicy
      cases hpolicy
    rcases h.windows done batch hsends hsendable with hall | ⟨hnothing, hhead⟩
    · rw [hsplit] at hall
      exact absurd (hall row (List.mem_append_right _ List.mem_cons_self)) hinvalid
    · -- the first sink stops the window, so nothing was sent
      have hpre : pre = [] := by
        cases pre with
        | nil => rfl
        | cons first pre =>
          rw [hsplit] at hhead
          exact absurd (hparses first List.mem_cons_self) (hhead first rfl)
      subst hpre
      refine (hat.settledView ?_ ?_).log htrace
      · rw [hat.unsaved_eq hstate hdone]
        exact hnothing
      · exact (List.prefix_append _ _).trans
          (hdone ▸ (List.prefix_append _ _).trans hsends.window.isPrefix)
  defer issue saved unsaved rc v loop hending herror hsendable hdone hstate hat := by
    rcases h.trailing loop hending hsendable with hok | hnothing
    · rw [herror] at hok
      cases hok
    · refine hat.settledView ?_ ?_
      · rw [hat.unsaved_eq hstate hdone]
        exact hnothing
      · exact (List.prefix_append _ _).trans (hdone ▸ call.movesEntries_isPrefix)
  stop issue saved unsaved rc v hending hall hsendable hstate hat := by
    have hdone : movesEntries call.plan.moves = saved ++ unsaved := by
      rw [← hall, ← call.entries_plan, ReplayPlan.entries, hending]
      exact (List.append_nil _).symm
    refine hat.settledView ?_ (hall ▸ List.prefix_append _ _)
    rw [hat.unsaved_eq hstate hdone]
    exact h.stop issue hending hsendable

/-- What a call has delivered at its end, seen in the view: all of it is saved. -/
def SettledCall (context : WalReplayContext) (w : World) (v : ReplayView) : Prop :=
  ∃ delivered events, v.trace = (replayView w).trace ++ events ∧
    Delivered context delivered events ∧ Ordered (durableCheckpoint w.dir) delivered ∧
    ∀ entry ∈ delivered, Covered v.durable entry

omit [DurationCodec] in
/-- A call that ends while it finds its start has delivered nothing. -/
theorem StartMoment.settledCall
    (h : StartMoment (pipelineAutoOffsetReset context.eventSinks) w w') :
    SettledCall context w (replayView w') := by
  refine ⟨[], [], ?_, Delivered.nil, trivial, by simp⟩
  rw [List.append_nil, replayView, replayView, h.trace]

/-- A call that has saved its work has done so beyond the checkpoint it found. -/
theorem ReplayCall.From.settledCall (h : call.From context t w w') {v : ReplayView}
    (hv : SettledView call v) : SettledCall context w v := by
  obtain ⟨delivered, events, hle, hevents, hdelivered, hdurable⟩ := hv
  have hall : delivered <+: call.entries := hle.trans (contiguousEntries_isPrefix _ _)
  have hordered : Ordered (durableCheckpoint w.dir) delivered :=
    (replayStart_ordered h.start_eq h.entries_eq).ofPrefix hall
  refine ⟨delivered, events, ?_, h.context_eq ▸ hdelivered, hordered, fun entry hentry => ?_⟩
  · rw [hevents, h.view_eq, replayView, replayView, h.moment.trace]
  · -- the checkpoint lies at the end of what was delivered
    have hcovered := hordered.covered_lastPosition hentry
    rw [hdurable]
    cases hlast : lastPosition delivered with
    | none =>
      rw [lastPosition_eq_none hlast] at hentry
      cases hentry
    | some position =>
      rw [hlast] at hcovered
      exact hcovered

/-- **A call that settles** has saved all it delivered, wherever it ends. -/
theorem wpc_replayOnceInner_settles (hsettles : CallSettles context t w)
    (hsave : SavesAndSends mayFail w) :
    wpc (sysEnv mayFail) (fun _ _ => True) (replayOnceInner context)
      (fun _ _ w' => SettledCall context w (replayView w'))
      (fun _ _ w' => SettledCall context w (replayView w')) t w := by
  have hself := StartMoment.refl (pipelineAutoOffsetReset context.eventSinks) w
  refine wpc_replayOnceInner (fun _ _ _ _ => trivial) (fun _ => hself.settledCall)
    (fun _ _ => hself.settledCall) (fun _ _ _ _ hmoment => hmoment.settledCall)
    (fun _ _ _ _ hmoment => hmoment.settledCall) fun call w' hfrom => ?_
  have hcall := hsettles call w' hfrom
  have hwrite : ¬WriteMayFail mayFail call.view.nodeIdFile := by
    rw [hfrom.view_eq, replayView_nodeIdFile, hfrom.moment.nodeIdFile]
    exact hsave.write
  have hview : wpc (viewEnv mayFail) (AtMoment call.context call.view call.all)
      (replayFrom call.context call.policy call.start call.entries)
      (fun _ _ v => SettledView call v) (fun _ _ v => SettledView call v) call.clock.env
      (replayView w') := by
    rw [← hfrom.view_eq]
    refine wpc_replayFrom hfrom.started (hcall.exits hsave.send hwrite)
      (fun n rc v hat => hat.settledView (by simp) List.prefix_rfl)
      fun hdefers hsendable saved unsaved rc v hdone hstate hat => ?_
    obtain ⟨loop, sinks, hending, hdeferral, hne⟩ := hdefers
    rcases hcall.trailing loop hending hsendable with hnow | hnothing
    · rw [hdeferral] at hnow
      exact absurd (Except.ok.inj hnow) hne
    · refine hat.settledView ?_ ?_
      · rw [hat.unsaved_eq hstate hdone]
        exact hnothing
      · exact (List.prefix_append _ _).trans (hdone ▸ call.movesEntries_isPrefix)
  exact wpc_mono (wpc_view (sysEnv_viewEnv mayFail) hview) (fun _ _ _ => trivial)
    (fun _ _ _ h => hfrom.settledCall h) fun _ _ _ h => hfrom.settledCall h

/-- **A finished call that settles** has delivered only what the checkpoint it leaves covers. -/
theorem callDelivers_of_runs (hsettles : CallSettles context t w) (hsave : SavesAndSends mayFail w)
    {result : Except ReplayError Nat} {t' : ReplayLocal}
    (hrun : Runs (sysEnv mayFail) ((replayOnceInner context).start t) w (result, t') w') :
    ∃ delivered, CallDelivers context w w' delivered := by
  have hspec := wp_runs (wpc_replayOnceInner_settles hsettles hsave) hrun
  have hsettled : SettledCall context w (replayView w') := by
    cases result <;> exact hspec
  obtain ⟨delivered, events, hevents, hdelivered, hordered, hcovered⟩ := hsettled
  have hchanged := changed_of_reaches Relation.ReflTransGen.refl hrun
  obtain ⟨events', hevents', hfilter⟩ := hchanged.trace
  have heq : events = events' := by
    have h : (replayView w).trace ++ events = (replayView w).trace ++ events' := by
      rw [← hevents, replayView, replayView, hevents', List.filter_append, hfilter]
    exact List.append_cancel_left h
  exact ⟨delivered, ⟨events', hevents', heq ▸ hdelivered⟩, hordered, hcovered, hchanged.durable⟩

/-- **A simple call settles**: one without waiting times, on a log without LSN gaps, where every
batch policy is valid. -/
theorem callSettles_of_no_runtime (hruntime : t.runtime = none)
    (hpolicies : ∀ sink, PolicyParses context sink)
    (hgap : ∀ start entries,
      replayStart (pipelineAutoOffsetReset context.eventSinks) w.dir = .ok start →
      readEntriesAfterLimit w.dir start (some replayBatchSize) = .ok entries →
      contiguousEntries (start.map fun position => position.lsn + 1) entries = entries) :
    CallSettles context t w := by
  intro call w' hfrom
  have hnone : call.clock.env.runtime = none := by
    rw [hfrom.clock_eq]
    exact hruntime
  refine ⟨fun done batch _ _ => Or.inl fun row _ => ?_, fun loop _ _ =>
    Or.inl (call.deferral_of_no_runtime hnone loop), fun issue hending _ => ?_⟩
  · rw [hfrom.context_eq]
    exact hpolicies row.1
  · exact absurd hending
      (planEntries_ne_stop (hgap _ _ hfrom.start_eq hfrom.entries_eq) issue)

/-! ### A sequence of calls -/

/-- **A finished call**: what it is given, the world it starts in, and how it ends. -/
structure FinishedCall where
  context : WalReplayContext
  env : ReplayLocal
  world : World
  result : Except ReplayError Nat
  env' : ReplayLocal
  world' : World

namespace FinishedCall

/-- The call runs so, where sends and checkpoint writes succeed. -/
structure Finishes (mayFail : SysOp → Prop) (call : FinishedCall) : Prop where
  runs : Runs (sysEnv mayFail) ((replayOnceInner call.context).start call.env) call.world
    (call.result, call.env') call.world'
  saves : SavesAndSends mayFail call.world

/-- **The next call** finds the checkpoint that this one leaves, and goes on with its waiting times;
the segments and the processor may have changed in between. -/
structure Before (call next : FinishedCall) : Prop where
  checkpoint : next.world.dir.checkpointFile = call.world'.dir.checkpointFile
  runtime : next.env.runtime = call.env'.runtime

/-- The call delivered these entries. -/
def Delivers (call : FinishedCall) (delivered : List WalEntry) : Prop :=
  CallDelivers call.context call.world call.world' delivered

end FinishedCall

/-- **Nothing is done twice** in a sequence of calls: each call delivers some entries, all of them
covered by the checkpoint it leaves, and the places of the entries strictly increase over the whole
sequence. -/
def NoRedelivery (calls : List FinishedCall) : Prop :=
  ∃ delivered : List (List WalEntry), List.Forall₂ FinishedCall.Delivers calls delivered ∧
    delivered.flatten.Pairwise fun entry entry' => entry.position.place < entry'.position.place

omit [RecordCodec] [DurationCodec] in
/-- What later calls deliver is not covered by the checkpoint that the first of them starts from. -/
theorem not_covered_of_delivers {call : FinishedCall} {calls : List FinishedCall}
    {delivered : List (List WalEntry)} (hlinked : (call :: calls).IsChain FinishedCall.Before)
    (hdelivers : List.Forall₂ FinishedCall.Delivers calls delivered) :
    ∀ entry ∈ delivered.flatten, ¬Covered (durableCheckpoint call.world'.dir) entry := by
  induction hdelivers generalizing call with
  | nil => simp
  | cons hfirst hrest ih =>
    rename_i next entries calls delivered
    obtain ⟨hbefore, hlinked⟩ := List.isChain_cons_cons.mp hlinked
    have hdurable : durableCheckpoint next.world.dir = durableCheckpoint call.world'.dir := by
      rw [durableCheckpoint, durableCheckpoint, hbefore.checkpoint]
    intro entry hentry hcovered
    rw [← hdurable] at hcovered
    rcases List.mem_append.mp hentry with hentry | hentry
    · exact hfirst.ordered.not_covered hentry hcovered
    · exact ih hlinked entry hentry (hcovered.mono hfirst.forward)

/-- **Replay does not redeliver.** In every sequence of calls where sends and checkpoint writes
succeed and every call settles, each call delivers and sets aside only what the checkpoint it leaves
covers, and nothing is delivered or set aside twice. -/
theorem replayOnceInner_no_redelivery (mayFail : SysOp → Prop) (calls : List FinishedCall)
    (hfinishes : ∀ call ∈ calls, call.Finishes mayFail)
    (hlinked : calls.IsChain FinishedCall.Before)
    (hsettles : ∀ call ∈ calls, CallSettles call.context call.env call.world) :
    NoRedelivery calls := by
  induction calls with
  | nil => exact ⟨[], List.Forall₂.nil, List.Pairwise.nil⟩
  | cons call calls ih =>
    obtain ⟨delivered, hdelivers, hpairwise⟩ := ih
      (fun call' hmem => hfinishes call' (List.mem_cons_of_mem _ hmem))
      (List.isChain_of_isChain_cons hlinked) fun call' hmem =>
        hsettles call' (List.mem_cons_of_mem _ hmem)
    have hfinished := hfinishes call List.mem_cons_self
    obtain ⟨entries, hentries⟩ := callDelivers_of_runs (hsettles call List.mem_cons_self)
      hfinished.saves hfinished.runs
    refine ⟨entries :: delivered, List.Forall₂.cons hentries hdelivers, ?_⟩
    rw [List.flatten_cons, List.pairwise_append]
    refine ⟨hentries.ordered.pairwise_place, hpairwise, fun entry hentry entry' hentry' => ?_⟩
    -- the first is covered by the checkpoint in between, the second is not
    have hcovered := hentries.covered entry hentry
    have hnot := not_covered_of_delivers hlinked hdelivers entry' hentry'
    exact WithBot.coe_lt_coe.mp (lt_of_lt_of_le hcovered (not_lt.mp hnot))

end Redelivery

/-! ### Sample calls -/

section Sample

attribute [local instance] referenceCodec referenceCheckpointCodec referenceDurationCodec
  referenceJsonCodec

/-- The sample call in a world, where nothing fails. -/
def sampleCall (runtime : Option PendingSince) (w : World) : FinishedCall :=
  let run := ((replayOnceInner (sampleContext 1000 "5s")).start (sampleLocal runtime)).exec
    (sysAnswer fun _ => none) w
  ⟨sampleContext 1000 "5s", sampleLocal runtime, w, run.1.1, run.1.2, run.2⟩

@[simp] theorem sampleCall_world (runtime : Option PendingSince) (w : World) :
    (sampleCall runtime w).world = w := rfl

@[simp] theorem sampleCall_env_runtime (runtime : Option PendingSince) (w : World) :
    (sampleCall runtime w).env.runtime = runtime := rfl

/-- A call in which nothing fails finishes, on a log with a node id. -/
theorem finishes_exec (context : WalReplayContext) (env : ReplayLocal) {w : World}
    (hnode : w.dir.nodeIdFile ≠ none) :
    let run := ((replayOnceInner context).start env).exec (sysAnswer fun _ => none) w
    FinishedCall.Finishes NoFailure ⟨context, env, w, run.1.1, run.1.2, run.2⟩ := by
  exact ⟨runs_sysAnswer (fun _ h => absurd rfl h) _ _,
    fun _ _ _ => not_false, fun h => h.elim id fun h => h.elim hnode fun ⟨_, h⟩ => h⟩

/-- The first and the second call on the sample log. -/
@[irreducible] def sampleCalls (runtime : Option PendingSince) : FinishedCall × FinishedCall :=
  let first := sampleCall runtime sampleLog
  (first, sampleCall first.env'.runtime first.world')

theorem sampleCalls_finish (runtime : Option PendingSince)
    (hnode : (sampleCall runtime sampleLog).world'.dir.nodeIdFile ≠ none) :
    (∀ call ∈ [(sampleCalls runtime).1, (sampleCalls runtime).2], call.Finishes NoFailure) ∧
      (sampleCalls runtime).1.Before (sampleCalls runtime).2 := by
  unfold sampleCalls
  refine ⟨fun call hmem => ?_, by rw [sampleCall_world], by rw [sampleCall_env_runtime]⟩
  rcases List.mem_cons.mp hmem with rfl | hmem
  · exact finishes_exec _ _ (by decide +kernel)
  · rw [List.mem_singleton.mp hmem]
    exact finishes_exec _ _ hnode

/-- Every sink of the sample context has a valid batch policy. -/
theorem policyParses_sampleContext (sink : String) :
    PolicyParses (sampleContext 1000 "5s") sink := by
  have hnone : ((sampleContext 1000 "5s").eventSinks.lookup sink).bind EventSinkEntry.batchConfig =
      none := by
    rw [sampleContext, SortedTable.lookup_insert]
    split_ifs <;> rfl
  rw [PolicyParses, sinkPolicy, hnone]
  have hok : (sinkBatchPolicy (sampleContext 1000 "5s").replay none).toOption.isSome := by
    decide +kernel
  cases h : sinkBatchPolicy (sampleContext 1000 "5s").replay none with
  | ok policy => exact ⟨policy, rfl⟩
  | error issue =>
    rw [h] at hok
    cases hok

/-- A sample call without waiting times settles on a log without gaps. -/
theorem callSettles_sampleCall {w : World} {start : Option WalPosition} {entries : List WalEntry}
    (hstart : replayStart .earliest w.dir = .ok start)
    (hentries : readEntriesAfterLimit w.dir start (some replayBatchSize) = .ok entries)
    (hgap : contiguousEntries (start.map fun position => position.lsn + 1) entries = entries) :
    CallSettles (sampleCall none w).context (sampleCall none w).env (sampleCall none w).world := by
  show CallSettles (sampleContext 1000 "5s") (sampleLocal none) w
  refine callSettles_of_no_runtime rfl policyParses_sampleContext fun start' entries' h h' => ?_
  have hreset : pipelineAutoOffsetReset (sampleContext 1000 "5s").eventSinks = .earliest := by
    decide +kernel
  rw [hreset, hstart] at h
  cases h
  rw [hentries] at h'
  cases h'
  exact hgap

/-- The theorem on the two sample calls without waiting times, the first of which saves all its
work. -/
theorem replayOnceInner_no_redelivery_sample :
    durableCheckpoint (sampleCalls none).1.world'.dir ≠ none ∧
      NoRedelivery [(sampleCalls none).1, (sampleCalls none).2] := by
  obtain ⟨hfinish, hbefore⟩ := sampleCalls_finish none (by decide +kernel)
  refine ⟨by decide +kernel, replayOnceInner_no_redelivery NoFailure _ hfinish
    (List.IsChain.cons_cons hbefore (List.IsChain.singleton _)) fun call hmem => ?_⟩
  unfold sampleCalls at hmem
  rcases List.mem_cons.mp hmem with rfl | hmem
  · exact callSettles_sampleCall (show replayStart _ sampleLog.dir = .ok none by decide +kernel)
      (show readEntriesAfterLimit _ _ _ = .ok (sampleEntries sampleLog) by decide +kernel)
      (by decide +kernel)
  · -- the second call finds nothing more to read
    have hruntime : (sampleCall none sampleLog).env'.runtime = none := by decide +kernel
    have heq := List.mem_singleton.mp hmem
    dsimp only at heq
    rw [hruntime] at heq
    rw [heq]
    exact callSettles_sampleCall
      (show replayStart _ (sampleCall none sampleLog).world'.dir =
        .ok (durableCheckpoint (sampleCall none sampleLog).world'.dir) by decide +kernel)
      (show readEntriesAfterLimit _ _ _ = .ok [] by decide +kernel) rfl

/-- **Replay does redeliver without a failure.** The window of the first two records is sent but not
saved, since its checkpoint is only pending, and the call ends with the third record deferred; the
next call sends the two again. -/
theorem replayOnceInner_redelivers : ∃ first second : FinishedCall,
    (∀ call ∈ [first, second], call.Finishes fun _ => False) ∧ first.Before second ∧
    sentEvents "events" second.world'.trace =
      [.string "a", .string "b", .string "a", .string "b"] ∧ ¬NoRedelivery [first, second] := by
  obtain ⟨hfinish, hbefore⟩ := sampleCalls_finish (some ∅) (by decide +kernel)
  refine ⟨_, _, hfinish, hbefore, by decide +kernel, ?_⟩
  rintro ⟨delivered, hdelivers, -⟩
  cases hdelivers with
  | cons hfirst hrest =>
    rename_i entries delivered
    -- no checkpoint was written, so nothing may have been delivered
    have hdurable : durableCheckpoint (sampleCalls (some ∅)).1.world'.dir = none := by
      decide +kernel
    have hnone : entries = [] := by
      refine List.eq_nil_iff_forall_not_mem.mpr fun entry hentry => ?_
      have hcovered := hfirst.covered entry hentry
      rw [hdurable] at hcovered
      exact not_covered_none entry hcovered
    obtain ⟨events, hevents, hdelivered⟩ := hfirst.trace
    have hworld : (sampleCalls (some ∅)).1.world.trace = [] := by
      unfold sampleCalls
      rfl
    have hsent : sentEvents "events" (sampleCalls (some ∅)).1.world'.trace =
        [.string "a", .string "b"] := by
      decide +kernel
    rw [hevents, hworld, List.nil_append, hdelivered.sent, hnone] at hsent
    cases hsent

end Sample

end Ingest4x.Wal
