import Ingest4x.Replay.Keeps
import Ingest4x.Replay.Safety

/-! # Complete delivery

Within one call the events passed to a sink are a prefix of its deliveries in the order of the log,
and all of them where nothing stops the call: the processor, the windows and the batches only split
the list.

* **`Healthy`** — a directory in which the checkpoint can be written and the cleanup can read.
* **`replayOnceInner_delivers`** — the prefix at every moment, and the whole list at the end. -/

namespace Ingest4x.Wal

open Effect

section Policies

variable [DurationCodec]

/-! ### Batch policies that are not valid -/

/-- A batch policy that is not valid is reported as such. -/
theorem sinkPolicy_error {context : WalReplayContext} {sinkName : String} {issue : ReplayIssue}
    (h : sinkPolicy context sinkName = .error issue) :
    ∃ error, issue = .sinkBatchConfigInvalid error := by
  unfold sinkPolicy sinkBatchPolicy at h
  simp only at h
  split at h
  · cases h
    exact ⟨_, rfl⟩
  · cases h

omit [DurationCodec] in
/-- An issue of the batch policy is not one of the checkpoint. -/
theorem sinkBatchConfigInvalid_ne (error : String) (e : IoError) :
    ReplayError.issue (.sinkBatchConfigInvalid error) ≠ .issue (.checkpointWriteFailed e) := by
  simp [ReplayIssue.sinkBatchConfigInvalid, ReplayIssue.checkpointWriteFailed]

end Policies

section Healthy

variable [RecordCodec]

/-! ### Saving in a healthy directory -/

/-- **A healthy directory**: the node id is there and every segment can be read. -/
structure Healthy (dir : WalDir) : Prop where
  nodeIdFile : dir.nodeIdFile ≠ none
  segments : ∀ row ∈ dir.segments.entries, ∃ entries,
    readSegmentEntriesAfter (segmentPath dir.path row.1) row.1 row.2.bytes segmentHeaderLen none =
      .ok entries

/-- A segment that the replay can read from its header is one that the writer can scan. -/
theorem segmentCovered_of_readable {path : String} {segmentId : Nat} {file : Bytes}
    {entries : List WalEntry}
    (h : readSegmentEntriesAfter (segmentPath path segmentId) segmentId file segmentHeaderLen none =
      .ok entries) (checkpointLsn : Nat) :
    ∃ covered, segmentCovered path segmentId file checkpointLsn = .ok covered := by
  unfold readSegmentEntriesAfter readSegmentHeader at h
  unfold segmentCovered readSegmentRecords scanSegment readSegmentHeader
  cases hexact : Bytes.readExact segmentHeaderLen file with
  | none => simp [hexact] at h
  | some found =>
    obtain ⟨block, reader⟩ := found
    have hdrop : file.drop segmentHeaderLen = reader := by
      obtain ⟨hfile, hlen⟩ := Bytes.readExact_eq_some hexact
      rw [hfile, List.drop_left' hlen]
    simp only [hexact] at h ⊢
    cases hparse : parseSegmentHeader (segmentPath path segmentId) block with
    | error error => simp [hparse] at h
    | ok header =>
      simp only [hparse, hdrop] at h ⊢
      split_ifs at h
      cases hread : readFrames (segmentPath path segmentId) segmentId segmentHeaderLen none
        reader with
      | error error => simp [hread] at h
      | ok found =>
        obtain ⟨all, valid⟩ := found
        simp only [hread, true_and] at h ⊢
        by_cases hmismatch : startLsnMismatch header all = true
        · rw [if_pos hmismatch] at h
          cases h
        · rw [if_neg hmismatch]
          exact ⟨_, rfl⟩

/-- The scan of the bounds reads every segment. -/
theorem readable_of_scanBounds {path : String} {segments : List (Nat × SegmentFile)}
    {scan scan' : BoundsScan} (h : scanBounds path segments scan = .ok scan') :
    ∀ row ∈ segments, ∃ entries, readSegmentEntriesAfter (segmentPath path row.1) row.1
      row.2.bytes segmentHeaderLen none = .ok entries := by
  induction segments generalizing scan with
  | nil => simp
  | cons segment segments ih =>
    obtain ⟨segmentId, file⟩ := segment
    rw [scanBounds] at h
    cases hfound : readSegmentEntriesAfter (segmentPath path segmentId) segmentId file.bytes
      segmentHeaderLen none with
    | error error => simp [hfound] at h
    | ok found =>
      simp only [hfound] at h
      intro row hrow
      rcases List.mem_cons.mp hrow with rfl | hrow
      · exact ⟨found, hfound⟩
      · exact ih h row hrow

/-- The commands of a call keep the directory healthy and never end with an error of the
checkpoint. -/
def KeepsHealthy {α : Type} (c : Replay α) : Prop :=
  ∀ t w, Healthy w.dir → wpc (sysEnv NoFailure) (fun _ _ => True) c (fun _ _ w' => Healthy w'.dir)
    (fun error _ _ => ∀ e, error ≠ .issue (.checkpointWriteFailed e)) t w

/-- Removing a segment keeps the others. -/
theorem Healthy.erase {dir : WalDir} (h : Healthy dir) (segmentId : Nat) :
    Healthy (dir.withSegments (dir.segments.erase segmentId)) :=
  ⟨h.nodeIdFile, fun row hrow => h.segments row (List.mem_of_mem_filter hrow)⟩

/-- The loop of the cleanup succeeds on segments that are there and can be read. -/
theorem wpc_removeCoveredLoop_healthy {τ : Type} {Q : Bool → τ → World → Prop}
    {E : IoError → τ → World → Prop} {t : τ} {w : World} {path : String} (hpath : w.dir.path = path)
    (checkpointLsn keepFromSegment : Nat) (segments : List (Nat × SegmentFile)) (removed : Bool)
    (hw : Healthy w.dir)
    (hthere : ∀ row ∈ segments, row ∈ w.dir.segments.entries)
    (hdistinct : segments.Pairwise fun a b => a.1 < b.1)
    (hQ : ∀ removed w', Healthy w'.dir → Q removed t w') :
    wpc (sysEnv NoFailure) (fun _ _ => True)
      (removeCoveredLoop path checkpointLsn keepFromSegment segments removed) Q E t w := by
  induction segments generalizing removed w with
  | nil => exact hQ removed w hw
  | cons segment segments ih =>
    obtain ⟨segmentId, file⟩ := segment
    obtain ⟨hhead, htail⟩ := List.pairwise_cons.mp hdistinct
    have hmem := hthere _ List.mem_cons_self
    have hrest : ∀ row ∈ segments, row ∈ w.dir.segments.entries :=
      fun row hrow => hthere row (List.mem_cons_of_mem _ hrow)
    rw [removeCoveredLoop, wpc_ite]
    refine ⟨fun _ => ih hpath removed hw hrest htail, fun _ => ?_⟩
    obtain ⟨entries, hread⟩ := hw.segments _ hmem
    obtain ⟨covered, hcovered⟩ := segmentCovered_of_readable hread checkpointLsn
    rw [hpath] at hcovered
    rw [wpc_bind, hcovered, wpc_ofExcept_ok, wpc_ite]
    refine ⟨fun _ => ?_, fun _ => ih hpath removed hw hrest htail⟩
    rw [wpc_bind, wpc_orThrow, wpc_perform]
    refine ⟨trivial, ?_⟩
    rintro r w' (⟨hnone, -⟩ | ⟨-, ⟨rfl, rfl⟩ | ⟨hmay, -⟩⟩)
    · rw [SortedTable.lookup_eq_some.mpr hmem] at hnone
      cases hnone
    · have hpath' : (w.withSegments (w.dir.segments.erase segmentId)).dir.path = path := hpath
      refine ⟨fun _ _ => ih hpath' true (hw.erase segmentId) (fun row hrow => ?_) htail, by simp⟩
      exact List.mem_filter.mpr ⟨hrest row hrow, decide_eq_true (hhead row hrow).ne'⟩
    · exact hmay.elim

/-- The cleanup succeeds. -/
theorem keepsHealthy_cleanup :
    KeepsHealthy (orIssue .checkpointWriteFailed cleanupCoveredSegments) := by
  intro t w hw
  rw [orIssue, wpc_mapError, cleanupCoveredSegments, wpc_bind, wpc_get]
  cases t.state.checkpoint with
  | none => exact hw
  | some watermark =>
    simp only [removeSegmentsCoveredByCheckpoint, readDir]
    rw [wpc_bind, wpc_orThrow, wpc_perform]
    refine ⟨trivial, ?_⟩
    rintro r w' ⟨rfl, rfl | ⟨hmay, -⟩⟩
    · refine ⟨?_, by simp⟩
      rintro _ ⟨⟩
      rw [wpc_bind]
      refine wpc_removeCoveredLoop_healthy rfl _ _ _ false hw (fun _ h => h) w'.dir.segments.sorted
        fun removed w'' hw'' => ?_
      rw [wpc_ite]
      refine ⟨fun _ => ?_, fun _ => hw''⟩
      rw [wpc_orThrow, wpc_perform]
      refine ⟨trivial, ?_⟩
      rintro r w' (⟨rfl, rfl⟩ | ⟨hmay, -⟩)
      · exact ⟨fun _ _ => hw'', by simp⟩
      · exact hmay.elim
    · exact hmay.elim

variable [CheckpointCodec]

/-- A directory with a start position and a node id is healthy. -/
theorem healthy_of_replayStart {reset : AutoOffsetReset} {dir : WalDir}
    {start : Option WalPosition} (h : replayStart reset dir = .ok start)
    (hnode : dir.nodeIdFile ≠ none) : Healthy dir := by
  refine ⟨hnode, ?_⟩
  unfold replayStart readWalBounds at h
  cases hscan : scanBounds dir.path dir.segments.entries ⟨none, none, 0, none⟩ with
  | error error => simp [hscan, Except.map] at h
  | ok scan => exact readable_of_scanBounds hscan

/-- Writing the checkpoint and reading the clock succeed. -/
theorem keepsHealthy_flush : KeepsHealthy (orIssue .checkpointWriteFailed flushPendingCheckpoint) := by
  intro t w hw
  rw [orIssue, wpc_mapError, flushPendingCheckpoint, wpc_bind, wpc_get]
  cases t.state.pendingCheckpoint with
  | none => exact hw
  | some position =>
    simp only [writeCheckpoint, readDir, bind_assoc]
    rw [wpc_bind, wpc_orThrow, wpc_perform]
    refine ⟨trivial, ?_⟩
    rintro r w' ⟨rfl, rfl | ⟨hmay, -⟩⟩
    · refine ⟨?_, by simp⟩
      rintro _ ⟨⟩
      obtain ⟨text, htext⟩ := Option.ne_none_iff_exists'.mp hw.nodeIdFile
      rw [readNodeId, htext]
      simp only [wpc_bind, wpc_ofExcept_ok, wpc_perform]
      refine ⟨trivial, ?_⟩
      rintro updatedAt w'' rfl
      rw [wpc_orThrow, wpc_perform]
      refine ⟨trivial, ?_⟩
      rintro r w' (⟨rfl, rfl⟩ | ⟨hmay, -⟩)
      · refine ⟨fun _ _ => ⟨trivial, ?_⟩, by simp⟩
        rintro now w' ⟨-, rfl⟩
        exact ⟨hw.nodeIdFile, hw.segments⟩
      · exact hmay.elim
    · exact hmay.elim

variable [DurationCodec] [JsonCodec]

omit [CheckpointCodec] [JsonCodec] in
theorem keepsHealthy_sendSinkWindow (context : WalReplayContext) (sinkName : String)
    (events : List SinkDeliveryEvent) : KeepsHealthy (sendSinkWindow context sinkName events) := by
  intro t w hw
  rw [sendSinkWindow, wpc_bind]
  cases hparse : sinkPolicy context sinkName with
  | error issue =>
    obtain ⟨error, rfl⟩ := sinkPolicy_error hparse
    exact sinkBatchConfigInvalid_ne error
  | ok policy =>
    simp only [Result.mapError_ok, wpc_ofExcept_ok, wpc_mapError]
    rw [sendSinkEventsInBatches_eq sinkName (one_le_maxEvents hparse)]
    refine wpc_imp (wpc_forEach (fun _ _ w' => Healthy w'.dir) _ ?_ hw) (fun _ _ _ h => h)
      fun _ _ _ (h : False) => h.elim
    rintro pre batch post t w - hw
    rw [sendBatchTo, sendSinkBatch, wpc_bind, wpc_perform]
    refine ⟨trivial, ?_⟩
    rintro r w' ⟨rfl, rfl | ⟨hmay, -⟩⟩
    · exact hw
    · exact hmay.elim

omit [CheckpointCodec] [JsonCodec] in
theorem keepsHealthy_sinksDeferred (context : WalReplayContext)
    (sinkEvents : SortedTable String (List SinkDeliveryEvent)) :
    KeepsHealthy (sinksDeferredByBatchTimeout context sinkEvents) := by
  intro t w hw
  rw [sinksDeferredByBatchTimeout, wpc_bind, wpc_get, wpc_ite]
  refine ⟨fun _ => hw, fun _ => ?_⟩
  cases t.runtime with
  | none => exact hw
  | some pending =>
    simp only [wpc_bind, wpc_perform]
    refine ⟨trivial, ?_⟩
    rintro now w' ⟨-, rfl⟩
    cases hloop : sinksDeferredLoop context now sinkEvents.entries [] pending with
    | mk deferred pending' =>
    simp only [wpc_set]
    cases deferred with
    | ok sinks => exact hw
    | error issue =>
      obtain ⟨row, -, hpolicy⟩ := sinksDeferredLoop_error sinkEvents.entries (congrArg Prod.fst hloop)
      obtain ⟨error, rfl⟩ := sinkPolicy_error hpolicy
      exact sinkBatchConfigInvalid_ne error

omit [JsonCodec] in
/-- The parts of a call keep the directory healthy. -/
theorem keptByParts_healthy (context : WalReplayContext) :
    KeptByParts context (fun _ w => Healthy w.dir)
      fun error _ _ => ∀ e, error ≠ .issue (.checkpointWriteFailed e) where
  flush := keepsHealthy_flush
  cleanup := keepsHealthy_cleanup
  send := keepsHealthy_sendSinkWindow context
  deferral := keepsHealthy_sinksDeferred context
  state _ _ _ h := h
  sent _ _ _ h := h
  tick _ _ h := h
  quarantine _ _ _ _ h := h
  gap _ _ expected actual _ e := by
    simp [ReplayIssue.walLsnGap, ReplayIssue.checkpointWriteFailed]

/-- **A call in a healthy directory never fails to save**, where nothing fails. -/
theorem keepsHealthy_replayFrom (context : WalReplayContext) (policy : CheckpointFlushPolicy)
    (start : Option WalPosition) (entries : List WalEntry) :
    KeepsHealthy (replayFrom context policy start entries) :=
  (keptByParts_healthy context).replayFrom policy start entries

end Healthy

/-! ### The sinks of a window -/

section Sinks

/-- Grouping only makes rows for sinks that are there. -/
theorem groupDeliveriesLoop_sinks {context : WalReplayContext} {deliveries : List ProcessorDelivery}
    {table grouped : SortedTable String (List Value)}
    (h : groupDeliveriesLoop context deliveries table = .ok grouped)
    (htable : ∀ row ∈ table.entries, (context.eventSinks.lookup row.1).isSome) :
    ∀ row ∈ grouped.entries, (context.eventSinks.lookup row.1).isSome := by
  induction deliveries generalizing table with
  | nil =>
    cases h
    exact htable
  | cons delivery deliveries ih =>
    rw [groupDeliveriesLoop] at h
    split_ifs at h with htrim hsink
    refine ih h fun row hrow => ?_
    rcases SortedTable.mem_entries_insert.mp hrow with rfl | ⟨hrow, -⟩
    · exact hsink
    · exact htable row hrow

variable [JsonCodec]

/-- The deliveries of an entry are for sinks that are there. -/
theorem processEntry_sinks {context : WalReplayContext} {entry : WalEntry}
    {grouped : SortedTable String (List Value)}
    (h : processEntry context entry = .deliveries grouped) :
    ∀ row ∈ grouped.entries, (context.eventSinks.lookup row.1).isSome := by
  unfold processEntry groupDeliveriesBySink at h
  cases hprocess : processRecord context entry.record with
  | error issue =>
    simp only [hprocess] at h
    split_ifs at h
  | ok deliveries =>
    simp only [hprocess] at h
    cases hgroup : groupDeliveriesLoop context deliveries ∅ with
    | error issue =>
      simp only [hgroup] at h
      split_ifs at h
    | ok found =>
      simp only [hgroup, Processed.deliveries.injEq] at h
      subst h
      exact groupDeliveriesLoop_sinks hgroup (by simp)

/-- **The sinks of a window are there.** -/
theorem sinkEventsByName_sinks {context : WalReplayContext} {batch : List ReplayEntryDeliveries}
    (h : WellGrouped context batch) (checkpoint : Option WalPosition) :
    ∀ row ∈ (sinkEventsByName checkpoint batch).entries,
      (context.eventSinks.lookup row.1).isSome := by
  -- adding rows of sinks that are there keeps the table so
  have hadd : ∀ (entry : WalEntry) (rows : List (String × List Value))
      (table : SortedTable String (List SinkDeliveryEvent)),
      (∀ row ∈ rows, (context.eventSinks.lookup row.1).isSome) →
      (∀ row ∈ table.entries, (context.eventSinks.lookup row.1).isSome) →
      ∀ row ∈ (rows.foldl (fun table row =>
        if row.2 = [] then table
        else table.insert row.1
          ((table.lookup row.1).getD [] ++ sinkDeliveryEvents entry row.2)) table).entries,
        (context.eventSinks.lookup row.1).isSome := by
    intro entry rows
    induction rows with
    | nil => exact fun table _ htable => htable
    | cons row rows ih =>
      intro table hrows htable
      obtain ⟨sinkName, events⟩ := row
      refine ih _ (fun row hrow => hrows row (List.mem_cons_of_mem _ hrow)) ?_
      simp only
      split_ifs
      · exact htable
      · intro row hrow
        rcases SortedTable.mem_entries_insert.mp hrow with rfl | ⟨hrow, -⟩
        · exact hrows _ List.mem_cons_self
        · exact htable row hrow
  suffices H : ∀ table : SortedTable String (List SinkDeliveryEvent),
      (∀ row ∈ table.entries, (context.eventSinks.lookup row.1).isSome) →
      ∀ row ∈ (batch.foldl (fun table item => if checkpointCoversEntry checkpoint item.entry then
        table else addEntryDeliveries item table) table).entries,
        (context.eventSinks.lookup row.1).isSome from H ∅ (by simp)
  induction batch with
  | nil => exact fun table htable => htable
  | cons item batch ih =>
    intro table htable
    refine ih (fun item hitem => h item (List.mem_cons_of_mem _ hitem)) _ ?_
    simp only
    split_ifs
    · exact htable
    · exact hadd _ _ _ (processEntry_sinks (h item List.mem_cons_self)) htable

/-- Without sinks nothing is due. -/
theorem expectedEvents_of_no_sinks {context : WalReplayContext}
    (h : context.eventSinks.entries = []) (sink : String) (entries : List WalEntry) :
    expectedEvents context sink entries = [] := by
  rw [expectedEvents, List.flatMap_eq_nil_iff]
  intro entry _
  have hlookup : ∀ name, context.eventSinks.lookup name = none := by
    intro name
    rw [SortedTable.lookup_eq_none, h]
    simp
  unfold recordDeliveries
  cases processRecord context entry.record with
  | error issue => rfl
  | ok deliveries =>
    cases deliveries with
    | nil => rfl
    | cons delivery deliveries =>
      simp [validTarget, hlookup, eventsFor]

end Sinks

section Delivery

variable [RecordCodec] [CheckpointCodec] [DurationCodec] [JsonCodec]

/-! ### The theorem -/

/-- **Something is deferred**: a sink waits for more events of the last window of the call. -/
def Deferred (context : WalReplayContext) (t : ReplayLocal) (w : World) : Prop :=
  ∃ (call : ReplayCall) (w' : World), call.From context t w w' ∧ call.Defers

omit [RecordCodec] [CheckpointCodec] [DurationCodec] in
/-- Without waiting times there are none after a move. -/
theorem ReplayClock.move_runtime_none {policy : CheckpointFlushPolicy} {clock : Nat → Nat}
    {rc : ReplayClock} (h : rc.env.runtime = none) (m : ReplayMove) :
    (rc.move policy clock m).env.runtime = none := by
  have hflush : ∀ rc : ReplayClock, rc.env.runtime = none →
      (rc.flush clock).env.runtime = none := by
    intro rc h
    unfold ReplayClock.flush
    split
    · exact h
    · exact h
  cases m with
  | quarantine entry issue => exact h
  | window batch =>
    have hmark : (rc.mark batch).env.runtime = none := by
      rw [ReplayClock.mark, h]
      rfl
    rw [ReplayClock.move]
    split_ifs
    · exact h
    · rw [ReplayClock.flushIfDue]
      split_ifs
      · exact hflush _ hmark
      · exact hflush _ hmark
      · exact hmark

omit [RecordCodec] [CheckpointCodec] [DurationCodec] in
theorem ReplayClock.after_runtime_none {policy : CheckpointFlushPolicy} {clock : Nat → Nat}
    {rc : ReplayClock} (h : rc.env.runtime = none) (moves : List ReplayMove) :
    (rc.after policy clock moves).env.runtime = none := by
  induction moves generalizing rc with
  | nil => exact h
  | cons m moves ih => exact ih (ReplayClock.move_runtime_none h m)

omit [RecordCodec] [CheckpointCodec] in
/-- Without waiting times no window is deferred. -/
theorem ReplayCall.deferral_of_no_runtime (call : ReplayCall)
    (h : call.clock.env.runtime = none) (loop : ReplayLoop) : call.deferral loop = .ok [] := by
  rw [ReplayCall.deferral, ReplayCall.after, ReplayClock.after_runtime_none h]

/-- Without waiting times nothing is deferred. -/
theorem not_deferred_of_no_runtime {context : WalReplayContext} {t : ReplayLocal} {w : World}
    (h : t.runtime = none) : ¬Deferred context t w := by
  rintro ⟨call, w', hfrom, loop, sinks, hending, hdeferral, hne⟩
  have hruntime : call.clock.env.runtime = none := by
    rw [hfrom.clock_eq]
    exact h
  rw [call.deferral_of_no_runtime hruntime] at hdeferral
  exact hne (Except.ok.inj hdeferral).symm

/-- The sinks were passed these events since the world `w`. -/
def SentSince (w : World) (due : String → List Value) (v : ReplayView) : Prop :=
  ∃ events, v.trace = (replayView w).trace ++ events ∧ ∀ sink, sentEvents sink events = due sink

/-- Why a call ends early, beside an LSN gap. -/
inductive EndsEarly (mayFail : SysOp → Prop) (context : WalReplayContext)
    (nodeIdFile : Option String) : ReplayError → Prop
  | start (error : IoError) (h : WriteMayFail mayFail nodeIdFile) :
    EndsEarly mayFail context nodeIdFile (.issue (.checkpointCorrupt error))
  | read (error : IoError) (h : mayFail .readDir) :
    EndsEarly mayFail context nodeIdFile (.issue (.walReadFailed error))
  | save (error : IoError) :
    EndsEarly mayFail context nodeIdFile (.issue (.checkpointWriteFailed error))
  | send (sink : String) (lsn : Nat) (error : String) (events : List Value)
      (metadata : EventSinkBatchMetadata) (h : mayFail (.sendBatch sink events metadata)) :
    EndsEarly mayFail context nodeIdFile (.issue (.sinkSendFailed sink lsn error))
  | policy (sink : String) (issue : ReplayIssue) (hsink : (context.eventSinks.lookup sink).isSome)
      (h : sinkPolicy context sink = .error issue) :
    EndsEarly mayFail context nodeIdFile (.issue issue)

variable {context : WalReplayContext} {t : ReplayLocal} {w w' : World} {call : ReplayCall}

/-- A sink of a window whose batch policy is not valid is a sink of the pipeline. -/
theorem ReplayCall.From.window_issue (h : call.From context t w w') {done : List ReplayMove}
    {batch : List ReplayEntryDeliveries} (hwindow : call.Window done batch)
    {pre post : List (String × List SinkDeliveryEvent)} {row : String × List SinkDeliveryEvent}
    {issue : ReplayIssue} (hsplit : (call.sinks done batch).entries = pre ++ row :: post)
    (hissue : sinkPolicy call.context row.1 = .error issue) :
    ∃ sink, (context.eventSinks.lookup sink).isSome ∧ sinkPolicy context sink = .error issue := by
  have hrow : row ∈ (call.sinks done batch).entries := by
    rw [hsplit]
    exact List.mem_append_right _ List.mem_cons_self
  have hsinks := sinkEventsByName_sinks hwindow.wellGrouped _ row hrow
  rw [h.context_eq] at hissue hsinks
  exact ⟨row.1, hsinks, hissue⟩

/-- So is one whose batch policy is found invalid when deferral is decided. -/
theorem ReplayCall.From.deferral_issue (h : call.From context t w w') {loop : ReplayLoop}
    {issue : ReplayIssue} (hending : call.plan.ending = .trailing loop)
    (herror : call.deferral loop = .error issue) :
    ∃ sink, (context.eventSinks.lookup sink).isSome ∧ sinkPolicy context sink = .error issue := by
  have hwindow : call.Window call.plan.moves loop.replayBatch := Or.inr ⟨rfl, loop, hending, rfl⟩
  obtain ⟨row, hrow, hissue⟩ := call.deferral_error herror
  have hsinks := sinkEventsByName_sinks hwindow.wellGrouped _ row hrow
  rw [h.context_eq] at hissue hsinks
  exact ⟨row.1, hsinks, hissue⟩

/-- The early ends of a call, with what was sent at an LSN gap. -/
theorem ReplayCall.From.exits_delivers {mayFail : SysOp → Prop} (h : call.From context t w w') :
    ReplayExits mayFail call fun error _ v => EndsEarly mayFail context w.dir.nodeIdFile error ∨
      (∃ expected actual, error = .issue (.walLsnGap expected actual)) ∧
        SentSince w (fun sink => expectedEvents context sink call.all) v where
  send sinkName lsn error events metadata _ _ hmay _ :=
    Or.inl (.send sinkName lsn error events metadata hmay)
  write error _ _ _ _ := Or.inl (.save error)
  cleanup error _ _ _ _ _ := Or.inl (.save error)
  policy done batch issue _ _ _ pre row post _ _ hsends _ _ _ _ hsplit hissue _ _ := by
    obtain ⟨sink, hsinks, hissue⟩ := h.window_issue hsends.window hsplit hissue
    exact Or.inl (.policy sink issue hsinks hissue)
  defer issue _ _ _ _ loop hending herror _ _ _ _ := by
    obtain ⟨sink, hsinks, hissue⟩ := h.deferral_issue hending herror
    exact Or.inl (.policy sink issue hsinks hissue)
  stop issue saved unsaved _ v hending hall _ _ hat := by
    obtain ⟨expected, actual, -, rfl⟩ := planEntries_stop hending
    obtain ⟨events, hevents, hdelivered⟩ := hat.trace
    rw [h.context_eq] at hdelivered
    refine Or.inr ⟨⟨expected, actual, rfl⟩, events, ?_, fun sink => ?_⟩
    · rw [hevents, h.view_eq, replayView, replayView, h.moment.trace]
    · rw [hall, hdelivered.sent]

/-- **The specification of a call for delivery.** -/
theorem wpc_replayOnceInner_delivers (mayFail : SysOp → Prop) {policy : CheckpointFlushPolicy}
    {start : Option WalPosition} {entries : List WalEntry}
    (hpolicy : checkpointFlushPolicy context.checkpoint = .ok policy)
    (hstart : replayStart (pipelineAutoOffsetReset context.eventSinks) w.dir = .ok start)
    (hentries : readEntriesAfterLimit w.dir start (some replayBatchSize) = .ok entries) :
    wpc (sysEnv mayFail) (fun _ _ => True) (replayOnceInner context)
      (fun _ _ w' => Deferred context t w ∨ SentSince w (fun sink => expectedEvents context sink
        (contiguousEntries (start.map fun position => position.lsn + 1) entries)) (replayView w'))
      (fun error _ w' => EndsEarly mayFail context w.dir.nodeIdFile error ∨
        (∃ expected actual, error = .issue (.walLsnGap expected actual)) ∧
          SentSince w (fun sink => expectedEvents context sink
            (contiguousEntries (start.map fun position => position.lsn + 1) entries))
            (replayView w')) t w := by
  refine wpc_replayOnceInner (fun _ _ _ _ => trivial) (fun hempty => Or.inr ?_)
    (fun issue hissue => ?_) (fun error _ _ hreason _ => Or.inl ?_)
    (fun error _ _ hreason _ => Or.inl ?_) fun call w' hfrom => ?_
  · refine ⟨[], (List.append_nil _).symm, fun sink => ?_⟩
    exact (expectedEvents_of_no_sinks hempty sink _).symm
  · rw [hpolicy] at hissue
    cases hissue
  · rcases hreason with hnone | hmay
    · exact absurd hstart (hnone start)
    · exact .start error hmay
  · rcases hreason with ⟨start', hstart', hnone⟩ | hmay
    · rw [hstart] at hstart'
      cases hstart'
      exact absurd hentries (hnone entries)
    · exact .read error hmay
  · have hstart' := hfrom.start_eq
    rw [hstart] at hstart'
    cases hstart'
    have hentries' := hfrom.entries_eq
    rw [hentries] at hentries'
    cases hentries'
    have hview : wpc (viewEnv mayFail) (AtMoment call.context call.view call.all)
        (replayFrom call.context call.policy call.start call.entries)
        (fun _ _ v => Deferred context t w ∨
          SentSince w (fun sink => expectedEvents context sink call.all) v)
        (fun error _ v => EndsEarly mayFail context w.dir.nodeIdFile error ∨
          (∃ expected actual, error = .issue (.walLsnGap expected actual)) ∧
            SentSince w (fun sink => expectedEvents context sink call.all) v)
        call.clock.env call.view := by
      refine wpc_replayFrom hfrom.started hfrom.exits_delivers (fun n rc v hat => Or.inr ?_)
        fun hdefers _ _ _ _ _ _ _ _ => Or.inl ⟨call, w', hfrom, hdefers⟩
      obtain ⟨events, hevents, hdelivered⟩ := hat.trace
      rw [hfrom.context_eq, List.append_nil] at hdelivered
      refine ⟨events, ?_, hdelivered.sent⟩
      rw [hevents, hfrom.view_eq, replayView, replayView, hfrom.moment.trace]
    rw [hfrom.view_eq] at hview
    exact wpc_mono (wpc_view (sysEnv_viewEnv mayFail) hview) (fun _ _ _ => trivial)
      (fun _ _ _ h => h) fun _ _ _ h => h

/-- A call where nothing fails does not end with an issue of the checkpoint. -/
theorem wpc_replayOnceInner_healthy {start : Option WalPosition}
    (hstart : replayStart (pipelineAutoOffsetReset context.eventSinks) w.dir = .ok start)
    (hnode : w.dir.nodeIdFile ≠ none) :
    wpc (sysEnv NoFailure) (fun _ _ => True) (replayOnceInner context) (fun _ _ _ => True)
      (fun error _ _ => ∀ e, error ≠ .issue (.checkpointWriteFailed e)) t w := by
  have hhealthy := healthy_of_replayStart hstart hnode
  refine wpc_replayOnceInner (fun _ _ _ _ => trivial) (fun _ => trivial) (fun issue hissue e => ?_)
    (fun error _ _ _ _ e => ?_) (fun error _ _ _ _ e => ?_) fun call w' hfrom => ?_
  · unfold checkpointFlushPolicy at hissue
    split at hissue
    · cases hissue
      simp [ReplayIssue.checkpointConfigInvalid, ReplayIssue.checkpointWriteFailed]
    · cases hissue
  · simp [ReplayIssue.checkpointCorrupt, ReplayIssue.checkpointWriteFailed]
  · simp [ReplayIssue.walReadFailed, ReplayIssue.checkpointWriteFailed]
  · have hw' : Healthy w'.dir := by
      refine ⟨by rw [hfrom.moment.nodeIdFile]; exact hnode, ?_⟩
      rw [hfrom.moment.path, hfrom.moment.segments]
      exact hhealthy.segments
    exact wpc_imp (keepsHealthy_replayFrom _ _ _ _ _ w' hw') (fun _ _ _ _ => trivial)
      fun _ _ _ h => h

omit [RecordCodec] [CheckpointCodec] [JsonCodec] in
/-- The text of an LSN gap is not that of another early end. -/
theorem EndsEarly.ne_walLsnGap {mayFail : SysOp → Prop} {nodeIdFile : Option String}
    {error : ReplayError} (h : EndsEarly mayFail context nodeIdFile error) (expected actual : Nat) :
    error ≠ .issue (.walLsnGap expected actual) := by
  cases h with
  | start error h => simp [ReplayIssue.checkpointCorrupt, ReplayIssue.walLsnGap]
  | read error h =>
    simp only [ReplayIssue.walReadFailed, ReplayIssue.walLsnGap, ne_eq, ReplayError.issue.injEq,
      ReplayIssue.wal.injEq, not_and]
    intro hcode
    split_ifs at hcode <;> simp at hcode
  | save error => simp [ReplayIssue.checkpointWriteFailed, ReplayIssue.walLsnGap]
  | send sink lsn error events metadata h => simp [ReplayIssue.sinkSendFailed, ReplayIssue.walLsnGap]
  | policy sink issue hsink h =>
    obtain ⟨error, rfl⟩ := sinkPolicy_error h
    simp [ReplayIssue.sinkBatchConfigInvalid, ReplayIssue.walLsnGap]

/-- **Each sink's events are delivered completely and in order.** On a readable log, within one
call: at every moment, under any failures, the events passed to a sink are a prefix of its
deliveries for the entries read, up to the first LSN gap; where the call returns without deferring
or stops at the gap, they are all of them; and a call where nothing fails and every batch policy is
valid ends in one of these ways. -/
theorem replayOnceInner_delivers (context : WalReplayContext) (t : ReplayLocal) (w : World)
    {policy : CheckpointFlushPolicy} {start : Option WalPosition} {entries : List WalEntry}
    (hpolicy : checkpointFlushPolicy context.checkpoint = .ok policy)
    (hstart : replayStart (pipelineAutoOffsetReset context.eventSinks) w.dir = .ok start)
    (hentries : readEntriesAfterLimit w.dir start (some replayBatchSize) = .ok entries) :
    let due sink := expectedEvents context sink
      (contiguousEntries (start.map fun position => position.lsn + 1) entries)
    (∀ mayFail c, Reaches (sysEnv mayFail) ((replayOnceInner context).start t, w) c →
      ∃ events, c.2.trace = w.trace ++ events ∧ ∀ sink, sentEvents sink events <+: due sink) ∧
    (∀ mayFail result t' w', Runs (sysEnv mayFail) ((replayOnceInner context).start t) w
        (result, t') w' →
      ((∃ n, result = .ok n) ∨
        ∃ expected actual, result = .error (.issue (.walLsnGap expected actual))) →
      Deferred context t w ∨
        ∃ events, w'.trace = w.trace ++ events ∧ ∀ sink, sentEvents sink events = due sink) ∧
    (w.dir.nodeIdFile ≠ none →
      (∀ sink, (context.eventSinks.lookup sink).isSome → PolicyParses context sink) →
      ∀ result t' w', Runs (sysEnv NoFailure) ((replayOnceInner context).start t) w
        (result, t') w' →
      (∃ n, result = .ok n) ∨
        ∃ expected actual, result = .error (.issue (.walLsnGap expected actual))) := by
  refine ⟨fun mayFail c hreach => ?_, fun mayFail result t' w' hrun hresult => ?_,
    fun hnode hparses result t' w' hrun => ?_⟩
  · obtain ⟨events, hevents, hsafe⟩ := checkpointSafe_of_reaches hreach
    exact ⟨events, hevents, (hsafe start hstart).sent entries hentries⟩
  · have hspec := wp_runs (wpc_replayOnceInner_delivers mayFail hpolicy hstart hentries) hrun
    have hsent : Deferred context t w ∨ SentSince w (fun sink => expectedEvents context sink
        (contiguousEntries (start.map fun position => position.lsn + 1) entries))
        (replayView w') := by
      rcases hresult with ⟨n, rfl⟩ | ⟨expected, actual, rfl⟩
      · exact hspec
      · rcases hspec with hearly | ⟨-, hsent⟩
        · exact absurd rfl (hearly.ne_walLsnGap expected actual)
        · exact Or.inr hsent
    refine hsent.imp_right ?_
    rintro ⟨events, hevents, hsent⟩
    obtain ⟨events', hevents', hfilter⟩ := (changed_of_reaches Relation.ReflTransGen.refl hrun).trace
    have heq : events = events' := by
      have h : (replayView w).trace ++ events = (replayView w).trace ++ events' := by
        rw [← hevents, replayView, replayView, hevents', List.filter_append, hfilter]
      exact List.append_cancel_left h
    exact ⟨events', hevents', heq ▸ hsent⟩
  · have hspec := wp_runs (wpc_replayOnceInner_delivers NoFailure hpolicy hstart hentries) hrun
    have hhealthy := wp_runs (wpc_replayOnceInner_healthy hstart hnode) hrun
    cases result with
    | ok n => exact Or.inl ⟨n, rfl⟩
    | error error =>
      rcases hspec with hearly | ⟨⟨expected, actual, rfl⟩, -⟩
      · cases hearly with
        | start error h =>
          rcases h with h | h | ⟨file, h⟩
          · exact h.elim
          · exact absurd h hnode
          · exact h.elim
        | read error h => exact h.elim
        | save error => exact absurd rfl (hhealthy error)
        | send sink lsn error events metadata h => exact h.elim
        | policy sink issue hsink h =>
          obtain ⟨policy, hparse⟩ := hparses sink hsink
          rw [h] at hparse
          cases hparse
      · exact Or.inr ⟨expected, actual, rfl⟩

/-- **Something is missing at the end of a call**, though no send may fail and nothing is deferred: a
sink was not passed all its events of the entries read. -/
def Undelivered (mayFail : SysOp → Prop) (context : WalReplayContext) (t : ReplayLocal)
    (w : World) : Prop :=
  (∀ sink events metadata, ¬mayFail (.sendBatch sink events metadata)) ∧ ¬Deferred context t w ∧
    ∃ start entries result t' w',
      replayStart (pipelineAutoOffsetReset context.eventSinks) w.dir = .ok start ∧
      readEntriesAfterLimit w.dir start (some replayBatchSize) = .ok entries ∧
      Runs (sysEnv mayFail) ((replayOnceInner context).start t) w (result, t') w' ∧
      ∃ sink, ∀ events, w'.trace = w.trace ++ events →
        sentEvents sink events ≠ expectedEvents context sink entries

/-- An execution in which something is missing. -/
theorem undelivered_of_exec {mayFail : SysOp → Prop} {fails : SysOp → Option IoError}
    (hfails : ∀ o, fails o ≠ none → mayFail o)
    (hsends : ∀ sink events metadata, ¬mayFail (.sendBatch sink events metadata))
    (hruntime : t.runtime = none) (htrace : w.trace = []) {start : Option WalPosition}
    {entries : List WalEntry}
    (hstart : replayStart (pipelineAutoOffsetReset context.eventSinks) w.dir = .ok start)
    (hentries : readEntriesAfterLimit w.dir start (some replayBatchSize) = .ok entries)
    (sink : String)
    (hne : sentEvents sink (((replayOnceInner context).start t).exec (sysAnswer fails) w).2.trace ≠
      expectedEvents context sink entries) : Undelivered mayFail context t w := by
  refine ⟨hsends, not_deferred_of_no_runtime hruntime, start, entries, _, _, _, hstart, hentries,
    runs_sysAnswer hfails _ w, sink, fun events hevents => ?_⟩
  rw [htrace, List.nil_append] at hevents
  rwa [← hevents]

end Delivery

/-! ### Sample calls -/

section Sample

attribute [local instance] referenceCodec referenceCheckpointCodec referenceDurationCodec
  referenceJsonCodec

/-- The entries of a sample log. -/
def sampleEntries (w : World) : List WalEntry := (readEntriesAfter w.dir none).toOption.getD []

/-- The delivery theorem on the sample call: the sink gets the events of all three records. -/
theorem replayOnceInner_delivers_sample : ∃ events, sampleRun.2.trace = sampleLog.trace ++ events ∧
    sentEvents "events" events = [.string "a", .string "b", .string "c"] := by
  obtain ⟨policy, hpolicy⟩ :
      ∃ policy, checkpointFlushPolicy (sampleContext 1000 "5s").checkpoint = .ok policy := by
    have hsome : (checkpointFlushPolicy (sampleContext 1000 "5s").checkpoint).toOption.isSome := by
      decide +kernel
    cases h : checkpointFlushPolicy (sampleContext 1000 "5s").checkpoint with
    | ok policy => exact ⟨policy, rfl⟩
    | error issue =>
      rw [h] at hsome
      cases hsome
  obtain ⟨-, hdelivers, -⟩ := replayOnceInner_delivers (sampleContext 1000 "5s") (sampleLocal none)
    sampleLog hpolicy (show replayStart _ _ = .ok none by decide +kernel)
    (show readEntriesAfterLimit _ _ _ = .ok (sampleEntries sampleLog) by decide +kernel)
  rcases hdelivers (fun _ => False) sampleRun.1.1 sampleRun.1.2 sampleRun.2 runs_sampleRun
    (Or.inl ⟨3, by decide +kernel⟩) with hdeferred | ⟨events, hevents, hsent⟩
  · exact absurd hdeferred (not_deferred_of_no_runtime rfl)
  · refine ⟨events, hevents, ?_⟩
    rw [hsent]
    decide +kernel

/-- Two records with an LSN gap between them. -/
def gapLog : World := sampleWorld [(1, sampleFile 1 1 [(1, "a"), (3, "c")])]

/-- The checkpoint cannot be written. -/
def checkpointWriteFails : SysOp → Option IoError
  | .writeCheckpointFile _ => some (.other "No space left on device")
  | _ => none

/-- **Not every call without a failed send and without deferral delivers everything**: one stops at
an LSN gap, one because the checkpoint cannot be written, one because a batch timeout is not
valid. -/
theorem replayOnceInner_undelivered :
    Undelivered NoFailure (sampleContext 1000 "5s") (sampleLocal none) gapLog ∧
    Undelivered (fun o => checkpointWriteFails o ≠ none) (sampleContext 1 "5s") (sampleLocal none)
      sampleLog ∧
    Undelivered NoFailure (sampleContext 1000 "soon") (sampleLocal none) sampleLog := by
  refine ⟨undelivered_of_exec (fun _ h => absurd rfl h) (fun _ _ _ => not_false) rfl rfl
      (show replayStart _ _ = .ok none by decide +kernel)
      (show readEntriesAfterLimit _ _ _ = .ok (sampleEntries gapLog) by decide +kernel) "events"
      (by decide +kernel),
    undelivered_of_exec (fun _ h => h) (fun _ _ _ => not_not.mpr rfl) rfl rfl
      (show replayStart _ _ = .ok none by decide +kernel)
      (show readEntriesAfterLimit _ _ _ = .ok (sampleEntries sampleLog) by decide +kernel) "events"
      (by decide +kernel),
    undelivered_of_exec (fun _ h => absurd rfl h) (fun _ _ _ => not_false) rfl rfl
      (show replayStart _ _ = .ok none by decide +kernel)
      (show readEntriesAfterLimit _ _ _ = .ok (sampleEntries sampleLog) by decide +kernel) "events"
      (by decide +kernel)⟩

end Sample

end Ingest4x.Wal
