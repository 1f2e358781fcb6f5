import Ingest4x.Effect.Maintains
import Ingest4x.Lifecycle.Journal
import Ingest4x.Replay.Outcome
import Ingest4x.Replay.Resume

/-! # Replaying a journal

A replay call goes on at the checkpoint, which is never before the segments that are kept. It writes the
checkpoint only for the ends of entries that it has read, under the persisted node id, and it removes
only segments before the checkpoint on disk.

* **`WholeLog.replayStart`** — where a call starts, with `WholeLog.readEntriesAfterLimit` for what it
  reads.
* **`CheckpointWritten`** — the checkpoint file is the one from before, or a call has written it, with
  `keepsWritten_replayFrom`.
* **`WholeLog.cleaned`** — the whole log stays what it is. -/

namespace Ingest4x.Wal

open Effect

variable [RecordCodec] [CheckpointCodec]

/-! ### What a call writes into the checkpoint file -/

/-- The two files that a call reads and may write. -/
structure FileView where
  nodeIdFile : Option String
  checkpointFile : Option Bytes

/-- **The files of a world.** -/
def fileView (w : World) : FileView := ⟨w.dir.nodeIdFile, w.dir.checkpointFile⟩

/-- **The environment of the files.** -/
def fileEnv : Env SysOp SysResp FileView
  | .readDir, v, r, v' => v' = v ∧ ∀ dir, r = .ok dir → dir.nodeIdFile = v.nodeIdFile
  | .writeNodeIdFile _, _, _, _ => True
  | .writeCheckpointFile file, v, _, v' => v' = v ∨ v' = ⟨v.nodeIdFile, some file⟩
  | _, v, _, v' => v' = v

omit [RecordCodec] [CheckpointCodec] in
/-- **The files under an operation.** -/
theorem sysEnv_fileEnv (mayFail : SysOp → Prop) (o : SysOp) (w : World) (r : SysResp o) (w' : World)
    (h : sysEnv mayFail o w r w') : fileEnv o (fileView w) r (fileView w') := by
  cases o with
  | createDirAll =>
    have h : Fallible _ w (· = w) r w' := h
    rcases h with ⟨-, rfl⟩ | ⟨-, -, rfl⟩ <;> rfl
  | acquireWalLock =>
    have h : Fallible _ w (· = w) r w' := h
    rcases h with ⟨-, rfl⟩ | ⟨-, -, rfl⟩ <;> rfl
  | syncDirectory site =>
    have h : Fallible _ w (· = w) r w' := h
    rcases h with ⟨-, rfl⟩ | ⟨-, -, rfl⟩ <;> rfl
  | readDir =>
    obtain ⟨rfl, rfl | ⟨-, e, rfl⟩⟩ := h
    · refine ⟨rfl, ?_⟩
      rintro _ ⟨⟩
      rfl
    · refine ⟨rfl, ?_⟩
      rintro _ ⟨⟩
  | nowMs =>
    obtain rfl := h
    rfl
  | availableSpace =>
    obtain ⟨rfl, -⟩ := h
    rfl
  | newUuid =>
    obtain ⟨rfl, -⟩ := h
    rfl
  | instantNow =>
    obtain ⟨-, rfl⟩ := h
    rfl
  | writeNodeIdFile nodeId => trivial
  | createSegment site segmentId header =>
    rcases h with ⟨-, rfl⟩ | ⟨-, -, rfl | rfl⟩ <;> rfl
  | removeSegment site segmentId =>
    rcases h with ⟨-, -, rfl⟩ | ⟨-, ⟨-, rfl⟩ | ⟨-, -, rfl⟩⟩ <;> rfl
  | appendSegment segmentId bytes =>
    rcases h with ⟨-, -, rfl⟩ | ⟨-, ⟨-, rfl⟩ | ⟨-, -, -, -, rfl⟩⟩ <;> rfl
  | syncSegment segmentId =>
    rcases h with ⟨-, -, rfl⟩ | ⟨-, ⟨-, rfl⟩ | ⟨-, -, rfl⟩⟩ <;> rfl
  | truncateSegment site segmentId len =>
    rcases h with ⟨-, -, rfl⟩ | ⟨-, ⟨-, rfl⟩ | ⟨-, -, rfl | rfl⟩⟩ <;> rfl
  | writeCheckpointFile file =>
    rcases h with ⟨-, rfl⟩ | ⟨-, -, rfl | rfl⟩
    · exact Or.inr rfl
    · exact Or.inl rfl
    · exact Or.inr rfl
  | respond channel record result =>
    obtain rfl := h
    rfl
  | sendBatch sink events metadata =>
    obtain ⟨rfl, -⟩ := h
    rfl
  | quarantine entry issue =>
    obtain rfl := h
    rfl

/-- **The checkpoint file is the one from before**, or a call has written it under the node id that is
persisted in the directory. -/
def CheckpointWritten (before v : FileView) : Prop :=
  v.nodeIdFile = before.nodeIdFile ∧ (v.checkpointFile = before.checkpointFile ∨
    ∃ text position updatedAt, before.nodeIdFile = some text ∧ v.checkpointFile = some
      (CheckpointCodec.toVec (WalCheckpoint.new position (Text.trim text) none updatedAt)))

section Maintained

variable {τ ε α : Type} {before : FileView}

omit [RecordCodec] [CheckpointCodec] in
/-- The operations that leave the two files alone. -/
def KeepsFiles : SysOp → Prop
  | .writeNodeIdFile _ => False
  | .writeCheckpointFile _ => False
  | _ => True

omit [RecordCodec] [CheckpointCodec] in
theorem eq_of_fileEnv {o : SysOp} {v v' : FileView} {r : SysResp o} (hkeeps : KeepsFiles o)
    (h : fileEnv o v r v') : v' = v := by
  cases o with
  | readDir => exact h.1
  | writeNodeIdFile nodeId => exact hkeeps.elim
  | writeCheckpointFile file => exact hkeeps.elim
  | _ => exact h

/-- The commands of a call. -/
abbrev KeepsWritten (before : FileView) (c : Cmd SysOp SysResp τ ε α) : Prop :=
  Maintains fileEnv (CheckpointWritten before) c

theorem keepsWritten_sys {o : SysOp} (hkeeps : KeepsFiles o) :
    KeepsWritten before (Cmd.perform o : Cmd SysOp SysResp τ ε (SysResp o)) := by
  refine .perform fun v r v' hwritten he => ?_
  rw [eq_of_fileEnv hkeeps he]
  exact hwritten

theorem keepsWritten_readDir : KeepsWritten before (readDir : Sys τ WalDir) :=
  (keepsWritten_sys (by trivial)).orThrow

/-- **`write_checkpoint`** takes the node id from the directory. -/
theorem keepsWritten_writeCheckpoint (position : WalPosition) :
    KeepsWritten before (writeCheckpoint position : Sys τ Unit) := by
  intro t v hwritten
  rw [writeCheckpoint, wpc_bind, readDir, wpc_orThrow, wpc_perform]
  refine ⟨hwritten, ?_⟩
  rintro r v' ⟨rfl, hdir⟩
  refine ⟨fun dir hread => ?_, fun _ _ => hwritten⟩
  rw [wpc_bind, wpc_ofExcept]
  refine ⟨fun nodeId hnode => ?_, fun _ _ => hwritten⟩
  rw [wpc_bind, wpc_perform]
  refine ⟨hwritten, ?_⟩
  rintro updatedAt v'' rfl
  -- the node id is the one in the file
  obtain ⟨text, htext, rfl⟩ : ∃ text, before.nodeIdFile = some text ∧ Text.trim text = nodeId := by
    rw [readNodeId, hdir dir hread, hwritten.1] at hnode
    cases hfile : before.nodeIdFile with
    | none =>
      rw [hfile] at hnode
      cases hnode
    | some text =>
      rw [hfile] at hnode
      exact ⟨text, rfl, Except.ok.inj hnode⟩
  rw [wpc_orThrow, wpc_perform]
  refine ⟨hwritten, ?_⟩
  rintro r' v' (rfl | rfl)
  · exact ⟨fun _ _ => hwritten, fun _ _ => hwritten⟩
  · refine ⟨fun _ _ => ?_, fun _ _ => ?_⟩ <;>
      exact ⟨hwritten.1, Or.inr ⟨text, position, updatedAt.toNat, htext, rfl⟩⟩

theorem keepsWritten_flushPendingCheckpoint :
    KeepsWritten before flushPendingCheckpoint := by
  unfold flushPendingCheckpoint
  refine Maintains.get.bind fun env => ?_
  cases env.state.pendingCheckpoint with
  | none => exact .pure ()
  | some position =>
    refine (keepsWritten_writeCheckpoint position).bind fun _ => ?_
    exact (keepsWritten_sys (by trivial)).bind fun now => .set _

theorem keepsWritten_removeCoveredLoop (path : String) (checkpointLsn keepFromSegment : Nat)
    (segments : List (Nat × SegmentFile)) (removed : Bool) :
    KeepsWritten before
      (removeCoveredLoop path checkpointLsn keepFromSegment segments removed : Sys τ Bool) := by
  induction segments generalizing removed with
  | nil => exact .pure removed
  | cons segment segments ih =>
    obtain ⟨segmentId, file⟩ := segment
    unfold removeCoveredLoop
    refine .ite (ih removed) ((Maintains.ofExcept _).bind fun covered => .ite ?_ (ih removed))
    exact (keepsWritten_sys (by trivial)).orThrow.bind fun _ => ih true

theorem keepsWritten_cleanupCoveredSegments :
    KeepsWritten before cleanupCoveredSegments := by
  unfold cleanupCoveredSegments
  refine Maintains.get.bind fun env => ?_
  cases env.state.checkpoint with
  | none => exact .pure ()
  | some watermark =>
    show KeepsWritten before
      (removeSegmentsCoveredByCheckpoint watermark.lsn watermark.segment)
    unfold removeSegmentsCoveredByCheckpoint
    refine keepsWritten_readDir.bind fun dir => ?_
    refine (keepsWritten_removeCoveredLoop _ _ _ _ _).bind fun removed => ?_
    exact .ite (keepsWritten_sys (by trivial)).orThrow (.pure ())

theorem keepsWritten_expect (message : String) (o : Option α) :
    KeepsWritten before
      (expect message o : Cmd SysOp SysResp τ SendError α) := by
  cases o with
  | none => exact .throw _
  | some a => exact .pure a

theorem keepsWritten_sendSinkBatch (sinkName : String) (events : List Value)
    (metadata : EventSinkBatchMetadata) :
    KeepsWritten before
      (sendSinkBatch sinkName events metadata : Cmd SysOp SysResp τ SendError Unit) := by
  unfold sendSinkBatch
  refine (keepsWritten_sys (by trivial)).bind fun result => ?_
  cases result with
  | ok _ => exact .pure ()
  | error error => exact .throw _

theorem keepsWritten_sendBatchesLoop (sinkName : String) (policy : SinkBatchPolicy)
    (deliveries : List SinkDeliveryEvent) (batch : SinkBatch) :
    KeepsWritten before
      (sendBatchesLoop sinkName policy deliveries batch :
        Cmd SysOp SysResp τ SendError SinkBatch) := by
  induction deliveries generalizing batch with
  | nil => exact .pure batch
  | cons delivery deliveries ih =>
    unfold sendBatchesLoop
    refine .ite ?_ (ih _)
    refine (keepsWritten_expect _ _).bind fun failedLsn => ?_
    refine (keepsWritten_expect _ _).bind fun nodeId => ?_
    refine (keepsWritten_expect _ _).bind fun lastLsn => ?_
    exact (keepsWritten_sendSinkBatch _ _ _).bind fun _ => ih _

theorem keepsWritten_sendSinkEventsInBatches (sinkName : String) (events : List SinkDeliveryEvent)
    (policy : SinkBatchPolicy) :
    KeepsWritten before
      (sendSinkEventsInBatches sinkName events policy : Cmd SysOp SysResp τ SendError Unit) := by
  unfold sendSinkEventsInBatches
  refine (keepsWritten_sendBatchesLoop _ _ _ _).bind fun batch => .ite (.pure ()) ?_
  refine (keepsWritten_expect _ _).bind fun failedLsn => ?_
  refine (keepsWritten_expect _ _).bind fun nodeId => ?_
  refine (keepsWritten_expect _ _).bind fun lastLsn => ?_
  exact keepsWritten_sendSinkBatch _ _ _

variable [DurationCodec] [JsonCodec]

omit [JsonCodec] in
theorem keepsWritten_sinksDeferredByBatchTimeout (context : WalReplayContext)
    (sinkEvents : SortedTable String (List SinkDeliveryEvent)) :
    KeepsWritten before (sinksDeferredByBatchTimeout context sinkEvents) := by
  unfold sinksDeferredByBatchTimeout
  refine Maintains.get.bind fun env => .ite (.pure []) ?_
  cases env.runtime with
  | none => exact .pure []
  | some pending =>
    refine (keepsWritten_sys (by trivial)).bind fun now => ?_
    exact (Maintains.set _).bind fun _ => .ofExcept _

omit [DurationCodec] [JsonCodec] in
theorem keepsWritten_commitBatch (policy : CheckpointFlushPolicy)
    (sinkEvents : SortedTable String (List SinkDeliveryEvent)) (batch : List ReplayEntryDeliveries) :
    KeepsWritten before (commitBatch policy sinkEvents batch) := by
  unfold commitBatch shouldFlushCheckpoint
  refine Maintains.get.bind fun env => (Maintains.set _).bind fun _ => Maintains.bind ?_ fun flush => ?_
  · exact .ite (.pure true) ((keepsWritten_sys (by trivial)).bind fun now => .pure _)
  · refine .ite ?_ (.pure ())
    exact keepsWritten_flushPendingCheckpoint.mapError.bind fun _ =>
      keepsWritten_cleanupCoveredSegments.mapError

theorem keepsWritten_replayBatchToSinks (context : WalReplayContext) (policy : CheckpointFlushPolicy)
    (batch : List ReplayEntryDeliveries) (mode : ReplayBatchFlushMode) :
    KeepsWritten before (replayBatchToSinks context policy batch mode) := by
  unfold replayBatchToSinks
  refine .ite (.pure true) (Maintains.get.bind fun env => Maintains.bind ?_ fun deferred => ?_)
  · cases mode with
    | allowDefer => exact keepsWritten_sinksDeferredByBatchTimeout context _
    | force => exact .pure []
  · refine .ite (.pure false) (Maintains.bind (.forEach (fun row => ?_) _) fun _ => ?_)
    · refine (Maintains.ofExcept _).bind fun sinkPolicy => ?_
      exact (keepsWritten_sendSinkEventsInBatches _ _ _).mapError
    · exact (keepsWritten_commitBatch policy _ batch).bind fun _ => .pure true

theorem keepsWritten_replayEntries (context : WalReplayContext) (policy : CheckpointFlushPolicy)
    (window : ReplayWindowPolicy) (entries : List WalEntry) (loop : ReplayLoop) :
    KeepsWritten before (replayEntries context policy window entries loop) := by
  induction entries generalizing loop with
  | nil => exact .pure loop
  | cons entry entries ih =>
    have hsend : ∀ batch, KeepsWritten before
        (replayBatchToSinks context policy batch .force) :=
      fun batch => keepsWritten_replayBatchToSinks context policy batch .force
    unfold replayEntries
    refine .ite ((hsend _).bind fun _ => .throw _) ?_
    cases processEntry context entry with
    | quarantine issue =>
      refine (hsend _).bind fun _ => Maintains.bind ?_ fun _ => ih _
      exact (keepsWritten_sys (by trivial)).bind fun _ => .modifyLocal _
    | stopAfterFlush issue => exact (hsend _).bind fun _ => .throw _
    | stop issue => exact .throw _
    | deliveries bySink =>
      exact .ite ((hsend _).bind fun _ => ih _) (ih _)

/-- **A call writes the checkpoint file only so**, after it has read its entries. -/
theorem keepsWritten_replayFrom (context : WalReplayContext) (policy : CheckpointFlushPolicy)
    (replayStart : Option WalPosition) (entries : List WalEntry) :
    KeepsWritten before (replayFrom context policy replayStart entries) := by
  unfold replayFrom
  refine (keepsWritten_replayEntries context policy _ entries _).bind fun loop => ?_
  refine (keepsWritten_replayBatchToSinks context policy _ _).bind fun flushed => .ite ?_ (.pure 0)
  refine keepsWritten_flushPendingCheckpoint.mapError.bind fun _ => ?_
  exact keepsWritten_cleanupCoveredSegments.mapError.bind fun _ => .pure _

end Maintained

/-! ### Where a call starts -/

omit [RecordCodec] [CheckpointCodec] in
/-- An entry begins before it ends. -/
theorem Ordered.place_lt_nextPosition {start : Option WalPosition} {entries : List WalEntry}
    {entry : WalEntry} (h : Ordered start entries) (hmem : entry ∈ entries) :
    entry.position.place < entry.nextPosition.place := by
  induction entries generalizing start with
  | nil => cases hmem
  | cons head entries ih =>
    obtain ⟨-, hlt, -, hrest⟩ := h
    rcases List.mem_cons.mp hmem with rfl | hmem
    · exact hlt
    · exact ih hrest hmem

omit [RecordCodec] [CheckpointCodec] in
/-- The replay reads the persisted node id. -/
theorem readNodeId_of_persisted {dir : WalDir} {nodeId : String}
    (h : dir.persistedNodeId = some nodeId) : readNodeId dir = .ok nodeId := by
  obtain ⟨text, hfile, rfl, -⟩ := nonBlank_eq_some.mp h
  rw [readNodeId, hfile]

namespace WholeLog

variable {dir : WalDir} {log : List LogSegment}

/-- **The checkpoint can be read**, and it is the durable one. -/
theorem readCheckpointFile (h : WholeLog dir log) {file : Bytes}
    (hfile : dir.checkpointFile = some file) :
    ∃ position, Wal.readCheckpointFile (checkpointPath dir.path) (readNodeId dir) file = .ok position ∧
      durableCheckpoint dir = some position := by
  rcases h.checkpoint with hnone | ⟨entry, -, nodeId, updatedAt, hnode, hwritten⟩
  · rw [hnone] at hfile
    cases hfile
  · rw [hwritten] at hfile
    cases hfile
    refine ⟨entry.nextPosition, ?_, ?_⟩
    · rw [readNodeId_of_persisted hnode]
      exact readCheckpointFile_new _ nodeId _ updatedAt
    · rw [durableCheckpoint, hwritten, Option.bind_some, filePosition_toVec]

/-- **The entry at whose end the checkpoint stands is never removed.** -/
theorem checkpoint_kept {keep : Nat → Bool}
    (hremoved : ∀ id, keep id = false → ∃ position ∈ durableCheckpoint dir, id < position.segment)
    {entry : WalEntry} (hentry : entry ∈ logEntries log)
    (hdurable : durableCheckpoint dir = some entry.nextPosition) :
    ∃ segment ∈ log.filter fun segment => keep segment.id,
      segment.id = entry.nextPosition.segment ∧ entry ∈ segment.entries := by
  obtain ⟨segment, hsegment, hmem⟩ := mem_logEntries.mp hentry
  have hid : segment.id = entry.nextPosition.segment := (LogSegment.mem_entries hmem).2.1.symm
  refine ⟨segment, List.mem_filter.mpr ⟨hsegment, ?_⟩, hid, hmem⟩
  by_contra hfalse
  obtain ⟨position, hposition, hlt⟩ := hremoved segment.id (Bool.eq_false_iff.mpr hfalse)
  rw [hdurable] at hposition
  cases hposition
  exact absurd hid hlt.ne

/-- **The checkpoint is not before the log.** -/
theorem readWalBounds (h : WholeLog dir log) :
    ∃ bounds, Wal.readWalBounds dir = .ok bounds ∧
      ∀ position ∈ durableCheckpoint dir, checkpointBeforeWalFloor position bounds = false := by
  obtain ⟨keep, hstored, hremoved⟩ := h.kept
  obtain ⟨bounds, hbounds, hfloor, -⟩ := hstored.contents.exists_bounds
  refine ⟨bounds, hbounds, fun position hposition => Bool.eq_false_iff.mpr fun hbefore => ?_⟩
  obtain ⟨first, hfirst, hlt⟩ := (checkpointBeforeWalFloor_iff hfloor position).mp hbefore
  obtain ⟨entry, hentry, rfl⟩ := h.checkpoint.exists_entry hposition
  obtain ⟨segment, hsegment, -, hmem⟩ := checkpoint_kept hremoved hentry hposition
  have hkept : entry ∈ logEntries (log.filter fun segment => keep segment.id) :=
    mem_logEntries.mpr ⟨segment, hsegment, hmem⟩
  -- the first entry that is kept is not behind it
  have hle : first.position.place ≤ entry.position.place := by
    have hordered := hstored.ordered.pairwise_place
    obtain ⟨rest, hrest⟩ := List.head?_eq_some_iff.mp hfirst
    rw [hrest] at hordered hkept
    rcases List.mem_cons.mp hkept with rfl | hmem
    · exact le_rfl
    · exact ((List.pairwise_cons.mp hordered).1 entry hmem).le
  exact absurd (hle.trans (h.ordered.place_lt_nextPosition hentry).le) (not_le.mpr hlt)

/-- **A replay goes on at the checkpoint.** -/
theorem replayStart (h : WholeLog dir log) :
    Wal.replayStart .earliest dir = .ok (durableCheckpoint dir) := by
  obtain ⟨bounds, hbounds, hfloor⟩ := h.readWalBounds
  rw [Wal.replayStart, hbounds]
  cases hfile : dir.checkpointFile with
  | none =>
    rw [durableCheckpoint, hfile]
    rfl
  | some file =>
    obtain ⟨position, hread, hdurable⟩ := h.readCheckpointFile hfile
    simp only [hread, hfloor position hdurable, hdurable]
    rfl

/-- **What a replay reads**: the first entries behind the checkpoint. -/
theorem readEntriesAfterLimit (h : WholeLog dir log) (n : Nat) :
    Wal.readEntriesAfterLimit dir (durableCheckpoint dir) (some n) =
      .ok ((entriesBehind (durableCheckpoint dir) (logEntries log)).take n) :=
  readEntriesAfterLimit_take h.readEntriesAfter n (by rintro _ ⟨⟩)

end WholeLog

/-! ### What an operation leaves of the whole log -/

/-- **A call leaves the whole log**: it removes only segments before its checkpoint, and the checkpoint
that it writes is one of the log. -/
theorem WholeLog.cleaned {w w' : World} {log : List LogSegment} {durable : Option WalPosition}
    {all : List WalEntry} (h : WholeLog w.dir log) (hcleaned : Cleaned durable all w w')
    (hcheckpoint : CheckpointAt w'.dir (logEntries log)) : WholeLog w'.dir log := by
  have hpersisted : w'.dir.persistedNodeId = w.dir.persistedNodeId := by
    unfold WalDir.persistedNodeId
    rw [hcleaned.nodeIdFile]
  obtain ⟨keep, hstored, hremoved⟩ := h.kept
  obtain ⟨keep', hsegments, hremoved'⟩ := hcleaned.kept
  refine ⟨h.ids, h.lsns, h.torn, ⟨fun id => keep id && keep' id, ?_, fun id hid => ?_⟩,
    fun segment hsegment => hpersisted.trans (h.nodeIds segment hsegment), hcheckpoint⟩
  · have hentries : w'.dir.segments.entries =
        w.dir.segments.entries.filter fun row => keep' row.1 := by
      rw [hsegments]
      rfl
    rw [Stored, hentries, hstored, List.filter_map, List.filter_filter]
    exact congrArg (List.map LogSegment.stored)
      (List.filter_congr fun segment _ => Bool.and_comm _ _)
  · rcases Bool.and_eq_false_iff.mp hid with hid | hid
    · exact exists_segment_lt_of_le hcleaned.forward (hremoved id hid)
    · exact hremoved' id hid

/-- **What a call has written is a checkpoint of the log**, where it stands at the end of an entry. -/
theorem CheckpointWritten.checkpointAt {w w' : World} {log : List LogSegment}
    (hwritten : CheckpointWritten (fileView w) (fileView w')) (h : WholeLog w.dir log)
    (hdurable : ∀ position ∈ durableCheckpoint w'.dir,
      ∃ entry ∈ logEntries log, entry.nextPosition = position) {entries : List WalEntry}
    (hle : logEntries log <+: entries) : CheckpointAt w'.dir entries := by
  obtain ⟨hnodeIdFile, hfile⟩ := hwritten
  have hpersisted : w'.dir.persistedNodeId = w.dir.persistedNodeId := by
    have hsame : w'.dir.nodeIdFile = w.dir.nodeIdFile := hnodeIdFile
    rw [WalDir.persistedNodeId, hsame, ← WalDir.persistedNodeId]
  rcases hfile with hsame | ⟨text, position, updatedAt, htext, hfile⟩
  · have hsame : w'.dir.checkpointFile = w.dir.checkpointFile := hsame
    rcases h.checkpoint with hnone | ⟨entry, hentry, nodeId, updatedAt, hnode, hfile⟩
    · exact Or.inl (hsame.trans hnone)
    · exact Or.inr ⟨entry, hle.subset hentry, nodeId, updatedAt, hpersisted.trans hnode,
        hsame.trans hfile⟩
  · have hfile : w'.dir.checkpointFile = _ := hfile
    obtain ⟨entry, hentry, rfl⟩ := hdurable position (by
      rw [durableCheckpoint, hfile, Option.bind_some, filePosition_toVec]
      rfl)
    -- where there is an entry, the persisted node id is not blank
    obtain ⟨segment, hsegment, -⟩ := mem_logEntries.mp hentry
    have hnode := h.nodeIds segment hsegment
    obtain ⟨text', htext', htrim, -⟩ := nonBlank_eq_some.mp hnode
    have htext : w.dir.nodeIdFile = some text := htext
    rw [htext] at htext'
    cases htext'
    exact Or.inr ⟨entry, hle.subset hentry, Text.trim text, updatedAt,
      by rw [hpersisted, hnode, htrim], hfile⟩

end Ingest4x.Wal
