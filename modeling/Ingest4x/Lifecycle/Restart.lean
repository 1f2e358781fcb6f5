import Ingest4x.Lifecycle.Running
import Ingest4x.Wal.Starts

/-! # Starting on a journal

A start takes up the whole log where it ends. It may remove a last segment that holds only a stale
header, create the segment it goes on in, and cut a torn end; none of this touches an entry, so that
the log is the same wherever the start fails or is cut off.

* **`Kept`** — the directory still has the whole log, and nothing was sent or answered.
* **`WholeLog.wpc_openWal`** — the part of a start after the node id is resolved.
* **`WholeLog.wpc_new`** — a start that succeeds rests at the end of the log. -/

namespace Ingest4x.Wal

open Bytes Effect

variable [RecordCodec] [CheckpointCodec]

/-! ### What a start keeps -/

omit [RecordCodec] [CheckpointCodec] in
/-- Nothing was sent, answered or checkpointed. -/
def Untouched (w w' : World) : Prop :=
  w'.trace = w.trace ∧ w'.dir.checkpointFile = w.dir.checkpointFile

omit [RecordCodec] [CheckpointCodec] in
theorem Untouched.trans {w w' w'' : World} (h : Untouched w w') (h' : Untouched w' w'') :
    Untouched w w'' :=
  ⟨h'.1.trans h.1, h'.2.trans h.2⟩

omit [RecordCodec] [CheckpointCodec] in
theorem untouched_adopt (w : World) (nodeId : String) : Untouched w (w.adopt nodeId) := by
  refine ⟨rfl, ?_⟩
  show (w.dir.adopt nodeId).checkpointFile = _
  unfold WalDir.adopt
  split <;> rfl

/-- **The entries are kept**: they are those of the whole log, and nothing else happened. -/
def Kept (w : World) (entries : List WalEntry) (w' : World) : Prop :=
  Journaled w'.dir entries ∧ Untouched w w'

/-- **The writer has opened the log** of these entries. -/
def OpenedLog (w : World) (entries : List WalEntry) (inner : WalWriterInner) (t : WalWriterState)
    (w' : World) : Prop :=
  ∃ older active, Running inner t w'.dir older active ∧ logEntries (older ++ [active]) = entries ∧
    t.buffered = [] ∧ Untouched w w'

namespace WholeLog

variable {τ : Type} {mayFail : SysOp → Prop} {t : τ} {w : World} {dir : WalDir}
  {log older : List LogSegment} {active : LogSegment} {nodeId : String} {segmentId nextLsn : Nat}

theorem kept_self (h : WholeLog w.dir log) : Kept w (logEntries log) w :=
  ⟨⟨log, h, rfl⟩, rfl, rfl⟩

/-! ### The last segment -/

/-- A segment that a start creates behind the log. -/
theorem create (h : WholeLog dir log) (hbehind : ∀ segment ∈ log, segment.id < segmentId)
    {createdMs : UInt64} {header : Bytes} {startLsn : UInt64}
    (encodes : serializeSegmentHeader (UInt64.ofNat segmentId) nodeId startLsn createdMs =
      .ok header)
    (hnode : dir.persistedNodeId = some nodeId) :
    WholeLog (dir.withSegments (dir.segments.insert segmentId (.created header)))
      (log ++ [.opened segmentId nodeId startLsn createdMs header encodes]) := by
  have hentries : logEntries (log ++ [.opened segmentId nodeId startLsn createdMs header encodes]) =
      logEntries log := by
    rw [logEntries_append, logEntries_cons, logEntries_nil, List.append_nil]
    exact List.append_nil _
  have happend := h
  rw [← List.append_nil log] at happend
  refine happend.replaceTail _ rfl rfl (List.append_nil _).symm ?_ ?_ ?_ ?_ ?_ ⟨[], ?_⟩
  · show (dir.segments.insert segmentId (.created header)).entries = _
    rw [SortedTable.entries_insert_of_lt, List.map_singleton, LogSegment.stored,
      LogSegment.opened_bytes, LogSegment.opened_id]
    intro row hrow
    obtain ⟨keep, hstored, -⟩ := h.kept
    rw [hstored] at hrow
    obtain ⟨segment, hsegment, rfl⟩ := List.mem_map.mp hrow
    exact hbehind segment (List.mem_of_mem_filter hsegment)
  · refine List.pairwise_append.mpr ⟨h.ids, List.pairwise_singleton _ _, fun s hs s' hs' => ?_⟩
    rw [List.mem_singleton.mp hs', LogSegment.opened_id]
    exact hbehind s hs
  · rw [hentries]
    exact h.lsns
  · rw [hentries, tornLast_append_singleton]
    exact fun _ => ⟨h.torn, fun htorn => absurd rfl htorn⟩
  · intro s hs
    rw [List.mem_singleton.mp hs, LogSegment.opened_nodeId]
    exact hnode
  · rw [hentries, List.append_nil, List.append_nil]

/-- A last segment without entries that a start removes. -/
theorem remove (h : WholeLog dir (older ++ [active])) (hnone : active.entries = []) :
    WholeLog (dir.withSegments (dir.segments.erase active.id)) older := by
  have hentries : logEntries (older ++ [active]) = logEntries older := by
    rw [logEntries_append, logEntries_cons, logEntries_nil, List.append_nil, hnone, List.append_nil]
  obtain ⟨rows, hrows, -, -, -⟩ := h.split
  have htorn := h.torn
  rw [hentries] at htorn
  have hshort : WholeLog (dir.withSegments (dir.segments.erase active.id)) (older ++ []) := by
    refine h.replaceTail _ rfl rfl hrows ?_ ?_ ?_ ?_ (by rintro _ ⟨⟩) ⟨[], ?_⟩
    · rw [List.map_nil, List.append_nil]
      exact SortedTable.entries_erase_last hrows
    · rw [List.append_nil]
      exact (List.pairwise_append.mp h.ids).1
    · rw [List.append_nil, ← hentries]
      exact h.lsns
    · rw [List.append_nil]
      exact (tornLast_append_singleton.mp htorn hnone).1
    · rw [List.append_nil, List.append_nil, hentries]
  rwa [List.append_nil] at hshort

/-- A last segment whose torn end a start cuts. -/
theorem cut (h : WholeLog dir (older ++ [active])) {f : SegmentFile → SegmentFile}
    (hf : f (.created active.bytes) = .created (active.tear [] tornTail_nil).bytes) :
    WholeLog (dir.withSegments (dir.segments.modify active.id f))
      (older ++ [active.tear [] tornTail_nil]) := by
  have hentries : logEntries (older ++ [active.tear [] tornTail_nil]) =
      logEntries (older ++ [active]) := by
    rw [logEntries_append, logEntries_append]
    rfl
  obtain ⟨rows, hrows, -, -, -⟩ := h.split
  refine h.replaceTail _ rfl rfl hrows ?_ ?_ ?_ ?_ ?_ ⟨[], ?_⟩
  · refine (SortedTable.entries_modify_last hrows f).trans ?_
    rw [hf]
    rfl
  · obtain ⟨holder, -, hlt⟩ := List.pairwise_append.mp h.ids
    refine List.pairwise_append.mpr ⟨holder, List.pairwise_singleton _ _, fun s hs s' hs' => ?_⟩
    rw [List.mem_singleton.mp hs', LogSegment.tear_id]
    exact hlt s hs active (List.mem_singleton.mpr rfl)
  · rw [hentries]
    exact h.lsns
  · have htorn := h.torn
    rw [hentries]
    rw [tornLast_append_singleton] at htorn ⊢
    exact fun hnone => ⟨(htorn hnone).1, fun hne => absurd rfl hne⟩
  · intro s hs
    rw [List.mem_singleton.mp hs]
    exact h.nodeIds active (by simp)
  · rw [hentries, List.append_nil]

/-- The file of the last segment. -/
theorem lookup_last (h : WholeLog dir (older ++ [active])) :
    dir.segments.lookup active.id = some (.created active.bytes) := by
  obtain ⟨rows, hrows, -, -, -⟩ := h.split
  rw [SortedTable.lookup_eq_some, hrows]
  exact List.mem_append_right _ (List.mem_singleton.mpr rfl)

/-- **What a start finds at its active segment**: nothing, behind the log, or the last segment. -/
theorem active_cases (h : WholeLog dir log) {checkpoint : Option WalCheckpoint}
    (hcheckpoint : checkpoint.map WalCheckpoint.position = durableCheckpoint dir)
    (hactive : recoverActiveSegmentId dir checkpoint = segmentId) :
    (dir.segments.lookup segmentId = none ∧ ∀ segment ∈ log, segment.id < segmentId) ∨
      ∃ older active, log = older ++ [active] ∧ active.id = segmentId := by
  obtain ⟨hle, hbehind⟩ := h.le_activeSegment hcheckpoint
  rw [hactive] at hle hbehind
  by_cases hin : ∃ segment ∈ log, segment.id = segmentId
  · obtain ⟨segment, hsegment, rfl⟩ := hin
    obtain ⟨older, behind, rfl⟩ := List.append_of_mem hsegment
    have hnil : behind = [] := by
      refine List.eq_nil_iff_forall_not_mem.mpr fun other hother => ?_
      have hlt := (List.pairwise_cons.mp (List.pairwise_append.mp h.ids).2.1).1 other hother
      have hle := hle other (by simp [hother])
      omega
    subst hnil
    exact Or.inr ⟨older, segment, rfl, rfl⟩
  · refine Or.inl ⟨SortedTable.lookup_eq_none.mpr fun row hrow => ?_, fun segment hsegment => ?_⟩
    · obtain ⟨keep, hstored, -⟩ := h.kept
      rw [hstored] at hrow
      obtain ⟨segment, hsegment, rfl⟩ := List.mem_map.mp hrow
      exact fun heq => hin ⟨segment, List.mem_of_mem_filter hsegment, heq⟩
    · exact lt_of_le_of_ne (hle segment hsegment) fun heq => hin ⟨segment, hsegment, heq⟩

/-! ### Opening the active segment -/

/-- **The active segment is open**: it is the last one, and where it is only a header, its start LSN is
the next one. -/
def ActiveOpen (w : World) (entries : List WalEntry) (segmentId : Nat) (w' : World) : Prop :=
  ∃ older active, WholeLog w'.dir (older ++ [active]) ∧ logEntries (older ++ [active]) = entries ∧
    active.id = segmentId ∧ w'.dir.nodeIdFile = w.dir.nodeIdFile ∧ Untouched w w' ∧
    (active.frames = [] → active.torn = [] → active.startLsn = UInt64.ofNat (entries.length + 1))

theorem ActiveOpen.kept {entries : List WalEntry} {w' : World}
    (h : ActiveOpen w entries segmentId w') : Kept w entries w' := by
  obtain ⟨older, active, hwhole, hentries, -, -, hsame, -⟩ := h
  exact ⟨⟨_, hwhole, hentries⟩, hsame⟩

/-- A segment is created behind the log. -/
theorem wpc_createSegmentFile {w₁ : World} (h : WholeLog w₁.dir log)
    (hnode : w₁.dir.persistedNodeId = some nodeId)
    (hbehind : ∀ segment ∈ log, segment.id < segmentId)
    (hfile : w₁.dir.nodeIdFile = w.dir.nodeIdFile) (hsame : Untouched w w₁) :
    wpc (sysEnv mayFail) (fun _ => Kept w (logEntries log))
      (createSegmentFile .start segmentId nodeId ((logEntries log).length + 1))
      (fun _ _ => ActiveOpen w (logEntries log) segmentId)
      (fun _ _ => Kept w (logEntries log)) t w₁ := by
  have hkept : Kept w (logEntries log) w₁ := ⟨⟨log, h, rfl⟩, hsame⟩
  have hopen : ∀ createdMs header, serializeSegmentHeader (UInt64.ofNat segmentId) nodeId
      (UInt64.ofNat ((logEntries log).length + 1)) createdMs = .ok header →
      ActiveOpen w (logEntries log) segmentId
        (w₁.withSegments (w₁.dir.segments.insert segmentId (.created header))) := by
    intro createdMs header hheader
    refine ⟨log, _, h.create hbehind hheader hnode, ?_, rfl, hfile, hsame, fun _ _ => rfl⟩
    rw [logEntries_append, logEntries_cons, logEntries_nil, List.append_nil]
    exact List.append_nil _
  rw [createSegmentFile, wpc_bind, wpc_perform]
  refine ⟨hkept, ?_⟩
  rintro createdMs w' rfl
  rw [wpc_bind, wpc_ofExcept]
  refine ⟨fun header hheader => ?_, fun _ _ => hkept⟩
  rw [wpc_createSegment]
  exact ⟨hkept, hopen _ _ hheader, fun _ _ => ⟨hkept, (hopen _ _ hheader).kept⟩⟩

/-- **`ensure_segment_file` of a start** opens the active segment. -/
theorem wpc_ensureSegmentFile (h : WholeLog w.dir log)
    (hnode : w.dir.persistedNodeId = some nodeId) {checkpoint : Option WalCheckpoint}
    (hcheckpoint : checkpoint.map WalCheckpoint.position = durableCheckpoint w.dir)
    (hactive : recoverActiveSegmentId w.dir checkpoint = segmentId) :
    wpc (sysEnv mayFail) (fun _ => Kept w (logEntries log))
      (ensureSegmentFile .start segmentId nodeId ((logEntries log).length + 1))
      (fun _ _ => ActiveOpen w (logEntries log) segmentId)
      (fun _ _ => Kept w (logEntries log)) t w := by
  unfold ensureSegmentFile
  rw [wpc_bind, wpc_readDir]
  refine ⟨h.kept_self, ?_, fun _ _ => h.kept_self⟩
  rcases h.active_cases hcheckpoint hactive with ⟨hlookup, hbehind⟩ | ⟨older, active, rfl, rfl⟩
  · simp only [hlookup]
    exact h.wpc_createSegmentFile hnode hbehind rfl ⟨rfl, rfl⟩
  · have hnodeId : active.nodeId = nodeId := by
      have hactiveNode := h.nodeIds active (by simp)
      rw [hnode, Option.some_inj] at hactiveNode
      exact hactiveNode.symm
    simp only [h.lookup_last, SegmentFile.created]
    rw [LogSegment.readSegmentHeader_bytes, wpc_bind, wpc_ofExcept_ok]
    dsimp only
    rw [if_neg (not_not.mpr rfl), if_neg (not_not.mpr hnodeId), wpc_ite]
    refine ⟨?_, fun hfresh => ⟨older, active, h, rfl, rfl, rfl, ⟨rfl, rfl⟩,
      fun hframes htorn => ?_⟩⟩
    · -- a stale header is removed and written again
      rintro ⟨hlen, -⟩
      have hend := active.headerLen_le_endOffset
      rw [active.length_bytes] at hlen
      have hframes : active.frames = [] := LogSegment.frames_eq_nil_iff.mpr (by omega)
      have hnone : active.entries = [] := by
        rw [LogSegment.entries, hframes, entriesFrom_nil]
      have hentries : logEntries (older ++ [active]) = logEntries older := by
        rw [logEntries_append, logEntries_cons, logEntries_nil, List.append_nil, hnone,
          List.append_nil]
      have hremoved := h.remove hnone
      have hkept : Kept w (logEntries (older ++ [active]))
          (w.withSegments (w.dir.segments.erase active.id)) :=
        ⟨⟨older, hremoved, hentries.symm⟩, rfl, rfl⟩
      rw [wpc_bind, wpc_removeSegment (by rw [h.lookup_last]; exact Option.some_ne_none _)]
      refine ⟨h.kept_self, ?_, fun _ _ => h.kept_self⟩
      rw [wpc_bind, wpc_syncDirectory]
      refine ⟨hkept, ?_, fun _ _ => hkept⟩
      rw [hentries]
      exact hremoved.wpc_createSegmentFile hnode (fun segment hsegment =>
        (List.pairwise_append.mp h.ids).2.2 segment hsegment active (List.mem_singleton.mpr rfl)) rfl
        ⟨rfl, rfl⟩
    · by_contra hstale
      refine hfresh ⟨?_, hstale⟩
      rw [active.length_bytes, htorn, LogSegment.frames_eq_nil_iff.mp hframes]
      rfl

/-- **The repair** cuts the torn end of the active segment. -/
theorem wpc_repairSegmentTailFile {entries : List WalEntry} {w₁ : World}
    (hopen : ActiveOpen w entries segmentId w₁) :
    wpc (sysEnv mayFail) (fun _ => Kept w entries) (repairSegmentTailFile segmentId)
      (fun offset _ w' => ∃ older active, WholeLog w'.dir (older ++ [active]) ∧
        logEntries (older ++ [active]) = entries ∧ active.id = segmentId ∧
        w'.dir.nodeIdFile = w.dir.nodeIdFile ∧ Untouched w w' ∧ active.torn = [] ∧
        active.endOffset = offset ∧
        (active.frames = [] → active.startLsn.toNat = (UInt64.ofNat (entries.length + 1)).toNat ∨
          active.startLsn.toNat = entries.length + 1))
      (fun _ _ => Kept w entries) t w₁ := by
  have hkept := hopen.kept
  obtain ⟨older, active, h, rfl, rfl, hfile, hsame, hstart⟩ := hopen
  unfold repairSegmentTailFile
  rw [wpc_bind, wpc_readDir]
  refine ⟨hkept, ?_, fun _ _ => hkept⟩
  simp only [h.lookup_last, SegmentFile.created]
  rw [LogSegment.scanSegment_bytes, wpc_bind, wpc_ofExcept_ok, wpc_bind,
    wpc_truncateSegment (by rw [h.lookup_last]; exact Option.some_ne_none _)]
  have hlen := active.length_bytes
  have hbytes : setLen active.endOffset active.bytes = (active.tear [] tornTail_nil).bytes := by
    have hrepair := active.repairSegmentTail_bytes ""
    rw [repairSegmentTail, active.scanSegment_bytes] at hrepair
    have hset := congrArg Prod.snd (Except.ok.inj hrepair)
    refine hset.trans ?_
    show _ = active.header ++ (framesBytes active.frames ++ [])
    rw [List.append_nil]
  have hend : (active.tear [] tornTail_nil).bytes.length = active.endOffset :=
    LogSegment.length_bytes_of_torn rfl
  have hentries : logEntries (older ++ [active.tear [] tornTail_nil]) =
      logEntries (older ++ [active]) := by
    rw [logEntries_append, logEntries_append]
    rfl
  have hcut : ∀ f : SegmentFile → SegmentFile,
      f (.created active.bytes) = .created (active.tear [] tornTail_nil).bytes →
      WholeLog (w₁.withSegments (w₁.dir.segments.modify active.id f)).dir
        (older ++ [active.tear [] tornTail_nil]) := fun f hf => h.cut hf
  have hsynced := hcut (fun file => (file.truncate active.endOffset).sync) (by
    rw [SegmentFile.truncate, SegmentFile.sync, SegmentFile.created, hbytes]
    rfl)
  have htruncated := hcut (·.truncate active.endOffset) (by
    show SegmentFile.mk (setLen active.endOffset active.bytes)
      (min active.bytes.length active.endOffset) = _
    rw [hbytes, min_eq_right (by omega), SegmentFile.created, hend])
  refine ⟨hkept, ⟨older, _, hsynced, hentries, rfl, hfile, hsame, rfl, rfl, fun hframes => ?_⟩,
    fun _ _ => ⟨hkept, ⟨_, htruncated, hentries⟩, hsame⟩⟩
  by_cases htorn : active.torn = []
  · exact Or.inl (congrArg UInt64.toNat (hstart hframes htorn))
  · -- a torn segment without frames belongs to the next record
    have hnone : active.entries = [] := by
      rw [LogSegment.entries, show active.frames = [] from hframes, entriesFrom_nil]
    exact Or.inr ((tornLast_append_singleton.mp h.torn hnone).2 htorn)

omit [RecordCodec] [CheckpointCodec] in
/-- The check of the free space changes nothing. -/
theorem wpc_ensureWalDiskSpace_same {P : SysOp → World → Prop} {Q : Unit → τ → World → Prop}
    {E : IoError → τ → World → Prop} {minFreeBytes estimated : Nat} (hP : P .availableSpace w)
    (hQ : Q () t w) (hE : ∀ e, E e t w) :
    wpc (sysEnv mayFail) P (ensureWalDiskSpace minFreeBytes estimated) Q E t w := by
  unfold ensureWalDiskSpace
  rw [wpc_ite]
  refine ⟨fun _ => hQ, fun _ => ?_⟩
  rw [wpc_bind, fileOp, wpc_orThrow, wpc_perform]
  refine ⟨hP, ?_⟩
  rintro r w' ⟨rfl, -⟩
  refine ⟨fun available _ => ?_, fun e _ => hE e⟩
  rw [wpc_ite]
  exact ⟨fun _ => hE _, fun _ => hQ⟩

/-! ### The start -/

variable [DurationCodec] {settings : WalSettings}

/-- **The part of a start after the node id is resolved.** -/
theorem wpc_openWal (h : WholeLog w.dir log) (hnode : w.dir.persistedNodeId = some nodeId) :
    wpc (sysEnv mayFail) (fun _ => Kept w (logEntries log)) (openWal settings nodeId)
      (fun r _ w' => OpenedLog w (logEntries log) r.1 r.2 w')
      (fun _ _ => Kept w (logEntries log)) t w := by
  have hkept := h.kept_self
  obtain ⟨checkpoint, hread, hcheckpoint⟩ := h.checkpoint.readPipelineCheckpoint hnode
  unfold openWal
  rw [wpc_bind, wpc_readDir]
  refine ⟨hkept, ?_, fun _ _ => hkept⟩
  rw [hread, wpc_bind, wpc_ofExcept_ok, h.recoverNextLsn hcheckpoint]
  dsimp only
  rw [wpc_bind, wpc_ite]
  refine ⟨fun _ => hkept, fun _ => ?_⟩
  rw [wpc_pure, wpc_bind, wpc_ofExcept_ok, wpc_bind, wpc_ite]
  refine ⟨fun _ => hkept, fun hbound => ?_⟩
  have hlt : (logEntries log).length + 1 < 2 ^ 64 := not_le.mp hbound
  rw [wpc_pure, wpc_bind]
  refine wpc_imp (h.wpc_ensureSegmentFile hnode hcheckpoint rfl) ?_ fun _ _ _ h => h
  intro _ t₁ w₁ hopen
  rw [wpc_bind]
  refine wpc_imp (wpc_repairSegmentTailFile hopen) ?_ fun _ _ _ h => h
  rintro offset t₂ w₂ ⟨older, active, hwhole, hentries, hid, hfile, hsame, htorn, rfl, hstart⟩
  have hkept₂ : Kept w (logEntries log) w₂ := ⟨⟨_, hwhole, hentries⟩, hsame⟩
  rw [wpc_bind]
  refine wpc_ensureWalDiskSpace_same hkept₂ ?_ fun _ => hkept₂
  cases DurationCodec.parseDuration settings.write.flushInterval with
  | error error => exact hkept₂
  | ok interval =>
    refine ⟨older, active, ⟨hwhole, ?_⟩, hentries, rfl, hsame⟩
    have hnodeId : active.nodeId = nodeId := by
      have hactive := hwhole.nodeIds active (by simp)
      rw [WalDir.persistedNodeId, hfile] at hactive
      exact Option.some_inj.mp (hactive.symm.trans hnode)
    refine ⟨⟨WholeLog.stored_table _ _, ?_, Nat.zero_le _, hwhole.torn⟩, hnodeId, htorn, hid.symm, rfl,
      fun hframes => ?_, ?_, hlt, rfl⟩
    · rw [Nat.zero_add, Nat.sub_zero]
      exact hwhole.lsns
    · rw [hentries]
      rcases hstart hframes with heq | heq
      · rw [heq, UInt64.toNat_ofNat_of_lt' hlt]
      · exact heq
    · rw [hentries]
      rfl

omit [RecordCodec] [CheckpointCodec] [DurationCodec] in
/-- **`resolve_node_id` writes last**, if at all. -/
theorem wpc_resolveNodeId_at {configured : Option String} :
    wpc (sysEnv mayFail) (fun _ w' => w' = w) (resolveNodeId configured) (fun _ _ _ => True)
      (fun _ _ _ => True) t w := by
  have hwrite : ∀ nodeId, wpc (sysEnv mayFail) (fun _ w' => w' = w)
      (do
        fileOp (sys (.writeNodeIdFile nodeId))
        pure nodeId : Sys τ String) (fun _ _ _ => True) (fun _ _ _ => True) t w := by
    intro nodeId
    rw [wpc_bind, wpc_writeNodeIdFile]
    exact ⟨rfl, trivial, fun _ _ => ⟨trivial, trivial⟩⟩
  have hnew : wpc (sysEnv mayFail) (fun _ w' => w' = w) (newNodeId : Sys τ String)
      (fun _ _ _ => True) (fun _ _ _ => True) t w := by
    unfold newNodeId
    rw [wpc_bind, wpc_perform]
    refine ⟨rfl, ?_⟩
    rintro nodeId w' ⟨rfl, -⟩
    exact hwrite nodeId
  unfold resolveNodeId
  rw [wpc_bind, wpc_readDir]
  refine ⟨rfl, ?_, fun _ _ => trivial⟩
  rw [nonBlank_def]
  cases nonBlank configured with
  | some c =>
    rw [wpc_bind, wpc_ofExcept]
    refine ⟨fun _ _ => ?_, fun _ _ => trivial⟩
    cases w.dir.nodeIdFile with
    | none => exact hwrite c
    | some text =>
      show wpc _ _ (if Text.trim text ≠ c then _ else _) _ _ _ _
      rw [wpc_ite]
      exact ⟨fun _ => trivial, fun _ => trivial⟩
  | none =>
    cases w.dir.nodeIdFile with
    | none => exact hnew
    | some text =>
      show wpc _ _ (if Text.trim text ≠ "" then _ else _) _ _ _ _
      rw [wpc_ite]
      refine ⟨fun _ => ?_, fun _ => hnew⟩
      rw [wpc_bind, wpc_ofExcept]
      exact ⟨fun _ _ => trivial, fun _ _ => trivial⟩

/-- **A start on a journal** rests at its end where it succeeds, and keeps it wherever it ends or is
cut off. -/
theorem wpc_new (h : WholeLog w.dir log) :
    wpc (sysEnv mayFail) (fun _ => Kept w (logEntries log)) (WalWriter.new settings)
      (fun r _ w' => OpenedLog w (logEntries log) r.1 r.2 w')
      (fun _ _ => Kept w (logEntries log)) t w := by
  have hkept := h.kept_self
  have hadopt : ∀ nodeId, Accepts (nonBlank settings.nodeId) w.dir nodeId →
      WholeLog (w.adopt nodeId).dir log := fun nodeId haccepts => h.adopt haccepts
  rw [WalWriter.new_eq, wpc_bind, wpc_createDirAll]
  refine ⟨hkept, ?_, fun _ _ => hkept⟩
  rw [wpc_bind, wpc_acquireWalLock]
  refine ⟨hkept, ?_, fun _ _ => hkept⟩
  rw [wpc_bind]
  refine wpc_mono (wpc_and wpc_resolveNodeId_at wpc_resolveNodeId) ?_ ?_ ?_
  · rintro o w' rfl
    exact hkept
  · rintro nodeId t' w' ⟨-, haccepts, rfl⟩
    have hsame := untouched_adopt w nodeId
    refine wpc_mono ((hadopt nodeId haccepts).wpc_openWal
      (w.dir.persistedNodeId_adopt haccepts.isNodeId)) ?_ ?_ ?_
    · exact fun _ _ h => ⟨h.1, hsame.trans h.2⟩
    · rintro _ _ w' ⟨older, active, hrunning, hentries, hbuffered, hafter⟩
      exact ⟨older, active, hrunning, hentries, hbuffered, hsame.trans hafter⟩
    · exact fun _ _ _ h => ⟨h.1, hsame.trans h.2⟩
  · rintro error t' w' ⟨-, rfl | ⟨nodeId, haccepts, rfl⟩, -⟩
    · exact hkept
    · exact ⟨⟨log, hadopt nodeId haccepts, rfl⟩, untouched_adopt w nodeId⟩

end WholeLog

end Ingest4x.Wal
