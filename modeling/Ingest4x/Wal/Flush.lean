import Ingest4x.Wal.Growth
import Ingest4x.Wal.Placement
import Ingest4x.Wal.Tail

/-! # What a flush does to the log

The specification of `flush_buffer_locked` over the view of a flush. Writing the frames grows the
active segment; where everything was written and synced, the appends are answered; where something
failed, the truncation takes the files back to what they were and the appends are answered with the
error.

* **`FlushMoment`** — what the files are before each operation of a flush.
* **`AtEnd`** — the writer stands at the end of the last segment.
* **`wpc_flushBufferLocked`** — the outcome: `Flushed` or `RolledBack`. -/

namespace Ingest4x.Wal

open Effect

variable [RecordCodec]

/-! ### Moments of a flush -/

/-- **A moment of a flush** of these records out of the active segment `base`. -/
inductive FlushMoment (base : LogSegment) (records : List WalRecord) (trace : List Event)
    (v : TailView) : Prop
  /-- The frames of some of the records are written. -/
  | writing (done : List Frame) (disk : List OpenSegment)
    (frames : done.map Frame.record <+: records) (grown : Grown base done disk)
    (nonempty : disk ≠ []) (stored : v.segments.entries = disk.map OpenSegment.row)
    (trace : v.trace = trace)
  /-- The active segment is truncated, and some of the others may be removed. -/
  | undoing (done : List Frame) (disk rest : List OpenSegment)
    (frames : done.map Frame.record <+: records) (grown : Grown base done disk)
    (remaining : rest <:+ disk.tail)
    (stored : v.segments.entries = base.stored :: rest.map OpenSegment.row)
    (trace : v.trace = trace)
  /-- Everything is synced, and some of the appends are answered. -/
  | written (done : List Frame) (disk : List OpenSegment) (events : List Event)
    (frames : done.map Frame.record = records) (grown : Grown base done disk)
    (nonempty : disk ≠ []) (whole : ∀ d ∈ disk, d.segment.torn = [])
    (stored : v.segments.entries = disk.map fun d => d.segment.stored)
    (trace : v.trace = trace ++ events)
    (answers : ∀ event ∈ events, ∃ channel, ∃ record ∈ records, ∃ position,
      event = .responded channel record (.ok position))
  /-- The files are what they were, and some of the appends are answered with the error. -/
  | undone (events : List Event) (stored : v.segments.entries = [base.stored])
    (trace : v.trace = trace ++ events)
    (answers : ∀ event ∈ events, ∃ channel, ∃ record ∈ records, ∃ error,
      event = .responded channel record (.error error))

/-- **The answers of a flush that succeeds**: each append that waits gets its position. -/
def successEvents (buffered : List BufferedWalRecord) (positions : List WalPosition) : List Event :=
  (buffered.zip positions).flatMap fun (entry, position) =>
    entry.response.toList.map fun channel => .responded channel entry.record (.ok position)

/-- **The answers of a flush that fails**: each append that waits gets the error. -/
def failureEvents (buffered : List BufferedWalRecord) (message : String) : List Event :=
  buffered.flatMap fun entry =>
    entry.response.toList.map fun channel =>
      .responded channel entry.record (.error (.other message))

/-- What holds before each operation of a flush. -/
def FlushGuard (base : LogSegment) (records : List WalRecord) (trace : List Event) (o : SysOp)
    (v : TailView) : Prop :=
  TailGuard base.id o ∧ FlushMoment base records trace v

/-- The operations of a rollback. -/
def RollbackOp : SysOp → Prop
  | .truncateSegment .rollback _ _ => True
  | .removeSegment .rollback _ => True
  | .syncDirectory .rollback => True
  | _ => False

/-- **The writer stands at the end of the last segment**: the frames `done` are written, their
entries lie at these positions, and what is not synced is in the segment of one of them. -/
structure AtEnd (base : LogSegment) (done : List Frame) (positions : List WalPosition)
    (front : List OpenSegment) (last : OpenSegment) (t : WalWriterState) (v : TailView) : Prop where
  grown : Grown base done (front ++ [last])
  torn : last.segment.torn = []
  stored : v.segments.entries = (front ++ [last]).map OpenSegment.row
  segmentId : t.segmentId = last.segment.id
  offset : t.offset = last.segment.endOffset
  placed : ∃ added, logEntries ((front ++ [last]).map OpenSegment.segment) = base.entries ++ added ∧
    added.map WalEntry.position = positions
  touched : ∀ p ∈ positions, ∃ d ∈ front ++ [last], d.segment.id = p.segment
  dirty : ∀ d ∈ front ++ [last], d.synced = d.segment.endOffset ∨
    d.segment.id ∈ positions.map WalPosition.segment

/-- **The flush has stopped**: some of the frames are written, in segments that the rollback will
visit. -/
structure Stopped (base : LogSegment) (records : List WalRecord) (trace : List Event)
    (nextLsn : Nat) (t : WalWriterState) (v : TailView) : Prop where
  moment : ∃ done disk, done.map Frame.record <+: records ∧ Grown base done disk ∧ disk ≠ [] ∧
    v.segments.entries = disk.map OpenSegment.row ∧ base.id + disk.length ≤ t.segmentId + 1
  trace : v.trace = trace
  nextLsn : t.nextLsn = nextLsn

section Rows

/-! ### Rows -/

variable {front : List OpenSegment} {last : OpenSegment} {v : TailView}

/-- The ids of grown segments, in the directory. -/
theorem AtEnd.lt {base : LogSegment} {done : List Frame} {positions : List WalPosition}
    {t : WalWriterState} (h : AtEnd base done positions front last t v) :
    ∀ e ∈ v.segments.entries, e.1 < last.segment.id + 1 := by
  intro e he
  rw [h.stored] at he
  obtain ⟨d, hd, rfl⟩ := List.mem_map.mp he
  have hid := (h.grown.le_id hd).2
  rw [List.length_append, List.length_singleton, ← Nat.add_assoc, ← h.grown.last_id] at hid
  exact hid

theorem AtEnd.stored_last {base : LogSegment} {done : List Frame} {positions : List WalPosition}
    {t : WalWriterState} (h : AtEnd base done positions front last t v) :
    v.segments.entries = front.map OpenSegment.row ++
      [(last.segment.id, ⟨last.segment.bytes, last.synced⟩)] := by
  rw [h.stored, List.map_append, List.map_singleton]
  rfl

/-- Appending to the last segment. -/
theorem AtEnd.entries_append {base : LogSegment} {done : List Frame}
    {positions : List WalPosition} {t : WalWriterState}
    (h : AtEnd base done positions front last t v) {segment : LogSegment} {written : Bytes}
    (hid : segment.id = last.segment.id) (hbytes : segment.bytes = last.segment.bytes ++ written) :
    (v.segments.modify last.segment.id (·.append written)).entries =
      (front ++ [OpenSegment.mk segment last.synced]).map OpenSegment.row := by
  rw [SortedTable.entries_modify_last h.stored_last, List.map_append, List.map_singleton,
    OpenSegment.row, SegmentFile.append, hid, hbytes]

/-- A stopped flush is a moment of it. -/
theorem Stopped.flushMoment {base : LogSegment} {records : List WalRecord} {trace : List Event}
    {nextLsn : Nat} {t : WalWriterState} (h : Stopped base records trace nextLsn t v) :
    FlushMoment base records trace v := by
  obtain ⟨done, disk, hdone, hgrown, hne, hstored, -⟩ := h.moment
  exact .writing done disk hdone hgrown hne hstored h.trace

/-- Where the writer stands at the end, the flush may stop. -/
theorem AtEnd.stopped {base : LogSegment} {done : List Frame} {positions : List WalPosition}
    {records : List WalRecord} {t t' : WalWriterState}
    (h : AtEnd base done positions front last t v) (hdone : done.map Frame.record <+: records)
    (hsegmentId : t.segmentId ≤ t'.segmentId) :
    Stopped base records v.trace t'.nextLsn t' v where
  moment := by
    refine ⟨done, _, hdone, h.grown, by simp, h.stored, ?_⟩
    have hid := h.grown.last_id
    have hsegment := h.segmentId
    rw [List.length_append, List.length_singleton]
    omega
  trace := rfl
  nextLsn := rfl

end Rows

section Specs

variable {mayFail : SysOp → Prop} {base : LogSegment} {records : List WalRecord}
  {trace : List Event}

/-! ### Writing frames -/

omit [RecordCodec] in
/-- Reading the directory. -/
theorem wpc_readDir_tail {P : SysOp → TailView → Prop} {bound : Nat}
    {Q : WalDir → WalWriterState → TailView → Prop}
    {E : IoError → WalWriterState → TailView → Prop} {t : WalWriterState} {v : TailView}
    (hP : P .readDir v) (hQ : ∀ dir, dir.segments.upFrom bound = v.segments → Q dir t v)
    (hE : ∀ e, E e t v) : wpc (tailEnv mayFail bound) P readDir Q E t v := by
  rw [readDir, fileOp, wpc_orThrow, wpc_perform]
  refine ⟨hP, ?_⟩
  rintro r v' ⟨rfl, ⟨dir, rfl, hdir⟩ | ⟨-, e, rfl⟩⟩
  · refine ⟨?_, by rintro e ⟨⟩⟩
    rintro _ ⟨⟩
    exact hQ dir hdir
  · refine ⟨by rintro a ⟨⟩, ?_⟩
    rintro _ ⟨⟩
    exact hE e

/-- **Opening a segment after the last one.** It is there where this ends with a value, and it may
be there where it ends with an error. -/
theorem wpc_ensureSegmentFile_rotate {P : SysOp → TailView → Prop} {bound segmentId startLsn : Nat}
    {nodeId : String} {Q : Unit → WalWriterState → TailView → Prop}
    {E : IoError → WalWriterState → TailView → Prop} {t : WalWriterState} {v : TailView}
    (hbound : bound < segmentId) (hnew : ∀ e ∈ v.segments.entries, e.1 < segmentId)
    (hP : ∀ o, TailGuard bound o → P o v) (hE : ∀ e, E e t v)
    (hopened : ∀ segment : LogSegment, segment.id = segmentId → segment.nodeId = nodeId →
      segment.startLsn = UInt64.ofNat startLsn → segment.frames = [] → segment.torn = [] →
      ∀ v' : TailView, v'.trace = v.trace →
      v'.segments.entries = v.segments.entries ++ [(OpenSegment.mk segment segmentHeaderLen).row] →
      Q () t v' ∧ ∀ e, E e t v') :
    wpc (tailEnv mayFail bound) P (ensureSegmentFile .rotate segmentId nodeId startLsn) Q E t v := by
  rw [ensureSegmentFile, wpc_bind]
  refine wpc_readDir_tail (hP _ trivial) (fun dir hdir => ?_) hE
  -- the directory has no segment with this id
  have hlookup : dir.segments.lookup segmentId = none := by
    have hview : v.segments.lookup segmentId = none :=
      SortedTable.lookup_eq_none.mpr fun e he => (hnew e he).ne
    rwa [← hdir, SortedTable.lookup_upFrom, if_pos hbound.le] at hview
  rw [hlookup]
  show wpc _ _ (createSegmentFile .rotate segmentId nodeId startLsn) _ _ _ _
  rw [createSegmentFile, wpc_bind, wpc_perform]
  refine ⟨hP _ trivial, ?_⟩
  rintro nowMs v' rfl
  rw [wpc_bind, wpc_ofExcept]
  refine ⟨fun header hheader => ?_, fun e _ => hE e⟩
  rw [fileOp, wpc_orThrow, wpc_perform]
  refine ⟨hP _ hbound, ?_⟩
  intro r v'' hcreate
  have hafter := hopened
    (LogSegment.opened segmentId nodeId (UInt64.ofNat startLsn) nowMs header hheader)
    rfl rfl rfl rfl rfl (v'.withSegments (v'.segments.insert segmentId (.created header))) rfl (by
      rw [TailView.withSegments_segments, SortedTable.entries_insert_of_lt hnew, OpenSegment.row,
        LogSegment.opened_bytes, SegmentFile.created, LogSegment.opened_id,
        length_of_serializeSegmentHeader hheader])
  rcases hcreate hbound.le with ⟨rfl, rfl⟩ | ⟨-, ⟨e, rfl⟩, rfl | rfl⟩
  · refine ⟨?_, by rintro e ⟨⟩⟩
    rintro _ ⟨⟩
    exact hafter.1
  · refine ⟨by rintro a ⟨⟩, ?_⟩
    rintro _ ⟨⟩
    exact hE e
  · refine ⟨by rintro a ⟨⟩, ?_⟩
    rintro _ ⟨⟩
    exact hafter.2 e

omit [RecordCodec] in
/-- The check of the free space. -/
theorem wpc_ensureWalDiskSpace {P : SysOp → TailView → Prop} {bound minFreeBytes estimated : Nat}
    {Q : Unit → WalWriterState → TailView → Prop}
    {E : IoError → WalWriterState → TailView → Prop} {t : WalWriterState} {v : TailView}
    (hP : P .availableSpace v) (hQ : Q () t v) (hE : ∀ e, E e t v) :
    wpc (tailEnv mayFail bound) P (ensureWalDiskSpace minFreeBytes estimated) Q E t v := by
  rw [ensureWalDiskSpace, wpc_ite]
  refine ⟨fun _ => hQ, fun _ => ?_⟩
  rw [wpc_bind, fileOp, wpc_orThrow, wpc_perform]
  refine ⟨hP, ?_⟩
  rintro r v' rfl
  refine ⟨fun available _ => ?_, fun e _ => hE e⟩
  rw [wpc_ite]
  exact ⟨fun _ => hE _, fun _ => hQ⟩

/-- **Appending a frame to the last segment.** -/
theorem AtEnd.wpc_appendSegment {done : List Frame} {positions : List WalPosition}
    {front : List OpenSegment} {last : OpenSegment} {t : WalWriterState} {v : TailView}
    (h : AtEnd base done positions front last t v) (frame : Frame)
    (hdone : (done ++ [frame]).map Frame.record <+: records) (htrace : v.trace = trace)
    (hstart : last.segment.frames = [] → frame.record.lsn = last.segment.startLsn)
    {Q : Unit → WalWriterState → TailView → Prop}
    (hQ : ∀ v', v'.trace = trace →
      v'.segments.entries =
        (front ++ [OpenSegment.mk (last.segment.push frame hstart) last.synced]).map
          OpenSegment.row →
      Q () t v') :
    wpc (tailEnv mayFail base.id) (FlushGuard base records trace)
      (fileOp (sys (.appendSegment t.segmentId frame.bytes))) Q
      (fun _ => Stopped base records trace t.nextLsn) t v := by
  have hle : base.id ≤ t.segmentId := by
    rw [h.segmentId, h.grown.last_id]
    exact Nat.le_add_right _ _
  have hpre : done.map Frame.record <+: records := by
    rw [List.map_append] at hdone
    exact (List.prefix_append _ _).trans hdone
  have hstopped : Stopped base records trace t.nextLsn t v := by
    rw [← htrace]
    exact h.stopped hpre le_rfl
  have hlength : base.id + (front ++ [last]).length ≤ t.segmentId + 1 := by
    rw [h.segmentId, h.grown.last_id, List.length_append, List.length_singleton]
    omega
  rw [fileOp, wpc_orThrow, wpc_perform]
  refine ⟨⟨hle, hstopped.flushMoment⟩, ?_⟩
  intro r v' happend
  rcases happend hle with ⟨-, rfl, rfl⟩ | ⟨-, ⟨rfl, rfl⟩ | ⟨-, ⟨e, rfl⟩, written, hwritten, rfl⟩⟩
  · exact ⟨by rintro a ⟨⟩, fun e _ => hstopped⟩
  · refine ⟨?_, by rintro e ⟨⟩⟩
    rintro _ ⟨⟩
    refine hQ _ htrace ?_
    rw [TailView.withSegments_segments, h.segmentId]
    exact h.entries_append (LogSegment.push_id _ _ hstart)
          (LogSegment.push_bytes _ _ hstart h.torn)
  · -- a part of the frame may be written, or all of it
    refine ⟨by rintro a ⟨⟩, fun e _ => ?_⟩
    by_cases hall : written = frame.bytes
    · subst hall
      refine ⟨⟨done ++ [frame], _, hdone, h.grown.push frame hstart, by simp, ?_, ?_⟩, htrace, rfl⟩
      · rw [TailView.withSegments_segments, h.segmentId]
        exact h.entries_append (LogSegment.push_id _ _ hstart)
          (LogSegment.push_bytes _ _ hstart h.torn)
      · rwa [List.length_append] at hlength ⊢
    · refine ⟨⟨done, _, hpre, h.grown.tear written (Or.inr ⟨frame, hwritten, hall⟩), by simp,
        ?_, ?_⟩, htrace, rfl⟩
      · rw [TailView.withSegments_segments, h.segmentId]
        exact h.entries_append (LogSegment.tear_id _ _ _) (LogSegment.tear_bytes _ _ _ h.torn)
      · rwa [List.length_append] at hlength ⊢

/-- The end after one more frame. -/
theorem AtEnd.push {done : List Frame} {positions : List WalPosition}
    {front : List OpenSegment} {last : OpenSegment} {t : WalWriterState} {v v' : TailView}
    (h : AtEnd base done positions front last t v) (frame : Frame)
    (hstart : last.segment.frames = [] → frame.record.lsn = last.segment.startLsn)
    (hstored : v'.segments.entries =
      (front ++ [OpenSegment.mk (last.segment.push frame hstart) last.synced]).map
          OpenSegment.row) :
    AtEnd base (done ++ [frame])
      (positions ++ [⟨frame.record.lsn.toNat, t.segmentId, t.offset⟩]) front
      ⟨last.segment.push frame hstart, last.synced⟩
      { t with offset := t.offset + frame.bytes.length } v' where
  grown := h.grown.push frame hstart
  torn := rfl
  stored := hstored
  segmentId := h.segmentId
  offset := by
    show t.offset + _ = (last.segment.push frame hstart).endOffset
    rw [LogSegment.push_endOffset, h.offset]
  placed := by
    obtain ⟨added, hadded, hpositions⟩ := h.placed
    refine ⟨added ++ [walEntry last.segment.id last.segment.endOffset
      (last.segment.endOffset + frame.bytes.length) frame.record], ?_, ?_⟩
    · rw [List.map_append, logEntries_append] at hadded ⊢
      rw [List.map_singleton, logEntries_cons, logEntries_nil, List.append_nil] at hadded ⊢
      rw [LogSegment.push_entries, ← List.append_assoc, hadded, List.append_assoc]
    · rw [List.map_append, hpositions, h.segmentId, h.offset]
      rfl
  touched := by
    intro p hp
    rcases List.mem_append.mp hp with hp | hp
    · obtain ⟨d, hd, hid⟩ := h.touched p hp
      rcases List.mem_append.mp hd with hd | hd
      · exact ⟨d, List.mem_append_left _ hd, hid⟩
      · rw [List.mem_singleton.mp hd] at hid
        exact ⟨_, List.mem_append_right _ (List.mem_singleton.mpr rfl), hid⟩
    · rw [List.mem_singleton.mp hp]
      exact ⟨_, List.mem_append_right _ (List.mem_singleton.mpr rfl), h.segmentId.symm⟩
  dirty := by
    intro d hd
    rw [List.map_append, List.mem_append]
    rcases List.mem_append.mp hd with hd | hd
    · exact (h.dirty d (List.mem_append_left _ hd)).imp_right Or.inl
    · rw [List.mem_singleton.mp hd]
      exact Or.inr (Or.inr (List.mem_singleton.mpr h.segmentId.symm))

/-- The end after a rotation. -/
theorem AtEnd.rotate {done : List Frame} {positions : List WalPosition}
    {front : List OpenSegment} {last : OpenSegment} {t : WalWriterState} {v v' : TailView}
    (h : AtEnd base done positions front last t v) {segment : LogSegment}
    (hid : segment.id = last.segment.id + 1) (hnodeId : segment.nodeId = base.nodeId)
    (hframes : segment.frames = []) (htorn : segment.torn = [])
    (hstored : v'.segments.entries =
      v.segments.entries ++ [(OpenSegment.mk segment segmentHeaderLen).row]) :
    AtEnd base done positions (front ++ [last]) ⟨segment, segmentHeaderLen⟩
      { t with segmentId := t.segmentId + 1, offset := segmentHeaderLen } v' where
  grown := h.grown.rotate h.torn hid hnodeId hframes
  torn := htorn
  stored := by
    rw [hstored, h.stored, List.map_append, List.map_append, List.map_append, List.map_singleton,
      List.map_singleton]
  segmentId := by
    rw [hid, ← h.segmentId]
  offset := (LogSegment.frames_eq_nil_iff.mp hframes).symm
  placed := by
    obtain ⟨added, hadded, hpositions⟩ := h.placed
    refine ⟨added, ?_, hpositions⟩
    have hnone : segment.entries = [] := by
      rw [LogSegment.entries, hframes, entriesFrom_nil]
    rw [List.map_append, logEntries_append, hadded, List.map_singleton, logEntries_cons,
      logEntries_nil, hnone, List.append_nil, List.append_nil]
  touched := by
    intro p hp
    obtain ⟨d, hd, hid⟩ := h.touched p hp
    exact ⟨d, List.mem_append_left _ hd, hid⟩
  dirty := by
    intro d hd
    rcases List.mem_append.mp hd with hd | hd
    · exact h.dirty d hd
    · rw [List.mem_singleton.mp hd]
      exact Or.inl (LogSegment.frames_eq_nil_iff.mp hframes).symm

/-- **`append_frame_locked`** goes on to the next segment or not, and then writes the frame. -/
theorem AtEnd.wpc_appendFrameLocked {done : List Frame} {positions : List WalPosition}
    {front : List OpenSegment} {last : OpenSegment} {t : WalWriterState} {v : TailView}
    (h : AtEnd base done positions front last t v) {inner : WalWriterInner}
    (hnode : inner.nodeId = base.nodeId) (frame : Frame)
    (hdone : (done ++ [frame]).map Frame.record <+: records) (htrace : v.trace = trace)
    (hstart : last.segment.frames = [] → frame.record.lsn = last.segment.startLsn)
    {Q : WalPosition → WalWriterState → TailView → Prop}
    (hQ : ∀ position front' last' t' v',
      AtEnd base (done ++ [frame]) (positions ++ [position]) front' last' t' v' →
      v'.trace = trace → last'.segment.frames ≠ [] → t'.nextLsn = t.nextLsn →
      t'.buffered = t.buffered → Q position t' v') :
    wpc (tailEnv mayFail base.id) (FlushGuard base records trace)
      (appendFrameLocked inner frame.bytes frame.record.lsn.toNat false) Q
      (fun _ => Stopped base records trace t.nextLsn) t v := by
  have hpre : done.map Frame.record <+: records := by
    rw [List.map_append] at hdone
    exact (List.prefix_append _ _).trans hdone
  -- what follows the rotation, from any end with this next LSN
  have hrest : ∀ front last t' v', AtEnd base done positions front last t' v' →
      v'.trace = trace → t'.nextLsn = t.nextLsn → t'.buffered = t.buffered →
      (last.segment.frames = [] → frame.record.lsn = last.segment.startLsn) →
      wpc (tailEnv mayFail base.id) (FlushGuard base records trace)
        (ensureWalDiskSpace inner.minFreeBytes frame.bytes.length >>= fun _ => do
          let state ← get
          fileOp (sys (.appendSegment state.segmentId frame.bytes))
          (if false then fileOp (sys (.syncSegment state.segmentId)) else pure ())
          set { state with offset := state.offset + frame.bytes.length }
          pure ⟨frame.record.lsn.toNat, state.segmentId, state.offset⟩) Q
        (fun _ => Stopped base records trace t.nextLsn) t' v' := by
    intro front last t' v' h htrace hnext hbuffered hstart
    have hstopped : Stopped base records trace t'.nextLsn t' v' := by
      rw [← htrace]
      exact h.stopped hpre le_rfl
    rw [← hnext, wpc_bind]
    refine wpc_ensureWalDiskSpace ⟨trivial, hstopped.flushMoment⟩ ?_ fun _ => hstopped
    rw [wpc_bind, wpc_get, wpc_bind]
    refine h.wpc_appendSegment frame hdone htrace hstart fun v'' htrace' hstored => ?_
    refine hQ _ _ _ _ _ (h.push frame hstart hstored) htrace' ?_ hnext hbuffered
    rw [LogSegment.push_frames]
    simp
  rw [appendFrameLocked, wpc_bind, wpc_get, wpc_bind, wpc_ite]
  refine ⟨fun _ => ?_, fun _ => hrest front last t v h htrace rfl rfl hstart⟩
  rw [rotateSegment, wpc_bind, wpc_get, wpc_bind, wpc_ofExcept]
  refine ⟨fun segmentId hnextId => ?_, fun e _ => htrace ▸ h.stopped hpre le_rfl⟩
  have hsegmentId : segmentId = t.segmentId + 1 := by
    rw [checkedNext] at hnextId
    split_ifs at hnextId
    cases hnextId
    rfl
  subst hsegmentId
  rw [wpc_bind, wpc_set]
  have hstopped : Stopped base records trace t.nextLsn
      { t with segmentId := t.segmentId + 1, offset := segmentHeaderLen } v := by
    have hnext : t.segmentId ≤ WalWriterState.segmentId
        { t with segmentId := t.segmentId + 1, offset := segmentHeaderLen } :=
      Nat.le_succ t.segmentId
    exact htrace ▸ h.stopped hpre hnext
  refine wpc_ensureSegmentFile_rotate ?_ ?_ (fun o ho => ⟨ho, hstopped.flushMoment⟩)
    (fun e => hstopped) fun segment hid hnodeId hstartLsn hframes htorn v' htrace' hstored =>
      ?_
  · rw [h.segmentId, h.grown.last_id]
    omega
  · rw [h.segmentId]
    exact h.lt
  · have hrotated := h.rotate (h.segmentId ▸ hid) (hnodeId.trans hnode) hframes htorn hstored
    have htrace'' : v'.trace = trace := htrace'.trans htrace
    refine ⟨hrest _ _ _ _ hrotated htrace'' rfl rfl fun _ => ?_, fun e => ?_⟩
    · rw [hstartLsn, UInt64.ofNat_toNat]
    · exact htrace'' ▸ hrotated.stopped hpre le_rfl

/-- **The loop over the buffered records.** -/
theorem AtEnd.wpc_appendBufferedFrames {inner : WalWriterInner} (hnode : inner.nodeId = base.nodeId)
    (entries : List BufferedWalRecord) {done : List Frame} {positions : List WalPosition}
    {front : List OpenSegment} {last : OpenSegment} {t : WalWriterState} {v : TailView}
    (h : AtEnd base done positions front last t v)
    (hdone : done.map Frame.record ++ entries.map BufferedWalRecord.record = records)
    (htrace : v.trace = trace)
    (hstart : last.segment.frames = [] → ∀ entry ∈ entries.head?,
      entry.record.lsn = last.segment.startLsn)
    {Q : List WalPosition → WalWriterState → TailView → Prop}
    (hQ : ∀ done' positions' front' last' t' v', done'.map Frame.record = records →
      AtEnd base done' (positions ++ positions') front' last' t' v' → v'.trace = trace →
      (last'.segment.frames ≠ [] ∨ (entries = [] ∧ last' = last)) → t'.nextLsn = t.nextLsn →
      t'.buffered = t.buffered → Q positions' t' v') :
    wpc (tailEnv mayFail base.id) (FlushGuard base records trace)
      (appendBufferedFrames inner entries) Q (fun _ => Stopped base records trace t.nextLsn) t v := by
  induction entries generalizing done positions front last t v Q with
  | nil =>
    rw [List.map_nil, List.append_nil] at hdone
    exact hQ done [] front last t v hdone (by rwa [List.append_nil]) htrace
      (Or.inr ⟨rfl, rfl⟩) rfl rfl
  | cons entry entries ih =>
    have hpre : done.map Frame.record <+: records := ⟨_, hdone⟩
    rw [appendBufferedFrames, wpc_bind, wpc_ofExcept]
    refine ⟨fun bytes hbytes => ?_, fun e _ => htrace ▸ h.stopped hpre le_rfl⟩
    -- the bytes are those of a frame of the record
    let frame : Frame := ⟨entry.record, bytes, hbytes⟩
    have hdone' : (done ++ [frame]).map Frame.record ++ entries.map BufferedWalRecord.record =
        records := by
      rw [List.map_append, List.append_assoc]
      exact hdone
    rw [wpc_bind]
    refine h.wpc_appendFrameLocked hnode frame ⟨_, hdone'⟩ htrace
      (fun hnil => hstart hnil entry rfl) fun position front' last' t' v' h' htrace' hframes hnext
        hbuffered => ?_
    rw [wpc_bind]
    have hnext' := ih h' hdone' htrace' (fun hnil => absurd hnil hframes)
      fun done'' positions' front'' last'' t'' v'' hall h'' htrace'' hframes' hnext' hbuffered' =>
        hQ done'' (position :: positions') front'' last'' t'' v'' hall
          (by rwa [List.append_assoc] at h'') htrace'' (Or.inl ?_) (hnext'.trans hnext)
          (hbuffered'.trans hbuffered)
    · rw [hnext] at hnext'
      exact hnext'
    · rcases hframes' with hframes' | ⟨-, rfl⟩
      · exact hframes'
      · exact hframes

/-! ### Syncing -/

omit [RecordCodec] in
/-- The touched segments are those of the positions. -/
theorem mem_touchedSegments {positions : List WalPosition} {segmentId : Nat} :
    segmentId ∈ touchedSegments positions ↔ segmentId ∈ positions.map WalPosition.segment := by
  suffices h : ∀ table : SortedTable Nat Unit,
      segmentId ∈ (positions.foldl (fun set p => set.insert p.segment ()) table).keys ↔
        segmentId ∈ table.keys ∨ segmentId ∈ positions.map WalPosition.segment by
    rw [touchedSegments, h]
    exact or_iff_right (List.not_mem_nil)
  induction positions with
  | nil => exact fun table => (or_iff_left List.not_mem_nil).symm
  | cons p positions ih =>
    intro table
    rw [List.foldl_cons, ih, List.map_cons, List.mem_cons, SortedTable.mem_keys_insert]
    tauto

/-- The end after one of the segments is synced. -/
theorem AtEnd.sync {done : List Frame} {positions : List WalPosition}
    {front : List OpenSegment} {last : OpenSegment} {t : WalWriterState} {v : TailView}
    (h : AtEnd base done positions front last t v) (segmentId : Nat) :
    AtEnd base done positions (front.map (OpenSegment.sync segmentId)) (last.sync segmentId) t
      (v.withSegments (v.segments.modify segmentId .sync)) := by
  have hall : front.map (OpenSegment.sync segmentId) ++ [last.sync segmentId] =
      (front ++ [last]).map (OpenSegment.sync segmentId) := by
    rw [List.map_append, List.map_singleton]
  have htorn : ∀ d ∈ front ++ [last], d.segment.torn = [] := by
    have hwhole := h.grown.whole
    rw [List.dropLast_concat] at hwhole
    intro d hd
    rcases List.mem_append.mp hd with hd | hd
    · exact hwhole d hd
    · rw [List.mem_singleton.mp hd]
      exact h.torn
  constructor
  · rw [hall]
    exact h.grown.sync segmentId
  · rw [OpenSegment.sync_segment]
    exact h.torn
  · rw [TailView.withSegments_segments, hall, SortedTable.entries_modify, h.stored, List.map_map,
      List.map_map]
    refine List.map_congr_left fun d hd => ?_
    rw [Function.comp_apply, Function.comp_apply, OpenSegment.row, OpenSegment.row,
      OpenSegment.sync]
    split_ifs with hid
    · rw [SegmentFile.sync, LogSegment.length_bytes_of_torn (htorn d hd)]
    · rfl
  · rw [OpenSegment.sync_segment]
    exact h.segmentId
  · rw [OpenSegment.sync_segment]
    exact h.offset
  · have hsegments : (front ++ [last]).map (OpenSegment.segment ∘ OpenSegment.sync segmentId) =
        (front ++ [last]).map OpenSegment.segment :=
      List.map_congr_left fun d _ => OpenSegment.sync_segment segmentId d
    rw [hall, List.map_map, hsegments]
    exact h.placed
  · intro p hp
    obtain ⟨d, hd, hid⟩ := h.touched p hp
    rw [hall]
    exact ⟨d.sync segmentId, List.mem_map_of_mem hd, by rwa [OpenSegment.sync_segment]⟩
  · rw [hall]
    intro d hd
    obtain ⟨d, hmem, rfl⟩ := List.mem_map.mp hd
    rw [OpenSegment.sync_segment, OpenSegment.sync]
    split_ifs
    · exact Or.inl rfl
    · exact h.dirty d hmem

/-- **Everything is written and synced**, at these positions. -/
structure AllSynced (base : LogSegment) (done : List Frame) (positions : List WalPosition)
    (front : List OpenSegment) (last : OpenSegment) (t : WalWriterState) (v : TailView) : Prop where
  grown : Grown base done (front ++ [last])
  whole : ∀ d ∈ front ++ [last], d.segment.torn = []
  stored : v.segments.entries = (front ++ [last]).map fun d => d.segment.stored
  segmentId : t.segmentId = last.segment.id
  offset : t.offset = last.segment.endOffset
  placed : ∃ added, logEntries ((front ++ [last]).map OpenSegment.segment) = base.entries ++ added ∧
    added.map WalEntry.position = positions

/-- The end with every segment synced. -/
theorem AtEnd.allSynced {done : List Frame} {positions : List WalPosition}
    {front : List OpenSegment} {last : OpenSegment} {t : WalWriterState} {v : TailView}
    (h : AtEnd base done positions front last t v)
    (hsynced : ∀ d ∈ front ++ [last], d.synced = d.segment.endOffset) :
    AllSynced base done positions front last t v := by
  have htorn : ∀ d ∈ front ++ [last], d.segment.torn = [] := by
    have hwhole := h.grown.whole
    rw [List.dropLast_concat] at hwhole
    intro d hd
    rcases List.mem_append.mp hd with hd | hd
    · exact hwhole d hd
    · rw [List.mem_singleton.mp hd]
      exact h.torn
  refine ⟨h.grown, htorn, ?_, h.segmentId, h.offset, h.placed⟩
  rw [h.stored]
  exact List.map_congr_left fun d hd => OpenSegment.row_of_synced (htorn d hd) (hsynced d hd)

/-- **Syncing the touched segments** syncs every segment. -/
theorem AtEnd.wpc_syncTouched {done : List Frame} {positions : List WalPosition}
    {front : List OpenSegment} {last : OpenSegment} {t : WalWriterState} {v : TailView}
    (h : AtEnd base done positions front last t v) (hdone : done.map Frame.record <+: records)
    (htrace : v.trace = trace) {Q : Unit → WalWriterState → TailView → Prop}
    (hQ : ∀ front' last' v', AllSynced base done positions front' last' t v' → v'.trace = trace →
      last'.segment = last.segment → Q () t v') :
    wpc (tailEnv mayFail base.id) (FlushGuard base records trace)
      (Cmd.forEach (fun segmentId => fileOp (sys (.syncSegment segmentId)))
        (touchedSegments positions)) Q (fun _ => Stopped base records trace t.nextLsn) t v := by
  -- the segments already visited are synced
  let Inv : List Nat → WalWriterState → TailView → Prop := fun pre t' v' =>
    t' = t ∧ v'.trace = trace ∧ ∃ front' last', AtEnd base done positions front' last' t v' ∧
      last'.segment = last.segment ∧
      ∀ d ∈ front' ++ [last'], d.segment.id ∈ pre → d.synced = d.segment.endOffset
  refine wpc_imp (wpc_forEach Inv _ ?_ ?_) ?_ fun _ _ _ h => h
  · rintro pre segmentId post t' v' hsplit ⟨rfl, htrace', front', last', h', hlast, hpre⟩
    have hmem : segmentId ∈ touchedSegments positions := by
      rw [hsplit]
      simp
    obtain ⟨p, hp, rfl⟩ := List.mem_map.mp (mem_touchedSegments.mp hmem)
    obtain ⟨d, hd, hid⟩ := h'.touched p hp
    have hle : base.id ≤ p.segment := hid ▸ (h'.grown.le_id hd).1
    have hstopped : Stopped base records trace t'.nextLsn t' v' :=
      htrace' ▸ h'.stopped hdone le_rfl
    rw [fileOp, wpc_orThrow, wpc_perform]
    refine ⟨⟨hle, hstopped.flushMoment⟩, fun r v'' hsync => ?_⟩
    rcases hsync hle with ⟨-, rfl, rfl⟩ | ⟨-, ⟨rfl, rfl⟩ | ⟨-, ⟨e, rfl⟩, rfl⟩⟩
    · exact ⟨by rintro a ⟨⟩, fun e _ => hstopped⟩
    · refine ⟨fun _ _ => ⟨rfl, htrace', _, _, h'.sync p.segment, ?_, ?_⟩, by rintro e ⟨⟩⟩
      · rw [OpenSegment.sync_segment]
        exact hlast
      · intro d hd hin
        rw [← List.map_singleton, ← List.map_append] at hd
        obtain ⟨d, hmem, rfl⟩ := List.mem_map.mp hd
        rw [OpenSegment.sync_segment] at hin ⊢
        rw [OpenSegment.sync]
        split_ifs with hid
        · rfl
        · rcases List.mem_append.mp hin with hin | hin
          · exact hpre d hmem hin
          · exact absurd (List.mem_singleton.mp hin) hid
    · exact ⟨by rintro a ⟨⟩, fun e _ => hstopped⟩
  · exact ⟨rfl, htrace, front, last, h, rfl, by rintro d - ⟨⟩⟩
  · rintro ⟨⟩ t' v' ⟨rfl, htrace', front', last', h', hlast, hall⟩
    refine hQ front' last' v' (h'.allSynced fun d hd => ?_) htrace' hlast
    exact (h'.dirty d hd).elim id fun hin => hall d hd (mem_touchedSegments.mpr hin)

/-- **The fallible part of a flush.** -/
theorem AtEnd.wpc_writeBuffered {inner : WalWriterInner} (hnode : inner.nodeId = base.nodeId)
    {buffered : List BufferedWalRecord} {t : WalWriterState} {v : TailView}
    (h : AtEnd base [] [] [] base.rest t v) (hne : buffered ≠ [])
    (hrecords : buffered.map BufferedWalRecord.record = records) (htrace : v.trace = trace)
    (hstart : base.frames = [] → ∀ entry ∈ buffered.head?, entry.record.lsn = base.startLsn)
    {Q : List WalPosition → WalWriterState → TailView → Prop}
    (hQ : ∀ done positions front last t' v', done.map Frame.record = records →
      AllSynced base done positions front last t' v' → v'.trace = trace → last.segment.frames ≠ [] →
      t'.nextLsn = t.nextLsn → t'.buffered = t.buffered → Q positions t' v') :
    wpc (tailEnv mayFail base.id) (FlushGuard base records trace) (writeBuffered inner buffered) Q
      (fun _ => Stopped base records trace t.nextLsn) t v := by
  rw [writeBuffered, wpc_bind]
  refine h.wpc_appendBufferedFrames hnode buffered hrecords htrace hstart
    fun done positions front last t' v' hdone h' htrace' hframes hnext hbuffered => ?_
  rw [wpc_bind]
  have hdone' : done.map Frame.record <+: records := ⟨[], by rw [hdone, List.append_nil]⟩
  rw [List.nil_append] at h'
  rw [← hnext]
  refine h'.wpc_syncTouched hdone' htrace' fun front' last' v'' hsynced htrace'' hlast => ?_
  rw [wpc_pure]
  refine hQ done positions front' last' t' v'' hdone hsynced htrace'' ?_ hnext hbuffered
  rcases hframes with hframes | ⟨hnil, -⟩
  · rwa [hlast]
  · exact absurd hnil hne

/-! ### Rolling back -/

/-- **Truncating the active segment** takes it back to what it was. -/
theorem Grown.entries_truncate {done : List Frame} {disk : List OpenSegment}
    (h : Grown base done disk) (hne : disk ≠ []) (htorn : base.torn = []) {v : TailView}
    (hstored : v.segments.entries = disk.map OpenSegment.row) :
    (v.segments.modify base.id fun file => (file.truncate base.endOffset).sync).entries =
      base.stored :: disk.tail.map OpenSegment.row := by
  obtain ⟨first, rest, rfl⟩ := List.exists_cons_of_ne_nil hne
  have hfirst := h.head first rfl
  have hids := h.ids
  rw [List.map_cons, List.length_cons, List.range'_succ] at hids
  obtain ⟨hid, hrest⟩ := List.cons_eq_cons.mp hids
  have hlength := LogSegment.length_bytes_of_torn htorn
  -- the frames of the segment are at the front of the file
  have htake : setLen base.endOffset first.segment.bytes = base.bytes := by
    obtain ⟨more, hmore⟩ := hfirst.frames
    have hbytes : first.segment.bytes =
        base.bytes ++ (framesBytes more ++ first.segment.torn) := by
      rw [LogSegment.bytes, LogSegment.bytes, hfirst.header, ← hmore, htorn, framesBytes_append,
        List.append_nil, List.append_assoc, List.append_assoc]
    rw [setLen, hbytes, List.take_left' hlength, List.length_append, hlength,
      Nat.sub_eq_zero_of_le (Nat.le_add_right _ _), List.replicate_zero, List.append_nil]
  rw [SortedTable.entries_modify, hstored, List.map_cons, List.map_cons, List.tail_cons]
  congr 1
  · rw [OpenSegment.row, LogSegment.stored, hid, if_pos rfl, SegmentFile.sync,
      SegmentFile.truncate, htake, SegmentFile.created]
  · refine Eq.trans ?_ (List.map_id _)
    refine List.map_congr_left fun row hrow => ?_
    obtain ⟨d, hd, rfl⟩ := List.mem_map.mp hrow
    have hmem : d.segment.id ∈ List.range' (base.id + 1) rest.length :=
      hrest ▸ List.mem_map_of_mem hd
    rw [List.mem_range'_1] at hmem
    have hne : d.segment.id ≠ base.id := by omega
    show (d.segment.id, if d.segment.id = base.id then _ else _) = _
    rw [if_neg hne]
    rfl

/-- **Removing one of the other segments**, if it is there. -/
theorem wpc_removeStaleSegment (hmay : ∀ o, mayFail o → ¬RollbackOp o) {done : List Frame}
    {disk rest : List OpenSegment} (hdone : done.map Frame.record <+: records)
    (hgrown : Grown base done disk) (hrest : rest <:+ disk.tail) {segmentId : Nat}
    (hids : ∃ n, (rest.map fun d => d.segment.id) = List.range' segmentId n)
    (hlt : base.id < segmentId) {t : WalWriterState} {v : TailView}
    (hstored : v.segments.entries = base.stored :: rest.map OpenSegment.row)
    (htrace : v.trace = trace) {Q : Unit → WalWriterState → TailView → Prop}
    {E : IoError → WalWriterState → TailView → Prop}
    (hQ : ∀ v', v'.trace = trace →
      v'.segments.entries = base.stored :: rest.tail.map OpenSegment.row → Q () t v') :
    wpc (tailEnv mayFail base.id) (FlushGuard base records trace) (removeStaleSegment segmentId) Q E
      t v := by
  rw [removeStaleSegment, wpc_bind, wpc_perform]
  refine ⟨⟨hlt, .undoing done disk rest hdone hgrown hrest hstored htrace⟩, fun r v' hremove => ?_⟩
  obtain ⟨n, hids⟩ := hids
  rcases hremove hlt.le with ⟨hnone, rfl, rfl⟩ | ⟨hsome, ⟨rfl, rfl⟩ | ⟨hfail, -⟩⟩
  · -- no such segment: none of the others is left
    cases rest with
    | nil => exact hQ v' htrace hstored
    | cons d rest =>
      cases n with
      | zero => cases hids
      | succ n =>
        rw [List.map_cons, List.range'_succ] at hids
        rw [SortedTable.lookup_eq_none, hstored] at hnone
        exact absurd (List.cons_eq_cons.mp hids).1
          (hnone d.row (List.mem_cons_of_mem _ (List.mem_cons_self)))
  · refine hQ _ htrace ?_
    rw [TailView.withSegments_segments, SortedTable.entries_erase, hstored, List.filter_cons,
      if_pos (decide_eq_true (show base.stored.1 ≠ segmentId from hlt.ne))]
    congr 1
    cases rest with
    | nil => rfl
    | cons d rest =>
      cases n with
      | zero => cases hids
      | succ n =>
        rw [List.map_cons, List.range'_succ] at hids
        obtain ⟨hid, hids⟩ := List.cons_eq_cons.mp hids
        rw [List.map_cons, List.filter_cons, if_neg (by simp [OpenSegment.row, hid]),
          List.tail_cons, List.filter_eq_self]
        intro row hrow
        obtain ⟨d', hd', rfl⟩ := List.mem_map.mp hrow
        have hmem : d'.segment.id ∈ List.range' (segmentId + 1) n := hids ▸ List.mem_map_of_mem hd'
        rw [List.mem_range'_1] at hmem
        refine decide_eq_true ?_
        show d'.segment.id ≠ segmentId
        omega
  · exact absurd trivial (hmay _ hfail)

/-- **`truncate_after`** takes the files back to what they were. -/
theorem Stopped.wpc_truncateAfter (hmay : ∀ o, mayFail o → ¬RollbackOp o)
    (htorn : base.torn = []) {t : WalWriterState} {v : TailView} {nextLsn : Nat}
    (h : Stopped base records trace nextLsn t v) {Q : Unit → WalWriterState → TailView → Prop}
    {E : IoError → WalWriterState → TailView → Prop}
    (hQ : ∀ v', v'.trace = trace → v'.segments.entries = [base.stored] → Q () t v') :
    wpc (tailEnv mayFail base.id) (FlushGuard base records trace)
      (truncateAfter base.id base.endOffset t.segmentId) Q E t v := by
  obtain ⟨done, disk, hdone, hgrown, hne, hstored, hlength⟩ := h.moment
  have htail : (disk.tail.map fun d => d.segment.id) =
      List.range' (base.id + 1) (disk.length - 1) := by
    rw [List.map_tail, hgrown.ids]
    cases disk with
    | nil => exact absurd rfl hne
    | cons first rest => rw [List.length_cons, List.range'_succ]; rfl
  rw [truncateAfter, wpc_bind, fileOp, wpc_orThrow, wpc_perform]
  refine ⟨⟨le_rfl, h.flushMoment⟩, fun r v' htruncate => ?_⟩
  rcases htruncate le_rfl with ⟨hnone, -, -⟩ | ⟨-, ⟨rfl, rfl⟩ | ⟨hfail, -⟩⟩
  · -- the active segment is there
    obtain ⟨first, rest, rfl⟩ := List.exists_cons_of_ne_nil hne
    rw [SortedTable.lookup_eq_none, hstored] at hnone
    have hids := hgrown.ids
    rw [List.map_cons, List.length_cons, List.range'_succ] at hids
    exact absurd (List.cons_eq_cons.mp hids).1 (hnone first.row List.mem_cons_self)
  · refine ⟨fun _ _ => ?_, by rintro e ⟨⟩⟩
    rw [wpc_bind]
    -- the others are removed in the order of their ids
    let Inv : List Nat → WalWriterState → TailView → Prop := fun pre t' v' =>
      t' = t ∧ v'.trace = trace ∧
        v'.segments.entries = base.stored :: (disk.tail.drop pre.length).map OpenSegment.row
    refine wpc_imp (wpc_forEach Inv _ ?_ ?_) ?_ fun _ _ _ h => h
    · rintro pre segmentId post t' v' hsplit ⟨rfl, htrace', hstored'⟩
      have hid : segmentId = base.id + 1 + pre.length := by
        have hget := congrArg (·[pre.length]?) hsplit
        simp only [List.getElem?_append_right le_rfl, Nat.sub_self, List.getElem?_cons_zero] at hget
        obtain ⟨_, hget⟩ := List.getElem?_eq_some_iff.mp hget
        rw [List.getElem_range'] at hget
        omega
      refine wpc_removeStaleSegment hmay hdone hgrown (List.drop_suffix _ _)
        ⟨disk.length - 1 - pre.length, ?_⟩ (by omega) hstored' htrace' fun v'' htrace'' hstored'' =>
          ⟨rfl, htrace'', ?_⟩
      · rw [List.map_drop, htail, List.drop_range', hid, Nat.mul_one]
      · rw [hstored'', List.tail_drop, List.length_append, List.length_singleton]
    · refine ⟨rfl, h.trace, ?_⟩
      rw [TailView.withSegments_segments, hgrown.entries_truncate hne htorn hstored]
      rfl
    · rintro ⟨⟩ t' v' ⟨rfl, htrace', hstored'⟩
      have hnil : disk.tail.drop (List.range' (base.id + 1) (t'.segmentId - base.id)).length = [] := by
        rw [List.length_range', List.drop_eq_nil_iff, List.length_tail]
        omega
      rw [hnil] at hstored'
      rw [fileOp, wpc_orThrow, wpc_perform]
      refine ⟨⟨trivial, .undoing done disk [] hdone hgrown (List.nil_suffix) hstored' htrace'⟩,
        fun r v'' hsync => ?_⟩
      rcases hsync with ⟨rfl, rfl⟩ | ⟨hfail, -⟩
      · exact ⟨fun _ _ => hQ _ htrace' hstored', by rintro e ⟨⟩⟩
      · exact absurd trivial (hmay _ hfail)
  · exact absurd trivial (hmay _ hfail)

/-! ### Answering -/

/-- **Answering the appends** after everything is synced. -/
theorem AllSynced.wpc_notifyBufferedSuccess {done : List Frame} {positions : List WalPosition}
    {front : List OpenSegment} {last : OpenSegment} {t : WalWriterState} {v : TailView}
    (h : AllSynced base done positions front last t v) (hdone : done.map Frame.record = records)
    {buffered : List BufferedWalRecord} (hrecords : buffered.map BufferedWalRecord.record = records)
    (htrace : v.trace = trace)
    {Q : Unit → WalWriterState → TailView → Prop} {E : IoError → WalWriterState → TailView → Prop}
    (hQ : ∀ v', v'.segments = v.segments → v'.trace = trace ++ successEvents buffered positions →
      Q () t v') :
    wpc (tailEnv mayFail base.id) (FlushGuard base records trace)
      (notifyBufferedSuccess buffered positions) Q E t v := by
  -- the answers to the pairs already visited
  let answers : List (BufferedWalRecord × WalPosition) → List Event := fun pre =>
    pre.flatMap fun (entry, position) =>
      entry.response.toList.map fun channel => .responded channel entry.record (.ok position)
  let Inv : List (BufferedWalRecord × WalPosition) → WalWriterState → TailView → Prop :=
    fun pre t' v' => t' = t ∧ v'.segments = v.segments ∧ v'.trace = trace ++ answers pre
  refine wpc_imp (wpc_forEach Inv _ ?_ ?_) ?_ fun _ _ _ h => h
  · rintro pre ⟨entry, position⟩ post t' v' hsplit ⟨rfl, hsegments, htrace'⟩
    have hmem : ∀ pair ∈ pre ++ [(entry, position)], pair.1.record ∈ records := by
      intro pair hpair
      have hin : pair ∈ buffered.zip positions := by
        rw [hsplit, ← List.singleton_append, ← List.append_assoc]
        exact List.mem_append_left _ hpair
      rw [← hrecords]
      exact List.mem_map_of_mem (List.of_mem_zip hin).1
    have hevents : ∀ event ∈ answers pre, ∃ channel, ∃ record ∈ records, ∃ position,
        event = .responded channel record (.ok position) := by
      intro event hevent
      obtain ⟨pair, hpair, hevent⟩ := List.mem_flatMap.mp hevent
      obtain ⟨channel, -, rfl⟩ := List.mem_map.mp hevent
      exact ⟨channel, _, hmem pair (List.mem_append_left _ hpair), _, rfl⟩
    have hmoment : FlushMoment base records trace v' :=
      .written done _ _ hdone h.grown (by simp) h.whole (hsegments ▸ h.stored) htrace' hevents
    have hanswers : answers (pre ++ [(entry, position)]) = answers pre ++
        entry.response.toList.map fun channel => .responded channel entry.record (.ok position) := by
      show List.flatMap _ (pre ++ [_]) = List.flatMap _ pre ++ _
      rw [List.flatMap_append, List.flatMap_singleton]
    cases hchannel : entry.response with
    | none =>
      simp only [hchannel, wpc_pure]
      refine ⟨rfl, hsegments, ?_⟩
      rw [hanswers, hchannel, htrace', Option.toList_none, List.map_nil, List.append_nil]
    | some channel =>
      simp only [hchannel]
      refine ⟨⟨trivial, hmoment⟩, ?_⟩
      rintro r v'' rfl
      refine ⟨rfl, hsegments, ?_⟩
      rw [hanswers, hchannel, TailView.log_trace, htrace', List.append_assoc]
      rfl
  · exact ⟨rfl, rfl, by rw [htrace]; exact (List.append_nil _).symm⟩
  · rintro ⟨⟩ t' v' ⟨rfl, hsegments, htrace'⟩
    exact hQ v' hsegments htrace'

/-- **Answering the appends with the error** after the rollback. -/
theorem wpc_notifyBufferedFailure {buffered : List BufferedWalRecord}
    (hrecords : buffered.map BufferedWalRecord.record = records) {t : WalWriterState}
    {v : TailView} (hstored : v.segments.entries = [base.stored]) (htrace : v.trace = trace)
    (message : String) {Q : Unit → WalWriterState → TailView → Prop}
    {E : IoError → WalWriterState → TailView → Prop}
    (hQ : ∀ v', v'.segments.entries = [base.stored] →
      v'.trace = trace ++ failureEvents buffered message → Q () t v') :
    wpc (tailEnv mayFail base.id) (FlushGuard base records trace)
      (notifyBufferedFailure buffered message) Q E t v := by
  let Inv : List BufferedWalRecord → WalWriterState → TailView → Prop := fun pre t' v' =>
    t' = t ∧ v'.segments = v.segments ∧ v'.trace = trace ++ failureEvents pre message
  refine wpc_imp (wpc_forEach Inv _ ?_ ?_) ?_ fun _ _ _ h => h
  · rintro pre entry post t' v' hsplit ⟨rfl, hsegments, htrace'⟩
    have hevents : ∀ event ∈ failureEvents pre message, ∃ channel, ∃ record ∈ records, ∃ error,
        event = .responded channel record (.error error) := by
      intro event hevent
      obtain ⟨entry', hentry', hevent⟩ := List.mem_flatMap.mp hevent
      obtain ⟨channel, -, rfl⟩ := List.mem_map.mp hevent
      refine ⟨channel, _, ?_, _, rfl⟩
      rw [← hrecords, hsplit]
      exact List.mem_map_of_mem (List.mem_append_left _ hentry')
    have hanswers : failureEvents (pre ++ [entry]) message = failureEvents pre message ++
        entry.response.toList.map fun channel =>
          .responded channel entry.record (.error (.other message)) := by
      rw [failureEvents, List.flatMap_append, List.flatMap_singleton]
      rfl
    cases hchannel : entry.response with
    | none =>
      dsimp only
      refine ⟨rfl, hsegments, ?_⟩
      rw [hanswers, hchannel, htrace', Option.toList_none, List.map_nil, List.append_nil]
    | some channel =>
      dsimp only
      refine ⟨⟨trivial, .undone _ (hsegments ▸ hstored) htrace' hevents⟩, ?_⟩
      rintro r v'' rfl
      refine ⟨rfl, hsegments, ?_⟩
      rw [hanswers, hchannel, TailView.log_trace, htrace', List.append_assoc]
      rfl
  · exact ⟨rfl, rfl, by rw [htrace]; exact (List.append_nil _).symm⟩
  · rintro ⟨⟩ t' v' ⟨rfl, hsegments, htrace'⟩
    exact hQ v' (hsegments ▸ hstored) htrace'

/-! ### The flush -/

/-- **The records are flushed**: the log from the active segment on holds their entries `added`
after what it held before, the appends are answered with their positions, and the writer stands at
the end of the log. -/
structure Flushed (base : LogSegment) (front : List LogSegment) (last : LogSegment)
    (added : List WalEntry) (t : WalWriterState) (v : TailView) (t' : WalWriterState)
    (v' : TailView) : Prop where
  stored : v'.segments.entries = (front ++ [last]).map LogSegment.stored
  ids : (front ++ [last]).map LogSegment.id = List.range' base.id (front.length + 1)
  nodeIds : ∀ segment ∈ front ++ [last], segment.nodeId = base.nodeId
  torn : last.torn = []
  nonempty : t.buffered ≠ [] → last.frames ≠ []
  unchanged : t.buffered = [] → front = [] ∧ last = base
  entries : logEntries (front ++ [last]) = base.entries ++ added
  records : added.map WalEntry.record = t.buffered.map BufferedWalRecord.record
  trace : v'.trace = v.trace ++ successEvents t.buffered (added.map WalEntry.position)
  state : t' = ⟨last.id, last.endOffset, t.nextLsn, []⟩

/-- **The flush is rolled back**: the files are what they were; the records are still buffered, or
their appends are answered with the error and their LSNs are free again. -/
structure RolledBack (base : LogSegment) (message : String) (t : WalWriterState) (v : TailView)
    (t' : WalWriterState) (v' : TailView) : Prop where
  stored : v'.segments.entries = [base.stored]
  state : (t' = t ∧ v'.trace = v.trace ∧ ∀ entry ∈ t.buffered, entry.response = none) ∨
    ∃ first, t.buffered.head? = some first ∧
      t' = ⟨t.segmentId, t.offset, first.record.lsn.toNat, []⟩ ∧
      v'.trace = v.trace ++ failureEvents t.buffered message ∧
      ∃ entry ∈ t.buffered, entry.response ≠ none

/-- The outcome where everything was written and synced. -/
theorem AllSynced.flushed {done : List Frame} {positions : List WalPosition}
    {front : List OpenSegment} {last : OpenSegment} {t t' : WalWriterState} {v v' v'' : TailView}
    (h : AllSynced base done positions front last t' v')
    (hdone : done.map Frame.record = t.buffered.map BufferedWalRecord.record)
    (hne : t.buffered ≠ []) (hframes : last.segment.frames ≠ []) (hnext : t'.nextLsn = t.nextLsn)
    (hbuffered : t'.buffered = []) (hsegments : v''.segments = v'.segments)
    (htrace : v''.trace = v.trace ++ successEvents t.buffered positions) :
    ∃ added, Flushed base (front.map OpenSegment.segment) last.segment added t v t' v'' ∧
      added.map WalEntry.position = positions := by
  have hall : (front ++ [last]).map OpenSegment.segment =
      front.map OpenSegment.segment ++ [last.segment] := by
    rw [List.map_append, List.map_singleton]
  -- the entries at the positions are those of the records
  obtain ⟨added, hadded, hpositions⟩ := h.placed
  obtain ⟨added', hadded', hrecords⟩ := h.grown.entries (by simp)
  have heq : added' = added := List.append_cancel_left (hadded'.symm.trans hadded)
  subst heq
  refine ⟨added', ⟨?_, ?_, ?_, h.whole last (by simp), fun _ => hframes,
    fun hnil => absurd hnil hne, hall ▸ hadded, hrecords.trans hdone, by rw [htrace, hpositions],
    ?_⟩, hpositions⟩
  · rw [hsegments, h.stored, ← hall, List.map_map]
    rfl
  · have hids := h.grown.ids
    rw [List.length_append, List.length_singleton] at hids
    rw [← hall, List.map_map, List.length_map]
    exact hids
  · intro segment hsegment
    rw [← hall] at hsegment
    obtain ⟨d, hd, rfl⟩ := List.mem_map.mp hsegment
    exact h.grown.nodeIds d hd
  · obtain ⟨segmentId, offset, nextLsn, buffered⟩ := t'
    have hsegmentId := h.segmentId
    have hoffset := h.offset
    simp only at hsegmentId hoffset hnext hbuffered
    rw [hsegmentId, hoffset, hnext, hbuffered]

/-- **`flush_buffer_locked`** on the active segment `base`, which is synced as a whole: it flushes
the buffered records, or it rolls back. -/
theorem wpc_flushBufferLocked (hmay : ∀ o, mayFail o → ¬RollbackOp o) {inner : WalWriterInner}
    (hnode : inner.nodeId = base.nodeId) (htorn : base.torn = []) {t : WalWriterState}
    {v : TailView} (hsegmentId : t.segmentId = base.id) (hoffset : t.offset = base.endOffset)
    (hstored : v.segments.entries = [base.stored])
    (hstart : base.frames = [] → ∀ entry ∈ t.buffered.head?, entry.record.lsn = base.startLsn) :
    wpc (tailEnv mayFail base.id)
      (FlushGuard base (t.buffered.map BufferedWalRecord.record) v.trace) (flushBufferLocked inner)
      (fun _ t' v' => ∃ front last added, Flushed base front last added t v t' v' ∧
        PlacedAt inner t added)
      (fun error t' v' => RolledBack base error.message t v t' v') t v := by
  rw [flushBufferLocked, wpc_bind, wpc_get]
  cases hbuffered : t.buffered with
  | nil =>
    simp only [wpc_pure]
    refine ⟨[], base, [], ⟨hstored, rfl, ?_, htorn, fun h => absurd hbuffered h,
      fun _ => ⟨rfl, rfl⟩, ?_, ?_, ?_, ?_⟩, [], rfl, rfl⟩
    · intro segment hsegment
      rw [List.mem_singleton.mp hsegment]
    · rw [List.nil_append, logEntries_cons, logEntries_nil]
    · rw [hbuffered]
      rfl
    · rw [hbuffered]
      exact (List.append_nil _).symm
    · rw [← hsegmentId, ← hoffset, ← hbuffered]
  | cons first rest =>
    simp only [wpc_bind, wpc_set, wpc_attempt]
    rw [hbuffered] at hstart
    -- the flush starts at the end of the active segment
    let t₀ : WalWriterState := { t with buffered := [] }
    have hend : AtEnd base [] [] [] base.rest t₀ v := by
      refine ⟨Grown.start base, htorn, ?_, hsegmentId, hoffset, ⟨[], ?_, rfl⟩, by rintro p ⟨⟩, ?_⟩
      · rw [hstored, List.nil_append, List.map_singleton, OpenSegment.row_of_synced htorn rfl]
        rfl
      · rw [List.nil_append, List.map_singleton, logEntries_cons, logEntries_nil]
        rfl
      · intro d hd
        rw [List.nil_append, List.mem_singleton] at hd
        rw [hd]
        exact Or.inl rfl
    have hwrite : wpc (tailEnv mayFail base.id)
        (FlushGuard base ((first :: rest).map BufferedWalRecord.record) v.trace)
        (writeBuffered inner (first :: rest))
        (fun positions t' v' => ∃ done front last,
          done.map Frame.record = (first :: rest).map BufferedWalRecord.record ∧
          AllSynced base done positions front last t' v' ∧ v'.trace = v.trace ∧
          last.segment.frames ≠ [] ∧ t'.nextLsn = t.nextLsn ∧ t'.buffered = [])
        (fun _ => Stopped base ((first :: rest).map BufferedWalRecord.record) v.trace t.nextLsn) t₀ v :=
      hend.wpc_writeBuffered hnode (List.cons_ne_nil first rest) rfl rfl hstart
        fun done positions front last t' v' hdone hsynced htrace' hframes hnext hnone =>
          ⟨done, front, last, hdone, hsynced, htrace', hframes, hnext, hnone⟩
    refine wpc_imp (wpc_and hwrite (wpc_writeBuffered_placed inner (first :: rest))) ?_ ?_
    · rintro positions t' v' ⟨⟨done, front, last, hdone, hsynced, htrace', hframes, hnext, hnone⟩,
        frames, hrecords, hplaced⟩
      refine hsynced.wpc_notifyBufferedSuccess hdone rfl htrace' fun v'' hsegments htrace'' => ?_
      obtain ⟨added, hflushed, hpositions⟩ := hsynced.flushed (hbuffered ▸ hdone)
        (hbuffered ▸ List.cons_ne_nil _ _) hframes hnext hnone hsegments (hbuffered ▸ htrace'')
      refine ⟨_, _, added, hflushed, frames, ?_, hpositions.trans hplaced⟩
      rw [hrecords, hflushed.records, hbuffered]
    · rintro error t' v' ⟨hstopped, -⟩
      rw [hsegmentId, hoffset, wpc_get]
      refine hstopped.wpc_truncateAfter hmay htorn fun v₁ htrace₁ hstored₁ => ?_
      rw [wpc_ite]
      refine ⟨fun hwaits => ?_, fun hnone => ?_⟩
      · rw [wpc_bind, wpc_set]
        refine wpc_notifyBufferedFailure rfl hstored₁ htrace₁ _ fun v₂ hstored₂ htrace₂ => ?_
        obtain ⟨entry, hentry, hsome⟩ := List.any_eq_true.mp hwaits
        refine ⟨hstored₂, Or.inr ⟨first, by rw [hbuffered]; rfl, by rw [hsegmentId, hoffset],
          hbuffered ▸ htrace₂, entry, hbuffered ▸ hentry, ?_⟩⟩
        exact Option.isSome_iff_ne_none.mp hsome
      · rw [wpc_set, wpc_throw]
        refine ⟨hstored₁, Or.inl ⟨?_, htrace₁, fun entry hentry => ?_⟩⟩
        · rw [hstopped.nextLsn, ← hsegmentId, ← hoffset, ← hbuffered]
        · rw [Bool.not_eq_true, List.any_eq_false] at hnone
          have hentry' := hnone entry (hbuffered ▸ hentry)
          rwa [Bool.not_eq_true, Option.isSome_eq_false_iff, Option.isNone_iff_eq_none] at hentry'

end Specs

end Ingest4x.Wal
