import Ingest4x.Lifecycle.Answers
import Ingest4x.Lifecycle.Running
import Ingest4x.Wal.Prefix

/-! # Crashes

The machine may go down in the middle of a call, and with it the bytes that were written and not synced.
What is left of a flush is then a part of what it wrote, and behind it a torn frame at most.

* **`Crashed`** — a world after a crash, with `WholeLog.crashed`: what is synced stays.
* **`Working`** — what a call of the running writer has done so far.
* **`Working.crashed`** — a crash leaves the log as it was, or longer by some of the records. -/

namespace Ingest4x.Wal

open Effect

/-! ### What a crash leaves -/

/-- **A world after a crash**: of each segment a part is left that holds what was synced of it. A new
process has other clocks. -/
structure Crashed (w w' : World) : Prop where
  path : w'.dir.path = w.dir.path
  nodeIdFile : w'.dir.nodeIdFile = w.dir.nodeIdFile
  checkpointFile : w'.dir.checkpointFile = w.dir.checkpointFile
  trace : w'.trace = w.trace
  segments : ∃ left : Nat → Bytes,
    w'.dir.segments = w.dir.segments.mapValues (fun id _ => .created (left id)) ∧
      ∀ row ∈ w.dir.segments.entries,
        left row.1 <+: row.2.bytes ∧ row.2.synced ≤ (left row.1).length

/-- Of a file that is synced as a whole, the whole is left. -/
theorem eq_of_synced {file : SegmentFile} {left : Bytes} (hsynced : file.synced = file.bytes.length)
    (hleft : left <+: file.bytes) (hlen : file.synced ≤ left.length) : .created left = file := by
  have hbytes : left = file.bytes := hleft.eq_of_length_le (hsynced ▸ hlen)
  subst hbytes
  rw [SegmentFile.created, ← hsynced]

section Codec

variable [RecordCodec] [CheckpointCodec] {w w' w₁ : World}

omit [RecordCodec] [CheckpointCodec] in
/-- A crash does nothing to rows that are synced. -/
theorem map_created_eq {rows : List (Nat × SegmentFile)} {left : Nat → Bytes}
    (hsynced : ∀ row ∈ rows, row.2.synced = row.2.bytes.length)
    (hleft : ∀ row ∈ rows, left row.1 <+: row.2.bytes ∧ row.2.synced ≤ (left row.1).length) :
    rows.map (fun row => (row.1, SegmentFile.created (left row.1))) = rows := by
  refine (List.map_congr_left fun row hrow => ?_).trans (List.map_id rows)
  obtain ⟨hpart, hlen⟩ := hleft row hrow
  rw [eq_of_synced (hsynced row hrow) hpart hlen]
  rfl

omit [RecordCodec] [CheckpointCodec] in
/-- A machine that goes down where everything is synced loses nothing. -/
theorem Crashed.of_synced
    (h : ∀ row ∈ w.dir.segments.entries, row.2.synced = row.2.bytes.length) : Crashed w w := by
  -- what is left of a file is the file
  obtain ⟨left, hleft⟩ : ∃ left : Nat → Bytes, ∀ row ∈ w.dir.segments.entries,
      left row.1 = row.2.bytes := by
    refine ⟨fun id => ((w.dir.segments.lookup id).map SegmentFile.bytes).getD [],
      fun row hrow => ?_⟩
    show ((w.dir.segments.lookup row.1).map SegmentFile.bytes).getD [] = row.2.bytes
    rw [SortedTable.lookup_eq_some.mpr hrow]
    rfl
  have hall : ∀ row ∈ w.dir.segments.entries,
      left row.1 <+: row.2.bytes ∧ row.2.synced ≤ (left row.1).length := by
    intro row hrow
    rw [hleft row hrow]
    exact ⟨List.prefix_rfl, (h row hrow).le⟩
  exact ⟨rfl, rfl, rfl, rfl, left, SortedTable.ext (map_created_eq h hall).symm, hall⟩

omit [CheckpointCodec] in
/-- The rows of a log at rest are synced. -/
theorem synced_of_stored {rows : List (Nat × SegmentFile)} {log : List LogSegment}
    (h : ∀ row ∈ rows, ∃ segment ∈ log, row = segment.stored) :
    ∀ row ∈ rows, row.2.synced = row.2.bytes.length := by
  intro row hrow
  obtain ⟨segment, -, rfl⟩ := h row hrow
  rfl

/-- **A crash leaves the whole log**, while nothing is written. -/
theorem WholeLog.crashed {log : List LogSegment} (h : WholeLog w.dir log) (hcrash : Crashed w w') :
    WholeLog w'.dir log := by
  obtain ⟨left, hsegments, hleft⟩ := hcrash.segments
  refine h.congr ?_ hcrash.nodeIdFile hcrash.checkpointFile
  have hstored : ∀ row ∈ w.dir.segments.entries, ∃ segment ∈ log, row = segment.stored := by
    intro row hrow
    obtain ⟨keep, hstored, -⟩ := h.kept
    rw [hstored] at hrow
    obtain ⟨segment, hsegment, rfl⟩ := List.mem_map.mp hrow
    exact ⟨segment, List.mem_of_mem_filter hsegment, rfl⟩
  rw [hsegments]
  exact SortedTable.ext (map_created_eq (synced_of_stored hstored) hleft)

/-! ### The log with a longer last segment -/

/-- **The appends that are answered with a position**: their records stand there. -/
def Answered (entries : List WalEntry) (events : List Event) : Prop :=
  ∀ channel record position, .responded channel record (.ok position) ∈ events →
    ∃ entry ∈ entries, entry.record = record ∧ entry.position = position

omit [RecordCodec] [CheckpointCodec] in
theorem answered_nil (entries : List WalEntry) : Answered entries [] := by
  rintro _ _ _ ⟨⟩

omit [RecordCodec] [CheckpointCodec] in
theorem Answered.ofPrefix {entries : List WalEntry} {events events' : List Event}
    (h : Answered entries events) (hpre : events' <+: events) : Answered entries events' :=
  fun channel record position hmem => h channel record position (hpre.subset hmem)

omit [RecordCodec] [CheckpointCodec] in
/-- The answers of a flush that succeeded. -/
theorem answered_successEvents {buffered : List BufferedWalRecord} {added : List WalEntry}
    (hrecords : added.map WalEntry.record = buffered.map BufferedWalRecord.record) :
    Answered added (successEvents buffered (added.map WalEntry.position)) := by
  induction added generalizing buffered with
  | nil =>
    intro channel record position hmem
    rw [List.map_nil, successEvents, List.zip_nil_right] at hmem
    cases hmem
  | cons entry added ih =>
    cases buffered with
    | nil => cases hrecords
    | cons first rest =>
      obtain ⟨hrecord, hrest⟩ := List.cons_eq_cons.mp hrecords
      intro channel record position hmem
      rw [List.map_cons, successEvents, List.zip_cons_cons, List.flatMap_cons] at hmem
      rcases List.mem_append.mp hmem with hmem | hmem
      · obtain ⟨channel', -, heq⟩ := List.mem_map.mp hmem
        cases heq
        exact ⟨entry, List.mem_cons_self, hrecord, rfl⟩
      · obtain ⟨entry', hentry', hsame⟩ := ih hrest channel record position hmem
        exact ⟨entry', List.mem_cons_of_mem _ hentry', hsame⟩

omit [RecordCodec] [CheckpointCodec] in
/-- The answers of a flush that was rolled back. -/
theorem answered_failureEvents (entries : List WalEntry) (buffered : List BufferedWalRecord)
    (message : String) : Answered entries (failureEvents buffered message) := by
  intro channel record position hmem
  obtain ⟨entry, -, hmem⟩ := List.mem_flatMap.mp hmem
  obtain ⟨channel', -, heq⟩ := List.mem_map.mp hmem
  cases heq

namespace Running

variable {inner : WalWriterInner} {t : WalWriterState} {older : List LogSegment}
  {active segment : LogSegment} {more : List Frame} {dir' : WalDir}

/-- **More frames in the active segment**, of the first of the buffered records. -/
theorem longer (h : Running inner t w.dir older active) (hid : segment.id = active.id)
    (hnodeId : segment.nodeId = active.nodeId) (hstart : segment.startLsn = active.startLsn)
    (hframes : segment.frames = active.frames ++ more)
    (hmore : more.map Frame.record <+: t.buffered.map BufferedWalRecord.record)
    (hnodeIdFile : dir'.nodeIdFile = w.dir.nodeIdFile)
    (hfile : dir'.checkpointFile = w.dir.checkpointFile)
    (hrows : dir'.segments.entries = (w.dir.segments.below active.id).entries ++ [segment.stored]) :
    ∃ added, WholeLog dir' (older ++ [segment]) ∧
      logEntries (older ++ [segment]) = logEntries (older ++ [active]) ++ added ∧
      segment.entries = active.entries ++ added ∧
      added.map WalEntry.record = more.map Frame.record := by
  obtain ⟨rows, hentries, -, hbelow, -⟩ := h.whole.split
  rw [hbelow] at hrows
  have hsegment : segment.entries = active.entries ++ entriesFrom active.id active.endOffset more := by
    rw [LogSegment.entries, hid, hframes, entriesFrom_append]
    rfl
  have hadded : logEntries (older ++ [segment]) = logEntries (older ++ [active]) ++
      entriesFrom active.id active.endOffset more := by
    rw [logEntries_append, logEntries_append, logEntries_cons, logEntries_cons, logEntries_nil,
      List.append_nil, List.append_nil, hsegment, List.append_assoc]
  -- the LSNs go on
  have hlsns : (entriesFrom active.id active.endOffset more).map (fun entry => entry.position.lsn) =
      List.range' ((logEntries (older ++ [active])).length + 1) more.length := by
    have hrecords := map_record_entriesFrom active.id active.endOffset more
    have hlsn : ∀ entry ∈ entriesFrom active.id active.endOffset more,
        entry.position.lsn = entry.record.lsn.toNat := fun entry hentry =>
      lsn_of_mem_entriesFrom hentry
    rw [List.map_congr_left hlsn]
    have hpre := hmore.map fun record : WalRecord => record.lsn.toNat
    rw [← hrecords, List.map_map, List.map_map] at hpre
    obtain ⟨rest, hrest⟩ := hpre
    have hbuffered := h.rest.buffered
    rw [show (t.buffered.map fun entry => entry.record.lsn.toNat) = _ from hrest.symm] at hbuffered
    obtain ⟨k, -, hfront, -⟩ := List.range'_eq_append_iff.mp hbuffered.symm
    have hk := congrArg List.length hfront
    rw [List.length_map, length_entriesFrom, List.length_range'] at hk
    rw [hk]
    exact hfront
  refine ⟨_, ?_, hadded, hsegment, map_record_entriesFrom _ _ _⟩
  refine h.whole.replaceTail [segment] hnodeIdFile hfile hentries hrows ?_ ?_ ?_ ?_
    ⟨_, hadded⟩
  · refine List.pairwise_append.mpr ⟨(List.pairwise_append.mp h.whole.ids).1,
      List.pairwise_singleton _ _, fun s hs s' hs' => ?_⟩
    rw [List.mem_singleton.mp hs', hid]
    exact h.lt_active s hs
  · rw [hadded, List.map_append, h.whole.lsns, hlsns, List.length_append, length_entriesFrom,
      Nat.add_comm _ 1, List.range'_append_1]
  · rw [tornLast_append_singleton]
    intro hnone
    have hlen := congrArg List.length hnone
    rw [LogSegment.length_entries, hframes, List.length_append, List.length_nil] at hlen
    have hactive : active.frames = [] := List.eq_nil_of_length_eq_zero (by omega)
    have hmore : more = [] := List.eq_nil_of_length_eq_zero (by omega)
    have hsame : (logEntries (older ++ [segment])).length =
        (logEntries (older ++ [active])).length := by
      rw [hadded, hmore, entriesFrom_nil, List.append_nil]
    have hnoEntries : active.entries = [] := by
      rw [LogSegment.entries, hactive, entriesFrom_nil]
    rw [hsame]
    refine ⟨(tornLast_append_singleton.mp h.whole.torn hnoEntries).1, fun _ => ?_⟩
    rw [hstart]
    exact h.rest.start hactive
  · intro s hs
    rw [List.mem_singleton.mp hs, hnodeId]
    exact h.whole.nodeIds active (by simp)

end Running

/-! ### Calls that are cut off -/

/-- **What a call of the running writer has done so far**, on its way to a flush of the buffer of
`t`. -/
inductive Working (inner : WalWriterInner) (t : WalWriterState) (w : World)
    (older : List LogSegment) (active : LogSegment) (w' : World) : Prop
  | idle (h : w' = w)
  | committed {t' : WalWriterState} {older' : List LogSegment} {active' : LogSegment}
      {added : List WalEntry}
      (h : Running.Committed inner t w (older ++ [active]) t' w' older' active' added)
  | undone {message : String} {t' : WalWriterState}
      (h : Running.Undone inner message t w older active t' w')
  | flushing (front : SameFront active.id w w')
      (moment : FlushMoment active (t.buffered.map BufferedWalRecord.record)
        (tailView active.id w).trace (tailView active.id w'))
      (told : Told active t.buffered w w')

/-- The writer does not touch the checkpoint. -/
theorem Working.checkpointFile {inner : WalWriterInner} {t : WalWriterState}
    {older : List LogSegment} {active : LogSegment} (h : Working inner t w older active w') :
    w'.dir.checkpointFile = w.dir.checkpointFile := by
  cases h with
  | idle hidle => rw [hidle]
  | committed hcommitted =>
    obtain ⟨bound, hfront⟩ := hcommitted.front
    exact hfront.checkpointFile
  | undone hundone =>
    obtain ⟨bound, hfront⟩ := hundone.front
    exact hfront.checkpointFile
  | flushing hfront _ _ => exact hfront.checkpointFile

/-- **What a crash leaves of the log**: it is longer by the first of the buffered records, and every
append that was answered with a position since has its entry there. -/
def LeftOf (log : List LogSegment) (buffered : List BufferedWalRecord) (w w' : World) : Prop :=
  ∃ log' added, WholeLog w'.dir log' ∧ logEntries log' = logEntries log ++ added ∧
    added.map WalEntry.record <+: buffered.map BufferedWalRecord.record ∧
    ∃ events, w'.trace = w.trace ++ events ∧ Answered added events

section Left

variable {mayFail : SysOp → Prop} {inner : WalWriterInner} {t : WalWriterState}
  {older : List LogSegment} {active : LogSegment}

omit [CheckpointCodec] in
/-- The events of a flush so far, where it has answered no append with a position. -/
theorem Told.soFar {buffered : List BufferedWalRecord} (h : Told active buffered w w₁) :
    (∃ events, w₁.trace = w.trace ++ events ∧ Answered [] events) ∨
    ∃ done disk added events, done.map Frame.record = buffered.map BufferedWalRecord.record ∧
      Grown active done disk ∧ disk ≠ [] ∧ (∀ d ∈ disk, d.segment.torn = []) ∧
      (tailView active.id w₁).segments.entries = (disk.map fun d => d.segment.stored) ∧
      logEntries (disk.map OpenSegment.segment) = active.entries ++ added ∧
      events <+: successEvents buffered (added.map WalEntry.position) ∧
      w₁.trace = w.trace ++ events := by
  cases h with
  | unanswered htrace =>
    exact Or.inl ⟨[], by rw [htrace, List.append_nil], answered_nil []⟩
  | answered hframes hgrown hne hwhole hstored hentries hanswers htrace =>
    exact Or.inr ⟨_, _, _, _, hframes, hgrown, hne, hwhole, hstored, hentries, hanswers, htrace⟩
  | refused hanswers htrace =>
    exact Or.inl ⟨_, htrace, (answered_failureEvents [] buffered _).ofPrefix hanswers⟩

omit [CheckpointCodec] in
/-- A flush that has not opened another segment has only the active one. -/
theorem Grown.eq_singleton {done : List Frame} {disk : List OpenSegment}
    (h : Grown active done disk) (hne : disk ≠ [])
    (hsingle : ∀ d ∈ disk, d.segment.id ≤ active.id) :
    ∃ d, disk = [d] ∧ d.segment.id = active.id ∧ d.segment.nodeId = active.nodeId ∧
      d.segment.frames = active.frames ++ done ∧ Extends active d := by
  obtain ⟨d, rest, rfl⟩ := List.exists_cons_of_ne_nil hne
  have hids := h.ids
  rw [List.map_cons, List.length_cons, List.range'_succ] at hids
  obtain ⟨hid, hrest⟩ := List.cons_eq_cons.mp hids
  obtain rfl : rest = [] := by
    cases rest with
    | nil => rfl
    | cons d' rest =>
      rw [List.map_cons, List.length_cons, List.range'_succ] at hrest
      have hid' := (List.cons_eq_cons.mp hrest).1
      have hle := hsingle d' (by simp)
      omega
  have hframes := h.frames
  rw [List.flatMap_singleton] at hframes
  exact ⟨d, rfl, hid, h.nodeIds d (by simp), hframes, h.head d rfl⟩

/-- The files that a crash leaves of a flush: those before the active segment, and what is left of
those from it on. -/
theorem Running.left_entries (h : Running inner t w.dir older active)
    (hfront : SameFront active.id w w₁) (hcrash : Crashed w₁ w') :
    ∃ left : Nat → Bytes, w'.dir.segments.entries =
        (w.dir.segments.below active.id).entries ++ (tailView active.id w₁).segments.entries.map
          (fun row => (row.1, .created (left row.1))) ∧
      ∀ row ∈ (tailView active.id w₁).segments.entries,
        left row.1 <+: row.2.bytes ∧ row.2.synced ≤ (left row.1).length := by
  obtain ⟨left, hsegments, hleft⟩ := hcrash.segments
  obtain ⟨rows, -, hrows, hbelow, -⟩ := h.whole.split
  have hsplit := w₁.dir.segments.entries_eq_below_append_upFrom active.id
  refine ⟨left, ?_, fun row hrow => hleft row ?_⟩
  · have hentries : w'.dir.segments.entries =
        w₁.dir.segments.entries.map fun row => (row.1, SegmentFile.created (left row.1)) := by
      rw [hsegments]
      rfl
    rw [hentries, hsplit, List.map_append, hfront.segments, hbelow, map_created_eq]
    · rfl
    · exact synced_of_stored hrows
    · intro row hrow
      refine hleft row ?_
      rw [hsplit, hfront.segments, hbelow]
      exact List.mem_append_left _ hrow
  · rw [hsplit]
    exact List.mem_append_right _ hrow

/-- **A part of the active segment is left**, with all that was synced of it. -/
theorem Running.crashed_part (h : Running inner t w.dir older active)
    (hfront : SameFront active.id w w₁) (hcrash : Crashed w₁ w') {done : List Frame}
    {d : OpenSegment} (hid : d.segment.id = active.id) (hnodeId : d.segment.nodeId = active.nodeId)
    (hframes : d.segment.frames = active.frames ++ done) (hextends : Extends active d)
    (hdone : done.map Frame.record <+: t.buffered.map BufferedWalRecord.record)
    (hstored : (tailView active.id w₁).segments.entries = [d.row]) :
    ∃ log' added, WholeLog w'.dir log' ∧
      logEntries log' = logEntries (older ++ [active]) ++ added ∧
      added.map WalEntry.record <+: t.buffered.map BufferedWalRecord.record := by
  obtain ⟨left, hentries, hleft⟩ := h.left_entries hfront hcrash
  rw [hstored] at hentries hleft
  obtain ⟨hpart, hlen⟩ := hleft d.row (List.mem_singleton.mpr rfl)
  have hsynced := hextends.synced
  obtain ⟨segment, hbytes, hpartOf, hkeeps⟩ := d.segment.exists_prefix hpart
    ((active.headerLen_le_endOffset.trans hsynced).trans hlen)
  -- the frames that were synced are still there
  obtain ⟨more, hmore⟩ := hkeeps active.frames (hframes ▸ List.prefix_append _ _)
    (hsynced.trans hlen)
  have hpre : more <+: done := by
    have hle := hpartOf.frames
    rw [← hmore, hframes] at hle
    exact (List.prefix_append_right_inj _).mp hle
  have hmorePre := (hpre.map Frame.record).trans hdone
  obtain ⟨added, hwhole, hadded, -, hrecords⟩ := h.longer (hpartOf.id.trans hid)
    (hpartOf.nodeId.trans hnodeId) (hpartOf.startLsn.trans hextends.startLsn) hmore.symm hmorePre
    (hcrash.nodeIdFile.trans hfront.nodeIdFile) (hcrash.checkpointFile.trans hfront.checkpointFile)
    (by
      rw [hentries, LogSegment.stored, hbytes, hpartOf.id]
      rfl)
  exact ⟨_, added, hwhole, hadded, hrecords ▸ hmorePre⟩

/-- **The active segment is left as it is**, where all of it is synced. -/
theorem Running.crashed_whole (h : Running inner t w.dir older active)
    (hfront : SameFront active.id w w₁) (hcrash : Crashed w₁ w') {done : List Frame}
    {d : OpenSegment} (hid : d.segment.id = active.id) (hnodeId : d.segment.nodeId = active.nodeId)
    (hframes : d.segment.frames = active.frames ++ done) (hextends : Extends active d)
    (hdone : done.map Frame.record <+: t.buffered.map BufferedWalRecord.record)
    (hstored : (tailView active.id w₁).segments.entries = [d.segment.stored]) :
    ∃ added, WholeLog w'.dir (older ++ [d.segment]) ∧
      logEntries (older ++ [d.segment]) = logEntries (older ++ [active]) ++ added ∧
      d.segment.entries = active.entries ++ added ∧
      added.map WalEntry.record = done.map Frame.record := by
  obtain ⟨left, hentries, hleft⟩ := h.left_entries hfront hcrash
  rw [hstored] at hentries hleft
  obtain ⟨hpart, hlen⟩ := hleft d.segment.stored (List.mem_singleton.mpr rfl)
  refine h.longer hid hnodeId hextends.startLsn hframes hdone
    (hcrash.nodeIdFile.trans hfront.nodeIdFile) (hcrash.checkpointFile.trans hfront.checkpointFile) ?_
  rw [hentries, List.map_singleton, eq_of_synced rfl hpart hlen]

/-- **A crash in a flush** that has not opened another segment: the log is longer by some of the
records that were in the buffer, and by all that were answered. -/
theorem Running.crashed_flushing (h : Running inner t w.dir older active)
    (hfront : SameFront active.id w w₁)
    (hmoment : FlushMoment active (t.buffered.map BufferedWalRecord.record)
      (tailView active.id w).trace (tailView active.id w₁))
    (htold : Told active t.buffered w w₁)
    (hsingle : ∀ row ∈ (tailView active.id w₁).segments.entries, row.1 ≤ active.id)
    (hcrash : Crashed w₁ w') : LeftOf (older ++ [active]) t.buffered w w' := by
  rcases htold.soFar with ⟨events, htrace, hanswered⟩ |
    ⟨done, disk, added, events, hdone, hgrown, hne, hwhole, hstored, hadded, hanswers, htrace⟩
  · -- no append was answered with a position
    suffices hleft : ∃ log' added, WholeLog w'.dir log' ∧
        logEntries log' = logEntries (older ++ [active]) ++ added ∧
        added.map WalEntry.record <+: t.buffered.map BufferedWalRecord.record by
      obtain ⟨log', added, hwhole, hadded, hrecords⟩ := hleft
      refine ⟨log', added, hwhole, hadded, hrecords, events, hcrash.trace.trans htrace, ?_⟩
      intro channel record position hmem
      obtain ⟨entry, ⟨⟩, -⟩ := hanswered channel record position hmem
    have hbase : Grown active [] [active.rest] := Grown.start active
    cases hmoment with
    | writing done disk hdone hgrown hne hstored _ =>
      rw [hstored] at hsingle
      obtain ⟨d, rfl, hid, hnodeId, hframes, hextends⟩ := hgrown.eq_singleton hne fun d hd =>
        hsingle d.row (List.mem_map_of_mem hd)
      exact h.crashed_part hfront hcrash hid hnodeId hframes hextends hdone hstored
    | undoing done disk rest _ hgrown hremaining hstored _ =>
      -- nothing is left to be removed
      have hrest : rest = [] := by
        cases rest with
        | nil => rfl
        | cons d rest =>
          rw [hstored] at hsingle
          have hle := hsingle d.row (by simp)
          have hmem : d ∈ disk.tail := hremaining.subset List.mem_cons_self
          have hids := congrArg List.tail hgrown.ids
          rw [← List.map_tail] at hids
          have hin : d.segment.id ∈ (List.range' active.id disk.length).tail :=
            hids ▸ List.mem_map_of_mem hmem
          rw [List.tail_range', List.mem_range'_1] at hin
          have hid : d.row.1 = d.segment.id := rfl
          omega
      rw [hrest] at hstored
      obtain ⟨d, hd, hid, hnodeId, hframes, hextends⟩ := hbase.eq_singleton (by simp) (by simp)
      cases hd
      obtain ⟨added, hleft, hadded, -, hrecords⟩ := h.crashed_whole hfront hcrash hid hnodeId hframes
        hextends List.nil_prefix hstored
      exact ⟨_, added, hleft, hadded, hrecords ▸ List.nil_prefix⟩
    | written done disk events hdone hgrown hne hwhole hstored _ _ =>
      rw [hstored] at hsingle
      obtain ⟨d, rfl, hid, hnodeId, hframes, hextends⟩ := hgrown.eq_singleton hne fun d hd =>
        hsingle d.segment.stored (List.mem_map_of_mem hd)
      obtain ⟨added, hleft, hadded, -, hrecords⟩ := h.crashed_whole hfront hcrash hid hnodeId hframes
        hextends (hdone ▸ List.prefix_rfl) hstored
      exact ⟨_, added, hleft, hadded, (hrecords.trans hdone) ▸ List.prefix_rfl⟩
    | undone events hstored _ _ =>
      obtain ⟨d, hd, hid, hnodeId, hframes, hextends⟩ := hbase.eq_singleton (by simp) (by simp)
      cases hd
      obtain ⟨added, hleft, hadded, -, hrecords⟩ := h.crashed_whole hfront hcrash hid hnodeId hframes
        hextends List.nil_prefix hstored
      exact ⟨_, added, hleft, hadded, hrecords ▸ List.nil_prefix⟩
  · -- everything was written and synced before the first answer
    rw [hstored] at hsingle
    obtain ⟨d, rfl, hid, hnodeId, hframes, hextends⟩ := hgrown.eq_singleton hne fun d hd =>
      hsingle d.segment.stored (List.mem_map_of_mem hd)
    obtain ⟨added', hleft, hadded', hentries, hrecords⟩ := h.crashed_whole hfront hcrash hid hnodeId hframes
      hextends (hdone ▸ List.prefix_rfl) hstored
    rw [List.map_singleton, logEntries_cons, logEntries_nil, List.append_nil, hentries] at hadded
    cases List.append_cancel_left hadded
    rw [hdone] at hrecords
    exact ⟨_, added, hleft, hadded', hrecords ▸ List.prefix_rfl, events, hcrash.trace.trans htrace,
      (answered_successEvents hrecords).ofPrefix hanswers⟩

/-- **A crash in a call of the running writer** that has not opened another segment. -/
theorem Working.crashed (h : Running inner t w.dir older active)
    (hworking : Working inner t w older active w₁)
    (hsingle : ∀ id ∈ w₁.dir.segments.keys, id ≤ active.id) (hcrash : Crashed w₁ w') :
    LeftOf (older ++ [active]) t.buffered w w' := by
  cases hworking with
  | idle hidle =>
    subst hidle
    exact ⟨_, [], h.whole.crashed hcrash, (List.append_nil _).symm, List.nil_prefix, [],
      by rw [hcrash.trace, List.append_nil], answered_nil []⟩
  | committed hcommitted =>
    exact ⟨_, _, hcommitted.running.whole.crashed hcrash, hcommitted.entries,
      hcommitted.records ▸ List.prefix_rfl, _, hcrash.trace.trans hcommitted.trace,
      answered_successEvents hcommitted.records⟩
  | undone hundone =>
    refine ⟨_, [], hundone.running.whole.crashed hcrash, (List.append_nil _).symm,
      List.nil_prefix, ?_⟩
    rcases hundone.trace with htrace | htrace
    · exact ⟨[], by rw [hcrash.trace, htrace, List.append_nil], answered_nil []⟩
    · exact ⟨_, hcrash.trace.trans htrace, answered_failureEvents [] _ _⟩
  | flushing hfront hmoment htold =>
    refine h.crashed_flushing hfront hmoment htold (fun row hrow => hsingle row.1 ?_) hcrash
    exact List.mem_map_of_mem (List.mem_of_mem_filter hrow)

/-! ### The calls as work -/

/-- **A flush at work.** -/
theorem Running.wpc_flush_working (hmay : ∀ o, mayFail o → ¬RollbackOp o)
    (h : Running inner t w.dir older active) :
    wpc (sysEnv mayFail) (fun _ => Working inner t w older active) (flushBufferLocked inner)
      (fun _ t' w' => Working inner t w older active w' ∧ ∃ older' active' added,
        Committed inner t w (older ++ [active]) t' w' older' active' added)
      (fun error t' w' => Working inner t w older active w' ∧
        Undone inner error.message t w older active t' w') t w := by
  have htold : wpc (sysEnv mayFail) (fun _ => Told active t.buffered w) (flushBufferLocked inner)
      (fun _ _ => Told active t.buffered w) (fun _ _ => Told active t.buffered w) t w :=
    wpc_flushBufferLocked_told h.rest.nodeId.symm h.rest.torn h.rest.segmentId h.rest.offset
      h.tailView_entries (AtRest.head_lsn (w := Running.inPlace w _ h.whole.ids) h.rest)
  refine wp_mono ?_ ?_ (wp_and (h.wpc_flushBufferLocked hmay) htold)
  · rintro o w' ⟨⟨hguard, hfront⟩, htold⟩
    exact .flushing hfront hguard.2 htold
  · rintro ⟨result, t'⟩ w' ⟨hdone, -⟩
    cases result with
    | ok _ =>
      obtain ⟨older', active', added, hcommitted⟩ := hdone
      exact ⟨.committed hcommitted, older', active', added, hcommitted⟩
    | error error => exact ⟨.undone hdone, hdone⟩

end Left

end Codec

end Ingest4x.Wal
