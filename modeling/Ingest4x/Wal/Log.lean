import Ingest4x.Wal.LogSegment
import Ingest4x.Wal.Order
import Ingest4x.Wal.System

/-! # The log at rest

A directory in which nothing is being written holds a list of well-formed segments, each of them
synced as a whole. The functions that read such a directory are functions of that list: the entries
after a checkpoint, the bounds, and what a starting writer recovers.

* **`Stored`** — the segments of a directory are those of a log.
* **`logEntries`** — the entries of a log, oldest first.
* **`Stored.readEntriesAfter`**, **`scanBounds_stored`**, **`Stored.recoverNextLsn`** — the
  readers. -/

namespace Ingest4x.Wal

section Entries

variable [RecordCodec]

/-! ### Entries of a log -/

/-- The frames of a log, oldest first. -/
def logFrames (log : List LogSegment) : List Frame := log.flatMap LogSegment.frames

/-- **The entries of a log**, oldest first. -/
def logEntries (log : List LogSegment) : List WalEntry := log.flatMap LogSegment.entries

@[simp] theorem logEntries_nil : logEntries [] = [] := rfl

@[simp] theorem logEntries_cons (segment : LogSegment) (log : List LogSegment) :
    logEntries (segment :: log) = segment.entries ++ logEntries log := rfl

@[simp] theorem logEntries_append (log log' : List LogSegment) :
    logEntries (log ++ log') = logEntries log ++ logEntries log' :=
  List.flatMap_append

/-- The entries of a list of frames lie in its segment, one after the other from its offset on. -/
theorem mem_entriesFrom {segmentId offset : Nat} {frames : List Frame} {entry : WalEntry}
    (h : entry ∈ entriesFrom segmentId offset frames) :
    entry.position.segment = segmentId ∧ entry.nextPosition.segment = segmentId ∧
      offset ≤ entry.position.offset ∧ entry.position.offset < entry.nextPosition.offset ∧
      entry.nextPosition.offset ≤ offset + (framesBytes frames).length := by
  induction frames generalizing offset with
  | nil => cases h
  | cons frame frames ih =>
    have hlen := frame.length_ge
    simp only [recordHeaderFixedLen] at hlen
    rw [entriesFrom_cons] at h
    rw [framesBytes_cons, List.length_append]
    rcases List.mem_cons.mp h with rfl | h
    · refine ⟨rfl, rfl, le_rfl, ?_, ?_⟩
      · show offset < offset + frame.bytes.length
        omega
      · show offset + frame.bytes.length ≤ _
        omega
    · obtain ⟨hsegment, hnext, hle, hlt, hend⟩ := ih h
      exact ⟨hsegment, hnext, by omega, hlt, by omega⟩

/-- The entries of a segment lie in it. -/
theorem LogSegment.mem_entries {segment : LogSegment} {entry : WalEntry}
    (h : entry ∈ segment.entries) :
    entry.position.segment = segment.id ∧ entry.nextPosition.segment = segment.id ∧
      entry.position.offset < entry.nextPosition.offset ∧
      entry.nextPosition.offset ≤ segment.endOffset := by
  obtain ⟨hsegment, hnext, -, hlt, hend⟩ := mem_entriesFrom h
  exact ⟨hsegment, hnext, hlt, hend⟩

theorem mem_logEntries {log : List LogSegment} {entry : WalEntry} :
    entry ∈ logEntries log ↔ ∃ segment ∈ log, entry ∈ segment.entries :=
  List.mem_flatMap

/-- The LSN of an entry is that of its record. -/
theorem lsn_of_mem_entriesFrom {segmentId offset : Nat} {frames : List Frame} {entry : WalEntry}
    (h : entry ∈ entriesFrom segmentId offset frames) :
    entry.position.lsn = entry.record.lsn.toNat := by
  induction frames generalizing offset with
  | nil => cases h
  | cons frame frames ih =>
    rcases List.mem_cons.mp h with rfl | h
    · rfl
    · exact ih h

/-- **A frame boundary** of a segment: the offset where some of its frames end. -/
def LogSegment.Boundary (segment : LogSegment) (offset : Nat) : Prop :=
  ∃ pre post, segment.frames = pre ++ post ∧
    offset = segmentHeaderLen + (framesBytes pre).length

theorem LogSegment.boundary_endOffset (segment : LogSegment) :
    segment.Boundary segment.endOffset :=
  ⟨segment.frames, [], (List.append_nil _).symm, rfl⟩

/-- The end of an entry is a boundary of its segment. -/
theorem LogSegment.boundary_nextPosition {segment : LogSegment} {entry : WalEntry}
    (h : entry ∈ segment.entries) : segment.Boundary entry.nextPosition.offset := by
  obtain ⟨k, hk⟩ := List.mem_iff_getElem?.mp h
  obtain ⟨pre, frame, post, hsplit, -, rfl, -⟩ := entriesFrom_getElem?_eq_some hk
  refine ⟨pre ++ [frame], post, ?_, rfl⟩
  rw [hsplit, List.append_assoc]
  rfl

end Entries

/-! ### The largest LSN -/

/-- The largest LSN of some entries, or a smaller bound that is larger than all of them. -/
def maxLsn (bound : Nat) (entries : List WalEntry) : Nat :=
  entries.foldl (fun acc entry => max acc entry.position.lsn) bound

@[simp] theorem maxLsn_nil (bound : Nat) : maxLsn bound [] = bound := rfl

@[simp] theorem maxLsn_cons (bound : Nat) (entry : WalEntry) (entries : List WalEntry) :
    maxLsn bound (entry :: entries) = maxLsn (max bound entry.position.lsn) entries := rfl

@[simp] theorem maxLsn_append (bound : Nat) (entries entries' : List WalEntry) :
    maxLsn bound (entries ++ entries') = maxLsn (maxLsn bound entries) entries' :=
  List.foldl_append

theorem bound_le_maxLsn (bound : Nat) (entries : List WalEntry) : bound ≤ maxLsn bound entries := by
  induction entries generalizing bound with
  | nil => exact le_rfl
  | cons entry entries ih => exact (le_max_left _ _).trans (ih _)

theorem le_maxLsn {bound : Nat} {entries : List WalEntry} {entry : WalEntry}
    (h : entry ∈ entries) : entry.position.lsn ≤ maxLsn bound entries := by
  induction entries generalizing bound with
  | nil => cases h
  | cons head entries ih =>
    rcases List.mem_cons.mp h with rfl | h
    · exact (le_max_right _ _).trans (bound_le_maxLsn _ _)
    · exact ih h

theorem maxLsn_le {bound n : Nat} {entries : List WalEntry} (hbound : bound ≤ n)
    (h : ∀ entry ∈ entries, entry.position.lsn ≤ n) : maxLsn bound entries ≤ n := by
  induction entries generalizing bound with
  | nil => exact hbound
  | cons head entries ih =>
    exact ih (max_le hbound (h head List.mem_cons_self))
      fun entry hentry => h entry (List.mem_cons_of_mem _ hentry)

theorem addEntries_maxLsn (scan : BoundsScan) (entries : List WalEntry) :
    (scan.addEntries entries).maxLsn = maxLsn scan.maxLsn entries := by
  induction entries generalizing scan with
  | nil => rfl
  | cons entry entries ih => exact ih _

section Stored

variable [RecordCodec]

/-! ### Stored logs -/

/-- The file of a segment, synced as a whole. -/
def LogSegment.stored (segment : LogSegment) : Nat × SegmentFile :=
  (segment.id, .created segment.bytes)

/-- **The segments of the directory are those of the log**, each synced as a whole. -/
def Stored (dir : WalDir) (log : List LogSegment) : Prop :=
  dir.segments.entries = log.map LogSegment.stored

variable {dir : WalDir} {log : List LogSegment}

/-- The ids of a stored log increase. -/
theorem Stored.ids (h : Stored dir log) : log.Pairwise fun s s' => s.id < s'.id := by
  have hsorted := dir.segments.sorted
  rw [h, List.pairwise_map] at hsorted
  exact hsorted

theorem Stored.lookup (h : Stored dir log) {segment : LogSegment} (hmem : segment ∈ log) :
    dir.segments.lookup segment.id = some (.created segment.bytes) := by
  rw [SortedTable.lookup_eq_some, h]
  exact List.mem_map_of_mem hmem

theorem Stored.lookup_eq_none (h : Stored dir log) {segmentId : Nat}
    (hnone : ∀ segment ∈ log, segment.id ≠ segmentId) : dir.segments.lookup segmentId = none := by
  rw [SortedTable.lookup_eq_none, h]
  intro row hrow
  obtain ⟨segment, hmem, rfl⟩ := List.mem_map.mp hrow
  exact hnone segment hmem

/-! ### Reading -/

/-- **Reading a stored log** gives its entries. -/
theorem readSegmentsAfter_stored (path : String) (log : List LogSegment) (acc : List WalEntry) :
    readSegmentsAfter path none none (log.map LogSegment.stored) acc =
      .ok (acc ++ logEntries log) := by
  induction log generalizing acc with
  | nil => rw [logEntries_nil, List.append_nil]; rfl
  | cons segment log ih =>
    have hread := segment.readSegmentEntriesAfter_bytes (segmentPath path segment.id) none
    rw [Option.getD_none, List.take_of_length_le segment.length_entries.le] at hread
    rw [List.map_cons, LogSegment.stored, readSegmentsAfter]
    simp only [Option.any_none, Bool.false_eq_true, if_false, Option.map_none, reduceCtorEq,
      startOffset, Option.filter_none, Option.getD_none, SegmentFile.created, hread, ih]
    rw [logEntries_cons, List.append_assoc]

theorem Stored.readEntriesAfter (h : Stored dir log) :
    readEntriesAfter dir none = .ok (logEntries log) := by
  rw [Wal.readEntriesAfter, readEntriesAfterLimit, h, readSegmentsAfter_stored, List.nil_append]

/-- The entries of a stored log are in order. -/
theorem Stored.ordered (h : Stored dir log) : Ordered none (logEntries log) :=
  readEntriesAfterLimit_ordered h.readEntriesAfter

/-- Does an entry lie behind a checkpoint? -/
def behind (checkpoint : WalPosition) (entry : WalEntry) : Bool :=
  decide (checkpoint.place ≤ entry.position.place)

/-- The entries of a segment behind a boundary of it. -/
theorem LogSegment.filter_behind {segment : LogSegment} {checkpoint : WalPosition}
    {pre post : List Frame} (hsegment : segment.id = checkpoint.segment)
    (hsplit : segment.frames = pre ++ post)
    (hoffset : checkpoint.offset = segmentHeaderLen + (framesBytes pre).length) :
    segment.entries.filter (behind checkpoint) =
      entriesFrom segment.id (segmentHeaderLen + (framesBytes pre).length) post := by
  rw [LogSegment.entries, hsplit, entriesFrom_append, List.filter_append,
    List.filter_eq_nil_iff.mpr, List.filter_eq_self.mpr, List.nil_append]
  · intro entry hentry
    obtain ⟨hid, -, hle, -⟩ := mem_entriesFrom hentry
    refine decide_eq_true (WalPosition.place_le.mpr (Or.inr ⟨?_, ?_⟩))
    · rw [hid, hsegment]
    · rw [hoffset]
      exact hle
  · intro entry hentry hbehind
    obtain ⟨hid, -, -, hlt, hend⟩ := mem_entriesFrom hentry
    rcases WalPosition.place_le.mp (of_decide_eq_true hbehind) with hlt' | ⟨-, hle⟩
    · omega
    · omega

/-- **Reading one segment from a checkpoint** at a frame boundary of it, or before it. -/
theorem LogSegment.readSegmentEntriesAfter_startOffset (path : String) {segment : LogSegment}
    {checkpoint : WalPosition} (hle : checkpoint.segment ≤ segment.id)
    (hboundary : segment.id = checkpoint.segment → segment.Boundary checkpoint.offset) :
    readSegmentEntriesAfter path segment.id segment.bytes
        (startOffset (some checkpoint) segment.id) none =
      .ok (segment.entries.filter (behind checkpoint)) := by
  by_cases heq : segment.id = checkpoint.segment
  · obtain ⟨pre, post, hsplit, hoffset⟩ := hboundary heq
    have hread := segment.readSegmentEntriesAfter_split path hsplit none
    have hstart : startOffset (some checkpoint) segment.id = checkpoint.offset := by
      rw [startOffset, Option.filter_some, if_pos (decide_eq_true heq.symm)]
      rfl
    rw [hstart, hoffset, hread, Option.getD_none,
      List.take_of_length_le (by rw [length_entriesFrom]),
      LogSegment.filter_behind heq hsplit hoffset]
  · have hread := segment.readSegmentEntriesAfter_bytes path none
    have hstart : startOffset (some checkpoint) segment.id = segmentHeaderLen := by
      rw [startOffset, Option.filter_some, if_neg (by simpa using Ne.symm heq)]
      rfl
    rw [hstart, hread, Option.getD_none, List.take_of_length_le segment.length_entries.le,
      List.filter_eq_self.mpr]
    intro entry hentry
    obtain ⟨hid, -⟩ := LogSegment.mem_entries hentry
    exact decide_eq_true (WalPosition.place_le.mpr (Or.inl (by omega)))

/-- **Reading a stored log from a checkpoint** at a frame boundary gives the entries behind it. -/
theorem readSegmentsAfter_stored_some (path : String) {checkpoint : WalPosition}
    {log : List LogSegment} (acc : List WalEntry)
    (hboundary : ∀ segment ∈ log, segment.id = checkpoint.segment →
      segment.Boundary checkpoint.offset) :
    readSegmentsAfter path (some checkpoint) none (log.map LogSegment.stored) acc =
      .ok (acc ++ (logEntries log).filter (behind checkpoint)) := by
  induction log generalizing acc with
  | nil => rw [logEntries_nil, List.filter_nil, List.append_nil]; rfl
  | cons segment log ih =>
    have ih' := fun acc => ih acc fun s hs => hboundary s (List.mem_cons_of_mem _ hs)
    rw [List.map_cons, LogSegment.stored, readSegmentsAfter, logEntries_cons, List.filter_append]
    by_cases hlt : segment.id < checkpoint.segment
    · -- the segment lies before the checkpoint
      have hnil : segment.entries.filter (behind checkpoint) = [] := by
        refine List.filter_eq_nil_iff.mpr fun entry hentry hbehind => ?_
        obtain ⟨hid, -⟩ := LogSegment.mem_entries hentry
        rcases WalPosition.place_le.mp (of_decide_eq_true hbehind) with h | ⟨h, -⟩ <;> omega
      rw [Option.any_some, if_pos (decide_eq_true hlt), ih', hnil, List.nil_append]
    · have hread := LogSegment.readSegmentEntriesAfter_startOffset (segmentPath path segment.id)
        (not_lt.mp hlt) (hboundary segment List.mem_cons_self)
      rw [Option.any_some, if_neg (by simpa using hlt)]
      simp only [Option.map_none, reduceCtorEq, if_false, SegmentFile.created, hread,
        Option.any_none, Bool.false_eq_true, ih']
      rw [List.append_assoc]

/-- Reading from a checkpoint at a frame boundary. -/
theorem Stored.readEntriesAfter_some (h : Stored dir log) {checkpoint : WalPosition}
    (hboundary : ∀ segment ∈ log, segment.id = checkpoint.segment →
      segment.Boundary checkpoint.offset) :
    Wal.readEntriesAfter dir (some checkpoint) =
      .ok ((logEntries log).filter (behind checkpoint)) := by
  rw [Wal.readEntriesAfter, readEntriesAfterLimit, h, readSegmentsAfter_stored_some _ _ hboundary,
    List.nil_append]

/-! ### The bounds -/

/-- The scan of the bounds of a stored log. -/
theorem scanBounds_stored (path : String) (log : List LogSegment) (scan : BoundsScan) :
    scanBounds path (log.map LogSegment.stored) scan = .ok {
      floor := scan.floor.or ((logEntries log).head?.map WalEntry.position)
      tail := (lastPosition (logEntries log)).or scan.tail
      maxLsn := maxLsn scan.maxLsn (logEntries log)
      lastSegment := (log.getLast?.map fun s => (s.id, s.bytes.length)).or scan.lastSegment } := by
  induction log generalizing scan with
  | nil => simp [scanBounds]
  | cons segment log ih =>
    have hread := segment.readSegmentEntriesAfter_bytes (segmentPath path segment.id) none
    rw [Option.getD_none, List.take_of_length_le segment.length_entries.le] at hread
    obtain ⟨hfloor, htail, hlast⟩ := BoundsScan.addEntries_spec
      { scan with lastSegment := some (segment.id, segment.bytes.length) } segment.entries
    have hmax := addEntries_maxLsn
      { scan with lastSegment := some (segment.id, segment.bytes.length) } segment.entries
    rw [List.map_cons, LogSegment.stored, scanBounds]
    simp only [SegmentFile.created, hread, ih, hfloor, htail, hlast, hmax, logEntries_cons]
    rw [Option.or_assoc, List.head?_append, Option.map_or, lastPosition_append, Option.or_assoc,
      maxLsn_append, List.getLast?_cons]
    cases log.getLast? <;> rfl

/-! ### Recovery -/

/-- The records of a stored log have the LSNs of its entries. -/
theorem foldl_max_lsn_records (segment : LogSegment) (bound : Nat) :
    segment.records.foldl (fun acc record => max acc record.lsn.toNat) bound =
      maxLsn bound segment.entries := by
  rw [← segment.map_record_entries, List.foldl_map, maxLsn]
  refine List.foldl_ext _ _ _ fun acc entry hentry => ?_
  rw [lsn_of_mem_entriesFrom hentry]

theorem scanMaxLsn_stored (path : String) (log : List LogSegment) (bound : Nat) :
    scanMaxLsn path (log.map LogSegment.stored) bound = .ok (maxLsn bound (logEntries log)) := by
  induction log generalizing bound with
  | nil => rfl
  | cons segment log ih =>
    rw [List.map_cons, LogSegment.stored, scanMaxLsn]
    simp only [readSegmentRecords, SegmentFile.created, segment.scanSegment_bytes, Except.map]
    rw [foldl_max_lsn_records, ih, logEntries_cons, maxLsn_append]

/-- **The next LSN** that a starting writer recovers. -/
theorem Stored.recoverNextLsn (h : Stored dir log) (checkpoint : Option WalCheckpoint) :
    Wal.recoverNextLsn dir checkpoint =
      .ok (max (maxLsn 0 (logEntries log))
        ((checkpoint.map WalCheckpoint.checkpointLsn).getD 0) + 1) := by
  rw [Wal.recoverNextLsn, h, scanMaxLsn_stored]
  rfl

/-- Is a stored segment covered? -/
theorem LogSegment.segmentCovered_bytes (path : String) (segment : LogSegment) (lsn : Nat) :
    segmentCovered path segment.id segment.bytes lsn =
      .ok (decide (∀ entry ∈ segment.entries, entry.position.lsn ≤ lsn)) := by
  rw [segmentCovered, readSegmentRecords, segment.scanSegment_bytes]
  show Except.ok (decide _) = _
  congr 1
  rw [decide_eq_decide, ← segment.map_record_entries, List.map_map]
  cases hmax : (segment.entries.map ((fun record => record.lsn.toNat) ∘ WalEntry.record)).max? with
  | none =>
    rw [List.max?_eq_none_iff, List.map_eq_nil_iff] at hmax
    simp [hmax]
  | some m =>
    obtain ⟨hmem, hle⟩ := List.max?_eq_some_iff.mp hmax
    obtain ⟨entry, hentry, hm⟩ := List.mem_map.mp hmem
    constructor
    · intro hcovered entry' hentry'
      rw [lsn_of_mem_entriesFrom hentry']
      exact (hle _ (List.mem_map_of_mem hentry')).trans hcovered
    · intro hcovered
      have := hcovered entry hentry
      rw [lsn_of_mem_entriesFrom hentry] at this
      rw [Option.getD_some, ← hm]
      exact this

/-- The last segment of a stored log. -/
theorem Stored.lastSegmentId (h : Stored dir log) :
    Wal.lastSegmentId dir = log.getLast?.map LogSegment.id := by
  have hkeys : segmentIds dir = log.map LogSegment.id := by
    rw [segmentIds, SortedTable.keys, h, List.map_map]
    rfl
  rw [Wal.lastSegmentId, hkeys]
  rcases List.eq_nil_or_concat log with rfl | ⟨front, last, rfl⟩
  · rfl
  · have hids := h.ids
    rw [List.concat_eq_append] at hids ⊢
    rw [List.getLast?_append, List.getLast?_singleton, Option.some_or, Option.map_some,
      List.max?_eq_some_iff]
    refine ⟨List.mem_map_of_mem (by simp), fun n hn => ?_⟩
    obtain ⟨segment, hsegment, rfl⟩ := List.mem_map.mp hn
    rcases List.mem_append.mp hsegment with hfront | hlast
    · exact ((List.pairwise_append.mp hids).2.2 segment hfront last (by simp)).le
    · rw [List.mem_singleton.mp hlast]

end Stored

end Ingest4x.Wal
