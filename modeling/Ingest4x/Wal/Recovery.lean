import Ingest4x.Wal.NodeId
import Ingest4x.Wal.Repair

/-! # What a start recovers

After the node id is resolved a start reads the checkpoint and all segments. Whether it can open the
log is decided by the directory and the node id alone.

* **`RowReads`** — a segment that reads, with `recoverNextLsn_lt_iff`: the next LSN is there if and
  only if every segment reads.
* **`OpensAs`** — the log and the checkpoint open under a node id.
* **`Recovers.opensAs`** — the directory opens again once the active segment is open, which it is
  where it was created (`Recovers.segmentsOpen_insert`) or cut (`SegmentsOpen.modify`). -/

namespace Ingest4x.Wal

open Bytes Effect

variable [RecordCodec]

/-! ### Reading all segments -/

/-- The LSNs of records are below this bound, so that the next one is a `u64`. -/
def lsnBound : Nat := 2 ^ 64 - 1

/-- **A segment that reads**, with its LSNs below the bound. -/
def RowReads (path : String) (row : Nat × SegmentFile) : Prop :=
  ∃ records, readSegmentRecords (segmentPath path row.1) row.1 row.2.bytes = .ok records ∧
    ∀ record ∈ records, record.lsn.toNat < lsnBound

omit [RecordCodec] in
/-- The largest LSN of a list of records. -/
theorem foldl_max_lsn_lt {records : List WalRecord} {acc bound : Nat} :
    records.foldl (fun acc record => max acc record.lsn.toNat) acc < bound ↔
      acc < bound ∧ ∀ record ∈ records, record.lsn.toNat < bound := by
  induction records generalizing acc with
  | nil => simp
  | cons record records ih =>
    rw [List.foldl_cons, ih, max_lt_iff, and_assoc, List.forall_mem_cons]

/-- The loop of `recover_next_lsn` stays below the bound if and only if every segment does. -/
theorem scanMaxLsn_lt_iff {path : String} {rows : List (Nat × SegmentFile)} {acc : Nat} :
    (∃ n < lsnBound, scanMaxLsn path rows acc = .ok n) ↔
      acc < lsnBound ∧ ∀ row ∈ rows, RowReads path row := by
  induction rows generalizing acc with
  | nil => simp [scanMaxLsn]
  | cons row rows ih =>
    obtain ⟨segmentId, file⟩ := row
    rw [scanMaxLsn, List.forall_mem_cons]
    cases hread : readSegmentRecords (segmentPath path segmentId) segmentId file.bytes with
    | error error => simp [RowReads, hread]
    | ok records =>
      simp only
      rw [ih, foldl_max_lsn_lt]
      simp only [RowReads, hread, Except.ok.injEq, exists_eq_left', and_assoc]

/-- **The next LSN** is a `u64` if and only if every segment reads. -/
theorem recoverNextLsn_lt_iff {dir : WalDir} {checkpoint : Option WalCheckpoint} :
    (∃ nextLsn < 2 ^ 64, recoverNextLsn dir checkpoint = .ok nextLsn) ↔
      (checkpoint.map WalCheckpoint.checkpointLsn).getD 0 < lsnBound ∧
        ∀ row ∈ dir.segments.entries, RowReads dir.path row := by
  have hscan := @scanMaxLsn_lt_iff _ dir.path dir.segments.entries 0
  rw [and_iff_right (by decide)] at hscan
  rw [← hscan]
  unfold recoverNextLsn
  generalize (checkpoint.map WalCheckpoint.checkpointLsn).getD 0 = checkpointLsn
  cases scanMaxLsn dir.path dir.segments.entries 0 with
  | error error => simp [Except.map]
  | ok n =>
    simp only [Except.map, Except.ok.injEq, exists_eq_right', lsnBound]
    omega

omit [RecordCodec] in
/-- No segment is above the active one, and the checkpoint is below it. -/
theorem le_recoverActiveSegmentId (dir : WalDir) (checkpoint : Option WalCheckpoint) :
    (∀ segmentId ∈ dir.segments.keys, segmentId ≤ recoverActiveSegmentId dir checkpoint) ∧
      ∀ c ∈ checkpoint, c.checkpointSegmentId < recoverActiveSegmentId dir checkpoint := by
  unfold recoverActiveSegmentId lastSegmentId segmentIds
  constructor
  · intro segmentId hmem
    have hlast : segmentId ≤ dir.segments.keys.max?.getD 0 := List.le_max?_getD_of_mem hmem
    cases hmax : dir.segments.keys.max? with
    | none =>
      rw [List.max?_eq_none_iff] at hmax
      rw [hmax] at hmem
      cases hmem
    | some last =>
      rw [hmax, Option.getD_some] at hlast
      exact hlast.trans (List.le_max?_getD_of_mem (by simp))
  · rintro c ⟨⟩
    exact Nat.lt_of_succ_le (List.le_max?_getD_of_mem (by simp))

omit [RecordCodec] in
/-- The active segment is the last one, where the checkpoint is below it. -/
theorem recoverActiveSegmentId_eq {dir : WalDir} {checkpoint : Option WalCheckpoint}
    {segmentId : Nat} (hmem : segmentId ∈ dir.segments.keys)
    (hle : ∀ k ∈ dir.segments.keys, k ≤ segmentId)
    (hcheckpoint : ∀ c ∈ checkpoint, c.checkpointSegmentId < segmentId) :
    recoverActiveSegmentId dir checkpoint = segmentId := by
  have hlast : dir.segments.keys.max? = some segmentId := List.max?_eq_some_iff.mpr ⟨hmem, hle⟩
  unfold recoverActiveSegmentId lastSegmentId segmentIds
  rw [hlast]
  have hmax : (segmentId :: (checkpoint.map fun c => c.checkpointSegmentId + 1).toList).max? =
      some segmentId := by
    refine List.max?_eq_some_iff.mpr ⟨List.mem_cons_self, fun k hk => ?_⟩
    rcases List.mem_cons.mp hk with rfl | hk
    · exact le_rfl
    · obtain ⟨c, hc, rfl⟩ := Option.map_eq_some_iff.mp (Option.mem_toList.mp hk)
      exact hcheckpoint c hc
  exact congrArg (Option.getD · 1) hmax

/-! ### What opens under a node id -/

variable [CheckpointCodec]

/-- **What a start recovers** under a node id: the checkpoint, the active segment and the next
LSN. -/
structure Recovers (dir : WalDir) (nodeId : String) (checkpoint : Option WalCheckpoint)
    (segmentId nextLsn : Nat) : Prop where
  reads : readPipelineCheckpoint dir nodeId = .ok checkpoint
  active : recoverActiveSegmentId dir checkpoint = segmentId
  active_lt : segmentId < 2 ^ 64
  next : recoverNextLsn dir checkpoint = .ok nextLsn
  next_lt : nextLsn < 2 ^ 64

omit [CheckpointCodec] in
/-- The header of an active segment that `ensure_segment_file` accepts. -/
structure HeaderFits (path : String) (nodeId : String) (segmentId : Nat) (file : SegmentFile)
    (header : SegmentHeader) : Prop where
  reads : ∃ rest, readSegmentHeader (segmentPath path segmentId) file.bytes = .ok (header, rest)
  segmentId : header.segmentId = UInt64.ofNat segmentId
  nodeId : header.nodeId = nodeId

omit [CheckpointCodec] in
/-- **The active segment fits a node id**: its header is accepted, or it can be created. -/
def ActiveFits (dir : WalDir) (nodeId : String) (segmentId : Nat) : Prop :=
  match dir.segments.lookup segmentId with
  | none => (utf8Bytes nodeId).length ≤ maxNodeIdLen
  | some file => ∃ header, HeaderFits dir.path nodeId segmentId file header

/-- **The log and the checkpoint open under a node id.** -/
def OpensAs (dir : WalDir) (nodeId : String) : Prop :=
  ∃ checkpoint segmentId nextLsn,
    Recovers dir nodeId checkpoint segmentId nextLsn ∧ ActiveFits dir nodeId segmentId

/-- Nothing that is recovered depends on the node id file. -/
theorem recovers_adopt {dir : WalDir} {nodeId other : String} {checkpoint : Option WalCheckpoint}
    {segmentId nextLsn : Nat} :
    Recovers (dir.adopt other) nodeId checkpoint segmentId nextLsn ↔
      Recovers dir nodeId checkpoint segmentId nextLsn := by
  unfold WalDir.adopt
  split_ifs
  · exact Iff.rfl
  · exact ⟨fun h => ⟨h.reads, h.active, h.active_lt, h.next, h.next_lt⟩,
      fun h => ⟨h.reads, h.active, h.active_lt, h.next, h.next_lt⟩⟩

/-- Opening does not look at the node id file. -/
theorem opensAs_withNodeIdFile {dir : WalDir} {file : Option String} {nodeId : String} :
    OpensAs (dir.withNodeIdFile file) nodeId ↔ OpensAs dir nodeId := by
  constructor
  all_goals
    rintro ⟨checkpoint, segmentId, nextLsn, h, hfits⟩
    exact ⟨checkpoint, segmentId, nextLsn, ⟨h.reads, h.active, h.active_lt, h.next, h.next_lt⟩,
      hfits⟩

theorem opensAs_adopt {dir : WalDir} {nodeId other : String} :
    OpensAs (dir.adopt other) nodeId ↔ OpensAs dir nodeId := by
  unfold WalDir.adopt
  split_ifs
  · exact Iff.rfl
  · exact opensAs_withNodeIdFile

omit [CheckpointCodec] in
/-- **Segments among which the active one is open.** -/
structure SegmentsOpen (dir : WalDir) (nodeId : String) (segmentId : Nat)
    (segments : SortedTable Nat SegmentFile) : Prop where
  ids : ∀ k ∈ segments.keys, k ≤ segmentId
  rows : ∀ row ∈ segments.entries, RowReads dir.path row
  active : ∃ file header, segments.lookup segmentId = some file ∧
    HeaderFits dir.path nodeId segmentId file header

section Recovered

variable {dir : WalDir} {nodeId : String} {checkpoint : Option WalCheckpoint}
  {segmentId nextLsn : Nat}

/-- Every segment that was recovered reads. -/
theorem Recovers.rows (h : Recovers dir nodeId checkpoint segmentId nextLsn) :
    ∀ row ∈ dir.segments.entries, RowReads dir.path row :=
  (recoverNextLsn_lt_iff.mp ⟨nextLsn, h.next_lt, h.next⟩).2

/-- No segment that was recovered is above the active one. -/
theorem Recovers.ids (h : Recovers dir nodeId checkpoint segmentId nextLsn) :
    ∀ k ∈ dir.segments.keys, k ≤ segmentId := by
  rw [← h.active]
  exact (le_recoverActiveSegmentId dir checkpoint).1

/-- **With an open active segment the directory opens again.** -/
theorem Recovers.opensAs (h : Recovers dir nodeId checkpoint segmentId nextLsn)
    {segments : SortedTable Nat SegmentFile} (hopen : SegmentsOpen dir nodeId segmentId segments) :
    OpensAs (dir.withSegments segments) nodeId := by
  obtain ⟨file, header, hlookup, hheader⟩ := hopen.active
  have hmem : segmentId ∈ segments.keys :=
    List.mem_map.mpr ⟨_, SortedTable.lookup_eq_some.mp hlookup, rfl⟩
  have hcheckpoint := (le_recoverActiveSegmentId dir checkpoint).2
  rw [h.active] at hcheckpoint
  have hnext : ∃ nextLsn < 2 ^ 64,
      recoverNextLsn (dir.withSegments segments) checkpoint = .ok nextLsn :=
    recoverNextLsn_lt_iff.mpr
      ⟨(recoverNextLsn_lt_iff.mp ⟨nextLsn, h.next_lt, h.next⟩).1, hopen.rows⟩
  obtain ⟨nextLsn', hlt, hnextLsn'⟩ := hnext
  refine ⟨checkpoint, segmentId, nextLsn',
    ⟨h.reads, recoverActiveSegmentId_eq hmem hopen.ids hcheckpoint, h.active_lt, hnextLsn', hlt⟩, ?_⟩
  unfold ActiveFits
  rw [WalDir.withSegments_segments, hlookup]
  exact ⟨header, hheader⟩

omit [CheckpointCodec] in
/-- A segment that was just created reads. -/
theorem rowReads_created {path : String} {startLsn nowMs : UInt64} {header : Bytes}
    (h : serializeSegmentHeader (UInt64.ofNat segmentId) nodeId startLsn nowMs = .ok header) :
    RowReads path (segmentId, .created header) := by
  refine ⟨[], ?_, fun record hrecord => nomatch hrecord⟩
  have hheader := readSegmentHeader_append (segmentPath path segmentId) h []
  rw [List.append_nil] at hheader
  unfold readSegmentRecords scanSegment SegmentFile.created
  simp only [hheader]
  rw [readFrames_eq, if_neg (by simp)]
  rfl

/-- **The active segment, created** in place of what was there. -/
theorem Recovers.segmentsOpen_insert (h : Recovers dir nodeId checkpoint segmentId nextLsn)
    {segments : SortedTable Nat SegmentFile} (hsub : ∀ row ∈ segments.entries, row ∈ dir.segments.entries)
    {startLsn nowMs : UInt64} {header : Bytes}
    (hheader : serializeSegmentHeader (UInt64.ofNat segmentId) nodeId startLsn nowMs = .ok header) :
    SegmentsOpen dir nodeId segmentId (segments.insert segmentId (.created header)) := by
  refine ⟨fun k hk => ?_, fun row hrow => ?_, ⟨.created header, ⟨_, startLsn, nodeId⟩, ?_, ?_, rfl, rfl⟩⟩
  · rcases SortedTable.mem_keys_insert.mp hk with hk | rfl
    · obtain ⟨row, hrow, rfl⟩ := List.mem_map.mp hk
      exact h.ids _ (List.mem_map.mpr ⟨row, hsub row hrow, rfl⟩)
    · exact le_rfl
  · rcases SortedTable.mem_entries_insert.mp hrow with rfl | ⟨hrow, -⟩
    · exact rowReads_created hheader
    · exact h.rows row (hsub row hrow)
  · rw [SortedTable.lookup_insert, if_pos rfl]
  · have hreads := readSegmentHeader_append (segmentPath dir.path segmentId) hheader []
    rw [List.append_nil] at hreads
    exact ⟨[], hreads⟩

omit [CheckpointCodec] in
/-- **The active segment, cut at its valid end.** -/
theorem SegmentsOpen.modify {segments : SortedTable Nat SegmentFile}
    (h : SegmentsOpen dir nodeId segmentId segments) {file : SegmentFile}
    (hlookup : segments.lookup segmentId = some file) {scan : SegmentScan}
    (hscan : scanSegment (segmentPath dir.path segmentId) segmentId file.bytes = .ok scan)
    {f : SegmentFile → SegmentFile}
    (hf : (f file).bytes = setLen scan.validOffset file.bytes) :
    SegmentsOpen dir nodeId segmentId (segments.modify segmentId f) := by
  obtain ⟨file', header, hlookup', hheader⟩ := h.active
  rw [hlookup] at hlookup'
  cases hlookup'
  obtain ⟨hscan', hsame⟩ := scanSegment_setLen hscan
  have hmem := SortedTable.lookup_eq_some.mp hlookup
  refine ⟨?_, fun row hrow => ?_, ⟨f file, header, ?_, ?_, hheader.segmentId, hheader.nodeId⟩⟩
  · rw [SortedTable.keys_modify]
    exact h.ids
  · rw [SortedTable.entries_modify] at hrow
    obtain ⟨⟨k, found⟩, hfound, rfl⟩ := List.mem_map.mp hrow
    by_cases hk : k = segmentId
    · -- the active segment has the records that it had
      subst hk
      have hlookup' := SortedTable.lookup_eq_some.mpr hfound
      rw [hlookup] at hlookup'
      cases hlookup'
      obtain ⟨records, hrecords, hlt⟩ := h.rows _ hfound
      refine ⟨records, ?_, hlt⟩
      rw [readSegmentRecords, hscan] at hrecords
      simp only [if_true]
      rw [readSegmentRecords, hf, hscan']
      exact hrecords
    · simp only [if_neg hk]
      exact h.rows _ hfound
  · rw [SortedTable.lookup_modify, if_pos rfl, hlookup]
    rfl
  · obtain ⟨rest, hrest⟩ := hheader.reads
    rw [hf]
    exact hsame _ _ hrest

end Recovered

end Ingest4x.Wal
