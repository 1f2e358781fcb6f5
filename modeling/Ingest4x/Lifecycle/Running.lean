import Ingest4x.Lifecycle.Journal
import Ingest4x.Wal.Writing

/-! # The running writer

The writer works at the end of the log, where nothing is removed. Its calls read and change only the
segments from the active one on, so that they do to the kept segments what they would do to the whole
log.

* **`Running`** — the writer rests at the end of the whole log of a directory.
* **`Running.flushed`**, **`Running.rolledBack`** — it does so again after a flush.
* **`Running.wpc_flushBufferLocked`** — a flush. -/

namespace Ingest4x.Wal

open Effect

/-! ### The end of the whole log -/

/-- The rows before a key and those from it on, where the entries are split there. -/
theorem entries_below_upFrom {t : SortedTable Nat SegmentFile} {k : Nat}
    {rows more : List (Nat × SegmentFile)} (hentries : t.entries = rows ++ more)
    (hrows : ∀ row ∈ rows, row.1 < k) (hmore : ∀ row ∈ more, k ≤ row.1) :
    (t.below k).entries = rows ∧ (t.upFrom k).entries = more := by
  constructor
  · show t.entries.filter _ = rows
    rw [hentries, List.filter_append, List.filter_eq_self.mpr, List.filter_eq_nil_iff.mpr,
      List.append_nil]
    · exact fun row hrow => by simpa using hmore row hrow
    · exact fun row hrow => decide_eq_true (hrows row hrow)
  · show t.entries.filter _ = more
    rw [hentries, List.filter_append, List.filter_eq_nil_iff.mpr, List.filter_eq_self.mpr,
      List.nil_append]
    · exact fun row hrow => decide_eq_true (hmore row hrow)
    · exact fun row hrow => by simpa using hrows row hrow

variable [RecordCodec] [CheckpointCodec]

namespace WholeLog

variable {dir dir' : WalDir} {log older : List LogSegment} {active : LogSegment}

/-- The same files have the same whole log. -/
theorem congr (h : WholeLog dir log) (hsegments : dir'.segments = dir.segments)
    (hnodeIdFile : dir'.nodeIdFile = dir.nodeIdFile)
    (hfile : dir'.checkpointFile = dir.checkpointFile) : WholeLog dir' log := by
  have hrows : dir'.segments.entries = dir.segments.entries ++ [] := by
    rw [hsegments, List.append_nil]
  have happend := h
  rw [← List.append_nil log] at happend ⊢
  exact happend.replaceTail [] hnodeIdFile hfile (List.append_nil _).symm hrows happend.ids
    happend.lsns happend.torn (by rintro _ ⟨⟩) ⟨[], (List.append_nil _).symm⟩

/-- The checkpoint is not behind the last segment. -/
theorem le_last (h : WholeLog dir (older ++ [active])) :
    ∀ position ∈ durableCheckpoint dir, position.segment ≤ active.id := by
  intro position hposition
  obtain ⟨segment, hsegment, hid⟩ := h.exists_segment hposition
  rw [← hid]
  rcases List.mem_append.mp hsegment with hsegment | hsegment
  · exact ((List.pairwise_append.mp h.ids).2.2 segment hsegment active
      (List.mem_singleton.mpr rfl)).le
  · rw [List.mem_singleton.mp hsegment]

/-- **The last segment is kept**, behind the segments that are kept of the others. -/
theorem split (h : WholeLog dir (older ++ [active])) :
    ∃ rows, dir.segments.entries = rows ++ [active.stored] ∧
      (∀ row ∈ rows, ∃ segment ∈ older, row = segment.stored) ∧
      (dir.segments.below active.id).entries = rows ∧
      (dir.segments.upFrom active.id).entries = [active.stored] := by
  obtain ⟨rows, hentries, hrows⟩ := h.exists_rows fun segment hsegment position hposition => by
    rw [List.mem_singleton.mp hsegment]
    exact h.le_last position hposition
  rw [List.map_singleton] at hentries
  have hlt : ∀ row ∈ rows, row.1 < active.id := by
    intro row hrow
    obtain ⟨segment, hsegment, rfl⟩ := hrows row hrow
    exact (List.pairwise_append.mp h.ids).2.2 segment hsegment active (List.mem_singleton.mpr rfl)
  obtain ⟨hbelow, hupFrom⟩ := entries_below_upFrom hentries hlt fun row hrow => by
    rw [List.mem_singleton.mp hrow]
    exact le_rfl
  exact ⟨rows, hentries, hrows, hbelow, hupFrom⟩

end WholeLog

/-- **The writer runs**: it rests at the end of the whole log of the directory. -/
structure Running (inner : WalWriterInner) (t : WalWriterState) (dir : WalDir)
    (older : List LogSegment) (active : LogSegment) : Prop where
  whole : WholeLog dir (older ++ [active])
  rest : AtRest inner t (dir.withSegments (WholeLog.table (older ++ [active]) whole.ids)) older active
    0 (logEntries (older ++ [active])).length

namespace Running

variable {mayFail : SysOp → Prop} {inner : WalWriterInner} {t t' : WalWriterState} {w w' : World}
  {older front : List LogSegment} {active last : LogSegment} {added : List WalEntry}
  {message : String}

/-! ### The whole log in place -/

omit [CheckpointCodec] in
/-- The world with the whole log in place. -/
def inPlace (w : World) (log : List LogSegment) (hids : log.Pairwise fun s s' => s.id < s'.id) :
    World :=
  w.withSegments (WholeLog.table log hids)

omit [CheckpointCodec] in
/-- With the whole log in place, a writer sees the segments from its active one on. -/
theorem tailView_inPlace {log new : List LogSegment} (hlog : log = older ++ new)
    (hids : log.Pairwise fun s s' => s.id < s'.id)
    (hold : ∀ segment ∈ older, segment.id < active.id)
    (hnew : ∀ segment ∈ new, active.id ≤ segment.id)
    (hstored : (tailView active.id w).segments.entries = new.map LogSegment.stored) :
    tailView active.id (inPlace w log hids) = tailView active.id w ∧
      ((inPlace w log hids).dir.segments.below active.id).entries = older.map LogSegment.stored := by
  have hentries : (WholeLog.table log hids).entries =
      older.map LogSegment.stored ++ new.map LogSegment.stored := by
    rw [← List.map_append, ← hlog]
    rfl
  obtain ⟨hbelow, hupFrom⟩ := entries_below_upFrom (k := active.id) hentries (by
    intro row hrow
    obtain ⟨segment, hsegment, rfl⟩ := List.mem_map.mp hrow
    exact hold segment hsegment) (by
    intro row hrow
    obtain ⟨segment, hsegment, rfl⟩ := List.mem_map.mp hrow
    exact hnew segment hsegment)
  refine ⟨?_, hbelow⟩
  have hsegments : (WholeLog.table log hids).upFrom active.id =
      (tailView active.id w).segments := SortedTable.ext (hupFrom.trans hstored.symm)
  rw [inPlace, tailView_withSegments, hsegments]
  rfl

/-- Its own tail. -/
theorem tailView_entries (h : Running inner t w.dir older active) :
    (tailView active.id w).segments.entries = [active.stored] := by
  obtain ⟨rows, -, -, -, hupFrom⟩ := h.whole.split
  exact hupFrom

/-- The segments before the active one. -/
theorem lt_active (h : Running inner t w.dir older active) :
    ∀ segment ∈ older, segment.id < active.id := fun segment hsegment =>
  (List.pairwise_append.mp h.whole.ids).2.2 segment hsegment active (List.mem_singleton.mpr rfl)

omit [CheckpointCodec] in
/-- A call that keeps the segments before the active one does so with the whole log in place. -/
theorem sameFront_inPlace (hfront : SameFront active.id w w') {log log' : List LogSegment}
    {hids : log.Pairwise fun s s' => s.id < s'.id} {hids' : log'.Pairwise fun s s' => s.id < s'.id}
    (hbelow : ((inPlace w log hids).dir.segments.below active.id).entries =
      older.map LogSegment.stored)
    (hbelow' : ((inPlace w' log' hids').dir.segments.below active.id).entries =
      older.map LogSegment.stored) :
    SameFront active.id (inPlace w log hids) (inPlace w' log' hids') :=
  ⟨hfront.path, hfront.nodeIdFile, hfront.checkpointFile, SortedTable.ext (hbelow'.trans hbelow.symm),
    hfront.clock, hfront.ticks, hfront.trace⟩

/-! ### What a flush leaves -/

/-- **A flush that succeeded**: the writer rests at the end of a log that has grown by the entries
`added` of the buffered records, whose appends are answered with their positions. -/
structure Committed (inner : WalWriterInner) (t : WalWriterState) (w : World) (log : List LogSegment)
    (t' : WalWriterState) (w' : World) (older' : List LogSegment) (active' : LogSegment)
    (added : List WalEntry) : Prop where
  running : Running inner t' w'.dir older' active'
  buffered : t'.buffered = []
  entries : logEntries (older' ++ [active']) = logEntries log ++ added
  records : added.map WalEntry.record = t.buffered.map BufferedWalRecord.record
  trace : w'.trace = w.trace ++ successEvents t.buffered (added.map WalEntry.position)
  front : ∃ bound, SameFront bound w w'

/-- **A flush that was rolled back**: the log is what it was, and no append is answered with a
position. -/
structure Undone (inner : WalWriterInner) (message : String) (t : WalWriterState) (w : World)
    (older : List LogSegment) (active : LogSegment) (t' : WalWriterState) (w' : World) : Prop where
  running : Running inner t' w'.dir older active
  buffered : t'.buffered = [] ∨ t'.buffered = t.buffered
  trace : w'.trace = w.trace ∨ w'.trace = w.trace ++ failureEvents t.buffered message
  front : ∃ bound, SameFront bound w w'

/-- **After a flush that succeeds** the writer rests at the end of the longer log. -/
theorem flushed (h : Running inner t w.dir older active)
    (hflushed : Flushed active front last added t (tailView active.id w) t' (tailView active.id w'))
    (hfront : SameFront active.id w w') :
    Committed inner t w (older ++ [active]) t' w' (older ++ front) last added := by
  obtain ⟨rows, hentries, -, hbelow, -⟩ := h.whole.split
  -- the new segments are behind the older ones
  have hnewIds : ∀ segment ∈ front ++ [last], active.id ≤ segment.id := by
    intro segment hsegment
    have hmem : segment.id ∈ List.range' active.id (front.length + 1) :=
      hflushed.ids ▸ List.mem_map_of_mem hsegment
    exact (List.mem_range'_1.mp hmem).1
  have hassoc : older ++ front ++ [last] = older ++ (front ++ [last]) := List.append_assoc _ _ _
  have hids : (older ++ front ++ [last]).Pairwise fun s s' => s.id < s'.id := by
    rw [hassoc]
    refine List.pairwise_append.mpr ⟨(List.pairwise_append.mp h.whole.ids).1, ?_, ?_⟩
    · have hsorted : ((front ++ [last]).map LogSegment.id).Pairwise (· < ·) := by
        rw [hflushed.ids]
        exact List.pairwise_lt_range'
      exact List.pairwise_map.mp hsorted
    · exact fun segment hsegment segment' hsegment' =>
        (h.lt_active segment hsegment).trans_le (hnewIds segment' hsegment')
  -- with the whole log in place the flush does the same
  obtain ⟨hview, hbefore⟩ :=
    tailView_inPlace rfl h.whole.ids h.lt_active (by simp) h.tailView_entries
  obtain ⟨hview', hbefore'⟩ := tailView_inPlace hassoc hids h.lt_active hnewIds hflushed.stored
  have hfull := AtRest.flushed h.rest
    (by rwa [hview, hview']) (sameFront_inPlace hfront hbefore hbefore')
  have hlength : (logEntries (older ++ [active])).length + t.buffered.length =
      (logEntries (older ++ front ++ [last])).length := by
    have hrecords := congrArg List.length hfull.records
    rw [List.length_map, List.length_map] at hrecords
    rw [hfull.entries, List.length_append, hrecords]
  have hrest := hfull.rest
  rw [hlength] at hrest
  have hwhole : WholeLog w'.dir (older ++ (front ++ [last])) := by
    refine h.whole.replaceTail _ hfront.nodeIdFile hfront.checkpointFile hentries ?_ (hassoc ▸ hids)
      ?_ ?_ ?_ ⟨added, ?_⟩
    · refine segments_eq (k := active.id) ?_ hflushed.stored
      rw [hfront.segments]
      exact hbelow
    · rw [← hassoc]
      exact hrest.log.lsns
    · rw [← hassoc]
      exact hrest.log.torn
    · intro segment hsegment
      rw [hflushed.nodeIds segment hsegment]
      exact h.whole.nodeIds active (by simp)
    · rw [← hassoc]
      exact hfull.entries
  rw [← hassoc] at hwhole
  exact ⟨⟨hwhole, hrest⟩, hfull.buffered, hfull.entries, hfull.records, hfull.trace, _, hfront⟩

/-- **After a flush that is rolled back** the writer rests on the log as it was. -/
theorem rolledBack (h : Running inner t w.dir older active)
    (hback : RolledBack active message t (tailView active.id w) t' (tailView active.id w'))
    (hfront : SameFront active.id w w') : Undone inner message t w older active t' w' := by
  obtain ⟨hview, hbefore⟩ :=
    tailView_inPlace rfl h.whole.ids h.lt_active (by simp) h.tailView_entries
  obtain ⟨hview', hbefore'⟩ := tailView_inPlace rfl h.whole.ids h.lt_active (by simp) hback.stored
  have hfull := AtRest.rolledBack h.rest
    (by rwa [hview, hview']) (sameFront_inPlace hfront hbefore hbefore')
  have hsegments : w'.dir.segments = w.dir.segments := by
    obtain ⟨rows, hentries, -, hbelow, -⟩ := h.whole.split
    rw [← hfront.segments] at hbelow
    exact SortedTable.ext ((segments_eq hbelow hback.stored).trans hentries.symm)
  have hrunning := h.whole.congr hsegments hfront.nodeIdFile hfront.checkpointFile
  rcases hfull.state with ⟨hsame, htrace, -⟩ | ⟨hnone, htrace, -⟩
  · exact ⟨⟨hrunning, hfull.rest⟩, Or.inr (by rw [hsame]), Or.inl htrace, _, hfront⟩
  · exact ⟨⟨hrunning, hfull.rest⟩, Or.inl hnone, Or.inr htrace, _, hfront⟩

/-! ### A flush -/

/-- **A flush of the running writer.** -/
theorem wpc_flushBufferLocked (hmay : ∀ o, mayFail o → ¬RollbackOp o)
    (h : Running inner t w.dir older active) :
    wpc (sysEnv mayFail) (AtFlush active t.buffered w) (flushBufferLocked inner)
      (fun _ t' w' => ∃ older' active' added,
        Committed inner t w (older ++ [active]) t' w' older' active' added)
      (fun error t' w' => Undone inner error.message t w older active t' w') t w := by
  have hview := Wal.wpc_flushBufferLocked hmay h.rest.nodeId.symm h.rest.torn
    h.rest.segmentId h.rest.offset h.tailView_entries
    (AtRest.head_lsn (w := inPlace w _ h.whole.ids) h.rest)
  have hframed := wpc_frame (R := SameFront active.id) (fun _ _ _ => SameFront.trans)
    (fun o w r w' hguard he => sameFront_of_guard mayFail hguard.1 he)
    (SameFront.refl active.id w) (wpc_view (sysEnv_tailEnv mayFail active.id) hview)
  refine wpc_mono hframed (fun _ _ h => h) ?_ ?_
  · rintro _ t' w' ⟨⟨front, last, added, hflushed, -⟩, hfront⟩
    exact ⟨_, last, added, h.flushed hflushed hfront⟩
  · rintro error t' w' ⟨hback, hfront⟩
    exact h.rolledBack hback hfront

/-- The buffer with one more record. -/
theorem push (h : Running inner t w.dir older active) (record : WalRecord) (response : Option Nat)
    {nextLsn : Nat} (hnext : checkedNext t.nextLsn = .ok nextLsn) :
    Running inner { t with
      nextLsn := nextLsn
      buffered := t.buffered ++ [⟨assignWalMetadata record t.nextLsn inner.nodeId, response⟩] }
      w.dir older active :=
  ⟨h.whole, AtRest.push (w := inPlace w _ h.whole.ids) h.rest record response hnext⟩

end Running

end Ingest4x.Wal
