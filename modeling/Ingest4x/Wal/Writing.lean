import Ingest4x.Wal.Flush

/-! # The writer at rest

Between two calls the writer stands at the end of a well-formed log whose LSNs are contiguous, and
the records it has buffered carry the LSNs that follow. A flush and an append keep it so, whatever
fails in them.

* **`LogAt`** — a directory whose log holds the LSNs after `k` up to `n`.
* **`AtRest`** — the writer rests on it.
* **`AtRest.wpc_flushBufferLocked`**, **`AtRest.wpc_appendBuffered`** — the two calls. -/

namespace Ingest4x.Wal

open Effect

variable [RecordCodec]

/-! ### The log of a directory -/

/-- **A log at rest** that holds the LSNs after `k` up to `n`. A segment without frames at its end
may be torn only if the next record belongs to it. -/
structure LogAt (dir : WalDir) (log : List LogSegment) (k n : Nat) : Prop where
  stored : Stored dir log
  lsns : (logEntries log).map (fun entry => entry.position.lsn) = List.range' (k + 1) (n - k)
  le : k ≤ n
  torn : ∀ front segment behind, log = front ++ segment :: behind →
    logEntries (segment :: behind) = [] → segment.torn ≠ [] → segment.startLsn.toNat = n + 1

/-- The number of entries of a log at rest. -/
theorem LogAt.length_entries {dir : WalDir} {log : List LogSegment} {k n : Nat}
    (h : LogAt dir log k n) : (logEntries log).length = n - k := by
  have hlength := congrArg List.length h.lsns
  rwa [List.length_map, List.length_range'] at hlength

/-- **The writer rests** at the end of the log: the records it has buffered carry the LSNs after
those of the log. -/
structure AtRest (inner : WalWriterInner) (t : WalWriterState) (dir : WalDir)
    (older : List LogSegment) (active : LogSegment) (k n : Nat) : Prop where
  log : LogAt dir (older ++ [active]) k n
  nodeId : active.nodeId = inner.nodeId
  torn : active.torn = []
  segmentId : t.segmentId = active.id
  offset : t.offset = active.endOffset
  start : active.frames = [] → active.startLsn.toNat = n + 1
  nextLsn : t.nextLsn = n + 1 + t.buffered.length
  bound : t.nextLsn < 2 ^ 64
  buffered : t.buffered.map (fun entry => entry.record.lsn.toNat) =
    List.range' (n + 1) t.buffered.length

section Views

variable {dir : WalDir} {older : List LogSegment} {active : LogSegment}

omit [RecordCodec] in
/-- The rows before a key and those from it on determine the table. -/
theorem segments_eq {t : SortedTable Nat SegmentFile} {k : Nat} {below upFrom : List (Nat × SegmentFile)}
    (hbelow : (t.below k).entries = below) (hupFrom : (t.upFrom k).entries = upFrom) :
    t.entries = below ++ upFrom := by
  rw [t.entries_eq_below_append_upFrom k, hbelow, hupFrom]

/-- The files of a log before its last segment, and the last one. -/
theorem Stored.split (h : Stored dir (older ++ [active])) :
    (dir.segments.below active.id).entries = older.map LogSegment.stored ∧
      (dir.segments.upFrom active.id).entries = [active.stored] := by
  have hids := (List.pairwise_append.mp h.ids).2.2
  have hlt : ∀ row ∈ older.map LogSegment.stored, row.1 < active.id := by
    intro row hrow
    obtain ⟨segment, hsegment, rfl⟩ := List.mem_map.mp hrow
    exact hids segment hsegment active (List.mem_singleton.mpr rfl)
  have hactive : active.stored.1 = active.id := rfl
  constructor
  · show dir.segments.entries.filter _ = _
    rw [h, List.map_append, List.filter_append, List.filter_eq_self.mpr, List.map_singleton,
      List.filter_cons, if_neg (by simp [hactive]), List.filter_nil, List.append_nil]
    exact fun row hrow => decide_eq_true (hlt row hrow)
  · show dir.segments.entries.filter _ = _
    rw [h, List.map_append, List.filter_append, List.filter_eq_nil_iff.mpr, List.map_singleton,
      List.filter_cons, if_pos (by simp [hactive]), List.filter_nil, List.nil_append]
    exact fun row hrow => by simpa using hlt row hrow

end Views

namespace AtRest

variable {inner : WalWriterInner} {t : WalWriterState} {w w' : World} {older : List LogSegment}
  {active : LogSegment} {k n : Nat}

/-- The view of a flush at rest. -/
theorem tailView_entries (h : AtRest inner t w.dir older active k n) :
    (tailView active.id w).segments.entries = [active.stored] :=
  h.log.stored.split.2

/-- The segments before the active one stay; those from it on are what the flush left. -/
theorem stored_of_sameFront (h : AtRest inner t w.dir older active k n)
    (hfront : SameFront active.id w w') {segments : List LogSegment}
    (hstored : (tailView active.id w').segments.entries = segments.map LogSegment.stored) :
    Stored w'.dir (older ++ segments) := by
  rw [Stored, List.map_append]
  refine segments_eq (k := active.id) ?_ hstored
  rw [hfront.segments]
  exact h.log.stored.split.1

/-- The first buffered record has the next LSN of the log. -/
theorem first_lsn (h : AtRest inner t w.dir older active k n) {first : BufferedWalRecord}
    (hfirst : t.buffered.head? = some first) : first.record.lsn.toNat = n + 1 := by
  have hlsn := h.buffered
  obtain ⟨rest, hrest⟩ := List.head?_eq_some_iff.mp hfirst
  rw [hrest, List.map_cons, List.length_cons, List.range'_succ] at hlsn
  exact (List.cons_eq_cons.mp hlsn).1

/-- The first buffered record belongs into a segment without frames. -/
theorem head_lsn (h : AtRest inner t w.dir older active k n) (hframes : active.frames = []) :
    ∀ entry ∈ t.buffered.head?, entry.record.lsn = active.startLsn := by
  intro entry hentry
  have hfirst := h.first_lsn hentry
  rw [← h.start hframes] at hfirst
  exact UInt64.toNat_inj.mp hfirst

omit [RecordCodec] in
/-- The trace of the answers grew by the same events as the whole trace. -/
theorem trace_of_sameFront {bound : Nat} (hfront : SameFront bound w w') {events : List Event}
    (h : (tailView bound w').trace = (tailView bound w).trace ++ events) :
    w'.trace = w.trace ++ events := by
  obtain ⟨events', hevents', hnone⟩ := hfront.trace
  have hfilter : events'.filter (fun event => !event.isReplay) = events' :=
    List.filter_eq_self.mpr fun event hevent => by rw [hnone event hevent]; rfl
  have heq : (tailView bound w).trace ++ events' = (tailView bound w).trace ++ events := by
    rw [← h]
    show _ = w'.trace.filter _
    rw [hevents', List.filter_append, hfilter]
    rfl
  rw [hevents', List.append_cancel_left heq]

end AtRest

/-! ### The flush -/

/-- **The log has grown** by the entries `added` of the buffered records, whose appends are answered
with their positions. -/
structure FlushedTo (inner : WalWriterInner) (t : WalWriterState) (w : World)
    (log : List LogSegment) (k n : Nat) (t' : WalWriterState) (w' : World)
    (older' : List LogSegment) (active' : LogSegment) (added : List WalEntry) : Prop where
  rest : AtRest inner t' w'.dir older' active' k (n + t.buffered.length)
  buffered : t'.buffered = []
  entries : logEntries (older' ++ [active']) = logEntries log ++ added
  records : added.map WalEntry.record = t.buffered.map BufferedWalRecord.record
  trace : w'.trace = w.trace ++ successEvents t.buffered (added.map WalEntry.position)

/-- **The log is what it was**: the records are still buffered, or their appends are answered with
the error and their LSNs are free again. -/
structure RolledBackTo (inner : WalWriterInner) (message : String) (t : WalWriterState) (w : World)
    (older : List LogSegment) (active : LogSegment) (k n : Nat) (t' : WalWriterState) (w' : World) :
    Prop where
  rest : AtRest inner t' w'.dir older active k n
  state : (t' = t ∧ w'.trace = w.trace ∧ ∀ entry ∈ t.buffered, entry.response = none) ∨
    (t'.buffered = [] ∧ w'.trace = w.trace ++ failureEvents t.buffered message ∧
      ∃ entry ∈ t.buffered, entry.response ≠ none)

/-- What holds before each operation of a flush that starts in the world `w`. -/
def AtFlush (active : LogSegment) (buffered : List BufferedWalRecord) (w : World) (o : SysOp)
    (w' : World) : Prop :=
  FlushGuard active (buffered.map BufferedWalRecord.record) (tailView active.id w).trace o
    (tailView active.id w') ∧ SameFront active.id w w'

namespace AtRest

variable {mayFail : SysOp → Prop} {inner : WalWriterInner} {t : WalWriterState} {w : World}
  {older : List LogSegment} {active : LogSegment} {k n : Nat}

/-- After a flush that succeeds the writer rests at the end of the longer log. -/
theorem flushed (h : AtRest inner t w.dir older active k n) {t' : WalWriterState} {w' : World}
    {front : List LogSegment} {last : LogSegment} {added : List WalEntry}
    (hflushed : Flushed active front last added t (tailView active.id w) t'
      (tailView active.id w')) (hfront : SameFront active.id w w') :
    FlushedTo inner t w (older ++ [active]) k n t' w' (older ++ front) last added := by
  have hentries : logEntries (older ++ front ++ [last]) =
      logEntries (older ++ [active]) ++ added := by
    rw [List.append_assoc, logEntries_append, hflushed.entries, logEntries_append,
      logEntries_cons active, logEntries_nil, List.append_nil, List.append_assoc]
  have hlength : added.length = t.buffered.length := by
    have hrecords := congrArg List.length hflushed.records
    rwa [List.length_map, List.length_map] at hrecords
  -- the entries added carry the LSNs of the buffered records
  have hlsns : added.map (fun entry => entry.position.lsn) =
      List.range' (n + 1) t.buffered.length := by
    rw [← h.buffered]
    have hlsn : ∀ entry ∈ added, entry.position.lsn = entry.record.lsn.toNat := by
      intro entry hentry
      have hmem : entry ∈ logEntries (older ++ front ++ [last]) := by
        rw [hentries]
        exact List.mem_append_right _ hentry
      obtain ⟨segment, -, hsegment⟩ := mem_logEntries.mp hmem
      exact lsn_of_mem_entriesFrom hsegment
    have hrecords := congrArg (List.map fun record : WalRecord => record.lsn.toNat) hflushed.records
    rw [List.map_map, List.map_map] at hrecords
    rw [List.map_congr_left hlsn]
    exact hrecords
  have hle := h.log.le
  have hstate := hflushed.state
  have hnext := h.nextLsn
  refine ⟨?_, by rw [hstate], hentries, hflushed.records, trace_of_sameFront hfront hflushed.trace⟩
  constructor
  · refine ⟨?_, ?_, by omega, ?_⟩
    · rw [List.append_assoc]
      exact h.stored_of_sameFront hfront hflushed.stored
    · rw [hentries, List.map_append, h.log.lsns, hlsns]
      have hstart : n + 1 = k + 1 + 1 * (n - k) := by omega
      rw [hstart, List.range'_append]
      congr 1
      omega
    · intro front' segment behind hsplit hnone htorn
      by_cases hbuffered : t.buffered = []
      · obtain ⟨rfl, rfl⟩ := hflushed.unchanged hbuffered
        rw [List.append_nil] at hsplit
        rw [hbuffered, List.length_nil, Nat.add_zero]
        exact h.log.torn front' segment behind hsplit hnone htorn
      · -- the last segment has frames, so no part of the log at its end is without entries
        have hlast : last ∈ segment :: behind := by
          have hget := congrArg List.getLast? hsplit
          rw [List.getLast?_append, List.getLast?_singleton, Option.some_or, List.getLast?_append,
            List.getLast?_cons, Option.some_or] at hget
          have hmem : last ∈ (segment :: behind).getLast? := by
            rw [List.getLast?_cons]
            exact hget.symm
          exact List.mem_of_getLast? hmem
        have hempty : last.entries = [] := by
          refine List.eq_nil_iff_forall_not_mem.mpr fun entry hentry => ?_
          have hmem := mem_logEntries.mpr ⟨last, hlast, hentry⟩
          rw [hnone] at hmem
          cases hmem
        have hframes := congrArg List.length hempty
        rw [LogSegment.length_entries, List.length_nil, List.length_eq_zero_iff] at hframes
        exact absurd hframes (hflushed.nonempty hbuffered)
  · exact (hflushed.nodeIds last (by simp)).trans h.nodeId
  · exact hflushed.torn
  · rw [hstate]
  · rw [hstate]
  · intro hframes
    by_cases hbuffered : t.buffered = []
    · obtain ⟨-, rfl⟩ := hflushed.unchanged hbuffered
      rw [hbuffered, List.length_nil, Nat.add_zero]
      exact h.start hframes
    · exact absurd hframes (hflushed.nonempty hbuffered)
  · rw [hstate]
    show t.nextLsn = n + t.buffered.length + 1 + 0
    omega
  · rw [hstate]
    exact h.bound
  · rw [hstate]
    rfl

/-- After a flush that is rolled back the writer rests on the log as it was. -/
theorem rolledBack (h : AtRest inner t w.dir older active k n) {t' : WalWriterState} {w' : World}
    {message : String} (hback : RolledBack active message t (tailView active.id w) t'
      (tailView active.id w')) (hfront : SameFront active.id w w') :
    RolledBackTo inner message t w older active k n t' w' := by
  have hstored : Stored w'.dir (older ++ [active]) := h.stored_of_sameFront hfront hback.stored
  have hlog : LogAt w'.dir (older ++ [active]) k n := ⟨hstored, h.log.lsns, h.log.le, h.log.torn⟩
  rcases hback.state with ⟨rfl, htrace, hnone⟩ | ⟨first, hfirst, rfl, htrace, hsome⟩
  · refine ⟨⟨hlog, h.nodeId, h.torn, h.segmentId, h.offset, h.start, h.nextLsn, h.bound,
      h.buffered⟩, Or.inl ⟨rfl, ?_, hnone⟩⟩
    have heq : w'.trace = w.trace ++ [] :=
      trace_of_sameFront hfront (by rw [htrace, List.append_nil])
    rwa [List.append_nil] at heq
  · -- the LSN of the first record is free again
    have hlsn := h.first_lsn hfirst
    have hbound : n + 1 < 2 ^ 64 := by
      rw [← hlsn]
      exact first.record.lsn.toNat_lt
    exact ⟨⟨hlog, h.nodeId, h.torn, h.segmentId, h.offset, h.start, hlsn, hlsn ▸ hbound, rfl⟩,
      Or.inr ⟨rfl, trace_of_sameFront hfront htrace, hsome⟩⟩

/-- **A flush at rest.** -/
theorem wpc_flushBufferLocked (hmay : ∀ o, mayFail o → ¬RollbackOp o)
    (h : AtRest inner t w.dir older active k n) :
    wpc (sysEnv mayFail) (AtFlush active t.buffered w) (flushBufferLocked inner)
      (fun _ t' w' => SameFront active.id w w' ∧ ∃ older' active' added,
        FlushedTo inner t w (older ++ [active]) k n t' w' older' active' added ∧
          PlacedAt inner t added)
      (fun error t' w' => SameFront active.id w w' ∧
        RolledBackTo inner error.message t w older active k n t' w') t w := by
  have hview := Wal.wpc_flushBufferLocked hmay h.nodeId.symm h.torn
    h.segmentId h.offset h.tailView_entries h.head_lsn
  have hframed := wpc_frame (R := SameFront active.id) (fun _ _ _ => SameFront.trans)
    (fun o w r w' hguard he => sameFront_of_guard mayFail hguard.1 he)
    (SameFront.refl active.id w) (wpc_view (sysEnv_tailEnv mayFail active.id) hview)
  refine wpc_mono hframed (fun _ _ h => h) ?_ ?_
  · rintro _ t' w' ⟨⟨front, last, added, hflushed, hplaced⟩, hfront⟩
    exact ⟨hfront, _, last, added, h.flushed hflushed hfront, hplaced⟩
  · rintro error t' w' ⟨hback, hfront⟩
    exact ⟨hfront, h.rolledBack hback hfront⟩

/-! ### The append -/

/-- The buffer with one more record. -/
theorem push (h : AtRest inner t w.dir older active k n) (record : WalRecord)
    (response : Option Nat) {nextLsn : Nat} (hnext : checkedNext t.nextLsn = .ok nextLsn) :
    AtRest inner { t with
      nextLsn := nextLsn
      buffered := t.buffered ++ [⟨assignWalMetadata record t.nextLsn inner.nodeId, response⟩] }
      w.dir older active k n := by
  rw [checkedNext] at hnext
  split_ifs at hnext with hbound
  cases hnext
  have hlsn := h.nextLsn
  refine ⟨h.log, h.nodeId, h.torn, h.segmentId, h.offset, h.start, ?_, hbound, ?_⟩
  · rw [List.length_append, List.length_singleton]
    show t.nextLsn + 1 = _
    omega
  · show (t.buffered ++ [_]).map _ = List.range' (n + 1) (t.buffered ++ [_]).length
    rw [List.map_append, h.buffered, List.length_append, List.length_singleton,
      List.range'_1_concat, List.map_singleton, assignWalMetadata_lsn h.bound, hlsn]

/-- **An append at rest**: the record is buffered, and flushed with the others where the buffer is
full. -/
theorem wpc_appendBuffered (hmay : ∀ o, mayFail o → ¬RollbackOp o)
    (h : AtRest inner t w.dir older active k n) (record : WalRecord) (response : Option Nat) :
    let buffered := t.buffered ++ [⟨assignWalMetadata record t.nextLsn inner.nodeId, response⟩]
    wpc (sysEnv mayFail) (AtFlush active buffered w) (appendBuffered inner record response)
      (fun position t' w' => position = ⟨t.nextLsn, t.segmentId, t.offset⟩ ∧
        ∃ t₁, t₁ = { t with nextLsn := t.nextLsn + 1, buffered := buffered } ∧
        AtRest inner t₁ w.dir older active k n ∧ ((t' = t₁ ∧ w' = w) ∨
        (SameFront active.id w w' ∧ ∃ older' active' added,
          FlushedTo inner t₁ w (older ++ [active]) k n t' w' older' active' added ∧
            PlacedAt inner t₁ added)))
      (fun error t' w' => (t' = t ∧ w' = w ∧ 2 ^ 64 ≤ t.nextLsn + 1) ∨
        ∃ t₁, t₁ = { t with nextLsn := t.nextLsn + 1, buffered := buffered } ∧
        AtRest inner t₁ w.dir older active k n ∧ SameFront active.id w w' ∧
          RolledBackTo inner error.message t₁ w older active k n t' w') t w := by
  intro buffered
  rw [appendBuffered, wpc_bind, wpc_get, wpc_bind, wpc_ofExcept]
  refine ⟨fun nextLsn hnext => ?_, fun error hnext => Or.inl ⟨rfl, rfl, ?_⟩⟩
  swap
  · rw [checkedNext] at hnext
    split_ifs at hnext with hbound
    exact not_lt.mp hbound
  have hpush := h.push record response hnext
  have hnextLsn : nextLsn = t.nextLsn + 1 := by
    rw [checkedNext] at hnext
    split_ifs at hnext
    cases hnext
    rfl
  subst hnextLsn
  rw [wpc_bind, wpc_set, wpc_bind, wpc_ite]
  refine ⟨fun _ => ?_, fun _ => ⟨rfl, _, rfl, hpush, Or.inl ⟨rfl, rfl⟩⟩⟩
  refine wpc_imp (hpush.wpc_flushBufferLocked hmay) ?_ ?_
  · rintro _ t' w' ⟨hfront, hflushed⟩
    exact ⟨rfl, _, rfl, hpush, Or.inr ⟨hfront, hflushed⟩⟩
  · rintro error t' w' ⟨hfront, hback⟩
    exact Or.inr ⟨_, rfl, hpush, hfront, hback⟩

/-- **A new log**: the writer rests at the end of the first segment, which has only a header. -/
theorem fresh (inner : WalWriterInner) {dir : WalDir} {createdMs : UInt64} {header : Bytes}
    (encodes : serializeSegmentHeader (UInt64.ofNat 1) inner.nodeId 1 createdMs = .ok header)
    (hdir : dir.segments.entries = [(1, .created header)]) :
    AtRest inner ⟨1, segmentHeaderLen, 1, []⟩ dir []
      (LogSegment.opened 1 inner.nodeId 1 createdMs header encodes) 0 0 where
  log := {
    stored := by
      show dir.segments.entries = [(1, .created (LogSegment.opened 1 _ _ _ _ encodes).bytes)]
      rw [hdir, LogSegment.opened_bytes]
    lsns := rfl
    le := le_rfl
    torn := by
      intro front segment behind hsplit _ htorn
      have hmem : segment ∈ [] ++ [LogSegment.opened 1 inner.nodeId 1 createdMs header encodes] := by
        rw [hsplit]
        exact List.mem_append_right _ List.mem_cons_self
      rw [List.nil_append, List.mem_singleton] at hmem
      rw [hmem] at htorn
      exact absurd rfl htorn }
  nodeId := rfl
  torn := rfl
  segmentId := rfl
  offset := rfl
  start := fun _ => rfl
  nextLsn := rfl
  bound := by decide
  buffered := rfl

end AtRest

end Ingest4x.Wal
