import Ingest4x.Wal.GroupAnswers

/-! # Failed flushes

A flush that fails leaves the log as it was, wherever it fails and whatever it had written, as long as
the rollback itself succeeds.

* **`FlushStart`** — where a flush starts: with what is buffered, or with one more record.
* **`NextFlushWrites`** — what the next flush that succeeds will write.
* **`failedFlush_restores`** — the state after a failed flush. -/

namespace Ingest4x.Wal

open Effect

/-! ### Where a flush starts -/

/-- **Where a flush starts**, in a group: a caller or the flush thread flushes what is buffered, or an
append has buffered its record and filled the buffer. -/
inductive FlushStart (inner : WalWriterInner) (g : Group) : Group → Prop
  | flush : FlushStart inner g g
  | append {record : WalRecord} {returned : Except IoError WalPosition}
      (left : g.state.nextLsn + 1 < 2 ^ 64)
      (full : inner.flushRecords ≤ (g.state.buffered ++ [g.entry inner record]).length) :
      FlushStart inner g (g.push inner record returned)

section Codec

variable [RecordCodec]

/-- **What the next flush that succeeds writes**, after any appends and flushes that fail: what is
buffered here, followed by the records appended since. -/
def NextFlushWrites (mayFail : SysOp → Prop) (inner : WalWriterInner) (entries : List WalEntry)
    (g : Group) : Prop :=
  ∀ g' before t w, GroupRuns mayFail inner g g' → g'.flushed = g.flushed →
    FlushStart inner g' before →
    Runs (sysEnv mayFail) ((flushBufferLocked inner).start before.state) before.world (.ok (), t) w →
    ∃ added, readEntriesAfter w.dir none = .ok (entries ++ added) ∧
      added.map WalEntry.record = g.state.buffered.map BufferedWalRecord.record ++
        numbered inner g.state.nextLsn (acceptedCalls (before.calls.drop g.calls.length))

variable {mayFail : SysOp → Prop} {inner : WalWriterInner} {k n n₀ : Nat}
  {initial added : List WalEntry} {g before : Group} {older : List LogSegment} {active : LogSegment}

/-- Where an append starts a flush, the writer rests too. -/
theorem AtRest.pushed (h : AtRest inner g.state g.world.dir older active k n)
    (hleft : g.state.nextLsn + 1 < 2 ^ 64) (record : WalRecord)
    (returned : Except IoError WalPosition) :
    AtRest inner (g.push inner record returned).state g.world.dir older active k n := by
  have hnext : checkedNext g.state.nextLsn = .ok (g.state.nextLsn + 1) := by
    rw [checkedNext, if_pos hleft]
  exact h.push record (inner.channel g.calls.length) hnext

/-- What holds of a group whose appends wait holds where a flush starts. -/
theorem SyncOk.flushStart (h : SyncOk inner k initial g older active n added)
    (hsync : inner.noSync = false) (hstart : FlushStart inner g before) :
    SyncOk inner k initial before older active n added := by
  cases hstart with
  | flush => exact h
  | append left full => exact h.push hsync (h.rest.pushed left _ _)

/-- What holds of a group whose appends do not wait holds where a flush starts. -/
theorem NoSyncOk.flushStart (h : NoSyncOk inner k n₀ initial g older active n added)
    (hnoSync : inner.noSync = true) (hstart : FlushStart inner g before) :
    NoSyncOk inner k n₀ initial before older active n added := by
  cases hstart with
  | flush => exact h
  | append left full => exact h.push hnoSync (h.rest.pushed left _ _)

omit [RecordCodec] in
/-- The calls and the number of flushed ones, where a flush starts. -/
theorem FlushStart.calls (h : FlushStart inner g before) :
    g.calls <+: before.calls ∧ before.flushed = g.flushed := by
  cases h with
  | flush => exact ⟨List.prefix_rfl, rfl⟩
  | append left full => exact ⟨List.prefix_append _ _, rfl⟩

/-! ### After a failed flush -/

/-- The files of a log at rest are determined by the log. -/
theorem LogAt.segments_eq {dir dir' : WalDir} {log : List LogSegment} (h : LogAt dir log k n)
    (h' : LogAt dir' log k n) : dir'.segments = dir.segments :=
  SortedTable.ext (h'.stored.trans h.stored.symm)

/-- **The next flush that succeeds** writes what is buffered and what was appended since. -/
theorem NoSyncOk.nextFlushWrites (h : NoSyncOk inner k n₀ initial g older active n added)
    (hmay : ∀ o, mayFail o → ¬RollbackOp o) (hnoSync : inner.noSync = true) :
    NextFlushWrites mayFail inner (initial ++ added) g := by
  intro g' before t w hruns hflushed hstart hrun
  obtain ⟨⟨older', active', n', added', hok, hgrows⟩, hcalls⟩ := h.runs hmay hnoSync hruns
  have hbefore := hok.flushStart hnoSync hstart
  have hcalls' : g.calls <+: before.calls := hcalls.trans hstart.calls.1
  obtain ⟨since, hsince⟩ := hcalls'
  have hflushed' : before.flushed = g.flushed := hstart.calls.2.trans hflushed
  -- no flush has succeeded since, so the log is still the same
  have hsame : added' = added := by
    have hlength := congrArg List.length hbefore.written
    rw [hflushed', ← hsince, List.take_append_of_le_length h.taken, length_numbered,
      List.length_map, ← length_numbered inner (n₀ + 1), ← h.written, List.length_map] at hlength
    exact (hgrows.eq_of_length hlength.symm).symm
  have hn : n' = n := by rw [hbefore.count, hsame, h.count]
  have hlength := congrArg List.length h.pending
  rw [List.length_map, length_numbered] at hlength
  obtain ⟨-, older'', active'', more, hto, -⟩ := wp_runs (hbefore.rest.wpc_flushBufferLocked hmay) hrun
  refine ⟨more, ?_, ?_⟩
  · rw [hto.rest.log.stored.readEntriesAfter, hto.entries, hbefore.log, hsame]
  · rw [hto.records, hbefore.pending, hflushed', ← hsince, hn, List.drop_append_of_le_length h.taken,
      acceptedCalls_append, numbered_append, ← h.pending, ← hlength, ← h.rest.nextLsn, List.drop_left]

/-- **A failed flush leaves the log as it was.** For every state that a run reaches and wherever the
flush fails: the segment files and the end of the log are what they were before. Where appends wait,
the LSN of the first record is free again and every append that waits has a message with the error;
where they do not, the batch is still buffered with its LSNs, and the next flush that succeeds writes
it. -/
theorem failedFlush_restores (hmay : ∀ o, mayFail o → ¬RollbackOp o) {g₀ : Group}
    (hopened : Opened inner k n initial g₀) (hruns : GroupRuns mayFail inner g₀ g)
    (hstart : FlushStart inner g before) {error : IoError} {t : WalWriterState} {w : World}
    (hrun : Runs (sysEnv mayFail) ((flushBufferLocked inner).start before.state) before.world
      (.error error, t) w) :
    w.dir.segments = before.world.dir.segments ∧ t.segmentId = before.state.segmentId ∧
    t.offset = before.state.offset ∧
    (inner.noSync = false →
      (∀ first ∈ before.state.buffered.head?, t.nextLsn = first.record.lsn.toNat) ∧
      t.buffered = [] ∧ ∀ entry ∈ before.state.buffered, ∃ i, entry.response = some i ∧
        (i, .error (.other error.message)) ∈ (before.failedTo t w).messages) ∧
    (inner.noSync = true → t.nextLsn = before.state.nextLsn ∧
      t.buffered = before.state.buffered ∧
      ∃ entries, readEntriesAfter before.world.dir none = .ok entries ∧
        NextFlushWrites mayFail inner entries (before.failedTo t w)) := by
  cases hsync : inner.noSync with
  | false =>
    obtain ⟨⟨older, active, n', added, hok⟩, -⟩ := hruns.syncOk hmay hsync hopened
    have hbefore := hok.flushStart hsync hstart
    obtain ⟨-, hback⟩ := wp_runs (hbefore.rest.wpc_flushBufferLocked hmay) hrun
    obtain ⟨hafter, hwaiting, hmessages⟩ := hbefore.failedTo hback
    have hbuffered : t.buffered = [] := hafter.buffered_eq_nil hwaiting
    refine ⟨hbefore.rest.log.segments_eq hback.rest.log, ?_, ?_, fun _ => ⟨?_, ?_, ?_⟩, by rintro ⟨⟩⟩
    · exact hback.rest.segmentId.trans hbefore.rest.segmentId.symm
    · exact hback.rest.offset.trans hbefore.rest.offset.symm
    · intro first hfirst
      rw [hback.rest.nextLsn, hbuffered, hbefore.rest.first_lsn hfirst]
      rfl
    · exact hbuffered
    · intro entry hentry
      obtain ⟨i, hresponse, -⟩ := hbefore.buffered entry hentry
      refine ⟨i, hresponse, ?_⟩
      rw [hmessages]
      exact List.mem_append_right _
        (List.mem_map.mpr ⟨i, List.mem_filterMap.mpr ⟨entry, hentry, hresponse⟩, rfl⟩)
  | true =>
    obtain ⟨older, active, n', added, hok⟩ := hruns.noSyncOk hmay hsync hopened
    have hbefore := hok.flushStart hsync hstart
    obtain ⟨-, hback⟩ := wp_runs (hbefore.rest.wpc_flushBufferLocked hmay) hrun
    obtain ⟨rfl, hafter⟩ := hbefore.failedTo hback
    refine ⟨hbefore.rest.log.segments_eq hback.rest.log, rfl, rfl, by rintro ⟨⟩, fun _ => ⟨rfl, rfl,
      initial ++ added, ?_, hafter.nextFlushWrites hmay hsync⟩⟩
    rw [hbefore.rest.log.stored.readEntriesAfter, hbefore.log]

end Codec

section Sample

attribute [local instance] referenceCodec

/-- A disk to which nothing can be written. -/
def fullDisk : SysOp → Option IoError
  | .appendSegment _ _ => some (.other "No space left on device (os error 28)")
  | _ => none

/-- A failed flush of one record, where appends do not wait. -/
theorem failedFlush_restores_sample :
    ∃ (t : WalWriterState) (w : World), w.dir.segments = sampleGroup.world.dir.segments ∧
      t.segmentId = 1 ∧ t.buffered = [sampleGroup.entry (sampleInner true) (sampleRecord "a")] := by
  let before := sampleGroup.push (sampleInner true) (sampleRecord "a") (.ok sampleGroup.position)
  have hfails : ∀ o, fullDisk o ≠ none → (fun o => fullDisk o ≠ none) o := fun _ h => h
  have hrun := runs_sysAnswer hfails ((flushBufferLocked (sampleInner true)).start before.state)
    before.world
  have hmay : ∀ o, fullDisk o ≠ none → ¬RollbackOp o := by
    intro o ho hrollback
    cases o <;> first | exact ho rfl | exact hrollback
  obtain ⟨hsegments, hsegmentId, -, -, hkept⟩ := failedFlush_restores hmay (sampleGroup_opened _ rfl)
    Relation.ReflTransGen.refl (.append (by decide) (by decide)) hrun
  exact ⟨_, _, hsegments, hsegmentId, (hkept rfl).2.1⟩

end Sample

end Ingest4x.Wal
