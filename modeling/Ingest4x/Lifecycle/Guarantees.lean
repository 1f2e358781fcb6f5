import Ingest4x.Lifecycle.Execution
import Ingest4x.Lifecycle.Serving
import Ingest4x.Replay.Safety

/-! # What the system guarantees over its whole life

For every history from an empty directory: whatever fails, whenever the machine goes down, and however
the replay runs beside the appends.

* **`history_log_stable`** — an LSN stands for one record for ever, and records only leave the log once
  the checkpoint covers them.
* **`history_log_appended`** — the log is a subsequence of what was appended.
* **`history_acknowledged`** — an acknowledged record is still read by the next replay, or done with.
* **`history_covered_done`**, **`history_sends_log`** — what the replay calls of the history have sent.
* **`history_replay_resumes`** — a replay call never meets an LSN gap.
* **`history_restarts`** — a stopped system starts again, behind all LSNs that were given away. -/

namespace Ingest4x.Wal

open Bytes Effect

/-! ### Reading without a gap -/

/-- Entries whose LSNs count on have no gap. -/
theorem contiguousEntries_eq_self {entries : List WalEntry} {n : Nat} {expected : Option Nat}
    (h : entries.map (fun entry => entry.position.lsn) = List.range' n entries.length)
    (hexpected : ∀ m ∈ expected, m = n) : contiguousEntries expected entries = entries := by
  induction entries generalizing n expected with
  | nil => rfl
  | cons entry entries ih =>
    rw [List.map_cons, List.length_cons, List.range'_succ] at h
    obtain ⟨hlsn, hrest⟩ := List.cons_eq_cons.mp h
    have hnext : expected.getD entry.position.lsn = entry.position.lsn := by
      cases expected with
      | none => rfl
      | some m => rw [Option.getD_some, hexpected m rfl, hlsn]
    rw [contiguousEntries, if_pos hnext.symm, hlsn, ih hrest (by rintro _ ⟨⟩; rfl)]

/-- The first entries have no gap either. -/
theorem contiguousEntries_of_isPrefix {entries first : List WalEntry} {expected : Option Nat}
    (h : contiguousEntries expected entries = entries) (hfirst : first <+: entries) :
    contiguousEntries expected first = first := by
  induction first generalizing entries expected with
  | nil => rfl
  | cons entry first ih =>
    obtain ⟨rest, rfl⟩ := hfirst
    rw [List.cons_append, contiguousEntries] at h
    split_ifs at h with hlsn
    rw [contiguousEntries, if_pos hlsn, ih (List.cons.inj h).2 (List.prefix_append _ _)]

section Codec

variable [RecordCodec] [CheckpointCodec]

/-- **Behind the checkpoint the LSNs count on.** -/
theorem WholeLog.contiguous {dir : WalDir} {log : List LogSegment} (h : WholeLog dir log) :
    contiguousEntries ((durableCheckpoint dir).map fun position => position.lsn + 1)
      (entriesBehind (durableCheckpoint dir) (logEntries log)) =
      entriesBehind (durableCheckpoint dir) (logEntries log) := by
  cases hdurable : durableCheckpoint dir with
  | none => exact contiguousEntries_eq_self h.lsns (by rintro _ ⟨⟩)
  | some position =>
    obtain ⟨entry, hentry, rfl⟩ := h.checkpoint.exists_entry hdurable
    obtain ⟨pre, post, hsplit⟩ := List.append_of_mem hentry
    have hordered := h.ordered
    have hlsns := h.lsns
    have hlsn : entry.position.lsn = pre.length + 1 :=
      h.lsn_eq (by rw [hsplit, List.getElem?_append_right le_rfl, Nat.sub_self]; rfl)
    rw [hsplit] at hordered hlsns
    rw [entriesBehind_some, hsplit, hordered.filter_behind_nextPosition]
    -- the entries behind the one of the checkpoint are the rest of the log
    have hrest : post.map (fun entry => entry.position.lsn) =
        List.range' (pre.length + 2) post.length := by
      rw [List.map_append, List.map_cons, List.length_append, List.length_cons,
        List.range'_append_1.symm, List.range'_succ] at hlsns
      have hlength : (pre.map fun entry => entry.position.lsn).length =
          (List.range' 1 pre.length).length := by
        rw [List.length_map, List.length_range']
      have hback := (List.append_inj hlsns hlength).2
      rw [(List.cons_eq_cons.mp hback).2, Nat.add_comm 1]
    refine contiguousEntries_eq_self hrest ?_
    rintro _ ⟨⟩
    show entry.nextPosition.lsn + 1 = _
    rw [hordered.nextPosition_lsn (List.mem_append_right _ List.mem_cons_self), hlsn]

variable [DurationCodec] [JsonCodec] {mayFail : SysOp → Prop} {s₀ s s' : System}

/-! ### The log -/

/-- **The log is stable.** A reader finds the log in every state; in a later state it finds each LSN with
the same record at the same position, and it misses only what the checkpoint covers. -/
theorem history_log_stable (hmay : ∀ o, mayFail o → ¬RollbackOp o) (hfresh : s₀.Fresh)
    (hhistory : History mayFail s₀ s) (hlater : History mayFail s s') :
    ∃ entries entries', readEntriesAfter s.world.dir none = .ok entries ∧
      readEntriesAfter s'.world.dir none = .ok entries' ∧
      (∀ entry ∈ entries, ∀ entry' ∈ entries', entry.position.lsn = entry'.position.lsn →
        entry = entry') ∧
      ∀ entry ∈ entries, entry ∉ entries' → Covered (durableCheckpoint s'.world.dir) entry := by
  obtain ⟨log, h, -⟩ := hhistory.served hmay hfresh.served
  obtain ⟨log', h', hle⟩ := hlater.served hmay h
  obtain ⟨entries, hread, hsub, -⟩ := h.whole.readEntriesAfter_none
  obtain ⟨entries', hread', hsub', hcovered⟩ := h'.whole.readEntriesAfter_none
  refine ⟨entries, entries', hread, hread', fun entry hentry entry' hentry' hlsn => ?_,
    fun entry hentry hgone => ?_⟩
  · exact h'.whole.eq_of_lsn (hle.subset (hsub.subset hentry)) (hsub'.subset hentry') hlsn
  · exact hcovered entry (hle.subset (hsub.subset hentry)) hgone

/-- **The log is a subsequence of what was appended**: no record is made up, written twice or out of
order, and the LSNs increase. -/
theorem history_log_appended (hmay : ∀ o, mayFail o → ¬RollbackOp o) (hfresh : s₀.Fresh)
    (hhistory : History mayFail s₀ s) :
    ∃ entries, readEntriesAfter s.world.dir none = .ok entries ∧
      (entries.map WalEntry.record).Sublist s.appended ∧
      (entries.map fun entry => entry.position.lsn).Pairwise (· < ·) := by
  obtain ⟨log, h, -⟩ := hhistory.served hmay hfresh.served
  obtain ⟨entries, hread, hsub, -⟩ := h.whole.readEntriesAfter_none
  refine ⟨entries, hread, (hsub.map _).trans ((List.sublist_append_left _ _).trans h.records), ?_⟩
  refine List.Pairwise.sublist (hsub.map _) ?_
  rw [h.whole.lsns]
  exact List.pairwise_lt_range'

/-! ### Acknowledged records -/

/-- **An acknowledged record is not lost.** It stands at the position that the append was answered with;
a reader that goes on at the checkpoint finds it there, or it is done with in a replay call of the
history. -/
theorem history_acknowledged (hmay : ∀ o, mayFail o → ¬RollbackOp o) (hfresh : s₀.Fresh)
    (hhistory : History mayFail s₀ s) {channel : Nat} {record : WalRecord} {position : WalPosition}
    (hanswer : .responded channel record (.ok position) ∈ s.world.trace) :
    ∃ entry entries, entry.record = record ∧ entry.position = position ∧
      readEntriesAfter s.world.dir (durableCheckpoint s.world.dir) = .ok entries ∧
      (entry ∈ entries ∨ ∃ replay ∈ s.replays, ∃ before,
        DoneWith replay.context replay.events before entry) := by
  obtain ⟨log, h, -⟩ := hhistory.served hmay hfresh.served
  obtain ⟨entry, hentry, hrecord, hposition⟩ := h.answered channel record position hanswer
  refine ⟨entry, _, hrecord, hposition, h.whole.readEntriesAfter, ?_⟩
  by_cases hcovered : Covered (durableCheckpoint s.world.dir) entry
  · obtain ⟨replay, hreplay, before, -, hdone⟩ := h.doneIn hentry hcovered
    exact Or.inr ⟨replay, hreplay, before, hdone⟩
  · refine Or.inl ?_
    cases hdurable : durableCheckpoint s.world.dir with
    | none => exact hentry
    | some checkpoint =>
      rw [hdurable, covered_some, not_lt] at hcovered
      exact List.mem_filter.mpr ⟨hentry, decide_eq_true hcovered⟩

/-- **No LSN is given away twice**: two acknowledged appends of a history with one LSN have the same
record and the same position. -/
theorem history_lsn_unique (hmay : ∀ o, mayFail o → ¬RollbackOp o) (hfresh : s₀.Fresh)
    (hhistory : History mayFail s₀ s) {channel channel' : Nat} {record record' : WalRecord}
    {position position' : WalPosition}
    (hanswer : .responded channel record (.ok position) ∈ s.world.trace)
    (hanswer' : .responded channel' record' (.ok position') ∈ s.world.trace)
    (hlsn : position.lsn = position'.lsn) : record = record' ∧ position = position' := by
  obtain ⟨log, h, -⟩ := hhistory.served hmay hfresh.served
  obtain ⟨entry, hentry, rfl, rfl⟩ := h.answered channel record position hanswer
  obtain ⟨entry', hentry', rfl, rfl⟩ := h.answered channel' record' position' hanswer'
  rw [h.whole.eq_of_lsn hentry hentry' hlsn]
  exact ⟨rfl, rfl⟩

/-! ### The replay calls -/

/-- **What the checkpoint covers is done with**: whatever was ever in the log and is covered later, some
replay call of the history has set it aside, or all sinks have acknowledged its deliveries and those of
the records before it in that call. -/
theorem history_covered_done (hmay : ∀ o, mayFail o → ¬RollbackOp o) (hfresh : s₀.Fresh)
    (hhistory : History mayFail s₀ s) (hlater : History mayFail s s') :
    ∃ entries, readEntriesAfter s.world.dir none = .ok entries ∧
      ∀ entry ∈ entries, Covered (durableCheckpoint s'.world.dir) entry →
        ∃ replay ∈ s'.replays, ∃ before, DoneWith replay.context replay.events before entry := by
  obtain ⟨log, h, -⟩ := hhistory.served hmay hfresh.served
  obtain ⟨log', h', hle⟩ := hlater.served hmay h
  obtain ⟨entries, hread, hsub, -⟩ := h.whole.readEntriesAfter_none
  refine ⟨entries, hread, fun entry hentry hcovered => ?_⟩
  obtain ⟨replay, hreplay, before, -, hdone⟩ :=
    h'.doneIn (hle.subset (hsub.subset hentry)) hcovered
  exact ⟨replay, hreplay, before, hdone⟩

/-- **Sinks are only sent what was appended**: the events that a replay call sends to a sink are the
first deliveries of records that were appended one after the other, and what it sets aside was
appended. -/
theorem history_sends_log (hmay : ∀ o, mayFail o → ¬RollbackOp o) (hfresh : s₀.Fresh)
    (hhistory : History mayFail s₀ s) {replay : ReplayRecord} (hreplay : replay ∈ s.replays) :
    (∃ read, (read.map WalEntry.record).Sublist s.appended ∧
      ∀ sink, sentEvents sink replay.events <+: expectedEvents replay.context sink read) ∧
    ∀ entry ∈ quarantinedEntries replay.events,
      entry.record ∈ s.appended ∧ recordDeliveries replay.context entry.record = none := by
  obtain ⟨log, h, -⟩ := hhistory.served hmay hfresh.served
  have hrecords : ((logEntries log).map WalEntry.record).Sublist s.appended :=
    (List.sublist_append_left _ _).trans h.records
  have hkeeps := h.keepsTo_replays replay hreplay
  refine ⟨?_, fun entry hentry => ?_⟩
  · obtain ⟨read, hread, hsent⟩ := hkeeps.sent
    exact ⟨read, (hread.sublist.map _).trans hrecords, hsent⟩
  · obtain ⟨hmem, hnone⟩ := hkeeps.quarantined entry hentry
    exact ⟨hrecords.subset (List.mem_map_of_mem hmem), hnone⟩

/-- **A replay call can always go on**: it starts at the checkpoint, whatever was removed, and the
entries that it reads there have no LSN gap. -/
theorem history_replay_resumes (hmay : ∀ o, mayFail o → ¬RollbackOp o) (hfresh : s₀.Fresh)
    (hhistory : History mayFail s₀ s) (limit : Nat) :
    replayStart .earliest s.world.dir = .ok (durableCheckpoint s.world.dir) ∧
      ∃ entries, readEntriesAfterLimit s.world.dir (durableCheckpoint s.world.dir) (some limit) =
          .ok entries ∧
        contiguousEntries ((durableCheckpoint s.world.dir).map fun position => position.lsn + 1)
          entries = entries := by
  obtain ⟨log, h, -⟩ := hhistory.served hmay hfresh.served
  exact ⟨h.whole.replayStart, _, h.whole.readEntriesAfterLimit limit,
    contiguousEntries_of_isPrefix h.whole.contiguous (List.take_prefix _ _)⟩

/-! ### Starting again -/

omit [JsonCodec] [DurationCodec] in
/-- The active segment of a start is the last one, or one behind it. -/
theorem WholeLog.activeSegment_lt {dir : WalDir} {log : List LogSegment} (h : WholeLog dir log)
    {checkpoint : Option WalCheckpoint}
    (hcheckpoint : checkpoint.map WalCheckpoint.position = durableCheckpoint dir)
    (hids : ∀ id ∈ dir.segments.keys, id + 1 < 2 ^ 64) :
    recoverActiveSegmentId dir checkpoint < 2 ^ 64 := by
  unfold recoverActiveSegmentId lastSegmentId segmentIds
  cases hmax : ((dir.segments.keys.max?).toList ++
    (checkpoint.map fun c : WalCheckpoint => c.checkpointSegmentId + 1).toList).max? with
  | none => decide
  | some id =>
    rcases List.mem_append.mp (List.max?_mem hmax) with hlast | hbehind
    · have hmem := List.max?_mem (Option.mem_toList.mp hlast)
      exact (Nat.lt_succ_self id).trans (hids id hmem)
    · obtain ⟨c, hc, rfl⟩ := Option.map_eq_some_iff.mp (Option.mem_toList.mp hbehind)
      -- the segment of the checkpoint is kept
      have hdurable : durableCheckpoint dir = some c.position := by
        rw [← hcheckpoint, hc, Option.map_some]
      obtain ⟨entry, hentry, hposition⟩ := h.checkpoint.exists_entry hdurable
      rw [← hposition] at hdurable
      obtain ⟨keep, hstored, hremoved⟩ := h.kept
      obtain ⟨segment, hsegment, hid, -⟩ := WholeLog.checkpoint_kept hremoved hentry hdurable
      have hkey : c.checkpointSegmentId ∈ dir.segments.keys := by
        rw [hposition] at hid
        refine List.mem_map.mpr ⟨segment.stored, ?_, hid⟩
        rw [hstored]
        exact List.mem_map_of_mem hsegment
      exact hids _ hkey

omit [JsonCodec] [DurationCodec] in
/-- **The whole log opens** under its node id. -/
theorem WholeLog.opensAs {dir : WalDir} {log : List LogSegment} (h : WholeLog dir log)
    {nodeId : String} (hnode : dir.persistedNodeId = some nodeId)
    (hlen : (utf8Bytes nodeId).length ≤ maxNodeIdLen)
    (hlsns : (logEntries log).length + 1 < 2 ^ 64)
    (hids : ∀ id ∈ dir.segments.keys, id + 1 < 2 ^ 64) : OpensAs dir nodeId := by
  obtain ⟨checkpoint, hread, hcheckpoint⟩ := h.checkpoint.readPipelineCheckpoint hnode
  refine ⟨checkpoint, _, _, ⟨hread, rfl, h.activeSegment_lt hcheckpoint hids,
    h.recoverNextLsn hcheckpoint, hlsns⟩, ?_⟩
  unfold ActiveFits
  rcases h.active_cases hcheckpoint rfl with ⟨hnone, -⟩ | ⟨older, active, rfl, hid⟩
  · rw [hnone]
    exact hlen
  · rw [← hid, h.lookup_last]
    have hnodeId : active.nodeId = nodeId :=
      Option.some_inj.mp ((h.nodeIds active (by simp)).symm.trans hnode)
    exact ⟨_, ⟨_, active.readSegmentHeader_bytes _⟩, rfl, hnodeId⟩

/-- **A stopped system starts again**, on any directory that a history has left: without failures every
start succeeds, and its next LSN is behind all that were given away. -/
theorem history_restarts (hmay : ∀ o, mayFail o → ¬RollbackOp o) (hfresh : s₀.Fresh)
    (hhistory : History mayFail s₀ s) {nodeId : String}
    (hnode : s.world.dir.persistedNodeId = some nodeId) (hvalid : IsNodeId nodeId)
    (hlen : (utf8Bytes nodeId).length ≤ maxNodeIdLen) {settings : WalSettings}
    (hsettings : Undemanding settings) (hconfigured : nonBlank settings.nodeId = none)
    (hlsns : s.appended.length + 1 < 2 ^ 64)
    (hids : ∀ id ∈ s.world.dir.segments.keys, id + 1 < 2 ^ 64)
    {result : Except IoError (WalWriterInner × WalWriterState)} {w : World}
    (hstart : Starts NoFailure settings s.world result w) :
    ∃ inner t, result = .ok (inner, t) ∧ inner.nodeId = nodeId ∧
      ∀ channel record position, .responded channel record (.ok position) ∈ s.world.trace →
        position.lsn < t.nextLsn := by
  obtain ⟨log, h, -⟩ := hhistory.served hmay hfresh.served
  have hrecords := ((List.sublist_append_left _ _).trans h.records).length_le
  rw [List.length_map] at hrecords
  have hopens := h.whole.opensAs hnode hlen (by omega) hids
  have haccepts : Accepts (nonBlank settings.nodeId) s.world.dir nodeId := by
    refine .persisted hnode hvalid.2 fun c hc => ?_
    rw [hconfigured] at hc
    cases hc
  have hspec := wp_runs wpc_new hstart
  have hlog := wp_runs h.whole.wpc_new hstart
  cases result with
  | error error =>
    exfalso
    rcases hspec with ⟨-, ⟨o, hmay⟩ | hnone⟩ | ⟨nodeId', haccepts', hfails⟩
    · exact hmay
    · exact hnone nodeId haccepts
    · obtain rfl := haccepts'.eq_of_persisted hnode
      rcases hfails.reason (opensAs_adopt.mpr hopens) with ⟨o, hmay⟩ | hdemands
      · exact hmay
      · exact hdemands hsettings
  | ok writer =>
    obtain ⟨inner, t⟩ := writer
    obtain ⟨older, active, hrunning, hentries, hbuffered, -⟩ := hlog
    refine ⟨inner, t, rfl, hspec.1.eq_of_persisted hnode, fun channel record position hanswer => ?_⟩
    obtain ⟨entry, hentry, -, rfl⟩ := h.answered channel record position hanswer
    have hle := h.whole.lsn_le hentry
    have hnext : t.nextLsn = _ := hrunning.rest.nextLsn
    have hbuffered : t.buffered = [] := hbuffered
    rw [hbuffered, List.length_nil, hentries] at hnext
    omega

end Codec

/-! ### A sample history -/

section Sample

attribute [local instance] referenceCodec referenceCheckpointCodec referenceDurationCodec
  referenceJsonCodec

/-- Settings in which the checkpoint is written behind every record. -/
def watchedSettings : WalSettings where
  nodeId := none
  write := ⟨"1s", 1, false, 100000, 0⟩
  checkpoint := ⟨"1s", 1, 1000⟩
  replay := ⟨2, 100000, ⟨10, 1000, "5s"⟩⟩

/-- Before the first start. -/
def freshSystem : System := ⟨sampleWorld [], none, none, [], []⟩

theorem fresh_freshSystem : freshSystem.Fresh := ⟨rfl, rfl, rfl, rfl, rfl, rfl, rfl⟩

/-- A start and two appends. -/
@[irreducible] def appendedSystem : System :=
  [.start watchedSettings, .call (.append (sampleRecord "a") (some 0)),
    .call (.append (sampleRecord "b") (some 1))].foldl System.exec freshSystem

/-- And then a replay call and another append. -/
@[irreducible] def replayedSystem : System :=
  [.replay (sampleContext 1000 "5s") (sampleLocal none),
    .call (.append (sampleRecord "c") (some 2))].foldl System.exec appendedSystem

theorem history_appendedSystem : History NoFailure freshSystem appendedSystem := by
  unfold appendedSystem
  exact System.execAll_history _ _

theorem history_replayedSystem : History NoFailure appendedSystem replayedSystem := by
  unfold replayedSystem
  exact System.execAll_history _ _

theorem history_sample : History NoFailure freshSystem replayedSystem :=
  history_appendedSystem.trans history_replayedSystem

/-- Is the event the answer to this append, with a position of this LSN? -/
def Event.acknowledges (channel lsn : Nat) : Event → Bool
  | .responded channel' _ (.ok position) => channel' == channel && position.lsn == lsn
  | _ => false

theorem exists_acknowledged (trace : List Event) (channel lsn : Nat)
    (h : trace.any (Event.acknowledges channel lsn) = true) :
    ∃ record position, .responded channel record (.ok position) ∈ trace ∧ position.lsn = lsn := by
  obtain ⟨event, hmem, hevent⟩ := List.any_eq_true.mp h
  cases event with
  | responded channel' record result =>
    cases result with
    | ok position =>
      obtain ⟨hchannel, hlsn⟩ := Bool.and_eq_true_iff.mp hevent
      rw [beq_iff_eq] at hchannel hlsn
      exact ⟨record, position, hchannel ▸ hmem, hlsn⟩
    | error _ => cases hevent
  | sent _ _ _ _ => cases hevent
  | quarantined _ _ => cases hevent

theorem not_noFailure : ∀ o, NoFailure o → ¬RollbackOp o := by
  rintro _ ⟨⟩


/-- The log is stable from the two appends to the checkpoint behind them. -/
theorem history_log_stable_sample :
    durableCheckpoint replayedSystem.world.dir ≠ none ∧
      ∃ entries entries', readEntriesAfter appendedSystem.world.dir none = .ok entries ∧
        readEntriesAfter replayedSystem.world.dir none = .ok entries' ∧
        (∀ entry ∈ entries, ∀ entry' ∈ entries', entry.position.lsn = entry'.position.lsn →
          entry = entry') ∧
        ∀ entry ∈ entries, entry ∉ entries' →
          Covered (durableCheckpoint replayedSystem.world.dir) entry :=
  ⟨by decide +kernel, history_log_stable not_noFailure fresh_freshSystem history_appendedSystem
    history_replayedSystem⟩

/-- Three records were appended, and stand in the log. -/
theorem history_log_appended_sample :
    replayedSystem.appended.map WalRecord.recordId = ["a", "b", "c"] ∧
      ∃ entries, readEntriesAfter replayedSystem.world.dir none = .ok entries ∧
        (entries.map WalEntry.record).Sublist replayedSystem.appended ∧
        (entries.map fun entry => entry.position.lsn).Pairwise (· < ·) :=
  ⟨by decide +kernel, history_log_appended not_noFailure fresh_freshSystem history_sample⟩

/-- The first append, which the checkpoint covers at the end. -/
theorem history_acknowledged_sample :
    ∃ entry entries, entry.position.lsn = 1 ∧
      readEntriesAfter replayedSystem.world.dir (durableCheckpoint replayedSystem.world.dir) =
        .ok entries ∧
      (entry ∈ entries ∨ ∃ replay ∈ replayedSystem.replays, ∃ before,
        DoneWith replay.context replay.events before entry) := by
  obtain ⟨record, position, hanswer, hlsn⟩ :=
    exists_acknowledged replayedSystem.world.trace 0 1 (by decide +kernel)
  obtain ⟨entry, entries, -, rfl, hread, hkept⟩ :=
    history_acknowledged not_noFailure fresh_freshSystem history_sample hanswer
  exact ⟨entry, entries, hlsn, hread, hkept⟩

/-- The answer to the second append. -/
theorem history_lsn_unique_sample :
    ∃ record position, .responded 1 record (.ok position) ∈ replayedSystem.world.trace ∧
      ∀ position', .responded 1 record (.ok position') ∈ replayedSystem.world.trace →
        position.lsn = position'.lsn → position = position' := by
  obtain ⟨record, position, hanswer, -⟩ :=
    exists_acknowledged replayedSystem.world.trace 1 2 (by decide +kernel)
  exact ⟨record, position, hanswer, fun position' hanswer' hlsn =>
    (history_lsn_unique not_noFailure fresh_freshSystem history_sample hanswer hanswer' hlsn).2⟩

/-- The two records before the replay call are covered behind it. -/
theorem history_covered_done_sample :
    (durableCheckpoint replayedSystem.world.dir).map WalPosition.lsn = some 2 ∧
      ∃ entries, readEntriesAfter appendedSystem.world.dir none = .ok entries ∧
        ∀ entry ∈ entries, Covered (durableCheckpoint replayedSystem.world.dir) entry →
          ∃ replay ∈ replayedSystem.replays, ∃ before,
            DoneWith replay.context replay.events before entry :=
  ⟨by decide +kernel, history_covered_done not_noFailure fresh_freshSystem history_appendedSystem
    history_replayedSystem⟩

/-- The replay call has sent events of the records. -/
theorem history_sends_log_sample :
    replayedSystem.replays.length = 1 ∧ ∀ replay ∈ replayedSystem.replays,
      ∃ read, (read.map WalEntry.record).Sublist replayedSystem.appended ∧
        ∀ sink, sentEvents sink replay.events <+: expectedEvents replay.context sink read :=
  ⟨by decide +kernel, fun replay hreplay =>
    (history_sends_log not_noFailure fresh_freshSystem history_sample hreplay).1⟩

/-- The next replay call starts behind the second record. -/
theorem history_replay_resumes_sample :
    replayStart .earliest replayedSystem.world.dir =
        .ok (durableCheckpoint replayedSystem.world.dir) ∧
      ∃ entries, readEntriesAfterLimit replayedSystem.world.dir
          (durableCheckpoint replayedSystem.world.dir) (some 10) = .ok entries ∧
        contiguousEntries ((durableCheckpoint replayedSystem.world.dir).map
          fun position => position.lsn + 1) entries = entries :=
  history_replay_resumes not_noFailure fresh_freshSystem history_sample 10
/-- A second process starts on the directory, behind the three LSNs that were given away. -/
theorem history_restarts_sample :
    ∃ inner t, (System.startRun watchedSettings replayedSystem.world).1.1 = .ok (inner, t) ∧
      3 < t.nextLsn := by
  obtain ⟨nodeId, hnode, hvalid, hlen⟩ : ∃ nodeId,
      replayedSystem.world.dir.persistedNodeId = some nodeId ∧ IsNodeId nodeId ∧
        (utf8Bytes nodeId).length ≤ maxNodeIdLen :=
    ⟨(replayedSystem.world.dir.persistedNodeId).getD "", by decide +kernel,
      ⟨by decide +kernel, validateNodeId_eq_ok.mpr (by decide +kernel)⟩, by decide +kernel⟩
  obtain ⟨record, position, hanswer, hlsn⟩ :=
    exists_acknowledged replayedSystem.world.trace 2 3 (by decide +kernel)
  obtain ⟨inner, t, hresult, -, hnext⟩ :=
    history_restarts not_noFailure fresh_freshSystem history_sample hnode hvalid hlen
      ⟨rfl, _, rfl⟩ rfl (by decide +kernel) (by decide +kernel)
      (runs_healthyAnswer ((WalWriter.new watchedSettings : Sys Unit _).start ())
        replayedSystem.world)
  exact ⟨inner, t, hresult, hlsn ▸ hnext 2 record position hanswer⟩

end Sample

end Ingest4x.Wal
