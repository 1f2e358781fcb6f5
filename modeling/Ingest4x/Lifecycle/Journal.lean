import Ingest4x.Replay.View
import Ingest4x.Wal.Recovery
import Ingest4x.Wal.Resume

/-! # The whole log of a directory

The cleanup removes segments before the checkpoint, in whatever order the directory lists them, and may
stop halfway. What the directory keeps is therefore compared with its whole log: the one it would hold,
had nothing been removed. The LSNs of the whole log count from 1 without a gap.

* **`WholeLog`** — the whole log of a directory, with the checkpoint at the end of one of its entries.
* **`WholeLog.readEntriesAfter`** — reading from the checkpoint finds what lies behind it there.
* **`WholeLog.recoverNextLsn`** — a start goes on after its last LSN. -/

namespace Ingest4x.Wal

variable [RecordCodec] [CheckpointCodec]

/-! ### The definition -/

omit [RecordCodec] in
/-- **The directory with other segments keeps the durable checkpoint.** -/
@[simp] theorem durableCheckpoint_withSegments (dir : WalDir)
    (segments : SortedTable Nat SegmentFile) :
    durableCheckpoint (dir.withSegments segments) = durableCheckpoint dir := rfl

/-- **The checkpoint of a log**: there is none, or the replay has written it for the end of an entry. -/
def CheckpointAt (dir : WalDir) (entries : List WalEntry) : Prop :=
  dir.checkpointFile = none ∨ ∃ entry ∈ entries, ∃ nodeId updatedAt,
    dir.persistedNodeId = some nodeId ∧ dir.checkpointFile = some
      (CheckpointCodec.toVec (WalCheckpoint.new entry.nextPosition nodeId none updatedAt))

omit [CheckpointCodec] in
/-- **A segment without frames at the end of a log** may be torn only if the next record, the one
after the LSN `n`, belongs to it. -/
def TornLast (n : Nat) (log : List LogSegment) : Prop :=
  ∀ front segment behind, log = front ++ segment :: behind → logEntries (segment :: behind) = [] →
    segment.torn ≠ [] → segment.startLsn.toNat = n + 1

/-- **The whole log of a directory.** -/
structure WholeLog (dir : WalDir) (log : List LogSegment) : Prop where
  ids : log.Pairwise fun s s' => s.id < s'.id
  lsns : (logEntries log).map (fun entry => entry.position.lsn) =
    List.range' 1 (logEntries log).length
  torn : TornLast (logEntries log).length log
  /-- Only segments before the checkpoint are removed. -/
  kept : ∃ keep : Nat → Bool, Stored dir (log.filter fun segment => keep segment.id) ∧
    ∀ id, keep id = false → ∃ position ∈ durableCheckpoint dir, id < position.segment
  nodeIds : ∀ segment ∈ log, dir.persistedNodeId = some segment.nodeId
  checkpoint : CheckpointAt dir (logEntries log)

/-- **The directory keeps these entries**, less some that the checkpoint covers. -/
def Journaled (dir : WalDir) (entries : List WalEntry) : Prop :=
  ∃ log, WholeLog dir log ∧ logEntries log = entries

variable {dir : WalDir} {log : List LogSegment}

/-! ### Torn segments -/

omit [CheckpointCodec] in
/-- Whether the end of a log may be torn, by its last segment. -/
theorem tornLast_append_singleton {n : Nat} {front : List LogSegment} {last : LogSegment} :
    TornLast n (front ++ [last]) ↔ (last.entries = [] →
      TornLast n front ∧ (last.torn ≠ [] → last.startLsn.toNat = n + 1)) := by
  constructor
  · intro h hnone
    refine ⟨fun front' segment behind hfront hbehind htorn => ?_, fun htorn => ?_⟩
    · refine h front' segment (behind ++ [last]) ?_ ?_ htorn
      · rw [hfront, List.append_assoc, List.cons_append]
      · rw [← List.cons_append, logEntries_append, hbehind, logEntries_cons, hnone]
        rfl
    · refine h front last [] rfl ?_ htorn
      rw [logEntries_cons, hnone]
      rfl
  · intro h front' segment behind hsplit hbehind htorn
    rcases List.eq_nil_or_concat behind with rfl | ⟨behind, last', rfl⟩
    · obtain ⟨rfl, hlast⟩ := List.append_inj' hsplit rfl
      cases hlast
      rw [logEntries_cons, logEntries_nil, List.append_nil] at hbehind
      exact (h hbehind).2 htorn
    · rw [List.concat_eq_append, ← List.cons_append, ← List.append_assoc] at hsplit
      obtain ⟨rfl, hlast⟩ := List.append_inj' hsplit rfl
      cases hlast
      rw [List.concat_eq_append, ← List.cons_append, logEntries_append, List.append_eq_nil_iff,
        logEntries_cons last, logEntries_nil, List.append_nil] at hbehind
      exact (h hbehind.2).1 front' segment behind rfl hbehind.1 htorn

/-! ### Where the checkpoint stands -/

/-- The checkpoint of a log is at the end of one of its entries. -/
theorem CheckpointAt.exists_entry {entries : List WalEntry} (h : CheckpointAt dir entries)
    {position : WalPosition} (hposition : durableCheckpoint dir = some position) :
    ∃ entry ∈ entries, entry.nextPosition = position := by
  rcases h with hnone | ⟨entry, hentry, nodeId, updatedAt, -, hfile⟩
  · rw [durableCheckpoint, hnone] at hposition
    cases hposition
  · rw [durableCheckpoint, hfile, Option.bind_some, filePosition_toVec] at hposition
    cases hposition
    exact ⟨entry, hentry, rfl⟩

/-- **What a start reads of the checkpoint.** -/
theorem CheckpointAt.readPipelineCheckpoint {entries : List WalEntry} (h : CheckpointAt dir entries)
    {nodeId : String} (hnode : dir.persistedNodeId = some nodeId) :
    ∃ checkpoint, Wal.readPipelineCheckpoint dir nodeId = .ok checkpoint ∧
      checkpoint.map WalCheckpoint.position = durableCheckpoint dir := by
  unfold Wal.readPipelineCheckpoint durableCheckpoint
  rcases h with hnone | ⟨entry, hentry, nodeId', updatedAt, hnode', hfile⟩
  · rw [hnone]
    exact ⟨none, rfl, rfl⟩
  · rw [hnode] at hnode'
    cases hnode'
    rw [hfile, Option.bind_some, filePosition_toVec]
    simp only [readCheckpointFileStrict_new]
    exact ⟨_, rfl, rfl⟩

omit [CheckpointCodec] in
/-- Fewer segments have fewer entries. -/
theorem logEntries_filter_sublist (keep : LogSegment → Bool) (log : List LogSegment) :
    (logEntries (log.filter keep)).Sublist (logEntries log) := by
  induction log with
  | nil => exact List.Sublist.refl _
  | cons segment log ih =>
    rw [List.filter_cons, logEntries_cons]
    split_ifs
    · rw [logEntries_cons]
      exact (List.Sublist.refl _).append ih
    · exact ih.trans (List.sublist_append_right _ _)

/-! ### The order of the whole log -/

namespace WholeLog

/-- The files of a whole log, as a table. -/
def table (log : List LogSegment) (hids : log.Pairwise fun s s' => s.id < s'.id) :
    SortedTable Nat SegmentFile where
  entries := log.map LogSegment.stored
  sorted := List.pairwise_map.mpr hids

omit [CheckpointCodec] in
/-- A directory that holds the whole log. -/
theorem stored_table (dir : WalDir) (hids : log.Pairwise fun s s' => s.id < s'.id) :
    Stored (dir.withSegments (table log hids)) log := rfl

omit [CheckpointCodec] in
/-- The entries of the whole log are in order. -/
theorem ordered_of_ids (hids : log.Pairwise fun s s' => s.id < s'.id) :
    Ordered none (logEntries log) :=
  (stored_table ⟨"", none, ∅, none⟩ hids).ordered

theorem ordered (h : WholeLog dir log) : Ordered none (logEntries log) := ordered_of_ids h.ids

/-- The LSN of an entry is its place in the whole log. -/
theorem lsn_eq (h : WholeLog dir log) {k : Nat} {entry : WalEntry}
    (hentry : (logEntries log)[k]? = some entry) : entry.position.lsn = k + 1 := by
  have hlsn := congrArg (·[k]?) h.lsns
  simp only [List.getElem?_map, hentry, Option.map_some] at hlsn
  obtain ⟨hk, -⟩ := List.getElem?_eq_some_iff.mp hentry
  rw [List.getElem?_range' hk, Option.some_inj, Nat.one_mul, Nat.add_comm] at hlsn
  exact hlsn

theorem lsn_le (h : WholeLog dir log) {entry : WalEntry} (hentry : entry ∈ logEntries log) :
    entry.position.lsn ≤ (logEntries log).length := by
  obtain ⟨k, hk⟩ := List.mem_iff_getElem?.mp hentry
  obtain ⟨hlt, -⟩ := List.getElem?_eq_some_iff.mp hk
  rw [h.lsn_eq hk]
  exact hlt

/-- Two entries with one LSN are the same. -/
theorem eq_of_lsn (h : WholeLog dir log) {entry entry' : WalEntry} (hentry : entry ∈ logEntries log)
    (hentry' : entry' ∈ logEntries log) (hlsn : entry.position.lsn = entry'.position.lsn) :
    entry = entry' := by
  have hnodup : ((logEntries log).map fun entry => entry.position.lsn).Nodup := by
    rw [h.lsns]
    exact List.nodup_range'
  exact List.inj_on_of_nodup_map hnodup hentry hentry' hlsn

/-! ### Reading -/

/-- **Where the checkpoint stands** in the whole log: no removed segment is behind it. -/
theorem exists_segment (h : WholeLog dir log) {position : WalPosition}
    (hposition : durableCheckpoint dir = some position) :
    ∃ segment ∈ log, segment.id = position.segment := by
  obtain ⟨entry, hentry, rfl⟩ := h.checkpoint.exists_entry hposition
  obtain ⟨segment, hsegment, hmem⟩ := mem_logEntries.mp hentry
  exact ⟨segment, hsegment, (LogSegment.mem_entries hmem).2.1.symm⟩

/-- **Reading from the checkpoint** finds what lies behind it in the whole log. -/
theorem readEntriesAfter (h : WholeLog dir log) :
    Wal.readEntriesAfter dir (durableCheckpoint dir) =
      .ok (entriesBehind (durableCheckpoint dir) (logEntries log)) := by
  obtain ⟨keep, hstored, hremoved⟩ := h.kept
  cases hdurable : durableCheckpoint dir with
  | none =>
    -- without a checkpoint nothing is removed
    have hkeep : (log.filter fun segment => keep segment.id) = log := by
      refine List.filter_eq_self.mpr fun segment _ => ?_
      by_contra hfalse
      obtain ⟨position, hposition, -⟩ := hremoved segment.id (Bool.eq_false_iff.mpr hfalse)
      rw [hdurable] at hposition
      cases hposition
    rw [hkeep] at hstored
    exact hstored.contents.readEntriesAfter_none
  | some position =>
    obtain ⟨entry, hentry, rfl⟩ := h.checkpoint.exists_entry hdurable
    have hbefore : ∀ id, keep id = false → id < entry.nextPosition.segment := by
      intro id hid
      obtain ⟨position, hposition, hlt⟩ := hremoved id hid
      rw [hdurable] at hposition
      cases hposition
      exact hlt
    have hstands : StandsBetween (log.filter fun segment => keep segment.id)
        (some entry.nextPosition) := fun position hposition segment hsegment hid =>
      standsBetween_nextPosition h.ids hentry position hposition segment
        (List.mem_of_mem_filter hsegment) hid
    rw [hstored.contents.readEntriesAfter_behind hstands, entriesBehind_logEntries_filter hbefore]

/-- **Reading all that is kept** finds entries of the whole log, and all that the checkpoint does not
cover. -/
theorem readEntriesAfter_none (h : WholeLog dir log) :
    ∃ entries, Wal.readEntriesAfter dir none = .ok entries ∧ entries.Sublist (logEntries log) ∧
      ∀ entry ∈ logEntries log, entry ∉ entries → Covered (durableCheckpoint dir) entry := by
  obtain ⟨keep, hstored, hremoved⟩ := h.kept
  refine ⟨_, hstored.contents.readEntriesAfter_none, ?_, fun entry hentry hnot => ?_⟩
  · exact logEntries_filter_sublist _ log
  · obtain ⟨segment, hsegment, hmem⟩ := mem_logEntries.mp hentry
    have hfalse : keep segment.id = false := by
      by_contra htrue
      exact hnot (mem_logEntries.mpr ⟨segment,
        List.mem_filter.mpr ⟨hsegment, by simpa using htrue⟩, hmem⟩)
    obtain ⟨position, hposition, hlt⟩ := hremoved segment.id hfalse
    rw [Option.mem_def.mp hposition]
    exact covered_some.mpr (WalPosition.place_lt.mpr
      (Or.inl ((LogSegment.mem_entries hmem).1 ▸ hlt)))

/-! ### Recovery -/

/-- A covered last entry is the one at whose end the checkpoint stands. -/
theorem lsn_of_covered_last (h : WholeLog dir log) {front : List WalEntry} {last : WalEntry}
    (hlast : logEntries log = front ++ [last]) {position : WalPosition}
    (hposition : durableCheckpoint dir = some position)
    (hcovered : Covered (durableCheckpoint dir) last) : position.lsn = last.position.lsn := by
  obtain ⟨entry, hentry, rfl⟩ := h.checkpoint.exists_entry hposition
  have hlsn : entry.nextPosition.lsn = entry.position.lsn := by
    obtain ⟨segment, -, hmem⟩ := mem_logEntries.mp hentry
    obtain ⟨k, hk⟩ := List.mem_iff_getElem?.mp hmem
    obtain ⟨pre, frame, post, -, -, rfl, -⟩ := entriesFrom_getElem?_eq_some hk
    rfl
  have hordered := h.ordered
  rw [hlast] at hentry hordered
  rcases List.mem_append.mp hentry with hfront | hentry
  · -- an entry before the last ends before it
    exfalso
    obtain ⟨pre, post, rfl⟩ := List.append_of_mem hfront
    rw [List.append_assoc, List.cons_append] at hordered
    have hfilter := hordered.filter_behind_nextPosition
    have hbehind : last ∈ (pre ++ entry :: (post ++ [last])).filter (behind entry.nextPosition) := by
      rw [hfilter]
      exact List.mem_append_right _ (List.mem_singleton.mpr rfl)
    have hle := of_decide_eq_true (List.mem_filter.mp hbehind).2
    rw [hposition] at hcovered
    exact absurd (covered_some.mp hcovered) (not_lt.mpr hle)
  · rw [hlsn, List.mem_singleton.mp hentry]

/-- **A start goes on after the last LSN** of the whole log. -/
theorem recoverNextLsn (h : WholeLog dir log) {checkpoint : Option WalCheckpoint}
    (hcheckpoint : checkpoint.map WalCheckpoint.position = durableCheckpoint dir) :
    Wal.recoverNextLsn dir checkpoint = .ok ((logEntries log).length + 1) := by
  obtain ⟨keep, hstored, hremoved⟩ := h.kept
  have hlsnOf : checkpoint.map WalCheckpoint.checkpointLsn =
      (durableCheckpoint dir).map WalPosition.lsn := by
    rw [← hcheckpoint, Option.map_map]
    rfl
  rw [hstored.recoverNextLsn, hlsnOf]
  congr 2
  refine le_antisymm (max_le ?_ ?_) ?_
  · refine maxLsn_le (Nat.zero_le _) fun entry hentry => h.lsn_le ?_
    exact (logEntries_filter_sublist _ log).subset hentry
  · cases hposition : durableCheckpoint dir with
    | none => exact Nat.zero_le _
    | some position =>
      obtain ⟨entry, hentry, rfl⟩ := h.checkpoint.exists_entry hposition
      obtain ⟨segment, -, hmem⟩ := mem_logEntries.mp hentry
      obtain ⟨k, hk⟩ := List.mem_iff_getElem?.mp hmem
      obtain ⟨pre, frame, post, -, -, rfl, -⟩ := entriesFrom_getElem?_eq_some hk
      exact h.lsn_le hentry
  · rcases List.eq_nil_or_concat (logEntries log) with hnil | ⟨front, last, hlast⟩
    · rw [hnil]
      exact Nat.zero_le _
    · rw [List.concat_eq_append] at hlast
      have hlsn : last.position.lsn = (logEntries log).length := by
        rw [hlast, List.length_append, List.length_singleton]
        exact h.lsn_eq (k := front.length) (by rw [hlast]; exact List.getElem?_concat_length)
      rw [← hlsn]
      by_cases hmem : last ∈ logEntries (log.filter fun segment => keep segment.id)
      · exact le_max_of_le_left (le_maxLsn hmem)
      · obtain ⟨entries, hread, -, hcovered⟩ := h.readEntriesAfter_none
        rw [hstored.contents.readEntriesAfter_none] at hread
        cases hread
        have hlastCovered := hcovered last (by rw [hlast]; simp) hmem
        cases hposition : durableCheckpoint dir with
        | none =>
          rw [hposition] at hlastCovered
          exact absurd hlastCovered (not_covered_none _)
        | some position =>
          rw [Option.map_some, Option.getD_some, h.lsn_of_covered_last hlast hposition hlastCovered]
          exact le_max_right _ _

/-- **The active segment of a start** is not before any segment of the whole log. -/
theorem le_activeSegment (h : WholeLog dir log) {checkpoint : Option WalCheckpoint}
    (hcheckpoint : checkpoint.map WalCheckpoint.position = durableCheckpoint dir) :
    (∀ segment ∈ log, segment.id ≤ recoverActiveSegmentId dir checkpoint) ∧
      ∀ position ∈ durableCheckpoint dir,
        position.segment < recoverActiveSegmentId dir checkpoint := by
  obtain ⟨hkeys, hbehind⟩ := le_recoverActiveSegmentId dir checkpoint
  have hposition : ∀ position ∈ durableCheckpoint dir,
      position.segment < recoverActiveSegmentId dir checkpoint := by
    intro position hposition
    rw [← hcheckpoint] at hposition
    obtain ⟨c, hc, rfl⟩ := Option.map_eq_some_iff.mp hposition
    exact hbehind c hc
  refine ⟨fun segment hsegment => ?_, hposition⟩
  obtain ⟨keep, hstored, hremoved⟩ := h.kept
  cases hkeep : keep segment.id with
  | true =>
    refine hkeys _ (List.mem_map.mpr ⟨segment.stored, ?_, rfl⟩)
    rw [hstored]
    exact List.mem_map_of_mem (List.mem_filter.mpr ⟨hsegment, hkeep⟩)
  | false =>
    obtain ⟨position, hmem, hlt⟩ := hremoved segment.id hkeep
    exact (hlt.trans (hposition position hmem)).le

/-! ### Other segments at the end -/

/-- **The last segments are kept**, where none of them lies before the checkpoint. -/
theorem exists_rows {front old : List LogSegment} (h : WholeLog dir (front ++ old))
    (hold : ∀ segment ∈ old, ∀ position ∈ durableCheckpoint dir, position.segment ≤ segment.id) :
    ∃ rows, dir.segments.entries = rows ++ old.map LogSegment.stored ∧
      ∀ row ∈ rows, ∃ segment ∈ front, row = segment.stored := by
  obtain ⟨keep, hstored, hremoved⟩ := h.kept
  have hkept : old.filter (fun segment => keep segment.id) = old := by
    refine List.filter_eq_self.mpr fun segment hsegment => ?_
    by_contra hfalse
    obtain ⟨position, hposition, hlt⟩ := hremoved segment.id (Bool.eq_false_iff.mpr hfalse)
    exact absurd hlt (not_lt.mpr (hold segment hsegment position hposition))
  refine ⟨(front.filter fun segment => keep segment.id).map LogSegment.stored, ?_, ?_⟩
  · rw [hstored, List.filter_append, hkept, List.map_append]
  · intro row hrow
    obtain ⟨segment, hsegment, rfl⟩ := List.mem_map.mp hrow
    exact ⟨segment, List.mem_of_mem_filter hsegment, rfl⟩

/-- **Other segments at the end of the whole log**, in a directory with the same checkpoint. -/
theorem replaceTail {dir' : WalDir} {front old : List LogSegment}
    (h : WholeLog dir (front ++ old)) (new : List LogSegment) (hnodeIdFile : dir'.nodeIdFile = dir.nodeIdFile)
    (hfile : dir'.checkpointFile = dir.checkpointFile) {rows : List (Nat × SegmentFile)}
    (hrows : dir.segments.entries = rows ++ old.map LogSegment.stored)
    (hrows' : dir'.segments.entries = rows ++ new.map LogSegment.stored)
    (hids : (front ++ new).Pairwise fun s s' => s.id < s'.id)
    (hlsns : (logEntries (front ++ new)).map (fun entry => entry.position.lsn) =
      List.range' 1 (logEntries (front ++ new)).length)
    (htorn : TornLast (logEntries (front ++ new)).length (front ++ new))
    (hnodeIds : ∀ segment ∈ new, dir.persistedNodeId = some segment.nodeId)
    (hentries : ∃ more, logEntries (front ++ new) = logEntries (front ++ old) ++ more) :
    WholeLog dir' (front ++ new) := by
  have hpersisted : dir'.persistedNodeId = dir.persistedNodeId := by
    unfold WalDir.persistedNodeId
    rw [hnodeIdFile]
  have hdurable : durableCheckpoint dir' = durableCheckpoint dir := by
    rw [durableCheckpoint, hfile, durableCheckpoint]
  obtain ⟨keep, hstored, hremoved⟩ := h.kept
  -- all of the old segments are kept
  have hold : old.filter (fun segment => keep segment.id) = old := by
    refine List.filter_eq_self.mpr fun segment hsegment => ?_
    have hmem : segment.stored ∈ dir.segments.entries := by
      rw [hrows]
      exact List.mem_append_right _ (List.mem_map_of_mem hsegment)
    rw [hstored] at hmem
    obtain ⟨segment', hmem', heq⟩ := List.mem_map.mp hmem
    have hid : segment'.id = segment.id := congrArg Prod.fst heq
    exact hid ▸ (List.mem_filter.mp hmem').2
  have hfront : rows = (front.filter fun segment => keep segment.id).map LogSegment.stored := by
    have heq := hstored
    rw [Stored, hrows, List.filter_append, hold, List.map_append] at heq
    exact List.append_cancel_right heq
  refine ⟨hids, hlsns, htorn, ⟨fun id => keep id || decide (id ∈ new.map LogSegment.id), ?_, ?_⟩,
    ?_, ?_⟩
  · have hnew : new.filter (fun segment => keep segment.id ||
        decide (segment.id ∈ new.map LogSegment.id)) = new := by
      refine List.filter_eq_self.mpr fun segment hsegment => ?_
      rw [decide_eq_true (List.mem_map_of_mem hsegment), Bool.or_true]
    have hsame : front.filter (fun segment => keep segment.id ||
        decide (segment.id ∈ new.map LogSegment.id)) =
        front.filter fun segment => keep segment.id := by
      refine List.filter_congr fun segment hsegment => ?_
      have hnot : segment.id ∉ new.map LogSegment.id := by
        intro hmem
        obtain ⟨segment', hsegment', heq⟩ := List.mem_map.mp hmem
        exact absurd heq ((List.pairwise_append.mp hids).2.2 segment hsegment segment' hsegment').ne'
      rw [decide_eq_false hnot, Bool.or_false]
    rw [Stored, hrows', hfront, List.filter_append, hnew, hsame, List.map_append]
  · intro id hid
    rw [hdurable]
    exact hremoved id (Bool.or_eq_false_iff.mp hid).1
  · intro segment hsegment
    rw [hpersisted]
    rcases List.mem_append.mp hsegment with hsegment | hsegment
    · exact h.nodeIds segment (List.mem_append_left _ hsegment)
    · exact hnodeIds segment hsegment
  · rcases h.checkpoint with hnone | ⟨entry, hentry, nodeId, updatedAt, hnode, hwritten⟩
    · exact Or.inl (hfile.trans hnone)
    · obtain ⟨more, hmore⟩ := hentries
      refine Or.inr ⟨entry, ?_, nodeId, updatedAt, hpersisted.trans hnode, hfile.trans hwritten⟩
      rw [hmore]
      exact List.mem_append_left _ hentry

/-- Persisting an accepted node id keeps the whole log. -/
theorem adopt (h : WholeLog dir log) {configured : Option String} {nodeId : String}
    (haccepts : Accepts (nonBlank configured) dir nodeId) : WholeLog (dir.adopt nodeId) log := by
  cases hpersisted : dir.persistedNodeId with
  | some persisted =>
    rw [haccepts.eq_of_persisted hpersisted, WalDir.adopt_of_persisted hpersisted]
    exact h
  | none =>
    -- without a node id there is no log yet
    have hlog : log = [] := by
      refine List.eq_nil_iff_forall_not_mem.mpr fun segment hsegment => ?_
      have hnode := h.nodeIds segment hsegment
      rw [hpersisted] at hnode
      cases hnode
    subst hlog
    have hfile : dir.checkpointFile = none := by
      rcases h.checkpoint with hnone | ⟨entry, hentry, -⟩
      · exact hnone
      · cases hentry
    rw [WalDir.adopt_of_none hpersisted]
    exact ⟨List.Pairwise.nil, rfl, h.torn, h.kept, by rintro _ ⟨⟩, Or.inl hfile⟩

end WholeLog

end Ingest4x.Wal
