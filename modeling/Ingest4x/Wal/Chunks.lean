import Ingest4x.Wal.Answer
import Ingest4x.Wal.Log
import Mathlib.Algebra.BigOperators.Group.List.Basic
import Mathlib.Data.List.Nodup

/-! # Reading a log in chunks

The positions of the entries of a log are places to go on reading from: from the position of an entry
one reads it and what follows, and from the position after it what follows. So a log that is read in
chunks, each from where the one before ended, is read as a whole.

* **`Contents`** — the segment files of a directory hold a log, synced or not.
* **`Contents.readEntriesAfter_position`**, **`Contents.readEntriesAfter_nextPosition`** — reading from
  an entry and after it.
* **`readChunks`** — the calls of a reader that goes on where it stopped.
* **`readChunks_complete`** — together they read the log once. -/

namespace Ingest4x.Wal

/-! ### Contents of a directory -/

/-- The directory with every byte synced. -/
def WalDir.settled (dir : WalDir) : WalDir :=
  dir.withSegments ⟨dir.segments.entries.map fun row => (row.1, .created row.2.bytes), by
    rw [List.pairwise_map]
    exact dir.segments.sorted⟩

section Codec

variable [RecordCodec]

/-- What is synced does not matter to a reader. -/
theorem readSegmentsAfter_settled (path : String) (checkpoint : Option WalPosition)
    (limit : Option Nat) (segments : List (Nat × SegmentFile)) (acc : List WalEntry) :
    readSegmentsAfter path checkpoint limit
        (segments.map fun row => (row.1, .created row.2.bytes)) acc =
      readSegmentsAfter path checkpoint limit segments acc := by
  induction segments generalizing acc with
  | nil => rfl
  | cons row segments ih =>
    obtain ⟨segmentId, file⟩ := row
    rw [List.map_cons, readSegmentsAfter, readSegmentsAfter]
    simp only [ih]
    rfl

theorem readEntriesAfterLimit_settled (dir : WalDir) (checkpoint : Option WalPosition)
    (limit : Option Nat) :
    readEntriesAfterLimit dir.settled checkpoint limit =
      readEntriesAfterLimit dir checkpoint limit :=
  readSegmentsAfter_settled dir.path checkpoint limit dir.segments.entries []

/-- **The segment files hold this log**; some of their bytes may not be synced. -/
def Contents (dir : WalDir) (log : List LogSegment) : Prop :=
  dir.segments.entries.map (fun row => (row.1, row.2.bytes)) =
    log.map fun segment => (segment.id, segment.bytes)

/-- A stored log is the contents of its directory. -/
theorem Stored.contents {dir : WalDir} {log : List LogSegment} (h : Stored dir log) :
    Contents dir log := by
  rw [Contents, h, List.map_map]
  rfl

variable {dir : WalDir} {log : List LogSegment}

/-- The contents are stored where everything is synced. -/
theorem Contents.stored (h : Contents dir log) : Stored dir.settled log := by
  have heq := congrArg (List.map fun row : Nat × Bytes => (row.1, SegmentFile.created row.2)) h
  rw [List.map_map, List.map_map] at heq
  exact heq

/-! ### Reading from an entry -/

/-- The start of an entry is a boundary of its segment. -/
theorem LogSegment.boundary_position {segment : LogSegment} {entry : WalEntry}
    (h : entry ∈ segment.entries) : segment.Boundary entry.position.offset := by
  obtain ⟨k, hk⟩ := List.mem_iff_getElem?.mp h
  obtain ⟨pre, frame, post, hsplit, -, rfl, -⟩ := entriesFrom_getElem?_eq_some hk
  exact ⟨pre, frame :: post, hsplit, rfl⟩

/-- In a log the segment of an entry is determined by its id. -/
theorem segment_of_mem_logEntries (hids : log.Pairwise fun s s' => s.id < s'.id) {entry : WalEntry}
    (hentry : entry ∈ logEntries log) {segment : LogSegment} (hsegment : segment ∈ log)
    (hid : segment.id = entry.position.segment) : entry ∈ segment.entries := by
  obtain ⟨segment', hsegment', hmem⟩ := mem_logEntries.mp hentry
  obtain ⟨hid', -⟩ := LogSegment.mem_entries hmem
  -- two segments with one id are the same
  have hnodup : (log.map LogSegment.id).Nodup :=
    (List.pairwise_map.mpr hids).imp fun hlt => Nat.ne_of_lt hlt
  rw [List.inj_on_of_nodup_map hnodup hsegment hsegment' (hid.trans hid')]
  exact hmem

omit [RecordCodec] in
/-- The entries of an ordered list behind the start of one of them. -/
theorem Ordered.filter_behind_position {pre post : List WalEntry} {entry : WalEntry}
    (h : Ordered none (pre ++ entry :: post)) :
    (pre ++ entry :: post).filter (behind entry.position) = entry :: post := by
  have hpair := h.pairwise_place
  rw [List.pairwise_append, List.pairwise_cons] at hpair
  obtain ⟨-, ⟨hpost, -⟩, hpre⟩ := hpair
  rw [List.filter_append, List.filter_eq_nil_iff.mpr, List.filter_eq_self.mpr, List.nil_append]
  · intro e he
    rcases List.mem_cons.mp he with rfl | he
    · exact decide_eq_true le_rfl
    · exact decide_eq_true (hpost e he).le
  · intro e he hbehind
    exact absurd (hpre e he entry List.mem_cons_self) (not_lt.mpr (of_decide_eq_true hbehind))

omit [RecordCodec] in
/-- The entries of an ordered list behind the end of one of them. -/
theorem Ordered.filter_behind_nextPosition {pre post : List WalEntry} {entry : WalEntry}
    (h : Ordered none (pre ++ entry :: post)) :
    (pre ++ entry :: post).filter (behind entry.nextPosition) = post := by
  have hsplit : pre ++ entry :: post = (pre ++ [entry]) ++ post := by
    rw [List.append_assoc, List.singleton_append]
  rw [hsplit] at h ⊢
  obtain ⟨hfront, hback⟩ := Ordered.append_iff.mp h
  rw [List.filter_append, List.filter_eq_nil_iff.mpr, List.filter_eq_self.mpr, List.nil_append]
  · intro e he
    have hle := hback.start_le he
    rw [lastPosition_append_singleton, Option.some_or] at hle
    exact decide_eq_true (WithBot.coe_le_coe.mp hle)
  · intro e he hbehind
    have hcovered := hfront.covered_lastPosition he
    rw [lastPosition_append_singleton] at hcovered
    exact absurd (covered_some.mp hcovered) (not_lt.mpr (of_decide_eq_true hbehind))

/-- **Reading from the position of an entry** finds it first, and then what follows. -/
theorem Contents.readEntriesAfter_position (h : Contents dir log) {pre post : List WalEntry}
    {entry : WalEntry} (hsplit : logEntries log = pre ++ entry :: post) :
    readEntriesAfter dir (some entry.position) = .ok (entry :: post) := by
  have hmem : entry ∈ logEntries log := by
    rw [hsplit]
    exact List.mem_append_right _ List.mem_cons_self
  have hordered := h.stored.ordered
  rw [hsplit] at hordered
  rw [readEntriesAfter, ← readEntriesAfterLimit_settled, ← readEntriesAfter,
    h.stored.readEntriesAfter_some fun segment hsegment hid => LogSegment.boundary_position
      (segment_of_mem_logEntries h.stored.ids hmem hsegment hid), hsplit,
    hordered.filter_behind_position]

/-- **Reading from the position after an entry** finds what follows. -/
theorem Contents.readEntriesAfter_nextPosition (h : Contents dir log) {pre post : List WalEntry}
    {entry : WalEntry} (hsplit : logEntries log = pre ++ entry :: post) :
    readEntriesAfter dir (some entry.nextPosition) = .ok post := by
  have hmem : entry ∈ logEntries log := by
    rw [hsplit]
    exact List.mem_append_right _ List.mem_cons_self
  have hordered := h.stored.ordered
  rw [hsplit] at hordered
  rw [readEntriesAfter, ← readEntriesAfterLimit_settled, ← readEntriesAfter,
    h.stored.readEntriesAfter_some fun segment hsegment hid => LogSegment.boundary_nextPosition
      (segment_of_mem_logEntries h.stored.ids hmem hsegment ?_), hsplit,
    hordered.filter_behind_nextPosition]
  obtain ⟨segment', -, hmem'⟩ := mem_logEntries.mp hmem
  obtain ⟨hid', hnext', -⟩ := LogSegment.mem_entries hmem'
  exact hid.trans (hnext'.trans hid'.symm)

/-- Reading from a position in a segment before all those that are left finds everything. -/
theorem Contents.readEntriesAfter_before (h : Contents dir log) {position : WalPosition}
    (hbefore : ∀ segment ∈ log, position.segment < segment.id) :
    readEntriesAfter dir (some position) = .ok (logEntries log) := by
  rw [readEntriesAfter, ← readEntriesAfterLimit_settled, ← readEntriesAfter,
    h.stored.readEntriesAfter_some fun segment hsegment hid =>
      absurd hid (hbefore segment hsegment).ne', List.filter_eq_self.mpr]
  intro entry hentry
  obtain ⟨segment, hsegment, hmem⟩ := mem_logEntries.mp hentry
  obtain ⟨hid, -⟩ := LogSegment.mem_entries hmem
  exact decide_eq_true (WalPosition.place_le.mpr (Or.inl (hid ▸ hbefore segment hsegment)))

/-- Reading from the start finds everything. -/
theorem Contents.readEntriesAfter_none (h : Contents dir log) :
    readEntriesAfter dir none = .ok (logEntries log) := by
  rw [readEntriesAfter, ← readEntriesAfterLimit_settled, ← readEntriesAfter,
    h.stored.readEntriesAfter]

/-! ### Chunks -/

/-- **Reading in chunks**: each call goes on from the position after the last entry that was read. -/
def readChunks (dir : WalDir) : Option WalPosition → List Nat →
    Except IoError (List (List WalEntry))
  | _, [] => .ok []
  | start, limit :: limits =>
    match readEntriesAfterLimit dir start (some limit) with
    | .error error => .error error
    | .ok entries => (readChunks dir ((lastPosition entries).or start) limits).map (entries :: ·)

/-- **A start that a reader may have**: none, or the position after an entry of the log. -/
def ReaderStart (log : List LogSegment) (start : Option WalPosition) : Prop :=
  start = none ∨ ∃ entry ∈ logEntries log, start = some entry.nextPosition

/-- **What is read at once** from such a start ends the log, and from every point within it the rest is
read. The oldest segments of the log may be removed. -/
theorem Contents.readEntriesAfter_start (h : Contents dir log) {removed : List LogSegment}
    (hids : (removed ++ log).Pairwise fun s s' => s.id < s'.id) {start : Option WalPosition}
    (hstart : ReaderStart (removed ++ log) start) :
    ∃ all, readEntriesAfter dir start = .ok all ∧ ∀ pre post, all = pre ++ post →
      readEntriesAfter dir ((lastPosition pre).or start) = .ok post := by
  -- what is read is an end of the log, and the start reads it
  obtain ⟨front, all, hsplit, hread⟩ : ∃ front all, logEntries log = front ++ all ∧
      readEntriesAfter dir start = .ok all := by
    rcases hstart with rfl | ⟨entry, hentry, rfl⟩
    · exact ⟨[], _, rfl, h.readEntriesAfter_none⟩
    · rw [logEntries_append] at hentry
      rcases List.mem_append.mp hentry with hentry | hentry
      · refine ⟨[], _, rfl, h.readEntriesAfter_before fun segment hsegment => ?_⟩
        obtain ⟨segment', hsegment', hmem⟩ := mem_logEntries.mp hentry
        rw [(LogSegment.mem_entries hmem).2.1]
        exact (List.pairwise_append.mp hids).2.2 segment' hsegment' segment hsegment
      · obtain ⟨pre, post, hsplit⟩ := List.append_of_mem hentry
        refine ⟨pre ++ [entry], post, ?_, h.readEntriesAfter_nextPosition hsplit⟩
        rw [hsplit, List.append_assoc, List.singleton_append]
  refine ⟨all, hread, fun pre post hall => ?_⟩
  rcases List.eq_nil_or_concat pre with rfl | ⟨pre, entry, rfl⟩
  · rw [lastPosition_nil, Option.none_or, hread, hall, List.nil_append]
  · rw [List.concat_eq_append] at hall ⊢
    rw [lastPosition_append_singleton, Option.some_or]
    have hsplit' : logEntries log = (front ++ pre) ++ entry :: post := by
      rw [hsplit, hall, List.append_assoc, List.append_assoc, List.singleton_append]
    exact h.readEntriesAfter_nextPosition hsplit'

/-- The chunks of what is left to read. -/
theorem readChunks_spec {start : Option WalPosition} {all : List WalEntry}
    (hread : ∀ pre post, all = pre ++ post →
      readEntriesAfter dir ((lastPosition pre).or start) = .ok post)
    (limits : List Nat) (hpos : ∀ limit ∈ limits, 0 < limit) (pre post : List WalEntry)
    (hall : all = pre ++ post) :
    ∃ chunks, readChunks dir ((lastPosition pre).or start) limits = .ok chunks ∧
      chunks.length = limits.length ∧ chunks.flatten = post.take limits.sum ∧
      ∀ i, chunks[i]? = some [] → (chunks.take i).flatten = post := by
  induction limits generalizing pre post with
  | nil => exact ⟨[], rfl, rfl, rfl, by rintro i ⟨⟩⟩
  | cons limit limits ih =>
    have hchunk := readEntriesAfterLimit_take (hread pre post hall) limit (by rintro m ⟨⟩)
    -- the next call starts after this chunk
    have hall' : all = (pre ++ post.take limit) ++ post.drop limit := by
      rw [List.append_assoc, List.take_append_drop, hall]
    obtain ⟨chunks, hchunks, hlength, hflatten, hempty⟩ :=
      ih (fun limit hlimit => hpos limit (List.mem_cons_of_mem _ hlimit)) _ _ hall'
    rw [lastPosition_append, Option.or_assoc] at hchunks
    refine ⟨post.take limit :: chunks, ?_, ?_, ?_, fun i hi => ?_⟩
    · rw [readChunks, hchunk]
      simp only [hchunks]
      rfl
    · rw [List.length_cons, List.length_cons, hlength]
    · rw [List.flatten_cons, List.sum_cons, hflatten, List.take_add]
    · cases i with
      | zero =>
        -- a chunk is empty only where nothing is left
        have hnil : post.take limit = [] := Option.some.inj hi
        rcases List.take_eq_nil_iff.mp hnil with hzero | hnil
        · exact absurd hzero (hpos limit List.mem_cons_self).ne'
        · rw [hnil]
          rfl
      | succ i =>
        rw [List.getElem?_cons_succ] at hi
        rw [List.take_succ_cons, List.flatten_cons, hempty i hi, List.take_append_drop]

/-- **Reading the log in chunks is reading it at once.** For every directory of well-formed segments, of
which the oldest may be removed, from every start that a reader may have and with every sequence of
positive limits: the first `n` calls read the entries of one unlimited read in order, as many as their
limits allow, and a call that reads nothing has everything behind it. -/
theorem readChunks_complete (h : Contents dir log) {removed : List LogSegment}
    (hids : (removed ++ log).Pairwise fun s s' => s.id < s'.id) {start : Option WalPosition}
    (hstart : ReaderStart (removed ++ log) start) (limits : Nat → Nat) (hpos : ∀ i, 0 < limits i) :
    ∃ all, readEntriesAfter dir start = .ok all ∧ ∀ n, ∃ chunks,
      readChunks dir start ((List.range n).map limits) = .ok chunks ∧ chunks.length = n ∧
      chunks.flatten = all.take ((List.range n).map limits).sum ∧
      (all.length ≤ n → chunks.flatten = all) ∧
      ∀ i, chunks[i]? = some [] → (chunks.take i).flatten = all := by
  obtain ⟨all, hread, hresume⟩ := h.readEntriesAfter_start hids hstart
  refine ⟨all, hread, fun n => ?_⟩
  obtain ⟨chunks, hchunks, hlength, hflatten, hempty⟩ := readChunks_spec hresume
    ((List.range n).map limits)
    (fun limit hlimit => by obtain ⟨i, -, rfl⟩ := List.mem_map.mp hlimit; exact hpos i) [] all rfl
  rw [List.length_map, List.length_range] at hlength
  refine ⟨chunks, hchunks, hlength, hflatten, fun hn => ?_, hempty⟩
  -- each call may read at least one entry
  have hsum : n ≤ ((List.range n).map limits).sum := by
    have hle := List.length_le_sum_of_one_le ((List.range n).map limits) fun limit hlimit => by
      obtain ⟨i, -, rfl⟩ := List.mem_map.mp hlimit
      exact hpos i
    rwa [List.length_map, List.length_range] at hle
  rw [hflatten, List.take_of_length_le (hn.trans hsum)]

end Codec

section Sample

open Bytes

attribute [local instance] referenceCodec

/-- Reading a log of two records one by one. -/
theorem readChunks_complete_sample :
    ∃ (dir : WalDir) (chunks : List (List WalEntry)),
      readChunks dir none [1, 1] = .ok chunks ∧ chunks.length = 2 := by
  obtain ⟨header, hheader⟩ := serializeSegmentHeader_of_length
    (show (utf8Bytes "n").length ≤ _ by decide +kernel) (UInt64.ofNat 1) 1 0
  obtain ⟨frame, hframe⟩ := Option.isSome_iff_exists.mp
    (show (frameOf (assignWalMetadata (sampleRecord "a") 1 "n")).isSome by decide +kernel)
  obtain ⟨next, hnext⟩ := Option.isSome_iff_exists.mp
    (show (frameOf (assignWalMetadata (sampleRecord "b") 2 "n")).isSome by decide +kernel)
  let segment : LogSegment := {
    id := 1
    nodeId := "n"
    startLsn := 1
    createdMs := 0
    header := header
    frames := [frame, next]
    torn := []
    encodes := hheader
    starts := by
      rintro _ ⟨⟩
      rw [frameOf_record hframe]
      rfl
    tears := tornTail_nil }
  let dir : WalDir := {
    path := "wal"
    nodeIdFile := none
    segments := (∅ : SortedTable Nat SegmentFile).insert 1 (.created segment.bytes)
    checkpointFile := none }
  have hdir : Contents dir [segment] := rfl
  have hids : ([] ++ [segment] : List LogSegment).Pairwise fun s s' => s.id < s'.id :=
    List.pairwise_singleton _ _
  obtain ⟨all, -, hall⟩ := readChunks_complete hdir hids (Or.inl rfl) (fun _ => 1)
    fun _ => Nat.one_pos
  obtain ⟨chunks, hchunks, hlength, -⟩ := hall 2
  exact ⟨dir, chunks, hchunks, hlength⟩

end Sample

end Ingest4x.Wal
