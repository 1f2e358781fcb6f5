import Ingest4x.Wal.Chunks
import Ingest4x.Wal.Growth

/-! # The tail as a place to read from

`read_wal_bounds` gives the end of the log, which a replay with the policy `latest` makes its
checkpoint. It is the end of the last file, so while a frame is only partly written it lies inside that
frame.

* **`WriterLog`** — the logs that a writer leaves or is in the middle of writing.
* **`Continues`** — how such a log goes on: the partial frame is completed or cut off, and more records
  follow.
* **`TailUsable`** — the tail is the largest LSN, and reading from it gives exactly what is new.
* **`bounds_usable_iff`** — the bounds are usable if and only if no frame is partly written. -/

namespace Ingest4x.Wal

section Codec

variable [RecordCodec]

/-! ### Logs of a writer -/

/-- **A log that a writer leaves or is writing**: segments of complete frames, the last one possibly
torn, with increasing LSNs. -/
structure WriterLog (front : List LogSegment) (last : LogSegment) : Prop where
  whole : ∀ segment ∈ front, segment.torn = []
  lsns : (logEntries (front ++ [last])).Pairwise fun e e' => e.position.lsn < e'.position.lsn

/-- **The log goes on**: the last segment gets the frames `new`, after its torn tail is completed or cut
off, and the segments `more` follow. -/
structure Continues (last last' : LogSegment) (new : List Frame) : Prop where
  id : last'.id = last.id
  frames : last'.frames = last.frames ++ new

/-- The entries that are new. -/
def newEntries (last : LogSegment) (new : List Frame) (more : List LogSegment) : List WalEntry :=
  entriesFrom last.id last.endOffset new ++ logEntries more

/-- **The tail is a usable position**: it has the largest LSN, nothing lies behind it now, and however
the log goes on, reading from it gives what is new. -/
structure TailUsable (dir : WalDir) (front : List LogSegment) (last : LogSegment) (tail : WalPosition) :
    Prop where
  lsn : tail.lsn = maxLsn 0 (logEntries (front ++ [last]))
  now : readEntriesAfter dir (some tail) = .ok []
  later : ∀ (dir' : WalDir) (last' : LogSegment) (new : List Frame) (more : List LogSegment),
    Continues last last' new → Contents dir' (front ++ last' :: more) →
    readEntriesAfter dir' (some tail) = .ok (newEntries last new more)

/-! ### The bounds of a directory -/

variable {dir : WalDir} {front : List LogSegment} {last : LogSegment}

/-- What is synced does not matter to the scan of the bounds. -/
theorem scanBounds_settled (path : String) (segments : List (Nat × SegmentFile)) (scan : BoundsScan) :
    scanBounds path (segments.map fun row => (row.1, .created row.2.bytes)) scan =
      scanBounds path segments scan := by
  induction segments generalizing scan with
  | nil => rfl
  | cons row segments ih =>
    obtain ⟨segmentId, file⟩ := row
    rw [List.map_cons, scanBounds, scanBounds]
    simp only [ih]
    rfl

/-- The scan over the contents of a directory. -/
theorem Contents.scanBounds {log : List LogSegment} (h : Contents dir log) :
    Wal.readWalBounds dir = .ok ⟨(logEntries log).head?.map WalEntry.position,
      BoundsScan.finalTail ⟨(logEntries log).head?.map WalEntry.position,
        lastPosition (logEntries log), maxLsn 0 (logEntries log),
        log.getLast?.map fun s => (s.id, s.bytes.length)⟩⟩ := by
  have hsettled : dir.segments.entries.map (fun row => (row.1, SegmentFile.created row.2.bytes)) =
      log.map LogSegment.stored := h.stored
  rw [readWalBounds, ← scanBounds_settled, hsettled, scanBounds_stored]
  simp only [Option.none_or, Option.or_none]
  rfl

omit [RecordCodec] in
/-- The last position of a log with increasing LSNs has the largest one. -/
theorem lsn_of_lastPosition {entries : List WalEntry} {start : Option WalPosition}
    (hordered : Ordered start entries)
    (hlsns : entries.Pairwise fun e e' => e.position.lsn < e'.position.lsn) {position : WalPosition}
    (h : lastPosition entries = some position) : position.lsn = maxLsn 0 entries := by
  rcases List.eq_nil_or_concat entries with rfl | ⟨init, entry, rfl⟩
  · cases h
  · rw [List.concat_eq_append] at h hordered hlsns ⊢
    rw [lastPosition_append_singleton] at h
    cases h
    rw [hordered.nextPosition_lsn (by simp), maxLsn_append, maxLsn_cons, maxLsn_nil]
    refine (max_eq_right (maxLsn_le (Nat.zero_le _) fun e he => ?_)).symm
    exact ((List.pairwise_append.mp hlsns).2.2 e he entry (List.mem_singleton.mpr rfl)).le

/-- **The tail** is the end of the last file, with the largest LSN. -/
theorem Contents.readWalBounds_tail (h : Contents dir (front ++ [last]))
    (hlog : WriterLog front last) :
    ∃ bounds, readWalBounds dir = .ok bounds ∧
      bounds.floor = (logEntries (front ++ [last])).head?.map WalEntry.position ∧
      bounds.tail = some ⟨maxLsn 0 (logEntries (front ++ [last])), last.id, last.bytes.length⟩ := by
  refine ⟨_, h.scanBounds, rfl, ?_⟩
  have hlength := last.length_bytes
  simp only [BoundsScan.finalTail, List.getLast?_append, List.getLast?_singleton, Option.some_or,
    Option.map_some]
  cases htail : lastPosition (logEntries (front ++ [last])) with
  | none => rfl
  | some position =>
    simp only [Option.all_some, decide_eq_true_eq]
    split_ifs with hfurther
    · rfl
    · -- the last entry ends where the file ends
      rw [not_or, not_lt, not_lt] at hfurther
      have hlsn := lsn_of_lastPosition h.stored.ordered hlog.lsns htail
      obtain ⟨entry, hentry, rfl⟩ := Option.map_eq_some_iff.mp htail
      obtain ⟨segment, hsegment, hmem⟩ := mem_logEntries.mp (List.mem_of_getLast? hentry)
      obtain ⟨-, hid, -, hend⟩ := LogSegment.mem_entries hmem
      have hlast : segment = last := by
        rcases List.mem_append.mp hsegment with hfront | hlast
        · have hlt := (List.pairwise_append.mp h.stored.ids).2.2 segment hfront last (by simp)
          omega
        · exact List.mem_singleton.mp hlast
      subst hlast
      have hoffset : entry.nextPosition.offset = segment.bytes.length := by omega
      rw [← hlsn, ← hid, ← hoffset]

/-! ### Reading from the tail -/

/-- **Reading from the end of the complete frames** gives what is new. -/
theorem Contents.readEntriesAfter_end {dir' : WalDir} {last' : LogSegment} {new : List Frame}
    {more : List LogSegment} (hcontinues : Continues last last' new)
    (h : Contents dir' (front ++ last' :: more)) (lsn : Nat) :
    readEntriesAfter dir' (some ⟨lsn, last.id, last.endOffset⟩) = .ok (newEntries last new more) := by
  have hids := h.stored.ids
  rw [List.pairwise_append, List.pairwise_cons] at hids
  obtain ⟨-, ⟨hmore, -⟩, hfront⟩ := hids
  have hboundary : ∀ segment ∈ front ++ last' :: more, segment.id = last.id →
      segment.Boundary last.endOffset := by
    intro segment hsegment hid
    rcases List.mem_append.mp hsegment with hsegment | hsegment
    · have hlt := hfront segment hsegment last' List.mem_cons_self
      rw [hcontinues.id] at hlt
      omega
    · rcases List.mem_cons.mp hsegment with rfl | hsegment
      · exact ⟨last.frames, new, hcontinues.frames, rfl⟩
      · have hlt := hmore segment hsegment
        rw [hcontinues.id] at hlt
        omega
  rw [readEntriesAfter, ← readEntriesAfterLimit_settled, ← readEntriesAfter,
    h.stored.readEntriesAfter_some hboundary, logEntries_append, logEntries_cons, List.filter_append,
    List.filter_append,
    LogSegment.filter_behind hcontinues.id hcontinues.frames rfl, hcontinues.id]
  have hnone : (logEntries front).filter (behind ⟨lsn, last.id, last.endOffset⟩) = [] := by
    refine List.filter_eq_nil_iff.mpr fun entry hentry hbehind => ?_
    obtain ⟨segment, hsegment, hmem⟩ := mem_logEntries.mp hentry
    have hid := (LogSegment.mem_entries hmem).1
    have hlt := hfront segment hsegment last' List.mem_cons_self
    rw [hcontinues.id] at hlt
    have hle := WalPosition.place_le.mp (of_decide_eq_true hbehind)
    simp only [hid] at hle
    omega
  have hall : (logEntries more).filter (behind ⟨lsn, last.id, last.endOffset⟩) = logEntries more := by
    refine List.filter_eq_self.mpr fun entry hentry => ?_
    obtain ⟨segment, hsegment, hmem⟩ := mem_logEntries.mp hentry
    have hid := (LogSegment.mem_entries hmem).1
    have hlt := hmore segment hsegment
    rw [hcontinues.id] at hlt
    exact decide_eq_true (WalPosition.place_le.mpr (Or.inl (hid ▸ hlt)))
  rw [hnone, hall, List.nil_append]
  rfl

/-- Reading a segment from behind its end is an error. -/
theorem LogSegment.readSegmentEntriesAfter_beyond (path : String) (segment : LogSegment)
    {offset : Nat} (hoffset : segment.bytes.length < offset) (limit : Option Nat) :
    ∃ error, readSegmentEntriesAfter path segment.id segment.bytes offset limit = .error error := by
  rw [readSegmentEntriesAfter, segment.readSegmentHeader_bytes]
  simp only
  split_ifs
  · exact ⟨_, rfl⟩
  · exact ⟨_, rfl⟩

/-- **Reading the log from behind the end of its last file** is an error. -/
theorem Contents.readEntriesAfter_beyond {segment : LogSegment}
    (h : Contents dir (front ++ [segment])) {position : WalPosition}
    (hsegment : position.segment = segment.id) (hoffset : segment.bytes.length < position.offset)
    (entries : List WalEntry) : readEntriesAfter dir (some position) ≠ .ok entries := by
  have hbefore : ∀ s ∈ front, s.id < position.segment := by
    intro s hs
    rw [hsegment]
    exact (List.pairwise_append.mp h.stored.ids).2.2 s hs segment (List.mem_singleton.mpr rfl)
  -- the segments before it are skipped
  have hread : ∀ front : List LogSegment, (∀ s ∈ front, s.id < position.segment) → ∀ path acc,
      readSegmentsAfter path (some position) none ((front ++ [segment]).map LogSegment.stored) acc ≠
        .ok entries := by
    intro front
    induction front with
    | nil =>
      intro _ path acc
      have hstart : startOffset (some position) segment.id = position.offset := by
        rw [startOffset, Option.filter_some, if_pos (decide_eq_true hsegment)]
        rfl
      obtain ⟨error, herror⟩ :=
        segment.readSegmentEntriesAfter_beyond (segmentPath path segment.id) hoffset none
      rw [List.nil_append, List.map_singleton, LogSegment.stored, readSegmentsAfter, hstart,
        Option.any_some, if_neg (by simp [hsegment])]
      simp only [Option.map_none, reduceCtorEq, if_false, SegmentFile.created, herror, ne_eq,
        not_false_iff]
    | cons first front ih =>
      intro hfront path acc
      rw [List.cons_append, List.map_cons, LogSegment.stored, readSegmentsAfter, Option.any_some,
        if_pos (decide_eq_true (hfront first List.mem_cons_self))]
      exact ih (fun s hs => hfront s (List.mem_cons_of_mem _ hs)) path acc
  rw [readEntriesAfter, ← readEntriesAfterLimit_settled, readEntriesAfterLimit, h.stored]
  exact hread front hbefore _ _

/-! ### When the tail is usable -/

/-- The last segment as `repair_segment_tail` leaves it. -/
def LogSegment.repaired (segment : LogSegment) : LogSegment :=
  { segment with torn := [], tears := tornTail_nil }

/-- The directory after the tail of its last segment is repaired. -/
theorem Contents.repaired (h : Contents dir (front ++ [last])) :
    ∃ dir', Contents dir' (front ++ [last.repaired]) := by
  refine ⟨dir.withSegments ⟨(front ++ [last.repaired]).map LogSegment.stored, ?_⟩, ?_⟩
  · have hids : ((front ++ [last.repaired]).map LogSegment.id).Pairwise (· < ·) := by
      rw [List.map_append, List.map_singleton]
      have hids := List.pairwise_map.mpr h.stored.ids
      rwa [List.map_append, List.map_singleton] at hids
    rw [List.pairwise_map]
    exact List.pairwise_map.mp hids
  · rw [Contents, WalDir.withSegments_segments, List.map_map]
    rfl

/-- **The bounds are usable**: the floor is the first entry, and the tail is a usable position. -/
def BoundsUsable (dir : WalDir) (front : List LogSegment) (last : LogSegment) : Prop :=
  ∃ bounds tail, readWalBounds dir = .ok bounds ∧
    bounds.floor = (logEntries (front ++ [last])).head?.map WalEntry.position ∧
    bounds.tail = some tail ∧ TailUsable dir front last tail

/-- While a frame is partly written, the tail is not usable: once the frame is cut off, it lies behind
the end of the file. -/
theorem not_boundsUsable_of_torn (h : Contents dir (front ++ [last])) (hlog : WriterLog front last)
    (hne : last.torn ≠ []) : ¬BoundsUsable dir front last := by
  rintro ⟨bounds, tail, hbounds, -, htail, husable⟩
  obtain ⟨bounds', hbounds', -, htail'⟩ := h.readWalBounds_tail hlog
  rw [hbounds] at hbounds'
  cases hbounds'
  rw [htail] at htail'
  cases htail'
  obtain ⟨dir', hdir'⟩ := h.repaired
  have hread := husable.later dir' last.repaired [] [] ⟨rfl, (List.append_nil _).symm⟩ hdir'
  refine hdir'.readEntriesAfter_beyond rfl ?_ _ hread
  have hlength := last.length_bytes
  have hlength' := last.repaired.length_bytes
  have hpos := List.length_pos_of_ne_nil hne
  have htorn : last.repaired.torn.length = 0 := rfl
  have hend : last.repaired.endOffset = last.endOffset := rfl
  show last.repaired.bytes.length < last.bytes.length
  omega

/-- **When the bounds are usable**: for every directory that a writer leaves or is in the middle of
writing, the floor is the first entry, and the tail has the largest LSN and can be read from, now and
however the log goes on, if and only if no frame is partly written. -/
theorem bounds_usable_iff (h : Contents dir (front ++ [last])) (hlog : WriterLog front last) :
    BoundsUsable dir front last ↔ last.torn = [] := by
  constructor
  · intro husable
    by_contra hne
    exact not_boundsUsable_of_torn h hlog hne husable
  · intro htorn
    obtain ⟨bounds, hbounds, hfloor, htail⟩ := h.readWalBounds_tail hlog
    have hlength : last.bytes.length = last.endOffset := by
      rw [last.length_bytes, htorn, List.length_nil, Nat.add_zero]
    rw [hlength] at htail
    have hsame : Continues last last [] := ⟨rfl, (List.append_nil _).symm⟩
    exact ⟨bounds, _, hbounds, hfloor, htail, rfl, h.readEntriesAfter_end hsame _,
      fun dir' last' new more hcontinues hdir' => hdir'.readEntriesAfter_end hcontinues _⟩

end Codec

section Sample

open Bytes

attribute [local instance] referenceCodec

/-- A header-only segment with a part of a frame. -/
theorem exists_tornSegment (torn : Bool) : ∃ last : LogSegment, last.frames = [] ∧
    (last.torn = [] ↔ torn = false) := by
  obtain ⟨header, hheader⟩ := serializeSegmentHeader_of_length
    (show (utf8Bytes "n").length ≤ _ by decide +kernel) (UInt64.ofNat 1) 1 0
  obtain ⟨frame, hframe⟩ := Option.isSome_iff_exists.mp
    (show (frameOf (assignWalMetadata (sampleRecord "a") 1 "n")).isSome by decide +kernel)
  have hlength := frame.length_ge
  have htears : TornTail (if torn then frame.bytes.take 1 else []) := by
    cases torn with
    | false => exact tornTail_nil
    | true =>
      refine Or.inr ⟨frame, List.take_prefix 1 _, fun heq => ?_⟩
      have := congrArg List.length heq
      rw [if_pos rfl, List.length_take] at this
      simp only [recordHeaderFixedLen] at hlength
      omega
  let opened := LogSegment.opened 1 "n" 1 0 header hheader
  refine ⟨opened.tear _ htears, rfl, ?_⟩
  rw [LogSegment.tear_torn]
  cases torn with
  | false => exact iff_of_true rfl rfl
  | true =>
    refine iff_of_false (fun hnil => ?_) (by rintro ⟨⟩)
    have := congrArg List.length hnil
    rw [if_pos rfl, List.length_take, List.length_nil] at this
    simp only [recordHeaderFixedLen] at hlength
    omega

/-- A log of one segment without frames. -/
theorem writerLog_of_frames {last : LogSegment} (hframes : last.frames = []) : WriterLog [] last := by
  refine ⟨fun segment hsegment => absurd hsegment List.not_mem_nil, ?_⟩
  rw [List.nil_append, logEntries_cons, logEntries_nil, LogSegment.entries, hframes]
  exact List.Pairwise.nil

/-- A directory with one segment. -/
def oneSegment (last : LogSegment) : WalDir where
  path := "wal"
  nodeIdFile := none
  segments := (∅ : SortedTable Nat SegmentFile).insert last.id (.created last.bytes)
  checkpointFile := none

/-- The bounds of a new log are usable. -/
theorem bounds_usable_iff_sample :
    ∃ (dir : WalDir) (last : LogSegment), last.frames = [] ∧ BoundsUsable dir [] last := by
  obtain ⟨last, hframes, htorn⟩ := exists_tornSegment false
  have hdir : Contents (oneSegment last) ([] ++ [last]) := rfl
  exact ⟨_, last, hframes,
    (bounds_usable_iff hdir (writerLog_of_frames hframes)).mpr (htorn.mpr rfl)⟩

/-- **The bounds of a log with a partly written frame are not usable.** -/
theorem bounds_not_usable :
    ¬∀ (dir : WalDir) (front : List LogSegment) (last : LogSegment),
      Contents dir (front ++ [last]) → WriterLog front last → BoundsUsable dir front last := by
  intro hclaim
  obtain ⟨last, hframes, htorn⟩ := exists_tornSegment true
  have hdir : Contents (oneSegment last) ([] ++ [last]) := rfl
  have hlog := writerLog_of_frames hframes
  exact not_boundsUsable_of_torn hdir hlog (fun hnil => absurd (htorn.mp hnil) (by rintro ⟨⟩))
    (hclaim _ [] last hdir hlog)

end Sample

end Ingest4x.Wal
