import Ingest4x.Wal.Reference
import Ingest4x.Wal.Segment

/-! # Segments as lists of frames

The abstract view of a segment file: a header, the frames of the records in it and a possibly torn
tail. The file functions on the bytes of such a segment are list operations on its frames.

* **`LogSegment`** — a well-formed segment; its `bytes` are what the file holds.
* **`readSegmentEntriesAfter_bytes`**, **`scanSegment_bytes`**, **`repairSegmentTail_bytes`** — the
  three readers on it.
* **`segment_codec_roundTrip`** — the format round-trips and tolerates exactly a torn tail. -/

namespace Ingest4x.Wal

open Bytes

section Codec

variable [RecordCodec]

/-- **A well-formed segment**: a header that can be written, frames whose first record has the start
LSN of the header, and a torn tail. -/
structure LogSegment where
  id : Nat
  nodeId : String
  startLsn : UInt64
  createdMs : UInt64
  header : Bytes
  frames : List Frame
  torn : Bytes
  encodes : serializeSegmentHeader (UInt64.ofNat id) nodeId startLsn createdMs = .ok header
  starts : ∀ frame ∈ frames.head?, frame.record.lsn = startLsn
  tears : TornTail torn

namespace LogSegment

/-- The contents of the segment file. -/
def bytes (segment : LogSegment) : Bytes :=
  segment.header ++ (framesBytes segment.frames ++ segment.torn)

/-- The entries of the segment. -/
def entries (segment : LogSegment) : List WalEntry :=
  entriesFrom segment.id segmentHeaderLen segment.frames

/-- The records of the segment. -/
def records (segment : LogSegment) : List WalRecord := segment.frames.map Frame.record

/-- The offset after the last complete frame. -/
def endOffset (segment : LogSegment) : Nat :=
  segmentHeaderLen + (framesBytes segment.frames).length

theorem length_header (segment : LogSegment) : segment.header.length = segmentHeaderLen :=
  length_of_serializeSegmentHeader segment.encodes

theorem length_bytes (segment : LogSegment) :
    segment.bytes.length = segment.endOffset + segment.torn.length := by
  rw [bytes, List.length_append, List.length_append, segment.length_header, endOffset,
    Nat.add_assoc]

@[simp] theorem length_entries (segment : LogSegment) :
    segment.entries.length = segment.frames.length :=
  length_entriesFrom _ _ _

@[simp] theorem map_record_entries (segment : LogSegment) :
    segment.entries.map WalEntry.record = segment.records :=
  map_record_entriesFrom _ _ _

/-- The header of the file reads as the fields of the segment. -/
theorem readSegmentHeader_bytes (path : String) (segment : LogSegment) :
    readSegmentHeader path segment.bytes =
      .ok (⟨UInt64.ofNat segment.id, segment.startLsn, segment.nodeId⟩,
        framesBytes segment.frames ++ segment.torn) :=
  readSegmentHeader_append path segment.encodes _

end LogSegment

/-- The start LSN check accepts frames whose first record has the start LSN. -/
theorem startLsnMismatch_take_entriesFrom (header : SegmentHeader) {frames : List Frame}
    (h : ∀ frame ∈ frames.head?, frame.record.lsn = header.startLsn) (segmentId offset n : Nat) :
    startLsnMismatch header ((entriesFrom segmentId offset frames).take n) = false := by
  cases frames with
  | nil => simp [startLsnMismatch]
  | cons frame frames =>
    cases n with
    | zero => rfl
    | succ n =>
      have hlsn := h frame rfl
      simp [startLsnMismatch, walEntry, hlsn]

namespace LogSegment

/-- **Reading a segment from a frame boundary** gives the entries of the frames after it. -/
theorem readSegmentEntriesAfter_split (path : String) (segment : LogSegment)
    {pre post : List Frame} (hsplit : segment.frames = pre ++ post) (limit : Option Nat) :
    readSegmentEntriesAfter path segment.id segment.bytes
        (segmentHeaderLen + (framesBytes pre).length) limit =
      .ok ((entriesFrom segment.id (segmentHeaderLen + (framesBytes pre).length) post).take
        (limit.getD post.length)) := by
  have hlen := segment.length_bytes
  have hdrop : segment.bytes.drop (segmentHeaderLen + (framesBytes pre).length) =
      framesBytes post ++ segment.torn := by
    rw [bytes, hsplit, framesBytes_append, List.append_assoc, ← List.append_assoc,
      List.drop_left' (by rw [List.length_append, segment.length_header])]
  obtain ⟨valid, hread, -⟩ := readFrames_frames path segment.id
    (segmentHeaderLen + (framesBytes pre).length) limit post segment.tears
  rw [readSegmentEntriesAfter, segment.readSegmentHeader_bytes]
  simp only [hdrop, hread]
  rw [if_neg (by omega), if_neg, if_neg]
  · rintro ⟨hstart, hmismatch⟩
    have hpre : pre = [] := by
      cases pre with
      | nil => rfl
      | cons frame pre =>
        have := frame.length_ge
        simp only [framesBytes_cons, List.length_append, recordHeaderFixedLen] at *
        omega
    have hhead : ∀ frame ∈ post.head?, frame.record.lsn = segment.startLsn := by
      rw [show post = segment.frames by rw [hsplit, hpre, List.nil_append]]
      exact segment.starts
    rw [startLsnMismatch_take_entriesFrom _ hhead] at hmismatch
    cases hmismatch
  · rw [hlen, endOffset, hsplit, framesBytes_append, List.length_append]
    omega

/-- Reading a segment from its header gives its entries. -/
theorem readSegmentEntriesAfter_bytes (path : String) (segment : LogSegment)
    (limit : Option Nat) :
    readSegmentEntriesAfter path segment.id segment.bytes segmentHeaderLen limit =
      .ok (segment.entries.take (limit.getD segment.frames.length)) :=
  segment.readSegmentEntriesAfter_split path (List.nil_append _).symm limit

/-- Scanning a segment gives its records and the end of its last complete frame. -/
theorem scanSegment_bytes (path : String) (segment : LogSegment) :
    scanSegment path segment.id segment.bytes = .ok ⟨segment.records, segment.endOffset⟩ := by
  obtain ⟨valid, hread, hvalid⟩ := readFrames_frames path segment.id segmentHeaderLen none
    segment.frames segment.tears
  have hmismatch := startLsnMismatch_take_entriesFrom
    ⟨UInt64.ofNat segment.id, segment.startLsn, segment.nodeId⟩ segment.starts
    segment.id segmentHeaderLen segment.frames.length
  rw [scanSegment, segment.readSegmentHeader_bytes]
  simp only [hread, Option.getD_none, hmismatch]
  rw [hvalid rfl, List.take_of_length_le (by rw [length_entriesFrom])]
  simp [records, endOffset]

/-- Repairing a segment cuts the torn tail off. -/
theorem repairSegmentTail_bytes (path : String) (segment : LogSegment) :
    repairSegmentTail path segment.id segment.bytes =
      .ok (segment.endOffset, segment.header ++ framesBytes segment.frames) := by
  rw [repairSegmentTail, segment.scanSegment_bytes]
  have hlen := segment.length_bytes
  have htake : segment.bytes.take segment.endOffset =
      segment.header ++ framesBytes segment.frames := by
    rw [bytes, ← List.append_assoc, List.take_left' (by
      rw [List.length_append, segment.length_header, endOffset])]
  simp only [setLen, htake]
  rw [show segment.endOffset - segment.bytes.length = 0 by omega, List.replicate_zero,
    List.append_nil]

end LogSegment

/-! ### The format as a whole -/

/-- **The segment format round-trips and tolerates exactly a torn tail.** For a header that can be
written, frames whose first record has the start LSN, and a strict prefix of one further frame: the
scan and the read return exactly the records with their positions, reading from the position after
the `k`-th record returns the records after it, and after the repair more frames extend the list. -/
theorem segment_codec_roundTrip (path : String) (segmentId : Nat) (nodeId : String)
    (startLsn createdMs : UInt64) {header : Bytes}
    (hheader : serializeSegmentHeader (UInt64.ofNat segmentId) nodeId startLsn createdMs =
      .ok header)
    (frames : List Frame) (hstart : ∀ frame ∈ frames.head?, frame.record.lsn = startLsn)
    (next : Frame) {torn : Bytes} (hpre : torn <+: next.bytes) (hne : torn ≠ next.bytes) :
    let file := header ++ (framesBytes frames ++ torn)
    let valid := segmentHeaderLen + (framesBytes frames).length
    let entries := entriesFrom segmentId segmentHeaderLen frames
    scanSegment path segmentId file = .ok ⟨frames.map Frame.record, valid⟩ ∧
    readSegmentEntriesAfter path segmentId file segmentHeaderLen none = .ok entries ∧
    (∀ k entry, entries[k]? = some entry →
      readSegmentEntriesAfter path segmentId file entry.nextPosition.offset none =
        .ok (entries.drop (k + 1))) ∧
    (∀ more : List Frame, (∀ frame ∈ (frames ++ more).head?, frame.record.lsn = startLsn) →
      ∃ repaired, repairSegmentTail path segmentId file = .ok (valid, repaired) ∧
        readSegmentEntriesAfter path segmentId (repaired ++ framesBytes more) segmentHeaderLen none
          = .ok (entriesFrom segmentId segmentHeaderLen (frames ++ more)) ∧
        scanSegment path segmentId (repaired ++ framesBytes more) =
          .ok ⟨(frames ++ more).map Frame.record,
            valid + (framesBytes more).length⟩) := by
  intro file valid entries
  let segment : LogSegment := {
    id := segmentId
    nodeId := nodeId
    startLsn := startLsn
    createdMs := createdMs
    header := header
    frames := frames
    torn := torn
    encodes := hheader
    starts := hstart
    tears := Or.inr ⟨next, hpre, hne⟩ }
  refine ⟨segment.scanSegment_bytes path, ?_, ?_, ?_⟩
  · have hread := segment.readSegmentEntriesAfter_bytes path none
    rwa [Option.getD_none, List.take_of_length_le segment.length_entries.le] at hread
  · intro k entry hentry
    obtain ⟨pre, frame, post, hsplit, -, rfl, hdrop⟩ := entriesFrom_getElem?_eq_some hentry
    have hread := segment.readSegmentEntriesAfter_split path
      (show frames = (pre ++ [frame]) ++ post by rw [hsplit, List.append_assoc]; rfl) none
    rw [Option.getD_none, List.take_of_length_le (by rw [length_entriesFrom]), ← hdrop] at hread
    exact hread
  · intro more hmore
    let longer : LogSegment := {
      segment with
      frames := frames ++ more
      torn := []
      starts := hmore
      tears := tornTail_nil }
    have hlonger : header ++ framesBytes frames ++ framesBytes more = longer.bytes := by
      show _ = header ++ (framesBytes (frames ++ more) ++ [])
      rw [framesBytes_append, List.append_nil, List.append_assoc]
    refine ⟨header ++ framesBytes frames, segment.repairSegmentTail_bytes path, ?_, ?_⟩
    · have hread := longer.readSegmentEntriesAfter_bytes path none
      rw [Option.getD_none, List.take_of_length_le longer.length_entries.le] at hread
      rw [hlonger]
      exact hread
    · have hscan := longer.scanSegment_bytes path
      rw [hlonger]
      refine hscan.trans ?_
      show Except.ok (SegmentScan.mk _ (segmentHeaderLen + (framesBytes (frames ++ more)).length)) = _
      rw [framesBytes_append, List.length_append, ← Nat.add_assoc]
      rfl

end Codec

section Sample

attribute [local instance] referenceCodec

/-- The format theorem on one record followed by a torn frame of twenty bytes. -/
theorem segment_codec_roundTrip_sample :
    ∃ (header : Bytes) (frame next : Frame),
      scanSegment "0000000000000001.wal" 1 (header ++ (framesBytes [frame] ++ next.bytes.take 20)) =
        .ok ⟨[frame.record], segmentHeaderLen + (framesBytes [frame]).length⟩ := by
  obtain ⟨header, hheader⟩ := serializeSegmentHeader_of_length
    (show (utf8Bytes "n").length ≤ _ by decide +kernel) 1 1 0
  obtain ⟨frame, hframe⟩ := Option.isSome_iff_exists.mp
    (show (frameOf (assignWalMetadata (sampleRecord "a") 1 "n")).isSome by decide +kernel)
  obtain ⟨next, hnext⟩ := Option.isSome_iff_exists.mp
    (show (frameOf (assignWalMetadata (sampleRecord "b") 2 "n")).isSome by decide +kernel)
  have hlen := next.length_ge
  refine ⟨header, frame, next, (segment_codec_roundTrip "0000000000000001.wal" 1 "n" 1 0 hheader
    [frame] ?_ next (List.take_prefix 20 _) ?_).1⟩
  · rintro _ ⟨⟩
    rw [frameOf_record hframe]
    rfl
  · intro heq
    have := congrArg List.length heq
    rw [List.length_take] at this
    simp only [recordHeaderFixedLen] at hlen
    omega

end Sample

end Ingest4x.Wal
