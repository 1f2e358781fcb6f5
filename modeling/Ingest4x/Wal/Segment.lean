import Ingest4x.Wal.Frame

/-! # Reading one segment file

The functions that walk the frames of a segment: the scan of the writer's recovery, the read of the
replay, and the repair of a torn tail. All three walk with one loop, which stops at the first
incomplete frame.

* **`readFrames`** — the loop, with `readFrames_eq`: one turn of it, without the fuel.
* **`scanSegment`**, **`readSegmentEntriesAfter`**, **`repairSegmentTail`** — the three functions.
* **`entriesFrom`** — the entries that a list of frames denotes at an offset. -/

namespace Ingest4x.Wal

open Bytes

variable [RecordCodec]

/-! ### The loop over frames -/

/-- The entry of a record whose frame lies from `frameStart` to `nextOffset`. -/
def walEntry (segmentId frameStart nextOffset : Nat) (record : WalRecord) : WalEntry :=
  { position := ⟨record.lsn.toNat, segmentId, frameStart⟩
    nextPosition := ⟨record.lsn.toNat, segmentId, nextOffset⟩
    record := record }

/-- The loop with explicit fuel. -/
def readFramesFuel (path : String) (segmentId : Nat) :
    Nat → Nat → Option Nat → Bytes → Except IoError (List WalEntry × Nat)
  | 0, validOffset, _, _ => .ok ([], validOffset)
  | fuel + 1, validOffset, limit, reader =>
    if limit = some 0 then .ok ([], validOffset)
    else
      match readRecordFrame path validOffset reader with
      | .error error => .error error
      | .ok none => .ok ([], validOffset)
      | .ok (some (record, nextOffset, reader)) =>
        match readFramesFuel path segmentId fuel nextOffset (limit.map (· - 1)) reader with
        | .error error => .error error
        | .ok (entries, offset) =>
          .ok (walEntry segmentId validOffset nextOffset record :: entries, offset)

/-- **The loop of `scan_segment` and `read_segment_entries_after`**: the entries read, at most
`limit`, and the offset after the last one. Each turn shortens the reader, so its length is enough
fuel. -/
def readFrames (path : String) (segmentId validOffset : Nat) (limit : Option Nat)
    (reader : Bytes) : Except IoError (List WalEntry × Nat) :=
  readFramesFuel path segmentId (reader.length + 1) validOffset limit reader

/-- A frame that was read shortens the reader. -/
theorem readRecordFrame_length_lt {path : String} {frameStart nextOffset : Nat}
    {reader rest : Bytes} {record : WalRecord}
    (h : readRecordFrame path frameStart reader = .ok (some (record, nextOffset, rest))) :
    rest.length < reader.length := by
  unfold readRecordFrame at h
  repeat' split at h
  all_goals cases h
  have hmagic := length_of_readExact ‹readExact 8 reader = some _›
  have hfixed := length_of_readExact ‹readExact (recordHeaderFixedLen - 8) _ = some _›
  have hnode := length_of_readExact ‹readExact (FrameHeader.nodeIdLen _) _ = some _›
  have hpayload := length_of_readExact ‹readExact (FrameHeader.payloadLen _) _ = some _›
  omega

/-- More fuel than the reader is long does not change the loop. -/
theorem readFramesFuel_eq (path : String) (segmentId fuel fuel' : Nat) {reader : Bytes}
    (h : reader.length < fuel) (h' : reader.length < fuel') (validOffset : Nat)
    (limit : Option Nat) :
    readFramesFuel path segmentId fuel validOffset limit reader =
      readFramesFuel path segmentId fuel' validOffset limit reader := by
  induction fuel generalizing fuel' reader validOffset limit with
  | zero => exact absurd h (Nat.not_lt_zero _)
  | succ fuel ih =>
    cases fuel' with
    | zero => exact absurd h' (Nat.not_lt_zero _)
    | succ fuel' =>
      rw [readFramesFuel, readFramesFuel]
      cases hread : readRecordFrame path validOffset reader with
      | error error => rfl
      | ok found =>
        cases found with
        | none => rfl
        | some found =>
          obtain ⟨record, nextOffset, rest⟩ := found
          have hlt := readRecordFrame_length_lt hread
          simp only
          rw [ih fuel' (by omega) (by omega)]

/-- **One turn of the loop.** -/
theorem readFrames_eq (path : String) (segmentId validOffset : Nat) (limit : Option Nat)
    (reader : Bytes) :
    readFrames path segmentId validOffset limit reader =
      if limit = some 0 then .ok ([], validOffset)
      else
        match readRecordFrame path validOffset reader with
        | .error error => .error error
        | .ok none => .ok ([], validOffset)
        | .ok (some (record, nextOffset, reader)) =>
          match readFrames path segmentId nextOffset (limit.map (· - 1)) reader with
          | .error error => .error error
          | .ok (entries, offset) =>
            .ok (walEntry segmentId validOffset nextOffset record :: entries, offset) := by
  rw [readFrames, readFramesFuel]
  cases hread : readRecordFrame path validOffset reader with
  | error error => rfl
  | ok found =>
    cases found with
    | none => rfl
    | some found =>
      obtain ⟨record, nextOffset, rest⟩ := found
      have hlt := readRecordFrame_length_lt hread
      simp only [readFrames]
      rw [readFramesFuel_eq path segmentId reader.length (rest.length + 1) (by omega) (by omega)]

/-! ### The functions on a segment file -/

/-- `SegmentScan`. -/
structure SegmentScan where
  records : List WalRecord
  validOffset : Nat
  deriving DecidableEq

/-- The start LSN check that both functions make after the loop: the first record read has the
LSN of the header. -/
def startLsnMismatch (header : SegmentHeader) (entries : List WalEntry) : Bool :=
  match entries with
  | [] => false
  | entry :: _ => entry.record.lsn != header.startLsn

/-- **`scan_segment`** on the contents of a segment file. -/
def scanSegment (path : String) (segmentId : Nat) (file : Bytes) : Except IoError SegmentScan :=
  match readSegmentHeader path file with
  | .error error => .error error
  | .ok (header, reader) =>
    match readFrames path segmentId segmentHeaderLen none reader with
    | .error error => .error error
    | .ok (entries, validOffset) =>
      if startLsnMismatch header entries then
        .error (.invalidData s!"wal segment start_lsn mismatch: {path}")
      else
        .ok ⟨entries.map WalEntry.record, validOffset⟩

/-- `read_segment_records`. -/
def readSegmentRecords (path : String) (segmentId : Nat) (file : Bytes) :
    Except IoError (List WalRecord) :=
  (scanSegment path segmentId file).map SegmentScan.records

/-- **`read_segment_entries_after`** on the contents of a segment file. -/
def readSegmentEntriesAfter (path : String) (segmentId : Nat) (file : Bytes) (startOffset : Nat)
    (limit : Option Nat) : Except IoError (List WalEntry) :=
  match readSegmentHeader path file with
  | .error error => .error error
  | .ok (header, _) =>
    if startOffset < segmentHeaderLen then
      .error (.invalidInput s!"invalid wal checkpoint offset: {path}")
    else if file.length < startOffset then
      .error (.invalidInput s!"invalid wal checkpoint offset: {path}")
    else
      match readFrames path segmentId startOffset limit (file.drop startOffset) with
      | .error error => .error error
      | .ok (entries, _) =>
        if startOffset = segmentHeaderLen ∧ startLsnMismatch header entries then
          .error (.invalidData s!"wal segment start_lsn mismatch: {path}")
        else
          .ok entries

/-- `File::set_len`. -/
def setLen (len : Nat) (file : Bytes) : Bytes :=
  file.take len ++ List.replicate (len - file.length) 0

/-- **`repair_segment_tail`**: the valid offset and the file cut to it. -/
def repairSegmentTail (path : String) (segmentId : Nat) (file : Bytes) :
    Except IoError (Nat × Bytes) :=
  match scanSegment path segmentId file with
  | .error error => .error error
  | .ok scan => .ok (scan.validOffset, setLen scan.validOffset file)

/-! ### What a list of frames denotes -/

/-- The bytes of a list of frames. -/
def framesBytes (frames : List Frame) : Bytes := frames.flatMap Frame.bytes

@[simp] theorem framesBytes_nil : framesBytes [] = [] := rfl

@[simp] theorem framesBytes_cons (frame : Frame) (frames : List Frame) :
    framesBytes (frame :: frames) = frame.bytes ++ framesBytes frames := rfl

@[simp] theorem framesBytes_append (frames frames' : List Frame) :
    framesBytes (frames ++ frames') = framesBytes frames ++ framesBytes frames' :=
  List.flatMap_append

/-- **The entries of a list of frames** that starts at an offset of a segment. -/
def entriesFrom (segmentId : Nat) : Nat → List Frame → List WalEntry
  | _, [] => []
  | offset, frame :: frames =>
    walEntry segmentId offset (offset + frame.bytes.length) frame.record
      :: entriesFrom segmentId (offset + frame.bytes.length) frames

@[simp] theorem entriesFrom_nil (segmentId offset : Nat) : entriesFrom segmentId offset [] = [] :=
  rfl

@[simp] theorem entriesFrom_cons (segmentId offset : Nat) (frame : Frame) (frames : List Frame) :
    entriesFrom segmentId offset (frame :: frames) =
      walEntry segmentId offset (offset + frame.bytes.length) frame.record
        :: entriesFrom segmentId (offset + frame.bytes.length) frames := rfl

@[simp] theorem length_entriesFrom (segmentId offset : Nat) (frames : List Frame) :
    (entriesFrom segmentId offset frames).length = frames.length := by
  induction frames generalizing offset with
  | nil => rfl
  | cons frame frames ih => rw [entriesFrom_cons, List.length_cons, ih, List.length_cons]

/-- The entries of the second part start where the bytes of the first part end. -/
theorem entriesFrom_append (segmentId offset : Nat) (frames frames' : List Frame) :
    entriesFrom segmentId offset (frames ++ frames') =
      entriesFrom segmentId offset frames ++
        entriesFrom segmentId (offset + (framesBytes frames).length) frames' := by
  induction frames generalizing offset with
  | nil => rfl
  | cons frame frames ih =>
    rw [List.cons_append, entriesFrom_cons, ih, entriesFrom_cons, List.cons_append,
      framesBytes_cons, List.length_append, Nat.add_assoc]

/-- The records of the entries are the records of the frames. -/
@[simp] theorem map_record_entriesFrom (segmentId offset : Nat) (frames : List Frame) :
    (entriesFrom segmentId offset frames).map WalEntry.record = frames.map Frame.record := by
  induction frames generalizing offset with
  | nil => rfl
  | cons frame frames ih => rw [entriesFrom_cons, List.map_cons, ih, List.map_cons]; rfl

/-- An entry of a list of frames comes from one frame, at the offset where the frames before it
end. -/
theorem entriesFrom_getElem?_eq_some {segmentId offset k : Nat} {frames : List Frame}
    {entry : WalEntry} (h : (entriesFrom segmentId offset frames)[k]? = some entry) :
    ∃ pre frame post, frames = pre ++ frame :: post ∧ pre.length = k ∧
      entry = walEntry segmentId (offset + (framesBytes pre).length)
        (offset + (framesBytes (pre ++ [frame])).length) frame.record ∧
      (entriesFrom segmentId offset frames).drop (k + 1) =
        entriesFrom segmentId (offset + (framesBytes (pre ++ [frame])).length) post := by
  have hk : k < frames.length := by
    rw [← length_entriesFrom segmentId offset frames]
    exact (List.getElem?_eq_some_iff.mp h).1
  have hsplit : frames = frames.take k ++ frames[k] :: frames.drop (k + 1) := by
    rw [List.getElem_cons_drop, List.take_append_drop]
  have hlen : (frames.take k).length = k := by rw [List.length_take]; omega
  refine ⟨frames.take k, frames[k], frames.drop (k + 1), hsplit, hlen, ?_, ?_⟩
  · rw [hsplit, entriesFrom_append, entriesFrom_cons, List.getElem?_append_right (by simp [hlen])] at h
    simp only [length_entriesFrom, hlen, Nat.sub_self, List.getElem?_cons_zero,
      Option.some.injEq] at h
    rw [← h, framesBytes_append, List.length_append, framesBytes_cons, framesBytes_nil,
      List.append_nil, Nat.add_assoc]
  · conv_lhs => rw [hsplit]
    rw [entriesFrom_append, entriesFrom_cons, ← List.singleton_append, ← List.append_assoc,
      List.drop_left' (by simp [hlen]), framesBytes_append, List.length_append, framesBytes_cons,
      framesBytes_nil, List.append_nil, Nat.add_assoc]

/-- **A torn tail**: nothing, or a strict prefix of one frame. -/
def TornTail (torn : Bytes) : Prop :=
  torn = [] ∨ ∃ frame : Frame, torn <+: frame.bytes ∧ torn ≠ frame.bytes

theorem tornTail_nil : TornTail [] := Or.inl rfl

/-- A torn tail reads as the end of the log. -/
theorem readRecordFrame_tornTail (path : String) (frameStart : Nat) {torn : Bytes}
    (h : TornTail torn) : readRecordFrame path frameStart torn = .ok none := by
  obtain rfl | ⟨frame, hpre, hne⟩ := h
  · rfl
  · exact readRecordFrame_torn path frameStart frame hpre hne

/-- **The loop on frames and a torn tail** gives the entries of the frames, cut at the limit. -/
theorem readFrames_frames (path : String) (segmentId offset : Nat) (limit : Option Nat)
    (frames : List Frame) {torn : Bytes} (htorn : TornTail torn) :
    ∃ valid, readFrames path segmentId offset limit (framesBytes frames ++ torn) =
        .ok ((entriesFrom segmentId offset frames).take (limit.getD frames.length), valid) ∧
      (limit = none → valid = offset + (framesBytes frames).length) := by
  induction frames generalizing offset limit with
  | nil =>
    refine ⟨offset, ?_, fun _ => rfl⟩
    rw [readFrames_eq, framesBytes_nil, List.nil_append, readRecordFrame_tornTail path offset htorn]
    simp
  | cons frame frames ih =>
    rw [readFrames_eq, framesBytes_cons, List.append_assoc, readRecordFrame_frame]
    obtain ⟨valid, hread, hvalid⟩ := ih (offset + frame.bytes.length) (limit.map (· - 1))
    simp only [hread]
    by_cases hlimit : limit = some 0
    · exact ⟨offset, by simp [hlimit], by simp [hlimit]⟩
    · refine ⟨valid, ?_, ?_⟩
      · rw [if_neg hlimit]
        cases limit with
        | none => simp
        | some limit =>
          obtain ⟨limit, rfl⟩ : ∃ n, limit = n + 1 :=
            ⟨limit - 1, by have : limit ≠ 0 := fun h => hlimit (by rw [h]); omega⟩
          simp
      · intro hnone
        rw [hvalid (by rw [hnone]; rfl), List.length_append, Nat.add_assoc]

end Ingest4x.Wal
