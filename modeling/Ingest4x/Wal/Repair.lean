import Ingest4x.Wal.Segment

/-! # Cutting a segment at its valid end

The repair of a starting writer cuts the active segment where its last complete frame ends, whatever
the file holds. What the readers then find is what they found before.

* **`readRecordFrame_eq_some`** — a frame that was read is a part of the reader, and reads the same
  whatever follows it.
* **`readFrames_used`** — the same for the loop over frames.
* **`scanSegment_setLen`** — the scan of the cut file. -/

namespace Ingest4x.Wal

open Bytes

variable [RecordCodec] {path : String} {segmentId : Nat}

omit [RecordCodec] in
/-- The header length covers the node id. -/
theorem headerLen_of_parseFrameHeader {fixed : Bytes} {header : FrameHeader}
    (h : parseFrameHeader path fixed = .ok header) :
    header.headerLen = recordHeaderFixedLen + header.nodeIdLen := by
  unfold parseFrameHeader at h
  simp only at h
  split_ifs at h with _ _ _ _ hlen
  injection h with h
  rw [← h]
  exact not_not.mp hlen

/-- **A frame that was read** is a part of the reader, and reads the same whatever follows it. -/
theorem readRecordFrame_eq_some {frameStart nextOffset : Nat} {reader rest : Bytes}
    {record : WalRecord}
    (h : readRecordFrame path frameStart reader = .ok (some (record, nextOffset, rest))) :
    ∃ used, reader = used ++ rest ∧ nextOffset = frameStart + used.length ∧
      ∀ rest', readRecordFrame path frameStart (used ++ rest') =
        .ok (some (record, nextOffset, rest')) := by
  unfold readRecordFrame at h
  split at h
  · cases h
  rename_i magic reader₁ hmagic
  split_ifs at h with hmagicNe
  split at h
  · cases h
  rename_i fixed reader₂ hfixed
  split at h
  · cases h
  rename_i header hheader
  split at h
  · cases h
  rename_i nodeIdBytes reader₃ hnode
  split at h
  · cases h
  rename_i nodeId hutf8
  split at h
  · cases h
  rename_i payload reader₄ hpayload
  split at h
  · cases h
  rename_i record' hrecord
  simp only [Except.ok.injEq, Option.some.injEq, Prod.mk.injEq] at h
  obtain ⟨rfl, rfl, rfl⟩ := h
  obtain ⟨rfl, hmagicLen⟩ := readExact_eq_some hmagic
  obtain ⟨rfl, hfixedLen⟩ := readExact_eq_some hfixed
  obtain ⟨rfl, hnodeLen⟩ := readExact_eq_some hnode
  obtain ⟨rfl, hpayloadLen⟩ := readExact_eq_some hpayload
  refine ⟨magic ++ (fixed ++ (nodeIdBytes ++ payload)), by simp, ?_, fun rest' => ?_⟩
  · have hheaderLen := headerLen_of_parseFrameHeader hheader
    simp only [List.length_append, hmagicLen, hfixedLen, hnodeLen, hpayloadLen, hheaderLen,
      recordHeaderFixedLen]
    omega
  · -- the same fields are read off the same bytes
    simp only [List.append_assoc]
    rw [readRecordFrame, readExact_append hmagicLen]
    simp only [if_neg hmagicNe]
    rw [readExact_append hfixedLen]
    simp only [hheader]
    rw [readExact_append hnodeLen]
    simp only [hutf8]
    rw [readExact_append hpayloadLen]
    simp only [hrecord]

/-- **The loop over frames** reads the part of the reader up to the valid offset, and nothing else. -/
theorem readFrames_used {offset valid : Nat} {reader : Bytes} {entries : List WalEntry}
    (h : readFrames path segmentId offset none reader = .ok (entries, valid)) :
    ∃ used rest, reader = used ++ rest ∧ valid = offset + used.length ∧
      readFrames path segmentId offset none used = .ok (entries, valid) := by
  have hnil : ∀ offset, readFrames path segmentId offset none [] = .ok ([], offset) := by
    intro offset
    rw [readFrames_eq]
    rfl
  induction entries generalizing offset reader with
  | nil =>
    have hvalid : offset = valid := by
      rw [readFrames_eq, if_neg (by simp)] at h
      split at h
      · cases h
      · injection h with h
        injection h with _ h
      · split at h <;> cases h
    subst hvalid
    exact ⟨[], reader, rfl, rfl, hnil offset⟩
  | cons entry entries ih =>
    rw [readFrames_eq, if_neg (by simp)] at h
    split at h
    · cases h
    · cases h
    rename_i record nextOffset rest hread
    split at h
    · cases h
    rename_i entries' valid' hrest
    simp only [Except.ok.injEq, Prod.mk.injEq, List.cons.injEq] at h
    obtain ⟨⟨rfl, rfl⟩, rfl⟩ := h
    obtain ⟨used, rfl, rfl, hsame⟩ := readRecordFrame_eq_some hread
    obtain ⟨used', rest', rfl, rfl, hused'⟩ := ih hrest
    refine ⟨used ++ used', rest', (List.append_assoc _ _ _).symm, ?_, ?_⟩
    · rw [List.length_append, Nat.add_assoc]
    · rw [readFrames_eq, if_neg (by simp), hsame used']
      simp only [Option.map_none, hused']

/-- **A header that was read** is the first block, and reads the same whatever follows it. -/
theorem readSegmentHeader_eq_ok {file reader : Bytes} {header : SegmentHeader}
    (h : readSegmentHeader path file = .ok (header, reader)) :
    ∃ block, file = block ++ reader ∧ block.length = segmentHeaderLen ∧
      ∀ rest, readSegmentHeader path (block ++ rest) = .ok (header, rest) := by
  unfold readSegmentHeader at h
  split at h
  · cases h
  rename_i block reader' hblock
  split at h
  · cases h
  rename_i header' hheader
  simp only [Except.ok.injEq, Prod.mk.injEq] at h
  obtain ⟨rfl, rfl⟩ := h
  obtain ⟨rfl, hlen⟩ := readExact_eq_some hblock
  refine ⟨block, rfl, hlen, fun rest => ?_⟩
  rw [readSegmentHeader, readExact_append hlen]
  simp only [hheader]

/-- **The cut file** scans as the file did, with the same header. -/
theorem scanSegment_setLen {file : Bytes} {scan : SegmentScan}
    (h : scanSegment path segmentId file = .ok scan) :
    scanSegment path segmentId (setLen scan.validOffset file) = .ok scan ∧
      ∀ header reader, readSegmentHeader path file = .ok (header, reader) →
        ∃ reader', readSegmentHeader path (setLen scan.validOffset file) = .ok (header, reader') := by
  unfold scanSegment at h
  split at h
  · cases h
  rename_i header reader hheader
  split at h
  · cases h
  rename_i entries valid hframes
  split_ifs at h with hstart
  injection h with h
  subst h
  obtain ⟨block, rfl, hlen, hblock⟩ := readSegmentHeader_eq_ok hheader
  obtain ⟨used, rest, rfl, rfl, hused⟩ := readFrames_used hframes
  have hcut : setLen (segmentHeaderLen + used.length) (block ++ (used ++ rest)) = block ++ used := by
    have hzero : segmentHeaderLen + used.length - (block ++ (used ++ rest)).length = 0 := by
      simp only [List.length_append, hlen]
      omega
    rw [setLen, hzero, List.replicate_zero, List.append_nil, ← List.append_assoc, List.take_left' (by
      rw [List.length_append, hlen])]
  rw [hcut]
  refine ⟨?_, fun header' reader' hheader' => ?_⟩
  · rw [scanSegment, hblock used]
    simp only [hused]
    rw [if_neg hstart]
  · rw [hblock] at hheader'
    injection hheader' with hheader'
    injection hheader' with hheader' _
    exact ⟨used, hheader' ▸ hblock used⟩

end Ingest4x.Wal
