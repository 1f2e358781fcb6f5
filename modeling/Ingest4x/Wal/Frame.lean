import Ingest4x.Wal.Codec

/-! # Frames round-trip and tear cleanly

What the reader does on bytes that the writer produced: a complete frame reads as its record, a
strict prefix of a frame reads as the end of the log, and a segment header reads as its fields. -/

namespace Ingest4x.Wal

open Bytes

variable [RecordCodec]

/-! ### Record frames -/

/-- **A frame**: a record with the bytes that `serializeFrame` gives for it. -/
structure Frame where
  record : WalRecord
  bytes : Bytes
  encodes : serializeFrame record = .ok bytes

/-- The frame of a record, if the record can be written. -/
def frameOf (record : WalRecord) : Option Frame :=
  match h : serializeFrame record with
  | .ok bytes => some ⟨record, bytes, h⟩
  | .error _ => none

theorem frameOf_record {record : WalRecord} {frame : Frame} (h : frameOf record = some frame) :
    frame.record = record := by
  unfold frameOf at h
  split at h
  · cases h
    rfl
  · cases h

/-- The fixed part of a frame header after the magic. -/
def frameFixedBytes (record : WalRecord) (payload : Bytes) : Bytes :=
  u16Bytes recordVersion
    ++ (u16Bytes (UInt16.ofNat (recordHeaderFixedLen + (utf8Bytes record.nodeId).length))
    ++ ([recordTypeData, recordFlagsNone, 0, 0]
    ++ (u64Bytes record.lsn ++ (u64Bytes record.receivedAtMs
    ++ (u16Bytes (UInt16.ofNat (utf8Bytes record.nodeId).length)
    ++ (u32Bytes (UInt32.ofNat payload.length) ++ u32Bytes (RecordCodec.hash payload)))))))

@[simp] theorem length_frameFixedBytes (record : WalRecord) (payload : Bytes) :
    (frameFixedBytes record payload).length = 34 := by
  simp [frameFixedBytes]

omit [RecordCodec] in
@[simp] theorem length_recordMagic : recordMagic.length = 8 := rfl

/-- What `serializeFrame` says about the record and its bytes. -/
theorem serializeFrame_eq_ok {record : WalRecord} {bytes : Bytes}
    (h : serializeFrame record = .ok bytes) :
    ∃ payload, RecordCodec.serialize record = .ok payload ∧ payload.length < 2 ^ 32 ∧
      recordHeaderFixedLen + (utf8Bytes record.nodeId).length < 2 ^ 16 ∧
      bytes = recordMagic ++ (frameFixedBytes record payload ++
        (utf8Bytes record.nodeId ++ payload)) := by
  unfold serializeFrame at h
  split at h
  · cases h
  · rename_i payload hpayload
    simp only at h
    split_ifs at h with h32 h16 hlen
    refine ⟨payload, hpayload, by omega, by omega, ?_⟩
    injection h with h
    rw [← h]
    simp only [frameFixedBytes, List.append_assoc, List.cons_append, List.nil_append]

/-- A record whose payload and node id fit their length fields can be written. -/
theorem serializeFrame_of_payload {record : WalRecord} {payload : Bytes}
    (hserialize : RecordCodec.serialize record = .ok payload) (hpayload : payload.length < 2 ^ 32)
    (hnode : recordHeaderFixedLen + (utf8Bytes record.nodeId).length < 2 ^ 16) :
    serializeFrame record = .ok (recordMagic ++ (frameFixedBytes record payload ++
      (utf8Bytes record.nodeId ++ payload))) := by
  simp only [serializeFrame, hserialize]
  rw [if_neg (by omega), if_neg (by omega), if_neg (by omega)]
  simp only [frameFixedBytes, List.append_assoc, List.cons_append, List.nil_append]

/-- The header that the reader extracts from the fixed part the writer produced. -/
theorem parseFrameHeader_frameFixedBytes (path : String) {record : WalRecord} {payload : Bytes}
    (hpayload : payload.length < 2 ^ 32)
    (hnode : recordHeaderFixedLen + (utf8Bytes record.nodeId).length < 2 ^ 16) :
    parseFrameHeader path (frameFixedBytes record payload) = .ok {
      version := recordVersion
      headerLen := recordHeaderFixedLen + (utf8Bytes record.nodeId).length
      lsn := record.lsn
      receivedAtMs := record.receivedAtMs
      nodeIdLen := (utf8Bytes record.nodeId).length
      payloadLen := payload.length
      expectedCrc := RecordCodec.hash payload } := by
  have hheader : (UInt16.ofNat (recordHeaderFixedLen + (utf8Bytes record.nodeId).length)).toNat
      = recordHeaderFixedLen + (utf8Bytes record.nodeId).length := by
    rw [UInt16.toNat_ofNat', Nat.mod_eq_of_lt hnode]
  have hnodeLen : (UInt16.ofNat (utf8Bytes record.nodeId).length).toNat
      = (utf8Bytes record.nodeId).length := by
    rw [UInt16.toNat_ofNat', Nat.mod_eq_of_lt (by omega)]
  have hpayloadLen : (UInt32.ofNat payload.length).toNat = payload.length := by
    rw [UInt32.toNat_ofNat', Nat.mod_eq_of_lt hpayload]
  have htype : (frameFixedBytes record payload).getD 4 0 = recordTypeData := rfl
  have hflags : (frameFixedBytes record payload).getD 5 0 = recordFlagsNone := rfl
  unfold parseFrameHeader
  rw [htype, hflags]
  simp (disch := simp) only [frameFixedBytes, slice_append_right, slice_append_left, slice_full,
    length_u16Bytes, length_u32Bytes, length_u64Bytes, List.length_cons, List.length_nil,
    Nat.reduceSub, Nat.reduceAdd, u16OfBytes_u16Bytes, u32OfBytes_u32Bytes, u64OfBytes_u64Bytes,
    hheader, hnodeLen, hpayloadLen]
  rw [if_neg (not_not.mpr rfl), if_neg (by omega), if_neg (not_not.mpr rfl),
    if_neg (not_not.mpr rfl), if_neg (not_not.mpr rfl)]

/-- The payload checks accept the payload of the record. -/
theorem parseFramePayload_self (path : String) {record : WalRecord} {payload : Bytes}
    {header : FrameHeader} (hserialize : RecordCodec.serialize record = .ok payload)
    (hcrc : header.expectedCrc = RecordCodec.hash payload) (hlsn : header.lsn = record.lsn)
    (hreceived : header.receivedAtMs = record.receivedAtMs) :
    parseFramePayload path header record.nodeId payload = .ok record := by
  rw [parseFramePayload, if_neg (not_not.mpr hcrc.symm),
    RecordCodec.deserialize_serialize hserialize]
  simp only
  rw [if_neg (not_not.mpr hlsn.symm), if_neg (not_not.mpr hreceived.symm),
    if_neg (not_not.mpr rfl)]

/-- **A complete frame reads as its record**, whatever follows it. -/
theorem readRecordFrame_frame (path : String) (frameStart : Nat) (frame : Frame) (rest : Bytes) :
    readRecordFrame path frameStart (frame.bytes ++ rest) =
      .ok (some (frame.record, frameStart + frame.bytes.length, rest)) := by
  obtain ⟨record, bytes, encodes⟩ := frame
  obtain ⟨payload, hserialize, hpayload, hnode, rfl⟩ := serializeFrame_eq_ok encodes
  have hparse := parseFrameHeader_frameFixedBytes path hpayload hnode
  have hfixed : (frameFixedBytes record payload).length = recordHeaderFixedLen - 8 :=
    length_frameFixedBytes record payload
  simp only [List.append_assoc]
  rw [readRecordFrame, readExact_append length_recordMagic]
  simp only [ne_eq, not_true_eq_false, if_false]
  rw [readExact_append hfixed]
  simp only [hparse]
  rw [readExact_append rfl]
  simp only [utf8OfBytes_utf8Bytes]
  rw [readExact_append rfl]
  simp only
  have hlength : frameStart + (recordHeaderFixedLen + (utf8Bytes record.nodeId).length)
      + payload.length = frameStart + (recordMagic ++ (frameFixedBytes record payload ++
        (utf8Bytes record.nodeId ++ payload))).length := by
    simp only [List.length_append, length_recordMagic, length_frameFixedBytes, recordHeaderFixedLen]
    omega
  rw [parseFramePayload_self path hserialize rfl rfl rfl, ← hlength]

/-- **A torn frame reads as the end of the log**: a strict prefix of a frame is no record and no
error. -/
theorem readRecordFrame_torn (path : String) (frameStart : Nat) (frame : Frame) {torn : Bytes}
    (hpre : torn <+: frame.bytes) (hne : torn ≠ frame.bytes) :
    readRecordFrame path frameStart torn = .ok none := by
  obtain ⟨record, bytes, encodes⟩ := frame
  obtain ⟨payload, -, hpayload, hnode, rfl⟩ := serializeFrame_eq_ok encodes
  obtain ⟨cut, hcut⟩ := hpre
  have hparse := parseFrameHeader_frameFixedBytes path hpayload hnode
  have hfixed : (frameFixedBytes record payload).length = recordHeaderFixedLen - 8 :=
    length_frameFixedBytes record payload
  have hcutne : cut ≠ [] := by
    rintro rfl
    exact hne (by simpa using hcut)
  rw [readRecordFrame]
  obtain h | ⟨torn, rfl, hcut₁⟩ := readExact_truncated length_recordMagic hcut
  · rw [h]
  rw [readExact_append length_recordMagic]
  simp only [ne_eq, not_true_eq_false, if_false]
  obtain h | ⟨torn, rfl, hcut₂⟩ := readExact_truncated hfixed hcut₁
  · rw [h]
  rw [readExact_append hfixed]
  simp only [hparse]
  obtain h | ⟨torn, rfl, hcut₃⟩ := readExact_truncated rfl hcut₂
  · rw [h]
  rw [readExact_append rfl]
  simp only [utf8OfBytes_utf8Bytes]
  obtain h | ⟨torn, rfl, hcut₄⟩ := readExact_truncated rfl (hcut₃.trans (List.append_nil _).symm)
  · rw [h]
  exact absurd (List.append_eq_nil_iff.mp hcut₄).2 hcutne

/-- A frame is longer than its fixed header. -/
theorem Frame.length_ge (frame : Frame) : recordHeaderFixedLen ≤ frame.bytes.length := by
  obtain ⟨record, bytes, encodes⟩ := frame
  obtain ⟨payload, -, -, -, rfl⟩ := serializeFrame_eq_ok encodes
  simp only [recordHeaderFixedLen, List.length_append, length_recordMagic, length_frameFixedBytes]
  omega

/-! ### Segment headers -/

section Layout

variable {nodeId : Bytes} (hnode : nodeId.length ≤ segmentHeaderCrcOffset - segmentNodeIdOffset)
  (segmentId startLsn nowMs : UInt64)

include hnode

omit [RecordCodec] in
/-- The fields lie before the checksum. -/
theorem segmentHeaderLayout_inside :
    ∀ field ∈ segmentHeaderLayout segmentId nodeId startLsn nowMs,
      field.1 + field.2.length ≤ segmentHeaderCrcOffset := by
  simp only [segmentHeaderCrcOffset, segmentNodeIdOffset, Nat.reduceSub] at hnode
  simp [segmentHeaderLayout, segmentMagic, segmentHeaderCrcOffset, segmentNodeIdOffset]
  omega

omit [RecordCodec] in
/-- The fields lie inside the block. -/
theorem segmentHeaderLayout_inside_block :
    ∀ field ∈ segmentHeaderLayout segmentId nodeId startLsn nowMs,
      field.1 + field.2.length ≤ (List.replicate segmentHeaderLen (0 : UInt8)).length := by
  intro field hfield
  rw [List.length_replicate]
  exact (segmentHeaderLayout_inside hnode segmentId startLsn nowMs field hfield).trans (by decide)

omit hnode [RecordCodec] in
/-- The fields do not overlap. -/
theorem segmentHeaderLayout_disjoint :
    (segmentHeaderLayout segmentId nodeId startLsn nowMs).Pairwise fun f g =>
      f.1 + f.2.length ≤ g.1 ∨ g.1 + g.2.length ≤ f.1 := by
  simp [segmentHeaderLayout, segmentMagic, segmentNodeIdOffset]

omit [RecordCodec] in
theorem length_segmentHeaderBlock :
    (segmentHeaderBlock segmentId nodeId startLsn nowMs).length = segmentHeaderLen := by
  rw [segmentHeaderBlock, length_writeFields
    (segmentHeaderLayout_inside_block hnode segmentId startLsn nowMs), List.length_replicate]

omit [RecordCodec] in
/-- Each field of the header reads back from the block. -/
theorem slice_segmentHeaderBlock {start stop : Nat} {bytes : Bytes}
    (hmem : (start, bytes) ∈ segmentHeaderLayout segmentId nodeId startLsn nowMs)
    (hstop : stop = start + bytes.length) :
    slice start stop (segmentHeaderBlock segmentId nodeId startLsn nowMs) = bytes :=
  slice_writeFields (segmentHeaderLayout_inside_block hnode segmentId startLsn nowMs)
    (segmentHeaderLayout_disjoint segmentId startLsn nowMs) hmem hstop

end Layout

/-- What `serializeSegmentHeader` says about the node id and the bytes. -/
theorem serializeSegmentHeader_eq_ok {segmentId startLsn nowMs : UInt64} {nodeId : String}
    {header : Bytes} (h : serializeSegmentHeader segmentId nodeId startLsn nowMs = .ok header) :
    (utf8Bytes nodeId).length ≤ segmentHeaderCrcOffset - segmentNodeIdOffset ∧
      header = copyAt segmentHeaderCrcOffset
        (u32Bytes (computeSegmentHeaderCrc
          (segmentHeaderBlock segmentId (utf8Bytes nodeId) startLsn nowMs)))
        (segmentHeaderBlock segmentId (utf8Bytes nodeId) startLsn nowMs) := by
  unfold serializeSegmentHeader at h
  simp only at h
  split_ifs at h with hnode
  injection h with h
  exact ⟨not_lt.mp hnode, h.symm⟩

/-- A short node id can be written in a header. -/
theorem serializeSegmentHeader_of_length {nodeId : String}
    (hnode : (utf8Bytes nodeId).length ≤ segmentHeaderCrcOffset - segmentNodeIdOffset)
    (segmentId startLsn nowMs : UInt64) :
    ∃ header, serializeSegmentHeader segmentId nodeId startLsn nowMs = .ok header :=
  ⟨_, if_neg (not_lt.mpr hnode)⟩

/-- A header that can be written is one block long. -/
theorem length_of_serializeSegmentHeader {segmentId startLsn nowMs : UInt64} {nodeId : String}
    {header : Bytes} (h : serializeSegmentHeader segmentId nodeId startLsn nowMs = .ok header) :
    header.length = segmentHeaderLen := by
  obtain ⟨hnode, rfl⟩ := serializeSegmentHeader_eq_ok h
  have hlen := length_segmentHeaderBlock hnode segmentId startLsn nowMs
  rw [length_copyAt, hlen]
  rw [hlen, length_u32Bytes]
  decide

/-- The checksum field does not touch the other fields. -/
theorem slice_of_serializeSegmentHeader {segmentId startLsn nowMs : UInt64} {nodeId : String}
    {header : Bytes} (h : serializeSegmentHeader segmentId nodeId startLsn nowMs = .ok header)
    {start stop : Nat} {bytes : Bytes}
    (hmem : (start, bytes) ∈ segmentHeaderLayout segmentId (utf8Bytes nodeId) startLsn nowMs)
    (hstop : stop = start + bytes.length) : slice start stop header = bytes := by
  obtain ⟨hnode, rfl⟩ := serializeSegmentHeader_eq_ok h
  have hlen := length_segmentHeaderBlock hnode segmentId startLsn nowMs
  have hinside := segmentHeaderLayout_inside hnode segmentId startLsn nowMs _ hmem
  rw [slice_copyAt_of_disjoint (Or.inl (hstop ▸ hinside)) (by rw [hlen, length_u32Bytes]; decide)]
  exact slice_segmentHeaderBlock hnode segmentId startLsn nowMs hmem hstop

/-- The checksum in a written header is the checksum of that header. -/
theorem crc_of_serializeSegmentHeader {segmentId startLsn nowMs : UInt64} {nodeId : String}
    {header : Bytes} (h : serializeSegmentHeader segmentId nodeId startLsn nowMs = .ok header) :
    slice segmentHeaderCrcOffset (segmentHeaderCrcOffset + 4) header =
      u32Bytes (computeSegmentHeaderCrc header) := by
  obtain ⟨hnode, rfl⟩ := serializeSegmentHeader_eq_ok h
  have hlen := length_segmentHeaderBlock hnode segmentId startLsn nowMs
  have hinside : ∀ crc : UInt32, segmentHeaderCrcOffset + (u32Bytes crc).length ≤
      (segmentHeaderBlock segmentId (utf8Bytes nodeId) startLsn nowMs).length := by
    intro crc
    rw [hlen, length_u32Bytes]
    decide
  rw [slice_copyAt_self (by rw [length_u32Bytes]) (hinside _)]
  refine congrArg u32Bytes ?_
  rw [computeSegmentHeaderCrc, computeSegmentHeaderCrc,
    slice_copyAt_of_disjoint (Or.inl le_rfl) (hinside _)]

/-- **The header reads back as its fields.** -/
theorem parseSegmentHeader_serializeSegmentHeader (path : String)
    {segmentId startLsn nowMs : UInt64} {nodeId : String} {header : Bytes}
    (h : serializeSegmentHeader segmentId nodeId startLsn nowMs = .ok header) :
    parseSegmentHeader path header = .ok ⟨segmentId, startLsn, nodeId⟩ := by
  have hnode := (serializeSegmentHeader_eq_ok h).1
  simp only [segmentHeaderCrcOffset, segmentNodeIdOffset] at hnode
  have hmagic : slice 0 8 header = segmentMagic :=
    slice_of_serializeSegmentHeader h (by simp [segmentHeaderLayout]) rfl
  have hversion : slice 8 10 header = u16Bytes segmentVersion :=
    slice_of_serializeSegmentHeader h (by simp [segmentHeaderLayout]) rfl
  have hlen : slice 10 12 header = u16Bytes (UInt16.ofNat segmentHeaderLen) :=
    slice_of_serializeSegmentHeader h (by simp [segmentHeaderLayout]) rfl
  have hid : slice 12 20 header = u64Bytes segmentId :=
    slice_of_serializeSegmentHeader h (by simp [segmentHeaderLayout]) rfl
  have hlsn : slice 28 36 header = u64Bytes startLsn :=
    slice_of_serializeSegmentHeader h (by simp [segmentHeaderLayout]) rfl
  have hnodeLen : slice 36 38 header = u16Bytes (UInt16.ofNat (utf8Bytes nodeId).length) :=
    slice_of_serializeSegmentHeader h (by simp [segmentHeaderLayout]) rfl
  have hnodeId : slice segmentNodeIdOffset (segmentNodeIdOffset + (utf8Bytes nodeId).length) header
      = utf8Bytes nodeId :=
    slice_of_serializeSegmentHeader h (by simp [segmentHeaderLayout]) rfl
  have hlength : (UInt16.ofNat (utf8Bytes nodeId).length).toNat = (utf8Bytes nodeId).length := by
    rw [UInt16.toNat_ofNat', Nat.mod_eq_of_lt (by omega)]
  simp only [parseSegmentHeader, hmagic, hversion, hlen, hid, hlsn, hnodeLen, hlength,
    u16OfBytes_u16Bytes, u64OfBytes_u64Bytes, hnodeId, utf8OfBytes_utf8Bytes,
    crc_of_serializeSegmentHeader h, u32OfBytes_u32Bytes, ne_eq, not_true_eq_false, if_false]
  rw [if_neg (by decide), if_neg (by simp only [segmentHeaderCrcOffset, segmentNodeIdOffset]; omega)]

/-- **A written header reads back**, whatever follows it. -/
theorem readSegmentHeader_append (path : String) {segmentId startLsn nowMs : UInt64}
    {nodeId : String} {header : Bytes}
    (h : serializeSegmentHeader segmentId nodeId startLsn nowMs = .ok header) (rest : Bytes) :
    readSegmentHeader path (header ++ rest) = .ok (⟨segmentId, startLsn, nodeId⟩, rest) := by
  rw [readSegmentHeader, readExact_append (length_of_serializeSegmentHeader h)]
  simp only [parseSegmentHeader_serializeSegmentHeader path h]

end Ingest4x.Wal
