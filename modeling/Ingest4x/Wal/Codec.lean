import Ingest4x.Bytes.Layout
import Ingest4x.Wal.Record

/-! # Frames and segment headers

The bytes of the log. A segment file is a header of fixed length followed by record frames; a frame
is a fixed header, the node id and the bitcode payload of the record.

* **`RecordCodec`** — the parts of the format that come from other crates: bitcode and crc32.
* **`serializeFrame` / `readRecordFrame`** — writing one record and reading one record.
* **`serializeSegmentHeader` / `readSegmentHeader`** — the same for the header of a segment.

The readers give the same errors in the same order as the source. Reading past the end of the file
inside a frame is not an error: the frame is a torn tail and reads as `none`. -/

namespace Ingest4x.Wal

open Bytes

/-- **The external codecs**: `bitcode::serialize` / `bitcode::deserialize` of a `WalRecord`, which
round-trip, and `crc32fast::hash`. -/
class RecordCodec where
  serialize : WalRecord → Except String Bytes
  deserialize : Bytes → Except String WalRecord
  deserialize_serialize :
    ∀ {record : WalRecord} {bytes : Bytes}, serialize record = .ok bytes →
      deserialize bytes = .ok record
  hash : Bytes → UInt32

variable [RecordCodec]

/-! ### Constants -/

/-- `SEGMENT_MAGIC = b"i4x.seg\0"`. -/
def segmentMagic : Bytes := [0x69, 0x34, 0x78, 0x2e, 0x73, 0x65, 0x67, 0]

/-- `SEGMENT_VERSION`. -/
def segmentVersion : UInt16 := 1

/-- `SEGMENT_HEADER_LEN`. -/
def segmentHeaderLen : Nat := 512

/-- `SEGMENT_HEADER_CRC_OFFSET`. -/
def segmentHeaderCrcOffset : Nat := 508

/-- `SEGMENT_NODE_ID_OFFSET`. -/
def segmentNodeIdOffset : Nat := 38

/-- `RECORD_MAGIC = b"i4x.rec\0"`. -/
def recordMagic : Bytes := [0x69, 0x34, 0x78, 0x2e, 0x72, 0x65, 0x63, 0]

/-- `RECORD_VERSION`. -/
def recordVersion : UInt16 := 1

/-- `RECORD_TYPE_DATA`. -/
def recordTypeData : UInt8 := 1

/-- `RECORD_FLAGS_NONE`. -/
def recordFlagsNone : UInt8 := 0

/-- `RECORD_HEADER_FIXED_LEN`. -/
def recordHeaderFixedLen : Nat := 42

/-! ### Record frames -/

/-- **`serialize_frame`.** -/
def serializeFrame (record : WalRecord) : Except IoError Bytes :=
  match RecordCodec.serialize record with
  | .error error => .error (.other error)
  | .ok payload =>
    let nodeId := utf8Bytes record.nodeId
    if 2 ^ 32 ≤ payload.length then
      .error (.invalidInput "wal record payload is larger than u32::MAX")
    else if 2 ^ 16 ≤ nodeId.length then
      .error (.invalidInput "wal record node_id is larger than u16::MAX")
    else if 2 ^ 16 ≤ recordHeaderFixedLen + nodeId.length then
      .error (.invalidInput "wal record header is larger than u16::MAX")
    else
      .ok (recordMagic ++ u16Bytes recordVersion
        ++ u16Bytes (UInt16.ofNat (recordHeaderFixedLen + nodeId.length))
        ++ [recordTypeData] ++ [recordFlagsNone] ++ [0, 0]
        ++ u64Bytes record.lsn ++ u64Bytes record.receivedAtMs
        ++ u16Bytes (UInt16.ofNat nodeId.length) ++ u32Bytes (UInt32.ofNat payload.length)
        ++ u32Bytes (RecordCodec.hash payload) ++ nodeId ++ payload)

/-- The fields of the fixed part of a frame header. -/
structure FrameHeader where
  version : UInt16
  headerLen : Nat
  lsn : UInt64
  receivedAtMs : UInt64
  nodeIdLen : Nat
  payloadLen : Nat
  expectedCrc : UInt32

/-- The checks of `read_record_frame` on the 34 bytes after the magic. -/
def parseFrameHeader (path : String) (fixed : Bytes) : Except IoError FrameHeader :=
  let version := u16OfBytes (slice 0 2 fixed)
  let headerLen := (u16OfBytes (slice 2 4 fixed)).toNat
  let recordType := fixed.getD 4 0
  let flags := fixed.getD 5 0
  let nodeIdLen := (u16OfBytes (slice 24 26 fixed)).toNat
  if version ≠ recordVersion then
    .error (.invalidData s!"unsupported wal record version {version}: {path}")
  else if headerLen < recordHeaderFixedLen then
    .error (.invalidData s!"invalid wal record header length: {path}")
  else if recordType ≠ recordTypeData then
    .error (.invalidData s!"unsupported wal record type {recordType}: {path}")
  else if flags ≠ recordFlagsNone then
    .error (.invalidData s!"unsupported wal record flags {flags}: {path}")
  else if headerLen ≠ recordHeaderFixedLen + nodeIdLen then
    .error (.invalidData s!"wal record header length mismatch: {path}")
  else
    .ok {
      version := version
      headerLen := headerLen
      lsn := u64OfBytes (slice 8 16 fixed)
      receivedAtMs := u64OfBytes (slice 16 24 fixed)
      nodeIdLen := nodeIdLen
      payloadLen := (u32OfBytes (slice 26 30 fixed)).toNat
      expectedCrc := u32OfBytes (slice 30 34 fixed) }

/-- The checks of `read_record_frame` on the payload. -/
def parseFramePayload (path : String) (header : FrameHeader) (nodeId : String) (payload : Bytes) :
    Except IoError WalRecord :=
  if RecordCodec.hash payload ≠ header.expectedCrc then
    .error (.invalidData s!"wal frame crc mismatch: {path}")
  else
    match RecordCodec.deserialize payload with
    | .error error =>
      let version := header.version
      .error (.invalidData (
        s!"wal record payload is not compatible with this ingest4x version: {error}; " ++
        s!"segment={path}; record_version={version}; payload_codec=bitcode(WalRecord); " ++
        "this usually means the WAL was written with a different WalRecord schema and " ++
        "there is no payload schema version marker yet; use a compatible WAL migration or " ++
        "drain/remove old WAL only after confirming pending events are no longer needed"))
    | .ok record =>
      if record.lsn ≠ header.lsn then
        .error (.invalidData s!"wal record lsn mismatch: {path}")
      else if record.receivedAtMs ≠ header.receivedAtMs then
        .error (.invalidData s!"wal record timestamp mismatch: {path}")
      else if record.nodeId ≠ nodeId then
        .error (.invalidData s!"wal record node_id mismatch: {path}")
      else
        .ok record

/-- **`read_record_frame`.** The record at the front of the reader, the offset after its frame and
the rest of the reader; `none` where the file ends inside the frame. -/
def readRecordFrame (path : String) (frameStart : Nat) (reader : Bytes) :
    Except IoError (Option (WalRecord × Nat × Bytes)) :=
  match readExact 8 reader with
  | none => .ok none
  | some (magic, reader) =>
    if magic ≠ recordMagic then
      .error (.invalidData s!"invalid wal record magic: {path}")
    else
      match readExact (recordHeaderFixedLen - 8) reader with
      | none => .ok none
      | some (fixed, reader) =>
        match parseFrameHeader path fixed with
        | .error error => .error error
        | .ok header =>
          match readExact header.nodeIdLen reader with
          | none => .ok none
          | some (nodeIdBytes, reader) =>
            match utf8OfBytes nodeIdBytes with
            | none => .error (.invalidData "invalid wal record node_id: invalid utf-8 sequence")
            | some nodeId =>
              match readExact header.payloadLen reader with
              | none => .ok none
              | some (payload, reader) =>
                match parseFramePayload path header nodeId payload with
                | .error error => .error error
                | .ok record =>
                  .ok (some (record, frameStart + header.headerLen + header.payloadLen, reader))

/-! ### Segment headers -/

/-- `SegmentHeader`. -/
structure SegmentHeader where
  segmentId : UInt64
  startLsn : UInt64
  nodeId : String
  deriving DecidableEq

/-- `compute_segment_header_crc`. -/
def computeSegmentHeaderCrc (header : Bytes) : UInt32 :=
  RecordCodec.hash (slice 0 segmentHeaderCrcOffset header)

/-- The fields of a header and their offsets; the rest of the block is zero. -/
def segmentHeaderLayout (segmentId : UInt64) (nodeId : Bytes) (startLsn nowMs : UInt64) :
    List (Nat × Bytes) :=
  [(0, segmentMagic),
    (8, u16Bytes segmentVersion),
    (10, u16Bytes (UInt16.ofNat segmentHeaderLen)),
    (12, u64Bytes segmentId),
    (20, u64Bytes nowMs),
    (28, u64Bytes startLsn),
    (36, u16Bytes (UInt16.ofNat nodeId.length)),
    (segmentNodeIdOffset, nodeId)]

/-- The header block before the checksum is filled in. -/
def segmentHeaderBlock (segmentId : UInt64) (nodeId : Bytes) (startLsn nowMs : UInt64) : Bytes :=
  writeFields (segmentHeaderLayout segmentId nodeId startLsn nowMs)
    (List.replicate segmentHeaderLen 0)

/-- **`serialize_segment_header`**, written at time `nowMs`. -/
def serializeSegmentHeader (segmentId : UInt64) (nodeId : String) (startLsn nowMs : UInt64) :
    Except IoError Bytes :=
  let nodeIdBytes := utf8Bytes nodeId
  let maxNodeIdLen := segmentHeaderCrcOffset - segmentNodeIdOffset
  if maxNodeIdLen < nodeIdBytes.length then
    .error (.invalidInput s!"wal segment node_id is longer than {maxNodeIdLen} bytes")
  else
    let header := segmentHeaderBlock segmentId nodeIdBytes startLsn nowMs
    .ok (copyAt segmentHeaderCrcOffset (u32Bytes (computeSegmentHeaderCrc header)) header)

/-- The checks of `read_segment_header` on the header block. -/
def parseSegmentHeader (path : String) (header : Bytes) : Except IoError SegmentHeader :=
  let version := u16OfBytes (slice 8 10 header)
  let nodeIdEnd := segmentNodeIdOffset + (u16OfBytes (slice 36 38 header)).toNat
  if slice 0 8 header ≠ segmentMagic then
    .error (.invalidData s!"invalid wal segment identifier: {path}")
  else if version ≠ segmentVersion then
    .error (.invalidData s!"unsupported wal segment version {version}: {path}")
  else if (u16OfBytes (slice 10 12 header)).toNat ≠ segmentHeaderLen then
    .error (.invalidData s!"invalid wal segment header length: {path}")
  else if computeSegmentHeaderCrc header
      ≠ u32OfBytes (slice segmentHeaderCrcOffset (segmentHeaderCrcOffset + 4) header) then
    .error (.invalidData s!"wal segment header crc mismatch: {path}")
  else if segmentHeaderCrcOffset < nodeIdEnd then
    .error (.invalidData s!"invalid wal segment node_id length: {path}")
  else
    match utf8OfBytes (slice segmentNodeIdOffset nodeIdEnd header) with
    | none => .error (.invalidData "invalid wal segment node_id: invalid utf-8 sequence")
    | some nodeId =>
      .ok {
        segmentId := u64OfBytes (slice 12 20 header)
        startLsn := u64OfBytes (slice 28 36 header)
        nodeId := nodeId }

/-- **`read_segment_header`**, with the rest of the reader. -/
def readSegmentHeader (path : String) (reader : Bytes) : Except IoError (SegmentHeader × Bytes) :=
  match readExact segmentHeaderLen reader with
  | none => .error ⟨.unexpectedEof, "failed to fill whole buffer"⟩
  | some (block, reader) =>
    match parseSegmentHeader path block with
    | .error error => .error error
    | .ok header => .ok (header, reader)

end Ingest4x.Wal
