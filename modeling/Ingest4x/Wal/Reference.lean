import Ingest4x.Bytes.Wire
import Ingest4x.Json
import Ingest4x.Settings
import Ingest4x.Wal.Checkpoint
import Ingest4x.Wal.Frame

/-! # Reference codecs

Concrete codecs, to run the model on examples: the CRC-32 of the source's crate, and formats that,
like those of the crates, write every record and every checkpoint and read them back. Of JSON and of
durations they know the few texts that the examples use. -/

namespace Ingest4x.Wal

open Bytes

/-! ### CRC-32 -/

/-- One bit of the reflected CRC-32. -/
def crcBit (crc : Nat) : Nat := (crc / 2) ^^^ (0xEDB88320 * (crc % 2))

/-- One byte of the reflected CRC-32. -/
def crcByte (crc : Nat) (byte : UInt8) : Nat :=
  crcBit (crcBit (crcBit (crcBit (crcBit (crcBit (crcBit (crcBit (crc ^^^ byte.toNat))))))))

/-- **CRC-32** (`crc32fast::hash`). -/
def crc32 (bytes : Bytes) : UInt32 :=
  UInt32.ofNat (bytes.foldl crcByte 0xFFFFFFFF ^^^ 0xFFFFFFFF)

/-- The check value of CRC-32, of the text "123456789". -/
example : crc32 [0x31, 0x32, 0x33, 0x34, 0x35, 0x36, 0x37, 0x38, 0x39] = 0xCBF43926 := by
  decide +kernel

/-! ### Payloads -/

/-- The format of `project_id`. -/
def int32Wire : Wire Int32 :=
  Wire.u64.conv (fun n => n.toUInt32.toUInt64) (fun n => some n.toUInt32.toInt32) (by simp)

/-- The format of the HTTP envelope. -/
def httpEnvelopeWire : Wire WalHttpEnvelope :=
  (Wire.string.pair (Wire.string.pair (Wire.string.option.pair (Wire.string.option.pair
    (Wire.string.pair Wire.string).list)))).conv
    (fun http => (http.method, http.path, http.query, http.remoteAddr, http.headers))
    (fun (method, path, query, remoteAddr, headers) =>
      some ⟨method, path, query, remoteAddr, headers⟩)
    (fun _ => rfl)

/-- The format of a record. -/
def recordWire : Wire WalRecord :=
  (Wire.string.pair (Wire.u64.pair (Wire.string.pair (int32Wire.pair (Wire.u64.pair
    (httpEnvelopeWire.pair Wire.byte.list)))))).conv
    (fun record => (record.recordId, record.lsn, record.nodeId, record.projectId,
      record.receivedAtMs, record.http, record.payload))
    (fun (recordId, lsn, nodeId, projectId, receivedAtMs, http, payload) =>
      some ⟨recordId, lsn, nodeId, ⟨projectId, receivedAtMs, .http http⟩, payload⟩)
    (fun ⟨_, _, _, ⟨_, _, .http _⟩, _⟩ => rfl)

/-- **The reference codec.** -/
@[reducible] def referenceCodec : RecordCodec where
  serialize record := .ok (recordWire.encode record)
  deserialize bytes :=
    match recordWire.parse bytes with
    | some record => .ok record
    | none => .error "invalid payload"
  deserialize_serialize h := by
    injection h with h
    rw [← h, Wire.parse_encode]
  hash := crc32

/-! ### Checkpoints -/

/-- The format of a checkpoint without its checksum. -/
def checksumWire : Wire WalCheckpointChecksum :=
  (Wire.nat.pair (Wire.string.pair (Wire.string.option.pair (Wire.nat.pair (Wire.nat.pair
    (Wire.nat.pair Wire.nat)))))).conv
    (fun c => (c.version, c.nodeId, c.sinkId, c.checkpointLsn, c.checkpointSegmentId,
      c.checkpointSegmentOffset, c.updatedAt))
    (fun (version, nodeId, sinkId, lsn, segment, offset, updatedAt) =>
      some ⟨version, nodeId, sinkId, lsn, segment, offset, updatedAt⟩)
    (fun _ => rfl)

/-- The format of a checkpoint. -/
def checkpointWire : Wire WalCheckpoint :=
  (checksumWire.pair Wire.nat).conv
    (fun c => (⟨c.version, c.nodeId, c.sinkId, c.checkpointLsn, c.checkpointSegmentId,
      c.checkpointSegmentOffset, c.updatedAt⟩, c.checksum.toNat))
    (fun (c, checksum) => some ⟨c.version, c.nodeId, c.sinkId, c.checkpointLsn,
      c.checkpointSegmentId, c.checkpointSegmentOffset, c.updatedAt, UInt32.ofNat checksum⟩)
    (fun c => by simp)

/-- Read a checkpoint. -/
def parseCheckpoint (file : Bytes) : Except String WalCheckpoint :=
  match checkpointWire.parse file with
  | some checkpoint => .ok checkpoint
  | none => .error "invalid checkpoint"

/-- **The reference form of a checkpoint.** -/
@[reducible] def referenceCheckpointCodec : CheckpointCodec where
  toVec := checkpointWire.encode
  checksumToVec := checksumWire.encode
  fromSlice := parseCheckpoint
  fromSliceStrict := parseCheckpoint
  fromSlice_toVec checkpoint := by rw [parseCheckpoint, Wire.parse_encode]
  fromSliceStrict_toVec checkpoint := by rw [parseCheckpoint, Wire.parse_encode]

/-! ### Durations and JSON -/

/-- **Durations** of whole seconds or milliseconds, such as `5s` and `100ms`. -/
@[reducible] def referenceDurationCodec : DurationCodec where
  parseDuration text :=
    let digits := text.toList.takeWhile Char.isDigit
    let number := digits.foldl (fun n c => 10 * n + (c.toNat - 48)) 0
    match digits, text.toList.dropWhile Char.isDigit with
    | _ :: _, ['s'] => .ok (number * 1000 * millisecond)
    | _ :: _, ['m', 's'] => .ok (number * millisecond)
    | _, _ => .error "expected number at 0"

/-- **JSON**: the empty object, and values without strings and fields. -/
@[reducible] def referenceJsonCodec : JsonCodec where
  fromSlice bytes :=
    if bytes = utf8Bytes "{}" then .ok (.object [])
    else .error "expected value at line 1 column 1"
  toVec
    | .null => .ok (utf8Bytes "null")
    | .bool true => .ok (utf8Bytes "true")
    | .bool false => .ok (utf8Bytes "false")
    | .object [] => .ok (utf8Bytes "{}")
    | .array [] => .ok (utf8Bytes "[]")
    | .number (.posInt n) => .ok (utf8Bytes (toString n))
    | _ => .error "unsupported value"

/-! ### Sample records -/

/-- A small record, as `new_record` builds it, with an empty object as its payload. -/
def sampleRecord (recordId : String) : WalRecord :=
  { recordId := recordId
    lsn := 0
    nodeId := ""
    envelope := ⟨1, 0, .http ⟨"GET", "/", none, none, []⟩⟩
    payload := utf8Bytes "\x7b\x7d" }

end Ingest4x.Wal
