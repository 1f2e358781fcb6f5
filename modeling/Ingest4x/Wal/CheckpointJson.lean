import Ingest4x.Effect.Result
import Ingest4x.Wal.Directory
import Ingest4x.Wal.Reference

/-! # The checkpoint file as JSON

The writer and the replay each have a struct of their own for the checkpoint file. They have the same
fields; those of the replay all have defaults, and those of the writer are required but for the sink.

* **`CheckpointJson`** — the JSON crate, on objects and arrays of the fields.
* **`decodeCheckpoint`** — the reader of a struct with these defaults.
* **`writerChecks` / `replayChecks`** — what is checked of a checkpoint that was parsed.
* **`NeedsDefaults`** — the files that only the replay can read.
* **`checkpoint_readers_agree_iff`** — the readers agree on all other files. -/

namespace Ingest4x.Wal

open Bytes

/-! ### The structs and the JSON crate -/

/-- The defaults of the fields of a struct; the sink has one in both. -/
structure CheckpointDefaults where
  version : Option Nat
  nodeId : Option String
  checkpointLsn : Option Nat
  checkpointSegmentId : Option Nat
  checkpointSegmentOffset : Option Nat
  updatedAt : Option Nat
  checksum : Option Nat

/-- The defaults of the replay's `WalCheckpoint`. -/
def replayDefaults : CheckpointDefaults :=
  ⟨some checkpointVersion, some "", some 0, some 0, some 0, some 0, some 0⟩

/-- The writer's `WalCheckpoint` has no defaults. -/
def writerDefaults : CheckpointDefaults := ⟨none, none, none, none, none, none, none⟩

/-- A text, an unsigned integer or null. -/
def IsScalar : Value → Prop
  | .null | .string _ | .number (.posInt _) => True
  | _ => False

/-- **The JSON crate on the checkpoint file**: its reader, with the fields of an object as they stand in
the file, its writer of an object, and its message where a value does not match a struct. Objects of
scalars are read back. -/
class CheckpointJson where
  parse : Bytes → Except String Value
  print : List (String × Value) → Bytes
  message : CheckpointDefaults → Value → String
  parse_print : ∀ fields, (∀ field ∈ fields, IsScalar field.2) →
    parse (print fields) = .ok (.object fields)

/-! ### Reading a struct -/

/-- The fields of `WalCheckpoint`, in order. -/
def checkpointNames : List String :=
  ["version", "node_id", "sink_id", "checkpoint_lsn", "checkpoint_segment_id",
    "checkpoint_segment_offset", "updated_at", "checksum"]

/-- The values of the fields of a struct: by name, where none of them occurs twice and other fields are
ignored, or by position. -/
def fieldValues (names : List String) : Value → Option (List (Option Value))
  | .object fields =>
    if ((fields.map Prod.fst).filter fun name => names.contains name).Nodup then
      some (names.map (Value.object fields).get)
    else none
  | .array items =>
    if items.length ≤ names.length then
      some (items.map some ++ List.replicate (names.length - items.length) none)
    else none
  | _ => none

/-- An unsigned integer of this many bits. -/
def decodeUnsigned (bits : Nat) : Value → Option Nat
  | .number (.posInt n) => if n.toNat < 2 ^ bits then some n.toNat else none
  | _ => none

/-- `Option<String>`. -/
def decodeSinkId : Value → Option (Option String)
  | .null => some none
  | .string sinkId => some (some sinkId)
  | _ => none

/-- A field, with its default if it has one. -/
def readField {α : Type} (decode : Value → Option α) (default : Option α) : Option Value → Option α
  | some value => decode value
  | none => default

/-- **The reader of `WalCheckpoint`** with these defaults. -/
def decodeCheckpoint (defaults : CheckpointDefaults) (value : Value) : Option WalCheckpoint :=
  match fieldValues checkpointNames value with
  | some [version, nodeId, sinkId, lsn, segment, offset, updatedAt, checksum] => do
    let version ← readField (decodeUnsigned 16) defaults.version version
    let nodeId ← readField Value.asStr defaults.nodeId nodeId
    let sinkId ← readField decodeSinkId (some none) sinkId
    let lsn ← readField (decodeUnsigned 64) defaults.checkpointLsn lsn
    let segment ← readField (decodeUnsigned 64) defaults.checkpointSegmentId segment
    let offset ← readField (decodeUnsigned 64) defaults.checkpointSegmentOffset offset
    let updatedAt ← readField (decodeUnsigned 64) defaults.updatedAt updatedAt
    let checksum ← readField (decodeUnsigned 32) defaults.checksum checksum
    return ⟨version, nodeId, sinkId, lsn, segment, offset, updatedAt, UInt32.ofNat checksum⟩
  | _ => none

/-- **No required field is missing.** -/
def Complete (value : Value) : Prop :=
  ∃ values, fieldValues checkpointNames value = some values ∧
    ∀ field ∈ checkpointNames.zip values, field.2 = none → field.1 = "sink_id"

section readField

variable {α : Type} {decode : Value → Option α} {value : Option Value} {a : α}

/-- A field without a default has to be there. -/
theorem ne_none_of_readField (h : readField decode none value = some a) : value ≠ none := by
  rintro rfl
  exact absurd h (by simp [readField])

/-- A field that is there is read the same with every default. -/
theorem readField_eq_of_ne_none (default default' : Option α) (h : value ≠ none) :
    readField decode default value = readField decode default' value := by
  cases value with
  | none => exact absurd rfl h
  | some value => rfl

/-- A field that is read without a default is read the same with one. -/
theorem readField_of_none (default : Option α) (h : readField decode none value = some a) :
    readField decode default value = some a :=
  (readField_eq_of_ne_none default none (ne_none_of_readField h)).trans h

end readField

/-- **The writer's struct refines the replay's**: it is read where the other is and no required field is
missing, with the same values. -/
theorem decodeCheckpoint_writer_iff {value : Value} {checkpoint : WalCheckpoint} :
    decodeCheckpoint writerDefaults value = some checkpoint ↔
      decodeCheckpoint replayDefaults value = some checkpoint ∧ Complete value := by
  rw [decodeCheckpoint, decodeCheckpoint, Complete]
  cases fieldValues checkpointNames value with
  | none => simp
  | some values =>
    match values with
    | [version, nodeId, sinkId, lsn, segment, offset, updatedAt, checksum] =>
      have hcomplete : (∃ values, some [version, nodeId, sinkId, lsn, segment, offset, updatedAt,
            checksum] = some values ∧
          ∀ field ∈ checkpointNames.zip values, field.2 = none → field.1 = "sink_id") ↔
          version ≠ none ∧ nodeId ≠ none ∧ lsn ≠ none ∧ segment ≠ none ∧ offset ≠ none ∧
            updatedAt ≠ none ∧ checksum ≠ none := by
        simp only [Option.some.injEq, exists_eq_left', checkpointNames, List.zip_cons_cons,
          List.zip_nil_right, List.forall_mem_cons, List.not_mem_nil, false_implies, implies_true,
          and_true]
        simp
      rw [hcomplete]
      simp only [Option.bind_eq_bind, Option.bind_eq_some_iff, writerDefaults, replayDefaults,
        Option.pure_def, Option.some.injEq]
      constructor
      · rintro ⟨v, hv, n, hn, s, hs, l, hl, g, hg, o, ho, u, hu, c, hc, rfl⟩
        refine ⟨⟨v, readField_of_none _ hv, n, readField_of_none _ hn, s, hs, l,
          readField_of_none _ hl, g, readField_of_none _ hg, o, readField_of_none _ ho, u,
          readField_of_none _ hu, c, readField_of_none _ hc, rfl⟩, ?_⟩
        exact ⟨ne_none_of_readField hv, ne_none_of_readField hn, ne_none_of_readField hl,
          ne_none_of_readField hg, ne_none_of_readField ho, ne_none_of_readField hu,
          ne_none_of_readField hc⟩
      · rintro ⟨⟨v, hv, n, hn, s, hs, l, hl, g, hg, o, ho, u, hu, c, hc, rfl⟩, hv', hn', hl', hg',
          ho', hu', hc'⟩
        exact ⟨v, (readField_eq_of_ne_none _ _ hv').trans hv, n,
          (readField_eq_of_ne_none _ _ hn').trans hn, s, hs, l,
          (readField_eq_of_ne_none _ _ hl').trans hl, g, (readField_eq_of_ne_none _ _ hg').trans hg, o,
          (readField_eq_of_ne_none _ _ ho').trans ho, u, (readField_eq_of_ne_none _ _ hu').trans hu, c,
          (readField_eq_of_ne_none _ _ hc').trans hc, rfl⟩
    | [] | [_] | [_, _] | [_, _, _] | [_, _, _, _] | [_, _, _, _, _] | [_, _, _, _, _, _]
    | [_, _, _, _, _, _, _] | _ :: _ :: _ :: _ :: _ :: _ :: _ :: _ :: _ :: _ => simp

/-! ### Writing a struct -/

/-- An unsigned integer. -/
def natValue (n : Nat) : Value := .number (.posInt (UInt64.ofNat n))

/-- `WalCheckpointChecksum` as an object; it is the same struct in both modules. -/
def checksumFields (checkpoint : WalCheckpoint) : List (String × Value) :=
  [("version", natValue checkpoint.version), ("node_id", .string checkpoint.nodeId),
    ("sink_id", (checkpoint.sinkId.map Value.string).getD .null),
    ("checkpoint_lsn", natValue checkpoint.checkpointLsn),
    ("checkpoint_segment_id", natValue checkpoint.checkpointSegmentId),
    ("checkpoint_segment_offset", natValue checkpoint.checkpointSegmentOffset),
    ("updated_at", natValue checkpoint.updatedAt)]

/-- `WalCheckpoint` as an object. -/
def checkpointFields (checkpoint : WalCheckpoint) : List (String × Value) :=
  checksumFields checkpoint ++ [("checksum", natValue checkpoint.checksum.toNat)]

/-- The fields of a checkpoint fit their types. -/
structure WalCheckpoint.Fits (checkpoint : WalCheckpoint) : Prop where
  version : checkpoint.version < 2 ^ 16
  checkpointLsn : checkpoint.checkpointLsn < 2 ^ 64
  checkpointSegmentId : checkpoint.checkpointSegmentId < 2 ^ 64
  checkpointSegmentOffset : checkpoint.checkpointSegmentOffset < 2 ^ 64
  updatedAt : checkpoint.updatedAt < 2 ^ 64

/-- An integer that fits is read back. -/
theorem decodeUnsigned_natValue {bits n : Nat} (hbits : bits ≤ 64) (h : n < 2 ^ bits) :
    decodeUnsigned bits (natValue n) = some n := by
  have hle : 2 ^ bits ≤ 2 ^ 64 := Nat.pow_le_pow_right (by decide) hbits
  have hn : (UInt64.ofNat n).toNat = n := UInt64.toNat_ofNat_of_lt (lt_of_lt_of_le h hle)
  rw [natValue, decodeUnsigned, hn, if_pos h]

theorem decodeSinkId_sinkId (sinkId : Option String) :
    decodeSinkId ((sinkId.map Value.string).getD .null) = some sinkId := by
  cases sinkId <;> rfl

/-- The values of the fields that are written. -/
theorem fieldValues_checkpointFields (checkpoint : WalCheckpoint) :
    fieldValues checkpointNames (.object (checkpointFields checkpoint)) =
      some ((checkpointFields checkpoint).map fun field => some field.2) := by
  rw [fieldValues, if_pos]
  · rfl
  · have hnames : (checkpointFields checkpoint).map Prod.fst = checkpointNames := rfl
    rw [hnames]
    decide

/-- **A checkpoint that is written is read back** by both structs. -/
theorem decodeCheckpoint_checkpointFields (defaults : CheckpointDefaults) {checkpoint : WalCheckpoint}
    (h : checkpoint.Fits) :
    decodeCheckpoint defaults (.object (checkpointFields checkpoint)) = some checkpoint := by
  have hchecksum : checkpoint.checksum.toNat < 2 ^ 32 := checkpoint.checksum.toNat_lt
  rw [decodeCheckpoint, fieldValues_checkpointFields]
  simp only [checkpointFields, checksumFields, List.cons_append, List.nil_append, List.map_cons,
    List.map_nil, readField, decodeUnsigned_natValue (by decide : 16 ≤ 64) h.version,
    decodeUnsigned_natValue le_rfl h.checkpointLsn,
    decodeUnsigned_natValue le_rfl h.checkpointSegmentId,
    decodeUnsigned_natValue le_rfl h.checkpointSegmentOffset,
    decodeUnsigned_natValue le_rfl h.updatedAt,
    decodeUnsigned_natValue (by decide : 32 ≤ 64) hchecksum, decodeSinkId_sinkId, Value.asStr,
    Option.bind_eq_bind, Option.bind_some, Option.pure_def, UInt32.ofNat_toNat]

theorem isScalar_checkpointFields (checkpoint : WalCheckpoint) :
    ∀ field ∈ checkpointFields checkpoint, IsScalar field.2 := by
  have hsink : IsScalar ((checkpoint.sinkId.map Value.string).getD .null) := by
    cases checkpoint.sinkId <;> trivial
  simp only [checkpointFields, checksumFields, List.cons_append, List.nil_append,
    List.forall_mem_cons, List.not_mem_nil, false_implies, implies_true, and_true]
  exact ⟨trivial, trivial, hsink, trivial, trivial, trivial, trivial, trivial⟩

/-! ### What the readers check -/

/-- What the writer checks of a checkpoint that was parsed, in its order. -/
def writerChecks (checksumOf : WalCheckpoint → UInt32) (path nodeId : String)
    (checkpoint : WalCheckpoint) : Except IoError WalCheckpoint :=
  let found := checkpoint.nodeId
  let sinkId := debugSinkId checkpoint.sinkId
  if found ≠ nodeId then
    .error (.invalidData s!"checkpoint node_id mismatch: checkpoint={found} current={nodeId}")
  else if checkpoint.sinkId.isSome then
    .error (.invalidData s!"checkpoint sink_id mismatch: checkpoint={sinkId} current=<pipeline>")
  else if checkpoint.checksum ≠ checksumOf checkpoint then
    .error (.invalidData s!"checkpoint checksum mismatch: {path}")
  else
    .ok checkpoint

/-- What the replay checks of a checkpoint that was parsed, in its order. -/
def replayChecks (checksumOf : WalCheckpoint → UInt32) (path : String)
    (nodeId : Except IoError String) (checkpoint : WalCheckpoint) : Except IoError WalPosition :=
  if checkpoint.checksum ≠ checksumOf checkpoint then
    .error (.invalidData s!"checkpoint checksum mismatch: {path}")
  else
    match nodeId with
    | .error error => .error error
    | .ok nodeId =>
      let found := checkpoint.nodeId
      let sinkId := debugSinkId checkpoint.sinkId
      if found ≠ nodeId then
        .error (.invalidData s!"checkpoint node_id mismatch: checkpoint={found} current={nodeId}")
      else if checkpoint.sinkId.isSome then
        .error (.invalidData
          s!"checkpoint sink_id mismatch: checkpoint={sinkId} current=<pipeline>")
      else
        .ok checkpoint.position

/-- The writer's reader checks what it has parsed. -/
theorem readCheckpointFileStrict_eq [RecordCodec] [CheckpointCodec] {file : Bytes}
    {checkpoint : WalCheckpoint} (path nodeId : String)
    (h : CheckpointCodec.fromSliceStrict file = .ok checkpoint) :
    readCheckpointFileStrict path nodeId file =
      writerChecks WalCheckpoint.computeChecksum path nodeId checkpoint := by
  rw [readCheckpointFileStrict, h, writerChecks]

/-- The replay's reader checks what it has parsed. -/
theorem readCheckpointFile_eq [RecordCodec] [CheckpointCodec] {file : Bytes}
    {checkpoint : WalCheckpoint} (path : String) (nodeId : Except IoError String)
    (h : CheckpointCodec.fromSlice file = .ok checkpoint) :
    readCheckpointFile path nodeId file =
      replayChecks WalCheckpoint.computeChecksum path nodeId checkpoint := by
  rw [readCheckpointFile, h]
  rfl

/-- **A checkpoint of the pipeline** of this node. -/
structure IsPipelineCheckpoint (checksumOf : WalCheckpoint → UInt32) (nodeId : String)
    (checkpoint : WalCheckpoint) : Prop where
  checksum : checkpoint.checksum = checksumOf checkpoint
  nodeId : checkpoint.nodeId = nodeId
  sinkId : checkpoint.sinkId = none

/-- The writer accepts the checkpoints of the pipeline. -/
theorem writerChecks_eq_ok_iff {checksumOf : WalCheckpoint → UInt32} {path nodeId : String}
    {checkpoint accepted : WalCheckpoint} :
    writerChecks checksumOf path nodeId checkpoint = .ok accepted ↔
      IsPipelineCheckpoint checksumOf nodeId checkpoint ∧ accepted = checkpoint := by
  constructor
  · intro h
    simp only [writerChecks] at h
    split at h
    · cases h
    · rename_i hnode
      split at h
      · cases h
      · rename_i hsink
        split at h
        · cases h
        · rename_i hchecksum
          injection h with h
          exact ⟨⟨not_not.1 hchecksum, not_not.1 hnode,
            Option.not_isSome_iff_eq_none.1 hsink⟩, h.symm⟩
  · rintro ⟨⟨hchecksum, hnode, hsink⟩, rfl⟩
    rw [writerChecks, if_neg (not_not.2 hnode), if_neg (by rw [hsink]; simp),
      if_neg (not_not.2 hchecksum)]

/-- The replay accepts the checkpoints of the pipeline, although its checks stand in another order. -/
theorem replayChecks_eq_ok_iff {checksumOf : WalCheckpoint → UInt32} {path nodeId : String}
    {checkpoint : WalCheckpoint} {position : WalPosition} :
    replayChecks checksumOf path (.ok nodeId) checkpoint = .ok position ↔
      IsPipelineCheckpoint checksumOf nodeId checkpoint ∧ position = checkpoint.position := by
  constructor
  · intro h
    simp only [replayChecks] at h
    split at h
    · cases h
    · rename_i hchecksum
      split at h
      · cases h
      · rename_i hnode
        split at h
        · cases h
        · rename_i hsink
          injection h with h
          exact ⟨⟨not_not.1 hchecksum, not_not.1 hnode,
            Option.not_isSome_iff_eq_none.1 hsink⟩, h.symm⟩
  · rintro ⟨⟨hchecksum, hnode, hsink⟩, rfl⟩
    simp only [replayChecks]
    rw [if_neg (not_not.2 hchecksum), if_neg (not_not.2 hnode), if_neg (by rw [hsink]; simp)]

/-! ### The readers -/

section Readers

variable [RecordCodec] [CheckpointJson]

/-- `compute_checksum`, which both modules have. -/
def jsonChecksum (checkpoint : WalCheckpoint) : UInt32 :=
  RecordCodec.hash (CheckpointJson.print (checksumFields checkpoint))

/-- `serde_json::from_slice` into a struct with these defaults. -/
def checkpointFromSlice (defaults : CheckpointDefaults) (file : Bytes) :
    Except IoError WalCheckpoint :=
  match CheckpointJson.parse file with
  | .error error => .error (.invalidData error)
  | .ok value =>
    match decodeCheckpoint defaults value with
    | none => .error (.invalidData (CheckpointJson.message defaults value))
    | some checkpoint => .ok checkpoint

/-- **`read_pipeline_checkpoint`** of the writer, on the contents of the file. -/
def writerReads (path nodeId : String) (file : Bytes) : Except IoError WalCheckpoint :=
  checkpointFromSlice writerDefaults file >>= writerChecks jsonChecksum path nodeId

/-- **`read_checkpoint`** of the replay up to its position, on the contents of the file. -/
def replayReads (path : String) (nodeId : Except IoError String) (file : Bytes) :
    Except IoError WalPosition :=
  checkpointFromSlice replayDefaults file >>= replayChecks jsonChecksum path nodeId

/-- **The file that `write_checkpoint` writes** at time `updatedAt`. -/
def writtenCheckpoint (position : WalPosition) (nodeId : String) (updatedAt : Nat) : WalCheckpoint :=
  let checkpoint : WalCheckpoint := {
    version := checkpointVersion
    nodeId := nodeId
    sinkId := none
    checkpointLsn := position.lsn
    checkpointSegmentId := position.segment
    checkpointSegmentOffset := position.offset
    updatedAt := updatedAt
    checksum := 0 }
  { checkpoint with checksum := jsonChecksum checkpoint }

omit [RecordCodec] in
/-- A file is read where it parses to a value of the struct. -/
theorem checkpointFromSlice_eq_ok_iff {defaults : CheckpointDefaults} {file : Bytes}
    {checkpoint : WalCheckpoint} :
    checkpointFromSlice defaults file = .ok checkpoint ↔
      ∃ value, CheckpointJson.parse file = .ok value ∧
        decodeCheckpoint defaults value = some checkpoint := by
  rw [checkpointFromSlice]
  cases CheckpointJson.parse file with
  | error error => simp
  | ok value => cases hdecode : decodeCheckpoint defaults value <;> simp [hdecode]

theorem writerReads_eq_ok_iff {path nodeId : String} {file : Bytes} {checkpoint : WalCheckpoint} :
    writerReads path nodeId file = .ok checkpoint ↔
      ∃ value, CheckpointJson.parse file = .ok value ∧
        decodeCheckpoint writerDefaults value = some checkpoint ∧
          IsPipelineCheckpoint jsonChecksum nodeId checkpoint := by
  constructor
  · intro h
    obtain ⟨parsed, hparsed, hchecks⟩ := Result.bind_eq_ok.1 h
    obtain ⟨hpipeline, rfl⟩ := writerChecks_eq_ok_iff.1 hchecks
    obtain ⟨value, hvalue, hdecode⟩ := checkpointFromSlice_eq_ok_iff.1 hparsed
    exact ⟨value, hvalue, hdecode, hpipeline⟩
  · rintro ⟨value, hvalue, hdecode, hpipeline⟩
    exact Result.bind_eq_ok.2 ⟨checkpoint, checkpointFromSlice_eq_ok_iff.2 ⟨value, hvalue, hdecode⟩,
      writerChecks_eq_ok_iff.2 ⟨hpipeline, rfl⟩⟩

theorem replayReads_eq_ok_iff {path nodeId : String} {file : Bytes} {position : WalPosition} :
    replayReads path (.ok nodeId) file = .ok position ↔
      ∃ value checkpoint, CheckpointJson.parse file = .ok value ∧
        decodeCheckpoint replayDefaults value = some checkpoint ∧
          IsPipelineCheckpoint jsonChecksum nodeId checkpoint ∧ checkpoint.position = position := by
  constructor
  · intro h
    obtain ⟨parsed, hparsed, hchecks⟩ := Result.bind_eq_ok.1 h
    obtain ⟨hpipeline, rfl⟩ := replayChecks_eq_ok_iff.1 hchecks
    obtain ⟨value, hvalue, hdecode⟩ := checkpointFromSlice_eq_ok_iff.1 hparsed
    exact ⟨value, parsed, hvalue, hdecode, hpipeline, rfl⟩
  · rintro ⟨value, checkpoint, hvalue, hdecode, hpipeline, rfl⟩
    exact Result.bind_eq_ok.2 ⟨checkpoint, checkpointFromSlice_eq_ok_iff.2 ⟨value, hvalue, hdecode⟩,
      replayChecks_eq_ok_iff.2 ⟨hpipeline, rfl⟩⟩

/-! ### Agreement -/

/-- A checkpoint that is written is one of the pipeline. -/
theorem isPipelineCheckpoint_writtenCheckpoint (position : WalPosition) (nodeId : String)
    (updatedAt : Nat) :
    IsPipelineCheckpoint jsonChecksum nodeId (writtenCheckpoint position nodeId updatedAt) :=
  ⟨rfl, rfl, rfl⟩

/-- The checkpoint that `WalCheckpoint::new` builds, where its checksum is that of the JSON. -/
theorem new_eq_writtenCheckpoint [CheckpointCodec]
    (h : ∀ checkpoint : WalCheckpoint, checkpoint.computeChecksum = jsonChecksum checkpoint)
    (position : WalPosition) (nodeId : String) (updatedAt : Nat) :
    WalCheckpoint.new position nodeId none updatedAt =
      writtenCheckpoint position nodeId updatedAt := by
  rw [WalCheckpoint.new, writtenCheckpoint, h]

/-- A position that fits the types of the source. -/
structure WalPosition.Fits (position : WalPosition) : Prop where
  lsn : position.lsn < 2 ^ 64
  segment : position.segment < 2 ^ 64
  offset : position.offset < 2 ^ 64

/-- The file of a checkpoint that is written is read back by both structs. -/
theorem checkpointFromSlice_writtenCheckpoint (defaults : CheckpointDefaults)
    {position : WalPosition} (nodeId : String) {updatedAt : Nat} (hposition : position.Fits)
    (hupdated : updatedAt < 2 ^ 64) :
    checkpointFromSlice defaults
        (CheckpointJson.print (checkpointFields (writtenCheckpoint position nodeId updatedAt))) =
      .ok (writtenCheckpoint position nodeId updatedAt) := by
  have hfits : (writtenCheckpoint position nodeId updatedAt).Fits :=
    ⟨(by decide : checkpointVersion < 2 ^ 16), hposition.lsn, hposition.segment, hposition.offset,
      hupdated⟩
  exact checkpointFromSlice_eq_ok_iff.2 ⟨_, CheckpointJson.parse_print _
    (isScalar_checkpointFields _), decodeCheckpoint_checkpointFields defaults hfits⟩

/-- **The readers agree on a file**: one accepts it where the other does, with the same position. -/
def ReadersAgree (path nodeId : String) (file : Bytes) : Prop :=
  ∀ position, replayReads path (.ok nodeId) file = .ok position ↔
    ∃ checkpoint, writerReads path nodeId file = .ok checkpoint ∧ checkpoint.position = position

/-- **The file needs the defaults**: a required field is missing, and with the replay's defaults it is a
checkpoint of the pipeline. -/
def NeedsDefaults (nodeId : String) (file : Bytes) : Prop :=
  ∃ value checkpoint, CheckpointJson.parse file = .ok value ∧ ¬Complete value ∧
    decodeCheckpoint replayDefaults value = some checkpoint ∧
      IsPipelineCheckpoint jsonChecksum nodeId checkpoint

/-- What the writer accepts, the replay accepts. -/
theorem replayReads_of_writerReads {path nodeId : String} {file : Bytes} {checkpoint : WalCheckpoint}
    (h : writerReads path nodeId file = .ok checkpoint) :
    replayReads path (.ok nodeId) file = .ok checkpoint.position := by
  obtain ⟨value, hvalue, hdecode, hpipeline⟩ := writerReads_eq_ok_iff.1 h
  exact replayReads_eq_ok_iff.2
    ⟨value, checkpoint, hvalue, (decodeCheckpoint_writer_iff.1 hdecode).1, hpipeline, rfl⟩

/-- **The readers agree exactly on the files that need no defaults.** -/
theorem readersAgree_iff (path nodeId : String) (file : Bytes) :
    ReadersAgree path nodeId file ↔ ¬NeedsDefaults nodeId file := by
  constructor
  · rintro hagree ⟨value, checkpoint, hvalue, hcomplete, hdecode, hpipeline⟩
    obtain ⟨accepted, haccepted, -⟩ := (hagree checkpoint.position).1
      (replayReads_eq_ok_iff.2 ⟨value, checkpoint, hvalue, hdecode, hpipeline, rfl⟩)
    obtain ⟨value', hvalue', hwriter, -⟩ := writerReads_eq_ok_iff.1 haccepted
    obtain rfl : value = value' := Except.ok.inj (hvalue.symm.trans hvalue')
    exact hcomplete (decodeCheckpoint_writer_iff.1 hwriter).2
  · intro hneeds position
    constructor
    · intro h
      obtain ⟨value, checkpoint, hvalue, hdecode, hpipeline, hposition⟩ := replayReads_eq_ok_iff.1 h
      have hcomplete : Complete value := by
        by_contra hcomplete
        exact hneeds ⟨value, checkpoint, hvalue, hcomplete, hdecode, hpipeline⟩
      exact ⟨checkpoint, writerReads_eq_ok_iff.2
        ⟨value, hvalue, decodeCheckpoint_writer_iff.2 ⟨hdecode, hcomplete⟩, hpipeline⟩, hposition⟩
    · rintro ⟨checkpoint, hchecks, rfl⟩
      exact replayReads_of_writerReads hchecks

/-- **The two readers of the checkpoint file**: both read back the position that is written, and they
agree on a file exactly where it does not need the replay's defaults. -/
theorem checkpoint_readers_agree_iff :
    (∀ (path nodeId : String) (position : WalPosition) (updatedAt : Nat), position.Fits →
      updatedAt < 2 ^ 64 →
        let checkpoint := writtenCheckpoint position nodeId updatedAt
        let file := CheckpointJson.print (checkpointFields checkpoint)
        replayReads path (.ok nodeId) file = .ok position ∧
          writerReads path nodeId file = .ok checkpoint ∧ checkpoint.position = position) ∧
      ∀ (path nodeId : String) (file : Bytes),
        ReadersAgree path nodeId file ↔ ¬NeedsDefaults nodeId file := by
  refine ⟨fun path nodeId position updatedAt hposition hupdated => ?_, readersAgree_iff⟩
  have hwriter : writerReads path nodeId
      (CheckpointJson.print (checkpointFields (writtenCheckpoint position nodeId updatedAt))) =
        .ok (writtenCheckpoint position nodeId updatedAt) :=
    Result.bind_eq_ok.2 ⟨_, checkpointFromSlice_writtenCheckpoint _ nodeId hposition hupdated,
      writerChecks_eq_ok_iff.2 ⟨isPipelineCheckpoint_writtenCheckpoint position nodeId updatedAt, rfl⟩⟩
  exact ⟨replayReads_of_writerReads hwriter, hwriter, rfl⟩

end Readers

/-! ### A reference JSON -/

/-- A scalar as its kind, its text and its number. -/
def scalarCode : Value → UInt8 × String × UInt64
  | .string text => (1, text, 0)
  | .number (.posInt n) => (2, "", n)
  | _ => (0, "", 0)

/-- The scalar of a code. -/
def scalarValue : UInt8 × String × UInt64 → Value
  | (1, text, _) => .string text
  | (2, _, n) => .number (.posInt n)
  | _ => .null

theorem scalarValue_scalarCode {value : Value} (h : IsScalar value) :
    scalarValue (scalarCode value) = value := by
  match value, h with
  | .null, _ => rfl
  | .string _, _ => rfl
  | .number (.posInt _), _ => rfl

/-- The format of an object. -/
def fieldsWire : Wire (List (String × UInt8 × String × UInt64)) :=
  (Wire.string.pair (Wire.byte.pair (Wire.string.pair Wire.u64))).list

/-- **A reference JSON**, of objects of scalars. -/
@[reducible] def referenceCheckpointJson : CheckpointJson where
  parse bytes :=
    match fieldsWire.parse bytes with
    | some fields => .ok (.object (fields.map fun field => (field.1, scalarValue field.2)))
    | none => .error "expected value at line 1 column 1"
  print fields := fieldsWire.encode (fields.map fun field => (field.1, scalarCode field.2))
  message _ _ := "missing field"
  parse_print fields h := by
    have hfields : fields.map (fun field => (field.1, scalarValue (scalarCode field.2))) = fields := by
      conv_rhs => rw [← List.map_id fields]
      exact List.map_congr_left fun field hfield => by
        rw [scalarValue_scalarCode (h field hfield), id]
    rw [Wire.parse_encode]
    simp only [List.map_map]
    exact congrArg (fun fields => Except.ok (Value.object fields)) hfields

section Sample

attribute [local instance] referenceCodec referenceCheckpointJson

/-- The checkpoint of position 1 in segment 1, written at time 0. -/
def sampleCheckpoint : WalCheckpoint := writtenCheckpoint ⟨1, 1, 0⟩ "n" 0

/-- A file that lacks the time: only the replay has a default for it. -/
def fileWithoutTime : Bytes :=
  CheckpointJson.print ((checkpointFields sampleCheckpoint).filter fun field => field.1 ≠ "updated_at")

theorem checkpoint_readers_agree_iff_sample :
    replayReads "wal/checkpoint.json" (.ok "n")
        (CheckpointJson.print (checkpointFields sampleCheckpoint)) = .ok ⟨1, 1, 0⟩ :=
  (checkpoint_readers_agree_iff.1 "wal/checkpoint.json" "n" ⟨1, 1, 0⟩ 0
    ⟨by decide, by decide, by decide⟩ (by decide)).1

/-- **The replay accepts a file that stops the writer from starting.** -/
theorem checkpoint_readers_disagree :
    (replayReads "wal/checkpoint.json" (.ok "n") fileWithoutTime).toOption = some ⟨1, 1, 0⟩ ∧
      (writerReads "wal/checkpoint.json" "n" fileWithoutTime).toOption = none ∧
        ¬ReadersAgree "wal/checkpoint.json" "n" fileWithoutTime := by
  have hreplay : (replayReads "wal/checkpoint.json" (.ok "n") fileWithoutTime).toOption =
      some ⟨1, 1, 0⟩ := by decide +kernel
  have hwriter : (writerReads "wal/checkpoint.json" "n" fileWithoutTime).toOption = none := by
    decide +kernel
  refine ⟨hreplay, hwriter, fun hagree => ?_⟩
  cases hread : replayReads "wal/checkpoint.json" (.ok "n") fileWithoutTime with
  | error error => simp [hread, Except.toOption] at hreplay
  | ok position =>
    obtain ⟨checkpoint, hchecks, -⟩ := (hagree position).1 hread
    simp [hchecks, Except.toOption] at hwriter

end Sample

end Ingest4x.Wal
