import Mathlib.Algebra.Group.Nat.Defs
import Mathlib.Data.List.Basic
import Mathlib.Tactic.Basic

/-! # WAL records and positions

The data of the write-ahead log: the record of one accepted request, the position of a record in the
segment files, and the errors of the file functions.

Counters and file offsets are natural numbers; the fields that are written to disk keep their
machine width. -/

namespace Ingest4x.Wal

/-- File contents. -/
abbrev Bytes : Type := List UInt8

/-! ### Errors -/

/-- The kinds of `io::Error` that the source tells apart; `other` stands for every other kind. -/
inductive IoErrorKind
  | notFound
  | alreadyExists
  | invalidInput
  | invalidData
  | unexpectedEof
  | other
  deriving DecidableEq, Repr

/-- `io::Error`: its kind and its text. -/
structure IoError where
  kind : IoErrorKind
  message : String
  deriving DecidableEq, Repr

namespace IoError

/-- `io::Error::new(InvalidData, ..)`. -/
def invalidData (message : String) : IoError := ⟨.invalidData, message⟩

/-- `io::Error::new(InvalidInput, ..)`. -/
def invalidInput (message : String) : IoError := ⟨.invalidInput, message⟩

/-- `io::Error::other(..)`. -/
def other (message : String) : IoError := ⟨.other, message⟩

end IoError

/-! ### Records -/

/-- `WalHttpEnvelope`: what is kept of the HTTP request. -/
structure WalHttpEnvelope where
  method : String
  path : String
  query : Option String
  remoteAddr : Option String
  headers : List (String × String)
  deriving DecidableEq, Repr

/-- `WalSourceEnvelope`. -/
inductive WalSourceEnvelope
  | http (envelope : WalHttpEnvelope)
  deriving DecidableEq, Repr

/-- `WalEnvelope`. -/
structure WalEnvelope where
  projectId : Int32
  receivedAtMs : UInt64
  source : WalSourceEnvelope
  deriving DecidableEq

/-- **`WalRecord`**: one accepted request. The log assigns `lsn` and `nodeId` on append. -/
structure WalRecord where
  recordId : String
  lsn : UInt64
  nodeId : String
  envelope : WalEnvelope
  payload : Bytes
  deriving DecidableEq

namespace WalRecord

/-- `WalRecord::project_id`. -/
def projectId (record : WalRecord) : Int32 := record.envelope.projectId

/-- `WalRecord::received_at_ms`. -/
def receivedAtMs (record : WalRecord) : UInt64 := record.envelope.receivedAtMs

/-- `WalRecord::http`. -/
def http (record : WalRecord) : WalHttpEnvelope :=
  match record.envelope.source with
  | .http envelope => envelope

end WalRecord

/-- **`WalPosition`**: a log sequence number, a segment and a byte offset in it. -/
structure WalPosition where
  lsn : Nat
  segment : Nat
  offset : Nat
  deriving DecidableEq, Repr

/-- **`WalEntry`**: a record with the position of its frame and the position after it. -/
structure WalEntry where
  position : WalPosition
  nextPosition : WalPosition
  record : WalRecord
  deriving DecidableEq

/-- `WalBounds`: the position of the first record, and the end of the log. -/
structure WalBounds where
  floor : Option WalPosition
  tail : Option WalPosition
  deriving DecidableEq, Repr

/-- `assign_wal_metadata`. -/
def assignWalMetadata (record : WalRecord) (lsn : Nat) (nodeId : String) : WalRecord :=
  { record with lsn := UInt64.ofNat lsn, nodeId := nodeId }

/-- The LSN just assigned is the one read back, as long as it fits the field. -/
theorem assignWalMetadata_lsn {lsn : Nat} (h : lsn < 2 ^ 64) (record : WalRecord)
    (nodeId : String) : (assignWalMetadata record lsn nodeId).lsn.toNat = lsn := by
  rw [assignWalMetadata, UInt64.toNat_ofNat', Nat.mod_eq_of_lt h]

@[simp] theorem assignWalMetadata_nodeId (record : WalRecord) (lsn : Nat) (nodeId : String) :
    (assignWalMetadata record lsn nodeId).nodeId = nodeId := rfl

end Ingest4x.Wal
