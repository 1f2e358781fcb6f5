import Ingest4x.Wal.Reference
import Ingest4x.Wal.System

/-! # Running the system

An environment that computes: every operation succeeds, except for those that a function makes fail.
An execution under it is a run under `sysEnv`, so a concrete run can be evaluated.

* **`sysAnswer fails`** — the answer to an operation and the world after it; a failed operation
  leaves the files unchanged.
* **`sysAnswer_sysEnv`** — the answers are allowed.
* **`sampleFile`**, **`sampleWorld`** — small logs to run the model on. -/

namespace Ingest4x.Wal

open Effect

/-- A file operation: it fails and changes nothing, or it leaves `done`. -/
def answerFile (error : Option IoError) (w done : World) : Except IoError Unit × World :=
  match error with
  | some error => (.error error, w)
  | none => (.ok (), done)

/-- A file operation on a segment that must be there. -/
def answerSegment (error : Option IoError) (w : World) (segmentId : Nat) (done : World) :
    Except IoError Unit × World :=
  if w.dir.segments.lookup segmentId = none then (.error notFoundError, w)
  else answerFile error w done

/-- An operation that reads a value. -/
def answerRead {α : Type} (error : Option IoError) (w : World) (value : α) :
    Except IoError α × World :=
  match error with
  | some error => (.error error, w)
  | none => (.ok value, w)

/-- A batch passed to a sink. -/
def answerSend (error : Option IoError) (w : World) (sink : String) (events : List Value)
    (metadata : EventSinkBatchMetadata) : Except String Unit × World :=
  match error with
  | some error =>
    (.error error.message, w.record (.sent sink events metadata (.error error.message)))
  | none => (.ok (), w.record (.sent sink events metadata (.ok ())))

/-- The node id that the system generates. -/
def sampleUuid : String := "00000000-0000-4000-8000-000000000000"

/-- **The answers of a system** in which the operations that `fails` gives an error for fail. -/
def sysAnswer (fails : SysOp → Option IoError) : (o : SysOp) → World → SysResp o × World
  | .createDirAll, w => answerFile (fails .createDirAll) w w
  | .acquireWalLock, w => answerFile (fails .acquireWalLock) w w
  | .readDir, w => answerRead (fails .readDir) w w.dir
  | .nowMs, w => (0, w)
  | .instantNow, w => (w.clock w.ticks, { w with ticks := w.ticks + 1 })
  | .availableSpace, w => answerRead (fails .availableSpace) w 0
  | .newUuid, w => (sampleUuid, w)
  | .writeNodeIdFile nodeId, w =>
    answerFile (fails (.writeNodeIdFile nodeId)) w
      { w with dir := { w.dir with nodeIdFile := some (nodeId ++ "\n") } }
  | .createSegment site segmentId header, w =>
    answerFile (fails (.createSegment site segmentId header)) w
      (w.withSegments (w.dir.segments.insert segmentId (.created header)))
  | .removeSegment site segmentId, w =>
    answerSegment (fails (.removeSegment site segmentId)) w segmentId
      (w.withSegments (w.dir.segments.erase segmentId))
  | .syncDirectory site, w => answerFile (fails (.syncDirectory site)) w w
  | .appendSegment segmentId bytes, w =>
    answerSegment (fails (.appendSegment segmentId bytes)) w segmentId
      (w.withSegments (w.dir.segments.modify segmentId (·.append bytes)))
  | .syncSegment segmentId, w =>
    answerSegment (fails (.syncSegment segmentId)) w segmentId
      (w.withSegments (w.dir.segments.modify segmentId .sync))
  | .truncateSegment site segmentId len, w =>
    answerSegment (fails (.truncateSegment site segmentId len)) w segmentId
      (w.withSegments (w.dir.segments.modify segmentId fun file => (file.truncate len).sync))
  | .writeCheckpointFile file, w =>
    answerFile (fails (.writeCheckpointFile file)) w
      { w with dir := { w.dir with checkpointFile := some file } }
  | .respond channel record result, w => ((), w.record (.responded channel record result))
  | .sendBatch sink events metadata, w =>
    answerSend (fails (.sendBatch sink events metadata)) w sink events metadata
  | .quarantine entry issue, w => ((), w.record (.quarantined entry issue))

theorem isUuid_sampleUuid : IsUuid sampleUuid := by
  have hall : (sampleUuid.toList.all fun c => c.isDigit || c == '-') = true := by decide +kernel
  refine ⟨by decide +kernel, fun c hc => ?_⟩
  have hc := List.all_eq_true.mp hall c hc
  rw [Bool.or_eq_true, beq_iff_eq] at hc
  exact hc.imp_right Or.inr

theorem answerFile_fallible {error : Option IoError} {mayFail : Prop} {w done : World}
    {partly : World → Prop} (hmay : error ≠ none → mayFail) (hpartly : partly w) :
    Fallible mayFail done partly (answerFile error w done).1 (answerFile error w done).2 := by
  cases error with
  | none => exact Or.inl ⟨rfl, rfl⟩
  | some error => exact Or.inr ⟨hmay (by simp), ⟨error, rfl⟩, hpartly⟩

theorem answerSegment_onSegment {error : Option IoError} {mayFail : Prop} {w done : World}
    {partly : World → Prop} (segmentId : Nat) (hmay : error ≠ none → mayFail) (hpartly : partly w) :
    OnSegment w.dir.segments segmentId w (answerSegment error w segmentId done).1
      (answerSegment error w segmentId done).2
      (Fallible mayFail done partly (answerSegment error w segmentId done).1
        (answerSegment error w segmentId done).2) := by
  unfold answerSegment
  by_cases h : w.dir.segments.lookup segmentId = none
  · rw [if_pos h]
    exact Or.inl ⟨h, rfl, rfl⟩
  · rw [if_neg h]
    exact Or.inr ⟨h, answerFile_fallible hmay hpartly⟩

theorem answerRead_eq {α : Type} {error : Option IoError} {mayFail : Prop} {w : World} {value : α}
    (hmay : error ≠ none → mayFail) :
    (answerRead error w value).2 = w ∧ ((answerRead error w value).1 = .ok value ∨
      (mayFail ∧ ∃ e, (answerRead error w value).1 = .error e)) := by
  cases error with
  | none => exact ⟨rfl, Or.inl rfl⟩
  | some error => exact ⟨rfl, Or.inr ⟨hmay (by simp), error, rfl⟩⟩

theorem answerSend_eq {error : Option IoError} {mayFail : Prop} {w : World} {sink : String}
    {events : List Value} {metadata : EventSinkBatchMetadata} (hmay : error ≠ none → mayFail) :
    (answerSend error w sink events metadata).2 =
        w.record (.sent sink events metadata (answerSend error w sink events metadata).1) ∧
      ((answerSend error w sink events metadata).1 = .ok () ∨
        (mayFail ∧ ∃ e, (answerSend error w sink events metadata).1 = .error e)) := by
  cases error with
  | none => exact ⟨rfl, Or.inl rfl⟩
  | some error => exact ⟨rfl, Or.inr ⟨hmay (by simp), error.message, rfl⟩⟩

/-- **The answers are allowed**, where the operations that fail may fail. -/
theorem sysAnswer_sysEnv {mayFail : SysOp → Prop} {fails : SysOp → Option IoError}
    (h : ∀ o, fails o ≠ none → mayFail o) (o : SysOp) (w : World) :
    sysEnv mayFail o w (sysAnswer fails o w).1 (sysAnswer fails o w).2 := by
  cases o with
  | createDirAll =>
    show Fallible _ w (· = w) _ _
    exact answerFile_fallible (h _) rfl
  | acquireWalLock =>
    show Fallible _ w (· = w) _ _
    exact answerFile_fallible (h _) rfl
  | readDir => exact answerRead_eq (h _)
  | nowMs => rfl
  | instantNow => exact ⟨rfl, rfl⟩
  | availableSpace =>
    obtain ⟨hw, hok | herror⟩ : _ ∧ (_ = Except.ok 0 ∨ _) := answerRead_eq (h .availableSpace)
    · exact ⟨hw, Or.inl ⟨0, hok⟩⟩
    · exact ⟨hw, Or.inr herror⟩
  | newUuid => exact ⟨rfl, isUuid_sampleUuid⟩
  | writeNodeIdFile nodeId =>
    show Fallible _ _ (fun w' => w' = w ∨ _) _ _
    exact answerFile_fallible (h _) (Or.inl rfl)
  | createSegment site segmentId header =>
    show Fallible _ _ (fun w' => w' = w ∨ _) _ _
    exact answerFile_fallible (h _) (Or.inl rfl)
  | removeSegment site segmentId => exact answerSegment_onSegment segmentId (h _) rfl
  | syncDirectory site =>
    show Fallible _ w (· = w) _ _
    exact answerFile_fallible (h _) rfl
  | appendSegment segmentId bytes =>
    refine answerSegment_onSegment segmentId (h _) ⟨[], List.nil_prefix, ?_⟩
    -- a failed write has written nothing
    rw [SortedTable.modify_eq_self _ _ SegmentFile.append_nil]
    rfl
  | syncSegment segmentId => exact answerSegment_onSegment segmentId (h _) rfl
  | truncateSegment site segmentId len => exact answerSegment_onSegment segmentId (h _) (Or.inl rfl)
  | writeCheckpointFile file =>
    show Fallible _ _ (fun w' => w' = w ∨ _) _ _
    exact answerFile_fallible (h _) (Or.inl rfl)
  | respond channel record result => rfl
  | sendBatch sink events metadata => exact answerSend_eq (h _)
  | quarantine entry issue => rfl

/-- **An execution is a run.** -/
theorem runs_sysAnswer {α : Type} {mayFail : SysOp → Prop} {fails : SysOp → Option IoError}
    (h : ∀ o, fails o ≠ none → mayFail o) (p : Prog SysOp SysResp α) (w : World) :
    Runs (sysEnv mayFail) p w (p.exec (sysAnswer fails) w).1 (p.exec (sysAnswer fails) w).2 :=
  runs_exec (sysAnswer_sysEnv h) p w

/-! ### Sample logs -/

section Sample

attribute [local instance] referenceCodec

/-- The frame of a sample record with this LSN. -/
def sampleFrame (lsn : Nat) (recordId : String) : Bytes :=
  (serializeFrame (assignWalMetadata (sampleRecord recordId) lsn "n")).toOption.getD []

/-- A segment file of the node `n` with sample records, all of it synced. -/
def sampleFile (segmentId startLsn : Nat) (records : List (Nat × String)) : SegmentFile :=
  .created ((serializeSegmentHeader (UInt64.ofNat segmentId) "n" (UInt64.ofNat startLsn)
    0).toOption.getD [] ++ records.flatMap fun record => sampleFrame record.1 record.2)

/-- A directory of the node `n` with these segments and no checkpoint; the clock goes on by one
nanosecond with each reading. -/
def sampleWorld (segments : List (Nat × SegmentFile)) : World where
  dir := {
    path := "wal"
    nodeIdFile := some "n\n"
    segments := segments.foldl (fun table segment => table.insert segment.1 segment.2) ∅
    checkpointFile := none }
  clock n := n
  ticks := 0
  trace := []

end Sample

end Ingest4x.Wal
