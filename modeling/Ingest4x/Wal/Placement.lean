import Ingest4x.Wal.Frame
import Ingest4x.Wal.Writer

/-! # Where the frames go

The positions at which a flush writes its frames are a function of where the writer stands and of the
lengths of the frames; what the system answers does not matter.

* **`placeFrame`**, **`placeFrames`** — the position of a frame, and of one frame after another.
* **`wpc_writeBuffered_placed`** — a flush writes there. -/

namespace Ingest4x.Wal

open Effect

variable [RecordCodec]

/-! ### Placing frames -/

/-- Does the writer go on to the next segment before it writes a frame? -/
def Rotates (inner : WalWriterInner) (offset : Nat) (frame : Frame) : Prop :=
  segmentHeaderLen < offset ∧ inner.segmentMaxBytes < offset + frame.bytes.length

instance (inner : WalWriterInner) (offset : Nat) (frame : Frame) :
    Decidable (Rotates inner offset frame) :=
  inferInstanceAs (Decidable (_ ∧ _))

/-- **The position of a frame** that is written by a writer that stands here. -/
def placeFrame (inner : WalWriterInner) (segmentId offset : Nat) (frame : Frame) : WalPosition :=
  if Rotates inner offset frame then ⟨frame.record.lsn.toNat, segmentId + 1, segmentHeaderLen⟩
  else ⟨frame.record.lsn.toNat, segmentId, offset⟩

/-- The positions of frames that are written one after another. -/
def placeFrames (inner : WalWriterInner) : Nat → Nat → List Frame → List WalPosition
  | _, _, [] => []
  | segmentId, offset, frame :: frames =>
    let position := placeFrame inner segmentId offset frame
    position :: placeFrames inner position.segment (position.offset + frame.bytes.length) frames

@[simp] theorem placeFrames_nil (inner : WalWriterInner) (segmentId offset : Nat) :
    placeFrames inner segmentId offset [] = [] := rfl

@[simp] theorem placeFrames_cons (inner : WalWriterInner) (segmentId offset : Nat) (frame : Frame)
    (frames : List Frame) :
    placeFrames inner segmentId offset (frame :: frames) =
      placeFrame inner segmentId offset frame ::
        placeFrames inner (placeFrame inner segmentId offset frame).segment
          ((placeFrame inner segmentId offset frame).offset + frame.bytes.length) frames := rfl

/-- Without a rotation the frame goes where the writer stands. -/
theorem placeFrame_of_not_rotates {inner : WalWriterInner} {segmentId offset : Nat} {frame : Frame}
    (h : ¬Rotates inner offset frame) :
    placeFrame inner segmentId offset frame = ⟨frame.record.lsn.toNat, segmentId, offset⟩ :=
  if_neg h

/-- After a rotation it goes to the start of the next segment. -/
theorem placeFrame_of_rotates {inner : WalWriterInner} {segmentId offset : Nat} {frame : Frame}
    (h : Rotates inner offset frame) :
    placeFrame inner segmentId offset frame =
      ⟨frame.record.lsn.toNat, segmentId + 1, segmentHeaderLen⟩ :=
  if_pos h

/-- Where a writer stands that has written frames from here on. -/
def placeEnd (inner : WalWriterInner) : Nat → Nat → List Frame → Nat × Nat
  | segmentId, offset, [] => (segmentId, offset)
  | segmentId, offset, frame :: frames =>
    let position := placeFrame inner segmentId offset frame
    placeEnd inner position.segment (position.offset + frame.bytes.length) frames

/-- Frames after other frames. -/
theorem placeFrames_append (inner : WalWriterInner) (segmentId offset : Nat)
    (frames frames' : List Frame) :
    placeFrames inner segmentId offset (frames ++ frames') =
      placeFrames inner segmentId offset frames ++
        placeFrames inner (placeEnd inner segmentId offset frames).1
          (placeEnd inner segmentId offset frames).2 frames' := by
  induction frames generalizing segmentId offset with
  | nil => rfl
  | cons frame frames ih =>
    rw [List.cons_append, placeFrames_cons, placeFrames_cons, ih, List.cons_append, placeEnd]

@[simp] theorem length_placeFrames (inner : WalWriterInner) (segmentId offset : Nat)
    (frames : List Frame) : (placeFrames inner segmentId offset frames).length = frames.length := by
  induction frames generalizing segmentId offset with
  | nil => rfl
  | cons frame frames ih => rw [placeFrames_cons, List.length_cons, List.length_cons, ih]

/-- A frame does not go before where the writer stands. -/
theorem placeFrame_ge (inner : WalWriterInner) (segmentId offset : Nat) (frame : Frame) :
    segmentId < (placeFrame inner segmentId offset frame).segment ∨
      (placeFrame inner segmentId offset frame).segment = segmentId ∧
        (placeFrame inner segmentId offset frame).offset = offset := by
  by_cases h : Rotates inner offset frame
  · rw [placeFrame_of_rotates h]
    exact Or.inl (Nat.lt_succ_self _)
  · rw [placeFrame_of_not_rotates h]
    exact Or.inr ⟨rfl, rfl⟩

/-- A writer that has written frames stands behind where it stood. -/
theorem placeEnd_gt (inner : WalWriterInner) (segmentId offset : Nat) {frames : List Frame}
    (hne : frames ≠ []) : segmentId < (placeEnd inner segmentId offset frames).1 ∨
      (placeEnd inner segmentId offset frames).1 = segmentId ∧
        offset < (placeEnd inner segmentId offset frames).2 := by
  induction frames generalizing segmentId offset with
  | nil => exact absurd rfl hne
  | cons frame frames ih =>
    have hlength := frame.length_ge
    have hge := placeFrame_ge inner segmentId offset frame
    rw [placeEnd]
    rcases List.eq_nil_or_concat frames with rfl | ⟨_, _, rfl⟩
    · simp only [placeEnd, recordHeaderFixedLen] at hlength ⊢
      omega
    · have hgt := ih (placeFrame inner segmentId offset frame).segment
        ((placeFrame inner segmentId offset frame).offset + frame.bytes.length) (by simp)
      simp only [recordHeaderFixedLen] at hlength
      omega

/-- The bytes of a frame are determined by its record. -/
theorem Frame.bytes_eq {frame frame' : Frame} (h : frame.record = frame'.record) :
    frame.bytes = frame'.bytes := by
  have hencodes := frame.encodes
  rw [h, frame'.encodes] at hencodes
  exact (Except.ok.inj hencodes).symm

/-- **Entries that were placed** by a writer that stood here. -/
def PlacedAt (inner : WalWriterInner) (t : WalWriterState) (added : List WalEntry) : Prop :=
  ∃ frames : List Frame, frames.map Frame.record = added.map WalEntry.record ∧
    added.map WalEntry.position = placeFrames inner t.segmentId t.offset frames

/-! ### The writer places frames -/

section Specs

variable {σ : Type} {env : Env SysOp SysResp σ} {s : σ} {t : WalWriterState}

/-- `create_segment_file` leaves the writer as it is. -/
theorem wpc_createSegmentFile_same (site : Site) (segmentId : Nat) (nodeId : String)
    (startLsn : Nat) :
    wpc env (fun _ _ => True) (createSegmentFile site segmentId nodeId startLsn)
      (fun _ t' _ => t' = t) (fun _ _ _ => True) t s := by
  rw [createSegmentFile, wpc_bind, wpc_perform]
  refine ⟨trivial, fun nowMs s₁ _ => ?_⟩
  rw [wpc_bind, wpc_ofExcept]
  refine ⟨fun header _ => ?_, fun _ _ => trivial⟩
  rw [fileOp, wpc_orThrow, wpc_perform]
  exact ⟨trivial, fun _ _ _ => ⟨fun _ _ => rfl, fun _ _ => trivial⟩⟩

/-- `ensure_segment_file` leaves the writer as it is. -/
theorem wpc_ensureSegmentFile_same (site : Site) (segmentId : Nat) (nodeId : String)
    (startLsn : Nat) :
    wpc env (fun _ _ => True) (ensureSegmentFile site segmentId nodeId startLsn)
      (fun _ t' _ => t' = t) (fun _ _ _ => True) t s := by
  rw [ensureSegmentFile, wpc_bind, readDir, fileOp, wpc_orThrow, wpc_perform]
  refine ⟨trivial, fun r s₁ _ => ⟨fun dir _ => ?_, fun _ _ => trivial⟩⟩
  cases dir.segments.lookup segmentId with
  | none => exact wpc_createSegmentFile_same site segmentId nodeId startLsn
  | some file =>
    rw [wpc_bind, wpc_ofExcept]
    refine ⟨fun ⟨header, _⟩ _ => ?_, fun _ _ => trivial⟩
    simp only [wpc_ite, wpc_throw, wpc_pure, wpc_bind, fileOp, wpc_orThrow, wpc_perform]
    refine ⟨fun _ => trivial, fun _ => ⟨fun _ => trivial, fun _ => ⟨fun _ => ?_, fun _ => trivial⟩⟩⟩
    -- the header-only file is removed and created again
    exact ⟨trivial, fun _ _ _ => ⟨fun _ _ => ⟨trivial, fun _ _ _ => ⟨fun _ _ =>
      wpc_createSegmentFile_same site segmentId nodeId startLsn, fun _ _ => trivial⟩⟩,
        fun _ _ => trivial⟩⟩

omit [RecordCodec] in
/-- The check of the free space leaves the writer as it is. -/
theorem wpc_ensureWalDiskSpace_same (minFreeBytes estimated : Nat) :
    wpc env (fun _ _ => True) (ensureWalDiskSpace minFreeBytes estimated)
      (fun _ t' _ => t' = t) (fun _ _ _ => True) t s := by
  rw [ensureWalDiskSpace, wpc_ite]
  refine ⟨fun _ => rfl, fun _ => ?_⟩
  rw [wpc_bind, fileOp, wpc_orThrow, wpc_perform]
  refine ⟨trivial, fun _ _ _ => ⟨fun available _ => ?_, fun _ _ => trivial⟩⟩
  rw [wpc_ite]
  exact ⟨fun _ => trivial, fun _ => rfl⟩

/-- A rotation goes on to the start of the next segment. -/
theorem wpc_rotateSegment_placed (inner : WalWriterInner) (lsn : Nat) :
    wpc env (fun _ _ => True) (rotateSegment inner lsn)
      (fun _ t' _ => t'.segmentId = t.segmentId + 1 ∧ t'.offset = segmentHeaderLen)
      (fun _ _ _ => True) t s := by
  rw [rotateSegment, wpc_bind, wpc_get, wpc_bind, wpc_ofExcept]
  refine ⟨fun segmentId hnext => ?_, fun _ _ => trivial⟩
  rw [checkedNext] at hnext
  split_ifs at hnext
  cases hnext
  rw [wpc_bind, wpc_set]
  refine wpc_imp (wpc_ensureSegmentFile_same .rotate _ inner.nodeId lsn) ?_ fun _ _ _ h => h
  rintro _ t' s' rfl
  exact ⟨rfl, rfl⟩

/-- **`append_frame_locked`** writes the frame at its place, and the writer stands behind it. -/
theorem wpc_appendFrameLocked_placed (inner : WalWriterInner) (frame : Frame) (sync : Bool) :
    wpc env (fun _ _ => True) (appendFrameLocked inner frame.bytes frame.record.lsn.toNat sync)
      (fun position t' _ => position = placeFrame inner t.segmentId t.offset frame ∧
        t'.segmentId = position.segment ∧ t'.offset = position.offset + frame.bytes.length)
      (fun _ _ _ => True) t s := by
  -- what follows the rotation, from a writer that stands anywhere
  have hwrite : ∀ (t' : WalWriterState) (s' : σ),
      placeFrame inner t.segmentId t.offset frame =
        ⟨frame.record.lsn.toNat, t'.segmentId, t'.offset⟩ →
      wpc env (fun _ _ => True) (do
        ensureWalDiskSpace inner.minFreeBytes frame.bytes.length
        let state ← get
        fileOp (sys (.appendSegment state.segmentId frame.bytes))
        (if sync then fileOp (sys (.syncSegment state.segmentId)) else pure ())
        set { state with offset := state.offset + frame.bytes.length }
        pure (WalPosition.mk frame.record.lsn.toNat state.segmentId state.offset) :
          Sys WalWriterState WalPosition)
        (fun position t' _ => position = placeFrame inner t.segmentId t.offset frame ∧
          t'.segmentId = position.segment ∧ t'.offset = position.offset + frame.bytes.length)
        (fun _ _ _ => True) t' s' := by
    intro t' s' hplace
    rw [wpc_bind]
    refine wpc_imp (wpc_ensureWalDiskSpace_same _ _) ?_ fun _ _ _ h => h
    rintro _ t'' s'' rfl
    simp only [wpc_bind, wpc_get, fileOp, wpc_orThrow, wpc_perform, wpc_ite, wpc_pure, wpc_set]
    refine ⟨trivial, fun _ _ _ => ⟨fun _ _ => ⟨fun _ => ⟨trivial, fun _ _ _ => ⟨fun _ _ => ?_,
      fun _ _ => trivial⟩⟩, fun _ => ?_⟩, fun _ _ => trivial⟩⟩
    · exact ⟨hplace.symm, trivial, trivial⟩
    · exact ⟨hplace.symm, trivial, trivial⟩
  rw [appendFrameLocked, wpc_bind, wpc_get, wpc_bind, wpc_ite]
  refine ⟨fun hrotates => ?_, fun hstays => hwrite t s (placeFrame_of_not_rotates hstays)⟩
  refine wpc_imp (wpc_rotateSegment_placed inner _) ?_ fun _ _ _ h => h
  rintro _ t' s' ⟨hsegmentId, hoffset⟩
  exact hwrite t' s' (by rw [placeFrame_of_rotates hrotates, hsegmentId, hoffset])

/-- **The loop over the buffered records** writes their frames one after another. -/
theorem wpc_appendBufferedFrames_placed (inner : WalWriterInner)
    (entries : List BufferedWalRecord) :
    wpc env (fun _ _ => True) (appendBufferedFrames inner entries)
      (fun positions _ _ => ∃ frames : List Frame,
        frames.map Frame.record = entries.map BufferedWalRecord.record ∧
        positions = placeFrames inner t.segmentId t.offset frames)
      (fun _ _ _ => True) t s := by
  induction entries generalizing t s with
  | nil => exact ⟨[], rfl, rfl⟩
  | cons entry entries ih =>
    rw [appendBufferedFrames, wpc_bind, wpc_ofExcept]
    refine ⟨fun bytes hbytes => ?_, fun _ _ => trivial⟩
    let frame : Frame := ⟨entry.record, bytes, hbytes⟩
    rw [wpc_bind]
    refine wpc_imp (wpc_appendFrameLocked_placed inner frame false) ?_ fun _ _ _ h => h
    rintro position t' s' ⟨rfl, hsegmentId, hoffset⟩
    rw [wpc_bind]
    refine wpc_imp ih ?_ fun _ _ _ h => h
    rintro positions t'' s'' ⟨frames, hframes, rfl⟩
    refine ⟨frame :: frames, by rw [List.map_cons, List.map_cons, hframes], ?_⟩
    rw [placeFrames_cons, ← hsegmentId, ← hoffset]

/-- **The fallible part of a flush** writes the frames of the buffered records one after another. -/
theorem wpc_writeBuffered_placed (inner : WalWriterInner) (buffered : List BufferedWalRecord) :
    wpc env (fun _ _ => True) (writeBuffered inner buffered)
      (fun positions _ _ => ∃ frames : List Frame,
        frames.map Frame.record = buffered.map BufferedWalRecord.record ∧
        positions = placeFrames inner t.segmentId t.offset frames)
      (fun _ _ _ => True) t s := by
  rw [writeBuffered, wpc_bind]
  refine wpc_imp (wpc_appendBufferedFrames_placed inner buffered) ?_ fun _ _ _ h => h
  rintro positions t' s' hplaced
  rw [wpc_bind]
  refine wpc_imp (wpc_forEach (fun _ _ _ => True) _ ?_ trivial) (fun _ _ _ _ => hplaced)
    fun _ _ _ h => h
  intro _ segmentId _ t'' s'' _ _
  rw [fileOp, wpc_orThrow, wpc_perform]
  exact ⟨trivial, fun _ _ _ => ⟨fun _ _ => trivial, fun _ _ => trivial⟩⟩

end Specs

end Ingest4x.Wal
