import Ingest4x.Replay.Plan

/-! # What a replay call can see and change

The part of the world that the replay works on after it has read its entries: the node id, the
checkpoint on disk, the clock, and what was sent and set aside. The segment files are not in it: the
replay only removes some of them, and what it reads of them there decides nothing but an error.

* **`ReplayView`** — that part, with **`replayView`** of a world.
* **`viewEnv`** — the operations on it; `sysEnv_viewEnv` says that they are those of the system. -/

namespace Ingest4x.Wal

open Effect

/-- **The view of the replay.** -/
structure ReplayView where
  nodeIdFile : Option String
  durable : Option WalPosition
  clock : Nat → Nat
  ticks : Nat
  trace : List Event

namespace ReplayView

/-- The view after more events. -/
def log (v : ReplayView) (events : List Event) : ReplayView := { v with trace := v.trace ++ events }

/-- The view after the checkpoint on disk has moved. -/
def save (v : ReplayView) (durable : Option WalPosition) : ReplayView :=
  { v with durable := durable }

/-- The view after one reading of the clock. -/
def tick (v : ReplayView) : ReplayView := { v with ticks := v.ticks + 1 }

@[simp] theorem log_nil (v : ReplayView) : v.log [] = v := by
  rw [log, List.append_nil]

@[simp] theorem log_log (v : ReplayView) (events events' : List Event) :
    (v.log events).log events' = v.log (events ++ events') := by
  rw [log, log, log, List.append_assoc]

@[simp] theorem log_durable (v : ReplayView) (events : List Event) :
    (v.log events).durable = v.durable := rfl

@[simp] theorem log_nodeIdFile (v : ReplayView) (events : List Event) :
    (v.log events).nodeIdFile = v.nodeIdFile := rfl

@[simp] theorem log_clock (v : ReplayView) (events : List Event) :
    (v.log events).clock = v.clock := rfl

@[simp] theorem log_ticks (v : ReplayView) (events : List Event) :
    (v.log events).ticks = v.ticks := rfl

@[simp] theorem log_trace (v : ReplayView) (events : List Event) :
    (v.log events).trace = v.trace ++ events := rfl

@[simp] theorem save_durable (v : ReplayView) (durable : Option WalPosition) :
    (v.save durable).durable = durable := rfl

@[simp] theorem save_nodeIdFile (v : ReplayView) (durable : Option WalPosition) :
    (v.save durable).nodeIdFile = v.nodeIdFile := rfl

@[simp] theorem save_clock (v : ReplayView) (durable : Option WalPosition) :
    (v.save durable).clock = v.clock := rfl

@[simp] theorem save_ticks (v : ReplayView) (durable : Option WalPosition) :
    (v.save durable).ticks = v.ticks := rfl

@[simp] theorem save_trace (v : ReplayView) (durable : Option WalPosition) :
    (v.save durable).trace = v.trace := rfl

@[simp] theorem tick_durable (v : ReplayView) : v.tick.durable = v.durable := rfl

@[simp] theorem tick_nodeIdFile (v : ReplayView) : v.tick.nodeIdFile = v.nodeIdFile := rfl

@[simp] theorem tick_clock (v : ReplayView) : v.tick.clock = v.clock := rfl

@[simp] theorem tick_ticks (v : ReplayView) : v.tick.ticks = v.ticks + 1 := rfl

@[simp] theorem tick_trace (v : ReplayView) : v.tick.trace = v.trace := rfl

end ReplayView

section Views

variable [CheckpointCodec]

/-- The position in a checkpoint file, if the file parses. -/
def filePosition (file : Bytes) : Option WalPosition :=
  (CheckpointCodec.fromSlice file).toOption.map WalCheckpoint.position

/-- **The durable checkpoint**: the position in the checkpoint file. -/
def durableCheckpoint (dir : WalDir) : Option WalPosition := dir.checkpointFile.bind filePosition

/-- The position just written is the one in the file. -/
@[simp] theorem filePosition_toVec [RecordCodec] (position : WalPosition) (nodeId : String)
    (sinkId : Option String) (updatedAt : Nat) :
    filePosition (CheckpointCodec.toVec (WalCheckpoint.new position nodeId sinkId updatedAt)) =
      some position := by
  rw [filePosition, CheckpointCodec.fromSlice_toVec]
  rfl

/-- **The view of a world.** -/
def replayView (w : World) : ReplayView where
  nodeIdFile := w.dir.nodeIdFile
  durable := durableCheckpoint w.dir
  clock := w.clock
  ticks := w.ticks
  trace := w.trace.filter Event.isReplay

@[simp] theorem replayView_nodeIdFile (w : World) :
    (replayView w).nodeIdFile = w.dir.nodeIdFile := rfl

@[simp] theorem replayView_durable (w : World) :
    (replayView w).durable = durableCheckpoint w.dir := rfl

@[simp] theorem replayView_clock (w : World) : (replayView w).clock = w.clock := rfl

@[simp] theorem replayView_ticks (w : World) : (replayView w).ticks = w.ticks := rfl

@[simp] theorem replayView_withSegments (w : World) (segments : SortedTable Nat SegmentFile) :
    replayView (w.withSegments segments) = replayView w := rfl

theorem replayView_record (w : World) (event : Event) :
    replayView (w.record event) = (replayView w).log ([event].filter Event.isReplay) := by
  rw [replayView, World.record, List.filter_append]
  rfl

/-! ### The operations on the view -/

/-- **The environment of the view.** A read of the directory may answer with any files beside the
node id; operations of the writer are those that the replay does not perform. -/
def viewEnv (mayFail : SysOp → Prop) : Env SysOp SysResp ReplayView
  | .readDir, v, r, v' =>
    v' = v ∧ ((∃ dir, r = .ok dir ∧ dir.nodeIdFile = v.nodeIdFile) ∨
      (mayFail .readDir ∧ ∃ e, r = .error e))
  | .instantNow, v, r, v' => r = v.clock v.ticks ∧ v' = v.tick
  | .writeNodeIdFile _, _, _, _ => True
  | .writeCheckpointFile file, v, r, v' =>
    (r = .ok () ∧ v' = v.save (filePosition file)) ∨
      (mayFail (.writeCheckpointFile file) ∧ (∃ e, r = .error e) ∧
        (v' = v ∨ v' = v.save (filePosition file)))
  | .sendBatch sink events metadata, v, r, v' =>
    v' = v.log [.sent sink events metadata r] ∧
      (r = .ok () ∨ (mayFail (.sendBatch sink events metadata) ∧ ∃ e, r = .error e))
  | .quarantine entry issue, v, _, v' => v' = v.log [.quarantined entry issue]
  | _, v, _, v' => v' = v

/-- A file operation that only changes segments leaves the view alone. -/
theorem Fallible.replayView_eq {mayFail : Prop} {done : World} {partly : World → Prop}
    {r : Except IoError Unit} {w w' : World} (h : Fallible mayFail done partly r w')
    (hdone : replayView done = replayView w)
    (hpartly : ∀ w', partly w' → replayView w' = replayView w) : replayView w' = replayView w := by
  rcases h with ⟨-, rfl⟩ | ⟨-, -, h⟩
  · exact hdone
  · exact hpartly w' h

theorem OnSegment.replayView_eq {segmentId : Nat} {r : Except IoError Unit} {w w' : World}
    {found : Prop} (h : OnSegment w.dir.segments segmentId w r w' found)
    (hfound : found → replayView w' = replayView w) : replayView w' = replayView w := by
  rcases h with ⟨-, -, rfl⟩ | ⟨-, h⟩
  · rfl
  · exact hfound h

/-- **The view of an operation is an operation on the view.** -/
theorem sysEnv_viewEnv (mayFail : SysOp → Prop) (o : SysOp) (w : World) (r : SysResp o)
    (w' : World) (h : sysEnv mayFail o w r w') :
    viewEnv mayFail o (replayView w) r (replayView w') := by
  cases o with
  | createDirAll =>
    have h : Fallible _ w (· = w) r w' := h
    exact h.replayView_eq rfl fun w' h => by rw [h]
  | acquireWalLock =>
    have h : Fallible _ w (· = w) r w' := h
    exact h.replayView_eq rfl fun w' h => by rw [h]
  | readDir =>
    obtain ⟨rfl, rfl | h⟩ := h
    · exact ⟨rfl, Or.inl ⟨w'.dir, rfl, rfl⟩⟩
    · exact ⟨rfl, Or.inr h⟩
  | nowMs =>
    obtain rfl := h
    rfl
  | instantNow =>
    obtain ⟨rfl, rfl⟩ := h
    exact ⟨rfl, rfl⟩
  | availableSpace =>
    obtain ⟨rfl, -⟩ := h
    rfl
  | newUuid =>
    obtain ⟨rfl, -⟩ := h
    rfl
  | writeNodeIdFile nodeId => trivial
  | createSegment site segmentId header =>
    have h : Fallible _ (w.withSegments _) (fun w' => w' = w ∨ w' = w.withSegments _) r w' := h
    refine h.replayView_eq rfl ?_
    rintro w' (rfl | rfl) <;> rfl
  | removeSegment site segmentId =>
    exact h.replayView_eq fun h => h.replayView_eq rfl fun w' h => by rw [h]
  | syncDirectory site =>
    have h : Fallible _ w (· = w) r w' := h
    exact h.replayView_eq rfl fun w' h => by rw [h]
  | appendSegment segmentId bytes =>
    refine h.replayView_eq fun h => h.replayView_eq rfl ?_
    rintro w' ⟨written, -, rfl⟩
    rfl
  | syncSegment segmentId =>
    exact h.replayView_eq fun h => h.replayView_eq rfl fun w' h => by rw [h]
  | truncateSegment site segmentId len =>
    refine h.replayView_eq fun h => h.replayView_eq rfl ?_
    rintro w' (rfl | rfl) <;> rfl
  | writeCheckpointFile file =>
    rcases h with ⟨rfl, rfl⟩ | ⟨hmay, herror, rfl | rfl⟩
    · exact Or.inl ⟨rfl, rfl⟩
    · exact Or.inr ⟨hmay, herror, Or.inl rfl⟩
    · exact Or.inr ⟨hmay, herror, Or.inr rfl⟩
  | respond channel record result =>
    obtain rfl := h
    show replayView _ = replayView w
    rw [replayView_record]
    exact ReplayView.log_nil _
  | sendBatch sink events metadata =>
    obtain ⟨rfl, h⟩ := h
    exact ⟨replayView_record w _, h⟩
  | quarantine entry issue =>
    obtain rfl := h
    exact replayView_record w _

end Views

end Ingest4x.Wal
