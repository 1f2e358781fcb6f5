import Ingest4x.Wal.Log
import Ingest4x.Wal.Writer

/-! # What a flush can see and change

A flush works on the active segment and on the segments it opens after it, and it answers appends.
The segments before the active one, the checkpoint and what the replay has sent are not its
business: they may even change while it runs.

* **`TailView`** — the segments from a bound on, and the answers to appends.
* **`tailEnv`** — the operations on it; `sysEnv_tailEnv` says that they are those of the system.
* **`TailGuard`** — what is asked of an operation; **`SameFront`** — what it leaves alone. -/

namespace Ingest4x.Wal

open Effect

/-- **The view of a flush.** -/
structure TailView where
  segments : SortedTable Nat SegmentFile
  trace : List Event

namespace TailView

/-- The view with other segments. -/
def withSegments (v : TailView) (segments : SortedTable Nat SegmentFile) : TailView :=
  { v with segments := segments }

/-- The view after more events. -/
def log (v : TailView) (events : List Event) : TailView := { v with trace := v.trace ++ events }

@[simp] theorem withSegments_segments (v : TailView) (segments : SortedTable Nat SegmentFile) :
    (v.withSegments segments).segments = segments := rfl

@[simp] theorem withSegments_trace (v : TailView) (segments : SortedTable Nat SegmentFile) :
    (v.withSegments segments).trace = v.trace := rfl

@[simp] theorem withSegments_self (v : TailView) : v.withSegments v.segments = v := rfl

@[simp] theorem log_segments (v : TailView) (events : List Event) :
    (v.log events).segments = v.segments := rfl

@[simp] theorem log_trace (v : TailView) (events : List Event) :
    (v.log events).trace = v.trace ++ events := rfl

end TailView

/-- **The view of a world**, with the segments from `bound` on. -/
def tailView (bound : Nat) (w : World) : TailView where
  segments := w.dir.segments.upFrom bound
  trace := w.trace.filter fun event => !event.isReplay

theorem tailView_withSegments (bound : Nat) (w : World) (segments : SortedTable Nat SegmentFile) :
    tailView bound (w.withSegments segments) =
      (tailView bound w).withSegments (segments.upFrom bound) := rfl

theorem tailView_record (bound : Nat) (w : World) (event : Event) :
    tailView bound (w.record event) =
      (tailView bound w).log ([event].filter fun event => !event.isReplay) := by
  rw [tailView, World.record, List.filter_append]
  rfl

/-- **The environment of the view.** A read of the directory answers with any files that agree on
the segments from the bound on; operations before the bound and operations of the replay are not
described. -/
def tailEnv (mayFail : SysOp → Prop) (bound : Nat) : Env SysOp SysResp TailView
  | .readDir, v, r, v' =>
    v' = v ∧ ((∃ dir, r = .ok dir ∧ dir.segments.upFrom bound = v.segments) ∨
      (mayFail .readDir ∧ ∃ e, r = .error e))
  | .nowMs, v, _, v' => v' = v
  | .availableSpace, v, _, v' => v' = v
  | .createSegment site segmentId header, v, r, v' => bound ≤ segmentId →
    Fallible (mayFail (.createSegment site segmentId header))
      (v.withSegments (v.segments.insert segmentId (.created header)))
      (fun v' => v' = v ∨ v' = v.withSegments (v.segments.insert segmentId (.created header))) r v'
  | .removeSegment site segmentId, v, r, v' => bound ≤ segmentId →
    OnSegment v.segments segmentId v r v' (Fallible (mayFail (.removeSegment site segmentId))
      (v.withSegments (v.segments.erase segmentId)) (· = v) r v')
  | .syncDirectory site, v, r, v' => Fallible (mayFail (.syncDirectory site)) v (· = v) r v'
  | .appendSegment segmentId bytes, v, r, v' => bound ≤ segmentId →
    OnSegment v.segments segmentId v r v' (Fallible (mayFail (.appendSegment segmentId bytes))
      (v.withSegments (v.segments.modify segmentId (·.append bytes)))
      (fun v' => ∃ written, written <+: bytes ∧
        v' = v.withSegments (v.segments.modify segmentId (·.append written))) r v')
  | .syncSegment segmentId, v, r, v' => bound ≤ segmentId →
    OnSegment v.segments segmentId v r v' (Fallible (mayFail (.syncSegment segmentId))
      (v.withSegments (v.segments.modify segmentId .sync)) (· = v) r v')
  | .truncateSegment site segmentId len, v, r, v' => bound ≤ segmentId →
    OnSegment v.segments segmentId v r v' (Fallible (mayFail (.truncateSegment site segmentId len))
      (v.withSegments (v.segments.modify segmentId fun file => (file.truncate len).sync))
      (fun v' => v' = v ∨ v' = v.withSegments (v.segments.modify segmentId (·.truncate len))) r v')
  | .respond channel record result, v, _, v' => v' = v.log [.responded channel record result]
  | _, _, _, _ => True

/-- An operation on a segment from the bound on, seen in the view. -/
theorem OnSegment.tailView {bound segmentId : Nat} {w w' : World} {r : Except IoError Unit}
    {found found' : Prop} (h : OnSegment w.dir.segments segmentId w r w' found)
    (hle : bound ≤ segmentId) (hfound : found → found') :
    OnSegment (tailView bound w).segments segmentId (Wal.tailView bound w) r (Wal.tailView bound w')
      found' := by
  have hlookup : (Wal.tailView bound w).segments.lookup segmentId =
      w.dir.segments.lookup segmentId := by
    rw [Wal.tailView, SortedTable.lookup_upFrom, if_pos hle]
  rcases h with ⟨hnone, hr, rfl⟩ | ⟨hsome, h⟩
  · exact Or.inl ⟨hlookup.trans hnone, hr, rfl⟩
  · exact Or.inr ⟨hlookup ▸ hsome, hfound h⟩

/-- **The view of an operation is an operation on the view.** -/
theorem sysEnv_tailEnv (mayFail : SysOp → Prop) (bound : Nat) (o : SysOp) (w : World)
    (r : SysResp o) (w' : World) (h : sysEnv mayFail o w r w') :
    tailEnv mayFail bound o (tailView bound w) r (tailView bound w') := by
  cases o with
  | createDirAll => trivial
  | acquireWalLock => trivial
  | instantNow => trivial
  | newUuid => trivial
  | writeNodeIdFile nodeId => trivial
  | writeCheckpointFile file => trivial
  | sendBatch sink events metadata => trivial
  | quarantine entry issue => trivial
  | readDir =>
    obtain ⟨rfl, rfl | h⟩ := h
    · exact ⟨rfl, Or.inl ⟨w'.dir, rfl, rfl⟩⟩
    · exact ⟨rfl, Or.inr h⟩
  | nowMs =>
    obtain rfl := h
    rfl
  | availableSpace =>
    obtain ⟨rfl, -⟩ := h
    rfl
  | createSegment site segmentId header =>
    intro hle
    have hdone : tailView bound (w.withSegments (w.dir.segments.insert segmentId (.created header)))
        = (tailView bound w).withSegments
          ((tailView bound w).segments.insert segmentId (.created header)) := by
      rw [tailView_withSegments, SortedTable.upFrom_insert _ hle]
      rfl
    have h : Fallible _ (w.withSegments _) (fun w' => w' = w ∨ w' = w.withSegments _) r w' := h
    refine h.map (tailView bound) hdone ?_
    rintro w' (rfl | rfl)
    · exact Or.inl rfl
    · exact Or.inr hdone
  | removeSegment site segmentId =>
    intro hle
    refine h.tailView hle fun h => h.map (tailView bound) ?_ ?_
    · rw [tailView_withSegments, SortedTable.upFrom_erase]
      rfl
    · rintro w' rfl
      rfl
  | syncDirectory site =>
    have h : Fallible (mayFail (.syncDirectory site)) w (· = w) r w' := h
    show Fallible _ (tailView bound w) (· = tailView bound w) r _
    refine h.map (tailView bound) rfl ?_
    rintro w' rfl
    rfl
  | appendSegment segmentId bytes =>
    intro hle
    refine h.tailView hle fun h => h.map (tailView bound) ?_ ?_
    · rw [tailView_withSegments, SortedTable.upFrom_modify]
      rfl
    · rintro w' ⟨written, hwritten, rfl⟩
      refine ⟨written, hwritten, ?_⟩
      rw [tailView_withSegments, SortedTable.upFrom_modify]
      rfl
  | syncSegment segmentId =>
    intro hle
    refine h.tailView hle fun h => h.map (tailView bound) ?_ ?_
    · rw [tailView_withSegments, SortedTable.upFrom_modify]
      rfl
    · rintro w' rfl
      rfl
  | truncateSegment site segmentId len =>
    intro hle
    refine h.tailView hle fun h => h.map (tailView bound) ?_ ?_
    · rw [tailView_withSegments, SortedTable.upFrom_modify]
      rfl
    · rintro w' (rfl | rfl)
      · exact Or.inl rfl
      · refine Or.inr ?_
        rw [tailView_withSegments, SortedTable.upFrom_modify]
        rfl
  | respond channel record result =>
    obtain rfl := h
    exact tailView_record bound w _

/-! ### The frame of a flush -/

/-- **What is asked of an operation of a flush**: it is one on the segments from the bound on. -/
def TailGuard (bound : Nat) : SysOp → Prop
  | .readDir => True
  | .nowMs => True
  | .availableSpace => True
  | .createSegment _ segmentId _ => bound < segmentId
  | .removeSegment _ segmentId => bound < segmentId
  | .syncDirectory _ => True
  | .appendSegment segmentId _ => bound ≤ segmentId
  | .syncSegment segmentId => bound ≤ segmentId
  | .truncateSegment _ segmentId _ => bound ≤ segmentId
  | .respond _ _ _ => True
  | _ => False

/-- **What a flush leaves alone**: everything but the segments from the bound on and the answers to
appends. -/
structure SameFront (bound : Nat) (w w' : World) : Prop where
  path : w'.dir.path = w.dir.path
  nodeIdFile : w'.dir.nodeIdFile = w.dir.nodeIdFile
  checkpointFile : w'.dir.checkpointFile = w.dir.checkpointFile
  segments : w'.dir.segments.below bound = w.dir.segments.below bound
  clock : w'.clock = w.clock
  ticks : w'.ticks = w.ticks
  trace : ∃ events, w'.trace = w.trace ++ events ∧ ∀ event ∈ events, event.isReplay = false

theorem SameFront.refl (bound : Nat) (w : World) : SameFront bound w w :=
  ⟨rfl, rfl, rfl, rfl, rfl, rfl, [], (List.append_nil _).symm, by simp⟩

theorem SameFront.trans {bound : Nat} {w w' w'' : World} (h : SameFront bound w w')
    (h' : SameFront bound w' w'') : SameFront bound w w'' where
  path := h'.path.trans h.path
  nodeIdFile := h'.nodeIdFile.trans h.nodeIdFile
  checkpointFile := h'.checkpointFile.trans h.checkpointFile
  segments := h'.segments.trans h.segments
  clock := h'.clock.trans h.clock
  ticks := h'.ticks.trans h.ticks
  trace := by
    obtain ⟨events, hevents, hnone⟩ := h.trace
    obtain ⟨events', hevents', hnone'⟩ := h'.trace
    refine ⟨events ++ events', by rw [hevents', hevents, List.append_assoc], fun event hmem => ?_⟩
    rcases List.mem_append.mp hmem with hmem | hmem
    · exact hnone event hmem
    · exact hnone' event hmem

/-- Other segments from the bound on. -/
theorem SameFront.withSegments {bound : Nat} {w : World} {segments : SortedTable Nat SegmentFile}
    (h : segments.below bound = w.dir.segments.below bound) :
    SameFront bound w (w.withSegments segments) :=
  ⟨rfl, rfl, rfl, h, rfl, rfl, [], (List.append_nil _).symm, by simp⟩

/-- **A guarded operation leaves the rest alone.** -/
theorem sameFront_of_guard (mayFail : SysOp → Prop) {bound : Nat} {o : SysOp} {w w' : World}
    {r : SysResp o} (hguard : TailGuard bound o) (h : sysEnv mayFail o w r w') :
    SameFront bound w w' := by
  have hself := SameFront.refl bound w
  cases o with
  | createDirAll => cases hguard
  | acquireWalLock => cases hguard
  | instantNow => cases hguard
  | newUuid => cases hguard
  | writeNodeIdFile nodeId => cases hguard
  | writeCheckpointFile file => cases hguard
  | sendBatch sink events metadata => cases hguard
  | quarantine entry issue => cases hguard
  | readDir => exact h.1 ▸ hself
  | nowMs =>
    obtain rfl := h
    exact hself
  | availableSpace => exact h.1 ▸ hself
  | createSegment site segmentId header =>
    have hdone := SameFront.withSegments (SortedTable.below_insert w.dir.segments
      (le_of_lt hguard) (SegmentFile.created header))
    rcases h with ⟨-, rfl⟩ | ⟨-, -, rfl | rfl⟩
    · exact hdone
    · exact hself
    · exact hdone
  | removeSegment site segmentId =>
    rcases h with ⟨-, -, rfl⟩ | ⟨-, ⟨-, rfl⟩ | ⟨-, -, rfl⟩⟩
    · exact hself
    · exact SameFront.withSegments (SortedTable.below_erase _ (le_of_lt hguard))
    · exact hself
  | syncDirectory site =>
    have h : Fallible _ w (· = w) r w' := h
    rcases h with ⟨-, rfl⟩ | ⟨-, -, rfl⟩ <;> exact hself
  | appendSegment segmentId bytes =>
    rcases h with ⟨-, -, rfl⟩ | ⟨-, ⟨-, rfl⟩ | ⟨-, -, written, -, rfl⟩⟩
    · exact hself
    · exact SameFront.withSegments (SortedTable.below_modify _ hguard _)
    · exact SameFront.withSegments (SortedTable.below_modify _ hguard _)
  | syncSegment segmentId =>
    rcases h with ⟨-, -, rfl⟩ | ⟨-, ⟨-, rfl⟩ | ⟨-, -, rfl⟩⟩
    · exact hself
    · exact SameFront.withSegments (SortedTable.below_modify _ hguard _)
    · exact hself
  | truncateSegment site segmentId len =>
    rcases h with ⟨-, -, rfl⟩ | ⟨-, ⟨-, rfl⟩ | ⟨-, -, rfl | rfl⟩⟩
    · exact hself
    · exact SameFront.withSegments (SortedTable.below_modify _ hguard _)
    · exact hself
    · exact SameFront.withSegments (SortedTable.below_modify _ hguard _)
  | respond channel record result =>
    obtain rfl := h
    exact ⟨rfl, rfl, rfl, rfl, rfl, rfl, _, rfl, by simp [Event.isReplay]⟩

end Ingest4x.Wal
