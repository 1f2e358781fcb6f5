import Ingest4x.Replay.Send
import Ingest4x.Table.Greedy
import Ingest4x.Wal.Answer

/-! # The batches of a sink

`send_sink_events_in_batches` partitions the events: each batch is a piece of them within the limits of
the policy, and as long as it can be.

* **`batchPieces`** — the events of each batch.
* **`Partition`** — what the pieces are, and what the batches say of them.
* **`sendSinkEventsInBatches_partitions`** — what is sent, whatever the sink answers. -/

namespace Ingest4x.Wal

open Effect

/-! ### Pieces within the limits -/

/-- **Within the limits** of a policy; a single event may be larger than a batch. -/
def WithinLimits (policy : SinkBatchPolicy) (piece : List SinkDeliveryEvent) : Prop :=
  piece.length ≤ policy.maxEvents ∧
    (sinkDeliveryEventsBytes piece ≤ policy.maxBytes ∨ piece.length ≤ 1)

/-- The event does not go into the batch of a piece. -/
def closesPiece (policy : SinkBatchPolicy) (piece : List SinkDeliveryEvent)
    (delivery : SinkDeliveryEvent) : Bool :=
  decide (policy.maxEvents ≤ piece.length) ||
    (decide (piece ≠ []) &&
      decide (policy.maxBytes < saturatingAdd (sinkDeliveryEventsBytes piece) delivery.bytes))

/-- **The events of each batch.** -/
def batchPieces (policy : SinkBatchPolicy) (events : List SinkDeliveryEvent) :
    List (List SinkDeliveryEvent) :=
  cutInto (closesPiece policy) events []

@[simp] theorem sinkDeliveryEventsBytes_concat (piece : List SinkDeliveryEvent)
    (delivery : SinkDeliveryEvent) :
    sinkDeliveryEventsBytes (piece ++ [delivery]) =
      saturatingAdd (sinkDeliveryEventsBytes piece) delivery.bytes := by
  rw [sinkDeliveryEventsBytes, List.foldl_append]
  rfl

/-- **An event closes a piece** if and only if the two together are not within the limits. -/
theorem closesPiece_iff {policy : SinkBatchPolicy} (piece : List SinkDeliveryEvent)
    (delivery : SinkDeliveryEvent) :
    closesPiece policy piece delivery = true ↔ ¬WithinLimits policy (piece ++ [delivery]) := by
  rw [WithinLimits, sinkDeliveryEventsBytes_concat, List.length_append, List.length_singleton,
    closesPiece, Bool.or_eq_true, Bool.and_eq_true, decide_eq_true_eq, decide_eq_true_eq,
    decide_eq_true_eq]
  have hempty : piece = [] ↔ piece.length = 0 := List.length_eq_zero_iff.symm
  rw [ne_eq, hempty]
  omega

/-- An empty piece takes any event. -/
theorem closesPiece_nil {policy : SinkBatchPolicy} (hpolicy : 1 ≤ policy.maxEvents)
    (delivery : SinkDeliveryEvent) : closesPiece policy [] delivery = false := by
  rw [← Bool.not_eq_true, closesPiece_iff, not_not]
  exact ⟨hpolicy, Or.inr le_rfl⟩

/-- A piece that was not closed earlier is within the limits. -/
theorem withinLimits_of_uncut {policy : SinkBatchPolicy} (hpolicy : 1 ≤ policy.maxEvents)
    {piece : List SinkDeliveryEvent} (h : Uncut (closesPiece policy) piece) :
    WithinLimits policy piece := by
  rcases List.eq_nil_or_concat piece with rfl | ⟨front, delivery, rfl⟩
  · exact ⟨Nat.zero_le _, Or.inr (Nat.zero_le _)⟩
  · rw [List.concat_eq_append] at h ⊢
    by_contra hnot
    rw [← closesPiece_iff] at hnot
    cases front with
    | nil =>
      rw [closesPiece_nil hpolicy] at hnot
      cases hnot
    | cons first front =>
      rw [h _ delivery [] rfl (List.cons_ne_nil _ _)] at hnot
      cases hnot

/-! ### The batches are those of the pieces -/

/-- A batch of a piece of all events: its events, the LSNs of the first and the last of them, and the
node of one of all. -/
structure IsBatchOf (all piece : List SinkDeliveryEvent) (batch : SentBatch) : Prop where
  events : batch.1 = piece.map SinkDeliveryEvent.event
  lsnStart : piece.head?.map SinkDeliveryEvent.lsn = some batch.2.lsnStart
  lsnEnd : piece.getLast?.map SinkDeliveryEvent.lsn = some batch.2.lsnEnd
  nodeId : ∃ delivery ∈ all, delivery.nodeId = batch.2.nodeId

/-- The variables of the loop hold a piece; the last LSN is not reset with the others. -/
structure SinkBatch.Holds (batch : SinkBatch) (piece : List SinkDeliveryEvent) : Prop where
  events : batch.events = piece.map SinkDeliveryEvent.event
  bytes : batch.bytes = sinkDeliveryEventsBytes piece
  nodeId : batch.nodeId = piece.head?.map SinkDeliveryEvent.nodeId
  firstLsn : batch.firstLsn = piece.head?.map SinkDeliveryEvent.lsn
  lastLsn : piece ≠ [] → batch.lastLsn = piece.getLast?.map SinkDeliveryEvent.lsn

namespace SinkBatch.Holds

variable {batch : SinkBatch} {piece : List SinkDeliveryEvent}

/-- One more event. -/
theorem push (h : batch.Holds piece) (delivery : SinkDeliveryEvent) :
    (batch.push delivery).Holds (piece ++ [delivery]) where
  events := by rw [SinkBatch.push, h.events, List.map_append, List.map_singleton]
  bytes := by rw [SinkBatch.push, h.bytes, sinkDeliveryEventsBytes_concat]
  nodeId := by cases piece <;> simp [SinkBatch.push, h.nodeId]
  firstLsn := by cases piece <;> simp [SinkBatch.push, h.firstLsn]
  lastLsn := fun _ => by simp [SinkBatch.push]

/-- After a reset, whatever the last LSN is. -/
theorem reset (batch : SinkBatch) :
    SinkBatch.Holds { batch with events := [], bytes := 0, nodeId := none, firstLsn := none } [] where
  events := rfl
  bytes := rfl
  nodeId := rfl
  firstLsn := rfl
  lastLsn := fun h => absurd rfl h

/-- The loop closes the batch where the piece is closed. -/
theorem startsNewBatch_eq (h : batch.Holds piece) (policy : SinkBatchPolicy)
    (delivery : SinkDeliveryEvent) :
    startsNewBatch policy batch delivery = closesPiece policy piece delivery := by
  rw [startsNewBatch, closesPiece, h.events, h.bytes, List.length_map]
  simp only [ne_eq, List.map_eq_nil_iff]

/-- **The batch that is sent** is one of the piece. -/
theorem isBatchOf (h : batch.Holds piece) (hpiece : piece ≠ []) {all : List SinkDeliveryEvent}
    {nodeId : String} (hnode : ∃ delivery ∈ all, delivery.nodeId = nodeId) :
    IsBatchOf all piece
      (batch.events, ⟨nodeId, batch.firstLsn.getD 0, batch.lastLsn.getD 0⟩) where
  events := h.events
  lsnStart := by
    rw [h.firstLsn, List.head?_eq_some_head hpiece]
    rfl
  lsnEnd := by
    rw [h.lastLsn hpiece, List.getLast?_eq_some_getLast hpiece]
    rfl
  nodeId := hnode

end SinkBatch.Holds

/-- **The loop follows the pieces**: it closes a batch for each of them but the last, which it leaves
open. -/
theorem splitBatches_pieces {policy : SinkBatchPolicy} (hpolicy : 1 ≤ policy.maxEvents)
    (all events : List SinkDeliveryEvent) {batch : SinkBatch} {piece : List SinkDeliveryEvent}
    (h : batch.Holds piece) (hsub : piece ++ events ⊆ all) :
    ∃ pieces last, cutInto (closesPiece policy) events piece =
        pieces ++ (if last.isEmpty then [] else [last]) ∧
      List.Forall₂ (IsBatchOf all) pieces (splitBatches policy events batch).1 ∧
      (splitBatches policy events batch).2.Holds last := by
  induction events generalizing batch piece with
  | nil => exact ⟨[], piece, rfl, List.Forall₂.nil, h⟩
  | cons delivery events ih =>
    rw [cutInto, splitBatches, h.startsNewBatch_eq policy delivery]
    split_ifs with hcloses
    · have hpiece : piece ≠ [] := by
        rintro rfl
        rw [closesPiece_nil hpolicy] at hcloses
        cases hcloses
      obtain ⟨pieces, last, heq, hall, hlast⟩ := ih ((SinkBatch.Holds.reset batch).push delivery)
        fun d hd => hsub (List.mem_append_right _ hd)
      refine ⟨piece :: pieces, last, ?_, List.Forall₂.cons (h.isBatchOf hpiece ?_) hall, hlast⟩
      · rw [← List.nil_append [delivery], heq, List.cons_append]
      · refine ⟨piece.head hpiece, hsub (List.mem_append_left _ (List.head_mem hpiece)), ?_⟩
        rw [h.nodeId, List.head?_eq_some_head hpiece]
        rfl
    · exact ih (h.push delivery) (by rwa [List.append_assoc, List.singleton_append])

/-- **What a partition of events into batches is**: the pieces are the events in order, none is empty,
each is within the limits, and with the event after it it would not be. -/
structure Partition (policy : SinkBatchPolicy) (events : List SinkDeliveryEvent)
    (pieces : List (List SinkDeliveryEvent)) (batches : List SentBatch) : Prop where
  flatten : pieces.flatten = events
  nonempty : ∀ piece ∈ pieces, piece ≠ []
  limits : ∀ piece ∈ pieces, WithinLimits policy piece
  maximal : pieces.IsChain fun piece next =>
    ∀ delivery ∈ next.head?, ¬WithinLimits policy (piece ++ [delivery])
  batches : List.Forall₂ (IsBatchOf events) pieces batches

/-- **The batches are a partition of the events.** -/
theorem sinkBatches_partition {policy : SinkBatchPolicy} (hpolicy : 1 ≤ policy.maxEvents)
    (events : List SinkDeliveryEvent) :
    Partition policy events (batchPieces policy events) (sinkBatches policy events) where
  flatten := flatten_cutInto events []
  nonempty := fun _ hpiece => ne_nil_of_mem_cutInto (closesPiece_nil hpolicy) events hpiece
  limits := fun _ hpiece =>
    withinLimits_of_uncut hpolicy (uncut_of_mem_cutInto events (fun _ _ _ h => by simp at h) hpiece)
  maximal := (isChain_cutInto events []).imp fun _ _ h delivery hdelivery =>
    (closesPiece_iff _ _).mp (h delivery hdelivery)
  batches := by
    obtain ⟨pieces, last, heq, hall, hlast⟩ := splitBatches_pieces hpolicy events events
      (SinkBatch.Holds.reset ⟨[], 0, none, none, none⟩) (List.Subset.refl events)
    rw [batchPieces, sinkBatches, heq]
    simp only [hlast.events, List.map_eq_nil_iff]
    cases last with
    | nil => rwa [List.isEmpty_nil, if_pos rfl, if_pos rfl, List.append_nil]
    | cons first last =>
      rw [if_neg (by simp), if_neg (by simp)]
      refine List.rel_append hall (List.Forall₂.cons ?_ List.Forall₂.nil)
      rw [← hlast.events]
      refine hlast.isBatchOf (List.cons_ne_nil _ _) ?_
      cases events with
      | nil => cases pieces <;> cases heq
      | cons delivery events => exact ⟨delivery, List.mem_cons_self, rfl⟩

/-! ### What is sent -/

/-- **Sending in batches**, as it changes the world: only the trace grows, by the batches up to the
first that fails. -/
theorem wpc_forEach_sendBatchTo {τ : Type} {mayFail : SysOp → Prop} (sinkName : String)
    (batches : List SentBatch) (t : τ) (w : World) :
    wpc (sysEnv mayFail) (fun _ _ => True) (Cmd.forEach (sendBatchTo sinkName) batches)
      (fun _ _ w' => w' = w.log (okSends sinkName batches))
      (fun e _ w' => ∃ done batch rest error, batches = done ++ batch :: rest ∧
        e = .failed batch.2.lsnStart error ∧
        w' = w.log (okSends sinkName done ++ [.sent sinkName batch.1 batch.2 (.error error)]))
      t w := by
  refine wpc_forEach (fun done _ w' => w' = w.log (okSends sinkName done)) batches ?_
    (by rw [okSends, List.map_nil, World.log_nil])
  rintro done batch rest t w' hsplit rfl
  rw [sendBatchTo, sendSinkBatch, wpc_bind, wpc_perform]
  refine ⟨trivial, ?_⟩
  rintro r w' ⟨rfl, rfl | ⟨-, error, rfl⟩⟩
  · rw [World.record_eq_log, World.log_log]
    simp [okSends]
  · refine ⟨done, batch, rest, error, hsplit, rfl, ?_⟩
    rw [World.record_eq_log, World.log_log]

/-- **`send_sink_events_in_batches` partitions its input**, whatever the sink answers. The batches are a
partition of the events; all of them are sent in order when every send succeeds, else those before the
first that fails and this one, and the LSN in the error is the first of its events. It does not panic. -/
theorem sendSinkEventsInBatches_partitions {τ : Type} {mayFail : SysOp → Prop} (sinkName : String)
    (events : List SinkDeliveryEvent) {policy : SinkBatchPolicy} (hpolicy : 1 ≤ policy.maxEvents)
    {t t' : τ} {w w' : World} {result : Except SendError Unit}
    (hrun : Runs (sysEnv mayFail) ((sendSinkEventsInBatches sinkName events policy).start t) w
      (result, t') w') :
    Partition policy events (batchPieces policy events) (sinkBatches policy events) ∧
      ((result = .ok () ∧ w' = w.log (okSends sinkName (sinkBatches policy events))) ∨
        ∃ done batch rest error, sinkBatches policy events = done ++ batch :: rest ∧
          w' = w.log (okSends sinkName done ++ [.sent sinkName batch.1 batch.2 (.error error)]) ∧
          result = .error (.failed batch.2.lsnStart error)) := by
  refine ⟨sinkBatches_partition hpolicy events, ?_⟩
  rw [sendSinkEventsInBatches_eq sinkName hpolicy events] at hrun
  have hpost := wp_runs (wpc_forEach_sendBatchTo sinkName (sinkBatches policy events) t w) hrun
  cases result with
  | ok => exact Or.inl ⟨rfl, hpost⟩
  | error e =>
    obtain ⟨done, batch, rest, error, hsplit, rfl, hworld⟩ := hpost
    exact Or.inr ⟨done, batch, rest, error, hsplit, hworld, rfl⟩

section Sample

/-- Three events of forty bytes each. -/
def sampleDeliveries : List SinkDeliveryEvent :=
  [⟨"n", 1, .null, 40⟩, ⟨"n", 2, .null, 40⟩, ⟨"n", 3, .null, 40⟩]

example : (batchPieces ⟨5, 100, 0⟩ sampleDeliveries).map (List.map SinkDeliveryEvent.lsn) =
    [[1, 2], [3]] := by decide

/-- A sink that does not take a batch of one event. -/
def failsOnOne : SysOp → Option IoError
  | .sendBatch _ [_] _ => some (.other "down")
  | _ => none

/-- The second batch fails: both are sent, and the error has the LSN of the third event. -/
theorem sendSinkEventsInBatches_partitions_sample :
    Partition ⟨5, 100, 0⟩ sampleDeliveries (batchPieces ⟨5, 100, 0⟩ sampleDeliveries)
      (sinkBatches ⟨5, 100, 0⟩ sampleDeliveries) ∧
    (((sendSinkEventsInBatches "s" sampleDeliveries ⟨5, 100, 0⟩).start ()).exec
      (sysAnswer failsOnOne) (sampleWorld [])).1.1 = .error (.failed 3 "down") := by
  have hrun : Runs (sysEnv fun _ => True)
      ((sendSinkEventsInBatches "s" sampleDeliveries ⟨5, 100, 0⟩).start ()) (sampleWorld []) _ _ :=
    @runs_sysAnswer _ _ failsOnOne (fun _ _ => trivial) _ _
  exact ⟨(sendSinkEventsInBatches_partitions "s" sampleDeliveries (by decide) hrun).1, rfl⟩

end Sample

end Ingest4x.Wal
