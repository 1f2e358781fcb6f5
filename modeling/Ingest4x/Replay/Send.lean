import Ingest4x.Replay.View

/-! # Sending in batches

`send_sink_events_in_batches` as data and as a run: the batches it makes are a function of the
events and the policy, and it sends them one after the other until one fails.

* **`sinkBatches`** — the batches with their metadata.
* **`sendSinkEventsInBatches_eq`** — the function sends exactly these, in order.
* **`wpc_sendBatches`** — what a run leaves in the trace. -/

namespace Ingest4x.Wal

open Effect

/-- A batch as it is passed to the sink. -/
abbrev SentBatch : Type := List Value × EventSinkBatchMetadata

/-! ### The batches -/

/-- The batches that the loop closes, and the one it leaves open. -/
def splitBatches (policy : SinkBatchPolicy) :
    List SinkDeliveryEvent → SinkBatch → List SentBatch × SinkBatch
  | [], batch => ([], batch)
  | delivery :: deliveries, batch =>
    if startsNewBatch policy batch delivery then
      let (closed, last) := splitBatches policy deliveries
        (SinkBatch.push { batch with events := [], bytes := 0, nodeId := none, firstLsn := none }
          delivery)
      ((batch.events, ⟨batch.nodeId.getD "", batch.firstLsn.getD 0, batch.lastLsn.getD 0⟩) :: closed,
        last)
    else splitBatches policy deliveries (batch.push delivery)

/-- **The batches of `send_sink_events_in_batches`.** -/
def sinkBatches (policy : SinkBatchPolicy) (events : List SinkDeliveryEvent) : List SentBatch :=
  let (closed, last) := splitBatches policy events ⟨[], 0, none, none, none⟩
  if last.events = [] then closed
  else
    closed ++ [(last.events,
      ⟨(events.head?.map SinkDeliveryEvent.nodeId).getD "", last.firstLsn.getD 0,
        last.lastLsn.getD 0⟩)]

/-- The variables of a batch that holds events are set. -/
def SinkBatch.Filled (batch : SinkBatch) : Prop :=
  batch.events ≠ [] → batch.nodeId.isSome ∧ batch.firstLsn.isSome ∧ batch.lastLsn.isSome

theorem SinkBatch.filled_push (batch : SinkBatch) (delivery : SinkDeliveryEvent) :
    (batch.push delivery).Filled :=
  fun _ => ⟨rfl, rfl, rfl⟩

/-- A batch is only closed when it holds events. -/
theorem events_ne_nil_of_startsNewBatch {policy : SinkBatchPolicy} (hpolicy : 1 ≤ policy.maxEvents)
    {batch : SinkBatch} {delivery : SinkDeliveryEvent}
    (h : startsNewBatch policy batch delivery = true) : batch.events ≠ [] := by
  intro hempty
  simp only [startsNewBatch, hempty, List.length_nil, ne_eq, not_true_eq_false, decide_false,
    Bool.false_and, Bool.or_false, decide_eq_true_eq] at h
  omega

/-- The loop leaves a filled batch open. -/
theorem splitBatches_filled (policy : SinkBatchPolicy) (events : List SinkDeliveryEvent)
    {batch : SinkBatch} (h : batch.Filled) : (splitBatches policy events batch).2.Filled := by
  induction events generalizing batch with
  | nil => exact h
  | cons delivery events ih =>
    rw [splitBatches]
    split_ifs
    · exact ih (SinkBatch.filled_push _ _)
    · exact ih (SinkBatch.filled_push _ _)

/-- The batches hold the events, in order. -/
theorem splitBatches_events (policy : SinkBatchPolicy) (events : List SinkDeliveryEvent)
    (batch : SinkBatch) :
    (splitBatches policy events batch).1.flatMap Prod.fst ++
        (splitBatches policy events batch).2.events =
      batch.events ++ events.map SinkDeliveryEvent.event := by
  induction events generalizing batch with
  | nil => simp [splitBatches]
  | cons delivery events ih =>
    rw [splitBatches]
    split_ifs
    · simp only [List.flatMap_cons, List.append_assoc, ih, SinkBatch.push, List.nil_append,
        List.map_cons, List.singleton_append]
    · rw [ih]
      simp only [SinkBatch.push, List.append_assoc, List.map_cons, List.singleton_append]

/-- **The batches hold all events and nothing else**, in order. -/
theorem sinkBatches_events (policy : SinkBatchPolicy) (events : List SinkDeliveryEvent) :
    (sinkBatches policy events).flatMap Prod.fst = events.map SinkDeliveryEvent.event := by
  have h := splitBatches_events policy events ⟨[], 0, none, none, none⟩
  rw [List.nil_append] at h
  rw [sinkBatches]
  simp only
  split_ifs with hempty
  · rw [← h, hempty, List.append_nil]
  · rw [List.flatMap_append, ← h, List.flatMap_singleton]

/-! ### The function sends the batches -/

section Run

variable {τ : Type}

/-- Send one batch. -/
def sendBatchTo (sinkName : String) (batch : SentBatch) : Cmd SysOp SysResp τ SendError Unit :=
  sendSinkBatch sinkName batch.1 batch.2

theorem expect_eq_pure {α : Type} (message : String) {o : Option α} (h : o.isSome) (d : α) :
    (expect message o : Cmd SysOp SysResp τ SendError α) = pure (o.getD d) := by
  obtain ⟨a, rfl⟩ := Option.isSome_iff_exists.mp h
  rfl

theorem sendBatchesLoop_eq (sinkName : String) {policy : SinkBatchPolicy}
    (hpolicy : 1 ≤ policy.maxEvents) (events : List SinkDeliveryEvent) {batch : SinkBatch}
    (h : batch.Filled) :
    (sendBatchesLoop sinkName policy events batch : Cmd SysOp SysResp τ SendError SinkBatch) =
      Cmd.forEach (sendBatchTo sinkName) (splitBatches policy events batch).1 >>=
        fun _ => pure (splitBatches policy events batch).2 := by
  induction events generalizing batch with
  | nil => simp [sendBatchesLoop, splitBatches]
  | cons delivery events ih =>
    rw [sendBatchesLoop, splitBatches]
    split_ifs with hnew
    · obtain ⟨hnode, hfirst, hlast⟩ := h (events_ne_nil_of_startsNewBatch hpolicy hnew)
      rw [expect_eq_pure _ hfirst 0, expect_eq_pure _ hnode "", expect_eq_pure _ hlast 0]
      simp only [pure_bind, Cmd.forEach_cons, bind_assoc, ih (SinkBatch.filled_push _ _), sendBatchTo]
    · exact ih (SinkBatch.filled_push _ _)

/-- **The function sends its batches in order.** -/
theorem sendSinkEventsInBatches_eq (sinkName : String) {policy : SinkBatchPolicy}
    (hpolicy : 1 ≤ policy.maxEvents) (events : List SinkDeliveryEvent) :
    (sendSinkEventsInBatches sinkName events policy : Cmd SysOp SysResp τ SendError Unit) =
      Cmd.forEach (sendBatchTo sinkName) (sinkBatches policy events) := by
  have hfilled : SinkBatch.Filled ⟨[], 0, none, none, none⟩ := fun h => absurd rfl h
  rw [sendSinkEventsInBatches, sendBatchesLoop_eq sinkName hpolicy events hfilled, sinkBatches]
  simp only [bind_assoc, pure_bind]
  split_ifs with hempty
  · rw [bind_pure_unit]
  · obtain ⟨-, hfirst, hlast⟩ := splitBatches_filled policy events hfilled hempty
    have hhead : (events.head?.map SinkDeliveryEvent.nodeId).isSome := by
      cases events with
      | nil => exact absurd rfl hempty
      | cons delivery events => rfl
    rw [expect_eq_pure _ hfirst 0, expect_eq_pure _ hhead "", expect_eq_pure _ hlast 0]
    simp only [pure_bind, Cmd.forEach_append, Cmd.forEach_cons, Cmd.forEach_nil, sendBatchTo,
      bind_pure_unit]

/-! ### What a run leaves in the trace -/

/-- The trace of batches that the sink acknowledged. -/
def okSends (sinkName : String) (batches : List SentBatch) : List Event :=
  batches.map fun batch => .sent sinkName batch.1 batch.2 (.ok ())

/-- **Sending in batches**: the sink acknowledges batches in order until one fails. -/
theorem wpc_sendBatches [CheckpointCodec] {mayFail : SysOp → Prop} {P : SysOp → ReplayView → Prop}
    {Q : Unit → τ → ReplayView → Prop} {E : SendError → τ → ReplayView → Prop} {t : τ}
    {v : ReplayView} (sinkName : String) (batches : List SentBatch)
    (hP : ∀ done events metadata, done <+: batches →
      P (.sendBatch sinkName events metadata) (v.log (okSends sinkName done)))
    (hQ : Q () t (v.log (okSends sinkName batches)))
    (hE : ∀ done batch rest error, batches = done ++ batch :: rest →
      mayFail (.sendBatch sinkName batch.1 batch.2) →
      E (.failed batch.2.lsnStart error) t
        (v.log (okSends sinkName done ++ [.sent sinkName batch.1 batch.2 (.error error)]))) :
    wpc (viewEnv mayFail) P (Cmd.forEach (sendBatchTo sinkName) batches) Q E t v := by
  induction batches generalizing v with
  | nil =>
    rw [Cmd.forEach_nil, wpc_pure]
    rw [okSends, List.map_nil, ReplayView.log_nil] at hQ
    exact hQ
  | cons batch batches ih =>
    rw [Cmd.forEach_cons, wpc_bind, sendBatchTo, sendSinkBatch, wpc_bind, wpc_perform]
    refine ⟨by simpa [okSends] using hP [] batch.1 batch.2 List.nil_prefix, ?_⟩
    rintro r v' ⟨rfl, rfl | ⟨hmay, error, rfl⟩⟩
    · refine ih (fun done events metadata hdone => ?_) ?_ fun done b rest error hsplit hmay => ?_
      · simpa [okSends] using hP (batch :: done) events metadata
          ((List.prefix_cons_inj batch).mpr hdone)
      · simpa [okSends] using hQ
      · simpa [okSends] using hE (batch :: done) b rest error (by rw [hsplit]; rfl) hmay
    · simpa [okSends] using hE [] batch batches error rfl hmay

end Run

end Ingest4x.Wal
