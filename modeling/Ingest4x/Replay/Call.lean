import Ingest4x.Replay.Progress

/-! # The data of a replay call

What a call works on after its entries are read: its plan, the windows it comes to and what is known
of them.

* **`ReplayCall`** — the data, with **`ReplayCall.Started`**: how a call starts.
* **`ReplayCall.Window`** — a window that the call comes to.
* **`ReplayCall.Window.dueEvents_sinks`** — its sinks are due what the specification expects. -/

namespace Ingest4x.Wal

section Call

/-- An issue found while deferral is decided is one of a batch policy. -/
theorem sinksDeferredLoop_error [DurationCodec] {context : WalReplayContext} {now : Nat}
    {issue : ReplayIssue}
    (sinks : List (String × List SinkDeliveryEvent)) {deferred : List String}
    {pending : PendingSince}
    (h : (sinksDeferredLoop context now sinks deferred pending).1 = .error issue) :
    ∃ row ∈ sinks, sinkPolicy context row.1 = .error issue := by
  induction sinks generalizing deferred pending with
  | nil => cases h
  | cons sink sinks ih =>
    obtain ⟨sinkName, events⟩ := sink
    rw [sinksDeferredLoop] at h
    cases hpolicy : sinkPolicy context sinkName with
    | error issue' =>
      simp only [hpolicy, Except.error.injEq] at h
      exact ⟨_, List.mem_cons_self, h ▸ hpolicy⟩
    | ok policy =>
      simp only [hpolicy] at h
      split_ifs at h
      obtain ⟨row, hrow, herror⟩ := ih h
      exact ⟨row, List.mem_cons_of_mem _ hrow, herror⟩

variable [JsonCodec]

/-- **A replay call** after its entries are read. -/
structure ReplayCall where
  context : WalReplayContext
  policy : CheckpointFlushPolicy
  start : Option WalPosition
  entries : List WalEntry
  view : ReplayView
  clock : ReplayClock

namespace ReplayCall

/-- The plan of the call. -/
def plan (call : ReplayCall) : ReplayPlan :=
  planEntries call.context (replayWindowPolicy call.context.replay) call.entries
    ⟨call.start.map fun position => position.lsn + 1, [], 0⟩

/-- The entries that the call goes through: those up to the first LSN gap. -/
def all (call : ReplayCall) : List WalEntry :=
  contiguousEntries (call.start.map fun position => position.lsn + 1) call.entries

/-- The local state after some moves. -/
def after (call : ReplayCall) (moves : List ReplayMove) : ReplayClock :=
  call.clock.after call.policy call.view.clock moves

/-- A window that the call comes to after the moves `done`. -/
def Window (call : ReplayCall) (done : List ReplayMove) (batch : List ReplayEntryDeliveries) :
    Prop :=
  (∃ post, call.plan.moves = done ++ .window batch :: post) ∨
    (done = call.plan.moves ∧ ∃ loop, call.plan.ending = .trailing loop ∧ loop.replayBatch = batch)

/-- The sinks of a window that the call comes to after the moves `done`. -/
def sinks (call : ReplayCall) (done : List ReplayMove) (batch : List ReplayEntryDeliveries) :
    SortedTable String (List SinkDeliveryEvent) :=
  sinkEventsByName (call.after done).env.state.checkpoint batch

section Deferral

variable [DurationCodec]

/-- The windows among the moves `done` can be sent: their sinks have valid batch policies. -/
def Sendable (call : ReplayCall) (done : List ReplayMove) : Prop :=
  ∀ pre batch post, done = pre ++ .window batch :: post →
    ∀ row ∈ (call.sinks pre batch).entries, PolicyParses call.context row.1

/-- The sinks for which the window left over is deferred. -/
def deferral (call : ReplayCall) (loop : ReplayLoop) : Except ReplayIssue (List String) :=
  match (call.after call.plan.moves).env.runtime with
  | none => .ok []
  | some pending =>
    (sinksDeferredLoop call.context (call.view.clock (call.after call.plan.moves).ticks)
      (call.sinks call.plan.moves loop.replayBatch).entries [] pending).1

/-- A window that the call sends after the moves `done`: the one left over is not deferred. -/
def Sends (call : ReplayCall) (done : List ReplayMove) (batch : List ReplayEntryDeliveries) : Prop :=
  (∃ post, call.plan.moves = done ++ .window batch :: post) ∨
    (done = call.plan.moves ∧ ∃ loop, call.plan.ending = .trailing loop ∧ loop.replayBatch = batch ∧
      call.deferral loop = .ok [])

/-- **The window left over is deferred**: a sink waits for more events. -/
def Defers (call : ReplayCall) : Prop :=
  ∃ loop sinks, call.plan.ending = .trailing loop ∧ call.deferral loop = .ok sinks ∧ sinks ≠ []

theorem Sends.window {call : ReplayCall} {done : List ReplayMove}
    {batch : List ReplayEntryDeliveries} (h : call.Sends done batch) : call.Window done batch :=
  h.imp_right fun ⟨hdone, loop, hending, hbatch, _⟩ => ⟨hdone, loop, hending, hbatch⟩

/-- An issue found while deferral is decided is one of the batch policy of a sink. -/
theorem deferral_error (call : ReplayCall) {loop : ReplayLoop} {issue : ReplayIssue}
    (h : call.deferral loop = .error issue) :
    ∃ row ∈ (call.sinks call.plan.moves loop.replayBatch).entries,
      sinkPolicy call.context row.1 = .error issue := by
  unfold deferral at h
  split at h
  · cases h
  · exact sinksDeferredLoop_error _ h

end Deferral

/-- **A call starts** with a fresh checkpoint state, on entries in order that the checkpoint on disk
does not cover. -/
structure Started (call : ReplayCall) : Prop where
  state : ∃ now, call.clock.env.state = ⟨call.start, none, 0, 0, now⟩
  ticks : call.view.ticks = call.clock.ticks
  ordered : Ordered call.start call.entries
  uncovered : Ordered call.view.durable call.entries
  start : call.start = none ∨ call.view.durable = call.start

/-- The invariant between two moves of the call. -/
abbrev At (call : ReplayCall) (saved unsaved : List WalEntry) (rc : ReplayClock)
    (v : ReplayView) : Prop :=
  Standing call.context call.start call.view saved unsaved rc v

/-- What holds at a moment of the call. -/
abbrev Meets (call : ReplayCall) (v : ReplayView) : Prop :=
  IsMoment call.context call.view call.all v

variable {call : ReplayCall}

theorem entries_plan (call : ReplayCall) : call.plan.entries = call.all := by
  rw [plan, planEntries_covers]
  rfl

/-- What the call has gone through is among its entries. -/
theorem movesEntries_isPrefix (call : ReplayCall) :
    movesEntries call.plan.moves <+: call.all := by
  rw [← call.entries_plan, ReplayPlan.entries]
  exact List.prefix_append _ _

theorem movesEntries_prefix_all {call : ReplayCall} {done rest : List ReplayMove}
    (hmoves : call.plan.moves = done ++ rest) : movesEntries done <+: call.all := by
  refine List.IsPrefix.trans ?_ call.movesEntries_isPrefix
  rw [hmoves, movesEntries_append]
  exact List.prefix_append _ _

/-- A window holds the next entries of the call. -/
theorem Window.isPrefix {done : List ReplayMove} {batch : List ReplayEntryDeliveries}
    (h : call.Window done batch) :
    movesEntries done ++ batch.map ReplayEntryDeliveries.entry <+: call.all := by
  rw [← call.entries_plan, ReplayPlan.entries]
  rcases h with ⟨post, hmoves⟩ | ⟨rfl, loop, hending, rfl⟩
  · rw [hmoves, movesEntries_append, movesEntries_cons, List.append_assoc, List.append_assoc,
      ← List.append_assoc]
    exact List.prefix_append _ _
  · rw [hending]
    exact List.prefix_rfl

/-- A window holds the deliveries of its entries. -/
theorem Window.wellGrouped {done : List ReplayMove} {batch : List ReplayEntryDeliveries}
    (h : call.Window done batch) : WellGrouped call.context batch := by
  obtain ⟨hmoves, hlast⟩ := planEntries_sound call.context
    (replayWindowPolicy call.context.replay) call.entries
    ⟨call.start.map fun position => position.lsn + 1, [], 0⟩ (by simp [WellGrouped])
  rcases h with ⟨post, hsplit⟩ | ⟨-, loop, hending, rfl⟩
  · exact hmoves (.window batch) (hsplit ▸ List.mem_append_right _ List.mem_cons_self)
  · exact hlast loop hending

/-- The checkpoint of the call covers no entry of a window it comes to. -/
theorem Window.not_covers (hcall : call.Started) {done : List ReplayMove}
    {batch : List ReplayEntryDeliveries} (h : call.Window done batch) {saved unsaved : List WalEntry}
    (hdone : movesEntries done = saved ++ unsaved) {state : ReplayCheckpointState}
    (hstate : state.checkpoint = (lastPosition saved).or call.start) :
    ∀ item ∈ batch, checkpointCoversEntry state.checkpoint item.entry = false := by
  intro item hitem
  obtain ⟨before, behind, hbatch⟩ := List.append_of_mem hitem
  obtain ⟨rest, hrest⟩ := h.isPrefix
  have hsplit : call.all = (movesEntries done ++ before.map ReplayEntryDeliveries.entry) ++
      item.entry :: (behind.map ReplayEntryDeliveries.entry ++ rest) := by
    rw [← hrest, hbatch]
    simp
  have hsaved : saved <+: movesEntries done ++ before.map ReplayEntryDeliveries.entry := by
    rw [hdone, List.append_assoc]
    exact List.prefix_append _ _
  rw [hstate]
  exact checkpointCoversEntry_eq_false hcall.ordered hsplit hsaved

/-- Each sink of a window is due what the specification expects for the window. -/
theorem Window.dueEvents_sinks (hcall : call.Started) {done : List ReplayMove}
    {batch : List ReplayEntryDeliveries} (h : call.Window done batch) {saved unsaved : List WalEntry}
    (hdone : movesEntries done = saved ++ unsaved) {state : ReplayCheckpointState}
    (hstate : state.checkpoint = (lastPosition saved).or call.start) (sink : String) :
    dueEvents sink (sinkEventsByName state.checkpoint batch).entries =
      expectedEvents call.context sink (batch.map ReplayEntryDeliveries.entry) := by
  rw [dueEvents_entries, lookup_sinkEventsByName (h.not_covers hcall hdone hstate),
    List.map_flatMap, ← h.wellGrouped.expectedEvents]
  exact List.flatMap_congr fun item _ => map_event_sinkDeliveryEvents _ _

end ReplayCall

end Call

end Ingest4x.Wal
