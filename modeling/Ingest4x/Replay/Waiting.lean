import Ingest4x.Replay.Alignment
import Ingest4x.Replay.Call

/-! # Waiting for the timeout of a sink

How a call changes the times since when the sinks wait: a window that is sent clears the times of its
sinks, and the window left over starts the clocks that do not run yet.

* **`waitsSince`** — since when a sink waits.
* **`sinksDeferredLoop_ok`** — what a deferral says about every sink of the window left over.
* **`ReplayCall.waitsSince_after`** — a sink that no window is sent to keeps waiting.
* **`ReplayCall.savedUpTo_after`** — what is saved ends with a window. -/

namespace Ingest4x.Wal

/-- Since when a sink waits. -/
def waitsSince (runtime : Option PendingSince) (sink : String) : Option Nat :=
  runtime.bind fun pending => pending.lookup sink

/-! ### Deferring the window left over -/

section Deferral

variable [DurationCodec] {context : WalReplayContext} {now : Nat}

/-- Other sinks wait as before, and those of the window since now if they have not waited yet. -/
theorem sinksDeferredLoop_lookup {rows : List (String × List SinkDeliveryEvent)}
    {deferred sinks : List String} {pending pending' : PendingSince}
    (h : sinksDeferredLoop context now rows deferred pending = (.ok sinks, pending'))
    (hne : sinks ≠ []) (sink : String) :
    pending'.lookup sink =
      if sink ∈ rows.map Prod.fst then some ((pending.lookup sink).getD now)
      else pending.lookup sink := by
  induction rows generalizing deferred pending with
  | nil =>
    cases h
    rfl
  | cons row rows ih =>
    obtain ⟨name, events⟩ := row
    rw [sinksDeferredLoop] at h
    cases hpolicy : sinkPolicy context name with
    | error issue => simp [hpolicy] at h
    | ok policy =>
      simp only [hpolicy] at h
      split_ifs at h with hfull hlate
      · cases h
        exact absurd rfl hne
      · cases h
        exact absurd rfl hne
      · rw [ih h, SortedTable.lookup_insert, List.map_cons]
        by_cases hname : sink = name
        · subst hname
          simp
        · have hmem : sink ∈ name :: rows.map Prod.fst ↔ sink ∈ rows.map Prod.fst := by
            rw [List.mem_cons, or_iff_right hname]
          rw [if_neg hname]
          by_cases hrows : sink ∈ rows.map Prod.fst
          · rw [if_pos hrows, if_pos (hmem.2 hrows)]
          · rw [if_neg hrows, if_neg fun h => hrows (hmem.1 h)]

/-- **A deferral**: every sink of the window has a timeout that has not passed. -/
theorem sinksDeferredLoop_ok {rows : List (String × List SinkDeliveryEvent)}
    {deferred sinks : List String} {pending pending' : PendingSince}
    (h : sinksDeferredLoop context now rows deferred pending = (.ok sinks, pending'))
    (hne : sinks ≠ []) :
    ∀ row ∈ rows, ∃ policy, sinkPolicy context row.1 = .ok policy ∧
      now - (pending.lookup row.1).getD now < policy.timeout := by
  induction rows generalizing deferred pending with
  | nil => simp
  | cons row rows ih =>
    obtain ⟨name, events⟩ := row
    rw [sinksDeferredLoop] at h
    cases hpolicy : sinkPolicy context name with
    | error issue => simp [hpolicy] at h
    | ok policy =>
      simp only [hpolicy] at h
      split_ifs at h with hfull hlate
      · cases h
        exact absurd rfl hne
      · cases h
        exact absurd rfl hne
      · intro row hrow
        rcases List.mem_cons.mp hrow with rfl | hrow
        · exact ⟨policy, hpolicy, not_le.mp hlate⟩
        · -- the clocks that were started before are the same for the rest of the window
          obtain ⟨policy', hpolicy', hwaits⟩ := ih h row hrow
          refine ⟨policy', hpolicy', ?_⟩
          rw [SortedTable.lookup_insert] at hwaits
          split_ifs at hwaits with hname
          · rw [hname]
            exact hwaits
          · exact hwaits

end Deferral

section Call

variable [JsonCodec]

/-! ### Which sinks a window is sent to -/

/-- **A record has deliveries for a sink.** -/
def DeliversTo (context : WalReplayContext) (sink : String) (entry : WalEntry) : Prop :=
  expectedEvents context sink [entry] ≠ []

theorem expectedEvents_eq_nil_iff {context : WalReplayContext} {sink : String}
    {entries : List WalEntry} :
    expectedEvents context sink entries = [] ↔
      ∀ entry ∈ entries, ¬DeliversTo context sink entry := by
  simp only [DeliversTo, expectedEvents, List.flatMap_eq_nil_iff, List.mem_singleton, forall_eq,
    not_not]

/-- A table whose rows are not empty keeps them so with the deliveries of one more entry. -/
theorem addEntryDeliveries_ne_nil (item : ReplayEntryDeliveries)
    {table : SortedTable String (List SinkDeliveryEvent)}
    (h : ∀ sink events, table.lookup sink = some events → events ≠ []) (sink : String)
    (events : List SinkDeliveryEvent)
    (hlookup : (addEntryDeliveries item table).lookup sink = some events) : events ≠ [] := by
  unfold addEntryDeliveries at hlookup
  generalize item.deliveriesBySink.entries = rows at hlookup
  induction rows generalizing table with
  | nil => exact h sink events hlookup
  | cons row rows ih =>
    obtain ⟨name, values⟩ := row
    rw [List.foldl_cons] at hlookup
    refine ih (fun sink' events' hlookup' => ?_) hlookup
    simp only at hlookup'
    split_ifs at hlookup' with hempty
    · exact h sink' events' hlookup'
    · rw [SortedTable.lookup_insert] at hlookup'
      split_ifs at hlookup' with hname
      · injection hlookup' with hevents
        rw [← hevents, sinkDeliveryEvents]
        simp [hempty]
      · exact h sink' events' hlookup'

/-- A sink of a window has events in it. -/
theorem sinkEventsByName_ne_nil {checkpoint : Option WalPosition}
    {batch : List ReplayEntryDeliveries} {sink : String} {events : List SinkDeliveryEvent}
    (hlookup : (sinkEventsByName checkpoint batch).lookup sink = some events) : events ≠ [] := by
  suffices H : ∀ table : SortedTable String (List SinkDeliveryEvent),
      (∀ sink events, table.lookup sink = some events → events ≠ []) →
      ∀ sink events, (batch.foldl (fun table item =>
        if checkpointCoversEntry checkpoint item.entry then table
        else addEntryDeliveries item table) table).lookup sink = some events → events ≠ [] by
    exact H ∅ (fun sink events h => by cases h) sink events hlookup
  clear hlookup
  induction batch with
  | nil => exact fun _ h => h
  | cons item batch ih =>
    intro table h
    rw [List.foldl_cons]
    refine ih _ fun sink' events' hlookup' => ?_
    split_ifs at hlookup' with hcovers
    · exact h sink' events' hlookup'
    · exact addEntryDeliveries_ne_nil item h sink' events' hlookup'

namespace ReplayCall

variable {call : ReplayCall}

/-- **The sinks of a window** are those that its records have deliveries for. -/
theorem Window.lookup_sinks_eq_none_iff (hcall : call.Started) {done : List ReplayMove}
    {batch : List ReplayEntryDeliveries} (h : call.Window done batch) {saved unsaved : List WalEntry}
    (hdone : movesEntries done = saved ++ unsaved)
    (hstate : SavedUpTo call.start saved unsaved (call.after done).env.state) (sink : String) :
    (call.sinks done batch).lookup sink = none ↔
      ∀ item ∈ batch, ¬DeliversTo call.context sink item.entry := by
  have hdue := h.dueEvents_sinks hcall hdone hstate.checkpoint sink
  rw [dueEvents_entries] at hdue
  have hexpected : expectedEvents call.context sink (batch.map ReplayEntryDeliveries.entry) = [] ↔
      ∀ item ∈ batch, ¬DeliversTo call.context sink item.entry := by
    rw [expectedEvents_eq_nil_iff]
    simp
  rw [← hexpected, ← hdue, sinks]
  cases hlookup : (sinkEventsByName (call.after done).env.state.checkpoint batch).lookup sink with
  | none => simp
  | some events => simpa using sinkEventsByName_ne_nil hlookup

/-! ### What is saved -/

omit [JsonCodec] in
theorem savedUpTo_flushIfDue {start : Option WalPosition} {saved unsaved : List WalEntry}
    {rc : ReplayClock} (policy : CheckpointFlushPolicy) (clock : Nat → Nat)
    (h : SavedUpTo start saved unsaved rc.env.state) :
    SavedUpTo start (saved ++ unsaved) [] (rc.flushIfDue policy clock).env.state ∨
      SavedUpTo start saved unsaved (rc.flushIfDue policy clock).env.state := by
  unfold ReplayClock.flushIfDue
  split_ifs
  · exact Or.inl h.flush
  · have hticks : SavedUpTo start saved unsaved
        (⟨rc.env, rc.ticks + 1⟩ : ReplayClock).env.state := h
    exact Or.inl hticks.flush
  · exact Or.inr h

/-- **What is saved after some moves ends with one of them.** -/
theorem savedUpTo_after (hcall : call.Started) {done post : List ReplayMove}
    (hmoves : call.plan.moves = done ++ post) :
    ∃ kept rest, done = kept ++ rest ∧
      SavedUpTo call.start (movesEntries kept) (movesEntries rest) (call.after done).env.state := by
  induction done using List.reverseRecOn generalizing post with
  | nil =>
    obtain ⟨now, hnow⟩ := hcall.state
    refine ⟨[], [], rfl, ?_⟩
    show SavedUpTo call.start [] [] call.clock.env.state
    rw [hnow]
    exact ⟨rfl, rfl, rfl⟩
  | append_singleton done move ih =>
    rw [List.append_assoc, List.singleton_append] at hmoves
    obtain ⟨kept, rest, hdone, hsaved⟩ := ih hmoves
    have hafter : call.after (done ++ [move]) =
        (call.after done).move call.policy call.view.clock move :=
      ReplayClock.after_append_singleton ..
    have hsplit : done ++ [move] = kept ++ (rest ++ [move]) := by rw [hdone, List.append_assoc]
    have hrest : movesEntries (rest ++ [move]) = movesEntries rest ++ move.entries := by simp
    rw [hafter]
    cases move with
    | quarantine entry issue =>
      refine ⟨kept, rest ++ [.quarantine entry issue], hsplit, ?_⟩
      rw [hrest]
      exact hsaved.mark entry
    | window batch =>
      rw [ReplayClock.move]
      split_ifs with hempty
      · refine ⟨kept, rest ++ [.window batch], hsplit, ?_⟩
        rw [hrest, hempty]
        exact (List.append_nil (movesEntries rest)).symm ▸ hsaved
      · have hwindow : call.Window done batch := Or.inl ⟨post, hmoves⟩
        have hmarked : SavedUpTo call.start (movesEntries kept)
            (movesEntries (rest ++ [.window batch])) ((call.after done).mark batch).env.state := by
          rw [hrest]
          exact hsaved.markBatch (hwindow.not_covers hcall
            (by rw [hdone, movesEntries_append]) hsaved.checkpoint)
        rcases savedUpTo_flushIfDue call.policy call.view.clock hmarked with hflushed | hkept
        · refine ⟨done ++ [.window batch], [], (List.append_nil _).symm, ?_⟩
          rw [← movesEntries_append, ← hsplit] at hflushed
          exact hflushed
        · exact ⟨kept, rest ++ [.window batch], hsplit, hkept⟩

/-- What is saved after all moves. -/
theorem savedUpTo_moves (hcall : call.Started) :
    ∃ kept rest, call.plan.moves = kept ++ rest ∧
      SavedUpTo call.start (movesEntries kept) (movesEntries rest)
        (call.after call.plan.moves).env.state :=
  savedUpTo_after hcall (show call.plan.moves = call.plan.moves ++ [] from (List.append_nil _).symm)

/-! ### Which sinks keep waiting -/

omit [JsonCodec] in
/-- The runtime state is not touched by a flush. -/
theorem runtime_flushIfDue (policy : CheckpointFlushPolicy) (clock : Nat → Nat) (rc : ReplayClock) :
    (rc.flushIfDue policy clock).env.runtime = rc.env.runtime := by
  have hflush : ∀ rc : ReplayClock, (rc.flush clock).env.runtime = rc.env.runtime := by
    intro rc
    unfold ReplayClock.flush
    cases rc.env.state.pendingCheckpoint <;> rfl
  unfold ReplayClock.flushIfDue
  split_ifs
  · exact hflush rc
  · exact hflush _
  · rfl

/-- A window clears the times of its sinks. -/
theorem waitsSince_mark (batch : List ReplayEntryDeliveries) (rc : ReplayClock) (sink : String) :
    waitsSince (rc.mark batch).env.runtime sink =
      if (sinkEventsByName rc.env.state.checkpoint batch).lookup sink = none then
        waitsSince rc.env.runtime sink
      else none := by
  unfold waitsSince ReplayClock.mark
  cases rc.env.runtime with
  | none => simp
  | some pending =>
    simp only [Option.map_some, Option.bind_some, SortedTable.lookup_filter]
    cases (sinkEventsByName rc.env.state.checkpoint batch).lookup sink <;>
      cases pending.lookup sink <;> rfl

/-- No sink starts to wait while windows are sent. -/
theorem waitsSince_of_after {policy : CheckpointFlushPolicy} {clock : Nat → Nat} {rc : ReplayClock}
    {sink : String} {since : Nat} {moves : List ReplayMove}
    (h : waitsSince (rc.after policy clock moves).env.runtime sink = some since) :
    waitsSince rc.env.runtime sink = some since := by
  induction moves using List.reverseRecOn with
  | nil => exact h
  | append_singleton moves move ih =>
    rw [ReplayClock.after_append_singleton] at h
    refine ih ?_
    cases move with
    | quarantine entry issue => exact h
    | window batch =>
      rw [ReplayClock.move] at h
      split_ifs at h with hempty
      · exact h
      · rw [runtime_flushIfDue, waitsSince_mark] at h
        split_ifs at h
        exact h

/-- **A sink that no window is sent to keeps waiting.** -/
theorem waitsSince_after (hcall : call.Started) {sink : String} {done post : List ReplayMove}
    (hmoves : call.plan.moves = done ++ post)
    (hnone : ∀ batch, .window batch ∈ done → ∀ item ∈ batch,
      ¬DeliversTo call.context sink item.entry) :
    waitsSince (call.after done).env.runtime sink = waitsSince call.clock.env.runtime sink := by
  induction done using List.reverseRecOn generalizing post with
  | nil => rfl
  | append_singleton done move ih =>
    rw [List.append_assoc, List.singleton_append] at hmoves
    have hbefore := ih hmoves fun batch hbatch => hnone batch (List.mem_append_left _ hbatch)
    have hafter : call.after (done ++ [move]) =
        (call.after done).move call.policy call.view.clock move :=
      ReplayClock.after_append_singleton ..
    rw [hafter]
    cases move with
    | quarantine entry issue => exact hbefore
    | window batch =>
      rw [ReplayClock.move]
      split_ifs with hempty
      · exact hbefore
      · obtain ⟨kept, rest, hdone, hsaved⟩ := savedUpTo_after hcall hmoves
        have hwindow : call.Window done batch := Or.inl ⟨post, hmoves⟩
        have hlookup := (hwindow.lookup_sinks_eq_none_iff hcall
          (by rw [hdone, movesEntries_append]) hsaved sink).2
          (hnone batch (List.mem_append_right _ (List.mem_singleton.mpr rfl)))
        rw [sinks] at hlookup
        rw [runtime_flushIfDue, waitsSince_mark, if_pos hlookup]
        exact hbefore

theorem waitsSince_moves (hcall : call.Started) {sink : String}
    (hnone : ∀ batch, .window batch ∈ call.plan.moves → ∀ item ∈ batch,
      ¬DeliversTo call.context sink item.entry) :
    waitsSince (call.after call.plan.moves).env.runtime sink =
      waitsSince call.clock.env.runtime sink :=
  waitsSince_after hcall
    (show call.plan.moves = call.plan.moves ++ [] from (List.append_nil _).symm) hnone

end ReplayCall

end Call

end Ingest4x.Wal
