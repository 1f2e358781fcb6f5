import Ingest4x.Replay.Send

/-! # Sending a window

`replay_batch_to_sinks` regroups a window by sink. What it makes for a sink is what the
specification expects for the entries of the window, and what a run leaves in the trace is a prefix
of that for every sink.

* **`lookup_sinkEventsByName`** — the regrouping keeps the order of the entries.
* **`SentAll`** / **`SentSome`** — all, or a prefix, of what a list of sinks is due.
* **`wpc_sendWindow`** — the loop over the sinks. -/

namespace Ingest4x.Wal

open Effect

section Regroup

variable [JsonCodec]

/-! ### Regrouping by sink -/

theorem map_event_sinkDeliveryEvents (entry : WalEntry) (events : List Value) :
    (sinkDeliveryEvents entry events).map SinkDeliveryEvent.event = events := by
  rw [sinkDeliveryEvents, List.map_map]
  exact List.map_id' events

theorem sinkDeliveryEvents_nil (entry : WalEntry) : sinkDeliveryEvents entry [] = [] := rfl

/-- Adding the deliveries of one entry: every sink gets its events at the end. -/
theorem lookup_addEntryDeliveries (item : ReplayEntryDeliveries)
    (table : SortedTable String (List SinkDeliveryEvent)) (sink : String) :
    ((addEntryDeliveries item table).lookup sink).getD [] =
      (table.lookup sink).getD [] ++
        sinkDeliveryEvents item.entry ((item.deliveriesBySink.lookup sink).getD []) := by
  obtain ⟨entry, ⟨rows, sorted⟩⟩ := item
  simp only [addEntryDeliveries, SortedTable.lookup]
  induction rows generalizing table with
  | nil => simp [sinkDeliveryEvents_nil]
  | cons row rows ih =>
    obtain ⟨hhead, htail⟩ := List.pairwise_cons.mp sorted
    obtain ⟨name, events⟩ := row
    rw [List.foldl_cons, ih _ htail, List.find?_cons]
    by_cases hname : name = sink
    · subst hname
      -- no later row has the same name
      have hnone : rows.find? (fun e => decide (e.1 = name)) = none := by
        rw [List.find?_eq_none]
        intro e hmem heq
        have := hhead e hmem
        rw [of_decide_eq_true heq] at this
        exact lt_irrefl _ this
      by_cases hempty : events = []
      · simp [hempty, hnone, sinkDeliveryEvents_nil]
      · have hlookup := SortedTable.lookup_insert table name name
          ((table.lookup name).getD [] ++ sinkDeliveryEvents entry events)
        rw [if_pos rfl] at hlookup
        simp only [SortedTable.lookup] at hlookup
        simp [hempty, hnone, sinkDeliveryEvents_nil, hlookup]
    · by_cases hempty : events = []
      · simp [hempty, hname]
      · have hlookup := SortedTable.lookup_insert table name sink
          ((table.lookup name).getD [] ++ sinkDeliveryEvents entry events)
        rw [if_neg (Ne.symm hname)] at hlookup
        simp only [SortedTable.lookup] at hlookup
        simp [hempty, hname, hlookup]

/-- **Regrouping a window**: where the checkpoint covers none of its entries, each sink gets the
deliveries of the entries in order. -/
theorem lookup_sinkEventsByName {checkpoint : Option WalPosition}
    {batch : List ReplayEntryDeliveries}
    (h : ∀ item ∈ batch, checkpointCoversEntry checkpoint item.entry = false) (sink : String) :
    ((sinkEventsByName checkpoint batch).lookup sink).getD [] =
      batch.flatMap fun item =>
        sinkDeliveryEvents item.entry ((item.deliveriesBySink.lookup sink).getD []) := by
  suffices H : ∀ table : SortedTable String (List SinkDeliveryEvent),
      ((batch.foldl (fun table item => if checkpointCoversEntry checkpoint item.entry then table
        else addEntryDeliveries item table) table).lookup sink).getD [] =
      (table.lookup sink).getD [] ++ batch.flatMap fun item =>
        sinkDeliveryEvents item.entry ((item.deliveriesBySink.lookup sink).getD []) from H ∅
  induction batch with
  | nil => intro table; rw [List.flatMap_nil, List.append_nil]; rfl
  | cons item batch ih =>
    intro table
    have hitem := h item List.mem_cons_self
    rw [List.foldl_cons, hitem, if_neg (by decide),
      ih (fun item hmem => h item (List.mem_cons_of_mem _ hmem)), lookup_addEntryDeliveries,
      List.flatMap_cons, List.append_assoc]

/-- The deliveries of a well-grouped item are what the specification expects for its entry. -/
theorem WellGrouped.expectedEvents {context : WalReplayContext} {batch : List ReplayEntryDeliveries}
    (h : WellGrouped context batch) (sink : String) :
    (batch.flatMap fun item => (item.deliveriesBySink.lookup sink).getD []) =
      expectedEvents context sink (batch.map ReplayEntryDeliveries.entry) := by
  rw [Wal.expectedEvents, List.flatMap_map]
  refine List.flatMap_congr fun item hitem => ?_
  rcases processEntry_spec context item.entry with
    ⟨deliveries, grouped, hrecord, hprocess, hlookup⟩ | ⟨issue, -, hprocess⟩
  · have hgrouped := (h item hitem).symm.trans hprocess
    injection hgrouped with hgrouped
    rw [hgrouped, hlookup, hrecord, Option.getD_some]
  · have hbad := (h item hitem).symm.trans hprocess
    cases hbad

/-- A well-grouped window quarantines nothing. -/
theorem WellGrouped.quarantinedOf {context : WalReplayContext}
    {batch : List ReplayEntryDeliveries} (h : WellGrouped context batch) :
    quarantinedOf context (batch.map ReplayEntryDeliveries.entry) = [] := by
  rw [Wal.quarantinedOf, List.filter_eq_nil_iff]
  intro entry hentry
  obtain ⟨item, hitem, rfl⟩ := List.mem_map.mp hentry
  rcases processEntry_spec context item.entry with
    ⟨deliveries, grouped, hrecord, -, -⟩ | ⟨issue, -, hprocess⟩
  · rw [hrecord]
    exact Bool.false_ne_true
  · have hbad := (h item hitem).symm.trans hprocess
    cases hbad

end Regroup

/-! ### What a list of sinks is due -/

/-- The events due to one sink in a list of sinks with their events. -/
def dueEvents (sink : String) (sinks : List (String × List SinkDeliveryEvent)) : List Value :=
  sinks.flatMap fun (name, events) =>
    if name = sink then events.map SinkDeliveryEvent.event else []

@[simp] theorem dueEvents_nil (sink : String) : dueEvents sink [] = [] := rfl

@[simp] theorem dueEvents_append (sink : String)
    (sinks sinks' : List (String × List SinkDeliveryEvent)) :
    dueEvents sink (sinks ++ sinks') = dueEvents sink sinks ++ dueEvents sink sinks' :=
  List.flatMap_append

/-- In a table each sink is due what the table holds for it. -/
theorem dueEvents_entries (table : SortedTable String (List SinkDeliveryEvent)) (sink : String) :
    dueEvents sink table.entries =
      ((table.lookup sink).getD []).map SinkDeliveryEvent.event := by
  rw [← SortedTable.flatMap_ite_key, List.map_flatMap, dueEvents]
  refine List.flatMap_congr fun row _ => ?_
  obtain ⟨name, events⟩ := row
  by_cases h : name = sink
  · simp only [if_pos h]
  · simp only [if_neg h, List.map_nil]

/-- **Everything that is due was sent and acknowledged.** -/
structure SentAll (sinks : List (String × List SinkDeliveryEvent)) (events : List Event) :
    Prop where
  quarantined : quarantinedEntries events = []
  sent : ∀ sink, sentEvents sink events = dueEvents sink sinks
  acked : ∀ sink, ackedEvents sink events = dueEvents sink sinks

/-- **A prefix of what is due was sent**, and a prefix of that acknowledged. -/
structure SentSome (sinks : List (String × List SinkDeliveryEvent)) (events : List Event) :
    Prop where
  quarantined : quarantinedEntries events = []
  sent : ∀ sink, sentEvents sink events <+: dueEvents sink sinks

theorem SentAll.nil : SentAll [] [] := ⟨rfl, fun _ => rfl, fun _ => rfl⟩

/-- What was sent to the first sinks is a prefix of what is due to all. -/
theorem SentAll.some {sinks : List (String × List SinkDeliveryEvent)} {events : List Event}
    (h : SentAll sinks events) (more : List (String × List SinkDeliveryEvent)) :
    SentSome (sinks ++ more) events :=
  ⟨h.quarantined, fun sink => by
    rw [h.sent, dueEvents_append]
    exact List.prefix_append _ _⟩

theorem SentAll.append {sinks sinks' : List (String × List SinkDeliveryEvent)}
    {events events' : List Event} (h : SentAll sinks events) (h' : SentAll sinks' events') :
    SentAll (sinks ++ sinks') (events ++ events') :=
  ⟨by rw [quarantinedEntries_append, h.quarantined, h'.quarantined]; rfl,
    fun sink => by rw [sentEvents_append, h.sent, h'.sent, dueEvents_append],
    fun sink => by rw [ackedEvents_append, h.acked, h'.acked, dueEvents_append]⟩

theorem SentAll.append_some {sinks sinks' : List (String × List SinkDeliveryEvent)}
    {events events' : List Event} (h : SentAll sinks events) (h' : SentSome sinks' events') :
    SentSome (sinks ++ sinks') (events ++ events') :=
  ⟨by rw [quarantinedEntries_append, h.quarantined, h'.quarantined]; rfl,
    fun sink => by
      rw [sentEvents_append, h.sent, dueEvents_append]
      exact (List.prefix_append_right_inj _).mpr (h'.sent sink)⟩

/-- More sinks are due more. -/
theorem SentSome.mono {sinks : List (String × List SinkDeliveryEvent)} {events : List Event}
    (h : SentSome sinks events) (more : List (String × List SinkDeliveryEvent)) :
    SentSome (sinks ++ more) events :=
  ⟨h.quarantined, fun sink => by
    rw [dueEvents_append]
    exact (h.sent sink).trans (List.prefix_append _ _)⟩

theorem quarantinedEntries_okSends (sinkName : String) (batches : List SentBatch) :
    quarantinedEntries (okSends sinkName batches) = [] := by
  rw [quarantinedEntries, okSends, List.flatMap_map, List.flatMap_eq_nil_iff]
  exact fun _ _ => rfl

theorem sentEvents_okSends (sink sinkName : String) (batches : List SentBatch) :
    sentEvents sink (okSends sinkName batches) =
      if sinkName = sink then batches.flatMap Prod.fst else [] := by
  rw [sentEvents, okSends, List.flatMap_map]
  split_ifs with h
  · exact List.flatMap_congr fun batch _ => if_pos h
  · rw [List.flatMap_eq_nil_iff]
    exact fun batch _ => if_neg h

theorem ackedEvents_okSends (sink sinkName : String) (batches : List SentBatch) :
    ackedEvents sink (okSends sinkName batches) =
      if sinkName = sink then batches.flatMap Prod.fst else [] := by
  rw [ackedEvents, okSends, List.flatMap_map]
  split_ifs with h
  · exact List.flatMap_congr fun batch _ => if_pos h
  · rw [List.flatMap_eq_nil_iff]
    exact fun batch _ => if_neg h

/-- The acknowledged batches of one sink. -/
theorem sentAll_okSends (sinkName : String) (policy : SinkBatchPolicy)
    (events : List SinkDeliveryEvent) :
    SentAll [(sinkName, events)] (okSends sinkName (sinkBatches policy events)) := by
  refine ⟨quarantinedEntries_okSends _ _, fun sink => ?_, fun sink => ?_⟩
  · rw [sentEvents_okSends, sinkBatches_events]
    simp [dueEvents]
  · rw [ackedEvents_okSends, sinkBatches_events]
    simp [dueEvents]

/-- The first batches of one sink, all acknowledged or with the last one failed. -/
theorem sentSome_of_isPrefix {sinkName : String} (policy : SinkBatchPolicy)
    {events : List SinkDeliveryEvent} (done : List SentBatch) {trace : List Event}
    (hdone : done <+: sinkBatches policy events) (hquarantined : quarantinedEntries trace = [])
    (hsent : ∀ sink, sentEvents sink trace =
      if sinkName = sink then done.flatMap Prod.fst else []) :
    SentSome [(sinkName, events)] trace := by
  refine ⟨hquarantined, fun sink => ?_⟩
  rw [hsent]
  simp only [dueEvents, List.flatMap_cons, List.flatMap_nil, List.append_nil]
  split_ifs
  · obtain ⟨rest, hrest⟩ := hdone
    rw [← sinkBatches_events policy events, ← hrest, List.flatMap_append]
    exact List.prefix_append _ _
  · exact List.nil_prefix

/-! ### The loop over the sinks -/

section Run

variable [DurationCodec]

/-- A batch policy never allows an empty batch to be full. -/
theorem one_le_maxEvents {settings : ReplaySettings} {config : Option EventSinkBatchConfig}
    {policy : SinkBatchPolicy} (h : sinkBatchPolicy settings config = .ok policy) :
    1 ≤ policy.maxEvents := by
  unfold sinkBatchPolicy at h
  simp only at h
  split at h
  · cases h
  · cases h
    exact le_max_right _ _

/-- The batch policy of a sink is valid: its timeout is a duration. -/
def PolicyParses (context : WalReplayContext) (sinkName : String) : Prop :=
  ∃ policy, sinkPolicy context sinkName = .ok policy

variable [CheckpointCodec] {mayFail : SysOp → Prop} {P : SysOp → ReplayView → Prop}
  {Q : Unit → ReplayLocal → ReplayView → Prop} {E : ReplayError → ReplayLocal → ReplayView → Prop}
  {t : ReplayLocal} {v : ReplayView}

/-- **Sending one sink its part of a window**: nothing is sent where its policy is not valid, and a
prefix where the sink fails. -/
theorem wpc_sendSinkWindow (context : WalReplayContext) (sinkName : String)
    (events : List SinkDeliveryEvent)
    (hP : ∀ trace events' metadata, SentSome [(sinkName, events)] trace →
      P (.sendBatch sinkName events' metadata) (v.log trace))
    (hQ : PolicyParses context sinkName → ∀ trace, SentAll [(sinkName, events)] trace →
      Q () t (v.log trace))
    (hPolicy : ∀ issue, sinkPolicy context sinkName = .error issue → E (.issue issue) t v)
    (hSend : ∀ lsn error trace events' metadata, mayFail (.sendBatch sinkName events' metadata) →
      SentSome [(sinkName, events)] trace →
      E (.issue (.sinkSendFailed sinkName lsn error)) t (v.log trace)) :
    wpc (viewEnv mayFail) P (sendSinkWindow context sinkName events) Q E t v := by
  rw [sendSinkWindow, wpc_bind]
  cases hparse : sinkPolicy context sinkName with
  | error issue => exact hPolicy issue hparse
  | ok policy =>
    simp only [Result.mapError_ok, wpc_ofExcept_ok, wpc_mapError]
    rw [sendSinkEventsInBatches_eq sinkName (one_le_maxEvents hparse)]
    refine wpc_sendBatches sinkName _ (fun done events' metadata hdone => hP _ _ _ ?_)
      (hQ ⟨policy, hparse⟩ _ (sentAll_okSends sinkName _ events))
      fun done batch rest error hsplit hmay => hSend _ _ _ batch.1 batch.2 hmay ?_
    · exact sentSome_of_isPrefix policy done hdone (quarantinedEntries_okSends _ _)
        (fun sink => sentEvents_okSends sink sinkName done)
    · -- the failed batch was passed to the sink too
      refine sentSome_of_isPrefix policy (done ++ [batch])
        ⟨rest, by rw [hsplit, List.append_assoc]; rfl⟩ ?_ fun sink => ?_
      · rw [quarantinedEntries_append, quarantinedEntries_okSends]
        rfl
      · rw [sentEvents_append, sentEvents_okSends]
        by_cases h : sinkName = sink <;> simp [sentEvents, Event.sentTo, h]

/-- **Sending a window**: the sinks get what they are due, one after the other, until a policy is
not valid or a sink fails. -/
theorem wpc_sendWindow (context : WalReplayContext)
    (sinks : List (String × List SinkDeliveryEvent))
    (hP : ∀ trace sinkName events metadata, SentSome sinks trace →
      P (.sendBatch sinkName events metadata) (v.log trace))
    (hQ : (∀ row ∈ sinks, PolicyParses context row.1) → ∀ trace, SentAll sinks trace →
      Q () t (v.log trace))
    (hPolicy : ∀ pre row post issue trace, sinks = pre ++ row :: post →
      sinkPolicy context row.1 = .error issue → (∀ row ∈ pre, PolicyParses context row.1) →
      SentAll pre trace → E (.issue issue) t (v.log trace))
    (hSend : ∀ sinkName lsn error trace events metadata,
      mayFail (.sendBatch sinkName events metadata) → SentSome sinks trace →
      E (.issue (.sinkSendFailed sinkName lsn error)) t (v.log trace)) :
    wpc (viewEnv mayFail) P
      (Cmd.forEach (fun (sinkName, events) => sendSinkWindow context sinkName events) sinks)
      Q E t v := by
  refine wpc_imp (wpc_forEach
    (fun pre t' v' => t' = t ∧ (∀ row ∈ pre, PolicyParses context row.1) ∧
      ∃ trace, v' = v.log trace ∧ SentAll pre trace) sinks ?_
    ⟨rfl, by simp, [], (ReplayView.log_nil v).symm, SentAll.nil⟩) ?_ fun _ _ _ h => h
  · rintro pre ⟨sinkName, events⟩ post t' v' hsplit ⟨rfl, hparses, trace, rfl, htrace⟩
    have hdue : sinks = (pre ++ [(sinkName, events)]) ++ post := by
      rw [hsplit, List.append_assoc]
      rfl
    refine wpc_sendSinkWindow context sinkName events (fun more events' metadata hmore => ?_)
      (fun hparse more hmore => ?_) (fun issue hissue => ?_)
      fun lsn error more events' metadata hmay hmore => ?_
    · rw [ReplayView.log_log]
      exact hP _ _ _ _ (hdue ▸ (htrace.append_some hmore).mono post)
    · refine ⟨rfl, ?_, trace ++ more, ReplayView.log_log _ _ _, htrace.append hmore⟩
      intro row hrow
      rcases List.mem_append.mp hrow with hrow | hrow
      · exact hparses row hrow
      · rw [List.mem_singleton.mp hrow]
        exact hparse
    · exact hPolicy pre _ post issue trace hsplit hissue hparses htrace
    · rw [ReplayView.log_log]
      exact hSend _ _ _ _ _ _ hmay (hdue ▸ (htrace.append_some hmore).mono post)
  · rintro _ t' v' ⟨rfl, hparses, trace, rfl, htrace⟩
    exact hQ hparses trace htrace

end Run

end Ingest4x.Wal
