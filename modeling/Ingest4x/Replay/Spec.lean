import Ingest4x.Replay.Program

/-! # What a replay should deliver

The specification side of the replay: what each sink should receive for a list of entries, and what
a trace says was sent, acknowledged and set aside.

* **`recordDeliveries`** — the deliveries of one record, `none` where the record is quarantined.
* **`expectedEvents`** — the events of one sink for a list of entries, in emit order.
* **`sentEvents`** / **`ackedEvents`** — the events passed to a sink, and those it acknowledged. -/

namespace Ingest4x.Wal

section Deliveries

variable [JsonCodec]

/-! ### Deliveries of one record -/

/-- A delivery goes to a sink that is there. -/
def validTarget (context : WalReplayContext) (delivery : ProcessorDelivery) : Bool :=
  Text.trim delivery.target != "" && (context.eventSinks.lookup delivery.target).isSome

/-- **The deliveries of a record**: what the processor emits for it, unless the payload, the project,
the processor or one of the targets is at fault. -/
def recordDeliveries (context : WalReplayContext) (record : WalRecord) :
    Option (List ProcessorDelivery) :=
  match processRecord context record with
  | .error _ => none
  | .ok deliveries => if deliveries.all (validTarget context) then some deliveries else none

/-- The events that a list of deliveries holds for one sink. -/
def eventsFor (sink : String) (deliveries : List ProcessorDelivery) : List Value :=
  (deliveries.filter fun delivery => delivery.target = sink).map ProcessorDelivery.event

/-- **The events of one sink** for a list of entries: in the order of the entries, and in emit order
inside a record. A quarantined record contributes nothing. -/
def expectedEvents (context : WalReplayContext) (sink : String) (entries : List WalEntry) :
    List Value :=
  entries.flatMap fun entry => eventsFor sink ((recordDeliveries context entry.record).getD [])

@[simp] theorem expectedEvents_nil (context : WalReplayContext) (sink : String) :
    expectedEvents context sink [] = [] := rfl

@[simp] theorem expectedEvents_append (context : WalReplayContext) (sink : String)
    (entries entries' : List WalEntry) :
    expectedEvents context sink (entries ++ entries') =
      expectedEvents context sink entries ++ expectedEvents context sink entries' :=
  List.flatMap_append

/-- More entries, more events at the end. -/
theorem expectedEvents_mono (context : WalReplayContext) (sink : String)
    {entries entries' : List WalEntry} (h : entries <+: entries') :
    expectedEvents context sink entries <+: expectedEvents context sink entries' := by
  obtain ⟨rest, rfl⟩ := h
  rw [expectedEvents_append]
  exact List.prefix_append _ _

/-! ### Grouping agrees with the specification -/

omit [JsonCodec] in
/-- The loop of the grouping: it fails at the first delivery without a valid target, and otherwise
adds to each sink its events. -/
theorem groupDeliveriesLoop_spec (context : WalReplayContext) (deliveries : List ProcessorDelivery)
    (table : SortedTable String (List Value)) :
    (deliveries.all (validTarget context) = true ∧
      ∃ grouped, groupDeliveriesLoop context deliveries table = .ok grouped ∧
        ∀ sink, (grouped.lookup sink).getD [] =
          (table.lookup sink).getD [] ++ eventsFor sink deliveries) ∨
    (deliveries.all (validTarget context) = false ∧
      ∃ issue, groupDeliveriesLoop context deliveries table = .error issue ∧
        issue.action = .quarantineRecord) := by
  induction deliveries generalizing table with
  | nil => exact Or.inl ⟨rfl, table, rfl, fun sink => (List.append_nil _).symm⟩
  | cons delivery deliveries ih =>
    rw [groupDeliveriesLoop, List.all_cons]
    by_cases htrim : Text.trim delivery.target = ""
    · refine Or.inr ⟨?_, .emptySinkTarget, if_pos htrim, rfl⟩
      simp [validTarget, htrim]
    · rw [if_neg htrim]
      by_cases hsink : (context.eventSinks.lookup delivery.target).isSome
      · rw [if_pos hsink]
        have hvalid : validTarget context delivery = true := by simp [validTarget, htrim, hsink]
        rw [hvalid, Bool.true_and]
        rcases ih (table.insert delivery.target
          ((table.lookup delivery.target).getD [] ++ [delivery.event])) with
          ⟨hall, grouped, hgroup, hlookup⟩ | hbad
        · refine Or.inl ⟨hall, grouped, hgroup, fun sink => ?_⟩
          rw [hlookup, SortedTable.lookup_insert, eventsFor, eventsFor, List.filter_cons]
          by_cases heq : sink = delivery.target
          · subst heq
            simp
          · simp [heq, Ne.symm heq]
        · exact Or.inr hbad
      · rw [if_neg hsink]
        refine Or.inr ⟨?_, .unknownSinkTarget delivery.target, rfl, rfl⟩
        simp [validTarget, hsink]

/-- Every error of `process_record` asks to quarantine the record. -/
theorem processRecord_error_action {context : WalReplayContext} {record : WalRecord}
    {issue : ReplayIssue} (h : processRecord context record = .error issue) :
    issue.action = .quarantineRecord := by
  unfold processRecord at h
  cases hjson : JsonCodec.fromSlice record.payload with
  | error error =>
    simp only [hjson] at h
    cases h
    rfl
  | ok json =>
    simp only [hjson] at h
    by_cases hproject : context.containsProjectId record.projectId
    · rw [if_neg (not_not.mpr hproject)] at h
      cases hrun : context.processEvent record.projectId json (requestContext record) with
      | error error =>
        rw [hrun] at h
        cases h
        rfl
      | ok deliveries =>
        rw [hrun] at h
        cases h
    · rw [if_pos hproject] at h
      cases h
      rfl

/-- **Processing an entry agrees with the specification**: either the record has deliveries and they
are grouped by sink, or it is quarantined. -/
theorem processEntry_spec (context : WalReplayContext) (entry : WalEntry) :
    (∃ deliveries grouped, recordDeliveries context entry.record = some deliveries ∧
      processEntry context entry = .deliveries grouped ∧
      ∀ sink, (grouped.lookup sink).getD [] = eventsFor sink deliveries) ∨
    (∃ issue, recordDeliveries context entry.record = none ∧
      processEntry context entry = .quarantine issue) := by
  unfold recordDeliveries processEntry
  cases hprocess : processRecord context entry.record with
  | error issue =>
    have haction := processRecord_error_action hprocess
    exact Or.inr ⟨issue, rfl, if_pos haction⟩
  | ok deliveries =>
    rcases groupDeliveriesLoop_spec context deliveries ∅ with
      ⟨hall, grouped, hgroup, hlookup⟩ | ⟨hall, issue, hgroup, haction⟩
    · refine Or.inl ⟨deliveries, grouped, by simp only [hall, if_true], ?_, fun sink => ?_⟩
      · simp only [groupDeliveriesBySink, hgroup]
      · rw [hlookup sink]
        rfl
    · refine Or.inr ⟨issue, by simp only [hall]; rfl, ?_⟩
      simp only [groupDeliveriesBySink, hgroup, if_pos haction]

/-- The entries of a list that the specification quarantines. -/
def quarantinedOf (context : WalReplayContext) (entries : List WalEntry) :
    List WalEntry :=
  entries.filter fun entry => (recordDeliveries context entry.record).isNone

end Deliveries

/-! ### What a trace says -/

/-- The events of one operation that were passed to a sink. -/
def Event.sentTo (sink : String) : Event → List Value
  | .sent name events _ _ => if name = sink then events else []
  | _ => []

/-- The events of one operation that a sink acknowledged. -/
def Event.ackedBy (sink : String) : Event → List Value
  | .sent name events _ (.ok ()) => if name = sink then events else []
  | _ => []

/-- The entry that one operation set aside. -/
def Event.quarantinedEntry : Event → List WalEntry
  | .quarantined entry _ => [entry]
  | _ => []

/-- **The events passed to a sink**, batch after batch. -/
def sentEvents (sink : String) (trace : List Event) : List Value :=
  trace.flatMap (Event.sentTo sink)

/-- **The events a sink acknowledged**, batch after batch. -/
def ackedEvents (sink : String) (trace : List Event) : List Value :=
  trace.flatMap (Event.ackedBy sink)

/-- **The entries set aside.** -/
def quarantinedEntries (trace : List Event) : List WalEntry :=
  trace.flatMap Event.quarantinedEntry

@[simp] theorem sentEvents_nil (sink : String) : sentEvents sink [] = [] := rfl

@[simp] theorem ackedEvents_nil (sink : String) : ackedEvents sink [] = [] := rfl

@[simp] theorem quarantinedEntries_nil : quarantinedEntries [] = [] := rfl

@[simp] theorem sentEvents_append (sink : String) (trace trace' : List Event) :
    sentEvents sink (trace ++ trace') = sentEvents sink trace ++ sentEvents sink trace' :=
  List.flatMap_append

@[simp] theorem ackedEvents_append (sink : String) (trace trace' : List Event) :
    ackedEvents sink (trace ++ trace') = ackedEvents sink trace ++ ackedEvents sink trace' :=
  List.flatMap_append

@[simp] theorem quarantinedEntries_append (trace trace' : List Event) :
    quarantinedEntries (trace ++ trace') = quarantinedEntries trace ++ quarantinedEntries trace' :=
  List.flatMap_append

/-! ### Contiguous entries -/

/-- **The entries up to the first LSN gap**, where the first one must have the expected LSN. -/
def contiguousEntries : Option Nat → List WalEntry → List WalEntry
  | _, [] => []
  | expected, entry :: entries =>
    if entry.position.lsn = expected.getD entry.position.lsn then
      entry :: contiguousEntries (some (entry.position.lsn + 1)) entries
    else []

theorem contiguousEntries_isPrefix (expected : Option Nat) (entries : List WalEntry) :
    contiguousEntries expected entries <+: entries := by
  induction entries generalizing expected with
  | nil => exact List.prefix_rfl
  | cons entry entries ih =>
    rw [contiguousEntries]
    split_ifs
    · exact (List.prefix_cons_inj entry).mpr (ih _)
    · exact List.nil_prefix

/-- The LSNs of contiguous entries are consecutive. -/
theorem contiguousEntries_lsn (n : Nat) (entries : List WalEntry) :
    (contiguousEntries (some n) entries).map (fun entry => entry.position.lsn) =
      List.range' n (contiguousEntries (some n) entries).length := by
  induction entries generalizing n with
  | nil => rfl
  | cons entry entries ih =>
    rw [contiguousEntries]
    split_ifs with h
    · have hlsn : entry.position.lsn = n := h
      rw [List.map_cons, List.length_cons, hlsn, ih, List.range'_succ]
    · rfl

end Ingest4x.Wal
