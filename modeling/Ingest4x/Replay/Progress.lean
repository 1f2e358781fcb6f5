import Ingest4x.Replay.Save

/-! # The progress of a replay call

What holds between two moves of a call, and what holds at every moment. The entries gone through are
split into those that the checkpoint on disk covers and those that are only marked as pending; every
one of them was delivered in full or set aside.

* **`Delivered`** — what the trace says about a list of entries.
* **`Standing`** — the invariant between two moves.
* **`Moment`** — what holds at every operation; **`Guard`** — what is asked of an operation. -/

namespace Ingest4x.Wal

open Effect

/-! ### Contiguous entries -/

/-- In contiguous entries LSNs strictly increase and do not lie below the expected one. -/
theorem lsn_lt_of_contiguousEntries {expected : Option Nat} {entries pre post : List WalEntry}
    {entry : WalEntry} (h : contiguousEntries expected entries = pre ++ entry :: post) :
    (∀ n ∈ expected, n ≤ entry.position.lsn) ∧
      ∀ e ∈ pre, e.position.lsn < entry.position.lsn := by
  induction entries generalizing expected pre with
  | nil => simp [contiguousEntries] at h
  | cons head entries ih =>
    rw [contiguousEntries] at h
    split_ifs at h with hlsn
    · have hexpected : ∀ n ∈ expected, n = head.position.lsn := by
        intro n hn
        rw [Option.mem_def.mp hn] at hlsn
        exact hlsn.symm
      cases pre with
      | nil =>
        obtain ⟨rfl, -⟩ := List.cons_eq_cons.mp h
        exact ⟨fun n hn => (hexpected n hn).le, by simp⟩
      | cons first pre =>
        obtain ⟨rfl, hrest⟩ := List.cons_eq_cons.mp h
        obtain ⟨hnext, hpre⟩ := ih hrest
        have hlt : head.position.lsn < entry.position.lsn := hnext _ rfl
        refine ⟨fun n hn => (hexpected n hn).le.trans hlt.le, fun e he => ?_⟩
        rcases List.mem_cons.mp he with rfl | he
        · exact hlt
        · exact hpre e he
    · simp at h

/-- The checkpoint after the first of some contiguous entries covers none of the later ones. -/
theorem checkpointCoversEntry_eq_false {start : Option WalPosition}
    {entries pre post saved : List WalEntry} {entry : WalEntry}
    (hordered : Ordered start entries)
    (h : contiguousEntries (start.map fun position => position.lsn + 1) entries =
      pre ++ entry :: post) (hsaved : saved <+: pre) :
    checkpointCoversEntry ((lastPosition saved).or start) entry = false := by
  obtain ⟨hstart, hpre⟩ := lsn_lt_of_contiguousEntries h
  cases hlast : lastPosition saved with
  | none =>
    cases start with
    | none => rfl
    | some p =>
      have hlt : p.lsn + 1 ≤ entry.position.lsn := hstart _ rfl
      simp only [Option.none_or, checkpointCoversEntry, Option.any_some, decide_eq_false_iff_not]
      omega
  | some p =>
    obtain ⟨last, hmem, rfl⟩ := Option.map_eq_some_iff.mp hlast
    have hlastmem : last ∈ pre := hsaved.subset (List.mem_of_getLast? hmem)
    have hmementries : last ∈ entries := by
      refine (contiguousEntries_isPrefix (start.map fun position => position.lsn + 1)
        entries).subset ?_
      rw [h]
      exact List.mem_append_left _ hlastmem
    have hlt := hpre last hlastmem
    rw [← hordered.nextPosition_lsn hmementries] at hlt
    simp only [Option.some_or, checkpointCoversEntry, Option.any_some, decide_eq_false_iff_not]
    omega

section Progress

variable [JsonCodec]

/-! ### What was delivered -/

/-- **Delivered**: every sink was sent, and acknowledged, what the entries hold for it, and the
entries at fault were set aside. -/
structure Delivered (context : WalReplayContext) (entries : List WalEntry) (events : List Event) :
    Prop where
  sent : ∀ sink, sentEvents sink events = expectedEvents context sink entries
  acked : ∀ sink, ackedEvents sink events = expectedEvents context sink entries
  quarantined : quarantinedEntries events = quarantinedOf context entries

@[simp] theorem quarantinedOf_append (context : WalReplayContext) (entries entries' : List WalEntry) :
    quarantinedOf context (entries ++ entries') =
      quarantinedOf context entries ++ quarantinedOf context entries' :=
  List.filter_append ..

theorem quarantinedOf_mono (context : WalReplayContext) {entries entries' : List WalEntry}
    (h : entries <+: entries') : quarantinedOf context entries <+: quarantinedOf context entries' :=
  h.filter _

namespace Delivered

variable {context : WalReplayContext} {entries : List WalEntry} {events : List Event}

theorem nil : Delivered context [] [] := ⟨fun _ => rfl, fun _ => rfl, rfl⟩

/-- A window whose sinks got all they are due. -/
theorem window (h : Delivered context entries events) {batch : List ReplayEntryDeliveries}
    {rows : List (String × List SinkDeliveryEvent)} (hgrouped : WellGrouped context batch)
    (hrows : ∀ sink, dueEvents sink rows =
      expectedEvents context sink (batch.map ReplayEntryDeliveries.entry))
    {trace : List Event} (hsent : SentAll rows trace) :
    Delivered context (entries ++ batch.map ReplayEntryDeliveries.entry) (events ++ trace) where
  sent sink := by rw [sentEvents_append, expectedEvents_append, h.sent, hsent.sent, hrows]
  acked sink := by rw [ackedEvents_append, expectedEvents_append, h.acked, hsent.acked, hrows]
  quarantined := by
    rw [quarantinedEntries_append, quarantinedOf_append, h.quarantined, hsent.quarantined,
      hgrouped.quarantinedOf]

/-- An entry at fault that was set aside. -/
theorem quarantine (h : Delivered context entries events) {entry : WalEntry} {issue : ReplayIssue}
    (hprocess : processEntry context entry = .quarantine issue) :
    Delivered context (entries ++ [entry]) (events ++ [.quarantined entry issue]) := by
  have hnone : recordDeliveries context entry.record = none := by
    rcases processEntry_spec context entry with
      ⟨deliveries, grouped, -, hgrouped, -⟩ | ⟨issue', hnone, -⟩
    · rw [hprocess] at hgrouped
      cases hgrouped
    · exact hnone
  have hexpected : ∀ sink, expectedEvents context sink [entry] = [] := by
    intro sink
    simp [expectedEvents, hnone, eventsFor]
  refine ⟨fun sink => ?_, fun sink => ?_, ?_⟩
  · rw [sentEvents_append, expectedEvents_append, h.sent, hexpected]
    rfl
  · rw [ackedEvents_append, expectedEvents_append, h.acked, hexpected]
    rfl
  · rw [quarantinedEntries_append, quarantinedOf_append, h.quarantined]
    simp [quarantinedEntries, quarantinedOf, Event.quarantinedEntry, hnone]

end Delivered

/-! ### Moments -/

/-- **What holds at a moment**, with the entries `saved` covered by the checkpoint on disk beyond
where the call started, and the events so far. -/
structure Moment (context : WalReplayContext) (v₀ : ReplayView) (all saved : List WalEntry)
    (events : List Event) (v : ReplayView) : Prop where
  saved_le : saved <+: all
  durable : v.durable = (lastPosition saved).or v₀.durable
  trace : v.trace = v₀.trace ++ events
  acked : ∀ sink, expectedEvents context sink saved <+: ackedEvents sink events
  sent : ∀ sink, sentEvents sink events <+: expectedEvents context sink all
  quarantined : quarantinedOf context saved <+: quarantinedEntries events
  set_aside : quarantinedEntries events <+: quarantinedOf context all

/-- A moment of a call that goes through the entries `all`. -/
def IsMoment (context : WalReplayContext) (v₀ : ReplayView) (all : List WalEntry)
    (v : ReplayView) : Prop :=
  ∃ saved events, Moment context v₀ all saved events v

/-- **What is asked of an operation**: the checkpoint file is only overwritten with a position that
is not before the one in it, and a segment is only removed if it lies before the checkpoint. -/
def Guard [CheckpointCodec] : SysOp → ReplayView → Prop
  | .writeCheckpointFile file, v => placeOf v.durable ≤ placeOf (filePosition file)
  | .removeSegment _ segmentId, v => ∃ p ∈ v.durable, segmentId < p.segment
  | .readDir, _ => True
  | .nowMs, _ => True
  | .instantNow, _ => True
  | .syncDirectory _, _ => True
  | .sendBatch _ _ _, _ => True
  | .quarantine _ _, _ => True
  | _, _ => False

/-- The assertion on every operation of a call. -/
def AtMoment [CheckpointCodec] (context : WalReplayContext) (v₀ : ReplayView) (all : List WalEntry)
    (o : SysOp) (v : ReplayView) : Prop :=
  IsMoment context v₀ all v ∧ Guard o v

/-! ### Standing -/

/-- **The invariant between two moves**: the entries `saved` are covered by the checkpoint on disk,
the entries `unsaved` are pending, and all of them were delivered. -/
structure Standing (context : WalReplayContext) (start : Option WalPosition) (v₀ : ReplayView)
    (saved unsaved : List WalEntry) (rc : ReplayClock) (v : ReplayView) : Prop where
  clock : v.clock = v₀.clock
  nodeIdFile : v.nodeIdFile = v₀.nodeIdFile
  ticks : v.ticks = rc.ticks
  save : SavedUpTo start saved unsaved rc.env.state
  durable : v.durable = (lastPosition saved).or v₀.durable
  trace : ∃ events, v.trace = v₀.trace ++ events ∧ Delivered context (saved ++ unsaved) events

namespace Standing

variable {context : WalReplayContext} {start : Option WalPosition} {v₀ v : ReplayView}
  {all saved unsaved : List WalEntry} {rc : ReplayClock}

/-- Between two moves, a moment; also where a part of the next window was sent. -/
theorem isMoment_log (h : Standing context start v₀ saved unsaved rc v)
    {batch : List ReplayEntryDeliveries} {rows : List (String × List SinkDeliveryEvent)}
    (hall : saved ++ unsaved ++ batch.map ReplayEntryDeliveries.entry <+: all)
    (hrows : ∀ sink, dueEvents sink rows =
      expectedEvents context sink (batch.map ReplayEntryDeliveries.entry))
    {trace : List Event} (htrace : SentSome rows trace) :
    IsMoment context v₀ all (v.log trace) := by
  obtain ⟨events, hevents, hdelivered⟩ := h.trace
  have hmarked : saved ++ unsaved <+: all := (List.prefix_append _ _).trans hall
  refine ⟨saved, events ++ trace, ?_⟩
  exact {
    saved_le := (List.prefix_append _ _).trans hmarked
    durable := h.durable
    trace := by rw [ReplayView.log_trace, hevents, List.append_assoc]
    acked := fun sink => by
      rw [ackedEvents_append, hdelivered.acked, expectedEvents_append, List.append_assoc]
      exact List.prefix_append _ _
    sent := fun sink => by
      rw [sentEvents_append, hdelivered.sent]
      refine List.IsPrefix.trans ?_ (expectedEvents_mono context sink hall)
      rw [expectedEvents_append _ _ (saved ++ unsaved), ← hrows]
      exact (List.prefix_append_right_inj _).mpr (htrace.sent sink)
    quarantined := by
      rw [quarantinedEntries_append, hdelivered.quarantined, quarantinedOf_append, List.append_assoc]
      exact List.prefix_append _ _
    set_aside := by
      rw [quarantinedEntries_append, hdelivered.quarantined, htrace.quarantined, List.append_nil]
      exact quarantinedOf_mono context hmarked }

theorem isMoment (h : Standing context start v₀ saved unsaved rc v)
    (hall : saved ++ unsaved <+: all) : IsMoment context v₀ all v := by
  have hbatch : saved ++ unsaved ++ ([] : List ReplayEntryDeliveries).map
      ReplayEntryDeliveries.entry <+: all := by simpa using hall
  have hnothing : SentSome [] [] := ⟨rfl, fun _ => List.nil_prefix⟩
  have hlog := h.isMoment_log hbatch (fun _ => rfl) hnothing
  rwa [ReplayView.log_nil] at hlog

/-- The pending position is not before the checkpoint on disk. -/
theorem guard_pending (h : Standing context start v₀ saved unsaved rc v)
    (hall : saved ++ unsaved <+: all) (hordered : Ordered v₀.durable all) {position : WalPosition}
    (hpending : rc.env.state.pendingCheckpoint = some position) :
    placeOf v.durable ≤ placeOf (some position) := by
  have hle := (Ordered.append_iff.mp (hordered.ofPrefix hall)).2.le_lastPosition
  rw [h.save.pendingCheckpoint] at hpending
  rw [h.durable]
  rwa [hpending, Option.some_or] at hle

/-- The view after the pending position was written is a moment with all entries saved. -/
theorem isMoment_save (h : Standing context start v₀ saved unsaved rc v)
    (hall : saved ++ unsaved <+: all) {position : WalPosition}
    (hpending : rc.env.state.pendingCheckpoint = some position) :
    IsMoment context v₀ all (v.save (some position)) := by
  obtain ⟨events, hevents, hdelivered⟩ := h.trace
  rw [h.save.pendingCheckpoint] at hpending
  refine ⟨saved ++ unsaved, events, ?_⟩
  exact {
    saved_le := hall
    durable := by
      rw [lastPosition_append, hpending]
      rfl
    trace := hevents
    acked := fun sink => (hdelivered.acked sink).symm ▸ List.prefix_rfl
    sent := fun sink => by
      rw [hdelivered.sent]
      exact expectedEvents_mono context sink hall
    quarantined := hdelivered.quarantined.symm ▸ List.prefix_rfl
    set_aside := by
      rw [hdelivered.quarantined]
      exact quarantinedOf_mono context hall }

/-- After a flush everything is saved. -/
theorem flush (h : Standing context start v₀ saved unsaved rc v) {v' : ReplayView}
    (hticks : v'.ticks = (rc.flush v.clock).ticks)
    (hsome : ∀ position, rc.env.state.pendingCheckpoint = some position →
      v' = (v.save (some position)).tick)
    (hnone : rc.env.state.pendingCheckpoint = none → v' = v) :
    Standing context start v₀ (saved ++ unsaved) [] (rc.flush v.clock) v' := by
  obtain ⟨events, hevents, hdelivered⟩ := h.trace
  cases hpending : rc.env.state.pendingCheckpoint with
  | none =>
    obtain rfl := hnone hpending
    have hnil : unsaved = [] := lastPosition_eq_none (h.save.pendingCheckpoint ▸ hpending)
    subst hnil
    simp only [List.append_nil] at hdelivered ⊢
    exact ⟨h.clock, h.nodeIdFile, hticks, by simpa using h.save.flush, h.durable, events, hevents,
      by simpa using hdelivered⟩
  | some position =>
    obtain rfl := hsome position hpending
    rw [h.save.pendingCheckpoint] at hpending
    exact ⟨h.clock, h.nodeIdFile, hticks, h.save.flush, by
      rw [lastPosition_append, hpending]
      rfl, events, hevents, by rwa [List.append_nil]⟩

end Standing

end Progress

end Ingest4x.Wal
