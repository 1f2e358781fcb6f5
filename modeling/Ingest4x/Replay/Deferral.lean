import Ingest4x.Replay.Redelivery
import Ingest4x.Replay.Resume
import Mathlib.Data.List.Chain

/-! # How long a record is deferred

The time since when a sink waits is kept over calls, so a record that waits for it is sent once the
timeout of the sink has passed. This fails where a later call sends the sink an earlier window first: a
call that defers need not have saved the windows before the last, the next call sends them again, and
that clears the time.

* **`FinishedCall.DefersAt`** — a call defers a record.
* **`FinishedCall.Resets`** — a call starts the waiting of a record again.
* **`FinishedCall.delivers_deferred`** — without such a call the record is delivered in time. -/

namespace Ingest4x.Wal

open Effect

section Deferral

variable [RecordCodec] [CheckpointCodec] [DurationCodec] [JsonCodec]

/-! ### The decision of a call -/

section Decision

variable {context : WalReplayContext} {t t' : ReplayLocal} {w w₁ w₂ w' : World}
  {call call' : ReplayCall} {loop : ReplayLoop} {sinks : List String}
  {pending pending' : PendingSince} {entry : WalEntry} {sink : String}

/-- The time at which a call decides whether the window left over is deferred. -/
def ReplayCall.decidesAt (call : ReplayCall) : Nat :=
  call.view.clock (call.after call.plan.moves).ticks

omit [RecordCodec] [CheckpointCodec] in
/-- A sink that the deferred window has deliveries for is one of its sinks. -/
theorem ReplayCall.DefersWith.mem_sinks (hcall : call.Started)
    (h : call.DefersWith loop sinks pending pending') (hmem : entry ∈ call.plan.left)
    (hdelivers : DeliversTo call.context sink entry) :
    sink ∈ (call.sinks call.plan.moves loop.replayBatch).entries.map Prod.fst := by
  obtain ⟨kept, rest, hmoves, hsaved⟩ := ReplayCall.savedUpTo_moves hcall
  have hwindow : call.Window call.plan.moves loop.replayBatch := Or.inr ⟨rfl, loop, h.ending, rfl⟩
  rw [ReplayPlan.left, h.ending] at hmem
  obtain ⟨item, hitem, rfl⟩ := List.mem_map.mp hmem
  have hne : (call.sinks call.plan.moves loop.replayBatch).lookup sink ≠ none := fun hnone =>
    (hwindow.lookup_sinks_eq_none_iff hcall (by rw [hmoves, movesEntries_append]) hsaved sink).mp
      hnone item hitem hdelivers
  obtain ⟨events, hevents⟩ := Option.ne_none_iff_exists'.mp hne
  exact List.mem_map.mpr ⟨_, SortedTable.lookup_eq_some.mp hevents, rfl⟩

omit [RecordCodec] [CheckpointCodec] in
/-- Such a sink goes on waiting, or waits from now on. -/
theorem ReplayCall.DefersWith.lookup_eq (hcall : call.Started)
    (h : call.DefersWith loop sinks pending pending') (hmem : entry ∈ call.plan.left)
    (hdelivers : DeliversTo call.context sink entry) :
    pending'.lookup sink = some ((pending.lookup sink).getD call.decidesAt) := by
  rw [sinksDeferredLoop_lookup h.loop h.sinks, if_pos (h.mem_sinks hcall hmem hdelivers), decidesAt]

omit [RecordCodec] [CheckpointCodec] in
/-- Such a sink has not waited for its timeout yet. -/
theorem ReplayCall.DefersWith.lt_timeout (hcall : call.Started)
    (h : call.DefersWith loop sinks pending pending') (hmem : entry ∈ call.plan.left)
    (hdelivers : DeliversTo call.context sink entry) {policy : SinkBatchPolicy}
    (hpolicy : sinkPolicy call.context sink = .ok policy) :
    call.decidesAt - (pending.lookup sink).getD call.decidesAt < policy.timeout := by
  obtain ⟨row, hrow, rfl⟩ := List.mem_map.mp (h.mem_sinks hcall hmem hdelivers)
  obtain ⟨policy', hpolicy', hlt⟩ := sinksDeferredLoop_ok h.loop h.sinks row hrow
  rw [hpolicy] at hpolicy'
  cases hpolicy'
  exact hlt

/-- The call that starts in a world has one plan, and one time of its decision. -/
theorem ReplayCall.From.unique (h : call.From context t w w₁) (h' : call'.From context t w w₂) :
    call'.plan = call.plan ∧ call'.decidesAt = call.decidesAt := by
  have hcontext : call'.context = call.context := h'.context_eq.trans h.context_eq.symm
  have hpolicy : call'.policy = call.policy := by
    have heq := h'.policy_eq
    rw [h.policy_eq] at heq
    exact (Except.ok.inj heq).symm
  have hstart : call'.start = call.start := by
    have heq := h'.start_eq
    rw [h.start_eq] at heq
    exact (Except.ok.inj heq).symm
  have hentries : call'.entries = call.entries := by
    have heq := h'.entries_eq
    rw [hstart, h.entries_eq] at heq
    exact (Except.ok.inj heq).symm
  have hclock : call'.clock = call.clock := by rw [h'.clock_eq, h.clock_eq, hstart]
  have hview : call'.view.clock = call.view.clock := by
    rw [h'.view_eq, h.view_eq, replayView_clock, replayView_clock, h'.moment.clock, h.moment.clock]
  have hplan : call'.plan = call.plan := by rw [plan, plan, hcontext, hstart, hentries]
  exact ⟨hplan, by rw [decidesAt, decidesAt, after, after, hplan, hclock, hpolicy, hview]⟩

/-- A call decides after it has started. -/
theorem CallEnded.le_decidesAt (h : CallEnded context t w t' w' call w₁) (hmonotone : Monotone w.clock)
    {saved unsaved : List WalEntry}
    (hat : call.At saved unsaved ((call.after call.plan.moves).waiting pending') (replayView w')) :
    w.clock w.ticks ≤ call.decidesAt := by
  have hticks := h.cleaned.ticks
  have hend : w'.ticks = (call.after call.plan.moves).ticks + 1 := hat.ticks
  rw [h.started.ticks] at hticks
  rw [ReplayCall.decidesAt, h.started.view_eq, replayView_clock, h.started.moment.clock]
  exact hmonotone (by omega)

end Decision

/-! ### Calls that share a runtime state -/

namespace FinishedCall

/-- **The next call** finds what this one leaves, its runtime state as well; in between records may be
appended and time may pass. -/
structure Then (call next : FinishedCall) : Prop where
  context : next.context = call.context
  runtime : next.env.runtime = call.env'.runtime
  clock : next.world.clock = call.world'.clock
  ticks : call.world'.ticks ≤ next.world.ticks
  appended : Appended call.world'.dir next.world.dir

/-- **A call defers a record**, at this time and with deliveries for this sink. -/
def DefersAt (call : FinishedCall) (now : Nat) (sink : String) (entry : WalEntry) : Prop :=
  DeliversTo call.context sink entry ∧ ∃ (data : ReplayCall) (w₁ : World) (loop : ReplayLoop)
    (sinks : List String) (pending pending' : PendingSince),
    data.From call.context call.env call.world w₁ ∧ data.DefersWith loop sinks pending pending' ∧
      entry ∈ data.plan.left ∧ data.decidesAt = now

/-- **A call starts the waiting again**: it comes to the record in its last window, and an earlier
window of it has a record with deliveries for the same sink. -/
def Resets (call : FinishedCall) (sink : String) (entry : WalEntry) : Prop :=
  ∃ (data : ReplayCall) (w₁ : World), data.From call.context call.env call.world w₁ ∧
    entry ∈ data.plan.left ∧ ∃ batch, .window batch ∈ data.plan.moves ∧
      ∃ item ∈ batch, DeliversTo call.context sink item.entry

/-- The call delivers a record. -/
def DeliversEntry (call : FinishedCall) (entry : WalEntry) : Prop :=
  ∃ delivered events, call.world'.trace = call.world.trace ++ events ∧
    Delivered call.context delivered events ∧ entry ∈ delivered

/-- The call starts in a log, between two of its records. -/
def StartsBetween (call : FinishedCall) : Prop :=
  ∃ log, Contents call.world.dir log ∧ ∀ start,
    replayStart (pipelineAutoOffsetReset call.context.eventSinks) call.world.dir = .ok start →
    StandsBetween log start

end FinishedCall

/-- **A run**: calls one after the other in which nothing fails, from a sound moment. -/
structure ReplayRun (calls : List FinishedCall) : Prop where
  finishes : ∀ call ∈ calls, call.Finishes NoFailure
  linked : calls.IsChain FinishedCall.Then
  sound : ∀ call ∈ calls.head?, Sound call.env call.world

namespace FinishedCall

variable {call next : FinishedCall} {sink : String} {entry : WalEntry} {now : Nat}

theorem Finishes.changed {mayFail : SysOp → Prop} (h : call.Finishes mayFail) :
    Changed call.world call.world' :=
  changed_of_reaches Relation.ReflTransGen.refl h.runs

theorem Finishes.sound (h : call.Finishes NoFailure) (hsound : Sound call.env call.world) :
    Sound call.env' call.world' :=
  sound_of_runs hsound h.runs

omit [DurationCodec] [JsonCodec] in
/-- Between two calls moments stay sound. -/
theorem Then.sound (h : call.Then next) (hsound : Sound call.env' call.world') :
    Sound next.env next.world :=
  (hsound.runtime h.runtime).later h.appended.path h.appended.nodeIdFile h.appended.checkpointFile
    h.clock h.ticks

omit [DurationCodec] [JsonCodec] in
theorem Then.durable (h : call.Then next) :
    durableCheckpoint next.world.dir = durableCheckpoint call.world'.dir := by
  rw [durableCheckpoint, durableCheckpoint, h.appended.checkpointFile]

end FinishedCall

/-- **Every call of a run starts in a sound moment.** -/
theorem ReplayRun.sound_of_mem {calls : List FinishedCall} (h : ReplayRun calls)
    {call : FinishedCall} (hmem : call ∈ calls) : Sound call.env call.world := by
  induction calls with
  | nil => cases hmem
  | cons first calls ih =>
    rcases List.mem_cons.mp hmem with rfl | hmem
    · exact h.sound call rfl
    · have hfirst := h.finishes first List.mem_cons_self
      refine ih ⟨fun call hcall => h.finishes call (List.mem_cons_of_mem _ hcall), h.linked.of_cons,
        fun next hnext => ?_⟩ hmem
      obtain ⟨rest, rfl⟩ := List.head?_eq_some_iff.mp hnext
      exact (List.isChain_cons_cons.mp h.linked).1.sound (hfirst.sound (h.sound first rfl))

/-- What is not covered before the last call was not covered earlier. -/
theorem not_covered_of_linked {call last : FinishedCall} {between : List FinishedCall}
    {entry : WalEntry} (hlinked : (call :: (between ++ [last])).IsChain FinishedCall.Then)
    (hfinishes : ∀ call ∈ between, call.Finishes NoFailure)
    (h : ¬Covered (durableCheckpoint last.world.dir) entry) :
    ¬Covered (durableCheckpoint call.world'.dir) entry := by
  induction between generalizing call with
  | nil =>
    rw [← (List.isChain_cons_cons.mp hlinked).1.durable]
    exact h
  | cons next between ih =>
    obtain ⟨hthen, hlinked⟩ := List.isChain_cons_cons.mp hlinked
    have hnext := ih hlinked fun call hcall => hfinishes call (List.mem_cons_of_mem _ hcall)
    intro hcovered
    rw [← hthen.durable] at hcovered
    exact hnext (hcovered.mono (hfinishes next List.mem_cons_self).changed.durable)

/-! ### One call -/

/-- What every call of the run needs: sinks, and valid batch policies. -/
structure Configured (context : WalReplayContext) : Prop where
  sinks : context.eventSinks.entries ≠ []
  parses : ∀ sink, (context.eventSinks.lookup sink).isSome → PolicyParses context sink

omit [RecordCodec] [CheckpointCodec] in
theorem configured_of_delivers {context : WalReplayContext} {sink : String} {entry : WalEntry}
    (hdelivers : DeliversTo context sink entry)
    (hparses : ∀ sink, (context.eventSinks.lookup sink).isSome → PolicyParses context sink) :
    Configured context :=
  ⟨fun hnone => hdelivers (expectedEvents_of_no_sinks hnone sink [entry]), hparses⟩

omit [RecordCodec] [CheckpointCodec] [DurationCodec] [JsonCodec] in
/-- A record that a call does not cover is not among those that it saves. -/
theorem not_mem_of_not_covered {data : ReplayCall} {entry : WalEntry} (hdata : data.Started)
    {saved : List WalEntry}
    (hsaved : saved <+: data.all) {durable : Option WalPosition}
    (hdurable : durable = (lastPosition saved).or data.view.durable)
    (hpending : ¬Covered durable entry) : entry ∉ saved := by
  intro hmem
  have hordered := hdata.uncovered.ofPrefix (hsaved.trans (contiguousEntries_isPrefix _ _))
  rw [hdurable] at hpending
  exact hpending ((hordered.covered_lastPosition hmem).mono (placeOf_le_or _ _))

namespace FinishedCall

variable {call next : FinishedCall} {sink : String} {entry : WalEntry} {now : Nat}

/-- **How a call treats a record** that it comes to: where it has it in its last window, the sink has
waited since a time before `now`, in the runtime state that `runtime` tells. -/
def Waits (call : FinishedCall) (runtime : Option PendingSince) (now : Nat) (sink : String)
    (entry : WalEntry) : Prop :=
  ∃ data w₁ log,
    CallEnded call.context call.env call.world call.env' call.world' data w₁ ∧
      data.Reads call.world log ∧ entry ∈ data.all ∧
      (entry ∈ data.plan.left → ∃ since, waitsSince runtime sink = some since ∧ since ≤ now)

/-- A call that starts in a log ends in one of the three ways. -/
theorem Finishes.ended (h : call.Finishes NoFailure) (hconfigured : Configured call.context)
    {policy : CheckpointFlushPolicy}
    (hpolicy : checkpointFlushPolicy call.context.checkpoint = .ok policy)
    {start : Option WalPosition}
    (hstart : replayStart (pipelineAutoOffsetReset call.context.eventSinks) call.world.dir = .ok start)
    {log : List LogSegment} (hcontents : Contents call.world.dir log)
    (hbetween : StandsBetween log start) :
    ∃ data w₁, CallEnded call.context call.env call.world call.env' call.world' data w₁ ∧
      data.Reads call.world log ∧ data.start = start := by
  have hentries := readEntriesAfterLimit_take (hcontents.readEntriesAfter_behind hbetween)
    replayBatchSize (by rintro m ⟨⟩)
  have hnode : call.world.dir.nodeIdFile ≠ none := fun hnone =>
    h.saves.write (Or.inr (Or.inl hnone))
  obtain ⟨data, w₁, hended⟩ := callEnded_of_runs hconfigured.sinks hpolicy hstart hentries hnode
    hconfigured.parses h.runs
  have heq : data.start = start := by
    have heq := hended.started.start_eq
    rw [hstart] at heq
    exact (Except.ok.inj heq).symm
  exact ⟨data, w₁, hended, ⟨hcontents, heq ▸ hbetween⟩, heq⟩

/-- **The next call** comes to the record again, with the same time. -/
theorem Waits.nextCall (h : call.Waits call.env'.runtime now sink entry) (hthen : call.Then next)
    (hnext : next.Finishes NoFailure) (hconfigured : Configured call.context)
    (hsound : Sound next.env next.world)
    (hpending : ¬Covered (durableCheckpoint call.world'.dir) entry) :
    next.Waits next.env.runtime now sink entry := by
  obtain ⟨data, w₁, log, hended, hreads, hmem, hwaits⟩ := h
  have hstarted := hended.started.started
  obtain ⟨kept, rest, hmoves, hdurable⟩ := hended.ends.exists_kept hstarted hmem hpending
  have hkept := ReplayCall.movesEntries_prefix_all hmoves
  have hnot := not_mem_of_not_covered hstarted hkept hdurable hpending
  -- what is behind the start: the entries saved, and the rest with the record
  have hentries := hreads.entries_eq hended.started
  have hall : data.all <+: entriesBehind data.start (logEntries log) :=
    (contiguousEntries_isPrefix _ _).trans (hentries ▸ List.take_prefix _ _)
  obtain ⟨post, hpost⟩ := hkept.trans hall
  have hmemPost : entry ∈ post := by
    have hbehind := hall.subset hmem
    rw [← hpost] at hbehind
    exact (List.mem_append.mp hbehind).resolve_left hnot
  obtain ⟨log', more, hcontents', hbetween', hstart', hbehind'⟩ :=
    hended.next_start hreads hkept hmem hpost.symm hmemPost hdurable hsound.readable hthen.appended
  rw [← hthen.context] at hstart' hconfigured
  have hpolicy := hended.started.policy_eq
  rw [← hthen.context] at hpolicy
  obtain ⟨data', w₁', hended', hreads', heq'⟩ :=
    hnext.ended hconfigured hpolicy hstart' hcontents' hbetween'
  have hentries' := hreads'.entries_eq hended'.started
  rw [heq', hbehind'] at hentries'
  rw [← hpost] at hentries
  have hcontext : data'.context = data.context := by
    rw [hended'.started.context_eq, hended.started.context_eq, hthen.context]
  obtain ⟨hmem', hleft⟩ := ReplayCall.next_plan hstarted hended'.started.started hcontext hmoves
    hentries heq' hentries' hmem hnot
  refine ⟨data', w₁', log', hended', hreads', hmem', fun hleft' => ?_⟩
  rw [hthen.runtime]
  exact hwaits (hleft hleft')

/-- A record among the entries that a call went through is delivered. -/
theorem deliversEntry_of_at {mayFail : SysOp → Prop} (h : call.Finishes mayFail) {data : ReplayCall}
    {w₁ : World} (hfrom : data.From call.context call.env call.world w₁) {saved unsaved : List WalEntry}
    {rc : ReplayClock} (hat : data.At saved unsaved rc (replayView call.world'))
    (hmem : entry ∈ saved ++ unsaved) : call.DeliversEntry entry := by
  obtain ⟨events, hevents, hdelivered⟩ := hat.trace
  obtain ⟨events', hevents', hfilter⟩ := h.changed.trace
  have heq : events = events' := by
    rw [hfrom.view_eq, replayView, replayView, hfrom.moment.trace, hevents', List.filter_append,
      hfilter] at hevents
    exact (List.append_cancel_left hevents).symm
  rw [hfrom.context_eq] at hdelivered
  exact ⟨_, events', hevents', heq ▸ hdelivered, hmem⟩

/-- Without an earlier window for its sink the time at the decision is that at the start. -/
theorem lookup_of_not_resets (hresets : ¬call.Resets sink entry) {data : ReplayCall} {w₁ : World}
    (hfrom : data.From call.context call.env call.world w₁) (hleft : entry ∈ data.plan.left)
    {loop : ReplayLoop} {sinks : List String} {pending pending' : PendingSince}
    (hdefers : data.DefersWith loop sinks pending pending') :
    pending.lookup sink = waitsSince call.env.runtime sink := by
  have hafter : waitsSince (data.after data.plan.moves).env.runtime sink =
      waitsSince data.clock.env.runtime sink :=
    ReplayCall.waitsSince_moves hfrom.started fun batch hbatch item hitem hdelivers =>
      hresets ⟨data, w₁, hfrom, hleft, batch, hbatch, item, hitem, hfrom.context_eq ▸ hdelivers⟩
  rw [hdefers.runtime, hfrom.clock_eq] at hafter
  exact hafter

/-- **A call that leaves the record** leaves it with the same time. -/
theorem Waits.left (h : call.Waits call.env.runtime now sink entry)
    (hdelivers : DeliversTo call.context sink entry) (hresets : ¬call.Resets sink entry)
    (hpending : ¬Covered (durableCheckpoint call.world'.dir) entry) :
    call.Waits call.env'.runtime now sink entry := by
  obtain ⟨data, w₁, log, hended, hreads, hmem, hwaits⟩ := h
  refine ⟨data, w₁, log, hended, hreads, hmem, fun hleft => ?_⟩
  obtain ⟨since, hsince, hle⟩ := hwaits hleft
  have hstarted := hended.started.started
  cases hended.ends with
  | finished hat =>
    exact absurd hmem (not_mem_of_not_covered hstarted List.prefix_rfl hat.durable hpending)
  | deferred hdefers hsplit hat hruntime =>
    rw [← hended.started.context_eq] at hdelivers
    have hlookup := hdefers.lookup_eq hstarted hleft hdelivers
    rw [lookup_of_not_resets hresets hended.started hleft hdefers, hsince] at hlookup
    refine ⟨since, ?_, hle⟩
    rw [hruntime]
    exact hlookup
  | stopped hending =>
    rw [ReplayPlan.left, hending] at hleft
    cases hleft

/-- **A call after the timeout** delivers the record. -/
theorem Waits.delivers (h : call.Waits call.env.runtime now sink entry)
    (hfinishes : call.Finishes NoFailure) (hsound : Sound call.env call.world)
    (hdelivers : DeliversTo call.context sink entry) (hresets : ¬call.Resets sink entry)
    {policy : SinkBatchPolicy} (hpolicy : sinkPolicy call.context sink = .ok policy)
    (hlate : now + policy.timeout ≤ call.world.clock call.world.ticks) :
    call.DeliversEntry entry := by
  obtain ⟨data, w₁, log, hended, hreads, hmem, hwaits⟩ := h
  have hfrom := hended.started
  cases hended.ends with
  | finished hat =>
    exact deliversEntry_of_at hfinishes hfrom hat (by rwa [List.append_nil])
  | deferred hdefers hsplit hat hruntime =>
    rw [← data.entries_plan, ReplayPlan.entries_eq] at hmem
    rcases List.mem_append.mp hmem with hmoves | hleft
    · exact deliversEntry_of_at hfinishes hfrom hat (hsplit ▸ hmoves)
    · -- the sink would have waited for longer than its timeout
      obtain ⟨since, hsince, hle⟩ := hwaits hleft
      rw [← hfrom.context_eq] at hdelivers hpolicy
      have hlt := hdefers.lt_timeout hfrom.started hleft hdelivers hpolicy
      rw [lookup_of_not_resets hresets hfrom hleft hdefers, hsince, Option.getD_some] at hlt
      have hdecides := hended.le_decidesAt hsound.monotone hat
      omega
  | stopped hending hall hstate hat =>
    exact deliversEntry_of_at hfinishes hfrom hat (hall ▸ hmem)

/-- **A call that defers the record** leaves it with a time that is not after the decision. -/
theorem DefersAt.waits (h : call.DefersAt now sink entry) (hfinishes : call.Finishes NoFailure)
    (hsound : Sound call.env call.world) (hlog : call.StartsBetween)
    (hparses : ∀ sink, (call.context.eventSinks.lookup sink).isSome →
      PolicyParses call.context sink)
    (hpending : ¬Covered (durableCheckpoint call.world'.dir) entry) :
    call.Waits call.env'.runtime now sink entry := by
  obtain ⟨hdelivers, data₀, w₀, loop₀, sinks₀, pending₀, pending₀', hfrom₀, -, hleft₀, rfl⟩ := h
  obtain ⟨log, hcontents, hbetween⟩ := hlog
  obtain ⟨data, w₁, hended, hreads, -⟩ := hfinishes.ended
    (configured_of_delivers hdelivers hparses) hfrom₀.policy_eq hfrom₀.start_eq hcontents
    (hbetween _ hfrom₀.start_eq)
  have hstarted := hended.started.started
  obtain ⟨hplan, hdecides⟩ := hfrom₀.unique hended.started
  have hleft : entry ∈ data.plan.left := hplan ▸ hleft₀
  have hmem : entry ∈ data.all := by
    rw [← data.entries_plan, ReplayPlan.entries_eq]
    exact List.mem_append_right _ hleft
  refine ⟨data, w₁, log, hended, hreads, hmem, fun _ => ?_⟩
  cases hended.ends with
  | finished hat =>
    exact absurd hmem (not_mem_of_not_covered hstarted List.prefix_rfl hat.durable hpending)
  | deferred hdefers hsplit hat hruntime =>
    rw [← hended.started.context_eq] at hdelivers
    refine ⟨_, by rw [hruntime]; exact hdefers.lookup_eq hstarted hleft hdelivers, ?_⟩
    rw [← hdecides]
    rename_i pending pending' _ _
    cases hlookup : pending.lookup sink with
    | none => exact le_rfl
    | some since =>
      -- the sink waited before the call, since a time that has passed
      have hsince : waitsSince call.env.runtime sink = some since := by
        have hafter : waitsSince (data.after data.plan.moves).env.runtime sink = some since := by
          rw [hdefers.runtime]
          exact hlookup
        have hbefore := ReplayCall.waitsSince_of_after hafter
        rwa [hended.started.clock_eq] at hbefore
      exact (hsound.past sink since hsince).trans (hended.le_decidesAt hsound.monotone hat)
  | stopped hending =>
    rw [ReplayPlan.left, hending] at hleft
    cases hleft

/-- **A call that leaves a record pending in its last window** defers it. -/
theorem exists_defersAt (hfinishes : call.Finishes NoFailure) (hsound : Sound call.env call.world)
    (hlog : call.StartsBetween) (hdelivers : DeliversTo call.context sink entry)
    (hparses : ∀ sink, (call.context.eventSinks.lookup sink).isSome →
      PolicyParses call.context sink)
    {policy : CheckpointFlushPolicy}
    (hpolicy : checkpointFlushPolicy call.context.checkpoint = .ok policy)
    {start : Option WalPosition}
    (hstart : replayStart (pipelineAutoOffsetReset call.context.eventSinks) call.world.dir = .ok start)
    {entries : List WalEntry}
    (hentries : readEntriesAfterLimit call.world.dir start (some replayBatchSize) = .ok entries)
    (hleft : entry ∈ (planEntries call.context (replayWindowPolicy call.context.replay) entries
      ⟨start.map fun position => position.lsn + 1, [], 0⟩).left)
    (hpending : ¬Covered (durableCheckpoint call.world'.dir) entry) :
    ∃ now, call.DefersAt now sink entry ∧ now ≤ call.world.clock call.world'.ticks := by
  obtain ⟨log, hcontents, hbetween⟩ := hlog
  obtain ⟨data, w₁, hended, -, hdata⟩ := hfinishes.ended (configured_of_delivers hdelivers hparses)
    hpolicy hstart hcontents (hbetween start hstart)
  have hread := hended.started.entries_eq
  rw [hdata, hentries] at hread
  have hplan : entry ∈ data.plan.left := by
    rw [ReplayCall.plan, hended.started.context_eq, hdata, ← Except.ok.inj hread]
    exact hleft
  cases hended.ends with
  | finished hat =>
    refine absurd ?_ (not_mem_of_not_covered hended.started.started List.prefix_rfl hat.durable hpending)
    rw [← data.entries_plan, ReplayPlan.entries_eq]
    exact List.mem_append_right _ hplan
  | deferred hdefers hsplit hat hruntime =>
    refine ⟨_, ⟨hdelivers, data, w₁, _, _, _, _, hended.started, hdefers, hplan, rfl⟩, ?_⟩
    have hend : call.world'.ticks = (data.after data.plan.moves).ticks + 1 := hat.ticks
    rw [ReplayCall.decidesAt, hended.started.view_eq, replayView_clock, hended.started.moment.clock]
    exact hsound.monotone (by omega)
  | stopped hending =>
    rw [ReplayPlan.left, hending] at hplan
    cases hplan

end FinishedCall

/-! ### A run -/

/-- The calls after the one that defers the record. -/
theorem delivers_of_waits {call last : FinishedCall} {between : List FinishedCall} {now : Nat}
    {sink : String} {entry : WalEntry} (hlinked : (call :: (between ++ [last])).IsChain FinishedCall.Then)
    (hfinishes : ∀ next ∈ between ++ [last], next.Finishes NoFailure)
    (hsound : ∀ next ∈ between ++ [last], Sound next.env next.world)
    (hwaits : call.Waits call.env'.runtime now sink entry)
    (hconfigured : Configured call.context) (hdelivers : DeliversTo call.context sink entry)
    {policy : SinkBatchPolicy} (hpolicy : sinkPolicy call.context sink = .ok policy)
    (hlate : now + policy.timeout ≤ last.world.clock last.world.ticks)
    (hpending : ¬Covered (durableCheckpoint last.world.dir) entry)
    (hresets : ∀ next ∈ between ++ [last], ¬next.Resets sink entry) : last.DeliversEntry entry := by
  induction between generalizing call with
  | nil =>
    have hthen := (List.isChain_cons_cons.mp hlinked).1
    have hmem : last ∈ ([] : List FinishedCall) ++ [last] := List.mem_singleton.mpr rfl
    have hnow := not_covered_of_linked hlinked (by simp) hpending
    have hnext := hwaits.nextCall hthen (hfinishes last hmem) hconfigured (hsound last hmem) hnow
    rw [← hthen.context] at hdelivers hpolicy
    exact hnext.delivers (hfinishes last hmem) (hsound last hmem) hdelivers (hresets last hmem) hpolicy
      hlate
  | cons next between ih =>
    obtain ⟨hthen, hlinked'⟩ := List.isChain_cons_cons.mp hlinked
    have hmem : next ∈ next :: between ++ [last] := List.mem_cons_self
    have hrest : ∀ c ∈ between ++ [last], c ∈ next :: between ++ [last] :=
      fun c hc => List.mem_cons_of_mem _ hc
    have hbetween : ∀ c ∈ next :: between, c.Finishes NoFailure :=
      fun c hc => hfinishes c (List.mem_append_left _ hc)
    have hnow := not_covered_of_linked hlinked hbetween hpending
    have hlater := not_covered_of_linked hlinked' (fun c hc => hbetween c (List.mem_cons_of_mem _ hc))
      hpending
    have hnext := hwaits.nextCall hthen (hfinishes next hmem) hconfigured (hsound next hmem) hnow
    rw [← hthen.context] at hdelivers hpolicy hconfigured
    exact ih hlinked' (fun c hc => hfinishes c (hrest c hc)) (fun c hc => hsound c (hrest c hc))
      (hnext.left hdelivers (hresets next hmem) hlater) hconfigured hdelivers hpolicy
      fun c hc => hresets c (hrest c hc)

/-- **A deferred record is delivered in time**, unless a later call starts its waiting again. In every
run of calls that share a runtime state, in which nothing fails, records are appended between the calls
and the clock does not run backward, with valid batch policies: where a call defers a record with
deliveries for a sink, every call that starts when the timeout of the sink has passed since, delivers
the record if it is still pending, unless a call in between, or this one, comes to the record in its
last window after a window with deliveries for the same sink. -/
theorem delivers_deferred {before between : List FinishedCall} {first last : FinishedCall}
    (hrun : ReplayRun (before ++ first :: (between ++ [last]))) {now : Nat} {sink : String}
    {entry : WalEntry} (hdefers : first.DefersAt now sink entry) (hlog : first.StartsBetween)
    (hparses : ∀ sink, (first.context.eventSinks.lookup sink).isSome →
      PolicyParses first.context sink)
    {policy : SinkBatchPolicy} (hpolicy : sinkPolicy first.context sink = .ok policy)
    (hlate : now + policy.timeout ≤ last.world.clock last.world.ticks)
    (hpending : ¬Covered (durableCheckpoint last.world.dir) entry)
    (hresets : ∀ call ∈ between ++ [last], ¬call.Resets sink entry) : last.DeliversEntry entry := by
  have hmem : ∀ call ∈ first :: (between ++ [last]), call ∈ before ++ first :: (between ++ [last]) :=
    fun call hcall => List.mem_append_right _ hcall
  have hlinked := hrun.linked.right_of_append
  have hfinishes : ∀ call ∈ first :: (between ++ [last]), call.Finishes NoFailure :=
    fun call hcall => hrun.finishes call (hmem call hcall)
  have hsound : ∀ call ∈ first :: (between ++ [last]), Sound call.env call.world :=
    fun call hcall => hrun.sound_of_mem (hmem call hcall)
  have hafter := not_covered_of_linked hlinked
    (fun call hcall => hfinishes call (List.mem_cons_of_mem _ (List.mem_append_left _ hcall))) hpending
  have hwaits := hdefers.waits (hfinishes first List.mem_cons_self) (hsound first List.mem_cons_self)
    hlog hparses hafter
  exact delivers_of_waits hlinked (fun call hcall => hfinishes call (List.mem_cons_of_mem _ hcall))
    (fun call hcall => hsound call (List.mem_cons_of_mem _ hcall)) hwaits
    (configured_of_delivers hdefers.1 hparses) hdefers.1 hpolicy hlate hpending hresets

end Deferral

/-! ### A sample run -/

section Sample

attribute [local instance] referenceCodec referenceCheckpointCodec referenceDurationCodec
  referenceJsonCodec

/-- A clock that stands still for ten readings, and then ten seconds later. -/
def lateClock (n : Nat) : Nat := if n < 10 then 0 else 10000000000

/-- A call in which nothing fails. -/
def timedCall (flushRecords : Nat) (runtime : Option PendingSince) (w : World) : FinishedCall :=
  let run := ((replayOnceInner (sampleContext flushRecords "5s")).start (sampleLocal runtime)).exec
    (sysAnswer fun _ => none) w
  ⟨sampleContext flushRecords "5s", sampleLocal runtime, w, run.1.1, run.1.2, run.2⟩

/-- A call on the sample log, and one ten seconds later. -/
@[irreducible] def timedCalls (flushRecords : Nat) : FinishedCall × FinishedCall :=
  let first := timedCall flushRecords (some ∅) { sampleLog with clock := lateClock }
  (first, timedCall flushRecords first.env'.runtime { first.world' with ticks := 10 })

/-- The third record of the sample log. -/
def thirdEntry : WalEntry := (sampleEntries sampleLog).getD 2 (walEntry 0 0 0 (sampleRecord ""))

/-- The sample log as a list of frames. -/
theorem exists_contents_sampleLog : ∃ segment : LogSegment, Contents sampleLog.dir [segment] := by
  obtain ⟨header, hheader⟩ := serializeSegmentHeader_of_length
    (show (Bytes.utf8Bytes "n").length ≤ _ by decide +kernel) (UInt64.ofNat 1) (UInt64.ofNat 1) 0
  obtain ⟨a, ha⟩ := Option.isSome_iff_exists.mp
    (show (frameOf (assignWalMetadata (sampleRecord "a") 1 "n")).isSome by decide +kernel)
  obtain ⟨b, hb⟩ := Option.isSome_iff_exists.mp
    (show (frameOf (assignWalMetadata (sampleRecord "b") 2 "n")).isSome by decide +kernel)
  obtain ⟨c, hc⟩ := Option.isSome_iff_exists.mp
    (show (frameOf (assignWalMetadata (sampleRecord "c") 3 "n")).isSome by decide +kernel)
  let segment : LogSegment := {
    id := 1
    nodeId := "n"
    startLsn := UInt64.ofNat 1
    createdMs := 0
    header := header
    frames := [a, b, c]
    torn := []
    encodes := hheader
    starts := by
      rintro _ ⟨⟩
      rw [frameOf_record ha]
      rfl
    tears := tornTail_nil }
  have hframe : ∀ {lsn recordId} {frame : Frame},
      frameOf (assignWalMetadata (sampleRecord recordId) lsn "n") = some frame →
      sampleFrame lsn recordId = frame.bytes := by
    intro lsn recordId frame h
    rw [sampleFrame, ← frameOf_record h, frame.encodes]
    rfl
  refine ⟨segment, ?_⟩
  show [(1, (sampleFile 1 1 [(1, "a"), (2, "b"), (3, "c")]).bytes)] = [(1, segment.bytes)]
  have hbytes : (sampleFile 1 1 [(1, "a"), (2, "b"), (3, "c")]).bytes = segment.bytes := by
    show (serializeSegmentHeader (UInt64.ofNat 1) "n" (UInt64.ofNat 1) 0).toOption.getD [] ++
      (sampleFrame 1 "a" ++ (sampleFrame 2 "b" ++ (sampleFrame 3 "c" ++ []))) = _
    rw [hheader, hframe ha, hframe hb, hframe hc]
    show header ++ _ = header ++ (framesBytes [a, b, c] ++ [])
    simp
  rw [hbytes]

theorem monotone_lateClock : Monotone lateClock := by
  intro n m h
  unfold lateClock
  split_ifs <;> omega

/-- The first of the two calls starts at the start of the sample log. -/
theorem timedCalls_first (flushRecords : Nat) :
    (timedCalls flushRecords).1 =
      timedCall flushRecords (some ∅) { sampleLog with clock := lateClock } := by
  unfold timedCalls
  rfl

/-- The second one finds the directory that the first one leaves. -/
theorem timedCalls_second_dir (flushRecords : Nat) :
    (timedCalls flushRecords).2.world.dir = (timedCalls flushRecords).1.world'.dir := by
  unfold timedCalls
  rfl

theorem sound_timedCalls (flushRecords : Nat) :
    Sound (timedCalls flushRecords).1.env (timedCalls flushRecords).1.world := by
  rw [timedCalls_first]
  refine ⟨monotone_lateClock, fun sink since h => ?_, fun file h => ?_⟩
  · cases h
  · cases h

theorem startsBetween_timedCalls (flushRecords : Nat) : (timedCalls flushRecords).1.StartsBetween := by
  obtain ⟨segment, hcontents⟩ := exists_contents_sampleLog
  rw [timedCalls_first]
  refine ⟨[segment], hcontents, fun start hstart => ?_⟩
  have hnone : replayStart (pipelineAutoOffsetReset (sampleContext 0 "5s").eventSinks) sampleLog.dir =
      .ok none := by decide +kernel
  have heq : Except.ok start = Except.ok (ε := IoError) none := hstart.symm.trans hnone
  cases heq
  rintro position ⟨⟩

/-- The two calls are a run, where the first leaves the segments as they are. -/
theorem replayRun_timedCalls {flushRecords : Nat}
    (hnode : (timedCalls flushRecords).1.world'.dir.nodeIdFile ≠ none)
    (hticks : (timedCalls flushRecords).1.world'.ticks ≤ 10)
    (hsegments : (timedCalls flushRecords).1.world'.dir.segments.entries.map
        (fun row => (row.1, row.2.bytes)) =
      sampleLog.dir.segments.entries.map fun row => (row.1, row.2.bytes)) :
    ReplayRun ([] ++ (timedCalls flushRecords).1 :: ([] ++ [(timedCalls flushRecords).2])) := by
  obtain ⟨segment, hcontents⟩ := exists_contents_sampleLog
  have hlog : Contents (timedCalls flushRecords).1.world'.dir [segment] := hsegments.trans hcontents
  refine ⟨?_, ?_, fun call hcall => ?_⟩
  · intro call hmem
    rcases List.mem_cons.mp hmem with rfl | hmem
    · rw [timedCalls_first]
      exact finishes_exec _ _ (by decide +kernel)
    · rw [List.mem_singleton.mp hmem]
      unfold timedCalls at hnode ⊢
      exact finishes_exec _ _ hnode
  · refine List.IsChain.cons_cons ?_ (List.IsChain.singleton _)
    unfold timedCalls at hticks hlog ⊢
    exact ⟨rfl, rfl, rfl, hticks, rfl, rfl, rfl, _, _, hlog, hlog, Grows.refl _⟩
  · cases hcall
    exact sound_timedCalls flushRecords

/-- The first call defers the third record. -/
theorem exists_defersAt_timedCalls {flushRecords : Nat}
    (hpolicy : (checkpointFlushPolicy (sampleContext flushRecords "5s").checkpoint).toOption.isSome)
    (hparses : ∀ sink, PolicyParses (sampleContext flushRecords "5s") sink)
    (hleft : thirdEntry ∈ (planEntries (sampleContext flushRecords "5s")
      (replayWindowPolicy (sampleContext flushRecords "5s").replay) (sampleEntries sampleLog)
      ⟨none, [], 0⟩).left)
    (hpending : ¬Covered (durableCheckpoint (timedCalls flushRecords).1.world'.dir) thirdEntry) :
    ∃ now, (timedCalls flushRecords).1.DefersAt now "events" thirdEntry ∧
      now ≤ (timedCalls flushRecords).1.world.clock (timedCalls flushRecords).1.world'.ticks := by
  have hsound := sound_timedCalls flushRecords
  have hbetween := startsBetween_timedCalls flushRecords
  rw [timedCalls_first] at hpending hsound hbetween ⊢
  obtain ⟨policy, hpolicy⟩ : ∃ policy,
      checkpointFlushPolicy (sampleContext flushRecords "5s").checkpoint = .ok policy := by
    cases h : checkpointFlushPolicy (sampleContext flushRecords "5s").checkpoint with
    | ok policy => exact ⟨policy, rfl⟩
    | error issue => simp [h, Except.toOption] at hpolicy
  exact FinishedCall.exists_defersAt (finishes_exec _ _ (by decide +kernel)) hsound
    hbetween
    (show expectedEvents (sampleContext 0 "5s") "events" [thirdEntry] ≠ [] by decide +kernel)
    (fun sink _ => hparses sink) hpolicy
    (show replayStart .earliest sampleLog.dir = .ok none by decide +kernel)
    (show readEntriesAfterLimit sampleLog.dir none (some replayBatchSize) =
      .ok (sampleEntries sampleLog) by decide +kernel)
    hleft hpending

theorem exists_timeout (flushRecords : Nat) (h : ((sinkPolicy (sampleContext flushRecords "5s")
    "events").toOption.map SinkBatchPolicy.timeout) = some 5000000000) :
    ∃ policy, sinkPolicy (sampleContext flushRecords "5s") "events" = .ok policy ∧
      policy.timeout = 5000000000 := by
  cases hpolicy : sinkPolicy (sampleContext flushRecords "5s") "events" with
  | ok policy =>
    rw [hpolicy] at h
    exact ⟨policy, rfl, Option.some.inj h⟩
  | error issue =>
    rw [hpolicy] at h
    cases h

theorem policyParses_timed (flushRecords : Nat) (sink : String) :
    PolicyParses (sampleContext flushRecords "5s") sink :=
  policyParses_sampleContext sink

/-- **The theorem on two calls**, the first of which saves the window before the last: the second one
delivers the record ten seconds later. -/
theorem delivers_deferred_sample : ∃ now,
    (timedCalls 1).1.DefersAt now "events" thirdEntry ∧ (timedCalls 1).2.DeliversEntry thirdEntry := by
  have hpending : ¬Covered (durableCheckpoint (timedCalls 1).1.world'.dir) thirdEntry := by
    unfold Covered
    decide +kernel
  obtain ⟨now, hdefers, hnow⟩ := exists_defersAt_timedCalls (by decide +kernel) (policyParses_timed 1)
    (by decide +kernel) hpending
  obtain ⟨policy, hpolicy, htimeout⟩ := exists_timeout 1 (by decide +kernel)
  have hcontext : (timedCalls 1).1.context = sampleContext 1 "5s" := by rw [timedCalls_first]; rfl
  have hfirst : (timedCalls 1).1.world.clock (timedCalls 1).1.world'.ticks = 0 := by decide +kernel
  have hsecond : (timedCalls 1).2.world.clock (timedCalls 1).2.world.ticks = 10000000000 := by
    decide +kernel
  have hrun : ReplayRun ([] ++ (timedCalls 1).1 :: ([] ++ [(timedCalls 1).2])) :=
    replayRun_timedCalls (by decide +kernel) (by decide +kernel) (by decide +kernel)
  refine ⟨now, hdefers, delivers_deferred hrun hdefers
    (startsBetween_timedCalls 1) (fun sink _ => hcontext ▸ policyParses_timed 1 sink)
    (hcontext ▸ hpolicy) (by omega) (by rwa [timedCalls_second_dir]) ?_⟩
  · -- the second call reads only the third record
    have hcontext' : (timedCalls 1).2.context = sampleContext 1 "5s" := by unfold timedCalls; rfl
    have hstart : replayStart .earliest (timedCalls 1).2.world.dir =
        .ok ((sampleEntries sampleLog)[1]?.map WalEntry.nextPosition) := by decide +kernel
    have hentries : readEntriesAfterLimit (timedCalls 1).2.world.dir
        ((sampleEntries sampleLog)[1]?.map WalEntry.nextPosition) (some replayBatchSize) =
        .ok [thirdEntry] := by decide +kernel
    intro call hcall
    rw [List.mem_singleton.mp hcall]
    rintro ⟨data, w₁, hfrom, -, batch, hbatch, -⟩
    have hstart' := hfrom.start_eq
    rw [hcontext', show pipelineAutoOffsetReset (sampleContext 1 "5s").eventSinks = .earliest by
      decide +kernel, hstart] at hstart'
    have hentries' := hfrom.entries_eq
    rw [← Except.ok.inj hstart', hentries] at hentries'
    rw [ReplayCall.plan, hfrom.context_eq, hcontext', ← Except.ok.inj hstart',
      ← Except.ok.inj hentries'] at hbatch
    refine absurd (List.length_pos_of_mem hbatch) (Nat.not_lt.mpr (Nat.le_zero.mpr ?_))
    decide +kernel

/-- **A deferred record may not be delivered in time.** The first call sends the window of the first two
records without saving it and defers the third; ten seconds later the next call sends the two again,
which clears the time, and defers the third record again. -/
theorem not_delivers_deferred : ¬∀ (before between : List FinishedCall) (first last : FinishedCall)
    (now : Nat) (sink : String) (entry : WalEntry) (policy : SinkBatchPolicy),
    ReplayRun (before ++ first :: (between ++ [last])) → first.DefersAt now sink entry →
    first.StartsBetween →
    (∀ sink, (first.context.eventSinks.lookup sink).isSome → PolicyParses first.context sink) →
    sinkPolicy first.context sink = .ok policy →
    now + policy.timeout ≤ last.world.clock last.world.ticks →
    ¬Covered (durableCheckpoint last.world.dir) entry → last.DeliversEntry entry := by
  intro hclaim
  have hdurable : durableCheckpoint (timedCalls 1000).1.world'.dir = none := by decide +kernel
  have hpending : ¬Covered (durableCheckpoint (timedCalls 1000).1.world'.dir) thirdEntry := by
    rw [hdurable]
    exact not_covered_none _
  obtain ⟨now, hdefers, hnow⟩ := exists_defersAt_timedCalls (by decide +kernel)
    (policyParses_timed 1000) (by decide +kernel) hpending
  obtain ⟨policy, hpolicy, htimeout⟩ := exists_timeout 1000 (by decide +kernel)
  have hcontext : (timedCalls 1000).1.context = sampleContext 1000 "5s" := by
    rw [timedCalls_first]
    rfl
  have hfirst : (timedCalls 1000).1.world.clock (timedCalls 1000).1.world'.ticks = 0 := by
    decide +kernel
  have hsecond : (timedCalls 1000).2.world.clock (timedCalls 1000).2.world.ticks = 10000000000 := by
    decide +kernel
  obtain ⟨delivered, events, htrace, hdelivered, hmem⟩ := hclaim [] [] _ _ now "events" thirdEntry policy
    (replayRun_timedCalls (by decide +kernel) (by decide +kernel) (by decide +kernel)) hdefers
    (startsBetween_timedCalls 1000) (fun sink _ => hcontext ▸ policyParses_timed 1000 sink)
    (hcontext ▸ hpolicy) (by omega) (by rwa [timedCalls_second_dir])
  -- the second call sent the first two records, and nothing else
  have hbefore : sentEvents "events" (timedCalls 1000).2.world.trace = [.string "a", .string "b"] := by
    decide +kernel
  have hafter : sentEvents "events" (timedCalls 1000).2.world'.trace =
      [.string "a", .string "b"] ++ [.string "a", .string "b"] := by decide +kernel
  rw [htrace, sentEvents_append, hbefore, hdelivered.sent] at hafter
  have hthird : Value.string "c" ∈ expectedEvents (timedCalls 1000).2.context "events" delivered := by
    have hone : expectedEvents (timedCalls 1000).2.context "events" [thirdEntry] = [.string "c"] := by
      decide +kernel
    rw [expectedEvents] at hone ⊢
    rw [List.flatMap_singleton] at hone
    exact List.mem_flatMap.mpr ⟨thirdEntry, hmem, hone ▸ List.mem_singleton.mpr rfl⟩
  rw [List.append_cancel_left hafter] at hthird
  revert hthird
  decide +kernel

end Sample

end Ingest4x.Wal
