import Ingest4x.Effect.Interference
import Ingest4x.Lifecycle.Replaying

/-! # Replaying while records are appended

The replay runs beside the writer: between any two of its operations, calls of the writer may come, in
any number. They let the log grow at its end and answer appends; they neither send anything nor touch
the checkpoint.

* **`LoggedWorld`** — a world with its whole log, and **`WriterMoved`**, what the writer does to it.
* **`ReplayMoment`** — a moment of a replay call: the whole log is there, and what the call has saved,
  sent and set aside belongs to the first entries behind the checkpoint.
* **`wpc_replayOnceInner_concurrent`** — every moment of a call is one, whatever the writer does.
* **`ReplayMoment.exists_done`** — what the checkpoint covers beyond the start of a call is done with. -/

namespace Ingest4x.Wal

open Effect

variable [RecordCodec] [CheckpointCodec]

/-! ### What the writer does -/

omit [RecordCodec] [CheckpointCodec] in
/-- **A world with its whole log.** -/
structure LoggedWorld where
  world : World
  log : List LogSegment

/-- The checkpoint on disk. -/
def LoggedWorld.durable (s : LoggedWorld) : Option WalPosition := durableCheckpoint s.world.dir

/-- The entries of the whole log. -/
def LoggedWorld.entries (s : LoggedWorld) : List WalEntry := logEntries s.log

/-- **What calls of the writer do** beside a replay. -/
structure WriterMoved (s s' : LoggedWorld) : Prop where
  path : s'.world.dir.path = s.world.dir.path
  nodeIdFile : s'.world.dir.nodeIdFile = s.world.dir.nodeIdFile
  checkpointFile : s'.world.dir.checkpointFile = s.world.dir.checkpointFile
  clock : s'.world.clock = s.world.clock
  ticks : s'.world.ticks = s.world.ticks
  trace : s'.world.trace.filter Event.isReplay = s.world.trace.filter Event.isReplay
  whole : WholeLog s.world.dir s.log → WholeLog s'.world.dir s'.log
  entries : s.entries <+: s'.entries

namespace WriterMoved

variable {s s' s'' : LoggedWorld}

theorem refl (s : LoggedWorld) : WriterMoved s s :=
  ⟨rfl, rfl, rfl, rfl, rfl, rfl, id, List.prefix_rfl⟩

theorem trans (h : WriterMoved s s') (h' : WriterMoved s' s'') : WriterMoved s s'' where
  path := h'.path.trans h.path
  nodeIdFile := h'.nodeIdFile.trans h.nodeIdFile
  checkpointFile := h'.checkpointFile.trans h.checkpointFile
  clock := h'.clock.trans h.clock
  ticks := h'.ticks.trans h.ticks
  trace := h'.trace.trans h.trace
  whole hwhole := h'.whole (h.whole hwhole)
  entries := h.entries.trans h'.entries

/-- The replay sees nothing of it. -/
theorem replayView (h : WriterMoved s s') : replayView s'.world = replayView s.world := by
  simp only [Wal.replayView, h.nodeIdFile, h.clock, h.ticks, h.trace, durableCheckpoint,
    h.checkpointFile]

theorem fileView (h : WriterMoved s s') : fileView s'.world = fileView s.world := by
  rw [Wal.fileView, Wal.fileView, h.nodeIdFile, h.checkpointFile]

theorem durable (h : WriterMoved s s') : s'.durable = s.durable := by
  rw [LoggedWorld.durable, durableCheckpoint, h.checkpointFile]
  rfl

end WriterMoved

/-! ### Operations of the replay among calls of the writer -/

/-- The operations of the replay leave the whole log alone. -/
def loggedEnv (mayFail : SysOp → Prop) : Env SysOp SysResp LoggedWorld :=
  fun o s r s' => sysEnv mayFail o s.world r s'.world ∧ s'.log = s.log

/-- **The environment of a replay**: before each of its operations, the writer may move on. -/
abbrev replayEnv (mayFail : SysOp → Prop) : Env SysOp SysResp LoggedWorld :=
  among WriterMoved (loggedEnv mayFail)

section Views

variable (mayFail : SysOp → Prop)

/-- What the replay sees of an operation. -/
theorem replayEnv_viewEnv (o : SysOp) (s : LoggedWorld) (r : SysResp o) (s' : LoggedWorld)
    (h : replayEnv mayFail o s r s') : viewEnv mayFail o (replayView s.world) r (replayView s'.world) := by
  obtain ⟨s₁, hmoved, he, -⟩ := h
  rw [← hmoved.replayView]
  exact sysEnv_viewEnv mayFail o _ r _ he

/-- What an operation does to the two files. -/
theorem replayEnv_fileEnv (o : SysOp) (s : LoggedWorld) (r : SysResp o) (s' : LoggedWorld)
    (h : replayEnv mayFail o s r s') : fileEnv o (fileView s.world) r (fileView s'.world) := by
  obtain ⟨s₁, hmoved, he, -⟩ := h
  rw [← hmoved.fileView]
  exact sysEnv_fileEnv mayFail o _ r _ he

end Views

/-! ### Moments of a call -/

variable {mayFail : SysOp → Prop} {context : WalReplayContext} {s s₀ s₁ s' : LoggedWorld}

/-- **A moment of a replay call** that started in `s₀`: the whole log is there, and the call has gone
through some of the entries behind the checkpoint from its start, from the first on. -/
structure ReplayMoment [JsonCodec] (context : WalReplayContext) (s₀ s : LoggedWorld) : Prop where
  whole : WholeLog s.world.dir s.log
  entries : s₀.entries <+: s.entries
  moment : ∃ all, all <+: entriesBehind s₀.durable s.entries ∧
    IsMoment context (replayView s₀.world) all (replayView s.world)

section Moments

variable [JsonCodec]

/-- Where nothing was sent and saved yet. -/
theorem ReplayMoment.of_moved (hwhole : WholeLog s₀.world.dir s₀.log) (h : WriterMoved s₀ s) :
    ReplayMoment context s₀ s := by
  refine ⟨h.whole hwhole, h.entries, [], List.nil_prefix, [], [], ?_⟩
  rw [h.replayView]
  exact {
    saved_le := List.nil_prefix
    durable := rfl
    trace := (List.append_nil _).symm
    acked := fun sink => List.nil_prefix
    sent := fun sink => List.nil_prefix
    quarantined := List.nil_prefix
    set_aside := List.nil_prefix }

/-- **The writer leaves a moment of the replay.** -/
theorem ReplayMoment.moved (h : ReplayMoment context s₀ s) (hmoved : WriterMoved s s') :
    ReplayMoment context s₀ s' := by
  obtain ⟨all, hall, hmoment⟩ := h.moment
  refine ⟨hmoved.whole h.whole, h.entries.trans hmoved.entries, all, hall.trans ?_, ?_⟩
  · obtain ⟨more, hmore⟩ := hmoved.entries
    rw [← hmore, entriesBehind_append]
    exact List.prefix_append _ _
  · rw [hmoved.replayView]
    exact hmoment

/-- One reading of the clock later. -/
def LoggedWorld.tick (s : LoggedWorld) : LoggedWorld :=
  ⟨{ s.world with ticks := s.world.ticks + 1 }, s.log⟩

theorem ReplayMoment.tick (h : ReplayMoment context s₀ s) : ReplayMoment context s₀ s.tick := by
  obtain ⟨all, hall, saved, events, hmoment⟩ := h.moment
  exact ⟨h.whole, h.entries, all, hall, saved, events, hmoment.saved_le, hmoment.durable,
    hmoment.trace, hmoment.acked, hmoment.sent, hmoment.quarantined, hmoment.set_aside⟩

end Moments

/-! ### The start of a call -/

section Start

variable {τ : Type} {P : SysOp → LoggedWorld → Prop} {t : τ}

/-- **A read of the directory** finds it as the writer has left it. -/
theorem wpc_readDir_concurrent {Q : WalDir → τ → LoggedWorld → Prop}
    {E : IoError → τ → LoggedWorld → Prop} (hP : P .readDir s)
    (hQ : ∀ s', WriterMoved s s' → Q s'.world.dir t s')
    (hE : ∀ error s', WriterMoved s s' → E error t s') :
    wpc (replayEnv mayFail) P (readDir : Sys τ WalDir) Q E t s := by
  rw [readDir, wpc_orThrow, wpc_perform]
  refine ⟨hP, ?_⟩
  rintro r ⟨w, log⟩ ⟨s₁, hmoved, ⟨hworld, hread⟩, hlog⟩
  have hsame : (⟨w, log⟩ : LoggedWorld) = s₁ := by
    cases s₁
    exact congrArg₂ LoggedWorld.mk hworld hlog
  rw [hsame]
  rcases hread with rfl | ⟨-, e, rfl⟩
  · refine ⟨?_, by rintro _ ⟨⟩⟩
    rintro _ ⟨⟩
    exact hQ s₁ hmoved
  · exact ⟨by rintro _ ⟨⟩, fun error _ => hE error s₁ hmoved⟩

/-- **`read_replay_checkpoint_state`** beside the writer finds the checkpoint on disk. -/
theorem wpc_readReplayCheckpointState_concurrent {eventSinks : EventSinks}
    (hreset : pipelineAutoOffsetReset eventSinks = .earliest)
    (hwhole : WholeLog s.world.dir s.log) {Q : ReplayCheckpointState → τ → LoggedWorld → Prop}
    {E : IoError → τ → LoggedWorld → Prop}
    (hP : ∀ o s', WriterMoved s s' → Guard o (replayView s'.world) → P o s')
    (hQ : ∀ s', WriterMoved s s' →
      Q ⟨s'.durable, none, 0, 0, s'.world.clock s'.world.ticks⟩ t s'.tick)
    (hE : ∀ error s', WriterMoved s s' → E error t s') :
    wpc (replayEnv mayFail) P (readReplayCheckpointState eventSinks) Q E t s := by
  -- the reading of the clock at the end
  have hlast : ∀ s', WriterMoved s s' → wpc (replayEnv mayFail) P
      (sys .instantNow >>= fun now => pure ⟨s.durable, none, 0, 0, now⟩) Q E t s' := by
    intro s' hmoved
    rw [wpc_bind, wpc_perform]
    refine ⟨hP _ _ hmoved trivial, ?_⟩
    rintro now ⟨w, log⟩ ⟨s₁, hmoved', ⟨rfl, hworld⟩, hlog⟩
    have hsame : (⟨w, log⟩ : LoggedWorld) = s₁.tick := congrArg₂ LoggedWorld.mk hworld hlog
    have hnow := hmoved.trans hmoved'
    rw [wpc_pure, hsame, ← hnow.durable]
    exact hQ s₁ hnow
  rw [readReplayCheckpointState, wpc_bind]
  refine wpc_readDir_concurrent (hP _ _ (.refl s) trivial) (fun s₁ hmoved => ?_) hE
  obtain ⟨bounds, hbounds, hfloor⟩ := (hmoved.whole hwhole).readWalBounds
  rw [hbounds, wpc_bind, wpc_ofExcept_ok, wpc_bind, hreset, readCheckpoint, wpc_bind]
  refine wpc_readDir_concurrent (hP _ _ hmoved trivial) (fun s₂ hmoved' => ?_)
    fun error s₂ hmoved' => hE error s₂ (hmoved.trans hmoved')
  have hnow := hmoved.trans hmoved'
  cases hfile : s₂.world.dir.checkpointFile with
  | none =>
    have hnone : s.durable = none := by
      rw [← hnow.durable, LoggedWorld.durable, durableCheckpoint, hfile]
      rfl
    have hend := hlast s₂ hnow
    rw [hnone] at hend
    exact hend
  | some file =>
    obtain ⟨position, hread, hdurable⟩ := (hnow.whole hwhole).readCheckpointFile hfile
    have hsome : s.durable = some position := hnow.durable.symm.trans hdurable
    -- the bounds are read before the checkpoint, but no entry at its end was removed since
    have hbefore : checkpointBeforeWalFloor position bounds = false :=
      hfloor position (hmoved.durable.trans hsome)
    simp only [hread]
    rw [wpc_bind, wpc_ofExcept_ok, hbefore, if_neg Bool.false_ne_true]
    have hend := hlast s₂ hnow
    rw [hsome] at hend
    exact hend

end Start

/-! ### The rest of a call -/

section Call

variable [DurationCodec] [JsonCodec] {t : ReplayLocal}

variable {call : ReplayCall} {w : World}

omit [JsonCodec] in
/-- **The data of a call** that reads its entries in the world `s₁`, one reading of the clock after its
start in `s₀`. -/
theorem exists_call {policy : CheckpointFlushPolicy} {entries : List WalEntry}
    (hreset : pipelineAutoOffsetReset context.eventSinks = .earliest)
    (hpolicy : checkpointFlushPolicy context.checkpoint = .ok policy)
    (hwhole : WholeLog s₁.world.dir s₁.log) (hmoved : WriterMoved s₀.tick s₁)
    (hread : readEntriesAfterLimit s₁.world.dir s₀.durable (some replayBatchSize) = .ok entries) :
    ∃ (call : ReplayCall) (w : World), call.From context t w s₁.world ∧
      call.policy = policy ∧ call.start = s₀.durable ∧ call.entries = entries ∧
      call.clock.env = { t with
        state := ⟨s₀.durable, none, 0, 0, s₀.world.clock s₀.world.ticks⟩ } ∧
      call.all <+: entriesBehind s₀.durable s₁.entries := by
  have hdurable : durableCheckpoint s₁.world.dir = s₀.durable := hmoved.durable
  let call : ReplayCall := {
    context := context
    policy := policy
    start := s₀.durable
    entries := entries
    view := replayView s₁.world
    clock := ⟨{ t with state := ⟨s₀.durable, none, 0, 0, s₀.world.clock s₀.world.ticks⟩ },
      s₀.world.ticks + 1⟩ }
  -- the call as it would be, had the writer moved on before its start
  refine ⟨call, { s₁.world with ticks := s₀.world.ticks }, ⟨rfl, hpolicy, ?_, hread, rfl, ?_, ?_, ?_,
    ?_⟩, rfl, rfl, rfl, rfl, ?_⟩
  · rw [hreset]
    exact hwhole.replayStart.trans (congrArg Except.ok hdurable)
  · show call.clock = _
    rw [hmoved.clock]
    rfl
  · exact ⟨rfl, rfl, rfl, rfl, rfl, Or.inl rfl⟩
  · exact Or.inr hdurable
  · exact hmoved.ticks
  · rw [← hdurable, hwhole.readEntriesAfterLimit, hdurable] at hread
    refine (contiguousEntries_isPrefix _ _).trans ?_
    show entries <+: _
    rw [← Except.ok.inj hread]
    exact List.take_prefix _ _

/-- **The log in the rest of a call** that read its entries in `s₁`. -/
structure RestMoment (s₁ s : LoggedWorld) : Prop where
  whole : WholeLog s.world.dir s.log
  entries : s₁.entries <+: s.entries

omit [DurationCodec] in
/-- The checkpoint on disk is at the end of an entry that was there when the call read its entries. -/
theorem ReplayCall.Meets.exists_entry (hmeets : call.Meets (replayView s.world))
    (hwhole : WholeLog s₁.world.dir s₁.log) (hview : call.view = replayView s₁.world)
    (hall : call.all <+: entriesBehind s₀.durable s₁.entries) {position : WalPosition}
    (hposition : s.durable = some position) :
    ∃ entry ∈ s₁.entries, entry.nextPosition = position := by
  obtain ⟨saved, events, hmoment⟩ := hmeets
  have hdurable := hmoment.durable
  rw [hview] at hdurable
  have hsaved : s.durable = (lastPosition saved).or s₁.durable := hdurable
  rw [hposition] at hsaved
  rcases List.eq_nil_or_concat saved with rfl | ⟨front, last, rfl⟩
  · rw [lastPosition_nil, Option.none_or] at hsaved
    exact hwhole.checkpoint.exists_entry hsaved.symm
  · rw [List.concat_eq_append] at hmoment hsaved
    rw [lastPosition_append_singleton, Option.some_or] at hsaved
    refine ⟨last, (entriesBehind_sublist _ _).subset (hall.subset ?_), (Option.some_inj.mp hsaved).symm⟩
    exact hmoment.saved_le.subset (List.mem_append_right _ (List.mem_singleton.mpr rfl))

omit [DurationCodec] [JsonCodec] in
/-- **An operation of the replay keeps the whole log.** -/
theorem RestMoment.op {o : SysOp} {r : SysResp o} (h : RestMoment s₁ s)
    (hwhole : WholeLog s₁.world.dir s₁.log) (hguard : Guard o (replayView s.world))
    (he : replayEnv mayFail o s r s')
    (hwritten : CheckpointWritten (fileView s₁.world) (fileView s'.world))
    (hdurable : ∀ position, s'.durable = some position →
      ∃ entry ∈ s₁.entries, entry.nextPosition = position) : RestMoment s₁ s' := by
  obtain ⟨s₂, hmoved, he, hlog⟩ := he
  rw [← hmoved.replayView] at hguard
  have hentries : s₁.entries <+: s₂.entries := h.entries.trans hmoved.entries
  have hcleaned : Cleaned (durableCheckpoint s₂.world.dir) [] s₂.world s'.world := by
    refine cleaned_of_guard mayFail hguard
      (show SavedBefore (replayView s₂.world) [] o _ from ?_) he
    cases o with
    | removeSegment site segmentId => exact fun hne => absurd rfl hne
    | _ => trivial
  have hkept : WholeLog s'.world.dir s₂.log :=
    (hmoved.whole h.whole).cleaned hcleaned (hwritten.checkpointAt hwhole hdurable hentries)
  rw [← hlog] at hkept
  refine ⟨hkept, ?_⟩
  rw [LoggedWorld.entries, LoggedWorld.entries, hlog]
  exact hentries

/-- **The rest of a call**, among calls of the writer. -/
theorem wpc_replayFrom_concurrent (mayFail : SysOp → Prop) (hwhole : WholeLog s₁.world.dir s₁.log)
    (hfrom : call.From context t w s₁.world)
    (hall : call.all <+: entriesBehind s₀.durable s₁.entries) :
    wpc (replayEnv mayFail)
      (fun o s => AtMoment call.context call.view call.all o (replayView s.world) ∧ RestMoment s₁ s)
      (replayFrom call.context call.policy call.start call.entries)
      (fun _ _ s => call.Meets (replayView s.world) ∧ RestMoment s₁ s)
      (fun _ _ s => call.Meets (replayView s.world) ∧ RestMoment s₁ s) call.clock.env s₁ := by
  have hcall := hfrom.started
  have hview : wpc (viewEnv mayFail) (AtMoment call.context call.view call.all)
      (replayFrom call.context call.policy call.start call.entries) (fun _ _ v => call.Meets v)
      (fun _ _ v => call.Meets v) call.clock.env (replayView s₁.world) := by
    rw [← hfrom.view_eq]
    refine wpc_replayFrom hcall hcall.exits_meets
      (fun n rc v h => h.isMoment ((List.append_nil call.all).symm ▸ List.prefix_rfl))
      fun _ _ saved unsaved rc v hdone _ h => h.isMoment ?_
    rw [← hdone, ← call.entries_plan, ReplayPlan.entries]
    exact List.prefix_append _ _
  have hfiles : wpc fileEnv (fun _ => CheckpointWritten (fileView s₁.world))
      (replayFrom call.context call.policy call.start call.entries)
      (fun _ _ => CheckpointWritten (fileView s₁.world))
      (fun _ _ => CheckpointWritten (fileView s₁.world)) call.clock.env (fileView s₁.world) :=
    keepsWritten_replayFrom _ _ _ _ _ _ ⟨rfl, Or.inl rfl⟩
  have hspec := wpc_both (wpc_view (replayEnv_viewEnv mayFail) hview)
    (wpc_view (replayEnv_fileEnv mayFail) hfiles)
  -- what the next assertion says of the checkpoint carries the whole log over an operation
  have hcarried := wpc_carry (J := RestMoment s₁)
    (K := fun s => call.Meets (replayView s.world) ∧
      CheckpointWritten (fileView s₁.world) (fileView s.world))
    (fun o s h => ⟨h.1.1, h.2⟩) (fun _ _ _ h => h) (fun _ _ _ h => h)
    (fun o s r s' hP hrest he hK => hrest.op hwhole hP.1.2 he hK.2 fun position hposition =>
      ReplayCall.Meets.exists_entry hK.1 hwhole hfrom.view_eq hall hposition)
    hspec ⟨hwhole, List.prefix_rfl⟩
  exact wpc_mono hcarried (fun _ _ h => ⟨h.1.1, h.2⟩) (fun _ _ _ h => ⟨h.1.1, h.2⟩)
    fun _ _ _ h => ⟨h.1.1, h.2⟩

/-! ### A whole call -/

omit [DurationCodec] in
/-- A moment of the rest of a call is one of the whole call. -/
theorem ReplayMoment.of_rest (h : ReplayMoment context s₀ s₁) (hmoved : WriterMoved s₀ s')
    (hread : WriterMoved s'.tick s₁) (hcontext : call.context = context)
    (hview : call.view = replayView s₁.world)
    (hall : call.all <+: entriesBehind s₀.durable s₁.entries)
    (hmeets : call.Meets (replayView s.world)) (hrest : RestMoment s₁ s) :
    ReplayMoment context s₀ s := by
  obtain ⟨saved, events, hmoment⟩ := hmeets
  rw [hview] at hmoment
  have hdurable : s₁.durable = s₀.durable := hread.durable.trans hmoved.durable
  have htrace : (replayView s₁.world).trace = (replayView s₀.world).trace :=
    hread.trace.trans hmoved.trace
  refine ⟨hrest.whole, h.entries.trans hrest.entries, call.all, hall.trans ?_, saved, events, ?_⟩
  · obtain ⟨more, hmore⟩ := hrest.entries
    rw [← hmore, entriesBehind_append]
    exact List.prefix_append _ _
  · rw [← hcontext]
    exact {
      saved_le := hmoment.saved_le
      durable := hmoment.durable.trans (congrArg _ hdurable)
      trace := hmoment.trace.trans (congrArg (· ++ events) htrace)
      acked := hmoment.acked
      sent := hmoment.sent
      quarantined := hmoment.quarantined
      set_aside := hmoment.set_aside }

/-- **Every moment of a replay call**, beside any calls of the writer and under any failures. -/
theorem wpc_replayOnceInner_concurrent
    (hreset : pipelineAutoOffsetReset context.eventSinks = .earliest)
    (hwhole : WholeLog s₀.world.dir s₀.log) (t : ReplayLocal) :
    wpc (replayEnv mayFail)
      (fun o s => Guard o (replayView s.world) ∧ ReplayMoment context s₀ s)
      (replayOnceInner context) (fun _ _ => ReplayMoment context s₀)
      (fun _ _ => ReplayMoment context s₀) t s₀ := by
  have hbefore : ∀ s, WriterMoved s₀ s → ReplayMoment context s₀ s := fun s =>
    .of_moved hwhole
  have hself := hbefore s₀ (.refl s₀)
  rw [replayOnceInner, wpc_bind]
  cases hpolicy : checkpointFlushPolicy context.checkpoint with
  | error issue => exact hself
  | ok policy =>
    simp only [Result.mapError_ok, wpc_ofExcept_ok]
    rw [wpc_ite]
    refine ⟨fun _ => hself, fun _ => ?_⟩
    rw [wpc_bind, orIssue, wpc_mapError]
    refine wpc_readReplayCheckpointState_concurrent hreset hwhole
      (fun o s hmoved hguard => ⟨hguard, hbefore s hmoved⟩) (fun s hmoved => ?_)
      fun error s hmoved => hbefore s hmoved
    have hstarted := (hbefore s hmoved).tick
    rw [wpc_bind, wpc_modify, wpc_bind, orIssue, wpc_mapError, wpc_bind]
    refine wpc_readDir_concurrent ⟨trivial, hstarted⟩ (fun s₁ hread => ?_)
      fun error s₁ hread => hstarted.moved hread
    have hmoment := hstarted.moved hread
    cases hentries : readEntriesAfterLimit s₁.world.dir s.durable (some replayBatchSize) with
    | error error => exact hmoment
    | ok entries =>
      obtain ⟨call, w, hfrom, hpolicy', hstart', hentries', henv, hall⟩ :=
        exists_call (t := t) hreset hpolicy hmoment.whole hread hentries
      rw [wpc_ofExcept_ok]
      have hrest := wpc_replayFrom_concurrent mayFail hmoment.whole hfrom hall
      have hcontext := hfrom.context_eq
      subst hcontext
      rw [hpolicy', hstart', hentries', henv] at hrest
      rw [hmoved.durable] at hall
      have hmeets : ∀ s', call.Meets (replayView s'.world) → RestMoment s₁ s' →
          ReplayMoment call.context s₀ s' := fun s' =>
        hmoment.of_rest hmoved hread rfl hfrom.view_eq hall
      exact wpc_mono hrest (fun _ s' h => ⟨h.1.2, hmeets s' h.1.1 h.2⟩)
        (fun _ _ s' h => hmeets s' h.1 h.2) fun _ _ s' h => hmeets s' h.1 h.2

/-! ### What a call has done -/

omit [RecordCodec] [CheckpointCodec] [DurationCodec] in
/-- The entries up to which a call has saved are done with. -/
theorem Moment.doneWith {v₀ v : ReplayView} {all saved before : List WalEntry} {entry : WalEntry}
    {events : List Event} (h : Moment context v₀ all saved events v)
    (hpre : before ++ [entry] <+: saved) : DoneWith context events before entry := by
  have hmem : entry ∈ saved := hpre.subset (List.mem_append_right _ (List.mem_singleton.mpr rfl))
  unfold DoneWith
  cases hrecord : recordDeliveries context entry.record with
  | none =>
    refine h.quarantined.subset (List.mem_filter.mpr ⟨hmem, ?_⟩)
    rw [hrecord]
    rfl
  | some deliveries =>
    intro sink
    have hexpected := expectedEvents_mono context sink hpre
    rw [expectedEvents_append] at hexpected
    simp only [expectedEvents, List.flatMap_cons, List.flatMap_nil, List.append_nil, hrecord,
      Option.getD_some] at hexpected
    exact hexpected.trans (h.acked sink)

/-- **What a replay call has done** so far with the entries behind the checkpoint from its start. -/
structure ReplayDone (context : WalReplayContext) (s₀ s : LoggedWorld) (events : List Event) :
    Prop where
  trace : s.world.trace.filter Event.isReplay = s₀.world.trace.filter Event.isReplay ++ events
  /-- What the checkpoint covers beyond the one from the start is done with. -/
  covered : ∀ entry ∈ s.entries, Covered s.durable entry → ¬Covered s₀.durable entry →
    ∃ before, before ++ [entry] <+: entriesBehind s₀.durable s.entries ∧
      DoneWith context events before entry
  /-- Sinks are only sent the deliveries of these entries, in order. -/
  sent : ∀ sink, sentEvents sink events <+:
    expectedEvents context sink (entriesBehind s₀.durable s.entries)
  /-- Only entries without deliveries are set aside. -/
  quarantined : ∀ entry ∈ quarantinedEntries events,
    entry ∈ s.entries ∧ recordDeliveries context entry.record = none

omit [DurationCodec] in
/-- **Every moment of a call says what it has done.** -/
theorem ReplayMoment.exists_done (h : ReplayMoment context s₀ s) :
    ∃ events, ReplayDone context s₀ s events := by
  obtain ⟨all, hall, saved, events, hmoment⟩ := h.moment
  have hsaved : saved <+: entriesBehind s₀.durable s.entries := hmoment.saved_le.trans hall
  refine ⟨events, hmoment.trace, fun entry hentry hcovered hnot => ?_, fun sink => ?_,
    fun entry hentry => ?_⟩
  · have hbehind : entry ∈ entriesBehind s₀.durable s.entries := by
      cases hdurable : s₀.durable with
      | none => exact hentry
      | some position =>
        rw [hdurable, covered_some, not_lt] at hnot
        exact List.mem_filter.mpr ⟨hentry, decide_eq_true hnot⟩
    -- the entries behind the checkpoint are an end of the log, so they are in order
    obtain ⟨front, hfront⟩ := exists_append_entriesBehind s₀.durable h.whole.ordered.pairwise_place
    have hordered : Ordered none (entriesBehind s₀.durable s.entries) := by
      have hlog := h.whole.ordered
      rw [hfront] at hlog
      exact (Ordered.append_iff.mp hlog).2.mono bot_le
    have hmem : entry ∈ saved := by
      obtain ⟨rest, hrest⟩ := hsaved
      rw [← hrest] at hbehind hordered
      refine hordered.mem_of_covered hbehind ?_
      have hdurable : s.durable = (lastPosition saved).or s₀.durable := hmoment.durable
      rw [hdurable] at hcovered
      cases hlast : lastPosition saved with
      | none =>
        rw [hlast, Option.none_or] at hcovered
        exact absurd hcovered hnot
      | some position =>
        rw [hlast] at hcovered
        exact hcovered
    obtain ⟨before, behind, rfl⟩ := List.append_of_mem hmem
    have hpre : before ++ [entry] <+: before ++ entry :: behind := ⟨behind, by simp⟩
    exact ⟨before, hpre.trans hsaved, hmoment.doneWith hpre⟩
  · exact (hmoment.sent sink).trans (expectedEvents_mono context sink hall)
  · have hset := List.mem_filter.mp (hmoment.set_aside.subset hentry)
    exact ⟨(entriesBehind_sublist _ _).subset (hall.subset hset.1),
      Option.isNone_iff_eq_none.mp hset.2⟩

end Call

end Ingest4x.Wal
