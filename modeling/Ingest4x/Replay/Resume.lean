import Ingest4x.Replay.Outcome
import Ingest4x.Replay.Sound
import Ingest4x.Wal.Resume

/-! # Where the next call goes on

The next call starts at the end of what was saved, reads what was left, and cuts the same windows; what
is appended follows. So an entry that the call left pending is read again, and if the next call leaves
it in the last window, this one did too.

* **`ReadsLog`** — a call that reads a log.
* **`CallEnds.exists_kept`** — where a call does not save an entry, it saves up to the end of a window.
* **`ReadsLog.next`** — the start and the entries of the next call.
* **`ReadsLog.next_plan`** — its windows. -/

namespace Ingest4x.Wal

section Start

variable [RecordCodec]

/-! ### The start position in a log -/

/-- The bounds of a log. -/
theorem Contents.exists_bounds {dir : WalDir} {log : List LogSegment} (h : Contents dir log) :
    ∃ bounds, readWalBounds dir = .ok bounds ∧
      bounds.floor = (logEntries log).head?.map WalEntry.position ∧
      placeOf (lastPosition (logEntries log)) ≤ placeOf bounds.tail := by
  obtain ⟨entries, hread, hfloor, htail⟩ := readWalBounds_spec h.scanBounds
  rw [h.readEntriesAfter_none] at hread
  cases hread
  exact ⟨_, h.scanBounds, hfloor, htail⟩

omit [RecordCodec] in
/-- A checkpoint lies before the log if its first entry is behind it. -/
theorem checkpointBeforeWalFloor_iff {bounds : WalBounds} {entries : List WalEntry}
    (hfloor : bounds.floor = entries.head?.map WalEntry.position) (position : WalPosition) :
    checkpointBeforeWalFloor position bounds = true ↔
      ∃ entry ∈ entries.head?, position.place < entry.position.place := by
  rw [checkpointBeforeWalFloor, hfloor]
  cases entries.head? with
  | none => simp
  | some entry =>
    simp only [Option.map_some, Bool.or_eq_true, Bool.and_eq_true, decide_eq_true_eq,
      ← WalPosition.place_lt]
    simp

variable [CheckpointCodec] {dir : WalDir} {log : List LogSegment} {reset : AutoOffsetReset}

/-- **The start position in a log that is not empty**: an entry is not behind it, or it is the start of
the log and the checkpoint lies before that. -/
theorem Contents.start_cases (h : Contents dir log) (hne : logEntries log ≠ [])
    {start : Option WalPosition} (hstart : replayStart reset dir = .ok start) :
    (∃ position, start = some position ∧
      ∃ entry ∈ logEntries log, entry.position.place ≤ position.place) ∨
    (start = none ∧ reset = .earliest ∧ ∀ position ∈ durableCheckpoint dir,
      ∃ entry ∈ (logEntries log).head?, position.place < entry.position.place) := by
  obtain ⟨bounds, hbounds, hfloor, htail⟩ := h.exists_bounds
  obtain ⟨first, rest, hlog⟩ := List.exists_cons_of_ne_nil hne
  have hfirst : first ∈ logEntries log := hlog ▸ List.mem_cons_self
  -- a reset
  have hreset : start = resetStart reset bounds → (∀ position ∈ durableCheckpoint dir,
      ∃ entry ∈ (logEntries log).head?, position.place < entry.position.place) →
      (∃ position, start = some position ∧
        ∃ entry ∈ logEntries log, entry.position.place ≤ position.place) ∨
      (start = none ∧ reset = .earliest ∧ ∀ position ∈ durableCheckpoint dir,
        ∃ entry ∈ (logEntries log).head?, position.place < entry.position.place) := by
    intro hstart hbefore
    cases reset with
    | earliest => exact Or.inr ⟨hstart, rfl, hbefore⟩
    | latest =>
      have hcovered := h.stored.ordered.covered_lastPosition hfirst
      have hlt := lt_of_lt_of_le hcovered htail
      rw [show bounds.tail = start from hstart.symm] at hlt
      cases hposition : start with
      | none =>
        rw [hposition] at hlt
        exact absurd hlt not_lt_bot
      | some position =>
        rw [hposition] at hlt
        exact Or.inl ⟨position, rfl, first, hfirst, (WithBot.coe_lt_coe.mp hlt).le⟩
  unfold replayStart at hstart
  simp only [hbounds] at hstart
  cases hfile : dir.checkpointFile with
  | none =>
    simp only [hfile, Except.ok.injEq] at hstart
    refine hreset hstart.symm fun position hposition => ?_
    rw [durableCheckpoint, hfile] at hposition
    cases hposition
  | some file =>
    simp only [hfile] at hstart
    cases hread : readCheckpointFile (checkpointPath dir.path) (readNodeId dir) file with
    | error error => simp [hread] at hstart
    | ok position =>
      have hdurable : durableCheckpoint dir = some position := by
        rw [durableCheckpoint, hfile]
        exact filePosition_of_readCheckpointFile hread
      simp only [hread] at hstart
      split_ifs at hstart with hbefore
      · refine hreset (Except.ok.inj hstart).symm fun position' hposition' => ?_
        rw [hdurable] at hposition'
        cases hposition'
        exact (checkpointBeforeWalFloor_iff hfloor position).mp hbefore
      · refine Or.inl ⟨position, (Except.ok.inj hstart).symm, first, hfirst, not_lt.mp fun hlt => ?_⟩
        exact hbefore ((checkpointBeforeWalFloor_iff hfloor position).mpr
          ⟨first, by rw [hlog]; rfl, hlt⟩)

/-- A call starts from a checkpoint that an entry of the log is not behind. -/
theorem Contents.replayStart_some (h : Contents dir log) (hreadable : CheckpointReadable dir)
    {position : WalPosition} (hdurable : durableCheckpoint dir = some position)
    (hfloor : ∃ entry ∈ logEntries log, entry.position.place ≤ position.place) :
    replayStart reset dir = .ok (some position) := by
  obtain ⟨bounds, hbounds, hhead, -⟩ := h.exists_bounds
  obtain ⟨entry, hentry, hle⟩ := hfloor
  have hnot : ¬checkpointBeforeWalFloor position bounds = true := by
    rw [checkpointBeforeWalFloor_iff hhead]
    rintro ⟨first, hfirst, hlt⟩
    -- the first entry is not behind any other
    obtain ⟨rest, hlog⟩ := List.head?_eq_some_iff.mp hfirst
    rw [hlog] at hentry
    have hpairs := hlog ▸ h.stored.ordered.pairwise_place
    rcases List.mem_cons.mp hentry with rfl | hentry
    · exact absurd hle (not_le.mpr hlt)
    · exact absurd hle (not_le.mpr (hlt.trans ((List.pairwise_cons.mp hpairs).1 entry hentry)))
  obtain ⟨file, hfile, hposition⟩ := Option.bind_eq_some_iff.mp hdurable
  obtain ⟨found, hread⟩ := hreadable file hfile
  rw [filePosition_of_readCheckpointFile hread] at hposition
  cases hposition
  rw [replayStart, hbounds]
  simp only [hfile, hread]
  rw [if_neg hnot]

/-- A call with the reset `earliest` starts at the start of a log that the checkpoint lies before. -/
theorem Contents.replayStart_none (h : Contents dir log) (hreadable : CheckpointReadable dir)
    (hbefore : ∀ position ∈ durableCheckpoint dir,
      ∃ entry ∈ (logEntries log).head?, position.place < entry.position.place) :
    replayStart .earliest dir = .ok none := by
  obtain ⟨bounds, hbounds, hhead, -⟩ := h.exists_bounds
  rw [replayStart, hbounds]
  cases hfile : dir.checkpointFile with
  | none => rfl
  | some file =>
    obtain ⟨position, hread⟩ := hreadable file hfile
    have hdurable : durableCheckpoint dir = some position := by
      rw [durableCheckpoint, hfile]
      exact filePosition_of_readCheckpointFile hread
    simp only [hread]
    rw [if_pos ((checkpointBeforeWalFloor_iff hhead position).mpr (hbefore position hdurable))]
    rfl

end Start

section Call

variable [RecordCodec] [CheckpointCodec] [DurationCodec] [JsonCodec]
  {context : WalReplayContext} {t t' : ReplayLocal} {w w₁ w' : World} {call : ReplayCall}
  {log : List LogSegment} {entry : WalEntry}

/-! ### What a call leaves -/

omit [RecordCodec] [CheckpointCodec] [DurationCodec] [JsonCodec] in
/-- What is saved is determined by the checkpoint state. -/
theorem SavedUpTo.unique {start start' : Option WalPosition}
    {saved unsaved saved' unsaved' : List WalEntry}
    {state : ReplayCheckpointState} (h : SavedUpTo start saved unsaved state)
    (h' : SavedUpTo start' saved' unsaved' state) (heq : saved ++ unsaved = saved' ++ unsaved') :
    saved = saved' ∧ unsaved = unsaved' :=
  List.append_inj' heq (h.pendingRecords.symm.trans h'.pendingRecords)

omit [RecordCodec] [CheckpointCodec] in
/-- **A call that does not save an entry** saves up to the end of one of its moves. -/
theorem CallEnds.exists_kept (hcall : call.Started) {v : ReplayView} (h : CallEnds call t' v)
    (hmem : entry ∈ call.all) (hpending : ¬Covered v.durable entry) :
    ∃ kept rest, call.plan.moves = kept ++ rest ∧
      v.durable = (lastPosition (movesEntries kept)).or call.view.durable := by
  obtain ⟨kept, rest, hmoves, hkept⟩ := ReplayCall.savedUpTo_moves hcall
  have hentries : movesEntries call.plan.moves = movesEntries kept ++ movesEntries rest := by
    rw [hmoves, movesEntries_append]
  refine ⟨kept, rest, hmoves, ?_⟩
  cases h with
  | finished hat =>
    -- everything is saved, the entry as well
    have hordered := hcall.uncovered.ofPrefix
      (contiguousEntries_isPrefix (call.start.map fun position => position.lsn + 1) call.entries)
    refine absurd ?_ hpending
    rw [hat.durable]
    exact (hordered.covered_lastPosition hmem).mono (placeOf_le_or _ _)
  | deferred hdefers hsplit hat hruntime =>
    obtain ⟨rfl, -⟩ := hat.save.unique hkept (hsplit.symm.trans hentries)
    exact hat.durable
  | stopped hending hall hstate hat =>
    have hplan : call.all = movesEntries call.plan.moves := by
      rw [← call.entries_plan, ReplayPlan.entries, hending]
      exact List.append_nil _
    obtain ⟨rfl, -⟩ := hat.save.unique (hstate ▸ hkept) (hall.symm.trans (hplan.trans hentries))
    exact hat.durable

/-! ### Reading on -/

/-- **A call reads a log** from a position between two records. -/
structure ReplayCall.Reads (call : ReplayCall) (w : World) (log : List LogSegment) : Prop where
  contents : Contents w.dir log
  between : StandsBetween log call.start

omit [JsonCodec] in
/-- The entries of the call are the next ones behind its start. -/
theorem ReplayCall.Reads.entries_eq (h : call.Reads w log) (hfrom : call.From context t w w₁) :
    call.entries = (entriesBehind call.start (logEntries log)).take replayBatchSize := by
  have hread := readEntriesAfterLimit_take (h.contents.readEntriesAfter_behind h.between)
    replayBatchSize (by rintro m ⟨⟩)
  rw [hfrom.entries_eq] at hread
  exact Except.ok.inj hread

/-- The segments that a call removes lie before the end of what it saves. -/
theorem CallEnded.exists_keep (h : CallEnded context t w t' w' call w₁) (hne : call.all ≠ [])
    {saved : List WalEntry}
    (hdurable : durableCheckpoint w'.dir = (lastPosition saved).or call.view.durable) :
    ∃ keep : Nat → Bool, w'.dir.segments = w.dir.segments.filter (fun id _ => keep id) ∧
      ∀ id, keep id = false → ∃ position ∈ lastPosition saved, id < position.segment := by
  have hsegments := h.started.moment.segments
  cases hlast : lastPosition saved with
  | some position =>
    obtain ⟨keep, hkeep, hremoved⟩ := h.cleaned.kept
    rw [hdurable, hlast, Option.some_or] at hremoved
    exact ⟨keep, by rw [hkeep, hsegments], hremoved⟩
  | none =>
    -- where nothing is saved nothing is removed
    rw [hlast, Option.none_or] at hdurable
    refine ⟨fun _ => true, ?_, by simp⟩
    rw [SortedTable.filter_true, ← hsegments]
    rcases h.cleaned.saved with heq | hall | hlt
    · exact heq
    · exact absurd hall hne
    · rw [hdurable] at hlt
      exact absurd hlt (lt_irrefl _)

/-- **The start of the next call** is the end of what this one saves, and behind it are the entries
that were left and new ones. -/
theorem CallEnded.next_start (h : CallEnded context t w t' w' call w₁) (hreads : call.Reads w log)
    {saved post : List WalEntry} (hsaved : saved <+: call.all) (hmem : entry ∈ call.all)
    (hsplit : entriesBehind call.start (logEntries log) = saved ++ post) (hpost : entry ∈ post)
    (hdurable : durableCheckpoint w'.dir = (lastPosition saved).or call.view.durable)
    {dir : WalDir} (hreadable : CheckpointReadable dir) (happended : Appended w'.dir dir) :
    ∃ log' more, Contents dir log' ∧ StandsBetween log' ((lastPosition saved).or call.start) ∧
      replayStart (pipelineAutoOffsetReset context.eventSinks) dir =
        .ok ((lastPosition saved).or call.start) ∧
      entriesBehind ((lastPosition saved).or call.start) (logEntries log') = post ++ more := by
  obtain ⟨keep, hkeep, hremoved⟩ := h.exists_keep (List.ne_nil_of_mem hmem) hdurable
  obtain ⟨log₁, hcontents, hbetween, hbehind, hsame, hlast⟩ :=
    hreads.contents.resume hreads.between hsplit hkeep hremoved
  obtain ⟨log', new, hcontents', hbetween', hnew⟩ := hcontents.appended hbetween
    (by rw [hbehind]; exact List.ne_nil_of_mem hpost) happended
  refine ⟨log', entriesBehind ((lastPosition saved).or call.start) new, hcontents', hbetween', ?_,
    by rw [hnew, entriesBehind_append, hbehind]⟩
  have hdurable' : durableCheckpoint dir = (lastPosition saved).or call.view.durable := by
    rw [← hdurable, durableCheckpoint, durableCheckpoint, happended.checkpointFile]
  rcases List.eq_nil_or_concat saved with rfl | ⟨init, last, rfl⟩
  · -- nothing was saved: the start is found again
    rw [lastPosition_nil, Option.none_or, h.started.view_eq, replayView_durable] at hdurable'
    rw [lastPosition_nil, Option.none_or]
    have hsub : logEntries log ⊆ logEntries log' := by
      rw [hnew, hsame rfl]
      exact List.subset_append_left _ _
    have hbehind : entry ∈ entriesBehind call.start (logEntries log) := by
      rw [hsplit]
      exact hpost
    have hne := List.ne_nil_of_mem ((entriesBehind_sublist _ _).subset hbehind)
    rcases hreads.contents.start_cases hne h.started.start_eq with
      ⟨position, hstart, floor, hfloor, hle⟩ | ⟨hstart, hreset, hbefore⟩
    · have hon := h.started.durable
      rw [hstart] at hon ⊢
      refine hcontents'.replayStart_some hreadable ?_ ⟨floor, hsub hfloor, hle⟩
      rw [hdurable']
      exact hon.resolve_left (by simp)
    · rw [hstart, hreset]
      refine hcontents'.replayStart_none hreadable fun position hposition => ?_
      have hold : durableCheckpoint w₁.dir = durableCheckpoint w.dir := by
        rcases h.started.moment.durable with heq | ⟨position, hposition, -⟩
        · exact heq
        · rw [h.started.start_eq, hstart] at hposition
          cases hposition
      rw [hdurable', hold] at hposition
      obtain ⟨first, hfirst, hlt⟩ := hbefore position hposition
      refine ⟨first, ?_, hlt⟩
      rw [hnew, hsame rfl, List.head?_append, Option.mem_def.mp hfirst]
      rfl
  · -- the last entry saved is still there, so the checkpoint is not before the log
    rw [List.concat_eq_append] at hdurable' hsaved hlast ⊢
    rw [lastPosition_append_singleton, Option.some_or] at hdurable' ⊢
    have hmem' : last ∈ logEntries log' := by
      rw [hnew]
      exact List.mem_append_left _ (hlast last (by simp))
    have hordered := hcontents'.stored.ordered
    obtain ⟨pre, post', hlog'⟩ := List.append_of_mem hmem'
    rw [hlog'] at hordered
    exact hcontents'.replayStart_some hreadable hdurable'
      ⟨last, hmem', (Ordered.append_iff.mp hordered).2.2.1.le⟩

/-! ### The windows of the next call -/

omit [RecordCodec] [CheckpointCodec] [DurationCodec] in
/-- **The windows of the next call**: it goes through an entry that this one has not saved, and leaves
it in the last window only where this one did so. -/
theorem ReplayCall.next_plan {call' : ReplayCall} (hcall : call.Started) (hcall' : call'.Started)
    (hcontext : call'.context = call.context) {kept rest : List ReplayMove}
    (hmoves : call.plan.moves = kept ++ rest) {post more : List WalEntry}
    (hentries : call.entries = (movesEntries kept ++ post).take replayBatchSize)
    (hstart : call'.start = (lastPosition (movesEntries kept)).or call.start)
    (hentries' : call'.entries = (post ++ more).take replayBatchSize)
    (hmem : entry ∈ call.all) (hnot : entry ∉ movesEntries kept) :
    entry ∈ call'.all ∧ (entry ∈ call'.plan.left → entry ∈ call.plan.left) := by
  have hkept := movesEntries_prefix_all hmoves
  have hall : call.all <+: call.entries := contiguousEntries_isPrefix _ _
  -- what this call reads behind the saved entries, the next one reads first
  have hlength : (movesEntries kept).length ≤ replayBatchSize := by
    have hle := (hkept.trans hall).length_le
    rw [hentries, List.length_take] at hle
    omega
  rw [List.take_append, List.take_of_length_le hlength] at hentries
  have hused : post.take (replayBatchSize - (movesEntries kept).length) <+: call'.entries := by
    rw [hentries']
    exact List.prefix_take_iff.mpr ⟨(List.take_prefix _ _).trans (List.prefix_append _ _), by
      rw [List.length_take]
      omega⟩
  generalize post.take (replayBatchSize - (movesEntries kept).length) = used at hentries hused
  obtain ⟨later, hlater⟩ := hused
  have hexpected : call'.start.map (fun position => position.lsn + 1) =
      (lsnAfter (movesEntries kept)).or (call.start.map fun position => position.lsn + 1) := by
    rw [hstart, lsnAfter_or (hcall.ordered.ofPrefix (hkept.trans hall))]
  have hsplit : call.all = movesEntries kept ++
      contiguousEntries (call'.start.map fun position => position.lsn + 1) used := by
    rw [hexpected, all, hentries]
    refine contiguousEntries_append ?_
    rw [← hentries]
    exact hkept
  have hmem' : entry ∈ contiguousEntries (call'.start.map fun position => position.lsn + 1) used := by
    rw [hsplit] at hmem
    exact (List.mem_append.mp hmem).resolve_left hnot
  refine ⟨?_, fun hleft => ?_⟩
  · rw [all, ← hlater]
    exact (contiguousEntries_mono _ (List.prefix_append used later)).subset hmem'
  · have hleft' : entry ∈ (planEntries call.context (replayWindowPolicy call.context.replay) used
        ⟨call'.start.map fun position => position.lsn + 1, [], 0⟩).left := by
      rw [plan, ← hlater, hcontext] at hleft
      refine (planEntries_left_append _ _ used later _ hleft).resolve_left fun hnew => ?_
      -- the entries that are appended are others
      have hpairs := hcall'.ordered.pairwise_place
      rw [← hlater] at hpairs
      exact absurd ((List.pairwise_append.mp hpairs).2.2 entry
        ((contiguousEntries_isPrefix _ _).subset hmem') entry hnew) (lt_irrefl _)
    rcases eq_or_ne kept [] with rfl | hne
    · rw [hstart, movesEntries_nil, lastPosition_nil, Option.none_or] at hleft'
      rw [plan, hentries]
      exact hleft'
    · obtain ⟨used', more', hcut, hused', hplan⟩ :=
        planEntries_left_cut call.context (replayWindowPolicy call.context.replay) hmoves hne
      rw [List.map_nil, List.nil_append] at hused'
      subst hused'
      rw [hentries] at hcut
      obtain rfl := List.append_cancel_left hcut
      rw [hexpected, hplan 0] at hleft'
      exact hleft'

end Call

end Ingest4x.Wal
