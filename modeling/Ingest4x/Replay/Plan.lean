import Ingest4x.Replay.Spec

/-! # The plan of a replay call

Which windows a call sends and which records it sets aside is decided by the entries read, the
processor and the window policy alone; the sinks and the files only decide how far the call gets.
The plan is that decision as data.

* **`planEntries`** — the moves of a call and how it ends.
* **`replayEntries_eq`** — the loop of the source is the run of its plan.
* **`planEntries_covers`** — the moves go through the contiguous entries, in order. -/

namespace Ingest4x.Wal

open Effect

/-- One step of a call: send a window, or set an entry aside. -/
inductive ReplayMove
  | window (batch : List ReplayEntryDeliveries)
  | quarantine (entry : WalEntry) (issue : ReplayIssue)

/-- How the loop ends: with a window left over, or with an issue. -/
inductive ReplayEnding
  | trailing (loop : ReplayLoop)
  | stop (issue : ReplayIssue)

/-- **A plan.** -/
structure ReplayPlan where
  moves : List ReplayMove
  ending : ReplayEnding

/-- Put moves in front of a plan. -/
def ReplayPlan.prepend (moves : List ReplayMove) (plan : ReplayPlan) : ReplayPlan :=
  { plan with moves := moves ++ plan.moves }

/-- The entries of one move. -/
def ReplayMove.entries : ReplayMove → List WalEntry
  | .window batch => batch.map ReplayEntryDeliveries.entry
  | .quarantine entry _ => [entry]

/-- The entries of a list of moves. -/
def movesEntries (moves : List ReplayMove) : List WalEntry := moves.flatMap ReplayMove.entries

/-- The entries that the ending leaves over. -/
def ReplayEnding.entries : ReplayEnding → List WalEntry
  | .trailing loop => loop.replayBatch.map ReplayEntryDeliveries.entry
  | .stop _ => []

@[simp] theorem movesEntries_nil : movesEntries [] = [] := rfl

@[simp] theorem movesEntries_cons (move : ReplayMove) (moves : List ReplayMove) :
    movesEntries (move :: moves) = move.entries ++ movesEntries moves := rfl

@[simp] theorem movesEntries_append (moves moves' : List ReplayMove) :
    movesEntries (moves ++ moves') = movesEntries moves ++ movesEntries moves' :=
  List.flatMap_append

/-- The entries that a plan goes through. -/
def ReplayPlan.entries (plan : ReplayPlan) : List WalEntry :=
  movesEntries plan.moves ++ plan.ending.entries

@[simp] theorem ReplayPlan.entries_prepend (moves : List ReplayMove) (plan : ReplayPlan) :
    (plan.prepend moves).entries = movesEntries moves ++ plan.entries := by
  rw [ReplayPlan.entries, ReplayPlan.entries, ← List.append_assoc, ← movesEntries_append]
  rfl

section Plan

variable [JsonCodec]

/-- **The plan of `replayEntries`.** -/
def planEntries (context : WalReplayContext) (window : ReplayWindowPolicy) :
    List WalEntry → ReplayLoop → ReplayPlan
  | [], loop => ⟨[], .trailing loop⟩
  | entry :: entries, loop =>
    let expected := loop.expectedLsn.getD entry.position.lsn
    if entry.position.lsn ≠ expected then
      ⟨[.window loop.replayBatch], .stop (.walLsnGap expected entry.position.lsn)⟩
    else
      match processEntry context entry with
      | .quarantine issue =>
        (planEntries context window entries
          ⟨some (entry.position.lsn + 1), [], loop.replayed + 1⟩).prepend
          [.window loop.replayBatch, .quarantine entry issue]
      | .stopAfterFlush issue => ⟨[.window loop.replayBatch], .stop issue⟩
      | .stop issue => ⟨[], .stop issue⟩
      | .deliveries bySink =>
        let batch := loop.replayBatch ++ [⟨entry, bySink⟩]
        if replayBatchReachesWindowPolicy batch window then
          (planEntries context window entries
            ⟨some (entry.position.lsn + 1), [], loop.replayed + 1⟩).prepend [.window batch]
        else
          planEntries context window entries
            ⟨some (entry.position.lsn + 1), batch, loop.replayed + 1⟩

/-! ### Running a plan -/

section Run

variable [RecordCodec] [CheckpointCodec] [DurationCodec]

/-- Perform one move. -/
def runMove (context : WalReplayContext) (policy : CheckpointFlushPolicy) :
    ReplayMove → Replay Unit
  | .window batch => do
    let _ ← replayBatchToSinks context policy batch .force
    pure ()
  | .quarantine entry issue => quarantineReplayIssue entry issue

/-- End the loop. -/
def ReplayEnding.finish : ReplayEnding → Replay ReplayLoop
  | .trailing loop => pure loop
  | .stop issue => throw (.issue issue)

/-- **The loop of the source is the run of its plan.** -/
theorem replayEntries_eq (context : WalReplayContext) (policy : CheckpointFlushPolicy)
    (window : ReplayWindowPolicy) (entries : List WalEntry) (loop : ReplayLoop) :
    replayEntries context policy window entries loop =
      Cmd.forEach (runMove context policy) (planEntries context window entries loop).moves >>=
        fun _ => (planEntries context window entries loop).ending.finish := by
  induction entries generalizing loop with
  | nil => simp [replayEntries, planEntries, ReplayEnding.finish]
  | cons entry entries ih =>
    rw [replayEntries, planEntries]
    by_cases hgap : entry.position.lsn ≠ loop.expectedLsn.getD entry.position.lsn
    · simp [hgap, runMove, ReplayEnding.finish]
    · simp only [if_neg hgap]
      cases hprocess : processEntry context entry with
      | quarantine issue =>
        simp only [ReplayPlan.prepend, ih, Cmd.forEach_append, Cmd.forEach_cons, Cmd.forEach_nil,
          runMove, bind_assoc, pure_bind]
      | stopAfterFlush issue => simp [runMove, ReplayEnding.finish]
      | stop issue => simp [ReplayEnding.finish]
      | deliveries bySink =>
        simp only
        split_ifs with hfull
        · simp only [ReplayPlan.prepend, ih, Cmd.forEach_append, Cmd.forEach_cons, Cmd.forEach_nil,
            runMove, bind_assoc, pure_bind]
        · exact ih _

end Run

/-! ### What the moves go through -/

/-- An item of a window carries the deliveries of its entry. -/
def WellGrouped (context : WalReplayContext) (batch : List ReplayEntryDeliveries) : Prop :=
  ∀ item ∈ batch, processEntry context item.entry = .deliveries item.deliveriesBySink

/-- A move does with its entries what processing them says. -/
def ReplayMove.Sound (context : WalReplayContext) : ReplayMove → Prop
  | .window batch => WellGrouped context batch
  | .quarantine entry issue => processEntry context entry = .quarantine issue

/-- **The plan goes through the contiguous entries.** With the batch of the loop in front, the moves
and the window left over are exactly the entries up to the first LSN gap. -/
theorem planEntries_covers (context : WalReplayContext) (window : ReplayWindowPolicy)
    (entries : List WalEntry) (loop : ReplayLoop) :
    (planEntries context window entries loop).entries =
      loop.replayBatch.map ReplayEntryDeliveries.entry ++
        contiguousEntries loop.expectedLsn entries := by
  induction entries generalizing loop with
  | nil => simp [planEntries, contiguousEntries, ReplayPlan.entries, ReplayEnding.entries]
  | cons entry entries ih =>
    rw [planEntries, contiguousEntries]
    by_cases hgap : entry.position.lsn ≠ loop.expectedLsn.getD entry.position.lsn
    · simp [hgap, ReplayPlan.entries, ReplayMove.entries, ReplayEnding.entries]
    · simp only [if_neg hgap, if_pos (not_not.mp hgap)]
      rcases processEntry_spec context entry with
        ⟨deliveries, grouped, -, hprocess, -⟩ | ⟨issue, -, hprocess⟩
      · simp only [hprocess]
        split_ifs with hfull
        · rw [ReplayPlan.entries_prepend, ih]
          simp [ReplayMove.entries]
        · rw [ih]
          simp
      · simp only [hprocess]
        rw [ReplayPlan.entries_prepend, ih]
        simp [ReplayMove.entries]

/-- Every move of the plan is sound, and so is the window left over. -/
theorem planEntries_sound (context : WalReplayContext) (window : ReplayWindowPolicy)
    (entries : List WalEntry) (loop : ReplayLoop) (h : WellGrouped context loop.replayBatch) :
    (∀ move ∈ (planEntries context window entries loop).moves, move.Sound context) ∧
      ∀ last, (planEntries context window entries loop).ending = .trailing last →
        WellGrouped context last.replayBatch := by
  induction entries generalizing loop with
  | nil =>
    refine ⟨by simp [planEntries], ?_⟩
    rintro _ ⟨⟩
    exact h
  | cons entry entries ih =>
    rw [planEntries]
    by_cases hgap : entry.position.lsn ≠ loop.expectedLsn.getD entry.position.lsn
    · simp [hgap, ReplayMove.Sound, h]
    · simp only [if_neg hgap]
      have hempty : WellGrouped context [] := by simp [WellGrouped]
      cases hprocess : processEntry context entry with
      | quarantine issue =>
        obtain ⟨hmoves, hlast⟩ := ih ⟨some (entry.position.lsn + 1), [], loop.replayed + 1⟩ hempty
        refine ⟨?_, hlast⟩
        simp only [ReplayPlan.prepend, List.mem_append, List.mem_cons, List.not_mem_nil, or_false]
        rintro move ((rfl | rfl) | hmem)
        · exact h
        · exact hprocess
        · exact hmoves move hmem
      | stopAfterFlush issue => simp [ReplayMove.Sound, h]
      | stop issue => simp
      | deliveries bySink =>
        have hbatch : WellGrouped context (loop.replayBatch ++ [⟨entry, bySink⟩]) := by
          intro item hitem
          rcases List.mem_append.mp hitem with hitem | hitem
          · exact h item hitem
          · rw [List.mem_singleton.mp hitem]
            exact hprocess
        simp only
        split_ifs with hfull
        · obtain ⟨hmoves, hlast⟩ := ih ⟨some (entry.position.lsn + 1), [], loop.replayed + 1⟩ hempty
          refine ⟨?_, hlast⟩
          simp only [ReplayPlan.prepend, List.mem_append, List.mem_cons, List.not_mem_nil, or_false]
          rintro move (rfl | hmem)
          · exact hbatch
          · exact hmoves move hmem
        · exact ih _ hbatch

/-- **A plan only stops at an LSN gap.** -/
theorem planEntries_stop {context : WalReplayContext} {window : ReplayWindowPolicy}
    {entries : List WalEntry} {loop : ReplayLoop} {issue : ReplayIssue}
    (h : (planEntries context window entries loop).ending = .stop issue) :
    ∃ expected actual, expected ≠ actual ∧ issue = .walLsnGap expected actual := by
  induction entries generalizing loop with
  | nil => cases h
  | cons entry entries ih =>
    rw [planEntries] at h
    by_cases hgap : entry.position.lsn ≠ loop.expectedLsn.getD entry.position.lsn
    · simp only [if_pos hgap, ReplayEnding.stop.injEq] at h
      exact ⟨_, _, hgap.symm, h.symm⟩
    · simp only [if_neg hgap] at h
      rcases processEntry_spec context entry with
        ⟨deliveries, grouped, -, hprocess, -⟩ | ⟨issue', -, hprocess⟩
      · simp only [hprocess] at h
        split_ifs at h
        · exact ih h
        · exact ih h
      · simp only [hprocess] at h
        exact ih h

/-- Contiguous entries have no gap to stop at. -/
theorem planEntries_ne_stop {context : WalReplayContext} {window : ReplayWindowPolicy}
    {entries : List WalEntry} {loop : ReplayLoop}
    (h : contiguousEntries loop.expectedLsn entries = entries) (issue : ReplayIssue) :
    (planEntries context window entries loop).ending ≠ .stop issue := by
  induction entries generalizing loop with
  | nil => simp [planEntries]
  | cons entry entries ih =>
    rw [contiguousEntries] at h
    split_ifs at h with hlsn
    have hrest := (List.cons.inj h).2
    rw [planEntries]
    simp only [if_neg (not_not.mpr hlsn)]
    rcases processEntry_spec context entry with
      ⟨deliveries, grouped, -, hprocess, -⟩ | ⟨issue', -, hprocess⟩
    · simp only [hprocess]
      split_ifs
      · exact ih hrest
      · exact ih hrest
    · simp only [hprocess]
      exact ih hrest

end Plan

end Ingest4x.Wal
