import Ingest4x.Replay.Plan
import Ingest4x.Wal.Order

/-! # The windows of a log that grows

A call that starts where an earlier one has saved cuts the same windows, and records that are appended
only extend the window left over. So an entry that was in a window before the last one never comes
back into the last window.

* **`lsnAfter`** — the LSN that the loop expects after some entries.
* **`ReplayPlan.left`** — the entries of the window left over.
* **`planEntries_left_cut`** — the plan of what is behind some of the moves.
* **`planEntries_left_append`** — the plan of more entries. -/

namespace Ingest4x.Wal

/-- The LSN expected after some entries, if there are any. -/
def lsnAfter (entries : List WalEntry) : Option Nat :=
  entries.getLast?.map fun entry => entry.position.lsn + 1

@[simp] theorem lsnAfter_nil : lsnAfter [] = none := rfl

theorem lsnAfter_cons (entry : WalEntry) (entries : List WalEntry) :
    lsnAfter (entry :: entries) = (lsnAfter entries).or (some (entry.position.lsn + 1)) := by
  rw [lsnAfter, lsnAfter, List.getLast?_cons]
  cases entries.getLast? <;> rfl

/-- The LSN expected after ordered entries is the one after their last position. -/
theorem lsnAfter_or {start : Option WalPosition} {entries : List WalEntry}
    (h : Ordered start entries) :
    (lsnAfter entries).or (start.map fun position => position.lsn + 1) =
      ((lastPosition entries).or start).map fun position => position.lsn + 1 := by
  rw [Option.map_or, lsnAfter, lastPosition, Option.map_map]
  cases hlast : entries.getLast? with
  | none => rfl
  | some entry =>
    have hlsn := h.nextPosition_lsn (List.mem_of_getLast? hlast)
    simp only [Option.map_some, Option.some_or, Function.comp_apply, hlsn]

/-! ### Contiguous entries -/

/-- Behind entries without a gap the contiguous entries go on. -/
theorem contiguousEntries_append {expected : Option Nat} {entries more : List WalEntry}
    (h : entries <+: contiguousEntries expected (entries ++ more)) :
    contiguousEntries expected (entries ++ more) =
      entries ++ contiguousEntries ((lsnAfter entries).or expected) more := by
  induction entries generalizing expected with
  | nil => rfl
  | cons entry entries ih =>
    rw [List.cons_append, contiguousEntries] at h ⊢
    split_ifs at h ⊢ with hlsn
    · have htail := (List.cons_prefix_cons.mp h).2
      rw [ih htail, lsnAfter_cons, Option.or_assoc, Option.some_or, List.cons_append]
    · exact absurd (List.prefix_nil.mp h) (List.cons_ne_nil entry entries)

/-- More entries keep the contiguous ones. -/
theorem contiguousEntries_mono (expected : Option Nat) {entries entries' : List WalEntry}
    (h : entries <+: entries') :
    contiguousEntries expected entries <+: contiguousEntries expected entries' := by
  induction entries generalizing expected entries' with
  | nil => exact List.nil_prefix
  | cons entry entries ih =>
    obtain ⟨rest, rfl⟩ := h
    rw [List.cons_append, contiguousEntries, contiguousEntries]
    split_ifs
    · exact List.cons_prefix_cons.mpr ⟨rfl, ih _ (List.prefix_append entries rest)⟩
    · exact List.nil_prefix

/-! ### The window left over -/

/-- The entries of the window left over. -/
def ReplayPlan.left (plan : ReplayPlan) : List WalEntry := plan.ending.entries

@[simp] theorem ReplayPlan.left_prepend (moves : List ReplayMove) (plan : ReplayPlan) :
    (plan.prepend moves).left = plan.left := rfl

theorem ReplayPlan.entries_eq (plan : ReplayPlan) :
    plan.entries = movesEntries plan.moves ++ plan.left := rfl

section Plan

variable [JsonCodec] (context : WalReplayContext) (window : ReplayWindowPolicy)

/-- The count of entries does not matter for the windows. -/
theorem planEntries_left_replayed (entries : List WalEntry) (expected : Option Nat)
    (batch : List ReplayEntryDeliveries) (n m : Nat) :
    (planEntries context window entries ⟨expected, batch, n⟩).left =
      (planEntries context window entries ⟨expected, batch, m⟩).left := by
  induction entries generalizing expected batch n m with
  | nil => rfl
  | cons entry entries ih =>
    rw [planEntries, planEntries]
    split_ifs with hgap
    · rfl
    cases processEntry context entry with
    | quarantine issue => exact ih _ _ _ _
    | stopAfterFlush issue => rfl
    | stop issue => rfl
    | deliveries bySink =>
      simp only
      split_ifs
      · exact ih _ _ _ _
      · exact ih _ _ _ _

/-- **The plan behind some of the moves**: it leaves the same window over. -/
theorem planEntries_left_cut {entries : List WalEntry} {loop : ReplayLoop}
    {done rest : List ReplayMove}
    (hmoves : (planEntries context window entries loop).moves = done ++ rest) (hne : done ≠ []) :
    ∃ used more, entries = used ++ more ∧
      movesEntries done = loop.replayBatch.map ReplayEntryDeliveries.entry ++ used ∧
      ∀ n, (planEntries context window more ⟨(lsnAfter used).or loop.expectedLsn, [], n⟩).left =
        (planEntries context window entries loop).left := by
  induction entries generalizing loop done with
  | nil => exact absurd (List.append_eq_nil_iff.mp hmoves.symm).1 hne
  | cons entry entries ih =>
    -- the moves behind the first one or two, from a loop whose batch is empty
    have hbehind : ∀ (n : Nat) (done' : List ReplayMove),
        (planEntries context window entries ⟨some (entry.position.lsn + 1), [], n⟩).moves =
          done' ++ rest →
        ∃ used more, entry :: entries = used ++ more ∧
          entry :: movesEntries done' = used ∧
          ∀ m, (planEntries context window more ⟨(lsnAfter used).or loop.expectedLsn, [], m⟩).left =
            (planEntries context window entries ⟨some (entry.position.lsn + 1), [], n⟩).left := by
      intro n done' hmoves'
      rcases eq_or_ne done' [] with rfl | hne'
      · exact ⟨[entry], entries, rfl, rfl, fun m => planEntries_left_replayed context window _ _ _ _ _⟩
      · obtain ⟨used, more, hentries, hused, hleft⟩ := ih hmoves' hne'
        refine ⟨entry :: used, more, by rw [hentries]; rfl, ?_, fun m => ?_⟩
        · rw [hused, List.map_nil, List.nil_append]
        · rw [lsnAfter_cons, Option.or_assoc, Option.some_or]
          exact hleft m
    rw [planEntries] at hmoves ⊢
    split_ifs at hmoves ⊢ with hgap
    · -- at a gap the window is cut off, and the gap is found again
      obtain ⟨move, done', rfl⟩ := List.exists_cons_of_ne_nil hne
      obtain ⟨rfl, hdone'⟩ := List.cons.inj hmoves
      obtain ⟨rfl, rfl⟩ := List.append_eq_nil_iff.mp hdone'.symm
      refine ⟨[], entry :: entries, rfl, rfl, fun n => ?_⟩
      rw [lsnAfter_nil, Option.none_or, planEntries, if_pos hgap]
      rfl
    cases hprocess : processEntry context entry with
    | quarantine issue =>
      simp only [hprocess] at hmoves ⊢
      obtain ⟨move, done', rfl⟩ := List.exists_cons_of_ne_nil hne
      obtain ⟨rfl, hbehindWindow⟩ := List.cons.inj hmoves
      cases done' with
      | nil =>
        -- behind the window the entry is set aside again, with an empty window before it
        refine ⟨[], entry :: entries, rfl, by simp [ReplayMove.entries], fun n => ?_⟩
        rw [lsnAfter_nil, Option.none_or, planEntries, if_neg hgap]
        simp only [hprocess, ReplayPlan.left_prepend]
        exact planEntries_left_replayed context window _ _ _ _ _
      | cons move' done' =>
        obtain ⟨rfl, hbehindMoves⟩ := List.cons.inj hbehindWindow
        obtain ⟨used, more, hentries, hused, hleft⟩ := hbehind _ done' hbehindMoves
        refine ⟨used, more, hentries, ?_, hleft⟩
        rw [movesEntries_cons, movesEntries_cons, ← hused]
        rfl
    | stopAfterFlush issue =>
      simp only [hprocess] at hmoves ⊢
      obtain ⟨move, done', rfl⟩ := List.exists_cons_of_ne_nil hne
      obtain ⟨rfl, hdone'⟩ := List.cons.inj hmoves
      obtain ⟨rfl, rfl⟩ := List.append_eq_nil_iff.mp hdone'.symm
      refine ⟨[], entry :: entries, rfl, rfl, fun n => ?_⟩
      rw [lsnAfter_nil, Option.none_or, planEntries, if_neg hgap]
      simp only [hprocess]
      rfl
    | stop issue =>
      simp only [hprocess] at hmoves
      exact absurd (List.append_eq_nil_iff.mp hmoves.symm).1 hne
    | deliveries bySink =>
      simp only [hprocess] at hmoves ⊢
      split_ifs at hmoves ⊢ with hfull
      · obtain ⟨move, done', rfl⟩ := List.exists_cons_of_ne_nil hne
        obtain ⟨rfl, hbehindWindow⟩ := List.cons.inj hmoves
        obtain ⟨used, more, hentries, hused, hleft⟩ := hbehind _ done' hbehindWindow
        refine ⟨used, more, hentries, ?_, hleft⟩
        rw [movesEntries_cons, ← hused]
        simp [ReplayMove.entries]
      · obtain ⟨used, more, hentries, hused, hleft⟩ := ih hmoves hne
        refine ⟨entry :: used, more, by rw [hentries]; rfl, ?_, fun m => ?_⟩
        · rw [hused]
          simp
        · rw [lsnAfter_cons, Option.or_assoc, Option.some_or]
          exact hleft m

/-- **The plan of more entries**: what it leaves over is new or was left over before. -/
theorem planEntries_left_append (entries more : List WalEntry) (loop : ReplayLoop)
    {entry : WalEntry} (h : entry ∈ (planEntries context window (entries ++ more) loop).left) :
    entry ∈ more ∨ entry ∈ (planEntries context window entries loop).left := by
  induction entries generalizing loop with
  | nil =>
    have hcovers := planEntries_covers context window more loop
    rw [ReplayPlan.entries_eq] at hcovers
    have hmem := hcovers ▸ List.mem_append_right _ h
    rcases List.mem_append.mp hmem with hmem | hmem
    · exact Or.inr hmem
    · exact Or.inl ((contiguousEntries_isPrefix _ _).subset hmem)
  | cons head entries ih =>
    rw [List.cons_append, planEntries] at h
    rw [planEntries]
    split_ifs at h ⊢ with hgap
    · exact Or.inr h
    cases hprocess : processEntry context head with
    | quarantine issue =>
      simp only [hprocess] at h ⊢
      exact ih _ h
    | stopAfterFlush issue =>
      simp only [hprocess] at h ⊢
      exact Or.inr h
    | stop issue =>
      simp only [hprocess] at h ⊢
      exact Or.inr h
    | deliveries bySink =>
      simp only [hprocess] at h ⊢
      split_ifs at h ⊢
      · exact ih _ h
      · exact ih _ h

end Plan

end Ingest4x.Wal
