import Ingest4x.Replay.Run

/-! # Where a replay call starts

The start position of a call is a function of the directory: the checkpoint on disk, or what the
offset reset gives where there is none or where it lies before the log. Wherever it is, the entries
read from it are not covered by the checkpoint on disk.

* **`replayStart`** — the start position.
* **`StartMoment`** — what holds while a call finds its start.
* **`wpc_readReplayCheckpointState`** — the function of the source computes it. -/

namespace Ingest4x.Wal

open Effect

section Start

variable [RecordCodec] [CheckpointCodec]

/-! ### The start position -/

/-- What a reset of the offset gives. -/
def resetStart (reset : AutoOffsetReset) (bounds : WalBounds) : Option WalPosition :=
  match reset with
  | .earliest => none
  | .latest => bounds.tail

/-- **The start position of a call.** -/
def replayStart (reset : AutoOffsetReset) (dir : WalDir) : Except IoError (Option WalPosition) :=
  match readWalBounds dir with
  | .error error => .error error
  | .ok bounds =>
    match dir.checkpointFile with
    | none => .ok (resetStart reset bounds)
    | some file =>
      match readCheckpointFile (checkpointPath dir.path) (readNodeId dir) file with
      | .error error => .error error
      | .ok position =>
        if checkpointBeforeWalFloor position bounds then .ok (resetStart reset bounds)
        else .ok (some position)

/-- A checkpoint file that is accepted holds the position. -/
theorem filePosition_of_readCheckpointFile {path : String} {nodeId : Except IoError String}
    {file : Bytes} {position : WalPosition}
    (h : readCheckpointFile path nodeId file = .ok position) : filePosition file = some position := by
  unfold readCheckpointFile at h
  cases hparse : CheckpointCodec.fromSlice file with
  | error error => simp [hparse] at h
  | ok checkpoint =>
    simp only [hparse] at h
    rw [filePosition, hparse]
    split at h
    · cases h
    · cases nodeId with
      | error error => cases h
      | ok nodeId =>
        simp only at h
        split_ifs at h
        cases h
        rfl

/-- **The ways to start**: from the checkpoint on disk, or by a reset with no checkpoint or with one
that lies before the first entry. -/
theorem replayStart_cases {reset : AutoOffsetReset} {dir : WalDir} {start : Option WalPosition}
    (h : replayStart reset dir = .ok start) :
    (start ≠ none ∧ durableCheckpoint dir = start) ∨
    ∃ bounds, readWalBounds dir = .ok bounds ∧ start = resetStart reset bounds ∧
      (durableCheckpoint dir = none ∨ ∃ position floor, durableCheckpoint dir = some position ∧
        bounds.floor = some floor ∧ position.place < floor.place) := by
  unfold replayStart at h
  cases hbounds : readWalBounds dir with
  | error error => simp [hbounds] at h
  | ok bounds =>
    simp only [hbounds] at h
    cases hfile : dir.checkpointFile with
    | none =>
      simp only [hfile, Except.ok.injEq] at h
      exact Or.inr ⟨bounds, rfl, h.symm, Or.inl (by rw [durableCheckpoint, hfile]; rfl)⟩
    | some file =>
      simp only [hfile] at h
      cases hread : readCheckpointFile (checkpointPath dir.path) (readNodeId dir) file with
      | error error => simp [hread] at h
      | ok position =>
        have hdurable : durableCheckpoint dir = some position := by
          rw [durableCheckpoint, hfile]
          exact filePosition_of_readCheckpointFile hread
        simp only [hread] at h
        split_ifs at h with hbefore
        · cases h
          refine Or.inr ⟨bounds, rfl, rfl, Or.inr ?_⟩
          unfold checkpointBeforeWalFloor at hbefore
          cases hfloor : bounds.floor with
          | none => simp [hfloor] at hbefore
          | some floor =>
            simp only [hfloor, Bool.or_eq_true, Bool.and_eq_true, decide_eq_true_eq] at hbefore
            exact ⟨position, floor, hdurable, rfl, WalPosition.place_lt.mpr hbefore⟩
        · cases h
          exact Or.inl ⟨by simp, hdurable⟩

/-- A start position is not before the checkpoint on disk. -/
theorem placeOf_durable_le_replayStart {reset : AutoOffsetReset} {dir : WalDir}
    {position : WalPosition} (h : replayStart reset dir = .ok (some position)) :
    placeOf (durableCheckpoint dir) ≤ placeOf (some position) := by
  rcases replayStart_cases h with ⟨-, hdurable⟩ | ⟨bounds, hbounds, hstart, hnone | hbefore⟩
  · exact hdurable ▸ le_rfl
  · rw [hnone]
    exact bot_le
  · obtain ⟨old, floor, hdurable, hfloor, hlt⟩ := hbefore
    obtain ⟨entries, hread, hhead, htail⟩ := readWalBounds_spec hbounds
    have hordered := readEntriesAfterLimit_ordered hread
    -- the checkpoint lies before the first entry, and the tail not before the last
    have hle : placeOf (some floor) ≤ placeOf (lastPosition entries) := by
      rw [hfloor] at hhead
      obtain ⟨entry, hentry, rfl⟩ := Option.map_eq_some_iff.mp hhead.symm
      exact (hordered.covered_lastPosition (List.mem_of_head? hentry)).le
    cases reset with
    | earliest => cases hstart
    | latest =>
      rw [hdurable, show some position = bounds.tail from hstart]
      exact (WithBot.coe_le_coe.mpr hlt.le).trans (hle.trans htail)

/-- **The entries read from the start are not covered by the checkpoint on disk.** -/
theorem replayStart_ordered {reset : AutoOffsetReset} {dir : WalDir} {start : Option WalPosition}
    (h : replayStart reset dir = .ok start) {limit : Option Nat} {entries : List WalEntry}
    (hread : readEntriesAfterLimit dir start limit = .ok entries) :
    Ordered (durableCheckpoint dir) entries := by
  have hordered := readEntriesAfterLimit_ordered hread
  cases start with
  | some position => exact hordered.mono (placeOf_durable_le_replayStart h)
  | none =>
    rcases replayStart_cases h with ⟨hne, -⟩ | ⟨bounds, hbounds, -, hnone | hbefore⟩
    · exact absurd rfl hne
    · rwa [hnone]
    · obtain ⟨old, floor, hdurable, hfloor, hlt⟩ := hbefore
      obtain ⟨all, hall, hhead, -⟩ := readWalBounds_spec hbounds
      cases entries with
      | nil => trivial
      | cons entry entries =>
        -- the first entry read is the floor of the log
        have hfirst : all.head? = some entry := by
          rcases readEntriesAfterLimit_comparable hread hall with hpre | hpre
          · obtain ⟨rest, rfl⟩ := hpre
            rfl
          · cases all with
            | nil =>
              rw [hfloor] at hhead
              cases hhead
            | cons first all =>
              obtain ⟨rest, hrest⟩ := hpre
              cases hrest
              rfl
        rw [hfirst, hfloor] at hhead
        cases hhead
        rw [hdurable]
        exact ⟨WithBot.coe_le_coe.mpr hlt.le, hordered.2⟩

/-! ### Finding the start -/

/-- **What holds while a call finds its start**: nothing was sent, and the checkpoint file is the
old one or holds the start position. -/
structure StartMoment (reset : AutoOffsetReset) (w w' : World) : Prop where
  path : w'.dir.path = w.dir.path
  nodeIdFile : w'.dir.nodeIdFile = w.dir.nodeIdFile
  segments : w'.dir.segments = w.dir.segments
  clock : w'.clock = w.clock
  trace : w'.trace = w.trace
  checkpointFile : w'.dir.checkpointFile = w.dir.checkpointFile ∨
    ∃ position, replayStart reset w.dir = .ok (some position) ∧
      durableCheckpoint w'.dir = some position

theorem StartMoment.refl (reset : AutoOffsetReset) (w : World) : StartMoment reset w w :=
  ⟨rfl, rfl, rfl, rfl, rfl, Or.inl rfl⟩

omit [CheckpointCodec] in
/-- Reading depends on the segments and the path alone. -/
theorem readEntriesAfterLimit_congr {dir dir' : WalDir} (hpath : dir'.path = dir.path)
    (hsegments : dir'.segments = dir.segments) (checkpoint : Option WalPosition)
    (limit : Option Nat) :
    readEntriesAfterLimit dir' checkpoint limit = readEntriesAfterLimit dir checkpoint limit := by
  rw [readEntriesAfterLimit, readEntriesAfterLimit, hpath, hsegments]

/-- The checkpoint on disk is the old one or the start position. -/
theorem StartMoment.durable {reset : AutoOffsetReset} {w w' : World} (h : StartMoment reset w w') :
    durableCheckpoint w'.dir = durableCheckpoint w.dir ∨
      ∃ position, replayStart reset w.dir = .ok (some position) ∧
        durableCheckpoint w'.dir = some position := by
  rcases h.checkpointFile with heq | h
  · exact Or.inl (by rw [durableCheckpoint, durableCheckpoint, heq])
  · exact Or.inr h

/-- **Writing the start position** in the world of a starting call. -/
theorem wpc_writeStart {τ : Type} {mayFail : SysOp → Prop} {P : SysOp → World → Prop}
    {Q : Unit → τ → World → Prop} {E : IoError → τ → World → Prop} {t : τ} {w : World}
    {reset : AutoOffsetReset} {position : WalPosition}
    (hstart : replayStart reset w.dir = .ok (some position))
    (hP : ∀ o w', StartMoment reset w w' → Guard o (replayView w') → P o w')
    (hQ : ∀ w', StartMoment reset w w' → durableCheckpoint w'.dir = some position →
      w'.ticks = w.ticks → Q () t w')
    (hE : ∀ error w', WriteMayFail mayFail w.dir.nodeIdFile → StartMoment reset w w' →
      E error t w') :
    wpc (sysEnv mayFail) P (writeCheckpoint position) Q E t w := by
  have hself := StartMoment.refl reset w
  -- the world with any checkpoint file that holds the start position
  have hwritten : ∀ file, filePosition file = some position → StartMoment reset w
      { w with dir := { w.dir with checkpointFile := some file } } := fun file hfile =>
    ⟨rfl, rfl, rfl, rfl, rfl, Or.inr ⟨position, hstart, hfile⟩⟩
  rw [writeCheckpoint, wpc_bind, readDir, wpc_orThrow, wpc_perform]
  refine ⟨hP _ _ hself trivial, ?_⟩
  rintro r w' ⟨rfl, rfl | ⟨hmay, e, rfl⟩⟩
  · refine ⟨?_, by simp⟩
    rintro _ ⟨⟩
    rw [wpc_bind, wpc_ofExcept]
    refine ⟨fun nodeId _ => ?_, fun e herror => hE e _ (Or.inr (Or.inl ?_)) hself⟩
    · rw [wpc_bind, wpc_perform]
      refine ⟨hP _ _ hself trivial, ?_⟩
      rintro updatedAt w'' rfl
      rw [wpc_orThrow, wpc_perform]
      refine ⟨hP _ _ hself ?_, ?_⟩
      · show placeOf (durableCheckpoint _) ≤ placeOf (filePosition _)
        rw [filePosition_toVec]
        exact placeOf_durable_le_replayStart hstart
      · rintro r w' (⟨rfl, rfl⟩ | ⟨hmay, ⟨e, rfl⟩, rfl | rfl⟩)
        · refine ⟨fun _ _ => hQ _ (hwritten _ (filePosition_toVec ..)) ?_ rfl, by simp⟩
          exact filePosition_toVec ..
        · exact ⟨by simp, fun e _ => hE e _ (Or.inr (Or.inr ⟨_, hmay⟩)) hself⟩
        · exact ⟨by simp, fun e _ => hE e _ (Or.inr (Or.inr ⟨_, hmay⟩))
            (hwritten _ (filePosition_toVec ..))⟩
    · unfold readNodeId at herror
      cases hfile : w'.dir.nodeIdFile with
      | none => rfl
      | some text => simp [hfile] at herror
  · exact ⟨by simp, fun e _ => hE e _ (Or.inl hmay) hself⟩

/-- **`read_replay_checkpoint_state`** finds the start position. -/
theorem wpc_readReplayCheckpointState {τ : Type} {mayFail : SysOp → Prop}
    {P : SysOp → World → Prop} {Q : ReplayCheckpointState → τ → World → Prop}
    {E : IoError → τ → World → Prop} {t : τ} {w : World} (eventSinks : EventSinks)
    {reset : AutoOffsetReset} (hreset : pipelineAutoOffsetReset eventSinks = reset)
    (hP : ∀ o w', StartMoment reset w w' → Guard o (replayView w') → P o w')
    (hQ : ∀ start w', replayStart reset w.dir = .ok start → StartMoment reset w w' →
      (start = none ∨ durableCheckpoint w'.dir = start) → w'.ticks = w.ticks + 1 →
      Q ⟨start, none, 0, 0, w.clock w.ticks⟩ t w')
    (hE : ∀ error w', ((∀ start, replayStart reset w.dir ≠ .ok start) ∨
      WriteMayFail mayFail w.dir.nodeIdFile) → StartMoment reset w w' → E error t w') :
    wpc (sysEnv mayFail) P (readReplayCheckpointState eventSinks) Q E t w := by
  have hself := StartMoment.refl reset w
  -- the reading of the clock at the end
  have hlast : ∀ {start : Option WalPosition} {w' : World}, replayStart reset w.dir = .ok start →
      StartMoment reset w w' → (start = none ∨ durableCheckpoint w'.dir = start) →
      w'.ticks = w.ticks →
      wpc (sysEnv mayFail) P (sys .instantNow >>= fun now => pure ⟨start, none, 0, 0, now⟩) Q E t
        w' := by
    intro start w' hstart hmoment hdurable hticks
    rw [wpc_bind, wpc_perform]
    refine ⟨hP _ _ hmoment trivial, ?_⟩
    rintro now w'' ⟨rfl, rfl⟩
    have hnow : w'.clock w'.ticks = w.clock w.ticks := by rw [hmoment.clock, hticks]
    rw [wpc_pure, hnow]
    exact hQ start _ hstart ⟨hmoment.path, hmoment.nodeIdFile, hmoment.segments, hmoment.clock,
      hmoment.trace, hmoment.checkpointFile⟩ hdurable (congrArg (· + 1) hticks)
  have hrefused : ∀ error error', replayStart reset w.dir = .error error → E error' t w :=
    fun error error' h => hE error' w (Or.inl fun start hstart => by rw [h] at hstart; cases hstart) hself
  rw [readReplayCheckpointState, wpc_bind, readDir, wpc_orThrow, wpc_perform]
  refine ⟨hP _ _ hself trivial, ?_⟩
  rintro r w' ⟨rfl, rfl | ⟨hmay, e, rfl⟩⟩
  rotate_left
  · exact ⟨by simp, fun e _ => hE e _ (Or.inr (Or.inl hmay)) hself⟩
  refine ⟨?_, by simp⟩
  rintro _ ⟨⟩
  rw [wpc_bind]
  cases hbounds : readWalBounds w'.dir with
  | error error =>
    rw [wpc_ofExcept_error]
    exact hrefused error error (by rw [replayStart, hbounds])
  | ok bounds =>
    rw [wpc_ofExcept_ok, wpc_bind]
    -- a reset of the offset
    have hresetTo : replayStart reset w'.dir = .ok (resetStart reset bounds) →
        wpc (sysEnv mayFail) P (resetCheckpoint reset bounds) (fun checkpoint t' w'' =>
          wpc (sysEnv mayFail) P
            (sys .instantNow >>= fun now => pure ⟨checkpoint, none, 0, 0, now⟩) Q E t' w'')
          E t w' := by
      intro hstart
      cases reset with
      | earliest => exact hlast hstart hself (Or.inl rfl) rfl
      | latest =>
        rw [resetCheckpoint]
        cases htail : bounds.tail with
        | none =>
          rw [show resetStart .latest bounds = none from htail] at hstart
          exact hlast hstart hself (Or.inl rfl) rfl
        | some position =>
          rw [show resetStart .latest bounds = some position from htail] at hstart
          simp only [wpc_bind]
          refine wpc_writeStart hstart hP (fun w'' hmoment hdurable hticks => ?_)
            fun error w'' hmay hmoment => hE error w'' (Or.inr hmay) hmoment
          exact hlast hstart hmoment (Or.inr hdurable) hticks
    rw [hreset, readCheckpoint, wpc_bind, readDir, wpc_orThrow, wpc_perform]
    refine ⟨hP _ _ hself trivial, ?_⟩
    rintro r w'' ⟨rfl, rfl | ⟨hmay, e, rfl⟩⟩
    rotate_left
    · exact ⟨by simp, fun e _ => hE e _ (Or.inr (Or.inl hmay)) hself⟩
    refine ⟨?_, by simp⟩
    rintro _ ⟨⟩
    cases hfile : w''.dir.checkpointFile with
    | none =>
      exact hresetTo (by rw [replayStart, hbounds]; simp only [hfile])
    | some file =>
      simp only
      rw [wpc_bind]
      cases hread : readCheckpointFile (checkpointPath w''.dir.path) (readNodeId w''.dir) file with
      | error error =>
        rw [wpc_ofExcept_error]
        refine hrefused error error ?_
        rw [replayStart, hbounds]
        simp only [hfile, hread]
      | ok position =>
        rw [wpc_ofExcept_ok, wpc_ite]
        refine ⟨fun hbefore => hresetTo ?_, fun hbefore => ?_⟩
        · rw [replayStart, hbounds]
          simp only [hfile, hread, if_pos hbefore]
        · rw [wpc_pure]
          refine hlast ?_ hself (Or.inr ?_) rfl
          · rw [replayStart, hbounds]
            simp only [hfile, hread, if_neg hbefore]
          · rw [durableCheckpoint, hfile]
            exact filePosition_of_readCheckpointFile hread

end Start

end Ingest4x.Wal
