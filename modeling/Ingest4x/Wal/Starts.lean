import Ingest4x.Wal.Opening

/-! # Starts of a directory

`WalWriter::new` on a directory, once and again: starts that succeed, that fail or that are cut off,
with everything else that the program does to the directory in between.

* **`wpc_new`** — the outcomes of one start.
* **`DirStep`**, **`StartHistory`** — what happens to a directory, and the node ids of the starts that
  succeed.
* **`StartHistory.same`** — they all are the same. -/

namespace Ingest4x.Wal

open Effect

variable [RecordCodec] [CheckpointCodec] [DurationCodec]

/-! ### One start -/

/-- **A start** with these settings ends with this result. -/
def Starts (mayFail : SysOp → Prop) (settings : WalSettings) (w : World)
    (result : Except IoError (WalWriterInner × WalWriterState)) (w' : World) : Prop :=
  Runs (sysEnv mayFail) ((WalWriter.new settings : Sys Unit _).start ()) w (result, ()) w'

/-- Any operation may fail. -/
def AnyFailure (_ : SysOp) : Prop := True

/-- **How a start fails**: before the rest of it, or there. -/
def NewFails (mayFail : SysOp → Prop) (settings : WalSettings) (w w' : World) : Prop :=
  ResolveFails mayFail (nonBlank settings.nodeId) w w' ∨
    ∃ nodeId, Accepts (nonBlank settings.nodeId) w.dir nodeId ∧
      OpenFails mayFail settings nodeId (w.adopt nodeId) w'

section OneStart

variable {τ : Type} {mayFail : SysOp → Prop} {settings : WalSettings} {t : τ} {w : World}

/-- **The outcomes of a start.** It writes the node id file only where no node id is persisted. -/
theorem wpc_new :
    wpc (sysEnv mayFail) WritesOnce (WalWriter.new settings)
      (fun r _ w' => Accepts (nonBlank settings.nodeId) w.dir r.1.nodeId ∧
        w'.dir.nodeIdFile = (w.dir.adopt r.1.nodeId).nodeIdFile ∧ OpensAs w.dir r.1.nodeId ∧
        ∃ interval, DurationCodec.parseDuration settings.write.flushInterval = .ok interval)
      (fun _ _ w' => NewFails mayFail settings w w') t w := by
  have hstays : (∃ o, mayFail o) → NewFails mayFail settings w w := fun hmay =>
    Or.inl ⟨Or.inl rfl, Or.inl hmay⟩
  rw [WalWriter.new_eq, wpc_bind, wpc_createDirAll]
  refine ⟨by rintro _ ⟨⟩, ?_, fun hmay _ => hstays ⟨_, hmay⟩⟩
  rw [wpc_bind, wpc_acquireWalLock]
  refine ⟨by rintro _ ⟨⟩, ?_, fun hmay _ => hstays ⟨_, hmay⟩⟩
  rw [wpc_bind]
  refine wpc_imp wpc_resolveNodeId ?_ fun _ _ _ h => Or.inl h
  rintro nodeId _ _ ⟨haccepts, rfl⟩
  refine wpc_imp wpc_openWal ?_ fun _ _ _ h => Or.inr ⟨nodeId, haccepts, h⟩
  rintro ⟨inner, state⟩ _ w' ⟨rfl, hfile, hopens, hparse⟩
  exact ⟨haccepts, hfile, opensAs_adopt.mp hopens, hparse⟩

/-- **After the node id is accepted** the rest of the start runs. -/
theorem wpc_openWal_of_new {P : SysOp → World → Prop}
    {Q : WalWriterInner × WalWriterState → τ → World → Prop} {E : IoError → τ → World → Prop}
    (h : wpc (sysEnv mayFail) P (WalWriter.new settings) Q E t w) {nodeId : String}
    (haccepts : Accepts (nonBlank settings.nodeId) w.dir nodeId) :
    wpc (sysEnv mayFail) P (openWal settings nodeId) Q E t (w.adopt nodeId) := by
  rw [WalWriter.new_eq, wpc_bind, wpc_createDirAll] at h
  replace h := h.2.1
  rw [wpc_bind, wpc_acquireWalLock] at h
  replace h := h.2.1
  rw [wpc_bind] at h
  exact accepts_of_wpc h haccepts

end OneStart

/-! ### Many starts -/

omit [RecordCodec] [CheckpointCodec] [DurationCodec] in
/-- **No other operation touches the node id file.** -/
theorem nodeIdFile_of_sysEnv {mayFail : SysOp → Prop} {o : SysOp} {w w' : World} {r : SysResp o}
    (h : sysEnv mayFail o w r w') (hne : ∀ nodeId, o ≠ .writeNodeIdFile nodeId) :
    w'.dir.nodeIdFile = w.dir.nodeIdFile := by
  cases o with
  | createDirAll =>
    have h : Fallible _ w (· = w) r w' := h
    rcases h with ⟨-, rfl⟩ | ⟨-, -, rfl⟩ <;> rfl
  | acquireWalLock =>
    have h : Fallible _ w (· = w) r w' := h
    rcases h with ⟨-, rfl⟩ | ⟨-, -, rfl⟩ <;> rfl
  | syncDirectory site =>
    have h : Fallible _ w (· = w) r w' := h
    rcases h with ⟨-, rfl⟩ | ⟨-, -, rfl⟩ <;> rfl
  | readDir => rw [h.1]
  | nowMs => rw [show w' = w from h]
  | availableSpace => rw [h.1]
  | newUuid => rw [h.1]
  | instantNow => rw [h.2]
  | writeNodeIdFile nodeId => exact absurd rfl (hne nodeId)
  | createSegment site segmentId header =>
    rcases h with ⟨-, rfl⟩ | ⟨-, -, rfl | rfl⟩ <;> rfl
  | removeSegment site segmentId =>
    rcases h with ⟨-, -, rfl⟩ | ⟨-, ⟨-, rfl⟩ | ⟨-, -, rfl⟩⟩ <;> rfl
  | appendSegment segmentId bytes =>
    rcases h with ⟨-, -, rfl⟩ | ⟨-, ⟨-, rfl⟩ | ⟨-, -, -, -, rfl⟩⟩ <;> rfl
  | syncSegment segmentId =>
    rcases h with ⟨-, -, rfl⟩ | ⟨-, ⟨-, rfl⟩ | ⟨-, -, rfl⟩⟩ <;> rfl
  | truncateSegment site segmentId len =>
    rcases h with ⟨-, -, rfl⟩ | ⟨-, ⟨-, rfl⟩ | ⟨-, -, rfl | rfl⟩⟩ <;> rfl
  | writeCheckpointFile file =>
    rcases h with ⟨-, rfl⟩ | ⟨-, -, rfl | rfl⟩ <;> rfl
  | respond channel record result => rw [show w' = w.record _ from h, World.record_dir]
  | sendBatch sink events metadata => rw [h.1, World.record_dir]
  | quarantine entry issue => rw [show w' = w.record _ from h, World.record_dir]

/-- **A persisted node id stays.** -/
def KeepsPersisted (w w' : World) : Prop :=
  ∀ nodeId, w.dir.persistedNodeId = some nodeId → w'.dir.persistedNodeId = some nodeId

omit [RecordCodec] [CheckpointCodec] [DurationCodec] in
theorem keepsPersisted_of_eq {w w' : World} (h : w'.dir.nodeIdFile = w.dir.nodeIdFile) :
    KeepsPersisted w w' := by
  intro nodeId hpersisted
  unfold WalDir.persistedNodeId at hpersisted ⊢
  rwa [h]

omit [RecordCodec] [CheckpointCodec] [DurationCodec] in
/-- An operation keeps it, if it writes the node id file only where none is persisted. -/
theorem keepsPersisted_of_writesOnce {mayFail : SysOp → Prop} {o : SysOp} {w w' : World}
    {r : SysResp o} (hguard : WritesOnce o w) (h : sysEnv mayFail o w r w') :
    KeepsPersisted w w' := by
  by_cases hne : ∀ nodeId, o ≠ .writeNodeIdFile nodeId
  · exact keepsPersisted_of_eq (nodeIdFile_of_sysEnv h hne)
  · rw [not_forall] at hne
    obtain ⟨nodeId, hwrite⟩ := hne
    intro persisted hpersisted
    rw [hguard nodeId (not_not.mp hwrite)] at hpersisted
    cases hpersisted

/-- **Whatever becomes of a start**, a persisted node id stays. -/
theorem keepsPersisted_of_reaches {mayFail : SysOp → Prop} {settings : WalSettings} {w : World}
    {c : Prog SysOp SysResp (Except IoError (WalWriterInner × WalWriterState) × Unit) × World}
    (h : Reaches (sysEnv mayFail) ((WalWriter.new settings : Sys Unit _).start (), w) c) :
    KeepsPersisted w c.2 := by
  refine wp_related (R := KeepsPersisted) (fun _ _ hpersisted => hpersisted) ?_ ?_ wpc_new h
  · intro w w' w'' h h' nodeId hpersisted
    exact h' nodeId (h nodeId hpersisted)
  · intro o w r w' hguard henv
    exact keepsPersisted_of_writesOnce hguard henv

/-- **A start that succeeds** leaves its node id persisted. -/
theorem Starts.persisted {mayFail : SysOp → Prop} {settings : WalSettings} {w w' : World}
    {inner : WalWriterInner} {state : WalWriterState}
    (h : Starts mayFail settings w (.ok (inner, state)) w') :
    w'.dir.persistedNodeId = some inner.nodeId := by
  obtain ⟨haccepts, hfile, -⟩ := wp_runs wpc_new h
  have hadopted := w.dir.persistedNodeId_adopt haccepts.isNodeId
  exact keepsPersisted_of_eq (w := w.adopt inner.nodeId) hfile inner.nodeId hadopted

/-- **What happens to a directory**: a start, which succeeds, fails or is cut off, or any other
operation of the program. The label is the node id of a start that succeeds. -/
inductive DirStep (w : World) : Option String → World → Prop
  | started {settings : WalSettings} {inner : WalWriterInner} {state : WalWriterState} {w' : World}
      (h : Starts AnyFailure settings w (.ok (inner, state)) w') : DirStep w (some inner.nodeId) w'
  | failed {settings : WalSettings} {error : IoError} {w' : World}
      (h : Starts AnyFailure settings w (.error error) w') : DirStep w none w'
  | cutOff {settings : WalSettings}
      {c : Prog SysOp SysResp (Except IoError (WalWriterInner × WalWriterState) × Unit) × World}
      (h : Reaches (sysEnv AnyFailure) ((WalWriter.new settings : Sys Unit _).start (), w) c) :
      DirStep w none c.2
  | operation {o : SysOp} {r : SysResp o} {w' : World} (h : sysEnv AnyFailure o w r w')
      (hne : ∀ nodeId, o ≠ .writeNodeIdFile nodeId) : DirStep w none w'

/-- **A history of a directory**, with the node ids of its successful starts. -/
inductive StartHistory (w : World) : List String → World → Prop
  | refl : StartHistory w [] w
  | tail {nodeIds : List String} {nodeId : Option String} {w' w'' : World}
      (h : StartHistory w nodeIds w') (hstep : DirStep w' nodeId w'') :
      StartHistory w (nodeIds ++ nodeId.toList) w''

/-- One step: a persisted node id stays, and a start that succeeds has persisted its own. -/
theorem DirStep.persisted {w w' : World} {nodeId : Option String} (h : DirStep w nodeId w') :
    KeepsPersisted w w' ∧ ∀ id ∈ nodeId, w'.dir.persistedNodeId = some id := by
  cases h with
  | started h =>
    refine ⟨keepsPersisted_of_reaches h, ?_⟩
    rintro _ ⟨⟩
    exact h.persisted
  | failed h => exact ⟨keepsPersisted_of_reaches h, by rintro _ ⟨⟩⟩
  | cutOff h => exact ⟨keepsPersisted_of_reaches h, by rintro _ ⟨⟩⟩
  | operation h hne => exact ⟨keepsPersisted_of_eq (nodeIdFile_of_sysEnv h hne), by rintro _ ⟨⟩⟩

/-- A whole history: the node id of every successful start is persisted at its end. -/
theorem StartHistory.persisted {w w' : World} {nodeIds : List String} (h : StartHistory w nodeIds w') :
    ∀ nodeId ∈ nodeIds, w'.dir.persistedNodeId = some nodeId := by
  induction h with
  | refl => exact fun _ hmem => nomatch hmem
  | @tail nodeIds nodeId w' w'' _ hstep ih =>
    intro id hid
    rcases List.mem_append.mp hid with hid | hid
    · exact hstep.persisted.1 id (ih id hid)
    · exact hstep.persisted.2 id (Option.mem_toList.mp hid)

/-- **All successful starts on a directory use the same node id.** -/
theorem StartHistory.same {w w' : World} {nodeIds : List String} (h : StartHistory w nodeIds w') :
    ∀ nodeId ∈ nodeIds, ∀ nodeId' ∈ nodeIds, nodeId = nodeId' := by
  intro nodeId hmem nodeId' hmem'
  have heq := (h.persisted nodeId hmem).symm.trans (h.persisted nodeId' hmem')
  injection heq

end Ingest4x.Wal
