import Ingest4x.Wal.Starts

/-! # The identity of a log

A node id is persisted before the rest of the start looks at it. The header of the segment that the
start creates limits its length, and the checkpoint and the active segment may be of another node; a
start that fails there leaves a node id persisted with which no start succeeds.

* **`Startable`**, **`Stuck`** — whether the persisted node id is in the way of every later start.
* **`NodeIdKept`** — what should hold of the node id, for a start on a directory.
* **`NodeIdSound`**, **`nodeId_kept_iff`** — when it does. -/

namespace Ingest4x.Wal

open Bytes Effect

/-- Some text is the text of a duration. -/
def DurationsParse [DurationCodec] : Prop :=
  ∃ text interval, DurationCodec.parseDuration text = .ok interval

section Codecs

variable [RecordCodec] [CheckpointCodec] [DurationCodec]

/-! ### Stuck directories -/

/-- **A directory that can be started**: with some settings, every start in which no operation fails
succeeds. -/
def Startable (w : World) : Prop :=
  ∃ settings, ∀ result w', Starts (fun _ => False) settings w result w' → result.isOk = true

/-- **The persisted node id is in the way** of every later start: the directory cannot be started, but
with another node id file, or none, it could be. -/
def Stuck (w : World) : Prop :=
  ¬Startable w ∧ ∃ file, Startable { w with dir := w.dir.withNodeIdFile file }

omit [DurationCodec] in
/-- **The rest of the directory opens** under some node id. -/
def Openable (dir : WalDir) : Prop := ∃ nodeId, IsNodeId nodeId ∧ OpensAs dir nodeId

omit [DurationCodec] in
/-- **A node id fits the rest of the directory**: that opens under it, if under any. -/
def Fits (dir : WalDir) (nodeId : String) : Prop :=
  Openable dir → IsNodeId nodeId ∧ OpensAs dir nodeId

omit [RecordCodec] [CheckpointCodec] [DurationCodec] in
/-- Every operation has an answer. -/
theorem sysEnv_total (mayFail : SysOp → Prop) (o : SysOp) (w : World) :
    ∃ r w', sysEnv mayFail o w r w' :=
  ⟨_, _, @sysAnswer_sysEnv mayFail (fun _ => none) (fun _ h => absurd rfl h) o w⟩

section Startable

variable {w : World} {nodeId : String}

omit [RecordCodec] [CheckpointCodec] [DurationCodec] in
/-- A node id is configured as itself. -/
theorem IsNodeId.nonBlank (h : IsNodeId nodeId) : nonBlank (some nodeId) = some nodeId := by
  refine nonBlank_eq_some.mpr ⟨nodeId, rfl, Text.trim_eq_self fun c hc => ?_, h.1⟩
  exact isWhitespace_of_nodeIdChar (List.all_eq_true.mp (validateNodeId_eq_ok.mp h.2) c hc)

/-- **A directory can be started** if and only if some configured node id, or none, leads to node ids
under which the rest of it opens. -/
theorem startable_iff :
    Startable w ↔ DurationsParse ∧ ∃ configured,
      (∃ nodeId, Accepts (nonBlank configured) w.dir nodeId) ∧
        ∀ nodeId, Accepts (nonBlank configured) w.dir nodeId → OpensAs w.dir nodeId := by
  constructor
  · rintro ⟨settings, hstarts⟩
    have hwpc : wpc (sysEnv fun _ => False) (fun _ _ => True)
        (WalWriter.new settings : Sys Unit (WalWriterInner × WalWriterState))
        (fun _ _ _ => True) (fun _ _ _ => False) () w := by
      refine wp_of_runs fun r w' hruns => ?_
      obtain ⟨result, ⟨⟩⟩ := r
      have hok := hstarts result w' hruns
      cases result with
      | ok r => trivial
      | error error => cases hok
    -- some start succeeds, and after every accepted node id the rest of it does
    obtain ⟨⟨result, ⟨⟩⟩, w', hend⟩ :=
      exists_of_wp (sysEnv_total _) (wpc_and wpc_new hwpc)
    cases result with
    | error error => exact absurd hend.2 id
    | ok r =>
      obtain ⟨⟨haccepts, -, -, interval, hparse⟩, -⟩ := hend
      refine ⟨⟨_, interval, hparse⟩, settings.nodeId, ⟨_, haccepts⟩, fun nodeId haccepts => ?_⟩
      obtain ⟨⟨result, ⟨⟩⟩, w', hend⟩ := exists_of_wp (sysEnv_total _)
        (wpc_and wpc_openWal (wpc_openWal_of_new hwpc haccepts))
      cases result with
      | error error => exact absurd hend.2 id
      | ok r => exact opensAs_adopt.mp hend.1.2.2.1
  · rintro ⟨⟨text, interval, hparse⟩, configured, ⟨nodeId, haccepts⟩, hopens⟩
    let settings : WalSettings := {
      nodeId := configured
      write := ⟨text, 0, false, 0, 0⟩
      checkpoint := ⟨text, 0, 0⟩
      replay := ⟨0, 0, ⟨0, 0, text⟩⟩ }
    refine ⟨settings, fun result w' hruns => ?_⟩
    have hend := wp_runs wpc_new hruns
    cases result with
    | ok r => rfl
    | error error =>
      exfalso
      rcases hend with ⟨-, ⟨o, hmay⟩ | hnone⟩ | ⟨nodeId, haccepts, hfails⟩
      · exact hmay
      · exact hnone nodeId haccepts
      · rcases hfails.reason (opensAs_adopt.mpr (hopens nodeId haccepts)) with ⟨o, hmay⟩ | hdemands
        · exact hmay
        · exact hdemands ⟨rfl, interval, hparse⟩

/-- Under a persisted node id that fits, every start without another configured node id succeeds. -/
theorem startable_of_persisted (hparse : DurationsParse)
    (hpersisted : w.dir.persistedNodeId = some nodeId) :
    Startable w ↔ IsNodeId nodeId ∧ OpensAs w.dir nodeId := by
  rw [startable_iff, and_iff_right hparse]
  constructor
  · rintro ⟨configured, ⟨nodeId', haccepts⟩, hopens⟩
    obtain rfl := haccepts.eq_of_persisted hpersisted
    exact ⟨haccepts.isNodeId, hopens nodeId' haccepts⟩
  · rintro ⟨hnodeId, hopens⟩
    refine ⟨none, ⟨nodeId, .persisted hpersisted hnodeId.2 fun _ h => nomatch h⟩, ?_⟩
    intro nodeId' haccepts
    obtain rfl := haccepts.eq_of_persisted hpersisted
    exact hopens

/-- Without a node id file any node id can be configured. -/
theorem startable_of_none (hparse : DurationsParse) (hfile : w.dir.nodeIdFile = none) :
    Startable w ↔ Openable w.dir := by
  rw [startable_iff, and_iff_right hparse]
  constructor
  · rintro ⟨configured, ⟨nodeId, haccepts⟩, hopens⟩
    exact ⟨nodeId, haccepts.isNodeId, hopens nodeId haccepts⟩
  · rintro ⟨nodeId, hnodeId, hopens⟩
    refine ⟨some nodeId, ⟨nodeId, .configured hfile hnodeId.nonBlank hnodeId.2⟩, ?_⟩
    intro nodeId' haccepts
    rw [hnodeId.nonBlank] at haccepts
    cases haccepts with
    | persisted h =>
      rw [WalDir.persistedNodeId_of_none hfile] at h
      cases h
    | configured h hconfigured =>
      cases hconfigured
      exact hopens
    | generated h hconfigured => cases hconfigured

/-- Over a blank node id file only a generated node id is accepted. -/
theorem startable_of_blank (hparse : DurationsParse) (hfile : w.dir.nodeIdFile ≠ none)
    (hnone : w.dir.persistedNodeId = none) :
    Startable w ↔ ∀ nodeId, IsUuid nodeId → OpensAs w.dir nodeId := by
  rw [startable_iff, and_iff_right hparse]
  constructor
  · rintro ⟨configured, ⟨nodeId, haccepts⟩, hopens⟩ uuid huuid
    cases haccepts with
    | persisted h =>
      rw [hnone] at h
      cases h
    | configured h => exact absurd h hfile
    | generated h hconfigured => exact hopens uuid (.generated hnone hconfigured huuid)
  · intro hopens
    refine ⟨none, ⟨sampleUuid, .generated hnone rfl isUuid_sampleUuid⟩, ?_⟩
    intro nodeId haccepts
    cases haccepts with
    | persisted h =>
      rw [hnone] at h
      cases h
    | configured h hconfigured => cases hconfigured
    | generated h hconfigured huuid => exact hopens nodeId huuid

/-- **The node ids that a node id file stands for**: the persisted one, or, where it is blank, each
that may be generated. -/
inductive StandsFor (dir : WalDir) (nodeId : String) : Prop
  | persisted (h : dir.persistedNodeId = some nodeId)
  | generated (hfile : dir.nodeIdFile ≠ none) (h : dir.persistedNodeId = none)
      (huuid : IsUuid nodeId)

omit [RecordCodec] [CheckpointCodec] [DurationCodec] in
theorem standsFor_of_persisted {dir : WalDir} {nodeId' : String}
    (h : dir.persistedNodeId = some nodeId) : StandsFor dir nodeId' ↔ nodeId' = nodeId := by
  constructor
  · rintro (h' | ⟨-, h', -⟩)
    · exact Option.some_inj.mp (h'.symm.trans h)
    · rw [h] at h'
      cases h'
  · rintro rfl
    exact .persisted h

/-- A directory that can be started has a node id under which the rest of it opens. -/
theorem Startable.openable (h : Startable w) : Openable w.dir := by
  obtain ⟨-, configured, ⟨nodeId, haccepts⟩, hopens⟩ := startable_iff.mp h
  exact ⟨nodeId, haccepts.isNodeId, hopens nodeId haccepts⟩

omit [DurationCodec] in
/-- Whether the rest of the directory opens does not depend on the node id file. -/
theorem openable_withNodeIdFile {dir : WalDir} {file : Option String} :
    Openable (dir.withNodeIdFile file) ↔ Openable dir :=
  exists_congr fun _ => and_congr_right' opensAs_withNodeIdFile

omit [DurationCodec] in
theorem fits_adopt {dir : WalDir} {other : String} :
    Fits (dir.adopt other) nodeId ↔ Fits dir nodeId := by
  unfold Fits Openable
  simp only [opensAs_adopt]

/-- **The node id file is not in the way** if and only if the node ids that it stands for fit. -/
theorem not_stuck_iff (hparse : DurationsParse) :
    ¬Stuck w ↔ ∀ nodeId, StandsFor w.dir nodeId → Fits w.dir nodeId := by
  have hother : (∃ file, Startable { w with dir := w.dir.withNodeIdFile file }) ↔
      Openable w.dir := by
    constructor
    · rintro ⟨file, hstartable⟩
      exact openable_withNodeIdFile.mp hstartable.openable
    · intro hopenable
      exact ⟨none, (startable_of_none hparse rfl).mpr (openable_withNodeIdFile.mpr hopenable)⟩
  unfold Stuck
  rw [hother, not_and', not_not]
  cases hpersisted : w.dir.persistedNodeId with
  | some nodeId =>
    rw [startable_of_persisted hparse hpersisted]
    simp only [standsFor_of_persisted hpersisted, forall_eq]
    exact Iff.rfl
  | none =>
    by_cases hfile : w.dir.nodeIdFile = none
    · rw [startable_of_none hparse hfile]
      refine iff_of_true id ?_
      rintro nodeId (h | ⟨hsome, -, -⟩)
      · rw [hpersisted] at h
        cases h
      · exact absurd hfile hsome
    · rw [startable_of_blank hparse hfile hpersisted]
      constructor
      · rintro hfits nodeId (h | ⟨-, -, huuid⟩) hopenable
        · rw [hpersisted] at h
          cases h
        · exact ⟨huuid.isNodeId, hfits hopenable nodeId huuid⟩
      · intro hfits hopenable nodeId huuid
        exact (hfits nodeId (.generated hfile hpersisted huuid) hopenable).2

end Startable

/-! ### What a start leaves -/

/-- `resolve_node_id` ends with this node id. -/
def Resolves (settings : WalSettings) (w : World) (nodeId : String) (w' : World) : Prop :=
  Runs (sysEnv AnyFailure) ((resolveNodeId settings.nodeId : Sys Unit String).start ()) w
    (.ok nodeId, ()) w'

/-- **What should hold of the node id**, for a start with these settings: where it fails, the
persisted node id is not in the way of later starts; what `resolve_node_id` accepts can be written; and
whatever happens to the directory, all starts that succeed use the same node id. -/
structure NodeIdKept (settings : WalSettings) (w : World) : Prop where
  recoverable : ∀ error w', Starts AnyFailure settings w (.error error) w' → ¬Stuck w'
  writable : ∀ nodeId w', Resolves settings w nodeId w' → Writable nodeId
  stable : ∀ nodeIds w', StartHistory w nodeIds w' →
    ∀ nodeId ∈ nodeIds, ∀ nodeId' ∈ nodeIds, nodeId = nodeId'

omit [DurationCodec] in
/-- **The node ids are sound**, for a start with this configured one: those that the node id file
stands for and those that are accepted fit the rest of the directory, also when the stale segment is
removed; and those that are accepted are short enough. -/
structure NodeIdSound (configured : Option String) (dir : WalDir) : Prop where
  stands : ∀ nodeId, StandsFor dir nodeId → Fits dir nodeId
  accepted : ∀ nodeId, Accepts configured dir nodeId → Fits dir nodeId
  length : ∀ nodeId, Accepts configured dir nodeId → (utf8Bytes nodeId).length ≤ maxNodeIdLen
  stale : ∀ nodeId segments, Accepts configured dir nodeId → StaleRemoved dir nodeId segments →
    Fits (dir.withSegments segments) nodeId

section Kept

variable {settings : WalSettings} {w : World} {nodeId : String}

/-- With a persisted node id, only that one can be in the way. -/
theorem not_stuck_of_persisted (hparse : DurationsParse)
    (hpersisted : w.dir.persistedNodeId = some nodeId) : ¬Stuck w ↔ Fits w.dir nodeId := by
  rw [not_stuck_iff hparse]
  simp only [standsFor_of_persisted hpersisted, forall_eq]

/-- The node id stays persisted, whatever becomes of the log. -/
theorem OpenFails.persistedNodeId {mayFail : SysOp → Prop} {w' : World}
    (h : OpenFails mayFail settings nodeId (w.adopt nodeId) w') (hnodeId : IsNodeId nodeId) :
    w'.dir.persistedNodeId = some nodeId :=
  keepsPersisted_of_eq h.nodeIdFile nodeId (w.dir.persistedNodeId_adopt hnodeId)

omit [RecordCodec] [CheckpointCodec] [DurationCodec] in
theorem WalDir.adopt_withSegments (dir : WalDir) (nodeId : String)
    (segments : SortedTable Nat SegmentFile) :
    (dir.adopt nodeId).withSegments segments = (dir.withSegments segments).adopt nodeId := by
  have hsame : (dir.withSegments segments).persistedNodeId = dir.persistedNodeId := rfl
  unfold WalDir.adopt
  rw [hsame]
  split_ifs <;> rfl

/-- **A start that fails leaves the node id out of the way**, where the node ids are sound. -/
theorem NodeIdSound.not_stuck (hparse : DurationsParse)
    (h : NodeIdSound (nonBlank settings.nodeId) w.dir) {mayFail : SysOp → Prop} {w' : World}
    (hfails : NewFails mayFail settings w w') : ¬Stuck w' := by
  rcases hfails with ⟨rfl | ⟨nodeId, haccepts, rfl⟩, -⟩ | ⟨nodeId, haccepts, hopen⟩
  · exact (not_stuck_iff hparse).mpr h.stands
  · rw [not_stuck_of_persisted hparse (w.dir.persistedNodeId_adopt haccepts.isNodeId)]
    exact fits_adopt.mpr (h.accepted nodeId haccepts)
  · rw [not_stuck_of_persisted hparse (hopen.persistedNodeId haccepts.isNodeId)]
    rcases hopen.leaves with hdir | ⟨segments, hstale, hdir⟩ | ⟨-, hopens⟩
    · rw [hdir]
      exact fits_adopt.mpr (h.accepted nodeId haccepts)
    · rw [hdir, World.adopt_dir, WalDir.adopt_withSegments]
      exact fits_adopt.mpr (h.stale nodeId segments haccepts (staleRemoved_adopt.mp hstale))
    · exact fun _ => ⟨haccepts.isNodeId, hopens⟩

/-- **Where every failing start leaves the node id out of the way, the node ids are sound**: a start
can fail before it resolves the node id, right after that, and after it removed the stale segment. -/
theorem nodeIdSound_of_wpc (hparse : DurationsParse)
    (hrecoverable : wpc (sysEnv AnyFailure) (fun _ _ => True)
      (WalWriter.new settings : Sys Unit (WalWriterInner × WalWriterState))
      (fun _ _ _ => True) (fun _ _ w' => ¬Stuck w') () w)
    (hwritable : wpc (sysEnv AnyFailure) (fun _ _ => True)
      (resolveNodeId settings.nodeId : Sys Unit String)
      (fun nodeId _ _ => Writable nodeId) (fun _ _ _ => True) () w) :
    NodeIdSound (nonBlank settings.nodeId) w.dir where
  stands := by
    rw [WalWriter.new_eq, wpc_bind, wpc_createDirAll] at hrecoverable
    exact (not_stuck_iff hparse).mp (hrecoverable.2.2 trivial (.other ""))
  accepted nodeId haccepts := by
    have hopen := wpc_openWal_of_new hrecoverable haccepts
    unfold openWal at hopen
    rw [wpc_bind, wpc_readDir] at hopen
    have hpersisted := w.dir.persistedNodeId_adopt haccepts.isNodeId
    have hnotStuck := hopen.2.2 trivial (.other "")
    rw [not_stuck_of_persisted hparse hpersisted] at hnotStuck
    exact fits_adopt.mp hnotStuck
  length nodeId haccepts := writable_iff.mp (accepts_of_wpc hwritable haccepts)
  stale nodeId segments haccepts hstale := by
    have hnotStuck := staleRemoved_of_wpc (wpc_openWal_of_new hrecoverable haccepts) trivial
      (staleRemoved_adopt.mpr hstale) (.other "")
    have hpersisted := w.dir.persistedNodeId_adopt haccepts.isNodeId
    rw [not_stuck_of_persisted hparse hpersisted] at hnotStuck
    have hdir : ((w.adopt nodeId).withSegments segments).dir =
        (w.dir.withSegments segments).adopt nodeId := w.dir.adopt_withSegments nodeId segments
    rw [hdir] at hnotStuck
    exact fits_adopt.mp hnotStuck

/-- **The node id is kept** by a start on a directory if and only if the node ids are sound. -/
theorem nodeId_kept_iff (hparse : DurationsParse) (settings : WalSettings) (w : World) :
    NodeIdKept settings w ↔ NodeIdSound (nonBlank settings.nodeId) w.dir := by
  constructor
  · intro h
    refine nodeIdSound_of_wpc hparse (wp_of_runs ?_) (wp_of_runs ?_)
    · rintro ⟨result, ⟨⟩⟩ w' hruns
      cases result with
      | ok r => trivial
      | error error => exact h.recoverable error w' hruns
    · rintro ⟨result, ⟨⟩⟩ w' hruns
      cases result with
      | ok nodeId => exact h.writable nodeId w' hruns
      | error error => trivial
  · intro h
    refine ⟨fun error w' hstarts => ?_, fun nodeId w' hresolves => ?_, fun _ _ h => h.same⟩
    · have hend := wp_runs wpc_new hstarts
      exact h.not_stuck hparse hend
    · exact writable_iff.mpr (h.length nodeId (wp_runs wpc_resolveNodeId hresolves).1)

/-! ### The first start -/

omit [DurationCodec] in
/-- A directory without a log opens under every node id that a header can hold. -/
theorem opensAs_fresh {dir : WalDir} (hsegments : dir.segments = ∅)
    (hcheckpoint : dir.checkpointFile = none) :
    OpensAs dir nodeId ↔ (utf8Bytes nodeId).length ≤ maxNodeIdLen := by
  have hfits : ∀ segmentId, ActiveFits dir nodeId segmentId ↔
      (utf8Bytes nodeId).length ≤ maxNodeIdLen := by
    intro segmentId
    unfold ActiveFits
    rw [hsegments]
    exact Iff.rfl
  constructor
  · rintro ⟨checkpoint, segmentId, nextLsn, -, hfit⟩
    exact (hfits segmentId).mp hfit
  · intro hlen
    refine ⟨none, 1, 1, ⟨?_, ?_, by decide, ?_, by decide⟩, (hfits 1).mpr hlen⟩
    · unfold readPipelineCheckpoint
      rw [hcheckpoint]
    · unfold recoverActiveSegmentId lastSegmentId segmentIds
      rw [hsegments]
      rfl
    · unfold recoverNextLsn
      rw [hsegments]
      rfl

omit [DurationCodec] in
/-- **On the first start** the node ids are sound if and only if those that are accepted are short
enough. -/
theorem nodeIdSound_fresh {configured : Option String} {dir : WalDir}
    (hfile : dir.nodeIdFile = none) (hsegments : dir.segments = ∅)
    (hcheckpoint : dir.checkpointFile = none) :
    NodeIdSound (nonBlank configured) dir ↔ ∀ nodeId, Accepts (nonBlank configured) dir nodeId →
      (utf8Bytes nodeId).length ≤ maxNodeIdLen := by
  constructor
  · exact fun h => h.length
  · intro hlen
    refine ⟨?_, fun nodeId haccepts _ => ?_, hlen, ?_⟩
    · rintro nodeId (h | ⟨hsome, -, -⟩)
      · rw [WalDir.persistedNodeId_of_none hfile] at h
        cases h
      · exact absurd hfile hsome
    · exact ⟨haccepts.isNodeId, (opensAs_fresh hsegments hcheckpoint).mpr (hlen nodeId haccepts)⟩
    · -- there is no segment that could be stale
      rintro nodeId segments - ⟨-, segmentId, -, -, ⟨file, header, hlookup, -⟩, -⟩
      rw [hsegments] at hlookup
      cases hlookup

/-! ### A node id that is too long -/

/-- Settings with this node id. -/
def sampleSettings (nodeId : Option String) : WalSettings where
  nodeId := nodeId
  write := ⟨"100ms", 1, false, 1024, 0⟩
  checkpoint := ⟨"1s", 1, 1⟩
  replay := ⟨1, 1, ⟨1, 1, "1s"⟩⟩

/-- An empty directory. -/
def freshWorld : World where
  dir := { path := "wal", nodeIdFile := none, segments := ∅, checkpointFile := none }
  clock n := n
  ticks := 0
  trace := []

/-- A node id of one byte more than a segment header can hold. -/
def longNodeId : String := String.ofList (List.replicate (maxNodeIdLen + 1) 'a')

omit [RecordCodec] [CheckpointCodec] [DurationCodec] in
theorem isNodeId_longNodeId : IsNodeId longNodeId := by
  refine ⟨fun hempty => ?_, validateNodeId_eq_ok.mpr ?_⟩
  · have hchars := congrArg String.toList hempty
    rw [longNodeId, String.toList_ofList, List.replicate_succ] at hchars
    cases hchars
  · rw [longNodeId, String.toList_ofList, List.all_replicate]
    rfl

omit [RecordCodec] [CheckpointCodec] [DurationCodec] in
theorem length_longNodeId : (utf8Bytes longNodeId).length = maxNodeIdLen + 1 := by
  rw [longNodeId, utf8Bytes, String.toByteArray_ofList, List.utf8Encode, List.data_toByteArray,
    List.flatMap_replicate]
  have hchar : (String.utf8EncodeChar 'a').length = 1 := rfl
  simp [hchar]

omit [RecordCodec] [CheckpointCodec] [DurationCodec] in
/-- On an empty directory only the configured node id is accepted. -/
theorem accepts_freshWorld {nodeId nodeId' : String} (h : IsNodeId nodeId) :
    Accepts (nonBlank (sampleSettings (some nodeId)).nodeId) freshWorld.dir nodeId' ↔
      nodeId' = nodeId := by
  have hconfigured : nonBlank (sampleSettings (some nodeId)).nodeId = some nodeId := h.nonBlank
  rw [hconfigured]
  constructor
  · rintro (⟨hpersisted, -, -⟩ | ⟨-, hsame, -⟩ | ⟨-, hnone, -⟩)
    · cases hpersisted
    · cases hsame
      rfl
    · cases hnone
  · rintro rfl
    exact .configured rfl rfl h.2

/-- **A first start with it fails**, though no operation does, and leaves the directory stuck. -/
theorem stuck_longNodeId (hparse : DurationsParse) :
    ∃ error w', (∀ mayFail, Starts mayFail (sampleSettings (some longNodeId)) freshWorld
      (.error error) w') ∧ Stuck w' := by
  have hlong : ¬OpensAs freshWorld.dir longNodeId := by
    rw [opensAs_fresh rfl rfl, length_longNodeId]
    omega
  obtain ⟨⟨result, ⟨⟩⟩, w', hruns⟩ : ∃ r w', ∀ mayFail, Runs (sysEnv mayFail)
      ((WalWriter.new (sampleSettings (some longNodeId)) :
        Sys Unit (WalWriterInner × WalWriterState)).start ()) freshWorld r w' :=
    ⟨_, _, fun mayFail => @runs_sysAnswer _ mayFail (fun _ => none) (fun _ h => absurd rfl h) _ _⟩
  have hend := wp_runs wpc_new (hruns fun _ => False)
  cases result with
  | ok r =>
    obtain ⟨haccepts, -, hopens, -⟩ := hend
    rw [(accepts_freshWorld isNodeId_longNodeId).mp haccepts] at hopens
    exact absurd hopens hlong
  | error error =>
    refine ⟨error, w', hruns, ?_⟩
    rcases hend with ⟨-, ⟨o, hmay⟩ | hnone⟩ | ⟨nodeId, haccepts, hopen⟩
    · exact hmay.elim
    · exact absurd ((accepts_freshWorld isNodeId_longNodeId).mpr rfl) (hnone longNodeId)
    · have hsame := (accepts_freshWorld isNodeId_longNodeId).mp haccepts
      subst hsame
      by_contra hnotStuck
      rw [not_stuck_of_persisted hparse (hopen.persistedNodeId isNodeId_longNodeId)] at hnotStuck
      rcases hopen.leaves with hdir | ⟨segments, hstale, -⟩ | ⟨hopens, -⟩
      · -- with a short node id the directory could be started
        rw [hdir, World.adopt_dir, fits_adopt] at hnotStuck
        have hshort : Openable freshWorld.dir :=
          ⟨"a", by decide +kernel, (opensAs_fresh rfl rfl).mpr (by decide +kernel)⟩
        exact hlong (hnotStuck hshort).2
      · rw [World.adopt_dir, staleRemoved_adopt] at hstale
        obtain ⟨-, segmentId, -, -, ⟨file, header, hlookup, -⟩, -⟩ := hstale
        cases hlookup
      · rw [World.adopt_dir, opensAs_adopt] at hopens
        exact hlong hopens

end Kept

end Codecs

section Sample

attribute [local instance] referenceCodec referenceCheckpointCodec referenceDurationCodec

theorem durationsParse_sample : DurationsParse := ⟨"1s", _, rfl⟩

/-- A first start with a short node id. -/
theorem nodeId_kept_iff_sample : NodeIdKept (sampleSettings (some "node-1")) freshWorld := by
  refine (nodeId_kept_iff durationsParse_sample _ _).mpr
    ((nodeIdSound_fresh rfl rfl rfl).mpr fun nodeId haccepts => ?_)
  rw [(accepts_freshWorld (by decide +kernel)).mp haccepts]
  decide +kernel

/-- **The node id is not always kept**: a first start with a node id that is too long fails, and
leaves it persisted. -/
theorem not_nodeId_kept :
    (∃ error w', Starts (fun _ => False) (sampleSettings (some longNodeId)) freshWorld
      (.error error) w' ∧ Stuck w') ∧
      ¬∀ (settings : WalSettings) (w : World), NodeIdKept settings w := by
  obtain ⟨error, w', hstarts, hstuck⟩ := stuck_longNodeId durationsParse_sample
  exact ⟨⟨error, w', hstarts _, hstuck⟩,
    fun hkept => (hkept _ _).recoverable error w' (hstarts _) hstuck⟩

end Sample

end Ingest4x.Wal
