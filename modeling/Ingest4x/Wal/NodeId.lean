import Ingest4x.Wal.Answer
import Ingest4x.Wal.Rules
import Mathlib

/-! # The node id of a directory

A start takes the node id that is persisted in the directory. Where none is, it persists the
configured one or a generated one, and only then looks at the rest of the directory.

* **`WalDir.persistedNodeId`** — the node id file, unless it is blank.
* **`Accepts`** — the node ids that `resolve_node_id` accepts, with `wpc_resolveNodeId` and
  `accepts_of_wpc`: it ends with one of these and persists it, and it may end with each of them.
* **`Writable`** — a node id that a segment header and a record frame can hold and give back, with
  `writable_iff`: one of at most 470 bytes. -/

namespace Ingest4x.Wal

open Bytes Effect

/-! ### Node ids -/

/-- A text, trimmed, unless it is blank. -/
def nonBlank (text : Option String) : Option String :=
  (text.map Text.trim).filter fun text => text ≠ ""

theorem nonBlank_def (text : Option String) :
    ((text.map Text.trim).filter fun text => text ≠ "") = nonBlank text := rfl

/-- **The persisted node id.** -/
def WalDir.persistedNodeId (dir : WalDir) : Option String := nonBlank dir.nodeIdFile

/-- **A node id**: not empty, and of the characters that `validate_node_id` allows. -/
def IsNodeId (nodeId : String) : Prop := nodeId ≠ "" ∧ validateNodeId nodeId = .ok ()

/-- The characters that `validate_node_id` allows. -/
def isNodeIdChar (c : Char) : Bool := c.isAlphanum || c == '_' || c == '-' || c == '.'

theorem validateNodeId_eq_ok {nodeId : String} :
    validateNodeId nodeId = .ok () ↔ nodeId.toList.all isNodeIdChar = true := by
  unfold validateNodeId isNodeIdChar
  split_ifs with hall <;> simp [hall]

instance (nodeId : String) : Decidable (IsNodeId nodeId) :=
  decidable_of_iff (nodeId ≠ "" ∧ nodeId.toList.all isNodeIdChar = true)
    (and_congr_right' validateNodeId_eq_ok.symm)

theorem nonBlank_eq_some {text : Option String} {nodeId : String} :
    nonBlank text = some nodeId ↔
      ∃ t, text = some t ∧ Text.trim t = nodeId ∧ nodeId ≠ "" := by
  unfold nonBlank
  rw [Option.filter_eq_some_iff]
  constructor
  · rintro ⟨hmap, hne⟩
    obtain ⟨t, ht, htrim⟩ := Option.map_eq_some_iff.mp hmap
    exact ⟨t, ht, htrim, of_decide_eq_true hne⟩
  · rintro ⟨t, rfl, rfl, hne⟩
    exact ⟨rfl, decide_eq_true hne⟩

/-- A configured node id that is valid is a node id. -/
theorem isNodeId_of_nonBlank {text : Option String} {nodeId : String}
    (h : nonBlank text = some nodeId) (hvalid : validateNodeId nodeId = .ok ()) :
    IsNodeId nodeId := by
  obtain ⟨-, -, -, hne⟩ := nonBlank_eq_some.mp h
  exact ⟨hne, hvalid⟩

/-- The characters of node ids are no white space. -/
theorem isWhitespace_of_nodeIdChar {c : Char} (h : isNodeIdChar c = true) :
    Text.isWhitespace c = false := by
  unfold isNodeIdChar at h
  simp only [Bool.or_eq_true, beq_iff_eq] at h
  unfold Text.isWhitespace
  rcases h with ((h | rfl) | rfl) | rfl
  · have hprintable : 33 ≤ c.val.toNat ∧ c.val.toNat < 127 := by
      simp only [Char.isAlphanum, Char.isAlpha, Char.isUpper, Char.isLower, Char.isDigit,
        Bool.or_eq_true, Bool.and_eq_true, decide_eq_true_eq, ge_iff_le, UInt32.le_iff_toNat_le,
        UInt32.reduceToNat, Char.reduceVal] at h
      omega
    have hval : c.toNat = c.val.toNat := rfl
    simp only [Bool.or_eq_false_iff, Bool.and_eq_false_iff, decide_eq_false_iff_not,
      beq_eq_false_iff_ne]
    omega
  all_goals decide

/-- What `write_node_id_file` writes reads back. -/
theorem IsNodeId.nonBlank_file {nodeId : String} (h : IsNodeId nodeId) :
    nonBlank (some (nodeId ++ "\n")) = some nodeId := by
  refine nonBlank_eq_some.mpr ⟨_, rfl, Text.trim_append_newline fun c hc => ?_, h.1⟩
  exact isWhitespace_of_nodeIdChar (List.all_eq_true.mp (validateNodeId_eq_ok.mp h.2) c hc)

/-- A generated node id is a node id. -/
theorem IsUuid.isNodeId {nodeId : String} (h : IsUuid nodeId) : IsNodeId nodeId := by
  refine ⟨?_, validateNodeId_eq_ok.mpr (List.all_eq_true.mpr fun c hc => ?_)⟩
  · rintro rfl
    cases h.1
  · unfold isNodeIdChar
    rcases h.2 c hc with hdigit | ⟨hge, hle⟩ | rfl
    · simp [Char.isAlphanum, hdigit]
    · have hlower : c.isLower = true := by
        unfold Char.isLower
        rw [Bool.and_eq_true, decide_eq_true_eq, decide_eq_true_eq]
        have hle : c.val ≤ 'f'.val := hle
        exact ⟨hge, UInt32.le_trans hle (by decide)⟩
      simp [Char.isAlphanum, Char.isAlpha, hlower]
    · rfl

/-- A character takes at most four bytes. -/
theorem length_utf8Bytes_le (s : String) : (utf8Bytes s).length ≤ 4 * s.toList.length := by
  obtain ⟨cs, rfl⟩ : ∃ cs, s = String.ofList cs := ⟨s.toList, String.ofList_toList.symm⟩
  rw [utf8Bytes, String.toByteArray_ofList, String.toList_ofList, List.utf8Encode,
    List.data_toByteArray]
  induction cs with
  | nil => exact le_rfl
  | cons c cs ih =>
    have hchar := Char.utf8Size_le_four c
    simp only [List.flatMap_cons, List.length_append, String.length_utf8EncodeChar,
      List.length_cons] at ih ⊢
    omega

/-! ### Resolving the node id -/

/-- **The node ids that `resolve_node_id` accepts**: the persisted one, if it is valid and the one
that is configured; without a node id file, the configured one; and without any, a generated one. -/
inductive Accepts (configured : Option String) (dir : WalDir) (nodeId : String) : Prop
  | persisted (h : dir.persistedNodeId = some nodeId) (hvalid : validateNodeId nodeId = .ok ())
      (hagrees : ∀ c ∈ configured, c = nodeId)
  | configured (h : dir.nodeIdFile = none) (hconfigured : configured = some nodeId)
      (hvalid : validateNodeId nodeId = .ok ())
  | generated (h : dir.persistedNodeId = none) (hconfigured : configured = none)
      (huuid : IsUuid nodeId)

theorem Accepts.isNodeId {configured : Option String} {dir : WalDir} {nodeId : String}
    (h : Accepts (nonBlank configured) dir nodeId) : IsNodeId nodeId := by
  cases h with
  | persisted h hvalid => exact isNodeId_of_nonBlank h hvalid
  | configured h hconfigured hvalid => exact isNodeId_of_nonBlank hconfigured hvalid
  | generated h hconfigured huuid => exact huuid.isNodeId

/-- Over a persisted node id no other one is accepted. -/
theorem Accepts.eq_of_persisted {configured : Option String} {dir : WalDir} {nodeId nodeId' : String}
    (h : Accepts configured dir nodeId') (hpersisted : dir.persistedNodeId = some nodeId) :
    nodeId' = nodeId := by
  cases h with
  | persisted h => exact Option.some_inj.mp (h.symm.trans hpersisted)
  | configured h =>
    unfold WalDir.persistedNodeId at hpersisted
    rw [h] at hpersisted
    cases hpersisted
  | generated h =>
    rw [h] at hpersisted
    cases hpersisted

/-- The directory with another node id file. -/
def WalDir.withNodeIdFile (dir : WalDir) (file : Option String) : WalDir :=
  { dir with nodeIdFile := file }

@[simp] theorem WalDir.withNodeIdFile_nodeIdFile (dir : WalDir) (file : Option String) :
    (dir.withNodeIdFile file).nodeIdFile = file := rfl

/-- **The directory after a node id was accepted**: it is persisted. -/
def WalDir.adopt (dir : WalDir) (nodeId : String) : WalDir :=
  if dir.persistedNodeId = some nodeId then dir else dir.withNodeIdFile (some (nodeId ++ "\n"))

/-- A persisted node id stays as it is. -/
theorem WalDir.adopt_of_persisted {dir : WalDir} {nodeId : String}
    (h : dir.persistedNodeId = some nodeId) : dir.adopt nodeId = dir := if_pos h

theorem WalDir.adopt_of_none {dir : WalDir} {nodeId : String} (h : dir.persistedNodeId = none) :
    dir.adopt nodeId = dir.withNodeIdFile (some (nodeId ++ "\n")) := by
  unfold WalDir.adopt
  rw [h, if_neg (by simp)]

/-- An accepted node id is persisted. -/
theorem WalDir.persistedNodeId_adopt (dir : WalDir) {nodeId : String} (h : IsNodeId nodeId) :
    (dir.adopt nodeId).persistedNodeId = some nodeId := by
  unfold WalDir.adopt
  split_ifs with hpersisted
  · exact hpersisted
  · exact h.nonBlank_file

/-- The world after a node id was accepted. -/
def World.adopt (w : World) (nodeId : String) : World := { w with dir := w.dir.adopt nodeId }

@[simp] theorem World.adopt_dir (w : World) (nodeId : String) :
    (w.adopt nodeId).dir = w.dir.adopt nodeId := rfl

/-- A persisted node id stays as it is. -/
theorem World.adopt_of_persisted (w : World) {nodeId : String}
    (h : w.dir.persistedNodeId = some nodeId) : w.adopt nodeId = w := by
  unfold World.adopt
  rw [WalDir.adopt_of_persisted h]

/-- A directory without a node id file has no persisted node id. -/
theorem WalDir.persistedNodeId_of_none {dir : WalDir} (h : dir.nodeIdFile = none) :
    dir.persistedNodeId = none := by
  unfold WalDir.persistedNodeId
  rw [h]
  rfl

/-- **The node id file is written only where no node id is persisted.** -/
def WritesOnce (o : SysOp) (w : World) : Prop :=
  ∀ nodeId, o = .writeNodeIdFile nodeId → w.dir.persistedNodeId = none

section Resolve

variable {τ : Type} {mayFail : SysOp → Prop} {configured : Option String} {t : τ} {w : World}

/-- Persisting a node id where none is persisted. -/
theorem wpc_persist {P : SysOp → World → Prop} {Q : Unit → τ → World → Prop}
    {E : IoError → τ → World → Prop} {nodeId : String} (hnone : w.dir.persistedNodeId = none) :
    wpc (sysEnv mayFail) P (fileOp (sys (.writeNodeIdFile nodeId))) Q E t w ↔
      P (.writeNodeIdFile nodeId) w ∧ Q () t (w.adopt nodeId) ∧
        (mayFail (.writeNodeIdFile nodeId) → ∀ e, E e t w ∧ E e t (w.adopt nodeId)) := by
  rw [wpc_writeNodeIdFile, World.adopt, WalDir.adopt_of_none hnone]
  exact Iff.rfl

/-- How `resolve_node_id` fails: something else does, or it accepts no node id. Until then it may
have persisted one that it would accept. -/
def ResolveFails (mayFail : SysOp → Prop) (configured : Option String) (w w' : World) : Prop :=
  (w' = w ∨ ∃ nodeId, Accepts configured w.dir nodeId ∧ w' = w.adopt nodeId) ∧
    ((∃ o, mayFail o) ∨ ∀ nodeId, ¬Accepts configured w.dir nodeId)

/-- A generated node id. -/
theorem wpc_newNodeId (hnone : w.dir.persistedNodeId = none) :
    wpc (sysEnv mayFail) WritesOnce (newNodeId : Sys τ String)
      (fun nodeId _ w' => Accepts none w.dir nodeId ∧ w' = w.adopt nodeId)
      (fun _ _ w' => ResolveFails mayFail none w w') t w := by
  unfold newNodeId
  rw [wpc_bind, wpc_perform]
  refine ⟨by rintro _ ⟨⟩, ?_⟩
  rintro nodeId w' ⟨rfl, huuid⟩
  have haccepts : Accepts none w'.dir nodeId := .generated hnone rfl huuid
  rw [wpc_bind, wpc_persist hnone]
  refine ⟨fun _ _ => hnone, ⟨haccepts, rfl⟩, fun hmay _ => ?_⟩
  exact ⟨⟨Or.inl rfl, Or.inl ⟨_, hmay⟩⟩, ⟨Or.inr ⟨nodeId, haccepts, rfl⟩, Or.inl ⟨_, hmay⟩⟩⟩

/-- **`resolve_node_id`** ends with a node id that it accepts, and persists it. -/
theorem wpc_resolveNodeId :
    wpc (sysEnv mayFail) WritesOnce (resolveNodeId configured)
      (fun nodeId _ w' => Accepts (nonBlank configured) w.dir nodeId ∧ w' = w.adopt nodeId)
      (fun _ _ w' => ResolveFails mayFail (nonBlank configured) w w') t w := by
  unfold resolveNodeId
  rw [wpc_bind, wpc_readDir]
  refine ⟨by rintro _ ⟨⟩, ?_, fun hmay _ => ⟨Or.inl rfl, Or.inl ⟨_, hmay⟩⟩⟩
  rw [nonBlank_def]
  cases hconfigured : nonBlank configured with
  | some c =>
    rw [wpc_bind, wpc_ofExcept]
    refine ⟨fun _ hvalid => ?_, fun e hinvalid => ⟨Or.inl rfl, Or.inr fun nodeId haccepts => ?_⟩⟩
    · cases hfile : w.dir.nodeIdFile with
      | none =>
        have hnone := WalDir.persistedNodeId_of_none hfile
        have haccepts : Accepts (some c) w.dir c := .configured hfile rfl hvalid
        rw [wpc_bind, wpc_persist hnone]
        refine ⟨fun _ _ => hnone, ⟨haccepts, rfl⟩, fun hmay _ => ?_⟩
        exact ⟨⟨Or.inl rfl, Or.inl ⟨_, hmay⟩⟩, ⟨Or.inr ⟨c, haccepts, rfl⟩, Or.inl ⟨_, hmay⟩⟩⟩
      | some text =>
        show wpc _ _ (if Text.trim text ≠ c then _ else _) _ _ _ _
        rcases eq_or_ne (Text.trim text) c with hagrees | hagrees
        · -- the configured node id is the persisted one
          rw [if_neg (not_not.mpr hagrees)]
          have hne := (isNodeId_of_nonBlank hconfigured hvalid).1
          have hpersisted : w.dir.persistedNodeId = some c :=
            nonBlank_eq_some.mpr ⟨text, hfile, hagrees, hne⟩
          rw [wpc_pure]
          refine ⟨.persisted hpersisted hvalid ?_, (w.adopt_of_persisted hpersisted).symm⟩
          rintro _ ⟨⟩
          rfl
        · rw [if_pos hagrees, wpc_throw]
          refine ⟨Or.inl rfl, Or.inr fun nodeId haccepts => hagrees ?_⟩
          cases haccepts with
          | persisted hpersisted _ hsame =>
            obtain ⟨text', hfile', htrim, -⟩ := nonBlank_eq_some.mp hpersisted
            rw [hfile] at hfile'
            cases hfile'
            exact htrim.trans (hsame c rfl).symm
          | configured hnone => rw [hfile] at hnone; cases hnone
          | generated _ hnone => cases hnone
    · cases haccepts with
      | persisted _ hvalid hsame =>
        rw [hsame c rfl, hvalid] at hinvalid
        cases hinvalid
      | configured _ hsame hvalid =>
        cases hsame
        rw [hvalid] at hinvalid
        cases hinvalid
      | generated _ hnone => cases hnone
  | none =>
    cases hfile : w.dir.nodeIdFile with
    | none => exact wpc_newNodeId (WalDir.persistedNodeId_of_none hfile)
    | some text =>
      show wpc _ _ (if Text.trim text ≠ "" then _ else _) _ _ _ _
      rcases eq_or_ne (Text.trim text) "" with hblank | hblank
      · rw [if_neg (not_not.mpr hblank)]
        refine wpc_newNodeId ?_
        unfold WalDir.persistedNodeId nonBlank
        rw [hfile, Option.map_some, hblank]
        rfl
      · rw [if_pos hblank]
        have hpersisted : w.dir.persistedNodeId = some (Text.trim text) :=
          nonBlank_eq_some.mpr ⟨text, hfile, rfl, hblank⟩
        rw [wpc_bind, wpc_ofExcept]
        refine ⟨fun _ hvalid => ?_, fun e hinvalid => ⟨Or.inl rfl, Or.inr fun nodeId haccepts => ?_⟩⟩
        · refine ⟨.persisted hpersisted hvalid ?_, (w.adopt_of_persisted hpersisted).symm⟩
          rintro _ ⟨⟩
        · cases haccepts with
          | persisted hsame hvalid =>
            rw [hpersisted] at hsame
            cases hsame
            rw [hvalid] at hinvalid
            cases hinvalid
          | configured hnone => rw [hfile] at hnone; cases hnone
          | generated hnone =>
            rw [hpersisted] at hnone
            cases hnone

/-- **Every accepted node id is a possible outcome** of `resolve_node_id`. -/
theorem accepts_of_wpc {P : SysOp → World → Prop} {Q : String → τ → World → Prop}
    {E : IoError → τ → World → Prop}
    (h : wpc (sysEnv mayFail) P (resolveNodeId configured) Q E t w) {nodeId : String}
    (haccepts : Accepts (nonBlank configured) w.dir nodeId) : Q nodeId t (w.adopt nodeId) := by
  unfold resolveNodeId at h
  rw [wpc_bind, wpc_readDir] at h
  replace h := h.2.1
  rw [nonBlank_def] at h
  cases haccepts with
  | persisted hpersisted hvalid hagrees =>
    obtain ⟨text, hfile, rfl, hne⟩ := nonBlank_eq_some.mp hpersisted
    rw [w.adopt_of_persisted hpersisted]
    cases hconfigured : nonBlank configured with
    | some c =>
      cases hagrees c hconfigured
      rw [hconfigured, wpc_bind, hvalid, wpc_ofExcept_ok, hfile] at h
      change wpc _ _ (if Text.trim text ≠ Text.trim text then _ else _) _ _ _ _ at h
      rwa [if_neg (not_not.mpr rfl)] at h
    | none =>
      rw [hconfigured, hfile] at h
      change wpc _ _ (if Text.trim text ≠ "" then _ else _) _ _ _ _ at h
      rwa [if_pos hne, wpc_bind, hvalid] at h
  | configured hfile hconfigured hvalid =>
    have hnone := WalDir.persistedNodeId_of_none hfile
    rw [hconfigured, wpc_bind, hvalid, wpc_ofExcept_ok, hfile, wpc_bind, wpc_persist hnone] at h
    exact h.2.1
  | generated hnone hconfigured huuid =>
    have hnew : wpc (sysEnv mayFail) P (newNodeId : Sys τ String) Q E t w := by
      rw [hconfigured] at h
      cases hfile : w.dir.nodeIdFile with
      | none => rwa [hfile] at h
      | some text =>
        rw [hfile] at h
        change wpc _ _ (if Text.trim text ≠ "" then _ else _) _ _ _ _ at h
        by_cases hblank : Text.trim text = ""
        · rwa [if_neg (not_not.mpr hblank)] at h
        · have hpersisted : w.dir.persistedNodeId = some (Text.trim text) :=
            nonBlank_eq_some.mpr ⟨text, hfile, rfl, hblank⟩
          rw [hnone] at hpersisted
          cases hpersisted
    unfold newNodeId at hnew
    rw [wpc_bind, wpc_perform] at hnew
    have hpersist := hnew.2 nodeId w ⟨rfl, huuid⟩
    rw [wpc_bind, wpc_persist hnone] at hpersist
    exact hpersist.2.1

end Resolve

/-! ### Writing the node id -/

/-- The longest node id that a segment header can hold, in bytes. -/
def maxNodeIdLen : Nat := segmentHeaderCrcOffset - segmentNodeIdOffset

section Writable

variable [RecordCodec]

/-- **A node id that can be written and read back**, in a segment header and in the frame of a record
whose payload has a length. -/
structure Writable (nodeId : String) : Prop where
  header : ∀ segmentId startLsn nowMs, ∃ header,
    serializeSegmentHeader segmentId nodeId startLsn nowMs = .ok header ∧
      ∀ path rest, readSegmentHeader path (header ++ rest) = .ok (⟨segmentId, startLsn, nodeId⟩, rest)
  frame : ∀ (record : WalRecord) (payload : Bytes), record.nodeId = nodeId →
    RecordCodec.serialize record = .ok payload → payload.length < 2 ^ 32 →
      ∃ frame, serializeFrame record = .ok frame ∧ ∀ path frameStart rest,
        readRecordFrame path frameStart (frame ++ rest) =
          .ok (some (record, frameStart + frame.length, rest))

/-- **The header is the tighter of the two limits.** -/
theorem writable_iff {nodeId : String} :
    Writable nodeId ↔ (utf8Bytes nodeId).length ≤ maxNodeIdLen := by
  constructor
  · intro h
    obtain ⟨header, hheader, -⟩ := h.header 0 0 0
    exact (serializeSegmentHeader_eq_ok hheader).1
  · intro hlen
    refine ⟨fun segmentId startLsn nowMs => ?_, fun record payload hnode hserialize hpayload => ?_⟩
    · obtain ⟨header, hheader⟩ := serializeSegmentHeader_of_length hlen segmentId startLsn nowMs
      exact ⟨header, hheader, fun path rest => readSegmentHeader_append path hheader rest⟩
    · have hframe := serializeFrame_of_payload hserialize hpayload (by
        rw [hnode]
        unfold maxNodeIdLen segmentHeaderCrcOffset segmentNodeIdOffset at hlen
        unfold recordHeaderFixedLen
        omega)
      exact ⟨_, hframe, fun path frameStart rest =>
        readRecordFrame_frame path frameStart ⟨record, _, hframe⟩ rest⟩

end Writable

/-- A generated node id can be written. -/
theorem IsUuid.length_le {nodeId : String} (h : IsUuid nodeId) :
    (utf8Bytes nodeId).length ≤ maxNodeIdLen := by
  have hle := length_utf8Bytes_le nodeId
  rw [h.1] at hle
  exact hle.trans (by decide)

end Ingest4x.Wal
