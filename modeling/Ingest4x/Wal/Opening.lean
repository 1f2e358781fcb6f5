import Ingest4x.Wal.Recovery

/-! # Opening the log

The part of a start after the node id is resolved: it opens the active segment or creates it, and cuts
its torn end.

* **`StaleRemoved`** — the one thing it can leave that need not open any more: the last segment is
  removed because its start LSN is stale, and is not created again.
* **`openWal`** — the part of `WalWriter::new`, with `wpc_openWal`: what its outcomes leave. -/

namespace Ingest4x.Wal

open Bytes Effect

variable [RecordCodec] [CheckpointCodec]

/-! ### Opening the active segment -/

omit [CheckpointCodec] in
/-- A node id that was read from a header can be written in one. -/
theorem length_nodeId_of_readSegmentHeader {path : String} {file rest : Bytes}
    {header : SegmentHeader} (h : readSegmentHeader path file = .ok (header, rest)) :
    (utf8Bytes header.nodeId).length ≤ maxNodeIdLen := by
  unfold readSegmentHeader at h
  split at h
  · cases h
  split at h
  · cases h
  rename_i header' hheader
  cases h
  unfold parseSegmentHeader at hheader
  simp only at hheader
  split_ifs at hheader with _ _ _ _ hend
  split at hheader
  · cases hheader
  rename_i nodeId hutf8
  cases hheader
  rw [utf8Bytes_of_utf8OfBytes hutf8, length_slice]
  unfold maxNodeIdLen
  omega

omit [CheckpointCodec] in
/-- **A stale last segment**: only a header, with another start LSN than the next one. -/
def Stale (dir : WalDir) (nodeId : String) (segmentId nextLsn : Nat) : Prop :=
  ∃ file header, dir.segments.lookup segmentId = some file ∧
    HeaderFits dir.path nodeId segmentId file header ∧
    file.bytes.length = segmentHeaderLen ∧ header.startLsn ≠ UInt64.ofNat nextLsn

/-- **The segments without the stale one**, which a start removes to create it again. -/
def StaleRemoved (dir : WalDir) (nodeId : String) (segments : SortedTable Nat SegmentFile) : Prop :=
  ∃ checkpoint segmentId nextLsn, Recovers dir nodeId checkpoint segmentId nextLsn ∧
    Stale dir nodeId segmentId nextLsn ∧ segments = dir.segments.erase segmentId

/-- What is stale does not depend on the node id file. -/
theorem staleRemoved_adopt {dir : WalDir} {nodeId other : String}
    {segments : SortedTable Nat SegmentFile} :
    StaleRemoved (dir.adopt other) nodeId segments ↔ StaleRemoved dir nodeId segments := by
  have hsame : (dir.adopt other).segments = dir.segments ∧ (dir.adopt other).path = dir.path := by
    unfold WalDir.adopt
    split_ifs <;> exact ⟨rfl, rfl⟩
  unfold StaleRemoved Stale
  simp only [recovers_adopt, hsame.1, hsame.2]

section Specs

variable {τ : Type} {mayFail : SysOp → Prop} {t : τ} {w : World} {nodeId : String}
  {segmentId nextLsn : Nat}

omit [CheckpointCodec] in
/-- `create_segment_file` fails if something else does or the node id is too long; it may have
created the segment. -/
theorem wpc_createSegmentFile (site : Site) (startLsn : Nat) :
    wpc (sysEnv mayFail) WritesOnce (createSegmentFile site segmentId nodeId startLsn)
      (fun _ _ w' => ∃ nowMs header,
        serializeSegmentHeader (UInt64.ofNat segmentId) nodeId (UInt64.ofNat startLsn) nowMs =
          .ok header ∧ w' = w.withSegments (w.dir.segments.insert segmentId (.created header)))
      (fun _ _ w' => (w' = w ∨ ∃ nowMs header,
        serializeSegmentHeader (UInt64.ofNat segmentId) nodeId (UInt64.ofNat startLsn) nowMs =
          .ok header ∧ w' = w.withSegments (w.dir.segments.insert segmentId (.created header))) ∧
        ((∃ o, mayFail o) ∨ maxNodeIdLen < (utf8Bytes nodeId).length)) t w := by
  rw [createSegmentFile, wpc_bind, wpc_perform]
  refine ⟨by rintro _ ⟨⟩, ?_⟩
  rintro nowMs w' rfl
  rw [wpc_bind, wpc_ofExcept]
  refine ⟨fun header hheader => ?_, fun e herror => ⟨Or.inl rfl, Or.inr ?_⟩⟩
  · rw [wpc_createSegment]
    refine ⟨by rintro _ ⟨⟩, ⟨nowMs, header, hheader, rfl⟩, fun hmay _ => ?_⟩
    exact ⟨⟨Or.inl rfl, Or.inl ⟨_, hmay⟩⟩,
      ⟨Or.inr ⟨nowMs, header, hheader, rfl⟩, Or.inl ⟨_, hmay⟩⟩⟩
  · by_contra hlen
    obtain ⟨header, hheader⟩ := serializeSegmentHeader_of_length (not_lt.mp hlen)
      (UInt64.ofNat segmentId) (UInt64.ofNat startLsn) nowMs
    rw [hheader] at herror
    cases herror

/-- The world with segments among which the active one is open. -/
def OpenedIn (w : World) (nodeId : String) (segmentId : Nat) (w' : World) : Prop :=
  ActiveFits w.dir nodeId segmentId ∧
    ∃ segments, w' = w.withSegments segments ∧ SegmentsOpen w.dir nodeId segmentId segments

/-- The active segment is created among segments of the directory. It may be created although the
creation fails. -/
theorem wpc_createSegmentFile_active {checkpoint : Option WalCheckpoint}
    (h : Recovers w.dir nodeId checkpoint segmentId nextLsn) {segments : SortedTable Nat SegmentFile}
    (hsegments : ∀ row ∈ segments.entries, row ∈ w.dir.segments.entries)
    (hfit : (utf8Bytes nodeId).length ≤ maxNodeIdLen → ActiveFits w.dir nodeId segmentId) :
    wpc (sysEnv mayFail) WritesOnce (createSegmentFile .start segmentId nodeId nextLsn)
      (fun _ _ w' => OpenedIn w nodeId segmentId w')
      (fun _ _ w' => (w' = w.withSegments segments ∨ OpenedIn w nodeId segmentId w') ∧
        ((∃ o, mayFail o) ∨ maxNodeIdLen < (utf8Bytes nodeId).length)) t
      (w.withSegments segments) := by
  have hopened : ∀ nowMs header, serializeSegmentHeader (UInt64.ofNat segmentId) nodeId
      (UInt64.ofNat nextLsn) nowMs = .ok header →
      OpenedIn w nodeId segmentId
        (w.withSegments (segments.insert segmentId (.created header))) := by
    intro nowMs header hheader
    exact ⟨hfit (serializeSegmentHeader_eq_ok hheader).1, _, rfl,
      h.segmentsOpen_insert hsegments hheader⟩
  refine wpc_imp (wpc_createSegmentFile .start nextLsn) ?_ ?_
  · rintro _ _ _ ⟨nowMs, header, hheader, rfl⟩
    exact hopened nowMs header hheader
  · rintro _ _ _ ⟨rfl | ⟨nowMs, header, hheader, rfl⟩, hreason⟩
    · exact ⟨Or.inl rfl, hreason⟩
    · exact ⟨Or.inr (hopened nowMs header hheader), hreason⟩

/-- **`ensure_segment_file` of a start** opens the active segment. Where it fails, something else
does or the segment does not fit the node id; it may have opened it, or removed a stale one. -/
theorem wpc_ensureSegmentFile_start {checkpoint : Option WalCheckpoint}
    (h : Recovers w.dir nodeId checkpoint segmentId nextLsn) :
    wpc (sysEnv mayFail) WritesOnce (ensureSegmentFile .start segmentId nodeId nextLsn)
      (fun _ _ w' => OpenedIn w nodeId segmentId w')
      (fun _ _ w' => (w' = w ∨
          (Stale w.dir nodeId segmentId nextLsn ∧
            w' = w.withSegments (w.dir.segments.erase segmentId)) ∨
          OpenedIn w nodeId segmentId w') ∧
        ((∃ o, mayFail o) ∨ ¬ActiveFits w.dir nodeId segmentId)) t w := by
  unfold ensureSegmentFile
  rw [wpc_bind, wpc_readDir]
  refine ⟨by rintro _ ⟨⟩, ?_, fun hmay _ => ⟨Or.inl rfl, Or.inl ⟨_, hmay⟩⟩⟩
  cases hlookup : w.dir.segments.lookup segmentId with
  | none =>
    -- there is no active segment
    have hfits : ActiveFits w.dir nodeId segmentId ↔ (utf8Bytes nodeId).length ≤ maxNodeIdLen := by
      unfold ActiveFits
      rw [hlookup]
    have hsegments : ∀ row ∈ w.dir.segments.entries, row ∈ w.dir.segments.entries :=
      fun _ hrow => hrow
    refine wpc_imp (wpc_createSegmentFile_active h hsegments hfits.mpr)
      (fun _ _ _ hopened => hopened) ?_
    rintro _ _ _ ⟨hleaves, hreason⟩
    refine ⟨hleaves.imp_right Or.inr, hreason.imp_right fun hlong hfit => ?_⟩
    exact absurd (hfits.mp hfit) (not_le.mpr hlong)
  | some file =>
    have hfits : ActiveFits w.dir nodeId segmentId ↔
        ∃ header, HeaderFits w.dir.path nodeId segmentId file header := by
      unfold ActiveFits
      rw [hlookup]
    have hfails : (¬∃ header, HeaderFits w.dir.path nodeId segmentId file header) →
        (w = w ∨ (Stale w.dir nodeId segmentId nextLsn ∧
            w = w.withSegments (w.dir.segments.erase segmentId)) ∨
          OpenedIn w nodeId segmentId w) ∧
        ((∃ o, mayFail o) ∨ ¬ActiveFits w.dir nodeId segmentId) := fun hnot =>
      ⟨Or.inl rfl, Or.inr fun hfit => hnot (hfits.mp hfit)⟩
    rw [wpc_bind, wpc_ofExcept]
    refine ⟨?_, fun e herror => hfails ?_⟩
    · rintro ⟨header, rest⟩ hheader
      have hread : ∀ header', HeaderFits w.dir.path nodeId segmentId file header' →
          header' = header := by
        rintro header' ⟨⟨rest', hreads⟩, -, -⟩
        rw [hheader] at hreads
        cases hreads
        rfl
      by_cases hid : header.segmentId = UInt64.ofNat segmentId
      swap
      · simp only [if_pos hid]
        refine hfails ?_
        rintro ⟨header', hheader'⟩
        exact hid (hread _ hheader' ▸ hheader'.segmentId)
      by_cases hnode : header.nodeId = nodeId
      swap
      · simp only [if_neg (not_not.mpr hid), if_pos hnode]
        refine hfails ?_
        rintro ⟨header', hheader'⟩
        exact hnode (hread _ hheader' ▸ hheader'.nodeId)
      have hheaderFits : HeaderFits w.dir.path nodeId segmentId file header := ⟨⟨rest, hheader⟩, hid, hnode⟩
      have hfit : ActiveFits w.dir nodeId segmentId := hfits.mpr ⟨header, hheaderFits⟩
      simp only [if_neg (not_not.mpr hid), if_neg (not_not.mpr hnode)]
      by_cases hstale : file.bytes.length = segmentHeaderLen ∧
          header.startLsn ≠ UInt64.ofNat nextLsn
      · -- the stale segment is removed and created again
        rw [if_pos hstale, wpc_bind, wpc_removeSegment (by rw [hlookup]; exact Option.some_ne_none _)]
        refine ⟨by rintro _ ⟨⟩, ?_, fun hmay _ => ⟨Or.inl rfl, Or.inl ⟨_, hmay⟩⟩⟩
        have hremoved : Stale w.dir nodeId segmentId nextLsn :=
          ⟨file, header, hlookup, hheaderFits, hstale⟩
        rw [wpc_bind, wpc_syncDirectory]
        refine ⟨by rintro _ ⟨⟩, ?_, fun hmay _ =>
          ⟨Or.inr (Or.inl ⟨hremoved, rfl⟩), Or.inl ⟨_, hmay⟩⟩⟩
        have hlen := length_nodeId_of_readSegmentHeader hheader
        rw [hnode] at hlen
        have hsegments : ∀ row ∈ (w.dir.segments.erase segmentId).entries,
            row ∈ w.dir.segments.entries := by
          intro row hrow
          rw [SortedTable.entries_erase] at hrow
          exact List.mem_of_mem_filter hrow
        refine wpc_imp (wpc_createSegmentFile_active h hsegments fun _ => hfit)
          (fun _ _ _ hopened => hopened) ?_
        rintro _ _ _ ⟨rfl | hopened, hreason⟩
        · exact ⟨Or.inr (Or.inl ⟨hremoved, rfl⟩),
            hreason.imp_right fun hlong => absurd hlen (not_le.mpr hlong)⟩
        · exact ⟨Or.inr (Or.inr hopened),
            hreason.imp_right fun hlong => absurd hlen (not_le.mpr hlong)⟩
      · rw [if_neg hstale]
        exact ⟨hfit, w.dir.segments, rfl, h.ids, h.rows, file, header, hlookup, hheaderFits⟩
    · rintro ⟨header, ⟨rest, hreads⟩, -, -⟩
      rw [hreads] at herror
      cases herror

omit [CheckpointCodec] in
/-- **The repair of an active segment that is open** leaves it open. -/
theorem wpc_repairSegmentTailFile {w₁ : World} (hopened : OpenedIn w nodeId segmentId w₁) :
    wpc (sysEnv mayFail) WritesOnce (repairSegmentTailFile segmentId)
      (fun _ _ w' => OpenedIn w nodeId segmentId w')
      (fun _ _ w' => OpenedIn w nodeId segmentId w' ∧ ∃ o, mayFail o) t w₁ := by
  obtain ⟨hfit, segments, rfl, hopen⟩ := hopened
  obtain ⟨file, header, hlookup, hheader⟩ := hopen.active
  have hstays : OpenedIn w nodeId segmentId (w.withSegments segments) := ⟨hfit, _, rfl, hopen⟩
  obtain ⟨records, hrecords, -⟩ := hopen.rows _ (SortedTable.lookup_eq_some.mp hlookup)
  unfold repairSegmentTailFile
  rw [wpc_bind, wpc_readDir]
  refine ⟨by rintro _ ⟨⟩, ?_, fun hmay _ => ⟨hstays, _, hmay⟩⟩
  simp only [World.withSegments_dir, WalDir.withSegments_segments, hlookup]
  rw [wpc_bind, wpc_ofExcept]
  refine ⟨fun scan hscan => ?_, fun e herror => ?_⟩
  · have hcut : ∀ f : SegmentFile → SegmentFile,
        (f file).bytes = setLen scan.validOffset file.bytes →
        OpenedIn w nodeId segmentId (w.withSegments (segments.modify segmentId f)) :=
      fun f hf => ⟨hfit, _, rfl, hopen.modify hlookup hscan hf⟩
    rw [wpc_bind, wpc_truncateSegment (by
      rw [World.withSegments_dir, WalDir.withSegments_segments, hlookup]
      exact Option.some_ne_none _)]
    refine ⟨by rintro _ ⟨⟩, hcut _ rfl, fun hmay _ => ⟨⟨hstays, _, hmay⟩, ⟨hcut _ rfl, _, hmay⟩⟩⟩
  · have herror : scanSegment (segmentPath w.dir.path segmentId) segmentId file.bytes = .error e :=
      herror
    simp only [readSegmentRecords, herror] at hrecords
    cases hrecords

/-- The settings with which nothing but the directory can make a start fail. -/
def Undemanding [DurationCodec] (settings : WalSettings) : Prop :=
  settings.write.minFreeBytes = 0 ∧
    ∃ interval, DurationCodec.parseDuration settings.write.flushInterval = .ok interval

omit [RecordCodec] [CheckpointCodec] in
/-- The check of the free space changes nothing. -/
theorem wpc_ensureWalDiskSpace_start {minFreeBytes estimated : Nat} :
    wpc (sysEnv mayFail) WritesOnce (ensureWalDiskSpace minFreeBytes estimated)
      (fun _ _ w' => w' = w) (fun _ _ w' => w' = w ∧ minFreeBytes ≠ 0) t w := by
  unfold ensureWalDiskSpace
  rw [wpc_ite]
  refine ⟨fun _ => rfl, fun hne => ?_⟩
  rw [wpc_bind, fileOp, wpc_orThrow, wpc_perform]
  refine ⟨by rintro _ ⟨⟩, ?_⟩
  rintro r w' ⟨rfl, -⟩
  refine ⟨fun available _ => ?_, fun _ _ => ⟨rfl, hne⟩⟩
  rw [wpc_ite]
  exact ⟨fun _ => ⟨rfl, hne⟩, fun _ => rfl⟩

/-! ### The rest of a start -/

variable [DurationCodec] {settings : WalSettings}

/-- The part of **`WalWriter::new`** after the node id is resolved. -/
def openWal (settings : WalSettings) (nodeId : String) :
    Sys τ (WalWriterInner × WalWriterState) := do
  let dir ← readDir
  let checkpoint ← (MonadExcept.ofExcept (readPipelineCheckpoint dir nodeId) :
    Sys τ (Option WalCheckpoint))
  let segmentId := recoverActiveSegmentId dir checkpoint
  (if 2 ^ 64 ≤ segmentId then throw (.other "attempt to add with overflow") else pure ())
  let nextLsn ← (MonadExcept.ofExcept (recoverNextLsn dir checkpoint) : Sys τ Nat)
  (if 2 ^ 64 ≤ nextLsn then throw (.other "attempt to add with overflow") else pure ())
  ensureSegmentFile .start segmentId nodeId nextLsn
  let offset ← repairSegmentTailFile segmentId
  ensureWalDiskSpace settings.write.minFreeBytes 0
  match DurationCodec.parseDuration settings.write.flushInterval with
  | .error error => throw (.invalidInput s!"invalid wal.write.flush_interval: {error}")
  | .ok flushInterval =>
    pure ({
      nodeId := nodeId
      segmentMaxBytes := max settings.write.segmentMaxBytes (segmentHeaderLen + 1)
      flushInterval := max flushInterval millisecond
      flushRecords := max settings.write.flushRecords 1
      noSync := settings.write.noSync
      minFreeBytes := settings.write.minFreeBytes },
      { segmentId := segmentId
        offset := offset
        nextLsn := nextLsn
        buffered := [] })

theorem WalWriter.new_eq (settings : WalSettings) :
    (WalWriter.new settings : Sys τ (WalWriterInner × WalWriterState)) = (do
      fileOp (sys .createDirAll)
      fileOp (sys .acquireWalLock)
      let nodeId ← resolveNodeId settings.nodeId
      openWal settings nodeId) := rfl

/-- **How the rest of a start fails**: it leaves the directory as it was, or without the stale
segment, or open; and if the directory opens under the node id, something else failed. -/
structure OpenFails (mayFail : SysOp → Prop) (settings : WalSettings) (nodeId : String)
    (w w' : World) : Prop where
  nodeIdFile : w'.dir.nodeIdFile = w.dir.nodeIdFile
  leaves : w'.dir = w.dir ∨
    (∃ segments, StaleRemoved w.dir nodeId segments ∧ w'.dir = w.dir.withSegments segments) ∨
    (OpensAs w.dir nodeId ∧ OpensAs w'.dir nodeId)
  reason : OpensAs w.dir nodeId → (∃ o, mayFail o) ∨ ¬Undemanding settings

omit [DurationCodec] in
/-- What is recovered is determined by the directory and the node id. -/
theorem Recovers.unique {dir : WalDir} {checkpoint checkpoint' : Option WalCheckpoint}
    {segmentId' nextLsn' : Nat} (h : Recovers dir nodeId checkpoint segmentId nextLsn)
    (h' : Recovers dir nodeId checkpoint' segmentId' nextLsn') :
    checkpoint = checkpoint' ∧ segmentId = segmentId' ∧ nextLsn = nextLsn' := by
  have hcheckpoint : checkpoint = checkpoint' := by
    have heq := h.reads.symm.trans h'.reads
    injection heq
  subst hcheckpoint
  have hnext : nextLsn = nextLsn' := by
    have heq := h.next.symm.trans h'.next
    injection heq
  exact ⟨rfl, h.active.symm.trans h'.active, hnext⟩

omit [DurationCodec] in
/-- **With the active segment open** the directory opens, as it did. -/
theorem OpenedIn.opensAs {checkpoint : Option WalCheckpoint} {w' : World}
    (hopened : OpenedIn w nodeId segmentId w')
    (h : Recovers w.dir nodeId checkpoint segmentId nextLsn) :
    w'.dir.nodeIdFile = w.dir.nodeIdFile ∧ OpensAs w.dir nodeId ∧ OpensAs w'.dir nodeId := by
  obtain ⟨hfit, segments, rfl, hopen⟩ := hopened
  exact ⟨rfl, ⟨checkpoint, segmentId, nextLsn, h, hfit⟩, h.opensAs hopen⟩

/-- **The rest of a start** succeeds only where the directory opens under the node id. -/
theorem wpc_openWal :
    wpc (sysEnv mayFail) WritesOnce (openWal settings nodeId)
      (fun r _ w' => r.1.nodeId = nodeId ∧ w'.dir.nodeIdFile = w.dir.nodeIdFile ∧
        OpensAs w.dir nodeId ∧
        ∃ interval, DurationCodec.parseDuration settings.write.flushInterval = .ok interval)
      (fun _ _ w' => OpenFails mayFail settings nodeId w w') t w := by
  have hstays : (∃ o, mayFail o) ∨ ¬OpensAs w.dir nodeId → OpenFails mayFail settings nodeId w w :=
    fun hreason => ⟨rfl, Or.inl rfl, fun hopens => hreason.imp_right fun hnot => absurd hopens hnot⟩
  unfold openWal
  rw [wpc_bind, wpc_readDir]
  refine ⟨by rintro _ ⟨⟩, ?_, fun hmay _ => hstays (Or.inl ⟨_, hmay⟩)⟩
  rw [wpc_bind, wpc_ofExcept]
  refine ⟨fun checkpoint hcheckpoint => ?_, fun e herror => hstays (Or.inr ?_)⟩
  swap
  · rintro ⟨checkpoint, segmentId, nextLsn, h, -⟩
    rw [h.reads] at herror
    cases herror
  -- what would be recovered has this checkpoint
  have hsame : ∀ checkpoint' segmentId nextLsn,
      Recovers w.dir nodeId checkpoint' segmentId nextLsn → checkpoint' = checkpoint := by
    intro checkpoint' segmentId nextLsn h
    have heq := h.reads.symm.trans hcheckpoint
    injection heq
  rw [wpc_bind, wpc_ite]
  refine ⟨fun hover => hstays (Or.inr ?_), fun hactive => ?_⟩
  · rintro ⟨checkpoint', segmentId, nextLsn, h, -⟩
    cases hsame _ _ _ h
    have hlt := h.active_lt
    rw [← h.active] at hlt
    omega
  rw [wpc_pure, wpc_bind, wpc_ofExcept]
  refine ⟨fun nextLsn hnext => ?_, fun e herror => hstays (Or.inr ?_)⟩
  swap
  · rintro ⟨checkpoint', segmentId, nextLsn, h, -⟩
    cases hsame _ _ _ h
    rw [h.next] at herror
    cases herror
  rw [wpc_bind, wpc_ite]
  refine ⟨fun hover => hstays (Or.inr ?_), fun hlt => ?_⟩
  · rintro ⟨checkpoint', segmentId, nextLsn', h, -⟩
    cases hsame _ _ _ h
    have heq := h.next.symm.trans hnext
    have hlt := h.next_lt
    injection heq
    omega
  have h : Recovers w.dir nodeId checkpoint (recoverActiveSegmentId w.dir checkpoint) nextLsn :=
    ⟨hcheckpoint, rfl, not_le.mp hactive, hnext, not_le.mp hlt⟩
  rw [wpc_pure, wpc_bind]
  refine wpc_imp (wpc_ensureSegmentFile_start h) ?_ ?_
  swap
  · rintro _ _ w' ⟨hleaves, hreason⟩
    have hreason' : OpensAs w.dir nodeId → (∃ o, mayFail o) ∨ ¬Undemanding settings := by
      rintro ⟨checkpoint', segmentId, nextLsn', h', hfit⟩
      obtain ⟨rfl, rfl, rfl⟩ := h.unique h'
      exact hreason.imp_right fun hnot => absurd hfit hnot
    rcases hleaves with rfl | ⟨hstale, rfl⟩ | hopened
    · exact ⟨rfl, Or.inl rfl, hreason'⟩
    · exact ⟨rfl, Or.inr (Or.inl ⟨_, ⟨_, _, _, h, hstale, rfl⟩, rfl⟩), hreason'⟩
    · obtain ⟨hfile, hopens⟩ := hopened.opensAs h
      exact ⟨hfile, Or.inr (Or.inr hopens), hreason'⟩
  -- the active segment is open, and stays so
  have hfails : ∀ w', OpenedIn w nodeId (recoverActiveSegmentId w.dir checkpoint) w' →
      (∃ o, mayFail o) ∨ ¬Undemanding settings → OpenFails mayFail settings nodeId w w' := by
    intro w' hopened hreason
    obtain ⟨hfile, hopens⟩ := hopened.opensAs h
    exact ⟨hfile, Or.inr (Or.inr hopens), fun _ => hreason⟩
  intro _ _ w₁ hopened
  rw [wpc_bind]
  refine wpc_imp (wpc_repairSegmentTailFile hopened) ?_ ?_
  swap
  · rintro _ _ w' ⟨hopened, hmay⟩
    exact hfails w' hopened (Or.inl hmay)
  intro offset _ w₂ hopened
  rw [wpc_bind]
  refine wpc_imp wpc_ensureWalDiskSpace_start ?_ ?_
  swap
  · rintro _ _ _ ⟨rfl, hne⟩
    exact hfails _ hopened (Or.inr fun hundemanding => hne hundemanding.1)
  rintro _ _ _ rfl
  cases hparse : DurationCodec.parseDuration settings.write.flushInterval with
  | error error =>
    refine hfails _ hopened (Or.inr ?_)
    rintro ⟨-, interval, hinterval⟩
    rw [hparse] at hinterval
    cases hinterval
  | ok interval =>
    obtain ⟨hfile, hopens, -⟩ := hopened.opensAs h
    exact ⟨rfl, hfile, hopens, interval, rfl⟩

/-- **The stale segment may be left removed**: the directory may fail to be synced after that. -/
theorem staleRemoved_of_wpc {P : SysOp → World → Prop}
    {Q : WalWriterInner × WalWriterState → τ → World → Prop} {E : IoError → τ → World → Prop}
    (h : wpc (sysEnv mayFail) P (openWal settings nodeId) Q E t w)
    (hmay : mayFail (.syncDirectory .start)) {segments : SortedTable Nat SegmentFile}
    (hstale : StaleRemoved w.dir nodeId segments) (e : IoError) :
    E e t (w.withSegments segments) := by
  obtain ⟨checkpoint, segmentId, nextLsn, hrecovers, ⟨file, header, hlookup, hheader, hlen⟩, rfl⟩ :=
    hstale
  obtain ⟨rest, hreads⟩ := hheader.reads
  unfold openWal at h
  rw [wpc_bind, wpc_readDir] at h
  replace h := h.2.1
  rw [hrecovers.reads, wpc_bind, wpc_ofExcept_ok] at h
  dsimp only at h
  rw [hrecovers.active, if_neg (not_le.mpr hrecovers.active_lt), wpc_bind, wpc_pure,
    hrecovers.next, wpc_bind, wpc_ofExcept_ok, if_neg (not_le.mpr hrecovers.next_lt), wpc_bind,
    wpc_pure, wpc_bind] at h
  unfold ensureSegmentFile at h
  rw [wpc_bind, wpc_readDir] at h
  replace h := h.2.1
  simp only [hlookup] at h
  rw [hreads, wpc_bind, wpc_ofExcept_ok] at h
  simp only [if_neg (not_not.mpr hheader.segmentId), if_neg (not_not.mpr hheader.nodeId)] at h
  rw [if_pos hlen, wpc_bind,
    wpc_removeSegment (by rw [hlookup]; exact Option.some_ne_none _)] at h
  replace h := h.2.1
  rw [wpc_bind, wpc_syncDirectory] at h
  exact h.2.2 hmay e

end Specs

end Ingest4x.Wal
