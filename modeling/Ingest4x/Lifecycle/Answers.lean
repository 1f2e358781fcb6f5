import Ingest4x.Effect.Maintains
import Ingest4x.Wal.Writing

/-! # The answers of a flush

A flush answers no append before everything is written and synced, and then answers them in the order
of the buffer with the positions at which their records stand. Where it is cut off, some of the first
answers were given.

* **`Silent`** — an operation that sends and answers nothing, with `trace_of_silent`.
* **`maintains_writeBuffered`**, **`maintains_truncateAfter`** — the parts of a flush that are silent.
* **`Told`** — what a flush has answered so far, with `wpc_flushBufferLocked_told`. -/

namespace Ingest4x.Wal

open Effect

variable {τ : Type} {mayFail : SysOp → Prop}

/-! ### Silent operations -/

/-- **A silent operation**: it sends and answers nothing. -/
def Silent : SysOp → Prop
  | .respond _ _ _ => False
  | .sendBatch _ _ _ => False
  | .quarantine _ _ => False
  | _ => True

/-- **A silent operation leaves no trace.** -/
theorem trace_of_silent {o : SysOp} {w w' : World} {r : SysResp o} (hsilent : Silent o)
    (h : sysEnv mayFail o w r w') : w'.trace = w.trace := by
  cases o with
  | createDirAll =>
    have h : Fallible _ w (· = w) r w' := h
    rcases h with ⟨-, rfl⟩ | ⟨-, -, rfl⟩ <;> rfl
  | acquireWalLock =>
    have h : Fallible _ w (· = w) r w' := h
    rcases h with ⟨-, rfl⟩ | ⟨-, -, rfl⟩ <;> rfl
  | syncDirectory site =>
    have h : Fallible _ w (· = w) r w' := h
    rcases h with ⟨-, rfl⟩ | ⟨-, -, rfl⟩ <;> rfl
  | readDir => rw [h.1]
  | nowMs => rw [show w' = w from h]
  | availableSpace => rw [h.1]
  | newUuid => rw [h.1]
  | instantNow => rw [h.2]
  | writeNodeIdFile nodeId =>
    rcases h with ⟨-, rfl⟩ | ⟨-, -, rfl | rfl⟩ <;> rfl
  | createSegment site segmentId header =>
    rcases h with ⟨-, rfl⟩ | ⟨-, -, rfl | rfl⟩ <;> rfl
  | removeSegment site segmentId =>
    rcases h with ⟨-, -, rfl⟩ | ⟨-, ⟨-, rfl⟩ | ⟨-, -, rfl⟩⟩ <;> rfl
  | appendSegment segmentId bytes =>
    rcases h with ⟨-, -, rfl⟩ | ⟨-, ⟨-, rfl⟩ | ⟨-, -, -, -, rfl⟩⟩ <;> rfl
  | syncSegment segmentId =>
    rcases h with ⟨-, -, rfl⟩ | ⟨-, ⟨-, rfl⟩ | ⟨-, -, rfl⟩⟩ <;> rfl
  | truncateSegment site segmentId len =>
    rcases h with ⟨-, -, rfl⟩ | ⟨-, ⟨-, rfl⟩ | ⟨-, -, rfl | rfl⟩⟩ <;> rfl
  | writeCheckpointFile file =>
    rcases h with ⟨-, rfl⟩ | ⟨-, -, rfl | rfl⟩ <;> rfl
  | respond channel record result => exact hsilent.elim
  | sendBatch sink events metadata => exact hsilent.elim
  | quarantine entry issue => exact hsilent.elim

/-- The trace is still what it was. -/
abbrev SameTrace (trace : List Event) (w : World) : Prop := w.trace = trace

variable {trace : List Event}

theorem maintains_sys {ε : Type} {o : SysOp} (hsilent : Silent o) :
    Maintains (sysEnv mayFail) (SameTrace trace)
      (Cmd.perform o : Cmd SysOp SysResp τ ε (SysResp o)) :=
  .perform fun _ _ _ hsame he => (trace_of_silent hsilent he).trans hsame

theorem maintains_readDir :
    Maintains (sysEnv mayFail) (SameTrace trace) (readDir : Sys τ WalDir) :=
  (maintains_sys (by trivial)).orThrow

theorem maintains_ensureWalDiskSpace (minFreeBytes estimatedWalBytes : Nat) :
    Maintains (sysEnv mayFail) (SameTrace trace)
      (ensureWalDiskSpace minFreeBytes estimatedWalBytes : Sys τ Unit) := by
  unfold ensureWalDiskSpace
  refine .ite (.pure ()) ((maintains_sys (by trivial)).orThrow.bind fun availableBytes => ?_)
  exact .ite (.throw _) (.pure ())

section Codec

variable [RecordCodec]

/-! ### The silent parts of a flush -/

theorem maintains_createSegmentFile (site : Site) (segmentId : Nat) (nodeId : String)
    (startLsn : Nat) :
    Maintains (sysEnv mayFail) (SameTrace trace)
      (createSegmentFile site segmentId nodeId startLsn : Sys τ Unit) := by
  unfold createSegmentFile
  refine (maintains_sys (by trivial)).bind fun nowMs => ?_
  exact (Maintains.ofExcept _).bind fun header => (maintains_sys (by trivial)).orThrow

theorem maintains_ensureSegmentFile (site : Site) (segmentId : Nat) (nodeId : String)
    (startLsn : Nat) :
    Maintains (sysEnv mayFail) (SameTrace trace)
      (ensureSegmentFile site segmentId nodeId startLsn : Sys τ Unit) := by
  unfold ensureSegmentFile
  refine maintains_readDir.bind fun dir => ?_
  cases dir.segments.lookup segmentId with
  | none => exact maintains_createSegmentFile site segmentId nodeId startLsn
  | some file =>
    refine (Maintains.ofExcept _).bind ?_
    rintro ⟨header, rest⟩
    refine .ite (.throw _) (.ite (.throw _) (.ite ?_ (.pure ())))
    refine (maintains_sys (by trivial)).orThrow.bind fun _ => ?_
    refine (maintains_sys (by trivial)).orThrow.bind fun _ => ?_
    exact maintains_createSegmentFile site segmentId nodeId startLsn

theorem maintains_appendFrameLocked (inner : WalWriterInner) (bytes : Bytes) (lsn : Nat)
    (sync : Bool) :
    Maintains (sysEnv mayFail) (SameTrace trace) (appendFrameLocked inner bytes lsn sync) := by
  unfold appendFrameLocked rotateSegment
  refine Maintains.get.bind fun state => Maintains.bind (.ite ?_ (.pure ())) fun _ => ?_
  · refine Maintains.get.bind fun state => (Maintains.ofExcept _).bind fun segmentId => ?_
    exact (Maintains.set _).bind fun _ => maintains_ensureSegmentFile .rotate segmentId _ lsn
  · refine (maintains_ensureWalDiskSpace _ _).bind fun _ => Maintains.get.bind fun state => ?_
    refine (maintains_sys (by trivial)).orThrow.bind fun _ => ?_
    refine Maintains.bind (.ite (maintains_sys (by trivial)).orThrow (.pure ())) fun _ => ?_
    exact (Maintains.set _).bind fun _ => .pure _

theorem maintains_appendBufferedFrames (inner : WalWriterInner) (entries : List BufferedWalRecord) :
    Maintains (sysEnv mayFail) (SameTrace trace) (appendBufferedFrames inner entries) := by
  induction entries with
  | nil => exact .pure []
  | cons entry entries ih =>
    unfold appendBufferedFrames
    refine (Maintains.ofExcept _).bind fun bytes => ?_
    refine (maintains_appendFrameLocked inner bytes _ false).bind fun position => ?_
    exact ih.bind fun positions => .pure _

/-- **Writing and syncing the records is silent.** -/
theorem maintains_writeBuffered (inner : WalWriterInner) (buffered : List BufferedWalRecord) :
    Maintains (sysEnv mayFail) (SameTrace trace) (writeBuffered inner buffered) := by
  unfold writeBuffered
  refine (maintains_appendBufferedFrames inner buffered).bind fun positions => ?_
  refine (Maintains.forEach (fun segmentId => ?_) _).bind fun _ => .pure positions
  exact (maintains_sys (by trivial)).orThrow

omit [RecordCodec] in
/-- **Taking the files back is silent.** -/
theorem maintains_truncateAfter (segmentId offset currentSegmentId : Nat) :
    Maintains (sysEnv mayFail) (SameTrace trace)
      (truncateAfter segmentId offset currentSegmentId : Sys τ Unit) := by
  unfold truncateAfter
  refine (maintains_sys (by trivial)).orThrow.bind fun _ => ?_
  refine (Maintains.forEach (fun stale => ?_) _).bind fun _ => (maintains_sys (by trivial)).orThrow
  unfold removeStaleSegment
  refine (maintains_sys (by trivial)).bind fun result => ?_
  cases result with
  | ok _ => exact .pure ()
  | error error => exact .ite (.pure ()) (.throw error)

/-! ### Answering -/

omit [RecordCodec] in
/-- The first of some pairs are answered with the first of the answers. -/
theorem wpc_notifyBufferedSuccess_log {buffered : List BufferedWalRecord}
    {positions : List WalPosition} {P : SysOp → World → Prop} {Q : Unit → τ → World → Prop}
    {E : IoError → τ → World → Prop} {t : τ} {w : World}
    (hP : ∀ o events, events <+: successEvents buffered positions → P o (w.log events))
    (hQ : Q () t (w.log (successEvents buffered positions))) :
    wpc (sysEnv mayFail) P (notifyBufferedSuccess buffered positions) Q E t w := by
  let answers : List (BufferedWalRecord × WalPosition) → List Event := fun pre =>
    pre.flatMap fun answer =>
      answer.1.response.toList.map fun channel =>
        .responded channel answer.1.record (.ok answer.2)
  refine wpc_imp (wpc_forEach (fun pre t' w' => t' = t ∧ w' = w.log (answers pre)) _ ?_ ?_) ?_
    fun _ _ _ h => h
  · rintro pre ⟨entry, position⟩ post t' w' hsplit ⟨rfl, rfl⟩
    have hanswers : answers (pre ++ [(entry, position)]) = answers pre ++
        entry.response.toList.map fun channel => .responded channel entry.record (.ok position) := by
      show List.flatMap _ (pre ++ [_]) = List.flatMap _ pre ++ _
      rw [List.flatMap_append, List.flatMap_singleton]
    have hpre : answers pre <+: successEvents buffered positions := by
      show answers pre <+: answers (buffered.zip positions)
      rw [hsplit]
      show answers pre <+: List.flatMap _ (pre ++ _)
      rw [List.flatMap_append]
      exact List.prefix_append _ _
    cases hchannel : entry.response with
    | none =>
      simp only [hchannel, wpc_pure]
      refine ⟨trivial, ?_⟩
      rw [hanswers, hchannel, Option.toList_none, List.map_nil, List.append_nil]
    | some channel =>
      simp only [hchannel]
      refine ⟨hP _ _ hpre, ?_⟩
      rintro r w' hresponded
      refine ⟨rfl, ?_⟩
      rw [show w' = _ from hresponded, hanswers, hchannel, World.record_eq_log, World.log_log]
      rfl
  · exact ⟨rfl, (w.log_nil).symm⟩
  · rintro ⟨⟩ t' w' ⟨rfl, rfl⟩
    exact hQ

omit [RecordCodec] in
/-- The appends are answered with the error. -/
theorem wpc_notifyBufferedFailure_log {buffered : List BufferedWalRecord} {message : String}
    {P : SysOp → World → Prop} {Q : Unit → τ → World → Prop} {E : IoError → τ → World → Prop}
    {t : τ} {w : World}
    (hP : ∀ o events, events <+: failureEvents buffered message → P o (w.log events))
    (hQ : Q () t (w.log (failureEvents buffered message))) :
    wpc (sysEnv mayFail) P (notifyBufferedFailure buffered message) Q E t w := by
  refine wpc_imp (wpc_forEach (fun pre t' w' => t' = t ∧ w' = w.log (failureEvents pre message)) _
    ?_ ?_) ?_ fun _ _ _ h => h
  · rintro pre entry post t' w' hsplit ⟨rfl, rfl⟩
    have hanswers : failureEvents (pre ++ [entry]) message = failureEvents pre message ++
        entry.response.toList.map fun channel =>
          .responded channel entry.record (.error (.other message)) := by
      rw [failureEvents, List.flatMap_append, List.flatMap_singleton]
      rfl
    have hpre : failureEvents pre message <+: failureEvents buffered message := by
      rw [hsplit, failureEvents, failureEvents, List.flatMap_append]
      exact List.prefix_append _ _
    cases hchannel : entry.response with
    | none =>
      dsimp only
      refine ⟨rfl, ?_⟩
      rw [hanswers, hchannel, Option.toList_none, List.map_nil, List.append_nil]
    | some channel =>
      dsimp only
      refine ⟨hP _ _ hpre, ?_⟩
      rintro r w' hresponded
      refine ⟨rfl, ?_⟩
      rw [show w' = _ from hresponded, hanswers, hchannel, World.record_eq_log, World.log_log]
      rfl
  · exact ⟨rfl, (w.log_nil).symm⟩
  · rintro ⟨⟩ t' w' ⟨rfl, rfl⟩
    exact hQ

/-! ### The answers so far -/

/-- **What a flush has answered so far**: nothing; or some of the appends, with the positions of their
records in segments that are written and synced; or some with an error. -/
inductive Told (base : LogSegment) (buffered : List BufferedWalRecord) (w w' : World) : Prop
  | unanswered (trace : w'.trace = w.trace)
  | answered {done : List Frame} {disk : List OpenSegment} {added : List WalEntry}
      {events : List Event}
      (frames : done.map Frame.record = buffered.map BufferedWalRecord.record)
      (grown : Grown base done disk) (nonempty : disk ≠ [])
      (whole : ∀ d ∈ disk, d.segment.torn = [])
      (stored : (tailView base.id w').segments.entries = disk.map fun d => d.segment.stored)
      (entries : logEntries (disk.map OpenSegment.segment) = base.entries ++ added)
      (answers : events <+: successEvents buffered (added.map WalEntry.position))
      (trace : w'.trace = w.trace ++ events)
  | refused {message : String} {events : List Event}
      (answers : events <+: failureEvents buffered message) (trace : w'.trace = w.trace ++ events)

/-- **The answers of a flush**, whatever fails in it. -/
theorem wpc_flushBufferLocked_told {base : LogSegment} {inner : WalWriterInner}
    (hnode : inner.nodeId = base.nodeId) (htorn : base.torn = []) {t : WalWriterState} {w : World}
    (hsegmentId : t.segmentId = base.id) (hoffset : t.offset = base.endOffset)
    (hstored : (tailView base.id w).segments.entries = [base.stored])
    (hstart : base.frames = [] → ∀ entry ∈ t.buffered.head?, entry.record.lsn = base.startLsn) :
    wpc (sysEnv mayFail) (fun _ => Told base t.buffered w) (flushBufferLocked inner)
      (fun _ _ => Told base t.buffered w) (fun _ _ => Told base t.buffered w) t w := by
  rw [flushBufferLocked, wpc_bind, wpc_get]
  cases hbuffered : t.buffered with
  | nil => exact .unanswered rfl
  | cons first rest =>
    simp only [wpc_bind, wpc_set, wpc_attempt]
    rw [hbuffered] at hstart
    let t₀ : WalWriterState := { t with buffered := [] }
    have hend : AtEnd base [] [] [] base.rest t₀ (tailView base.id w) := by
      refine ⟨Grown.start base, htorn, ?_, hsegmentId, hoffset, ⟨[], ?_, rfl⟩, by rintro p ⟨⟩, ?_⟩
      · rw [hstored, List.nil_append, List.map_singleton, OpenSegment.row_of_synced htorn rfl]
        rfl
      · rw [List.nil_append, List.map_singleton, logEntries_cons, logEntries_nil]
        rfl
      · intro d hd
        rw [List.nil_append, List.mem_singleton] at hd
        rw [hd]
        exact Or.inl rfl
    -- while the records are written nothing is answered
    have hwrite := wpc_view (sysEnv_tailEnv mayFail base.id)
      (hend.wpc_writeBuffered hnode (List.cons_ne_nil first rest) rfl rfl hstart
        (Q := fun positions t' v' => ∃ done front last,
          done.map Frame.record = (first :: rest).map BufferedWalRecord.record ∧
          AllSynced base done positions front last t' v')
        fun done positions front last t' v' hdone hsynced _ _ _ _ =>
          ⟨done, front, last, hdone, hsynced⟩)
    refine wpc_mono (wpc_and (maintains_writeBuffered inner (first :: rest) t₀ w rfl) hwrite)
      (fun _ _ htrace => .unanswered htrace) ?_ ?_
    · rintro positions t' w' ⟨htrace, done, front, last, hdone, hsynced⟩
      obtain ⟨added, hadded, rfl⟩ := hsynced.placed
      have htold : ∀ events, events <+: successEvents (first :: rest) (added.map WalEntry.position) →
          Told base (first :: rest) w (w'.log events) := by
        intro events hevents
        refine .answered hdone hsynced.grown (by simp) hsynced.whole hsynced.stored hadded hevents ?_
        show w'.trace ++ events = _
        rw [htrace]
      exact wpc_notifyBufferedSuccess_log (fun _ events hevents => htold events hevents)
        (htold _ List.prefix_rfl)
    · rintro error t' w' ⟨htrace, -⟩
      rw [wpc_get]
      refine wpc_mono (maintains_truncateAfter _ _ _ t' w' htrace) (fun _ _ h => .unanswered h) ?_
        fun _ _ _ h => .unanswered h
      intro _ t₁ w₁ htrace₁
      rw [wpc_ite]
      refine ⟨fun _ => ?_, fun _ => ?_⟩
      · have htold : ∀ events, events <+: failureEvents (first :: rest) error.message →
            Told base (first :: rest) w (w₁.log events) := by
          intro events hevents
          refine .refused hevents ?_
          show w₁.trace ++ events = _
          rw [show w₁.trace = w.trace from htrace₁]
        rw [wpc_bind, wpc_set]
        exact wpc_notifyBufferedFailure_log (fun _ events hevents => htold events hevents)
          (htold _ List.prefix_rfl)
      · rw [wpc_set, wpc_throw]
        exact .unanswered htrace₁

end Codec

end Ingest4x.Wal
