import Ingest4x.Wal.Chunks
import Ingest4x.Wal.FailedFlush

/-! # The positions that appends return

An append that waits is answered with the position at which its record was written. One that does not
wait returns the position at which the writer stood before the record was buffered, and the flush may
write it elsewhere: behind the records buffered before it, or at the start of the next segment.

* **`PositionTrue`** — the log has the record of a call at a position, and reading from there finds it
  first.
* **`PlacedFrom`** — where a flush writes a record that was buffered behind others.
* **`position_true_iff`** — when the position that an append returns is that of its record. -/

namespace Ingest4x.Wal

open Effect

section Codec

variable [RecordCodec]

/-- **The position is that of the record of a call**, and reading from it finds the record first. -/
def PositionTrue (inner : WalWriterInner) (g : Group) (i : Nat) (p : WalPosition) : Prop :=
  ∃ entries entry rest, readEntriesAfter g.world.dir none = .ok entries ∧ entry ∈ entries ∧
    entry.position = p ∧ g.Carries inner i entry.record ∧
    readEntriesAfter g.world.dir (some p) = .ok (entry :: rest)

/-- Where a flush writes a record that was buffered behind others by a writer that stood here. -/
def PlacedFrom (inner : WalWriterInner) (t : WalWriterState) (record : WalRecord) (p : WalPosition) :
    Prop :=
  ∃ (frames : List Frame) (last : Frame),
    frames.map Frame.record = t.buffered.map BufferedWalRecord.record ∧ last.record = record ∧
    p = placeFrame inner (placeEnd inner t.segmentId t.offset frames).1
      (placeEnd inner t.segmentId t.offset frames).2 last

/-- **A record goes where the writer stood** if and only if nothing was buffered before it and its frame
needs no rotation. -/
theorem placedFrom_here_iff {inner : WalWriterInner} {t : WalWriterState} {record : WalRecord}
    {p : WalPosition} (h : PlacedFrom inner t record p) :
    (p.segment = t.segmentId ∧ p.offset = t.offset) ↔
      t.buffered = [] ∧ ∀ frame : Frame, frame.record = record → ¬Rotates inner t.offset frame := by
  obtain ⟨frames, last, hframes, hlast, rfl⟩ := h
  have hge := placeFrame_ge inner (placeEnd inner t.segmentId t.offset frames).1
    (placeEnd inner t.segmentId t.offset frames).2 last
  constructor
  · rintro ⟨hsegment, hoffset⟩
    have hnil : frames = [] := by
      by_contra hne
      have hgt := placeEnd_gt inner t.segmentId t.offset hne
      omega
    subst hnil
    refine ⟨List.map_eq_nil_iff.mp hframes.symm, fun frame hframe hrotates => ?_⟩
    have hlast' : Rotates inner t.offset last := by
      rw [Rotates, Frame.bytes_eq (hlast.trans hframe.symm)]
      exact hrotates
    rw [placeEnd, placeFrame_of_rotates hlast'] at hsegment
    exact absurd hsegment (Nat.succ_ne_self _)
  · rintro ⟨hbuffered, hstays⟩
    rw [hbuffered, List.map_nil, List.map_eq_nil_iff] at hframes
    subst hframes
    rw [placeEnd, placeFrame_of_not_rotates (hstays last hlast)]
    exact ⟨rfl, rfl⟩

/-- What a flush wrote at the place of a record that it took. -/
theorem PlacedAt.placedFrom {inner : WalWriterInner} {t t' : WalWriterState} {added : List WalEntry}
    (h : PlacedAt inner t' added) (hsegmentId : t'.segmentId = t.segmentId)
    (hoffset : t'.offset = t.offset) {buffer : BufferedWalRecord} {later : List BufferedWalRecord}
    (hbuffered : t'.buffered = t.buffered ++ buffer :: later)
    (hrecords : added.map WalEntry.record = t'.buffered.map BufferedWalRecord.record) :
    ∃ entry ∈ added, entry.record = buffer.record ∧
      PlacedFrom inner t buffer.record entry.position := by
  obtain ⟨all, hall, hpositions⟩ := h
  rw [hbuffered, List.map_append, List.map_cons] at hrecords
  obtain ⟨front, back, rfl, hfront, hback⟩ := List.map_eq_append_iff.mp hrecords
  obtain ⟨entry, rest, rfl, hentry, -⟩ := List.map_eq_cons_iff.mp hback
  rw [List.map_append, List.map_cons] at hall
  obtain ⟨frames, frames', rfl, hframes, hframes'⟩ := List.map_eq_append_iff.mp hall
  obtain ⟨last, more, rfl, hlast, -⟩ := List.map_eq_cons_iff.mp hframes'
  refine ⟨entry, List.mem_append_right _ List.mem_cons_self, hentry, frames, last,
    hframes.trans hfront, hlast.trans hentry, ?_⟩
  -- the position of the entry is the one of its frame
  rw [List.map_append, List.map_cons, placeFrames_append, placeFrames_cons] at hpositions
  have hlength : (front.map WalEntry.position).length =
      (placeFrames inner t'.segmentId t'.offset frames).length := by
    have hlength := congrArg List.length hframes
    rw [List.length_map, List.length_map] at hlength
    rw [List.length_map, length_placeFrames, hlength]
  have htail := (List.append_inj hpositions hlength).2
  rw [← hsegmentId, ← hoffset]
  exact (List.cons_eq_cons.mp htail).1

/-! ### Along a run -/

section Runs

variable {mayFail : SysOp → Prop} {inner : WalWriterInner} {k n n₀ : Nat}
  {initial added : List WalEntry} {g g' g'' : Group} {older : List LogSegment} {active : LogSegment}
  {action : GroupAction} {record : WalRecord}

/-- **What has become of a record** that was buffered in `g`, where appends do not wait: it is still
buffered and the writer stands where it stood, or it is written at its place. -/
inductive Traced (inner : WalWriterInner) (g : Group) (record : WalRecord) (g' : Group)
    (added : List WalEntry) : Prop
  | buffered {later : List BufferedWalRecord} (segmentId : g'.state.segmentId = g.state.segmentId)
      (offset : g'.state.offset = g.state.offset)
      (buffered : g'.state.buffered = g.state.buffered ++ g.entry inner record :: later)
  | written {entry : WalEntry} (mem : entry ∈ added)
      (isRecord : entry.record = (g.entry inner record).record)
      (placed : PlacedFrom inner g.state (g.entry inner record).record entry.position)

/-- A flush that succeeds writes what is still buffered. -/
theorem Traced.flushedTo (h : Traced inner g record g' added) {t : WalWriterState} {w : World}
    {older' : List LogSegment} {active' : LogSegment} {more : List WalEntry}
    (hflushed : FlushedTo inner g'.state g'.world (older ++ [active]) k n t w older' active' more)
    (hplaced : PlacedAt inner g'.state more) :
    Traced inner g record (g'.flushedTo t w) (added ++ more) := by
  cases h with
  | written mem isRecord placed => exact .written (List.mem_append_left _ mem) isRecord placed
  | buffered hsegmentId hoffset hbuffered =>
    obtain ⟨entry, hmem, hrecord, hplaced⟩ := hplaced.placedFrom hsegmentId hoffset hbuffered
      hflushed.records
    exact .written (List.mem_append_right _ hmem) hrecord hplaced

/-- One more record is buffered behind it. -/
theorem Traced.push (h : Traced inner g record g' added) (record' : WalRecord)
    (returned : Except IoError WalPosition) :
    Traced inner g record (g'.push inner record' returned) added := by
  cases h with
  | written mem isRecord placed => exact .written mem isRecord placed
  | @buffered later hsegmentId hoffset hbuffered =>
    have hbuffered' : (g'.push inner record' returned).state.buffered = g.state.buffered ++
        g.entry inner record :: (later ++ [g'.entry inner record']) := by
      rw [Group.push_buffered, hbuffered, List.append_assoc, List.cons_append]
    exact .buffered hsegmentId hoffset hbuffered'

/-- Only the state of the writer and the log matter. -/
theorem Traced.congr (h : Traced inner g record g' added) (hstate : g''.state = g'.state) :
    Traced inner g record g'' added := by
  cases h with
  | written mem isRecord placed => exact .written mem isRecord placed
  | buffered hsegmentId hoffset hbuffered =>
    exact .buffered (hstate ▸ hsegmentId) (hstate ▸ hoffset) (hstate ▸ hbuffered)

/-- **One step** keeps the record buffered, or writes it. -/
theorem Traced.step (h : Traced inner g record g' added)
    (hok : NoSyncOk inner k n₀ initial g' older active n added) (hnoSync : inner.noSync = true)
    (hstep : StepOutcome inner older active k n g' action g'') :
    ∃ older' active' n' added', NoSyncOk inner k n₀ initial g'' older' active' n' added' ∧
      Traced inner g record g'' added' := by
  cases hstep with
  | refused => exact ⟨_, _, _, _, hok.refuse _ _, h.congr rfl⟩
  | buffered rest => exact ⟨_, _, _, _, hok.push hnoSync rest, h.push _ _⟩
  | appendFlushed rest front flushed placed =>
    exact ⟨_, _, _, _, (hok.push hnoSync rest).flushedTo flushed,
      (h.push _ _).flushedTo flushed placed⟩
  | appendFailed rest front back =>
    obtain ⟨hstate, hok'⟩ := (hok.push hnoSync rest).failedTo back
    exact ⟨_, _, _, _, hok', (h.push _ _).congr hstate⟩
  | flushed front flushed placed =>
    exact ⟨_, _, _, _, hok.flushedTo flushed, h.flushedTo flushed placed⟩
  | failed front back =>
    obtain ⟨hstate, hok'⟩ := hok.failedTo back
    exact ⟨_, _, _, _, hok', h.congr hstate⟩

/-- **A whole run.** -/
theorem Traced.runs (h : Traced inner g record g' added)
    (hok : NoSyncOk inner k n₀ initial g' older active n added)
    (hmay : ∀ o, mayFail o → ¬RollbackOp o) (hnoSync : inner.noSync = true)
    (hruns : GroupRuns mayFail inner g' g'') :
    ∃ older' active' n' added', NoSyncOk inner k n₀ initial g'' older' active' n' added' ∧
      Traced inner g record g'' added' := by
  induction hruns with
  | refl => exact ⟨_, _, _, _, hok, h⟩
  | tail _ hstep ih =>
    obtain ⟨older', active', n', added', hok', htraced⟩ := ih
    obtain ⟨action, hstep⟩ := hstep
    exact htraced.step hok' hnoSync (hstep.outcome hmay hok'.rest)

omit [RecordCodec] in
/-- Where appends do not wait, the last call was answered with what it returned. -/
theorem answer_of_last (hnoSync : inner.noSync = true) {call : AppendCall}
    (hcalls : g'.calls = g.calls ++ [call]) :
    g'.answer inner g.calls.length = some call.returned := by
  rw [Group.answer, hcalls, List.getElem?_concat_length, Option.bind_some, if_pos hnoSync]

/-- **An append that does not wait** is traced from its call on, where it returned a position: the one
at which the writer stood. -/
theorem traced_of_append (hok : NoSyncOk inner k n₀ initial g older active n added)
    (hnoSync : inner.noSync = true)
    (hstep : StepOutcome inner older active k n g (.append record) g') {p : WalPosition}
    (hanswer : g'.answer inner g.calls.length = some (.ok p)) :
    p = g.position ∧ g'.Carries inner g.calls.length (g.entry inner record).record ∧
      ∃ older' active' n' added', NoSyncOk inner k n₀ initial g' older' active' n' added' ∧
        Traced inner g record g' added' := by
  have hreturned : ∀ call : AppendCall, g'.calls = g.calls ++ [call] → call.returned = .ok p :=
    fun call hcalls => Option.some.inj ((answer_of_last hnoSync hcalls).symm.trans hanswer)
  have htraced : ∀ returned, Traced inner g record (g.push inner record returned) added :=
    fun returned => .buffered rfl rfl (Group.push_buffered inner g record returned)
  have hcarries : ∀ (g₁ : Group) (call : AppendCall), g₁.calls = g.calls ++ [call] →
      call.record = record → g₁.Carries inner g.calls.length (g.entry inner record).record := by
    intro g₁ call hcalls hrecord
    refine ⟨call, by rw [hcalls, List.getElem?_concat_length], ?_⟩
    rw [Group.entry, assignWalMetadata_lsn hok.rest.bound, hrecord]
  cases hstep with
  | refused => exact absurd (hreturned _ rfl) (by rintro ⟨⟩)
  | buffered rest =>
    exact ⟨(Except.ok.inj (hreturned _ rfl)).symm, hcarries _ _ rfl rfl, _, _, _, _,
      hok.push hnoSync rest, htraced _⟩
  | appendFlushed rest front flushed placed =>
    exact ⟨(Except.ok.inj (hreturned _ rfl)).symm, hcarries _ _ rfl rfl, _, _, _, _,
      (hok.push hnoSync rest).flushedTo flushed, (htraced _).flushedTo flushed placed⟩
  | appendFailed rest front back => exact absurd (hreturned _ rfl) (by rintro ⟨⟩)

/-- An entry of the log at its position is found there first. -/
theorem positionTrue_of_mem {dir : WalDir} {log : List LogSegment} (hdir : Stored dir log)
    {g : Group} (hworld : g.world.dir = dir) {entry : WalEntry} (hmem : entry ∈ logEntries log)
    {i : Nat} (hcarries : g.Carries inner i entry.record) :
    PositionTrue inner g i entry.position := by
  obtain ⟨pre, post, hsplit⟩ := List.append_of_mem hmem
  subst hworld
  exact ⟨_, entry, post, hdir.readEntriesAfter, hmem, rfl, hcarries,
    hdir.contents.readEntriesAfter_position hsplit⟩

/-- The LSN of an entry of a log determines it. -/
theorem LogAt.eq_of_lsn {dir : WalDir} {log : List LogSegment} (h : LogAt dir log k n)
    {entry entry' : WalEntry} (hmem : entry ∈ logEntries log) (hmem' : entry' ∈ logEntries log)
    (hlsn : entry.position.lsn = entry'.position.lsn) : entry = entry' := by
  have hnodup : ((logEntries log).map fun entry => entry.position.lsn).Nodup := by
    rw [h.lsns]
    exact List.nodup_range'
  exact List.inj_on_of_nodup_map hnodup hmem hmem' hlsn

/-- **Where appends wait**, the position of an answer is that of the record. -/
theorem SyncOk.positionTrue (h : SyncOk inner k initial g older active n added)
    (hsync : inner.noSync = false) (htold : g.Told) {i : Nat} (hi : i < g.calls.length)
    {p : WalPosition} (hanswer : g.answer inner i = some (.ok p)) : PositionTrue inner g i p := by
  have hmem : (i, p) ∈ g.oks := by
    rw [← h.okAnswers_eq hsync htold]
    refine List.mem_filterMap.mpr ⟨i, List.mem_range.mpr hi, ?_⟩
    rw [hanswer]
    rfl
  obtain ⟨j, hj, hget⟩ := List.mem_iff_getElem.mp hmem
  have hlength := h.committed.length_eq
  have hcommitted := h.committed.get (hlength ▸ hj) hj
  have hget : g.oks.get ⟨j, hj⟩ = (i, p) := hget
  rw [hget] at hcommitted
  obtain ⟨hposition, hcarries⟩ := hcommitted
  have hposition : (added.get ⟨j, hlength ▸ hj⟩).position = p := hposition
  rw [← hposition]
  refine positionTrue_of_mem h.rest.log.stored rfl ?_ hcarries
  rw [h.log]
  exact List.mem_append_right _ (List.get_mem _ _)

/-- **Where appends do not wait**, the position that an append returned is that of its record, once
this is written, if and only if nothing was buffered before and the frame needed no rotation. -/
theorem NoSyncOk.positionTrue_iff (h : NoSyncOk inner k n₀ initial g' older active n added)
    (hwritten : g'.state.buffered = []) {i : Nat}
    (hcarries : g'.Carries inner i (g.entry inner record).record)
    (hlsn : (g.entry inner record).record.lsn.toNat = g.state.nextLsn)
    (htraced : Traced inner g record g' added) :
    PositionTrue inner g' i g.position ↔ g.state.buffered = [] ∧
      ∀ frame : Frame, frame.record = (g.entry inner record).record →
        ¬Rotates inner g.state.offset frame := by
  cases htraced with
  | buffered hsegmentId hoffset hbuffered =>
    rw [hwritten] at hbuffered
    cases (List.append_eq_nil_iff.mp hbuffered.symm).2
  | @written entry hmem hrecord hplaced =>
    rw [← placedFrom_here_iff hplaced]
    have hmem' : entry ∈ logEntries (older ++ [active]) := by
      rw [h.log]
      exact List.mem_append_right _ hmem
    have hentryLsn : entry.position.lsn = g.state.nextLsn := by
      obtain ⟨segment, -, hsegment⟩ := mem_logEntries.mp hmem'
      rw [lsn_of_mem_entriesFrom hsegment, hrecord, hlsn]
    constructor
    · rintro ⟨entries, entry', rest, hread, hentry', hposition, -, -⟩
      rw [h.rest.log.stored.readEntriesAfter] at hread
      cases hread
      -- the entry at the position has the LSN of the record, so it is the one that was written
      have heq : entry' = entry :=
        h.rest.log.eq_of_lsn hentry' hmem' ((congrArg WalPosition.lsn hposition).trans hentryLsn.symm)
      rw [← heq, hposition]
      exact ⟨rfl, rfl⟩
    · rintro ⟨hsegment, hoffset⟩
      have hposition : g.position = entry.position := by
        rw [Group.position, ← hsegment, ← hoffset, ← hentryLsn]
      rw [hposition]
      exact positionTrue_of_mem h.rest.log.stored rfl hmem' (hrecord ▸ hcarries)

end Runs

/-- Where appends do not wait, along a whole run. -/
theorem GroupRuns.positionTrue_iff {mayFail : SysOp → Prop} (hmay : ∀ o, mayFail o → ¬RollbackOp o)
    {inner : WalWriterInner} (hnoSync : inner.noSync = true) {k n : Nat} {initial : List WalEntry}
    {g₀ g g₁ g₂ : Group} {record : WalRecord} (hopened : Opened inner k n initial g₀)
    (hruns : GroupRuns mayFail inner g₀ g)
    (hstep : GroupStep mayFail inner g (.append record) g₁)
    (hruns' : GroupRuns mayFail inner g₁ g₂) (hwritten : g₂.state.buffered = []) {p : WalPosition}
    (hanswer : g₂.answer inner g.calls.length = some (.ok p)) :
    PositionTrue inner g₂ g.calls.length p ↔ g.state.buffered = [] ∧ ∀ frame : Frame,
      frame.record = (g.entry inner record).record → ¬Rotates inner g.state.offset frame := by
  obtain ⟨hcalls, hfinal⟩ := GroupRuns.answer_mono hmay hopened (hruns.tail ⟨_, hstep⟩) hruns'
  obtain ⟨older, active, n', added, hok⟩ := hruns.noSyncOk hmay hnoSync hopened
  have houtcome := hstep.outcome hmay hok.rest
  obtain ⟨call, hcall, -⟩ := houtcome.calls_append
  have hanswer₁ : g₁.answer inner g.calls.length = some (.ok p) := by
    have hlast := answer_of_last hnoSync hcall
    rwa [← hfinal _ _ hlast, hanswer] at hlast
  obtain ⟨rfl, hcarries, older₁, active₁, n₁, added₁, hok₁, htraced₁⟩ :=
    traced_of_append hok hnoSync houtcome hanswer₁
  obtain ⟨older₂, active₂, n₂, added₂, hok₂, htraced₂⟩ := htraced₁.runs hok₁ hmay hnoSync hruns'
  exact hok₂.positionTrue_iff hwritten (hcarries.mono hcalls)
    (assignWalMetadata_lsn hok.rest.bound _ _) htraced₂

/-- **When an append returns the true position of its record.** For every run of appends and flushes,
every append in it that returned a position, and every later moment where nothing is buffered: the
position is that of the record in the log if and only if appends wait, or nothing was buffered before
the record and its frame needed no rotation. -/
theorem position_true_iff {mayFail : SysOp → Prop} (hmay : ∀ o, mayFail o → ¬RollbackOp o)
    {inner : WalWriterInner} {k n : Nat} {initial : List WalEntry} {g₀ g g₁ g₂ : Group}
    {record : WalRecord} (hopened : Opened inner k n initial g₀)
    (hruns : GroupRuns mayFail inner g₀ g)
    (hstep : GroupStep mayFail inner g (.append record) g₁)
    (hruns' : GroupRuns mayFail inner g₁ g₂) (hwritten : g₂.state.buffered = []) {p : WalPosition}
    (hanswer : g₂.answer inner g.calls.length = some (.ok p)) :
    PositionTrue inner g₂ g.calls.length p ↔ inner.noSync = false ∨
      (g.state.buffered = [] ∧ ∀ frame : Frame,
        frame.record = (g.entry inner record).record → ¬Rotates inner g.state.offset frame) := by
  cases hsync : inner.noSync with
  | false =>
    obtain ⟨⟨older, active, n', added, hok⟩, htold⟩ := GroupRuns.syncOk hmay hsync hopened
      ((hruns.tail ⟨_, hstep⟩).trans hruns')
    have hi : g.calls.length < g₂.calls.length := by
      by_contra hle
      rw [Group.answer, List.getElem?_eq_none (not_lt.mp hle)] at hanswer
      cases hanswer
    exact iff_of_true (hok.positionTrue hsync htold hi hanswer) (Or.inl rfl)
  | true =>
    rw [GroupRuns.positionTrue_iff hmay hsync hopened hruns hstep hruns' hwritten hanswer]
    exact (or_iff_right (by rintro ⟨⟩)).symm

end Codec

section Sample

attribute [local instance] referenceCodec

/-- No operation fails. -/
def noFailure : SysOp → Option IoError := fun _ => none

theorem noFailure_mayFail (o : SysOp) (h : noFailure o ≠ none) : False := h rfl

/-- An append that waits returns the true position. -/
theorem position_true_iff_sample :
    PositionTrue (sampleInner false)
      (sampleGroup.exec noFailure (sampleInner false) (.append (sampleRecord "a"))) 0
      ⟨1, 1, segmentHeaderLen⟩ := by
  have hstep : GroupStep (fun _ => False) (sampleInner false) sampleGroup
      (.append (sampleRecord "a")) _ :=
    groupStep_exec noFailure_mayFail _ _ _
  exact (position_true_iff (fun _ h => h.elim) (sampleGroup_opened _ rfl) Relation.ReflTransGen.refl
    hstep Relation.ReflTransGen.refl rfl rfl).mpr (Or.inl rfl)

/-- A writer that does not wait and flushes every second record. -/
def bufferingInner : WalWriterInner := { sampleInner true with flushRecords := 2 }

/-- The group after one record, which is buffered. -/
def oneBuffered : Group := sampleGroup.exec noFailure bufferingInner (.append (sampleRecord "a"))

/-- The group after two records, which are flushed. -/
def twoFlushed : Group := oneBuffered.exec noFailure bufferingInner (.append (sampleRecord "b"))

/-- **The position of the second of two buffered records is that of the first.** -/
theorem position_not_true :
    ¬∀ (inner : WalWriterInner) (k n : Nat) (initial : List WalEntry) (g₀ g : Group) (i : Nat)
      (p : WalPosition), Opened inner k n initial g₀ → GroupRuns (fun _ => False) inner g₀ g →
      g.state.buffered = [] → g.answer inner i = some (.ok p) → PositionTrue inner g i p := by
  intro hclaim
  have hopened := sampleGroup_opened bufferingInner rfl
  have hstep₁ : GroupStep (fun _ => False) bufferingInner sampleGroup (.append (sampleRecord "a"))
      oneBuffered := groupStep_exec noFailure_mayFail _ _ _
  have hstep₂ : GroupStep (fun _ => False) bufferingInner oneBuffered (.append (sampleRecord "b"))
      twoFlushed := groupStep_exec noFailure_mayFail _ _ _
  have hruns : GroupRuns (fun _ => False) bufferingInner sampleGroup oneBuffered :=
    Relation.ReflTransGen.single ⟨_, hstep₁⟩
  have hwritten : twoFlushed.state.buffered = [] := by decide +kernel
  have hposition : (twoFlushed.answer bufferingInner 1).bind Except.toOption =
      some ⟨2, 1, segmentHeaderLen⟩ := by decide +kernel
  have hanswer : twoFlushed.answer bufferingInner 1 = some (.ok ⟨2, 1, segmentHeaderLen⟩) := by
    obtain ⟨answer, hanswer, hoption⟩ := Option.bind_eq_some_iff.mp hposition
    cases answer with
    | error error => cases hoption
    | ok p =>
      cases hoption
      exact hanswer
  have htrue := hclaim bufferingInner 0 0 [] sampleGroup twoFlushed 1 _ hopened
    (hruns.tail ⟨_, hstep₂⟩) hwritten hanswer
  -- the first record was still buffered
  have hiff := GroupRuns.positionTrue_iff (fun _ h => h.elim) rfl hopened hruns hstep₂
    Relation.ReflTransGen.refl hwritten hanswer
  have hbuffered : oneBuffered.state.buffered ≠ [] := by decide +kernel
  exact hbuffered (hiff.mp htrue).1

end Sample

end Ingest4x.Wal
