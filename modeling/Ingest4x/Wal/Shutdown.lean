import Ingest4x.Wal.Positions

/-! # Graceful shutdown

The handles of a writer share its inner state by a reference count. The flush thread has no part in the
count but while it reads the interval and while it flushes. A handle that is dropped reads the count,
and flushes if it is one; then it is released, and the inner state is freed with the last reference.

* **`SharedInner`** — the handles, the count and the flush thread.
* **`SharedStep`** — their atomic steps, none of which fails.
* **`CountSafe`** — a handle that reads the count leaves somebody to flush.
* **`shutdown_keeps_appends`** — if every handle does, nothing is lost. -/

namespace Ingest4x.Wal

open Effect

/-! ### Handles and the flush thread -/

/-- **Where a handle stands**: it is live; its `drop` has read a count of one and flushes; or it is only
to be released. -/
inductive HandlePc
  | live
  | flushing
  | leaving
  deriving DecidableEq

/-- **Where the flush thread stands** in its loop: before it upgrades its weak reference, while it reads
the interval, asleep, with the inner state in hand, after its flush, and at the end. -/
inductive FlushLoopPc
  | start
  | reading
  | sleeping
  | holding
  | flushed
  | stopped
  deriving DecidableEq

/-- The references that the flush thread holds. -/
def FlushLoopPc.references : FlushLoopPc → Nat
  | .reading | .holding | .flushed => 1
  | .start | .sleeping | .stopped => 0

/-- **The inner state as it is shared**: it is freed when the count is zero. -/
structure SharedInner where
  group : Group
  handles : List HandlePc
  strongCount : Nat
  flushLoop : FlushLoopPc

namespace SharedInner

/-- After `WalWriter::new`: one handle, and a thread that starts. -/
def new (g : Group) : SharedInner := ⟨g, [.live], 1, .start⟩

/-- Somebody is left to flush when a handle reads the count in `drop`: the handle itself, another one
that is live, or the flush thread; or there is nothing to flush. -/
def CountSafe (s : SharedInner) (others : List HandlePc) : Prop :=
  s.strongCount = 1 ∨ .live ∈ others ∨ s.flushLoop = .holding ∨ s.group.state.buffered = []

end SharedInner

/-- The calls that returned a position. -/
def okCalls (calls : List AppendCall) : List AppendCall :=
  calls.filter fun call => call.returned.isOk

/-! ### Steps -/

/-- A step of a handle or of the flush thread. -/
inductive SharedAction
  | append (record : WalRecord)
  | flush
  | clone
  /-- `drop` reads the count; `others` are the other handles. -/
  | readCount (others : List HandlePc)
  | dropFlush
  | release
  | flushLoop

section Codec

variable [RecordCodec]

/-- A flush that succeeds. -/
def FlushesTo (inner : WalWriterInner) (g g' : Group) : Prop :=
  ∃ (t : WalWriterState) (w : World), Runs (sysEnv fun _ => False)
    ((flushBufferLocked inner).start g.state) g.world (.ok (), t) w ∧ g' = g.flushedTo t w

/-- An append that returns a position. -/
def AppendsTo (inner : WalWriterInner) (g : Group) (record : WalRecord) (g' : Group) : Prop :=
  GroupStep (fun _ => False) inner g (.append record) g' ∧
    ∃ position refused, g'.calls = g.calls ++ [⟨record, .ok position, refused⟩]

/-- **The atomic steps**, without a crash and without a failure. -/
inductive SharedStep (inner : WalWriterInner) (s : SharedInner) : SharedAction → SharedInner → Prop
  | append {record : WalRecord} {g : Group} (hlive : .live ∈ s.handles)
      (hstep : AppendsTo inner s.group record g) :
      SharedStep inner s (.append record) { s with group := g }
  | flush {g : Group} (hlive : .live ∈ s.handles) (hstep : FlushesTo inner s.group g) :
      SharedStep inner s .flush { s with group := g }
  | clone (hlive : .live ∈ s.handles) :
      SharedStep inner s .clone
        { s with handles := s.handles ++ [.live], strongCount := s.strongCount + 1 }
  | readCount {front back : List HandlePc} (hhandle : s.handles = front ++ .live :: back) :
      SharedStep inner s (.readCount (front ++ back))
        { s with handles := front ++ (if s.strongCount = 1 then .flushing else .leaving) :: back }
  | dropFlush {front back : List HandlePc} {g : Group}
      (hhandle : s.handles = front ++ .flushing :: back) (hstep : FlushesTo inner s.group g) :
      SharedStep inner s .dropFlush { s with group := g, handles := front ++ .leaving :: back }
  | release {front back : List HandlePc} (hhandle : s.handles = front ++ .leaving :: back) :
      SharedStep inner s .release
        { s with handles := front ++ back, strongCount := s.strongCount - 1 }
  /-- The inner state is there: the thread upgrades its reference and reads the interval. -/
  | readInterval (hpc : s.flushLoop = .start) (hcount : s.strongCount ≠ 0) :
      SharedStep inner s .flushLoop
        { s with strongCount := s.strongCount + 1, flushLoop := .reading }
  | sleep (hpc : s.flushLoop = .reading) :
      SharedStep inner s .flushLoop
        { s with strongCount := s.strongCount - 1, flushLoop := .sleeping }
  | wake (hpc : s.flushLoop = .sleeping) (hcount : s.strongCount ≠ 0) :
      SharedStep inner s .flushLoop
        { s with strongCount := s.strongCount + 1, flushLoop := .holding }
  | loopFlush {g : Group} (hpc : s.flushLoop = .holding) (hstep : FlushesTo inner s.group g) :
      SharedStep inner s .flushLoop { s with group := g, flushLoop := .flushed }
  | loopRelease (hpc : s.flushLoop = .flushed) :
      SharedStep inner s .flushLoop
        { s with strongCount := s.strongCount - 1, flushLoop := .start }
  /-- The inner state is gone. -/
  | stop (hpc : s.flushLoop = .start ∨ s.flushLoop = .sleeping) (hcount : s.strongCount = 0) :
      SharedStep inner s .flushLoop { s with flushLoop := .stopped }

/-- **The runs** of the handles and the flush thread. -/
def SharedRuns (inner : WalWriterInner) : SharedInner → SharedInner → Prop :=
  Relation.ReflTransGen fun s s' => ∃ action, SharedStep inner s action s'

/-- **The runs in which every handle that reads the count leaves somebody to flush.** -/
def CountSafeRuns (inner : WalWriterInner) : SharedInner → SharedInner → Prop :=
  Relation.ReflTransGen fun s s' => ∃ action, SharedStep inner s action s' ∧
    ∀ others, action = .readCount others → s.CountSafe others

/-- **Nothing is lost**: the log is the initial one and the records of all appends that returned a
position, in order. -/
def NothingLost (inner : WalWriterInner) (n : Nat) (initial : List WalEntry) (g : Group) : Prop :=
  ∃ added, readEntriesAfter g.world.dir none = .ok (initial ++ added) ∧
    added.map WalEntry.record = numbered inner (n + 1) (okCalls g.calls)

/-! ### What holds in every run -/

section Runs

variable {inner : WalWriterInner} {k n₀ : Nat} {initial : List WalEntry} {g g' : Group}
  {s s' : SharedInner} {action : SharedAction}

/-- **What holds of a group** none of whose steps fails: no call was refused or returned an error. -/
structure GroupKept (inner : WalWriterInner) (k n₀ : Nat) (initial : List WalEntry) (g : Group) :
    Prop where
  rest : ∃ older active n added, NoSyncOk inner k n₀ initial g older active n added
  ok : ∀ call ∈ g.calls, call.refused = false ∧ call.returned.isOk = true

/-- A flush keeps this and empties the buffer. -/
theorem GroupKept.flushesTo (h : GroupKept inner k n₀ initial g) (hstep : FlushesTo inner g g') :
    GroupKept inner k n₀ initial g' ∧ g'.state.buffered = [] := by
  obtain ⟨t, w, hrun, rfl⟩ := hstep
  obtain ⟨older, active, n, added, hok⟩ := h.rest
  obtain ⟨-, older', active', more, hflushed, -⟩ :=
    wp_runs (hok.rest.wpc_flushBufferLocked fun _ hmay => hmay.elim) hrun
  exact ⟨⟨⟨_, _, _, _, hok.flushedTo hflushed⟩, h.ok⟩, hflushed.buffered⟩

/-- An append keeps it. -/
theorem GroupKept.appendsTo (h : GroupKept inner k n₀ initial g) (hnoSync : inner.noSync = true)
    {record : WalRecord} (hstep : AppendsTo inner g record g') :
    GroupKept inner k n₀ initial g' := by
  obtain ⟨hstep, position, refused, hcalls⟩ := hstep
  obtain ⟨older, active, n, added, hok⟩ := h.rest
  have hreturned : ∀ call : AppendCall, g'.calls = g.calls ++ [call] →
      call.returned = .ok position := by
    intro call hcall
    rw [hcall] at hcalls
    rw [List.singleton_inj.mp (List.append_cancel_left hcalls)]
  have hkept : ∀ position, ∀ call ∈ g.calls ++ [⟨record, .ok position, false⟩],
      call.refused = false ∧ call.returned.isOk = true := by
    intro position call hcall
    rcases List.mem_append.mp hcall with hcall | hcall
    · exact h.ok call hcall
    · rw [List.mem_singleton.mp hcall]
      exact ⟨rfl, rfl⟩
  cases hstep.outcome (fun _ hmay => hmay.elim) hok.rest with
  | refused => cases hreturned _ rfl
  | buffered rest => exact ⟨⟨_, _, _, _, hok.push hnoSync rest⟩, hkept _⟩
  | appendFlushed rest front flushed placed =>
    exact ⟨⟨_, _, _, _, (hok.push hnoSync rest).flushedTo flushed⟩, hkept _⟩
  | appendFailed rest front back => cases hreturned _ rfl

/-- Every call returned a position. -/
theorem GroupKept.okCalls_eq (h : GroupKept inner k n₀ initial g) : okCalls g.calls = g.calls :=
  List.filter_eq_self.mpr fun call hcall => (h.ok call hcall).2

/-- **Nothing is lost if and only if nothing is buffered.** -/
theorem GroupKept.nothingLost_iff (h : GroupKept inner k n₀ initial g) :
    NothingLost inner n₀ initial g ↔ g.state.buffered = [] := by
  obtain ⟨older, active, n, added, hok⟩ := h.rest
  have htake : ∀ m, acceptedCalls (g.calls.take m) = g.calls.take m ∧
      acceptedCalls (g.calls.drop m) = g.calls.drop m := fun m =>
    ⟨List.filter_eq_self.mpr fun call hcall => by
        rw [(h.ok call (List.mem_of_mem_take hcall)).1]; rfl,
      List.filter_eq_self.mpr fun call hcall => by
        rw [(h.ok call (List.mem_of_mem_drop hcall)).1]; rfl⟩
  have hwritten := hok.written
  have hpending := congrArg List.length hok.pending
  rw [(htake _).1] at hwritten
  rw [(htake _).2, List.length_map, length_numbered, List.length_drop] at hpending
  have hread : readEntriesAfter g.world.dir none = .ok (initial ++ added) := by
    rw [hok.rest.log.stored.readEntriesAfter, hok.log]
  constructor
  · rintro ⟨added', hread', hrecords⟩
    rw [hread, Except.ok.injEq, List.append_cancel_left_eq] at hread'
    subst hread'
    rw [h.okCalls_eq, hwritten] at hrecords
    have hlength := congrArg List.length hrecords
    rw [length_numbered, length_numbered, List.length_take] at hlength
    exact List.length_eq_zero_iff.mp (by omega)
  · intro hbuffered
    rw [hbuffered, List.length_nil] at hpending
    refine ⟨added, hread, ?_⟩
    rw [h.okCalls_eq, hwritten, List.take_of_length_le (by omega)]

/-- **What holds in every run**: the count is that of the references, and a handle that flushes in its
`drop` is the only one. -/
structure SharedOk (inner : WalWriterInner) (k n₀ : Nat) (initial : List WalEntry) (s : SharedInner) :
    Prop where
  group : GroupKept inner k n₀ initial s.group
  count : s.strongCount = s.handles.length + s.flushLoop.references
  only : .flushing ∈ s.handles → s.handles = [.flushing]

omit [RecordCodec] in
/-- A handle that flushes is not live. -/
theorem not_flushing_of_live (honly : .flushing ∈ s.handles → s.handles = [.flushing])
    (hlive : .live ∈ s.handles) : .flushing ∉ s.handles := by
  intro hflushing
  rw [honly hflushing, List.mem_singleton] at hlive
  cases hlive

/-- **One step** keeps it. -/
theorem SharedOk.step (h : SharedOk inner k n₀ initial s) (hnoSync : inner.noSync = true)
    (hstep : SharedStep inner s action s') : SharedOk inner k n₀ initial s' := by
  have hcount := h.count
  cases hstep with
  | append hlive hstep => exact ⟨h.group.appendsTo hnoSync hstep, hcount, h.only⟩
  | flush hlive hstep => exact ⟨(h.group.flushesTo hstep).1, hcount, h.only⟩
  | clone hlive =>
    refine ⟨h.group, ?_, fun hflushing => ?_⟩
    · simp only [List.length_append, List.length_singleton]
      omega
    · rcases List.mem_append.mp hflushing with hmem | hmem
      · exact absurd hmem (not_flushing_of_live h.only hlive)
      · cases List.mem_singleton.mp hmem
  | @readCount front back hhandle =>
    have hlive : .live ∈ s.handles := by rw [hhandle]; simp
    have hnot := not_flushing_of_live h.only hlive
    rw [hhandle] at hcount hnot
    simp only [List.length_append, List.length_cons] at hcount
    refine ⟨h.group, ?_, fun hflushing => ?_⟩
    · simp only [List.length_append, List.length_cons]
      omega
    · split_ifs at hflushing ⊢ with hone
      · -- the count is one, so there is no other handle
        have hfront : front = [] := List.length_eq_zero_iff.mp (by omega)
        have hback : back = [] := List.length_eq_zero_iff.mp (by omega)
        rw [hfront, hback, List.nil_append]
      · refine absurd ?_ hnot
        simpa using hflushing
  | @dropFlush front back g hhandle hstep =>
    have honly := h.only (by rw [hhandle]; simp)
    rw [hhandle] at honly hcount
    simp only [List.length_append, List.length_cons] at hcount
    have hlength := congrArg List.length honly
    simp only [List.length_append, List.length_cons, List.length_nil] at hlength
    have hfront : front = [] := List.length_eq_zero_iff.mp (by omega)
    have hback : back = [] := List.length_eq_zero_iff.mp (by omega)
    subst hfront hback
    exact ⟨(h.group.flushesTo hstep).1, hcount, by simp⟩
  | @release front back hhandle =>
    have honly := h.only
    rw [hhandle] at hcount honly
    simp only [List.length_append, List.length_cons] at hcount
    refine ⟨h.group, ?_, fun hflushing => ?_⟩
    · simp only [List.length_append]
      omega
    · have hall := honly (by simpa using hflushing)
      have hmem : HandlePc.leaving ∈ front ++ .leaving :: back := by simp
      rw [hall, List.mem_singleton] at hmem
      cases hmem
  | readInterval hpc hne =>
    rw [hpc] at hcount
    exact ⟨h.group, by simp only [hcount, FlushLoopPc.references], h.only⟩
  | sleep hpc =>
    rw [hpc] at hcount
    exact ⟨h.group, by simp only [hcount, FlushLoopPc.references]; omega, h.only⟩
  | wake hpc hne =>
    rw [hpc] at hcount
    exact ⟨h.group, by simp only [hcount, FlushLoopPc.references], h.only⟩
  | loopFlush hpc hstep =>
    rw [hpc] at hcount
    exact ⟨(h.group.flushesTo hstep).1, hcount, h.only⟩
  | loopRelease hpc =>
    rw [hpc] at hcount
    exact ⟨h.group, by simp only [hcount, FlushLoopPc.references]; omega, h.only⟩
  | stop hpc hzero =>
    have hreferences : s.flushLoop.references = 0 := by
      rcases hpc with hpc | hpc <;> rw [hpc] <;> rfl
    rw [hreferences] at hcount
    exact ⟨h.group, hcount, h.only⟩

/-- A writer that was opened. -/
theorem Opened.sharedOk (hopened : Opened inner k n₀ initial g) :
    SharedOk inner k n₀ initial (.new g) := by
  obtain ⟨older, active, hok⟩ := hopened.noSyncOk
  refine ⟨⟨⟨_, _, _, _, hok⟩, fun call hcall => ?_⟩, rfl, by simp [SharedInner.new]⟩
  simp only [SharedInner.new, hopened.calls, List.not_mem_nil] at hcall

/-- **A whole run** keeps it. -/
theorem SharedOk.runs (h : SharedOk inner k n₀ initial s) (hnoSync : inner.noSync = true)
    (hruns : SharedRuns inner s s') : SharedOk inner k n₀ initial s' := by
  induction hruns with
  | refl => exact h
  | tail _ hstep ih =>
    obtain ⟨action, hstep⟩ := hstep
    exact ih.step hnoSync hstep

/-! ### Who flushes -/

/-- **Somebody is left to flush** what is buffered. -/
def SharedInner.Attended (s : SharedInner) : Prop :=
  .live ∈ s.handles ∨ .flushing ∈ s.handles ∨ s.flushLoop = .holding ∨ s.group.state.buffered = []

/-- **One step** in which nobody reads the count without leaving somebody to flush. -/
theorem SharedOk.attended_step (h : SharedOk inner k n₀ initial s) (hattended : s.Attended)
    (hstep : SharedStep inner s action s')
    (hsafe : ∀ others, action = .readCount others → s.CountSafe others) : s'.Attended := by
  cases hstep with
  | append hlive hstep => exact Or.inl hlive
  | flush hlive hstep => exact Or.inl hlive
  | clone hlive => exact Or.inl (List.mem_append_left _ hlive)
  | @readCount front back hhandle =>
    rcases hsafe _ rfl with hone | hlive | hholding | hbuffered
    · exact Or.inr (Or.inl (by simp [hone]))
    · refine Or.inl ?_
      rcases List.mem_append.mp hlive with hlive | hlive
      · exact List.mem_append_left _ hlive
      · exact List.mem_append_right _ (List.mem_cons_of_mem _ hlive)
    · exact Or.inr (Or.inr (Or.inl hholding))
    · exact Or.inr (Or.inr (Or.inr hbuffered))
  | dropFlush hhandle hstep => exact Or.inr (Or.inr (Or.inr (h.group.flushesTo hstep).2))
  | @release front back hhandle =>
    have hkeep : ∀ pc ∈ s.handles, pc ≠ .leaving → pc ∈ front ++ back := by
      intro pc hpc hne
      rw [hhandle] at hpc
      rcases List.mem_append.mp hpc with hpc | hpc
      · exact List.mem_append_left _ hpc
      · exact List.mem_append_right _ ((List.mem_cons.mp hpc).resolve_left hne)
    exact hattended.imp (fun hlive => hkeep _ hlive (by rintro ⟨⟩))
      (Or.imp_left fun hflushing => hkeep _ hflushing (by rintro ⟨⟩))
  | loopFlush hpc hstep => exact Or.inr (Or.inr (Or.inr (h.group.flushesTo hstep).2))
  | readInterval hpc hne | sleep hpc | loopRelease hpc =>
    refine hattended.imp_right (Or.imp_right fun hrest => hrest.elim (fun hholding => ?_) Or.inr)
    rw [hpc] at hholding
    cases hholding
  | wake hpc hne => exact hattended.imp_right (Or.imp_right fun _ => Or.inl rfl)
  | stop hpc hzero =>
    refine hattended.imp_right (Or.imp_right fun hrest => hrest.elim (fun hholding => ?_) Or.inr)
    rcases hpc with hpc | hpc <;> rw [hpc] at hholding <;> cases hholding

/-- When the inner state is freed, nobody is left. -/
theorem SharedOk.buffered_eq_nil (h : SharedOk inner k n₀ initial s) (hattended : s.Attended)
    (hfreed : s.strongCount = 0) : s.group.state.buffered = [] := by
  have hcount := h.count
  have hhandles : s.handles = [] := List.length_eq_zero_iff.mp (by omega)
  rcases hattended with hlive | hflushing | hholding | hbuffered
  · rw [hhandles] at hlive
    cases hlive
  · rw [hhandles] at hflushing
    cases hflushing
  · rw [hholding, FlushLoopPc.references] at hcount
    omega
  · exact hbuffered

/-- **A whole run** in which every handle that reads the count leaves somebody to flush. -/
theorem CountSafeRuns.attended (hnoSync : inner.noSync = true) (hopened : Opened inner k n₀ initial g)
    (hruns : CountSafeRuns inner (.new g) s) : SharedOk inner k n₀ initial s ∧ s.Attended := by
  induction hruns with
  | refl => exact ⟨hopened.sharedOk, Or.inl (List.mem_singleton.mpr rfl)⟩
  | tail _ hstep ih =>
    obtain ⟨action, hstep, hsafe⟩ := hstep
    exact ⟨ih.1.step hnoSync hstep, ih.1.attended_step ih.2 hstep hsafe⟩

/-- **Graceful shutdown loses nothing** where appends do not wait, in every run of the handles and the
flush thread in which a handle that reads the count leaves somebody to flush: when the inner state is
freed, every record whose append returned a position is in the log, in order. -/
theorem shutdown_keeps_appends (hnoSync : inner.noSync = true) (hopened : Opened inner k n₀ initial g)
    (hruns : CountSafeRuns inner (.new g) s) (hfreed : s.strongCount = 0) :
    NothingLost inner n₀ initial s.group := by
  obtain ⟨hok, hattended⟩ := hruns.attended hnoSync hopened
  exact hok.group.nothingLost_iff.mpr (hok.buffered_eq_nil hattended hfreed)

/-! ### Where nobody is left -/

omit [RecordCodec] in
/-- A handle that is left to be released is not live and does not flush. -/
theorem HandlePc.eq_leaving {pc : HandlePc} (hlive : pc ≠ .live) (hflushing : pc ≠ .flushing) :
    pc = .leaving := by
  cases pc with
  | live => exact absurd rfl hlive
  | flushing => exact absurd rfl hflushing
  | leaving => rfl

/-- The handles are released one after another. -/
theorem releaseAll (handles : List HandlePc) (hall : ∀ pc ∈ handles, pc = .leaving)
    (g : Group) (pc : FlushLoopPc) :
    SharedRuns inner ⟨g, handles, handles.length, pc⟩ ⟨g, [], 0, pc⟩ := by
  induction handles with
  | nil => exact Relation.ReflTransGen.refl
  | cons handle handles ih =>
    have hhandle : handle = .leaving := hall handle List.mem_cons_self
    subst hhandle
    have hstep : SharedStep inner
        ⟨g, .leaving :: handles, (HandlePc.leaving :: handles).length, pc⟩ .release
        ⟨g, handles, handles.length, pc⟩ := @SharedStep.release _ _ _ [] _ rfl
    exact (ih fun pc hpc => hall pc (List.mem_cons_of_mem _ hpc)).head ⟨_, hstep⟩

/-- The flush thread lets go of the inner state, where it is not about to flush. -/
theorem flushLoop_letsGo (h : SharedOk inner k n₀ initial s) (hpc : s.flushLoop ≠ .holding) :
    ∃ pc, SharedRuns inner s ⟨s.group, s.handles, s.handles.length, pc⟩ := by
  obtain ⟨g, handles, count, pc⟩ := s
  have hcount : count = handles.length + pc.references := h.count
  subst hcount
  cases pc with
  | holding => exact absurd rfl hpc
  | reading => exact ⟨_, Relation.ReflTransGen.single ⟨_, .sleep rfl⟩⟩
  | flushed => exact ⟨_, Relation.ReflTransGen.single ⟨_, .loopRelease rfl⟩⟩
  | start => exact ⟨.start, Relation.ReflTransGen.refl⟩
  | sleeping => exact ⟨.sleeping, Relation.ReflTransGen.refl⟩
  | stopped => exact ⟨.stopped, Relation.ReflTransGen.refl⟩

/-- **Where a handle reads the count and leaves nobody to flush**, the records that are buffered can be
lost: the flush thread lets go, and the handles are released. -/
theorem readCount_canLose (hnoSync : inner.noSync = true) (hopened : Opened inner k n₀ initial g)
    (hruns : SharedRuns inner (.new g) s) {others : List HandlePc}
    (hstep : SharedStep inner s (.readCount others) s') (hnobody : ¬s.CountSafe others) :
    ∃ s'', SharedRuns inner s' s'' ∧ s''.strongCount = 0 ∧ ¬NothingLost inner n₀ initial s''.group := by
  have hok := hopened.sharedOk.runs hnoSync hruns
  have hok' := hok.step hnoSync hstep
  have hnobody := not_or.mp hnobody
  obtain ⟨hone, hlive, hholding, hbuffered⟩ := hnobody.imp_right fun h =>
    (not_or.mp h).imp_right not_or.mp
  cases hstep with
  | @readCount front back hhandle =>
    have hnot := not_flushing_of_live hok.only (by rw [hhandle]; simp)
    rw [if_neg hone] at hok'
    have hall : ∀ pc ∈ front ++ .leaving :: back, pc = .leaving := by
      intro pc hpc
      by_contra hne
      have hmem : pc ∈ front ++ back := by
        rcases List.mem_append.mp hpc with hpc | hpc
        · exact List.mem_append_left _ hpc
        · exact List.mem_append_right _ ((List.mem_cons.mp hpc).resolve_left hne)
      have hhandles : pc ∈ s.handles := by
        rw [hhandle]
        rcases List.mem_append.mp hmem with hmem | hmem
        · exact List.mem_append_left _ hmem
        · exact List.mem_append_right _ (List.mem_cons_of_mem _ hmem)
      exact hne (HandlePc.eq_leaving (fun heq => hlive (heq ▸ hmem)) fun heq => hnot (heq ▸ hhandles))
    rw [if_neg hone]
    obtain ⟨pc, hgo⟩ := flushLoop_letsGo hok' hholding
    refine ⟨_, hgo.trans (releaseAll _ hall _ _), rfl, fun hkept => ?_⟩
    exact hbuffered (hok.group.nothingLost_iff.mp hkept)

end Runs

/-! ### Running the steps -/

/-- An execution of an append that returns a position. -/
theorem appendsTo_exec {inner : WalWriterInner} {g : Group} {record : WalRecord}
    (h : (((appendBuffered inner record (inner.channel g.calls.length)).start g.state).exec
      (sysAnswer noFailure) g.world).1.1.isOk = true) :
    AppendsTo inner g record (g.exec noFailure inner (.append record)) := by
  refine ⟨groupStep_exec noFailure_mayFail _ _ _, ?_⟩
  simp only [Group.exec]
  generalize (((appendBuffered inner record (inner.channel g.calls.length)).start g.state).exec
    (sysAnswer noFailure) g.world).1.1 = result at h
  cases result with
  | ok position => exact ⟨position, _, rfl⟩
  | error error => cases h

/-- An execution of a flush that succeeds. -/
theorem flushesTo_exec {inner : WalWriterInner} {g : Group}
    (h : (((flushBufferLocked inner).start g.state).exec (sysAnswer noFailure) g.world).1.1.isOk =
      true) :
    FlushesTo inner g (g.exec noFailure inner .flush) := by
  have hrun := runs_sysAnswer noFailure_mayFail ((flushBufferLocked inner).start g.state) g.world
  rw [Group.exec]
  revert hrun h
  generalize ((flushBufferLocked inner).start g.state).exec (sysAnswer noFailure) g.world = result
  obtain ⟨⟨result, t⟩, w⟩ := result
  intro h hrun
  cases result with
  | ok => exact ⟨t, w, hrun, rfl⟩
  | error error => cases h

end Codec

section Sample

attribute [local instance] referenceCodec

theorem appendsTo_oneBuffered :
    AppendsTo bufferingInner sampleGroup (sampleRecord "a") oneBuffered :=
  appendsTo_exec (by decide +kernel)

/-- One handle appends a record and is dropped: it flushes. -/
theorem shutdown_keeps_appends_sample :
    NothingLost bufferingInner 0 [] (oneBuffered.exec noFailure bufferingInner .flush) := by
  have hsafe : ∀ (s : SharedInner) (action : SharedAction), s.strongCount = 1 →
      ∀ others, action = .readCount others → s.CountSafe others :=
    fun _ _ hone _ _ => Or.inl hone
  have happend : CountSafeRuns bufferingInner (.new sampleGroup) ⟨oneBuffered, [.live], 1, .start⟩ :=
    Relation.ReflTransGen.single
      ⟨_, .append (List.mem_singleton.mpr rfl) appendsTo_oneBuffered, hsafe _ _ rfl⟩
  have hcount : CountSafeRuns bufferingInner (.new sampleGroup)
      ⟨oneBuffered, [.flushing], 1, .start⟩ :=
    happend.tail ⟨_, @SharedStep.readCount _ _ _ [] [] rfl, hsafe _ _ rfl⟩
  have hflush : CountSafeRuns bufferingInner (.new sampleGroup)
      ⟨oneBuffered.exec noFailure bufferingInner .flush, [.leaving], 1, .start⟩ :=
    hcount.tail ⟨_, @SharedStep.dropFlush _ _ _ [] [] _ rfl (flushesTo_exec (by decide +kernel)),
      hsafe _ _ rfl⟩
  have hrelease : CountSafeRuns bufferingInner (.new sampleGroup)
      ⟨oneBuffered.exec noFailure bufferingInner .flush, [], 0, .start⟩ :=
    hflush.tail ⟨_, @SharedStep.release _ _ _ [] [] rfl, hsafe _ _ rfl⟩
  have hkept := shutdown_keeps_appends rfl (sampleGroup_opened _ rfl) hrelease rfl
  exact hkept

/-- **Two handles that are dropped at once lose a record**: both read a count of two. -/
theorem shutdown_loses_append :
    ¬∀ (inner : WalWriterInner) (k n : Nat) (initial : List WalEntry) (g : Group) (s : SharedInner),
      inner.noSync = true → Opened inner k n initial g → SharedRuns inner (.new g) s →
      s.strongCount = 0 → NothingLost inner n initial s.group := by
  intro hclaim
  have hopened := sampleGroup_opened bufferingInner rfl
  have hruns : SharedRuns bufferingInner (.new sampleGroup)
      ⟨oneBuffered, [.leaving, .live], 2, .start⟩ :=
    ((Relation.ReflTransGen.single
      ⟨_, .append (List.mem_singleton.mpr rfl) appendsTo_oneBuffered⟩).tail
      ⟨_, .clone (List.mem_singleton.mpr rfl)⟩).tail
      ⟨_, @SharedStep.readCount _ _ _ [] [.live] rfl⟩
  have hnobody : ¬SharedInner.CountSafe ⟨oneBuffered, [.leaving, .live], 2, .start⟩ [.leaving] := by
    have hbuffered : oneBuffered.state.buffered ≠ [] := by decide +kernel
    rintro (hone | hlive | hholding | hempty)
    · cases hone
    · cases List.mem_singleton.mp hlive
    · cases hholding
    · exact hbuffered hempty
  obtain ⟨s, hruns', hfreed, hlost⟩ := readCount_canLose rfl hopened hruns
    (@SharedStep.readCount _ _ _ [.leaving] [] rfl) hnobody
  exact hlost (hclaim _ _ _ _ _ s rfl hopened
    ((hruns.tail ⟨_, @SharedStep.readCount _ _ _ [.leaving] [] rfl⟩).trans hruns') hfreed)

end Sample

end Ingest4x.Wal
