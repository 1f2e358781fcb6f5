import Ingest4x.Wal.Writer

/-! # Rules of the file operations

What it takes for a file operation of a starting writer to meet a specification: that its success
does and, where it may fail, that each failure does. As equivalences the rules also say what a
specification that is met says about the outcomes.

* **`forall_fallible`**, **`forall_onSegment`** — the rules of the two shapes of operations.
* **`wpc_readDir`**, **`wpc_createSegment`**, **`wpc_removeSegment`** and the other operations. -/

namespace Ingest4x.Wal

open Effect

section Shapes

variable {σ : Type} {mayFail found : Prop} {done s : σ} {partly : σ → Prop} {Q : Unit → σ → Prop}
  {E : IoError → σ → Prop}

/-- A fallible operation. -/
theorem forall_fallible :
    (∀ r s', Fallible mayFail done partly r s' →
      (∀ a, r = .ok a → Q a s') ∧ ∀ e, r = .error e → E e s') ↔
      Q () done ∧ (mayFail → ∀ e s', partly s' → E e s') := by
  constructor
  · intro h
    refine ⟨(h _ _ (Or.inl ⟨rfl, rfl⟩)).1 () rfl, fun hmay e s' hpartly => ?_⟩
    exact (h _ s' (Or.inr ⟨hmay, ⟨e, rfl⟩, hpartly⟩)).2 e rfl
  · rintro ⟨hdone, hfail⟩ r s' (⟨rfl, rfl⟩ | ⟨hmay, ⟨e, rfl⟩, hpartly⟩)
    · exact ⟨fun _ _ => hdone, by rintro _ ⟨⟩⟩
    · refine ⟨by rintro _ ⟨⟩, ?_⟩
      rintro _ ⟨⟩
      exact hfail hmay e s' hpartly

/-- An operation on a segment that must be there. -/
theorem forall_onSegment {segments : SortedTable Nat SegmentFile} {segmentId : Nat}
    {after : Except IoError Unit → σ → Prop} :
    (∀ r s', OnSegment segments segmentId s r s' (after r s') →
      (∀ a, r = .ok a → Q a s') ∧ ∀ e, r = .error e → E e s') ↔
      (segments.lookup segmentId = none → E notFoundError s) ∧
        (segments.lookup segmentId ≠ none → ∀ r s', after r s' →
          (∀ a, r = .ok a → Q a s') ∧ ∀ e, r = .error e → E e s') := by
  constructor
  · intro h
    refine ⟨fun hnone => (h _ s (Or.inl ⟨hnone, rfl, rfl⟩)).2 _ rfl, fun hsome r s' hafter => ?_⟩
    exact h r s' (Or.inr ⟨hsome, hafter⟩)
  · rintro ⟨hnone, hsome⟩ r s' (⟨hlookup, rfl, rfl⟩ | ⟨hlookup, hafter⟩)
    · refine ⟨by rintro _ ⟨⟩, ?_⟩
      rintro _ ⟨⟩
      exact hnone hlookup
    · exact hsome hlookup r s' hafter

end Shapes

section Operations

variable {τ : Type} {mayFail : SysOp → Prop} {P : SysOp → World → Prop} {t : τ} {w : World}
  {Q : Unit → τ → World → Prop} {E : IoError → τ → World → Prop}

theorem wpc_createDirAll :
    wpc (sysEnv mayFail) P (fileOp (sys .createDirAll)) Q E t w ↔
      P .createDirAll w ∧ Q () t w ∧ (mayFail .createDirAll → ∀ e, E e t w) := by
  rw [fileOp, wpc_orThrow, wpc_perform]
  refine and_congr_right' (forall_fallible.trans (and_congr_right' (imp_congr_right fun _ => ?_)))
  exact forall_congr' fun e => forall_eq

theorem wpc_acquireWalLock :
    wpc (sysEnv mayFail) P (fileOp (sys .acquireWalLock)) Q E t w ↔
      P .acquireWalLock w ∧ Q () t w ∧ (mayFail .acquireWalLock → ∀ e, E e t w) := by
  rw [fileOp, wpc_orThrow, wpc_perform]
  refine and_congr_right' (forall_fallible.trans (and_congr_right' (imp_congr_right fun _ => ?_)))
  exact forall_congr' fun e => forall_eq

theorem wpc_syncDirectory {site : Site} :
    wpc (sysEnv mayFail) P (fileOp (sys (.syncDirectory site))) Q E t w ↔
      P (.syncDirectory site) w ∧ Q () t w ∧ (mayFail (.syncDirectory site) → ∀ e, E e t w) := by
  rw [fileOp, wpc_orThrow, wpc_perform]
  refine and_congr_right' (forall_fallible.trans (and_congr_right' (imp_congr_right fun _ => ?_)))
  exact forall_congr' fun e => forall_eq

theorem wpc_readDir {Q : WalDir → τ → World → Prop} :
    wpc (sysEnv mayFail) P readDir Q E t w ↔
      P .readDir w ∧ Q w.dir t w ∧ (mayFail .readDir → ∀ e, E e t w) := by
  rw [readDir, fileOp, wpc_orThrow, wpc_perform]
  refine and_congr_right' ⟨fun h => ?_, ?_⟩
  · refine ⟨(h (.ok w.dir) w ⟨rfl, Or.inl rfl⟩).1 _ rfl, fun hmay e => ?_⟩
    exact (h (.error e) w ⟨rfl, Or.inr ⟨hmay, e, rfl⟩⟩).2 e rfl
  · rintro ⟨hdir, hfail⟩ r w' ⟨rfl, rfl | ⟨hmay, e, rfl⟩⟩
    · refine ⟨?_, by rintro _ ⟨⟩⟩
      rintro _ ⟨⟩
      exact hdir
    · exact ⟨by rintro _ ⟨⟩, fun e _ => hfail hmay e⟩

/-- A failed write of the node id file may have written it. -/
theorem wpc_writeNodeIdFile {nodeId : String} :
    wpc (sysEnv mayFail) P (fileOp (sys (.writeNodeIdFile nodeId))) Q E t w ↔
      let done := { w with dir := { w.dir with nodeIdFile := some (nodeId ++ "\n") } }
      P (.writeNodeIdFile nodeId) w ∧ Q () t done ∧
        (mayFail (.writeNodeIdFile nodeId) → ∀ e, E e t w ∧ E e t done) := by
  rw [fileOp, wpc_orThrow, wpc_perform]
  refine and_congr_right' (forall_fallible.trans (and_congr_right' (imp_congr_right fun _ => ?_)))
  exact forall_congr' fun e => forall_eq_or_imp.trans (and_congr_right' forall_eq)

/-- A failed creation of a segment may have created it. -/
theorem wpc_createSegment {site : Site} {segmentId : Nat} {header : Bytes} :
    wpc (sysEnv mayFail) P (fileOp (sys (.createSegment site segmentId header))) Q E t w ↔
      let done := w.withSegments (w.dir.segments.insert segmentId (.created header))
      P (.createSegment site segmentId header) w ∧ Q () t done ∧
        (mayFail (.createSegment site segmentId header) → ∀ e, E e t w ∧ E e t done) := by
  rw [fileOp, wpc_orThrow, wpc_perform]
  refine and_congr_right' (forall_fallible.trans (and_congr_right' (imp_congr_right fun _ => ?_)))
  exact forall_congr' fun e => forall_eq_or_imp.trans (and_congr_right' forall_eq)

theorem wpc_removeSegment {site : Site} {segmentId : Nat}
    (hlookup : w.dir.segments.lookup segmentId ≠ none) :
    wpc (sysEnv mayFail) P (fileOp (sys (.removeSegment site segmentId))) Q E t w ↔
      P (.removeSegment site segmentId) w ∧
        Q () t (w.withSegments (w.dir.segments.erase segmentId)) ∧
        (mayFail (.removeSegment site segmentId) → ∀ e, E e t w) := by
  rw [fileOp, wpc_orThrow, wpc_perform]
  refine and_congr_right' (forall_onSegment.trans ?_)
  rw [and_iff_right fun hnone => absurd hnone hlookup, forall_fallible, imp_iff_right hlookup]
  exact and_congr_right' (imp_congr_right fun _ => forall_congr' fun e => forall_eq)

/-- A failed truncation may have set the length without syncing it. -/
theorem wpc_truncateSegment {site : Site} {segmentId len : Nat}
    (hlookup : w.dir.segments.lookup segmentId ≠ none) :
    wpc (sysEnv mayFail) P (fileOp (sys (.truncateSegment site segmentId len))) Q E t w ↔
      P (.truncateSegment site segmentId len) w ∧
        Q () t (w.withSegments
          (w.dir.segments.modify segmentId fun file => (file.truncate len).sync)) ∧
        (mayFail (.truncateSegment site segmentId len) → ∀ e, E e t w ∧
          E e t (w.withSegments (w.dir.segments.modify segmentId (·.truncate len)))) := by
  rw [fileOp, wpc_orThrow, wpc_perform]
  refine and_congr_right' (forall_onSegment.trans ?_)
  rw [and_iff_right fun hnone => absurd hnone hlookup, forall_fallible, imp_iff_right hlookup]
  exact and_congr_right' (imp_congr_right fun _ => forall_congr' fun e =>
    forall_eq_or_imp.trans (and_congr_right' forall_eq))

end Operations

end Ingest4x.Wal
