import Ingest4x.Effect.Snapshot
import Ingest4x.Repositories.Schema

/-! # Two writers of one version

Two transactions that change the same registry, and the loads of that registry. A transaction reads
the version in its snapshot, writes the next one under the lock of the row, and commits: what it
writes is an absolute value, so a writer whose snapshot is older than the other's commit writes the
same version again.

* **`BumpState.step`** — the steps of both transactions and of any loads.
* **`versions_differ_iff`** — when no load hides a writer. -/

namespace Ingest4x

open Effect

/-! ### Transactions and loads -/

/-- The two transactions. -/
inductive Writer
  | one
  | two
  deriving DecidableEq

/-- The other transaction. -/
def Writer.other : Writer → Writer
  | .one => .two
  | .two => .one

@[simp] theorem Writer.other_other (t : Writer) : t.other.other = t := by cases t <;> rfl

theorem Writer.other_ne (t : Writer) : t.other ≠ t := by cases t <;> exact nofun

theorem Writer.eq_or_eq_other (t u : Writer) : u = t ∨ u = t.other := by
  cases t <;> cases u <;> first | exact Or.inl rfl | exact Or.inr rfl

/-- **What is committed**: the version row, and whose changes. -/
structure VersionRow where
  version : Nat
  committed : Writer → Bool

/-- **Where a transaction stands**: the version that it read in its snapshot, and wrote. With the
snapshot comes whether the other one was committed by then. -/
inductive TxnPc
  | begun
  | read (version : Nat) (sawOther : Bool)
  | written (version : Nat) (sawOther : Bool)
  | committed (sawOther : Bool)

/-- The snapshot of a transaction was taken after the other's commit. -/
def TxnPc.sawOther : TxnPc → Bool
  | .begun => false
  | .read _ saw | .written _ saw | .committed saw => saw

/-- A transaction is committed. -/
def TxnPc.isCommitted : TxnPc → Bool
  | .committed _ => true
  | _ => false

/-- The queries of a load: what is committed at each of them. -/
def observe (seen : List (Writer → Bool)) :
    Nat → Query VersionRow (Except Unit (List (Writer → Bool)))
  | 0 => .pure (.ok seen)
  | n + 1 => .op () fun row => observe (row.committed :: seen) n

/-- A load with a number of queries between its two reads of the version. -/
def versionSource (queries : Nat) :
    SnapshotSource VersionRow (List (Writer → Bool)) Unit Unit (List (Writer → Bool)) where
  version := VersionRow.version
  load := observe [] queries
  build seen := .ok fun _ => seen

/-- **Both transactions, and the loads of the registry**: those under way, and what the finished ones
saw, with their versions. -/
structure BumpState (ι : Type) where
  row : VersionRow
  rowLock : Option Writer
  txns : Writer → TxnPc
  loaders : ι → LoadPc VersionRow (List (Writer → Bool)) Unit
  loads : List (List (Writer → Bool) × Nat)

/-- No transaction has read yet, and no load has begun. -/
def BumpState.start {ι : Type} (version : Nat) : BumpState ι :=
  ⟨⟨version, fun _ => false⟩, none, fun _ => .begun, fun _ => .before, []⟩

/-- A step of a transaction, or of a load. -/
inductive BumpAction (ι : Type)
  | snapshot (t : Writer)
  | write (t : Writer)
  | commit (t : Writer)
  | load (i : ι)

section Runs

variable {ι : Type} [DecidableEq ι]

/-- **A step**, where it can be taken: the row lock is held from the write to the commit. -/
def BumpState.step (queries : ι → Nat) (st : BumpState ι) : BumpAction ι → Option (BumpState ι)
  | .snapshot t =>
    match st.txns t with
    | .begun => some { st with
        txns := Function.update st.txns t (.read st.row.version (st.row.committed t.other)) }
    | _ => none
  | .write t =>
    match st.txns t, st.rowLock with
    | .read version saw, none => some { st with
        rowLock := some t
        txns := Function.update st.txns t (.written (nextVersion version) saw) }
    | _, _ => none
  | .commit t =>
    match st.txns t with
    | .written version saw => some { st with
        row := ⟨version, Function.update st.row.committed t true⟩
        rowLock := none
        txns := Function.update st.txns t (.committed saw) }
    | _ => none
  | .load i =>
    match (st.loaders i).step (versionSource (queries i)) st.row with
    | .more pc => some { st with loaders := Function.update st.loaders i pc }
    | .done seen version => some { st with
        loaders := Function.update st.loaders i .before
        loads := (seen (), version) :: st.loads }
    | .failed => none

/-- **The states of the runs.** -/
inductive BumpReachable (queries : ι → Nat) (version : Nat) : BumpState ι → Prop
  | start : BumpReachable queries version (.start version)
  | step {st st' : BumpState ι} (h : BumpReachable queries version st) (action : BumpAction ι)
      (hstep : st.step queries action = some st') : BumpReachable queries version st'

/-- A load had an answer while exactly one of the two was committed. -/
def SeesOne (seen : List (Writer → Bool)) : Prop :=
  ∃ committed ∈ seen, committed .one ≠ committed .two

/-! ### The invariant -/

/-- What holds of a load under way: if it saw one of the two, it began before the version of that one,
or at it. -/
def LoaderOk (version : Nat) (row : VersionRow) :
    LoadPc VersionRow (List (Writer → Bool)) Unit → Prop
  | .before => True
  | .querying before rest => before ≤ row.version ∧ ∃ seen n, rest = observe seen n ∧
      (SeesOne seen → before ≤ version + 1 ∧ version + 1 ≤ row.version)
  | .after before seen => before ≤ row.version ∧
      (SeesOne seen → before ≤ version + 1 ∧ version + 1 ≤ row.version)

/-- What holds of a transaction: the version that it read or wrote follows from what it saw. -/
def TxnOk (version : Nat) (row : VersionRow) (t : Writer) : TxnPc → Prop
  | .begun => row.committed t = false
  | .read v saw => row.committed t = false ∧ v = version + saw.toNat ∧
      (saw = true → row.committed t.other = true)
  | .written v saw => row.committed t = false ∧ v = version + saw.toNat + 1 ∧
      (saw = true → row.committed t.other = true)
  | .committed _ => row.committed t = true

/-- **The invariant of the runs.** -/
structure BumpOk (version : Nat) (st : BumpState ι) : Prop where
  txns : ∀ t, TxnOk version st.row t (st.txns t)
  none : (∀ t, st.row.committed t = false) → st.row.version = version
  one : ∀ t, st.row.committed t = true → st.row.committed t.other = false →
    st.row.version = version + 1 ∧ (st.txns t).sawOther = false
  both : (∀ t, st.row.committed t = true) →
    st.row.version = version + 1 + ((st.txns .one).sawOther || (st.txns .two).sawOther).toNat
  loaders : ∀ i, LoaderOk version st.row (st.loaders i)
  loads : ∀ load ∈ st.loads, SeesOne load.1 → load.2 = version + 1

omit [DecidableEq ι] in
/-- The version of a row of which one writer is committed. -/
theorem BumpOk.version_of_seesOne {version : Nat} {st : BumpState ι} (h : BumpOk version st)
    (hone : st.row.committed .one ≠ st.row.committed .two) : st.row.version = version + 1 := by
  cases h₁ : st.row.committed .one with
  | false =>
    rw [h₁] at hone
    have h₂ : st.row.committed .two = true := by simpa using hone.symm
    exact (h.one .two h₂ h₁).1
  | true =>
    rw [h₁] at hone
    have h₂ : st.row.committed .two = false := by simpa using hone.symm
    exact (h.one .one h₁ h₂).1

/-- A step of a load keeps what holds of it. -/
theorem LoaderOk.step {version : Nat} {row : VersionRow}
    {pc : LoadPc VersionRow (List (Writer → Bool)) Unit} (h : LoaderOk version row pc) (queries : Nat)
    (hone : row.committed .one ≠ row.committed .two → row.version = version + 1) :
    match pc.step (versionSource queries) row with
    | .more pc' => LoaderOk version row pc'
    | .done seen v => SeesOne (seen ()) → v = version + 1
    | .failed => False := by
  cases pc with
  | before => exact ⟨Nat.le_refl _, [], queries, rfl, fun h => by simp [SeesOne] at h⟩
  | querying before rest =>
    obtain ⟨hle, seen, n, rfl, hseen⟩ := h
    cases n with
    | zero => exact ⟨hle, hseen⟩
    | succ n =>
      refine ⟨hle, row.committed :: seen, n, rfl, ?_⟩
      rintro ⟨committed, hmem, hne⟩
      rcases List.mem_cons.mp hmem with rfl | hold
      · have heq := hone hne
        exact ⟨heq ▸ hle, Nat.le_of_eq heq.symm⟩
      · exact hseen ⟨committed, hold, hne⟩
  | after before seen =>
    obtain ⟨-, hseen⟩ := h
    rw [LoadPc.step]
    by_cases heq : before = row.version
    · rw [if_pos (show before = (versionSource queries).version row from heq)]
      intro hsees
      obtain ⟨hle, hge⟩ := hseen hsees
      show before = version + 1
      omega
    · rw [if_neg (show ¬before = (versionSource queries).version row from heq)]
      trivial

/-- A later version of the row keeps what holds of a load. -/
theorem LoaderOk.mono {version : Nat} {row row' : VersionRow}
    {pc : LoadPc VersionRow (List (Writer → Bool)) Unit} (h : LoaderOk version row pc)
    (hle : row.version ≤ row'.version) : LoaderOk version row' pc := by
  cases pc with
  | before => trivial
  | querying before rest =>
    obtain ⟨hbefore, seen, n, hrest, hseen⟩ := h
    exact ⟨Nat.le_trans hbefore hle, seen, n, hrest, fun hsees =>
      ⟨(hseen hsees).1, Nat.le_trans (hseen hsees).2 hle⟩⟩
  | after before seen =>
    obtain ⟨hbefore, hseen⟩ := h
    exact ⟨Nat.le_trans hbefore hle, fun hsees =>
      ⟨(hseen hsees).1, Nat.le_trans (hseen hsees).2 hle⟩⟩

omit [DecidableEq ι] in
/-- The snapshot of a transaction that has not committed. -/
theorem BumpOk.version_of_snapshot {version : Nat} {st : BumpState ι} (h : BumpOk version st)
    {t : Writer} (hnot : st.row.committed t = false) :
    st.row.version = version + (st.row.committed t.other).toNat := by
  cases hother : st.row.committed t.other with
  | false =>
    refine h.none fun u => ?_
    rcases t.eq_or_eq_other u with rfl | rfl
    · exact hnot
    · exact hother
  | true => exact (h.one t.other hother (by rwa [Writer.other_other])).1

/-- **Every step keeps the invariant.** -/
theorem BumpOk.step {queries : ι → Nat} {version : Nat} {st st' : BumpState ι} {action : BumpAction ι}
    (h : BumpOk version st) (hstep : st.step queries action = some st') : BumpOk version st' := by
  cases action with
  | snapshot t =>
    rw [BumpState.step] at hstep
    split at hstep
    · next hbegun =>
      cases hstep
      have hnot : st.row.committed t = false := by
        have ht := h.txns t
        rwa [hbegun] at ht
      refine ⟨fun u => ?_, h.none, fun u hu hother => ?_, fun hall => ?_, h.loaders, h.loads⟩
      · rcases t.eq_or_eq_other u with rfl | rfl
        · simp only [Function.update_self]
          exact ⟨hnot, h.version_of_snapshot hnot, fun hsaw => hsaw⟩
        · simp only [Function.update_of_ne t.other_ne]
          exact h.txns t.other
      · rcases t.eq_or_eq_other u with rfl | rfl
        · rw [hnot] at hu
          cases hu
        · simp only [Function.update_of_ne t.other_ne]
          exact h.one t.other hu hother
      · cases hnot.symm.trans (hall t)
    · cases hstep
  | write t =>
    rw [BumpState.step] at hstep
    split at hstep
    · next v saw hread _ =>
      cases hstep
      have ht := h.txns t
      rw [hread] at ht
      obtain ⟨hnot, rfl, hsaw⟩ := ht
      refine ⟨fun u => ?_, h.none, fun u hu hother => ?_, fun hall => ?_, h.loaders, h.loads⟩
      · rcases t.eq_or_eq_other u with rfl | rfl
        · simp only [Function.update_self]
          exact ⟨hnot, rfl, hsaw⟩
        · simp only [Function.update_of_ne t.other_ne]
          exact h.txns t.other
      · rcases t.eq_or_eq_other u with rfl | rfl
        · rw [hnot] at hu
          cases hu
        · simp only [Function.update_of_ne t.other_ne]
          exact h.one t.other hu hother
      · cases hnot.symm.trans (hall t)
    · cases hstep
  | commit t =>
    rw [BumpState.step] at hstep
    split at hstep
    · next v saw hwritten =>
      cases hstep
      have ht := h.txns t
      rw [hwritten] at ht
      obtain ⟨hnot, rfl, hsaw⟩ := ht
      have hsnapshot := h.version_of_snapshot hnot
      have hother : Function.update st.row.committed t true t.other = st.row.committed t.other :=
        Function.update_of_ne t.other_ne ..
      have hsee : Function.update st.txns t (.committed saw) t.other = st.txns t.other :=
        Function.update_of_ne t.other_ne ..
      refine ⟨fun u => ?_, fun hnone => ?_, fun u hu huother => ?_, fun hall => ?_, fun i => ?_, h.loads⟩
      · rcases t.eq_or_eq_other u with rfl | rfl
        · simp only [Function.update_self]
          exact Function.update_self ..
        · -- The other transaction sees this one committed, if it says so.
          simp only [hsee]
          have hu := h.txns t.other
          have hkeep : Function.update st.row.committed t true t.other.other = true := by
            rw [Writer.other_other, Function.update_self]
          cases hpc : st.txns t.other with
          | begun =>
            rw [hpc] at hu
            exact hother.trans hu
          | read v' saw' =>
            rw [hpc] at hu
            exact ⟨hother.trans hu.1, hu.2.1, fun _ => hkeep⟩
          | written v' saw' =>
            rw [hpc] at hu
            exact ⟨hother.trans hu.1, hu.2.1, fun _ => hkeep⟩
          | committed saw' =>
            rw [hpc] at hu
            exact hother.trans hu
      · cases (Function.update_self t true st.row.committed).symm.trans (hnone t)
      · rcases t.eq_or_eq_other u with rfl | rfl
        · -- The first commit: its snapshot saw nothing of the other.
          have hfirst : saw = false := by
            rw [← Bool.not_eq_true]
            intro htrue
            cases (hother.symm.trans huother).symm.trans (hsaw htrue)
          simp only [Function.update_self, TxnPc.sawOther, hfirst]
          exact ⟨rfl, trivial⟩
        · simp only [Writer.other_other, Function.update_self] at huother
          cases huother
      · -- The second commit: the first one saw nothing of this one.
        have hdone : st.row.committed t.other = true := hother.symm.trans (hall t.other)
        have hfirst := (h.one t.other hdone (by rwa [Writer.other_other])).2
        have hsaws : ((Function.update st.txns t (.committed saw) .one).sawOther ||
            (Function.update st.txns t (.committed saw) .two).sawOther) = saw := by
          cases t with
          | one =>
            rw [Function.update_self, show Writer.two = Writer.one.other from rfl, hsee, hfirst,
              Bool.or_false]
            rfl
          | two =>
            rw [Function.update_self, show Writer.one = Writer.two.other from rfl, hsee, hfirst,
              Bool.false_or]
            rfl
        rw [hsaws]
        exact Nat.add_right_comm ..
      · refine (h.loaders i).mono ?_
        rw [hsnapshot]
        cases hcommitted : st.row.committed t.other with
        | false => exact Nat.le_trans (Nat.le_add_right ..) (Nat.le_succ _)
        | true =>
          show version + 1 ≤ version + saw.toNat + 1
          omega
    · cases hstep
  | load i =>
    rw [BumpState.step] at hstep
    have hload := (h.loaders i).step (queries i) h.version_of_seesOne
    split at hstep
    · next pc hmore =>
      cases hstep
      rw [hmore] at hload
      refine ⟨h.txns, h.none, h.one, h.both, fun j => ?_, h.loads⟩
      by_cases hji : j = i
      · subst hji
        simp only [Function.update_self]
        exact hload
      · simp only [Function.update_of_ne hji]
        exact h.loaders j
    · next seen v hdone =>
      cases hstep
      rw [hdone] at hload
      refine ⟨h.txns, h.none, h.one, h.both, fun j => ?_, List.forall_mem_cons.mpr ⟨hload, h.loads⟩⟩
      by_cases hji : j = i
      · subst hji
        simp only [Function.update_self]
        trivial
      · simp only [Function.update_of_ne hji]
        exact h.loaders j
    · cases hstep

/-- The invariant holds in every state. -/
theorem BumpReachable.ok {queries : ι → Nat} {version : Nat} {st : BumpState ι}
    (h : BumpReachable queries version st) : BumpOk version st := by
  induction h with
  | start =>
    exact ⟨fun _ => rfl, fun _ => rfl, nofun, fun hall => absurd (hall .one) Bool.false_ne_true,
      fun _ => trivial, nofun⟩
  | step _ action hstep ih => exact ih.step hstep

/-! ### Loads between the commits -/

/-- **No load hides a writer**: the version of the row is none at which a load saw exactly one of the
two committed. -/
def VersionsDiffer (st : BumpState ι) : Prop :=
  ∀ load ∈ st.loads, SeesOne load.1 → load.2 ≠ st.row.version

/-- **When two writers do not hide each other**: after both have committed, the version differs from
that of every load which saw only one of them, exactly if one of the two took its snapshot after the
other had committed, or there is no such load. -/
theorem versions_differ_iff {queries : ι → Nat} {version : Nat} {st : BumpState ι}
    (h : BumpReachable queries version st) (hone : st.row.committed .one = true)
    (htwo : st.row.committed .two = true) : VersionsDiffer st ↔
      ((st.txns .one).sawOther = true ∨ (st.txns .two).sawOther = true) ∨
        ∀ load ∈ st.loads, ¬SeesOne load.1 := by
  have hok := h.ok
  have hversion := hok.both fun t => by cases t <;> assumption
  rw [VersionsDiffer, ← Bool.or_eq_true]
  cases hsaw : (st.txns .one).sawOther || (st.txns .two).sawOther with
  | true =>
    refine iff_of_true (fun load hload hsees => ?_) (Or.inl rfl)
    rw [hsaw] at hversion
    rw [hok.loads load hload hsees, hversion]
    exact Nat.ne_of_lt (Nat.lt_succ_self _)
  | false =>
    rw [hsaw] at hversion
    rw [or_iff_right Bool.false_ne_true]
    refine forall₂_congr fun load hload => imp_congr_right fun hsees => iff_of_false ?_ id
    rw [hok.loads load hload hsees, hversion]
    exact fun hne => hne rfl

end Runs

/-! ### A lost bump -/

/-- Steps one after another, with one load of one query. -/
def bumpAll (st : BumpState Unit) : List (BumpAction Unit) → Option (BumpState Unit)
  | [] => some st
  | action :: actions => (st.step (fun _ => 1) action).bind fun st' => bumpAll st' actions

theorem BumpReachable.all {version : Nat} {st st' : BumpState Unit} {actions : List (BumpAction Unit)}
    (h : BumpReachable (fun _ => 1) version st) (hrun : bumpAll st actions = some st') :
    BumpReachable (fun _ => 1) version st' := by
  induction actions generalizing st with
  | nil =>
    cases hrun
    exact h
  | cons action actions ih =>
    obtain ⟨st₁, hstep, hrest⟩ := Option.bind_eq_some_iff.mp hrun
    exact ih (h.step action hstep) hrest

/-- Both take their snapshots, one commits, the registry is loaded, and the other one commits. -/
def lostBump : List (BumpAction Unit) :=
  [.snapshot .one, .snapshot .two, .write .one, .commit .one, .load (), .load (), .load (), .load (),
    .write .two, .commit .two]

/-- The other one takes its snapshot only after the load. -/
def keptBump : List (BumpAction Unit) :=
  [.snapshot .one, .write .one, .commit .one, .load (), .load (), .load (), .load (), .snapshot .two,
    .write .two, .commit .two]

/-- Both are committed, and a load that saw one of them has the version of the row, or has not. -/
def hidden (st : BumpState Unit) : Bool × Bool × Bool :=
  (st.row.committed .one, st.row.committed .two, st.loads.any fun load =>
    load.2 = st.row.version && load.1.any fun committed => committed .one != committed .two)

/-- **A load hides a writer**: it saw one of the two committed, and the version is the same when both
are. -/
theorem versions_equal : ¬∀ st : BumpState Unit, BumpReachable (fun _ => 1) 0 st →
    st.row.committed .one = true → st.row.committed .two = true → VersionsDiffer st := by
  intro hall
  have hrun : (bumpAll (.start 0) lostBump).map hidden = some (true, true, true) := by decide
  obtain ⟨st, hst, hhidden⟩ := Option.map_eq_some_iff.mp hrun
  simp only [hidden, Prod.mk.injEq, List.any_eq_true, Bool.and_eq_true, decide_eq_true_eq,
    bne_iff_ne] at hhidden
  obtain ⟨hone, htwo, load, hload, hversion, hsees⟩ := hhidden
  exact hall st (BumpReachable.start.all hst) hone htwo load hload hsees hversion

/-- With the later snapshot taken after the other commit, the load hides nothing. -/
theorem versions_differ_iff_sample : ∃ st : BumpState Unit, bumpAll (.start 0) keptBump = some st ∧
    (st.txns .two).sawOther = true ∧ VersionsDiffer st := by
  have hrun : (bumpAll (.start 0) keptBump).map (fun st => (st.row.committed .one,
      st.row.committed .two, (st.txns .two).sawOther)) = some (true, true, true) := by decide
  obtain ⟨st, hst, hpcs⟩ := Option.map_eq_some_iff.mp hrun
  simp only [Prod.mk.injEq] at hpcs
  obtain ⟨hone, htwo, hsaw⟩ := hpcs
  exact ⟨st, hst, hsaw,
    (versions_differ_iff (BumpReachable.start.all hst) hone htwo).mpr (Or.inl (Or.inr hsaw))⟩

end Ingest4x
