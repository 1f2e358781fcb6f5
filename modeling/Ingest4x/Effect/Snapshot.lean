import Ingest4x.Effect.Program
import Mathlib.Data.List.Pairwise
import Mathlib.Logic.Function.Basic
import Mathlib.Order.Basic

/-! # Snapshots of a versioned store

A store whose version grows with every commit, and a registry that keeps a snapshot of it in memory.
A snapshot is loaded by several queries, and commits may fall between any two of them: the load reads
the version before and after, and starts again if it changed. A refresh loads a snapshot and installs
it cell by cell, under a lock for each cell; one lock keeps the refreshes apart.

* **`Query`** — programs that read the store; **`LoadPc.step`** — a step of a load.
* **`Progress.Allows`** — the orders in which cells may be locked and written.
* **`RefreshStep`**, **`SystemStep`** — the steps of one refresh, and of commits and any refreshes.
* **`Reachable.visible`**, **`SystemStep.version_le`**, **`Reachable.fresh`** — what is installed is
  the snapshot of the installed version, which never decreases, and is not older than the refreshes
  that finished. -/

namespace Effect

/-! ### Queries -/

/-- **A program of queries**: each of them sees the store as it is at that moment. -/
abbrev Query (D : Type) : Type → Type := Prog Unit fun _ => D

namespace Query

variable {D α β : Type}

/-- One query. -/
def read (f : D → α) : Query D α := .op () fun d => .pure (f d)

/-- The answer if all queries see the same store. -/
def run (d : D) : Query D α → α
  | .pure a => a
  | .op _ k => run d (k d)

@[simp] theorem run_read (d : D) (f : D → α) : (read f).run d = f d := rfl

@[simp] theorem run_bind (d : D) (q : Query D α) (f : α → Query D β) :
    (q >>= f).run d = (f (q.run d)).run d := by
  induction q with
  | pure a => rfl
  | op _ k ih => exact ih d

end Query

/-- **How snapshots are loaded**: the version of a store, the queries, and what is built from their
answer: a value for every cell. -/
structure SnapshotSource (D A E κ C : Type) where
  version : D → Nat
  load : Query D (Except E A)
  build : A → Except E (κ → C)

/-- **The snapshot of a store.** -/
def SnapshotSource.of {D A E κ C : Type} (src : SnapshotSource D A E κ C) (d : D) :
    Except E (κ → C) :=
  (src.load.run d).bind src.build

/-! ### Commits -/

/-- **The stores so far**: the current one, and those before it, the latest first. -/
structure History (D : Type) where
  current : D
  past : List D

namespace History

variable {D : Type}

/-- All stores, the latest first. -/
def states (h : History D) : List D := h.current :: h.past

/-- A commit makes a store the current one. -/
def commit (h : History D) (d : D) : History D := ⟨d, h.states⟩

@[simp] theorem commit_current (h : History D) (d : D) : (h.commit d).current = d := rfl

@[simp] theorem commit_states (h : History D) (d : D) : (h.commit d).states = d :: h.states := rfl

theorem current_mem (h : History D) : h.current ∈ h.states := List.mem_cons_self ..

/-- The versions grow from one store to the next. -/
def Ordered (version : D → Nat) (h : History D) : Prop :=
  h.states.Pairwise fun d d' => version d' < version d

variable {version : D → Nat} {h : History D}

theorem Ordered.commit (hordered : h.Ordered version) {d : D}
    (hnext : version d = version h.current + 1) : (h.commit d).Ordered version := by
  refine List.pairwise_cons.mpr ⟨fun d' hd' => ?_, hordered⟩
  rw [commit_current, hnext]
  rcases List.mem_cons.mp hd' with rfl | hpast
  · exact Nat.lt_succ_self _
  · exact Nat.lt_succ_of_lt ((List.pairwise_cons.mp hordered).1 d' hpast)

/-- The current store has the greatest version. -/
theorem Ordered.le_current (hordered : h.Ordered version) {d : D} (hd : d ∈ h.states) :
    version d ≤ version h.current := by
  rcases List.mem_cons.mp hd with rfl | hpast
  · exact Nat.le_refl _
  · exact Nat.le_of_lt ((List.pairwise_cons.mp hordered).1 d hpast)

/-- **A version has one store.** -/
theorem Ordered.unique (hordered : h.Ordered version) {d d' : D} (hd : d ∈ h.states)
    (hd' : d' ∈ h.states) (heq : version d = version d') : d = d' := by
  have hne : h.states.Pairwise fun d d' => version d ≠ version d' :=
    hordered.imp fun hlt => (Nat.ne_of_lt hlt).symm
  have hsymm : Std.Symm fun d d' : D => version d ≠ version d' := ⟨fun _ _ hne => hne.symm⟩
  by_contra hdd'
  exact hne.forall hd hd' hdd' heq

end History

/-! ### Loads -/

section Loads

variable {D A E κ C : Type}

/-- **Where a load stands**: before it reads the version, at its queries, and after them. -/
inductive LoadPc (D A E : Type)
  | before
  | querying (version : Nat) (rest : Query D (Except E A))
  | after (version : Nat) (data : A)

/-- What a step of a load leads to. -/
inductive LoadOutcome (D A E κ C : Type)
  | more (pc : LoadPc D A E)
  | done (snapshot : κ → C) (version : Nat)
  | failed

/-- **A step of a load** on the store as it is now. -/
def LoadPc.step (src : SnapshotSource D A E κ C) (d : D) : LoadPc D A E → LoadOutcome D A E κ C
  | .before => .more (.querying (src.version d) src.load)
  | .querying version (.op _ k) => .more (.querying version (k d))
  | .querying version (.pure (.ok data)) => .more (.after version data)
  | .querying _ (.pure (.error _)) => .failed
  | .after version data =>
    if version = src.version d then
      match src.build data with
      | .ok snapshot => .done snapshot version
      | .error _ => .failed
    else .more .before

/-- **A snapshot of one of the stores so far**, with its version. -/
def SnapshotOf (src : SnapshotSource D A E κ C) (h : History D) (snapshot : κ → C)
    (version : Nat) : Prop :=
  ∃ d ∈ h.states, src.version d = version ∧ src.of d = .ok snapshot

theorem SnapshotOf.commit {src : SnapshotSource D A E κ C} {h : History D} {snapshot : κ → C}
    {version : Nat} (hsnapshot : SnapshotOf src h snapshot version) (d : D) :
    SnapshotOf src (h.commit d) snapshot version := by
  obtain ⟨d', hd', hrest⟩ := hsnapshot
  exact ⟨d', List.mem_cons_of_mem _ hd', hrest⟩

/-- **What holds of a load that began at a version**: as long as the version is still the one that was
read first, the answers so far are those of the current store. -/
def LoadOk (src : SnapshotSource D A E κ C) (h : History D) (since : Nat) : LoadPc D A E → Prop
  | .before => True
  | .querying version rest => since ≤ version ∧ version ≤ src.version h.current ∧
      (src.version h.current = version → rest.run h.current = src.load.run h.current)
  | .after version data => since ≤ version ∧ version ≤ src.version h.current ∧
      (src.version h.current = version → src.load.run h.current = .ok data)

/-- What holds after a step of a load. -/
def LoadOutcome.Ok (src : SnapshotSource D A E κ C) (h : History D) (since : Nat) :
    LoadOutcome D A E κ C → Prop
  | .more pc => LoadOk src h since pc
  | .done snapshot version => since ≤ version ∧ SnapshotOf src h snapshot version
  | .failed => True

variable {src : SnapshotSource D A E κ C} {h : History D} {since : Nat}

/-- **A load that ends has the snapshot of one store**, no older than its beginning. -/
theorem LoadOk.step {pc : LoadPc D A E} (hok : LoadOk src h since pc)
    (hsince : since ≤ src.version h.current) : (pc.step src h.current).Ok src h since := by
  cases pc with
  | before => exact ⟨hsince, Nat.le_refl _, fun _ => rfl⟩
  | querying version rest =>
    obtain ⟨hfrom, hle, hrun⟩ := hok
    cases rest with
    | op _ k => exact ⟨hfrom, hle, hrun⟩
    | pure answer =>
      cases answer with
      | error e => trivial
      | ok data => exact ⟨hfrom, hle, fun heq => (hrun heq).symm⟩
  | after version data =>
    obtain ⟨hfrom, -, hrun⟩ := hok
    rw [LoadPc.step]
    split
    · next heq =>
      cases hbuild : src.build data with
      | error e => trivial
      | ok snapshot =>
        refine ⟨hfrom, h.current, h.current_mem, heq.symm, ?_⟩
        rw [SnapshotSource.of, hrun heq.symm]
        exact hbuild
    · trivial

/-- A commit leaves a load as it is. -/
theorem LoadOk.commit {pc : LoadPc D A E} (hok : LoadOk src h since pc) {d : D}
    (hnext : src.version d = src.version h.current + 1) : LoadOk src (h.commit d) since pc := by
  have hlater : ∀ {version : Nat}, version ≤ src.version h.current →
      version ≤ src.version d ∧ src.version d ≠ version := by
    intro version hle
    omega
  cases pc with
  | before => trivial
  | querying version rest =>
    obtain ⟨hfrom, hle, -⟩ := hok
    exact ⟨hfrom, (hlater hle).1, fun heq => absurd heq (hlater hle).2⟩
  | after version data =>
    obtain ⟨hfrom, hle, -⟩ := hok
    exact ⟨hfrom, (hlater hle).1, fun heq => absurd heq (hlater hle).2⟩

/-- **The first load**, with any commits between its steps. -/
inductive Starting (src : SnapshotSource D A E κ C) : History D → LoadOutcome D A E κ C → Prop
  | start (d : D) : Starting src ⟨d, []⟩ (.more .before)
  | commit {h : History D} {outcome : LoadOutcome D A E κ C} (hstart : Starting src h outcome) {d : D}
      (hnext : src.version d = src.version h.current + 1) : Starting src (h.commit d) outcome
  | load {h : History D} {pc : LoadPc D A E} (hstart : Starting src h (.more pc)) :
      Starting src h (pc.step src h.current)

/-- The first load is right, too. -/
theorem Starting.ok {outcome : LoadOutcome D A E κ C} (hstart : Starting src h outcome) :
    h.Ordered src.version ∧ outcome.Ok src h 0 := by
  induction hstart with
  | start d => exact ⟨List.pairwise_singleton _ _, trivial⟩
  | @commit h outcome hstart d hnext ih =>
    obtain ⟨hordered, hok⟩ := ih
    refine ⟨hordered.commit hnext, ?_⟩
    cases outcome with
    | more pc => exact LoadOk.commit hok hnext
    | done snapshot version => exact ⟨hok.1, hok.2.commit d⟩
    | failed => trivial
  | load hstart ih => exact ⟨ih.1, LoadOk.step ih.2 (Nat.zero_le _)⟩

end Loads

/-! ### Installing -/

section Installing

variable {κ C ι : Type} [DecidableEq κ]

/-- **A step of installing a snapshot**: check that it is newer, lock a cell, write a cell, or store
the version. -/
inductive InstallStep (κ : Type)
  | check
  | lock (cell : κ)
  | write (cell : κ)
  | store

/-- **A registry**: cells, the write locks that are held on them, the version, and the refresh that
holds the refresh lock. -/
structure Registry (κ C ι : Type) where
  cells : κ → C
  held : κ → Bool
  version : Nat
  refreshLock : Option ι

/-- The end of a refresh: all its locks are released. -/
def Registry.release (reg : Registry κ C ι) : Registry κ C ι :=
  { reg with held := fun _ => false, refreshLock := none }

/-- What a step does, where it can be taken: a snapshot that is not newer does not pass the check, and
a lock that is held cannot be taken. -/
def InstallStep.run (snapshot : κ → C) (version : Nat) (reg : Registry κ C ι) :
    InstallStep κ → Option (Registry κ C ι)
  | .check => if reg.version < version then some reg else none
  | .lock cell =>
    if reg.held cell then none else some { reg with held := Function.update reg.held cell true }
  | .write cell => some { reg with cells := Function.update reg.cells cell (snapshot cell) }
  | .store => some { reg with version := version }

/-- What was done so far of an installation. -/
structure Progress (κ : Type) where
  checked : Bool
  held : κ → Bool
  written : κ → Bool
  stored : Bool

/-- Nothing was done yet. -/
def Progress.start : Progress κ := ⟨false, fun _ => false, fun _ => false, false⟩

/-- **The orders of steps that install a snapshot as a whole**: cells are written under their locks and
after a check, and the version is stored when all of them are. -/
def Progress.Allows (p : Progress κ) : List (InstallStep κ) → Prop
  | [] => p.stored = true
  | .check :: steps => p.stored = false ∧ (∀ cell, p.written cell = false) ∧
      { p with checked := true }.Allows steps
  | .lock cell :: steps => { p with held := Function.update p.held cell true }.Allows steps
  | .write cell :: steps => p.checked = true ∧ p.held cell = true ∧
      { p with written := Function.update p.written cell true }.Allows steps
  | .store :: steps => p.checked = true ∧ (∀ cell, p.written cell = true) ∧
      { p with stored := true }.Allows steps

/-- **Where a registry stands during an installation**, from the cells and the version before it. -/
structure Progress.Holds (p : Progress κ) (snapshot : κ → C) (version : Nat) (cells₀ : κ → C)
    (version₀ : Nat) (reg : Registry κ C ι) : Prop where
  held : reg.held = p.held
  writtenHeld : ∀ cell, p.written cell = true → p.held cell = true
  cells : ∀ cell, reg.cells cell = if p.written cell then snapshot cell else cells₀ cell
  storedWritten : p.stored = true → ∀ cell, p.written cell = true
  installed : reg.version = if p.stored then version else version₀
  newer : p.checked = true → version₀ < version

variable {p : Progress κ} {snapshot cells₀ : κ → C} {version version₀ : Nat}
  {reg reg' : Registry κ C ι}

/-- **Every step of an installation keeps track of it.** -/
theorem Progress.Holds.step {step : InstallStep κ} {steps : List (InstallStep κ)}
    (h : p.Holds snapshot version cells₀ version₀ reg)
    (hallows : p.Allows (step :: steps)) (hrun : step.run snapshot version reg = some reg') :
    ∃ p' : Progress κ, p'.Holds snapshot version cells₀ version₀ reg' ∧ p'.Allows steps ∧
      reg.version ≤ reg'.version ∧ reg'.refreshLock = reg.refreshLock := by
  cases step with
  | check =>
    obtain ⟨hstored, -, hrest⟩ := hallows
    rw [InstallStep.run] at hrun
    split at hrun
    · next hlt =>
      cases hrun
      have hversion : reg.version = version₀ := by
        rw [h.installed, hstored]
        rfl
      exact ⟨{ p with checked := true }, { h with newer := fun _ => hversion ▸ hlt }, hrest,
        Nat.le_refl _, rfl⟩
    · cases hrun
  | lock cell =>
    rw [InstallStep.run] at hrun
    split at hrun
    · cases hrun
    · cases hrun
      refine ⟨{ p with held := Function.update p.held cell true },
        { h with held := ?_, writtenHeld := fun cell' hcell' => ?_ }, hallows, Nat.le_refl _, rfl⟩
      · exact congrArg (Function.update · cell true) h.held
      · show Function.update p.held cell true cell' = true
        by_cases heq : cell' = cell
        · rw [heq, Function.update_self]
        · rw [Function.update_of_ne heq]
          exact h.writtenHeld cell' hcell'
  | write cell =>
    obtain ⟨-, hheld, hrest⟩ := hallows
    cases hrun
    refine ⟨{ p with written := Function.update p.written cell true }, { h with
      writtenHeld := fun cell' hcell' => ?_
      cells := fun cell' => ?_
      storedWritten := fun hstored cell' => ?_ }, hrest, Nat.le_refl _, rfl⟩
    · by_cases heq : cell' = cell
      · rw [heq]
        exact hheld
      · exact h.writtenHeld cell' (by rwa [← Function.update_of_ne heq true p.written])
    · show Function.update reg.cells cell (snapshot cell) cell' =
        if Function.update p.written cell true cell' = true then snapshot cell' else cells₀ cell'
      by_cases heq : cell' = cell
      · rw [heq, Function.update_self, Function.update_self, if_pos rfl]
      · rw [Function.update_of_ne heq, Function.update_of_ne heq, h.cells]
    · show Function.update p.written cell true cell' = true
      by_cases heq : cell' = cell
      · rw [heq, Function.update_self]
      · rw [Function.update_of_ne heq, h.storedWritten hstored]
  | store =>
    obtain ⟨hchecked, hwritten, hrest⟩ := hallows
    cases hrun
    refine ⟨{ p with stored := true },
      { h with storedWritten := fun _ => hwritten, installed := (if_pos rfl).symm }, hrest, ?_, rfl⟩
    rw [h.installed]
    split
    · exact Nat.le_refl _
    · exact Nat.le_of_lt (h.newer hchecked)

omit [DecidableEq κ] in
/-- **Cells that are not locked** still have what they had before, as has the version. -/
theorem Progress.Holds.unlocked (h : p.Holds snapshot version cells₀ version₀ reg) {cell : κ}
    (hfree : reg.held cell = false) : reg.cells cell = cells₀ cell ∧ reg.version = version₀ := by
  have hwritten : p.written cell = false := by
    rw [← Bool.not_eq_true]
    intro hwritten
    rw [h.held, h.writtenHeld cell hwritten] at hfree
    cases hfree
  have hstored : p.stored = false := by
    rw [← Bool.not_eq_true]
    intro hstored
    rw [h.storedWritten hstored cell] at hwritten
    cases hwritten
  rw [h.cells, h.installed, hwritten, hstored]
  exact ⟨rfl, rfl⟩

end Installing

/-! ### Refreshes -/

section Refreshes

variable {D A E κ C ι : Type} [DecidableEq κ] [DecidableEq ι]

/-- **Where a refresh stands.** Every stage but the first knows the version of the store when the
refresh was called. -/
inductive RefreshPc (D A E κ C : Type)
  | idle
  | waiting (since : Nat)
  | locked (since : Nat)
  | compared (since : Nat) (installed : Nat)
  | loading (since : Nat) (pc : LoadPc D A E)
  | installing (since : Nat) (snapshot : κ → C) (version : Nat) (rest : List (InstallStep κ))
  | finished (since : Nat) (changed : Bool)
  | failed (since : Nat)

/-- A refresh that holds the refresh lock. -/
def RefreshPc.active : RefreshPc D A E κ C → Bool
  | .locked _ | .compared _ _ | .loading _ _ | .installing _ _ _ _ => true
  | _ => false

/-- A refresh that can be called. -/
def RefreshPc.resting : RefreshPc D A E κ C → Bool
  | .idle | .finished _ _ | .failed _ => true
  | _ => false

/-- **The steps of a refresh** on the store as it is now. A refresh fails where a query fails, or
nothing can be built. -/
inductive RefreshStep (src : SnapshotSource D A E κ C) (program : List (InstallStep κ)) (d : D) (i : ι)
    (reg : Registry κ C ι) :
    RefreshPc D A E κ C → Registry κ C ι → RefreshPc D A E κ C → Prop
  | call {pc} (h : pc.resting = true) : RefreshStep src program d i reg pc reg (.waiting (src.version d))
  | lock {since} (h : reg.refreshLock = none) : RefreshStep src program d i reg (.waiting since)
      { reg with refreshLock := some i } (.locked since)
  | readInstalled {since} : RefreshStep src program d i reg (.locked since) reg
      (.compared since reg.version)
  | upToDate {since installed} (h : src.version d = installed) :
      RefreshStep src program d i reg (.compared since installed) reg.release (.finished since false)
  | outdated {since installed} (h : src.version d ≠ installed) :
      RefreshStep src program d i reg (.compared since installed) reg (.loading since .before)
  | compareFails {since installed} :
      RefreshStep src program d i reg (.compared since installed) reg.release (.failed since)
  | load {since pc pc'} (h : pc.step src d = .more pc') :
      RefreshStep src program d i reg (.loading since pc) reg (.loading since pc')
  | loaded {since pc snapshot version} (h : pc.step src d = .done snapshot version) :
      RefreshStep src program d i reg (.loading since pc) reg
        (.installing since snapshot version program)
  | loadFails {since pc} :
      RefreshStep src program d i reg (.loading since pc) reg.release (.failed since)
  | install {since snapshot version step rest reg'} (h : step.run snapshot version reg = some reg') :
      RefreshStep src program d i reg (.installing since snapshot version (step :: rest)) reg'
        (.installing since snapshot version rest)
  | refuse {since snapshot version rest} (h : version ≤ reg.version) :
      RefreshStep src program d i reg (.installing since snapshot version (.check :: rest)) reg.release
        (.finished since false)
  | installed {since snapshot version} :
      RefreshStep src program d i reg (.installing since snapshot version []) reg.release
        (.finished since true)

/-- **The store, the registry, and any refreshes.** -/
structure System (D A E κ C ι : Type) where
  history : History D
  registry : Registry κ C ι
  refreshes : ι → RefreshPc D A E κ C

/-- **Commits and steps of refreshes**, in any order. -/
inductive SystemStep (src : SnapshotSource D A E κ C) (program : List (InstallStep κ))
    (st : System D A E κ C ι) : System D A E κ C ι → Prop
  | commit {d : D} (hnext : src.version d = src.version st.history.current + 1) :
      SystemStep src program st { st with history := st.history.commit d }
  | refresh {i : ι} {reg : Registry κ C ι} {pc : RefreshPc D A E κ C}
      (h : RefreshStep src program st.history.current i st.registry (st.refreshes i) reg pc) :
      SystemStep src program st
        { st with registry := reg, refreshes := Function.update st.refreshes i pc }

/-- **The systems after a first load**, with any commits and refreshes. -/
inductive Reachable (src : SnapshotSource D A E κ C) (program : List (InstallStep κ)) :
    System D A E κ C ι → Prop
  | start {h : History D} {snapshot : κ → C} {version : Nat}
      (hstart : Starting src h (.done snapshot version)) :
      Reachable src program ⟨h, ⟨snapshot, fun _ => false, version, none⟩, fun _ => .idle⟩
  | step {st st' : System D A E κ C ι} (hst : Reachable src program st)
      (hstep : SystemStep src program st st') : Reachable src program st'

/-! ### The invariant -/

/-- **A registry that no refresh is changing**: no cell is locked, and the cells are a snapshot of the
installed version. -/
structure Settled (src : SnapshotSource D A E κ C) (h : History D) (reg : Registry κ C ι) : Prop where
  held : ∀ cell, reg.held cell = false
  snapshot : SnapshotOf src h reg.cells reg.version

/-- **A registry that a refresh is changing**: the remaining steps install a snapshot as a whole, in
place of another one. -/
def Installing (src : SnapshotSource D A E κ C) (h : History D) (reg : Registry κ C ι)
    (snapshot : κ → C) (version : Nat) (rest : List (InstallStep κ)) : Prop :=
  ∃ (p : Progress κ) (cells₀ : κ → C) (version₀ : Nat), SnapshotOf src h cells₀ version₀ ∧
    p.Holds snapshot version cells₀ version₀ reg ∧ p.Allows rest

/-- **What holds of a refresh at each stage.** -/
def RefreshOk (src : SnapshotSource D A E κ C) (h : History D) (reg : Registry κ C ι) :
    RefreshPc D A E κ C → Prop
  | .idle => True
  | .waiting since => since ≤ src.version h.current
  | .locked since => since ≤ src.version h.current ∧ Settled src h reg
  | .compared since installed =>
    since ≤ src.version h.current ∧ installed = reg.version ∧ Settled src h reg
  | .loading since pc =>
    since ≤ src.version h.current ∧ LoadOk src h since pc ∧ Settled src h reg
  | .installing since snapshot version rest =>
    since ≤ version ∧ SnapshotOf src h snapshot version ∧ Installing src h reg snapshot version rest
  | .finished since _ => since ≤ reg.version
  | .failed _ => True

/-- **The invariant of the system.** -/
structure SystemOk (src : SnapshotSource D A E κ C) (st : System D A E κ C ι) : Prop where
  ordered : st.history.Ordered src.version
  holder : ∀ i, (st.refreshes i).active = true → st.registry.refreshLock = some i
  settled : st.registry.refreshLock = none → Settled src st.history st.registry
  refreshes : ∀ i, RefreshOk src st.history st.registry (st.refreshes i)
  locked : ∀ i, st.registry.refreshLock = some i → (st.refreshes i).active = true

variable {src : SnapshotSource D A E κ C} {program : List (InstallStep κ)} {h : History D}
  {reg reg' : Registry κ C ι} {pc pc' : RefreshPc D A E κ C} {i : ι}

omit [DecidableEq κ] [DecidableEq ι] in
theorem Settled.release (hsettled : Settled src h reg) : Settled src h reg.release :=
  ⟨fun _ => rfl, hsettled.snapshot⟩

omit [DecidableEq κ] [DecidableEq ι] in
theorem Settled.commit (hsettled : Settled src h reg) (d : D) : Settled src (h.commit d) reg :=
  ⟨hsettled.held, hsettled.snapshot.commit d⟩

omit [DecidableEq ι] in
/-- An installation that ends leaves its snapshot. -/
theorem Installing.settled {snapshot : κ → C} {version : Nat}
    (hinstalling : Installing src h reg snapshot version [])
    (hsnapshot : SnapshotOf src h snapshot version) :
    Settled src h reg.release ∧ reg.version = version := by
  obtain ⟨p, cells₀, version₀, -, hholds, hstored⟩ := hinstalling
  have hcells : reg.cells = snapshot := funext fun cell => by
    rw [hholds.cells, hholds.storedWritten hstored, if_pos rfl]
  have hversion : reg.version = version := (hholds.installed).trans (if_pos hstored)
  refine ⟨⟨fun _ => rfl, ?_⟩, hversion⟩
  show SnapshotOf src h reg.cells reg.version
  rwa [hcells, hversion]

omit [DecidableEq ι] in
/-- An installation that is refused has changed nothing. -/
theorem Installing.refused {snapshot : κ → C} {version : Nat} {rest : List (InstallStep κ)}
    (hinstalling : Installing src h reg snapshot version (.check :: rest)) :
    Settled src h reg.release := by
  obtain ⟨p, cells₀, version₀, hsnapshot, hholds, hstored, hwritten, -⟩ := hinstalling
  have hcells : reg.cells = cells₀ := funext fun cell => by
    rw [hholds.cells, hwritten]
    rfl
  have hversion : reg.version = version₀ := by
    rw [hholds.installed, hstored]
    rfl
  refine ⟨fun _ => rfl, ?_⟩
  show SnapshotOf src h reg.cells reg.version
  rwa [hcells, hversion]

omit [DecidableEq ι] in
/-- An installation begins at a settled registry. -/
theorem Settled.installing (hsettled : Settled src h reg) (hprogram : Progress.start.Allows program)
    (snapshot : κ → C) (version : Nat) : Installing src h reg snapshot version program :=
  ⟨.start, reg.cells, reg.version, hsettled.snapshot,
    ⟨funext hsettled.held, nofun, fun _ => rfl, nofun, rfl, nofun⟩, hprogram⟩

omit [DecidableEq ι] in
/-- **Every step of a refresh keeps what holds of it.** -/
theorem RefreshOk.step (hprogram : Progress.start.Allows program)
    (hstep : RefreshStep src program h.current i reg pc reg' pc') (hok : RefreshOk src h reg pc)
    (hholder : pc.active = true → reg.refreshLock = some i)
    (hsettled : reg.refreshLock = none → Settled src h reg) :
    RefreshOk src h reg' pc' ∧ reg.version ≤ reg'.version ∧
      (reg'.refreshLock = none → Settled src h reg') := by
  cases hstep with
  | call hresting => exact ⟨Nat.le_refl _, Nat.le_refl _, hsettled⟩
  | lock hfree =>
    have hset := hsettled hfree
    exact ⟨⟨hok, ⟨hset.held, hset.snapshot⟩⟩, Nat.le_refl _, nofun⟩
  | readInstalled => exact ⟨⟨hok.1, rfl, hok.2⟩, Nat.le_refl _, fun _ => hok.2⟩
  | upToDate heq =>
    obtain ⟨hsince, rfl, hset⟩ := hok
    exact ⟨Nat.le_trans hsince (Nat.le_of_eq heq), Nat.le_refl _, fun _ => hset.release⟩
  | outdated hne =>
    obtain ⟨hsince, rfl, hset⟩ := hok
    exact ⟨⟨hsince, trivial, hset⟩, Nat.le_refl _, fun _ => hset⟩
  | compareFails => exact ⟨trivial, Nat.le_refl _, fun _ => hok.2.2.release⟩
  | load hload =>
    obtain ⟨hsince, hpc, hset⟩ := hok
    have hpc' := hpc.step hsince
    rw [hload] at hpc'
    exact ⟨⟨hsince, hpc', hset⟩, Nat.le_refl _, fun _ => hset⟩
  | loaded hload =>
    obtain ⟨hsince, hpc, hset⟩ := hok
    have hdone := hpc.step hsince
    rw [hload] at hdone
    exact ⟨⟨hdone.1, hdone.2, hset.installing hprogram _ _⟩, Nat.le_refl _, fun _ => hset⟩
  | loadFails => exact ⟨trivial, Nat.le_refl _, fun _ => hok.2.2.release⟩
  | install hrun =>
    obtain ⟨hsince, hsnapshot, p, cells₀, version₀, hold, hholds, hallows⟩ := hok
    obtain ⟨p', hholds', hallows', hle, hlock⟩ := hholds.step hallows hrun
    refine ⟨⟨hsince, hsnapshot, p', cells₀, version₀, hold, hholds', hallows'⟩, hle, fun hnone => ?_⟩
    rw [hlock, hholder rfl] at hnone
    cases hnone
  | refuse hle =>
    obtain ⟨hsince, -, hinstalling⟩ := hok
    exact ⟨Nat.le_trans hsince hle, Nat.le_refl _, fun _ => hinstalling.refused⟩
  | installed =>
    obtain ⟨hsince, hsnapshot, hinstalling⟩ := hok
    obtain ⟨hset, hversion⟩ := hinstalling.settled hsnapshot
    exact ⟨Nat.le_trans hsince (Nat.le_of_eq hversion.symm), Nat.le_refl _, fun _ => hset⟩

omit [DecidableEq ι] in
/-- **Who holds the refresh lock after a step**: nothing changed, the lock was taken, it is held on, or
it was released. -/
theorem RefreshStep.lock_cases {d : D} (hstep : RefreshStep src program d i reg pc reg' pc')
    (hholder : pc.active = true → reg.refreshLock = some i) :
    (pc.active = false ∧ pc'.active = false ∧ reg' = reg) ∨
      (reg.refreshLock = none ∧ reg'.refreshLock = some i ∧ pc'.active = true) ∨
      (pc.active = true ∧ pc'.active = true ∧ reg'.refreshLock = some i) ∨
      (pc.active = true ∧ pc'.active = false ∧ reg'.refreshLock = none) := by
  cases hstep with
  | call hresting =>
    refine Or.inl ⟨?_, rfl, rfl⟩
    cases pc <;> first | rfl | cases hresting
  | lock hfree => exact Or.inr (Or.inl ⟨hfree, rfl, rfl⟩)
  | readInstalled => exact Or.inr (Or.inr (Or.inl ⟨rfl, rfl, hholder rfl⟩))
  | outdated => exact Or.inr (Or.inr (Or.inl ⟨rfl, rfl, hholder rfl⟩))
  | load => exact Or.inr (Or.inr (Or.inl ⟨rfl, rfl, hholder rfl⟩))
  | loaded => exact Or.inr (Or.inr (Or.inl ⟨rfl, rfl, hholder rfl⟩))
  | @install _ _ _ step rest _ hrun =>
    refine Or.inr (Or.inr (Or.inl ⟨rfl, rfl, ?_⟩))
    have hlock : reg'.refreshLock = reg.refreshLock := by
      cases step with
      | check =>
        rw [InstallStep.run] at hrun
        split at hrun <;> cases hrun
        rfl
      | lock cell =>
        rw [InstallStep.run] at hrun
        split at hrun <;> cases hrun
        rfl
      | write cell =>
        cases hrun
        rfl
      | store =>
        cases hrun
        rfl
    rw [hlock, hholder rfl]
  | upToDate => exact Or.inr (Or.inr (Or.inr ⟨rfl, rfl, rfl⟩))
  | compareFails => exact Or.inr (Or.inr (Or.inr ⟨rfl, rfl, rfl⟩))
  | loadFails => exact Or.inr (Or.inr (Or.inr ⟨rfl, rfl, rfl⟩))
  | refuse => exact Or.inr (Or.inr (Or.inr ⟨rfl, rfl, rfl⟩))
  | installed => exact Or.inr (Or.inr (Or.inr ⟨rfl, rfl, rfl⟩))

omit [DecidableEq ι] in
/-- What holds of a refresh that does not hold the lock depends only on the installed version. -/
theorem RefreshOk.of_inactive (hok : RefreshOk src h reg pc) (hinactive : pc.active = false)
    (hle : reg.version ≤ reg'.version) : RefreshOk src h reg' pc := by
  cases pc with
  | idle => trivial
  | waiting since => exact hok
  | finished since changed => exact Nat.le_trans hok hle
  | failed since => trivial
  | locked _ => cases hinactive
  | compared _ _ => cases hinactive
  | loading _ _ => cases hinactive
  | installing _ _ _ _ => cases hinactive

omit [DecidableEq ι] in
/-- A commit keeps what holds of a refresh. -/
theorem RefreshOk.commit (hok : RefreshOk src h reg pc) {d : D}
    (hnext : src.version d = src.version h.current + 1) : RefreshOk src (h.commit d) reg pc := by
  have hlater : ∀ {since : Nat}, since ≤ src.version h.current → since ≤ src.version d := by
    intro since hle
    omega
  cases pc with
  | idle => trivial
  | waiting since => exact hlater hok
  | locked since => exact ⟨hlater hok.1, hok.2.commit d⟩
  | compared since installed => exact ⟨hlater hok.1, hok.2.1, hok.2.2.commit d⟩
  | loading since pc => exact ⟨hlater hok.1, hok.2.1.commit hnext, hok.2.2.commit d⟩
  | installing since snapshot version rest =>
    obtain ⟨hsince, hsnapshot, p, cells₀, version₀, hold, hrest⟩ := hok
    exact ⟨hsince, hsnapshot.commit d, p, cells₀, version₀, hold.commit d, hrest⟩
  | finished since changed => exact hok
  | failed since => trivial

/-- **Every step keeps the invariant**, and the installed version does not decrease. -/
theorem SystemOk.step (hprogram : Progress.start.Allows program) {st st' : System D A E κ C ι}
    (hok : SystemOk src st) (hstep : SystemStep src program st st') :
    SystemOk src st' ∧ st.registry.version ≤ st'.registry.version := by
  cases hstep with
  | @commit d hnext =>
    exact ⟨⟨hok.ordered.commit hnext, hok.holder, fun hfree => (hok.settled hfree).commit d,
      fun i => (hok.refreshes i).commit hnext, hok.locked⟩, Nat.le_refl _⟩
  | @refresh i reg pc hrefresh =>
    obtain ⟨hpc, hle, hsettled⟩ := (hok.refreshes i).step hprogram hrefresh (hok.holder i) hok.settled
    have hcases := hrefresh.lock_cases (hok.holder i)
    -- While another refresh holds the lock, this one can only be called.
    have hother : ∀ j, j ≠ i → (st.refreshes j).active = true → reg = st.registry := by
      intro j hne hactive
      have hj := hok.holder j hactive
      have hi : (st.refreshes i).active ≠ true := fun hi =>
        hne (Option.some.inj (hj.symm.trans (hok.holder i hi)))
      rcases hcases with ⟨-, -, heq⟩ | ⟨hfree, -⟩ | ⟨hi', -⟩ | ⟨hi', -⟩
      · exact heq
      · rw [hj] at hfree
        cases hfree
      · exact absurd hi' hi
      · exact absurd hi' hi
    refine ⟨⟨hok.ordered, fun j => ?_, hsettled, fun j => ?_, fun j => ?_⟩, hle⟩
    · by_cases hji : j = i
      · subst hji
        simp only [Function.update_self]
        intro hactive
        rcases hcases with ⟨-, hpc', -⟩ | ⟨-, hlock, -⟩ | ⟨-, -, hlock⟩ | ⟨-, hpc', -⟩
        · rw [hactive] at hpc'
          cases hpc'
        · exact hlock
        · exact hlock
        · rw [hactive] at hpc'
          cases hpc'
      · simp only [Function.update_of_ne hji]
        intro hactive
        rw [hother j hji hactive]
        exact hok.holder j hactive
    · by_cases hji : j = i
      · subst hji
        simp only [Function.update_self]
        exact hpc
      · simp only [Function.update_of_ne hji]
        cases hactive : (st.refreshes j).active with
        | true =>
          rw [hother j hji hactive]
          exact hok.refreshes j
        | false => exact (hok.refreshes j).of_inactive hactive hle
    · intro hlock
      rcases hcases with ⟨hinactive, -, heq⟩ | ⟨-, hi, hactive⟩ | ⟨-, hactive, hi⟩ | ⟨-, -, hnone⟩
      · rw [heq] at hlock
        have hactive := hok.locked j hlock
        have hji : j ≠ i := by
          rintro rfl
          rw [hinactive] at hactive
          cases hactive
        simpa only [Function.update_of_ne hji] using hactive
      · rw [hi] at hlock
        cases hlock
        simpa only [Function.update_self] using hactive
      · rw [hi] at hlock
        cases hlock
        simpa only [Function.update_self] using hactive
      · rw [hnone] at hlock
        cases hlock

/-- The invariant holds of every system that can be reached. -/
theorem Reachable.ok (hprogram : Progress.start.Allows program) {st : System D A E κ C ι}
    (hst : Reachable src program st) : SystemOk src st := by
  induction hst with
  | @start h snapshot version hstart =>
    obtain ⟨hordered, -, hsnapshot⟩ := hstart.ok
    exact ⟨hordered, nofun, fun _ => ⟨fun _ => rfl, hsnapshot⟩, fun _ => trivial, nofun⟩
  | step hst hstep ih => exact (ih.step hprogram hstep).1

/-! ### What is installed -/

omit [DecidableEq ι] in
/-- What can be read in the middle of an installation. -/
theorem Installing.visible {snapshot : κ → C} {version : Nat} {rest : List (InstallStep κ)}
    (hinstalling : Installing src h reg snapshot version rest)
    (hsnapshot : SnapshotOf src h snapshot version) :
    ∃ snapshot', SnapshotOf src h snapshot' reg.version ∧
      ∀ cell, reg.held cell = false → reg.cells cell = snapshot' cell := by
  obtain ⟨p, cells₀, version₀, hold, hholds, -⟩ := hinstalling
  cases hstored : p.stored with
  | true =>
    -- The version is stored, so all cells are written, and still locked.
    refine ⟨snapshot, ?_, fun cell _ => ?_⟩
    · rwa [hholds.installed, if_pos hstored]
    · rw [hholds.cells, hholds.storedWritten hstored, if_pos rfl]
  | false =>
    refine ⟨cells₀, ?_, fun cell hfree => (hholds.unlocked hfree).1⟩
    rwa [hholds.installed, hstored]

/-- **What can be read is the snapshot of the installed version**: every cell that is not locked for
writing has the value that it has in the snapshot of the store with this version. -/
theorem Reachable.visible (hprogram : Progress.start.Allows program) {st : System D A E κ C ι}
    (hst : Reachable src program st) : ∃ snapshot,
      SnapshotOf src st.history snapshot st.registry.version ∧
        ∀ cell, st.registry.held cell = false → st.registry.cells cell = snapshot cell := by
  have hok := hst.ok hprogram
  have hsettled : Settled src st.history st.registry → ∃ snapshot,
      SnapshotOf src st.history snapshot st.registry.version ∧
        ∀ cell, st.registry.held cell = false → st.registry.cells cell = snapshot cell :=
    fun hset => ⟨st.registry.cells, hset.snapshot, fun _ _ => rfl⟩
  cases hlock : st.registry.refreshLock with
  | none => exact hsettled (hok.settled hlock)
  | some i =>
    have hactive := hok.locked i hlock
    have hi := hok.refreshes i
    cases hpc : st.refreshes i with
    | locked since =>
      rw [hpc] at hi
      exact hsettled hi.2
    | compared since installed =>
      rw [hpc] at hi
      exact hsettled hi.2.2
    | loading since pc =>
      rw [hpc] at hi
      exact hsettled hi.2.2
    | installing since snapshot version rest =>
      rw [hpc] at hi
      exact hi.2.2.visible hi.2.1
    | _ =>
      rw [hpc] at hactive
      cases hactive

/-- **The installed version never decreases.** -/
theorem SystemStep.version_le (hprogram : Progress.start.Allows program) {st st' : System D A E κ C ι}
    (hst : Reachable src program st) (hstep : SystemStep src program st st') :
    st.registry.version ≤ st'.registry.version :=
  ((hst.ok hprogram).step hprogram hstep).2

/-- **After a refresh with no later commit** the installed version is the current one, and what can be
read is the snapshot of the current store. -/
theorem Reachable.fresh (hprogram : Progress.start.Allows program) {st : System D A E κ C ι}
    (hst : Reachable src program st) {i : ι} {changed : Bool}
    (hfinished : st.refreshes i = .finished (src.version st.history.current) changed) :
    st.registry.version = src.version st.history.current ∧ ∃ snapshot,
      src.of st.history.current = .ok snapshot ∧
        ∀ cell, st.registry.held cell = false → st.registry.cells cell = snapshot cell := by
  have hok := hst.ok hprogram
  have hsince := hok.refreshes i
  rw [hfinished] at hsince
  obtain ⟨snapshot, ⟨d, hd, hversion, hof⟩, hcells⟩ := hst.visible hprogram
  have hle := hok.ordered.le_current hd
  have heq : st.registry.version = src.version st.history.current :=
    Nat.le_antisymm (hversion ▸ hle) hsince
  have hcurrent : d = st.history.current :=
    hok.ordered.unique hd st.history.current_mem (hversion.trans heq)
  exact ⟨heq, snapshot, hcurrent ▸ hof, hcells⟩

end Refreshes

end Effect
