import Ingest4x.Effect.Snapshot
import Mathlib.Logic.Relation

/-! # Refreshed registries

A registry with its refreshes as one part of a larger system: the store that it reads is a view of what
others commit, and its version need not change with every commit.

* **`FirstLoad`** — the first load of a registry, with any commits between its steps.
* **`Refreshed.Step`** — a step of one of the refreshes.
* **`FirstLoad.alone`**, **`Refreshed.alone`** — with no commit in between, both end with the snapshot
  of the current store. -/

namespace Effect

variable {S D A E κ C ι : Type}

/-! ### The first load -/

/-- **The first load of a registry**, from what it sees of the committed states. -/
inductive FirstLoad (view : S → D) (src : SnapshotSource D A E κ C) :
    History S → LoadOutcome D A E κ C → Prop
  | start (h : History S) : FirstLoad view src h (.more .before)
  | commit {h : History S} {outcome : LoadOutcome D A E κ C} (hload : FirstLoad view src h outcome)
      (s : S) : FirstLoad view src (h.commit s) outcome
  | load {h : History S} {pc : LoadPc D A E} (hload : FirstLoad view src h (.more pc)) :
      FirstLoad view src h (pc.step src (view h.current))

section Alone

variable {view : S → D} {src : SnapshotSource D A E κ C} {h : History S}

/-- The queries of a first load, one after another. -/
theorem FirstLoad.queries {version : Nat} {q : Query D (Except E A)}
    (hload : FirstLoad view src h (.more (.querying version q))) :
    FirstLoad view src h (.more (.querying version (.pure (q.run (view h.current))))) := by
  induction q with
  | pure answer => exact hload
  | op _ k ih => exact ih (view h.current) (.load hload)

/-- **A first load alone** has the snapshot of the current store. -/
theorem FirstLoad.alone {snapshot : κ → C} (hof : src.of (view h.current) = .ok snapshot) :
    FirstLoad view src h (.done snapshot (src.version (view h.current))) := by
  have hstart : FirstLoad view src h (.more .before) := .start h
  have hqueried := FirstLoad.queries (.load hstart)
  rw [SnapshotSource.of] at hof
  cases hrun : src.load.run (view h.current) with
  | error error =>
    rw [hrun] at hof
    cases hof
  | ok data =>
    rw [hrun] at hqueried hof
    have hdone := FirstLoad.load (.load hqueried)
    rw [LoadPc.step, if_pos rfl] at hdone
    rwa [show src.build data = .ok snapshot from hof] at hdone

end Alone

/-! ### Refreshes -/

section Refreshes

variable [DecidableEq κ] [DecidableEq ι]

/-- **A registry with its refreshes.** -/
structure Refreshed (D A E κ C ι : Type) where
  registry : Registry κ C ι
  refreshes : ι → RefreshPc D A E κ C

/-- A registry that was loaded. -/
def Refreshed.loaded (snapshot : κ → C) (version : Nat) : Refreshed D A E κ C ι :=
  ⟨⟨snapshot, fun _ => false, version, none⟩, fun _ => .idle⟩

/-- **A step of one of the refreshes** on the store as it is now. -/
inductive Refreshed.Step (src : SnapshotSource D A E κ C) (program : List (InstallStep κ)) (d : D)
    (r : Refreshed D A E κ C ι) : Refreshed D A E κ C ι → Prop
  | refresh {i : ι} {reg : Registry κ C ι} {pc : RefreshPc D A E κ C}
      (h : RefreshStep src program d i r.registry (r.refreshes i) reg pc) :
      Step src program d r ⟨reg, Function.update r.refreshes i pc⟩

/-- What the steps of an installation make of a registry. -/
def InstallStep.runAll (snapshot : κ → C) (version : Nat) :
    List (InstallStep κ) → Registry κ C ι → Option (Registry κ C ι)
  | [], reg => some reg
  | step :: steps, reg => (step.run snapshot version reg).bind (runAll snapshot version steps)

variable {src : SnapshotSource D A E κ C} {program : List (InstallStep κ)} {d : D} {i : ι}

/-- The steps of one refresh on an unchanged store. -/
abbrev RefreshSteps (src : SnapshotSource D A E κ C) (program : List (InstallStep κ)) (d : D) (i : ι) :
    Registry κ C ι × RefreshPc D A E κ C → Registry κ C ι × RefreshPc D A E κ C → Prop :=
  Relation.ReflTransGen fun a b => RefreshStep src program d i a.1 a.2 b.1 b.2

omit [DecidableEq ι] in
theorem RefreshSteps.first {reg reg' : Registry κ C ι} {pc pc' : RefreshPc D A E κ C}
    {b : Registry κ C ι × RefreshPc D A E κ C} (hstep : RefreshStep src program d i reg pc reg' pc')
    (hrest : RefreshSteps src program d i (reg', pc') b) :
    RefreshSteps src program d i (reg, pc) b :=
  Relation.ReflTransGen.head hstep hrest

omit [DecidableEq ι] in
/-- The queries of a refresh, one after another. -/
theorem RefreshSteps.queries (reg : Registry κ C ι) (since version : Nat) (q : Query D (Except E A)) :
    RefreshSteps src program d i (reg, .loading since (.querying version q))
      (reg, .loading since (.querying version (.pure (q.run d)))) := by
  induction q with
  | pure answer => exact .refl
  | op _ k ih => exact RefreshSteps.first (.load rfl) (ih d)

omit [DecidableEq ι] in
/-- The steps of an installation, one after another. -/
theorem RefreshSteps.install {reg reg' : Registry κ C ι} {since version : Nat} {snapshot : κ → C}
    {steps : List (InstallStep κ)}
    (hrun : InstallStep.runAll snapshot version steps reg = some reg') :
    RefreshSteps src program d i (reg, .installing since snapshot version steps)
      (reg', .installing since snapshot version []) := by
  induction steps generalizing reg with
  | nil =>
    cases hrun
    exact .refl
  | cons step steps ih =>
    obtain ⟨reg₁, hstep, hrest⟩ := Option.bind_eq_some_iff.mp hrun
    exact RefreshSteps.first (.install hstep) (ih hrest)

omit [DecidableEq ι] in
/-- **A refresh alone**, where the installed version is another one. -/
theorem RefreshSteps.alone {reg reg' : Registry κ C ι} {pc : RefreshPc D A E κ C} {snapshot : κ → C}
    (hresting : pc.resting = true) (hfree : reg.refreshLock = none) (hne : src.version d ≠ reg.version)
    (hof : src.of d = .ok snapshot)
    (hrun : InstallStep.runAll snapshot (src.version d) program { reg with refreshLock := some i } =
      some reg') :
    RefreshSteps src program d i (reg, pc) (reg'.release, .finished (src.version d) true) := by
  rw [SnapshotSource.of] at hof
  cases hload : src.load.run d with
  | error error =>
    rw [hload] at hof
    cases hof
  | ok data =>
    rw [hload] at hof
    have hbuild : src.build data = .ok snapshot := hof
    refine RefreshSteps.first (.call hresting) (RefreshSteps.first (.lock hfree)
      (RefreshSteps.first .readInstalled (RefreshSteps.first (.outdated hne)
        (RefreshSteps.first (.load rfl) ((RefreshSteps.queries _ _ _ _).trans ?_)))))
    rw [hload]
    refine RefreshSteps.first (.load rfl) (RefreshSteps.first (.loaded ?_)
      ((RefreshSteps.install hrun).trans (RefreshSteps.first .installed .refl)))
    rw [LoadPc.step, if_pos rfl, hbuild]

/-- The steps of one refresh are steps of the registry. -/
theorem RefreshSteps.refreshed {r : Refreshed D A E κ C ι} {reg : Registry κ C ι}
    {pc : RefreshPc D A E κ C}
    (h : RefreshSteps src program d i (r.registry, r.refreshes i) (reg, pc)) :
    Relation.ReflTransGen (Refreshed.Step src program d) r
      ⟨reg, Function.update r.refreshes i pc⟩ := by
  suffices hall : ∀ b, RefreshSteps src program d i (r.registry, r.refreshes i) b →
      Relation.ReflTransGen (Refreshed.Step src program d) r
        ⟨b.1, Function.update r.refreshes i b.2⟩ from hall _ h
  intro b hb
  induction hb with
  | refl => rw [Function.update_eq_self]
  | @tail b c _ hstep ih =>
    have hnext : Refreshed.Step src program d ⟨b.1, Function.update r.refreshes i b.2⟩
        ⟨c.1, Function.update (Function.update r.refreshes i b.2) i c.2⟩ :=
      .refresh (by simpa only [Function.update_self] using hstep)
    rw [Function.update_idem] at hnext
    exact ih.tail hnext

/-- **A refresh alone installs the snapshot of the current store.** -/
theorem Refreshed.alone {r : Refreshed D A E κ C ι} {reg : Registry κ C ι} {snapshot : κ → C}
    (hresting : (r.refreshes i).resting = true) (hfree : r.registry.refreshLock = none)
    (hne : src.version d ≠ r.registry.version) (hof : src.of d = .ok snapshot)
    (hrun : InstallStep.runAll snapshot (src.version d) program
      { r.registry with refreshLock := some i } = some reg) :
    Relation.ReflTransGen (Refreshed.Step src program d) r
      ⟨reg.release, Function.update r.refreshes i (.finished (src.version d) true)⟩ :=
  (RefreshSteps.alone hresting hfree hne hof hrun).refreshed

end Refreshes

end Effect
