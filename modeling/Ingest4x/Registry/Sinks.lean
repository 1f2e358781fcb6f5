import Ingest4x.Registry.Projects
import Ingest4x.Sinks.Buildable

/-! # The registry of sinks

`EventSinkState`: the router of the enabled sinks. Its load asks once for the sinks and then once for
each of their targets.

* **`SinksView`** — the part of the database that the registry reads.
* **`sinkSource`**, **`sinkInstall`** — `load_router_snapshot` and the end of `refresh_if_needed`.
* **`snapshots_consistent`** — what holds of both registries, whatever the order of commits, queries
  and refreshes. -/

namespace Ingest4x

open Effect Result Sinks EventSinkRepository

section Registries

variable [SinkBackends] [SerdeText] [DurationCodec]

/-! ### What the registry reads -/

/-- **The sinks and targets of the database**, with their version. -/
structure SinksView where
  deliveryTargets : RowTable DeliveryTargetRow
  eventSinks : RowTable EventSinkRow
  version : Nat

/-- What the registry reads of a database. -/
def Database.sinksView (db : Database) : SinksView :=
  ⟨db.deliveryTargets, db.eventSinks, db.eventSinksVersion⟩

/-- A database with these sinks. -/
def SinksView.database (view : SinksView) : Database :=
  { Database.migrated with
    deliveryTargets := view.deliveryTargets
    eventSinks := view.eventSinks
    eventSinksVersion := view.version }

/-- **Every operation of the repositories** leaves the sinks as they are, or bumps their version by
one. -/
theorem AdminChange.sinksView {db db' : Database} (h : AdminChange db db') :
    db'.sinksView = db.sinksView ∨ db'.sinksView.version = db.sinksView.version + 1 := by
  cases h with
  | project h => cases h <;> exact Or.inl rfl
  | eventSink h => cases h <;> exact Or.inr rfl
  | processor h =>
    cases h with
    | bindDefaults hbind hget hstatus =>
      split
      · exact Or.inl rfl
      · exact Or.inl rfl
    | _ => exact Or.inl rfl

/-! ### Loading and installing -/

/-- The loop of `list_enabled_runtime_sinks`: a query for every target. -/
def runtimeSinksQuery :
    List (Nat × EventSinkRow) → Query SinksView (Except LoadError (List RuntimeEventSink))
  | [] => .pure (.ok [])
  | (id, row) :: sinks =>
    .op () fun view =>
      match (view.deliveryTargets.get row.deliveryTargetId).filter (·.enabled) with
      | none => runtimeSinksQuery sinks
      | some targetRow =>
        match toDeliveryTarget row.deliveryTargetId targetRow with
        | .error error => .pure (.error (.repository error))
        | .ok target => do
          let rest ← runtimeSinksQuery sinks
          let sink := toEventSink id row
          .pure (rest.map fun rest =>
            ⟨sink.sinkId, sink.name, sink.destinationJson, sink.autoOffsetReset, target⟩ :: rest)

/-- `list_enabled_runtime_sinks` as queries. -/
def listEnabledRuntimeSinksQuery : Query SinksView (Except LoadError (List RuntimeEventSink)) :=
  .op () fun view => runtimeSinksQuery (view.eventSinks.all.filter fun e => e.2.enabled)

omit [SerdeText] [DurationCodec] in
/-- The queries on one state give the sinks of this state. -/
theorem run_runtimeSinksQuery (db : Database) (sinks : List (Nat × EventSinkRow)) :
    (runtimeSinksQuery sinks).run db.sinksView = (runtimeSinks db sinks).mapError .repository := by
  induction sinks with
  | nil => rfl
  | cons e sinks ih =>
    obtain ⟨id, row⟩ := e
    have htargets : db.sinksView.deliveryTargets = db.deliveryTargets := rfl
    rw [runtimeSinksQuery, runtimeSinks, Query.run, htargets]
    cases (db.deliveryTargets.get row.deliveryTargetId).filter (·.enabled) with
    | none => exact ih
    | some targetRow =>
      cases htarget : toDeliveryTarget row.deliveryTargetId targetRow with
      | error error =>
        simp only [htarget]
        rfl
      | ok target =>
        simp only [htarget, Query.run_bind, ih]
        cases runtimeSinks db sinks with
        | error error => rfl
        | ok rest => rfl

/-- **`load_router_snapshot`.** -/
def sinkSource : SnapshotSource SinksView (List RuntimeEventSink) LoadError Unit EventRouter where
  version := SinksView.version
  load := listEnabledRuntimeSinksQuery
  build sinks := ((EventRouter.fromRuntimeSinks sinks).mapError .build).map fun router _ => router

/-- **The snapshot of a state is the router of its sinks.** -/
theorem sinkSource_of (view : SinksView) :
    sinkSource.of view = (loadRouter view.database).map fun router _ => router := by
  have hrun : listEnabledRuntimeSinksQuery.run view =
      (listEnabledRuntimeSinks view.database).mapError LoadError.repository :=
    run_runtimeSinksQuery view.database _
  rw [SnapshotSource.of, sinkSource, hrun, loadRouter]
  cases listEnabledRuntimeSinks view.database with
  | error error => rfl
  | ok sinks =>
    cases hrouter : EventRouter.fromRuntimeSinks sinks with
    | error message => simp [mapError_ok, mapError_error, Except.bind, Except.map, bind, hrouter]
    | ok router => simp [mapError_ok, Except.bind, Except.map, bind, hrouter]

/-- **The end of `refresh_if_needed`.** -/
def sinkInstall : List (InstallStep Unit) := [.check, .lock (), .write (), .store]

omit [SinkBackends] [SerdeText] [DurationCodec] in
theorem sinkInstall_allowed : Progress.start.Allows sinkInstall :=
  ⟨rfl, fun _ => rfl, rfl, rfl, rfl, fun _ => rfl, rfl⟩

/-- **The database, the registry of sinks, and its refreshes.** -/
abbrev SinkSystem (ι : Type) : Type :=
  System SinksView (List RuntimeEventSink) LoadError Unit EventRouter ι

/-- A sink and its target are enabled in a state of the database. -/
def SinksView.Enabled (view : SinksView) (sinkId : String) : Prop :=
  ∃ row target, EnabledSink view.database row target ∧ row.sinkId = sinkId

/-- **A registry has a state of the database**: the router that can be read is that of the state, with
the sinks that are enabled in it and no others. -/
structure SinksInstalled {ι : Type} (view : SinksView) (reg : Registry Unit EventRouter ι) : Prop where
  version : view.version = reg.version
  router : reg.held () = false → loadRouter view.database = .ok (reg.cells ())
  sinks : reg.held () = false → ∀ sinkId,
    (reg.cells ()).containsSink sinkId = true ↔ view.Enabled sinkId

omit [SerdeText] [DurationCodec] in
/-- The sinks that are listed are those that are enabled with their targets. -/
theorem mem_runtimeSinks {db : Database} {rows : List (Nat × EventSinkRow)}
    {sinks : List RuntimeEventSink} (h : runtimeSinks db rows = .ok sinks) (sinkId : String) :
    (∃ sink ∈ sinks, sink.sinkId = sinkId) ↔ ∃ e ∈ rows, e.2.sinkId = sinkId ∧
      ∃ target, db.deliveryTargets.get e.2.deliveryTargetId = some target ∧ target.enabled = true := by
  induction rows generalizing sinks with
  | nil =>
    cases h
    simp
  | cons e rows ih =>
    obtain ⟨id, row⟩ := e
    rw [runtimeSinks] at h
    cases htarget : (db.deliveryTargets.get row.deliveryTargetId).filter (·.enabled) with
    | none =>
      rw [htarget] at h
      rw [ih h]
      have hnone : ¬∃ target, db.deliveryTargets.get row.deliveryTargetId = some target ∧
          target.enabled = true := by
        rintro ⟨target, hget, henabled⟩
        rw [hget, Option.filter_some, if_pos henabled] at htarget
        cases htarget
      simp only [List.mem_cons, exists_eq_or_imp]
      exact (or_iff_right fun h' => hnone h'.2).symm
    | some targetRow =>
      rw [htarget] at h
      obtain ⟨target, htarget', h⟩ := bind_eq_ok.mp h
      obtain ⟨rest, hrest, h⟩ := bind_eq_ok.mp h
      cases h
      obtain ⟨hget, henabled⟩ := Option.filter_eq_some_iff.mp htarget
      simp only [List.mem_cons, exists_eq_or_imp, ih hrest]
      exact or_congr_left (and_iff_left ⟨targetRow, hget, henabled⟩).symm

/-- **The snapshot of a state is its router.** -/
theorem sinksInstalled_of_snapshot {ι : Type} {view : SinksView} {snapshot : Unit → EventRouter}
    {reg : Registry Unit EventRouter ι} (hsnapshot : sinkSource.of view = .ok snapshot)
    (hversion : view.version = reg.version)
    (hcells : ∀ cell, reg.held cell = false → reg.cells cell = snapshot cell) :
    SinksInstalled view reg := by
  rw [sinkSource_of] at hsnapshot
  cases hrouter : loadRouter view.database with
  | error error =>
    rw [hrouter] at hsnapshot
    cases hsnapshot
  | ok router =>
    rw [hrouter] at hsnapshot
    cases hsnapshot
    refine ⟨hversion, fun hfree => (hcells () hfree) ▸ hrouter, fun hfree sinkId => ?_⟩
    rw [hcells () hfree]
    simp only [loadRouter, bind_eq_ok, mapError_eq_ok] at hrouter
    obtain ⟨sinks, hlist, hbuild⟩ := hrouter
    have hempty : ¬EventRouter.empty.containsSink sinkId = true := Bool.false_ne_true
    rw [EventRouter.containsSink_addSinks hbuild, or_iff_right hempty, mem_runtimeSinks hlist]
    constructor
    · rintro ⟨⟨id, row⟩, hmem, rfl, target, htarget, henabled⟩
      obtain ⟨hall, hrow⟩ := List.mem_filter.mp hmem
      exact ⟨row, target, ⟨⟨id, RowTable.mem_all.mp hall⟩, hrow, htarget, henabled⟩, rfl⟩
    · rintro ⟨row, target, ⟨⟨id, hget⟩, hrow, htarget, henabled⟩, rfl⟩
      exact ⟨(id, row), List.mem_filter.mpr ⟨RowTable.mem_all.mpr hget, hrow⟩, rfl, target, htarget,
        henabled⟩

/-! ### Both registries -/

/-- **The snapshots of a registry are consistent**: what is installed is the state of the installed
version, and of no other; the version does not decrease in any step; and after a refresh with no
commit since it was called, what is installed is the current state. -/
structure SnapshotsConsistent {D A E κ C ι : Type} [DecidableEq κ] [DecidableEq ι]
    (src : SnapshotSource D A E κ C) (program : List (InstallStep κ))
    (Installed : D → Registry κ C ι → Prop) (st : System D A E κ C ι) : Prop where
  version : ∃ view ∈ st.history.states, src.version view = st.registry.version
  installed : ∀ view ∈ st.history.states, src.version view = st.registry.version →
    Installed view st.registry
  monotone : ∀ st', SystemStep src program st st' → st.registry.version ≤ st'.registry.version
  fresh : ∀ i changed, st.refreshes i = .finished (src.version st.history.current) changed →
    Installed st.history.current st.registry

omit [SinkBackends] [SerdeText] [DurationCodec] in
/-- The rules of snapshots, for what a snapshot of a state is read as. -/
theorem snapshotsConsistent_of_reachable {D A E κ C ι : Type} [DecidableEq κ] [DecidableEq ι]
    {src : SnapshotSource D A E κ C} {program : List (InstallStep κ)}
    (hprogram : Progress.start.Allows program) {Installed : D → Registry κ C ι → Prop}
    (hinstalled : ∀ view snapshot reg, src.of view = .ok snapshot → src.version view = reg.version →
      (∀ cell, reg.held cell = false → reg.cells cell = snapshot cell) → Installed view reg)
    {st : System D A E κ C ι} (hst : Reachable src program st) :
    SnapshotsConsistent src program Installed st := by
  obtain ⟨snapshot, ⟨d, hd, hversion, hof⟩, hcells⟩ := hst.visible hprogram
  refine ⟨⟨d, hd, hversion⟩, fun view hview heq => ?_, fun st' hstep => hstep.version_le hprogram hst,
    fun i changed hfinished => ?_⟩
  · rw [(hst.ok hprogram).ordered.unique hview hd (heq.trans hversion.symm)]
    exact hinstalled d snapshot _ hof hversion hcells
  · obtain ⟨heq, snapshot', hof', hcells'⟩ := hst.fresh hprogram hfinished
    exact hinstalled _ snapshot' _ hof' heq.symm hcells'

/-- **The snapshots of both registries are consistent**, after any commits, any queries of their loads
between them, and any refreshes. -/
theorem snapshots_consistent {ι : Type} [DecidableEq ι] :
    (∀ st : ProjectSystem ι, Reachable projectSource projectInstall st →
      SnapshotsConsistent projectSource projectInstall ProjectsInstalled st) ∧
    ∀ st : SinkSystem ι, Reachable sinkSource sinkInstall st →
      SnapshotsConsistent sinkSource sinkInstall SinksInstalled st :=
  ⟨fun _ => snapshotsConsistent_of_reachable projectInstall_allowed
      fun _ _ _ => projectsInstalled_of_snapshot,
    fun _ => snapshotsConsistent_of_reachable sinkInstall_allowed
      fun _ _ _ => sinksInstalled_of_snapshot⟩

end Registries

/-! ### A run -/

/-- A registry that was loaded, a commit, and a refresh that is called. -/
theorem snapshots_consistent_sample : ∃ st : ProjectSystem Bool,
    st.history.states = [⟨.empty, 1⟩, ⟨.empty, 0⟩] ∧ st.refreshes true = .waiting 1 ∧
    SnapshotsConsistent projectSource projectInstall ProjectsInstalled st := by
  have hloaded : Starting projectSource ⟨⟨.empty, 0⟩, []⟩ (.done (fun _ => ∅) 0) := by
    have hbefore : Starting projectSource ⟨⟨.empty, 0⟩, []⟩ (.more .before) := .start _
    -- both maps of a store without projects are empty
    obtain ⟨cells, hcells, hdone⟩ : ∃ cells : ProjectCell → ProjectMap, (∀ cell, cells cell = ∅) ∧
        Starting projectSource ⟨⟨.empty, 0⟩, []⟩ (.done cells 0) := by
      refine ⟨_, ?_, Starting.load (.load (.load (.load hbefore)))⟩
      intro cell
      cases cell <;> rfl
    obtain rfl : cells = fun _ => ∅ := funext hcells
    exact hdone
  have hstart : Reachable projectSource projectInstall
      (⟨⟨⟨.empty, 0⟩, []⟩, ⟨fun _ => ∅, fun _ => false, 0, none⟩, fun _ => .idle⟩ :
        ProjectSystem Bool) := .start hloaded
  have hcommitted := hstart.step (.commit (d := ⟨.empty, 1⟩) rfl)
  have hcalled := hcommitted.step (.refresh (i := true) (.call rfl))
  refine ⟨_, ?_, ?_, (@snapshots_consistent acceptingBackends typeNameText secondsCodec Bool _).1 _
    hcalled⟩
  · rfl
  · rfl

end Ingest4x
