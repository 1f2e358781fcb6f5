import Ingest4x.Registry.Deliverable

/-! # The processors of a node and the database

`ProcessorRegistryState::refresh_if_needed` reloads where the version of the scripts has changed. What
it loads depends on the sinks and the projects too, and their operations leave that version as it is.

* **`refreshIfNeeded`** — a refresh with no commit in between; **`CacheReachable`** — the runs.
* **`AdminOp.Quiet`** — the operations that change nothing that a router is made of.
* **`refreshIfNeeded_coherent`** — after a refresh a node runs what it would load, if a version has
  changed since the last load, or all operations were quiet. -/

namespace Ingest4x

open Effect Result Rhai Sinks ProcessorRepository

section Cache

variable [Engine]

/-! ### Refreshes -/

/-- `ProcessorRegistryState`, with a repository: the installed router and its version. -/
structure ProcessorRegistryState where
  router : ProcessorRouter
  version : Nat

namespace ProcessorRegistryState

/-- `load`. -/
def load (db : Database) : Except ProcessorLoadError ProcessorRegistryState :=
  (loadProcessorRouter db).map fun router => ⟨router, db.processorScriptsVersion⟩

/-- **`refresh_if_needed`**, where nothing is committed in between: its lock keeps other refreshes
out. -/
def refreshIfNeeded (db : Database) (registry : ProcessorRegistryState) :
    Except ProcessorLoadError (Bool × ProcessorRegistryState) :=
  if db.processorScriptsVersion = registry.version then .ok (false, registry)
  else
    (loadProcessorRouter db).map fun router =>
      if db.processorScriptsVersion ≤ registry.version then (false, registry)
      else (true, ⟨router, db.processorScriptsVersion⟩)

/-- What a refresh that succeeds does: the version is the same, or a router is loaded and installed if
its version is newer. -/
theorem refreshIfNeeded_cases {db : Database} {registry registry' : ProcessorRegistryState}
    {changed : Bool} (h : registry.refreshIfNeeded db = .ok (changed, registry')) :
    (db.processorScriptsVersion = registry.version ∧ changed = false ∧ registry' = registry) ∨
      (db.processorScriptsVersion < registry.version ∧ changed = false ∧ registry' = registry) ∨
      (registry.version < db.processorScriptsVersion ∧ changed = true ∧
        load db = .ok registry') := by
  rw [refreshIfNeeded] at h
  by_cases hsame : db.processorScriptsVersion = registry.version
  · rw [if_pos hsame] at h
    cases h
    exact Or.inl ⟨hsame, rfl, rfl⟩
  · rw [if_neg hsame] at h
    obtain ⟨router, hrouter, h⟩ := map_eq_ok.mp h
    by_cases hle : db.processorScriptsVersion ≤ registry.version
    · rw [if_pos hle] at h
      cases h
      exact Or.inr (Or.inl ⟨by omega, rfl, rfl⟩)
    · rw [if_neg hle] at h
      cases h
      exact Or.inr (Or.inr ⟨by omega, rfl, by rw [load, hrouter]; rfl⟩)

end ProcessorRegistryState

/-- **A refresh alone** takes the steps of the registry: from a registry that no refresh holds, to the
router and the version that it leaves. -/
theorem RefreshSteps.refreshIfNeeded {ι : Type} [DecidableEq ι] {db : Database} {i : ι}
    {reg : Registry Unit ProcessorRouter ι} {pc : RefreshPc Database LoadedProcessors
      ProcessorLoadError Unit ProcessorRouter} (hresting : pc.resting = true)
    (hfree : reg.refreshLock = none) (hunlocked : reg.held () = false) {changed : Bool}
    {registry : ProcessorRegistryState}
    (h : ProcessorRegistryState.refreshIfNeeded db ⟨reg.cells (), reg.version⟩ =
      .ok (changed, registry)) (hle : reg.version ≤ db.processorScriptsVersion) :
    RefreshSteps processorSource processorInstall db i (reg, pc)
      (⟨fun _ => registry.router, fun _ => false, registry.version, none⟩,
        .finished db.processorScriptsVersion changed) := by
  have hcells : ∀ router : ProcessorRouter, router = reg.cells () →
      (fun _ => router) = reg.cells := by
    rintro router rfl
    rfl
  rcases ProcessorRegistryState.refreshIfNeeded_cases h with
    ⟨hsame, rfl, rfl⟩ | ⟨hlt, -⟩ | ⟨hlt, rfl, hload⟩
  · -- the versions agree
    refine .first (.call hresting) (.first (.lock hfree) (.first .readInstalled (.first
      (.upToDate hsame) ?_)))
    rw [hcells _ rfl]
    exact .refl
  · exact absurd hlt (Nat.not_lt.mpr hle)
  · obtain ⟨router, hrouter, rfl⟩ := map_eq_ok.mp hload
    have hof : processorSource.of db = .ok fun _ => router := by
      rw [processorSource_of, hrouter]
      rfl
    have hlt : reg.version < db.processorScriptsVersion := hlt
    have hrun : InstallStep.runAll (fun _ => router) (processorSource.version db) processorInstall
        { reg with refreshLock := some i } = some
          ⟨fun _ => router, Function.update reg.held () true, db.processorScriptsVersion, some i⟩ := by
      have hversion : processorSource.version db = db.processorScriptsVersion := rfl
      have hwritten : Function.update reg.cells () router = fun _ => router := by
        funext cell
        cases cell
        exact Function.update_self ..
      simp only [InstallStep.runAll, processorInstall, InstallStep.run, hversion, if_pos hlt,
        hunlocked, Bool.false_eq_true, if_false, Option.bind_some, hwritten]
    exact RefreshSteps.alone hresting hfree (Nat.ne_of_gt hlt) hof hrun

/-! ### Bindings -/

/-- **Bindings lead to projects**: the foreign key of `project_processors`. -/
def BindingsLead (db : Database) : Prop :=
  ∀ id binding, db.projectProcessors.get id = some binding →
    ∃ project, db.projects.get binding.projectId = some project

omit [Engine] in
theorem BindingsLead.migrated : BindingsLead Database.migrated := nofun

omit [Engine] in
/-- The bindings that are made lead to the projects that they are made for. -/
theorem bindDefaults_projects {scriptId inserted inserted' : Nat} {projects : List (Nat × ProjectRow)}
    {bindings bindings' : RowTable ProjectProcessorRow}
    (h : bindDefaults scriptId inserted bindings projects = .ok (inserted', bindings')) :
    ∀ id row, bindings'.get id = some row →
      bindings.get id = some row ∨ ∃ e ∈ projects, e.1 = row.projectId := by
  induction projects generalizing inserted bindings with
  | nil =>
    cases h
    exact fun _ _ hget => Or.inl hget
  | cons e projects ih =>
    obtain ⟨projectId, project⟩ := e
    rw [bindDefaults] at h
    intro id row hget
    split at h
    · rcases ih h id row hget with hget | ⟨e, he, heq⟩
      · exact Or.inl hget
      · exact Or.inr ⟨e, List.mem_cons_of_mem _ he, heq⟩
    · split at h
      · cases h
      · next hinsert =>
        rcases ih h id row hget with hget | ⟨e, he, heq⟩
        · -- the binding that was just made, or an older one
          obtain ⟨-, -, -, hinserted⟩ := RowTable.insert?_eq_some hinsert
          rw [hinserted] at hget
          split at hget
          · cases hget
            exact Or.inr ⟨_, List.mem_cons_self, rfl⟩
          · exact Or.inl hget
        · exact Or.inr ⟨e, List.mem_cons_of_mem _ he, heq⟩

omit [Engine] in
/-- Where no binding is made, the table is the same. -/
theorem bindDefaults_unchanged {scriptId inserted inserted' : Nat}
    {projects : List (Nat × ProjectRow)} {bindings bindings' : RowTable ProjectProcessorRow}
    (h : bindDefaults scriptId inserted bindings projects = .ok (inserted', bindings')) :
    inserted ≤ inserted' ∧ (inserted' = inserted → bindings' = bindings) := by
  induction projects generalizing inserted bindings with
  | nil =>
    cases h
    exact ⟨le_rfl, fun _ => rfl⟩
  | cons e projects ih =>
    obtain ⟨projectId, project⟩ := e
    rw [bindDefaults] at h
    split at h
    · exact ih h
    · split at h
      · cases h
      · obtain ⟨hle, -⟩ := ih h
        exact ⟨by omega, fun heq => by omega⟩

omit [Engine] in
/-- The binding of a project is put. -/
theorem assignProjectProcessor_lead {db db' : Database} {projectId processorScriptId : Nat}
    {enabled : Bool} {u : Unit} (hlead : BindingsLead db)
    (h : ProcessorRepository.assignProjectProcessor db projectId processorScriptId enabled =
      .ok (u, db')) : BindingsLead db' := by
  simp only [ProcessorRepository.assignProjectProcessor, bind_eq_ok, okOr_eq_ok, ensure_eq_ok,
    pure_eq_ok, ProcessorRepository.findProjectById, findProcessorScriptById] at h
  obtain ⟨project, hproject, _, _, _, _, bindings, hput, h⟩ := h
  cases h
  intro id binding hget
  rcases putBinding_spec hput id binding hget with hget | rfl
  · exact hlead id binding hget
  · exact ⟨project, hproject⟩

/-- **The foreign key holds on.** -/
theorem ProcessorOp.lead {db db' : Database} {op : ProcessorOp} (hlead : BindingsLead db)
    (h : op.run db = .ok db') : BindingsLead db' := by
  cases op with
  | createScript input =>
    obtain ⟨a, h⟩ := map_snd_eq_ok.mp h
    simp only [ProcessorRepository.createScript, bind_eq_ok, pure_eq_ok] at h
    obtain ⟨_, _, _, _, _, _, h⟩ := h
    cases h
    exact hlead
  | updateScript id input =>
    obtain ⟨a, h⟩ := map_snd_eq_ok.mp h
    simp only [ProcessorRepository.updateScript, bind_eq_ok, pure_eq_ok] at h
    obtain ⟨_, _, _, _, _, _, _, _, _, _, h⟩ := h
    cases h
    exact hlead
  | updateScriptStatus id status =>
    obtain ⟨a, h⟩ := map_snd_eq_ok.mp h
    simp only [ProcessorRepository.updateScriptStatus, bind_eq_ok, pure_eq_ok] at h
    obtain ⟨_, _, _, _, _, _, h⟩ := h
    cases h
    exact hlead
  | assignDefaultProcessor projectId =>
    obtain ⟨script, -, h⟩ := bind_eq_ok.mp h
    obtain ⟨a, h⟩ := map_snd_eq_ok.mp h
    exact assignProjectProcessor_lead hlead h
  | ensureDefaultProjectProcessors =>
    obtain ⟨a, h⟩ := map_snd_eq_ok.mp h
    simp only [ProcessorRepository.ensureDefaultProjectProcessors, bind_eq_ok, pure_eq_ok] at h
    obtain ⟨_, _, ⟨inserted, bindings⟩, hbind, h⟩ := h
    have hlead' : BindingsLead { db with projectProcessors := bindings } := by
      intro id binding hget
      rcases bindDefaults_projects hbind id binding hget with hget | ⟨⟨_, project⟩, he, rfl⟩
      · exact hlead id binding hget
      · exact ⟨project, RowTable.mem_all.mp he⟩
    cases h
    show BindingsLead (if 0 < inserted then _ else _)
    split_ifs
    · exact hlead'
    · exact hlead'
  | assignProjectProcessor projectId processorScriptId enabled =>
    obtain ⟨a, h⟩ := map_snd_eq_ok.mp h
    exact assignProjectProcessor_lead hlead h
  | deleteProjectProcessor projectId =>
    obtain ⟨a, h⟩ := map_snd_eq_ok.mp h
    simp only [ProcessorRepository.deleteProjectProcessor, bind_eq_ok, pure_eq_ok] at h
    obtain ⟨_, _, h⟩ := h
    cases h
    exact fun id binding hget => hlead id binding (RowTable.get_deleteWhere.mp hget).1

omit [Engine] in
theorem ProjectsChange.lead {db db' : Database} (hlead : BindingsLead db)
    (h : ProjectsChange db db') : BindingsLead db' := by
  cases h with
  | @create row id projects hinsert =>
    obtain ⟨-, -, -, hget⟩ := RowTable.insert?_eq_some hinsert
    intro bindingId binding hbinding
    obtain ⟨project, hproject⟩ := hlead bindingId binding hbinding
    show ∃ project, projects.get _ = some project
    rw [hget]
    split_ifs
    · exact ⟨_, rfl⟩
    · exact ⟨project, hproject⟩
  | @update id existing row projects hupdate _ =>
    obtain ⟨-, -, hget⟩ := RowTable.update?_eq_some hupdate
    intro bindingId binding hbinding
    obtain ⟨project, hproject⟩ := hlead bindingId binding hbinding
    show ∃ project, projects.get _ = some project
    rw [hget]
    split_ifs with heq
    · rw [← heq, hproject]
      exact ⟨_, rfl⟩
    · exact ⟨project, hproject⟩
  | @delete id _ _ =>
    intro bindingId binding hbinding
    obtain ⟨hbinding, hother⟩ := RowTable.get_deleteWhere.mp hbinding
    obtain ⟨project, hproject⟩ := hlead bindingId binding hbinding
    refine ⟨project, ?_⟩
    show (db.projects.delete id).get _ = some project
    rw [RowTable.get_delete, if_neg (by simpa using hother), hproject]

/-! ### What a router is made of -/

omit [Engine] in
/-- The scripts and their modules decide what the default script is. -/
theorem defaultRuntimeScript_congr {db db' : Database}
    (hscripts : db'.processorScripts = db.processorScripts)
    (hmodules : db'.processorScriptModules = db.processorScriptModules) :
    defaultRuntimeScript db' = defaultRuntimeScript db := by
  simp only [defaultRuntimeScript, findDefaultProcessorScript, runtimeScriptFromModel, scriptModules,
    hscripts, hmodules]

omit [Engine] in
/-- **What a project runs** is decided by the scripts, their modules, and its binding. -/
theorem runtimeScriptForProject_congr {db db' : Database} {projectId : Nat}
    {project project' : ProjectRow} (hproject : db.projects.get projectId = some project)
    (hproject' : db'.projects.get projectId = some project')
    (hscripts : db'.processorScripts = db.processorScripts)
    (hmodules : db'.processorScriptModules = db.processorScriptModules)
    (hbinding : db'.projectProcessors.find? (fun binding =>
        binding.projectId = projectId ∧ binding.enabled = true) =
      db.projectProcessors.find? fun binding =>
        binding.projectId = projectId ∧ binding.enabled = true) :
    runtimeScriptForProject db' projectId = runtimeScriptForProject db projectId := by
  simp only [runtimeScriptForProject, hproject, hproject', hbinding, activeScript,
    runtimeScriptFromModel, scriptModules, hscripts, hmodules,
    defaultRuntimeScript_congr hscripts hmodules]

omit [Engine] in
/-- A project has one binding, so that it is the one that is found. -/
theorem find?_binding {bindings : RowTable ProjectProcessorRow} {projectId id : Nat}
    {row : ProjectProcessorRow} : bindings.find? (fun binding =>
        binding.projectId = projectId ∧ binding.enabled = true) = some (id, row) ↔
      bindings.get id = some row ∧ row.projectId = projectId ∧ row.enabled = true := by
  constructor
  · intro h
    obtain ⟨hget, hp⟩ := RowTable.find?_eq_some h
    exact ⟨hget, of_decide_eq_true hp⟩
  · rintro ⟨hget, rfl, henabled⟩
    cases hfind : bindings.find? fun binding =>
        binding.projectId = row.projectId ∧ binding.enabled = true with
    | none =>
      have hnot := RowTable.find?_eq_none.mp hfind id row hget
      simp [henabled] at hnot
    | some found =>
      obtain ⟨id', row'⟩ := found
      obtain ⟨hget', hp⟩ := RowTable.find?_eq_some hfind
      have hsame : row'.projectId = row.projectId := (of_decide_eq_true hp).1
      have heq := bindings.unique id' id row' row hget' hget (by simp [UniqueIndexes.clash, hsame])
      subst heq
      rw [hget] at hget'
      cases hget'
      rfl

omit [Engine] in
/-- Other bindings may be deleted. -/
theorem find?_binding_deleteWhere (bindings : RowTable ProjectProcessorRow) {projectId other : Nat}
    (hne : projectId ≠ other) :
    (bindings.deleteWhere fun _ binding => binding.projectId = other).find? (fun binding =>
        binding.projectId = projectId ∧ binding.enabled = true) =
      bindings.find? fun binding => binding.projectId = projectId ∧ binding.enabled = true := by
  refine Option.ext fun ⟨id, row⟩ => ?_
  rw [find?_binding, find?_binding, RowTable.get_deleteWhere]
  constructor
  · rintro ⟨⟨hget, -⟩, h⟩
    exact ⟨hget, h⟩
  · rintro ⟨hget, rfl, henabled⟩
    exact ⟨⟨hget, decide_eq_false hne⟩, rfl, henabled⟩

/-- The projects of a router are enabled where it is loaded. -/
theorem loadProcessorRouter_enabled {db : Database} {router : ProcessorRouter}
    (h : loadProcessorRouter db = .ok router) {projectId : Nat}
    (hlookup : (router.projects.lookup projectId).isSome = true) :
    ∃ project, (db.projects.get projectId).filter (·.enabled) = some project := by
  simp only [loadProcessorRouter, loadProcessors, bind_eq_ok, mapError_eq_ok, pure_eq_ok] at h
  obtain ⟨_, ⟨script, _, default, _, projectScripts, hlist, rfl⟩, projects, hprojects, rfl⟩ := h
  obtain ⟨compiled, hcompiled⟩ := Option.isSome_iff_exists.mp hlookup
  rw [SortedTable.lookup_ofPairs] at hcompiled
  obtain ⟨⟨key, _⟩, hlast, rfl⟩ := Option.map_eq_some_iff.mp hcompiled
  obtain ⟨hmem, hkey⟩ := List.mem_filter.mp (List.mem_of_getLast? hlast)
  cases of_decide_eq_true hkey
  have hscript := List.mem_map_of_mem (f := fun e : Nat × CompiledScript => (e.1, e.2.script)) hmem
  rw [(compileProjects_eq_ok hprojects).1] at hscript
  obtain ⟨-, -, -, hproject, -⟩ := (mem_runtimeProjectProcessors hlist).mp hscript
  exact hproject

/-- The default script of a router is that of the database, for the enabled sinks. -/
theorem loadProcessorRouter_default {db : Database} {router : ProcessorRouter}
    (h : loadProcessorRouter db = .ok router) :
    defaultRuntimeScript db = .ok router.default.script ∧
      ∀ projectId, (router.processorForProject projectId).sinkTargets = enabledSinkIds db := by
  simp only [loadProcessorRouter, loadProcessors, bind_eq_ok, mapError_eq_ok, pure_eq_ok] at h
  obtain ⟨_, ⟨script, hscript, default, hdefault, projectScripts, hlist, rfl⟩, projects, hprojects,
    rfl⟩ := h
  obtain ⟨hdefaultScript, hdefaultSinks⟩ := CompiledScript.compile_eq_ok hdefault
  refine ⟨by rw [hscript, hdefaultScript], fun projectId => ?_⟩
  rw [ProcessorRouter.processorForProject]
  cases hlookup : (SortedTable.ofPairs projects).lookup projectId with
  | none => exact hdefaultSinks
  | some compiled =>
    rw [SortedTable.lookup_ofPairs] at hlookup
    obtain ⟨e, hlast, rfl⟩ := Option.map_eq_some_iff.mp hlookup
    exact (compileProjects_eq_ok hprojects).2 e
      (List.mem_filter.mp (List.mem_of_getLast? hlast)).1

/-- **A router serves a state of the database**: every project that is enabled, or that the router
has, runs its script, and the sinks are those that are enabled. -/
structure Serves (db : Database) (router : ProcessorRouter) : Prop where
  default : defaultRuntimeScript db = .ok router.default.script
  sinks : ∀ projectId s,
    s ∈ (router.processorForProject projectId).sinkTargets ↔ s ∈ enabledSinkIds db
  projects : ∀ projectId project, db.projects.get projectId = some project →
    project.enabled = true ∨ (router.projects.lookup projectId).isSome = true →
    runtimeScriptForProject db projectId = .ok (router.processorForProject projectId).script
  known : ∀ projectId, (router.projects.lookup projectId).isSome = true →
    projectId < db.projects.nextId

/-- A router serves the state that it was loaded from. -/
theorem Serves.of_load {db : Database} {router : ProcessorRouter}
    (h : loadProcessorRouter db = .ok router) : Serves db router := by
  obtain ⟨hdefault, hsinks⟩ := loadProcessorRouter_default h
  refine ⟨hdefault, fun projectId s => by rw [hsinks], fun projectId project hget hor => ?_,
    fun projectId hlookup => ?_⟩
  · rcases hor with henabled | hlookup
    · have hproject : (db.projects.get projectId).filter (·.enabled) = some project := by
        rw [hget]
        exact Option.filter_eq_some_iff.mpr ⟨rfl, henabled⟩
      exact (loadProcessorRouter_script h hproject).1
    · obtain ⟨project', hproject⟩ := loadProcessorRouter_enabled h hlookup
      exact (loadProcessorRouter_script h hproject).1
  · obtain ⟨project, hproject⟩ := loadProcessorRouter_enabled h hlookup
    exact RowTable.lt_nextId (Option.filter_eq_some_iff.mp hproject).1

/-! ### Quiet operations -/

/-- **Operations that change nothing that a router is made of**, besides those that change the version:
a sink that is created is disabled, one that is deleted was, one that is updated stays as it was; and
a project that is enabled is one that the router has, or it runs the default script. -/
def AdminOp.Quiet (router : ProcessorRouter) (db : Database) : AdminOp → Prop
  | .project (.updateProjectWithIngestSettings id input _) =>
    ∀ existing ∈ db.projects.get id, existing.enabled = false → input.enabled = some true →
      (router.projects.lookup id).isSome = true ∨
        runtimeScriptForProject db id = defaultRuntimeScript db
  | .eventSink (.createEventSink input) => input.enabled = false
  | .eventSink (.updateEventSink id input) =>
    ∀ existing ∈ db.eventSinks.get id, input.enabled.getD existing.enabled = existing.enabled
  | .eventSink (.deleteEventSink id) =>
    ∀ existing ∈ db.eventSinks.get id, existing.enabled = false
  | _ => True

omit [Engine] in
/-- A sink is enabled by its row. -/
theorem mem_enabledSinkIds_row {db : Database} {id : Nat} {sink : EventSinkRow}
    (hget : db.eventSinks.get id = some sink) :
    sink.sinkId ∈ enabledSinkIds db ↔ sink.enabled = true := by
  rw [mem_enabledSinkIds]
  constructor
  · rintro ⟨id', sink', hget', henabled, heq⟩
    have hid := db.eventSinks.unique id' id sink' sink hget' hget (by simp [UniqueIndexes.clash, heq])
    subst hid
    rw [hget] at hget'
    cases hget'
    exact henabled
  · exact fun henabled => ⟨id, sink, hget, henabled, rfl⟩

/-- **A quiet operation on the sinks** keeps the set of those that are enabled. -/
theorem EventSinkOp.enabledSinkIds_of_quiet [SinkBackends] [SerdeText] [DurationCodec]
    {router : ProcessorRouter} {db db' : Database} {op : EventSinkOp}
    (hquiet : AdminOp.Quiet router db (.eventSink op)) (h : op.run db = .ok db') (s : String) :
    s ∈ enabledSinkIds db' ↔ s ∈ enabledSinkIds db := by
  cases op with
  | createEventSink input =>
    obtain ⟨a, h⟩ := map_snd_eq_ok.mp h
    simp only [EventSinkRepository.createEventSink, bind_eq_ok, okOr_eq_ok, pure_eq_ok] at h
    obtain ⟨_, _, _, _, _, _, _, _, ⟨id, sinks⟩, hinsert, h⟩ := h
    cases h
    have hdisabled : input.enabled = false := hquiet
    rw [mem_enabledSinkIds_insert hinsert rfl]
    simp [hdisabled]
  | updateEventSink id input =>
    obtain ⟨a, h⟩ := map_snd_eq_ok.mp h
    simp only [EventSinkRepository.updateEventSink, bind_eq_ok, okOr_eq_ok, pure_eq_ok,
      EventSinkRepository.findEventSinkById] at h
    obtain ⟨existing, hget, _, _, _, _, _, _, sinks, hupdate, h⟩ := h
    cases h
    have henabled := hquiet existing hget
    rw [mem_enabledSinkIds_update hupdate hget rfl rfl, henabled, ← mem_enabledSinkIds_row hget]
    constructor
    · rintro (⟨hmem, -⟩ | ⟨hmem, rfl⟩)
      · exact hmem
      · exact hmem
    · intro hmem
      by_cases heq : s = existing.sinkId
      · subst heq
        exact Or.inr ⟨hmem, rfl⟩
      · exact Or.inl ⟨hmem, heq⟩
  | deleteEventSink id =>
    obtain ⟨a, h⟩ := map_snd_eq_ok.mp h
    simp only [EventSinkRepository.deleteEventSink, bind_eq_ok, okOr_eq_ok, pure_eq_ok,
      EventSinkRepository.findEventSinkById] at h
    obtain ⟨existing, hget, h⟩ := h
    cases h
    have hdisabled := hquiet existing hget
    rw [mem_enabledSinkIds, mem_enabledSinkIds]
    refine exists_congr fun id' => exists_congr fun sink => ?_
    show (db.eventSinks.delete id).get id' = some sink ∧ _ ↔ _
    rw [RowTable.get_delete]
    split_ifs with heq
    · subst heq
      rw [hget]
      constructor
      · rintro ⟨⟨⟩, -⟩
      · rintro ⟨⟨⟩, henabled, -⟩
        rw [hdisabled] at henabled
        cases henabled
    · exact Iff.rfl
  | createDeliveryTarget input =>
    obtain ⟨a, h⟩ := map_snd_eq_ok.mp h
    simp only [EventSinkRepository.createDeliveryTarget, bind_eq_ok, pure_eq_ok] at h
    obtain ⟨_, _, _, _, _, _, h⟩ := h
    cases h
    exact Iff.rfl
  | updateDeliveryTarget id input =>
    obtain ⟨a, h⟩ := map_snd_eq_ok.mp h
    simp only [EventSinkRepository.updateDeliveryTarget, bind_eq_ok, pure_eq_ok] at h
    obtain ⟨_, _, _, _, _, _, _, _, _, _, h⟩ := h
    cases h
    exact Iff.rfl
  | deleteDeliveryTarget id =>
    obtain ⟨a, h⟩ := map_snd_eq_ok.mp h
    simp only [EventSinkRepository.deleteDeliveryTarget, bind_eq_ok, pure_eq_ok] at h
    obtain ⟨_, _, _, _, h⟩ := h
    cases h
    exact Iff.rfl

/-- A project that the router does not have runs the default script in it. -/
theorem ProcessorRouter.processorForProject_of_none {router : ProcessorRouter} {projectId : Nat}
    (h : ¬(router.projects.lookup projectId).isSome = true) :
    router.processorForProject projectId = router.default := by
  rw [processorForProject, Option.not_isSome_iff_eq_none.mp h, Option.getD_none]

/-- **A quiet operation on the projects** leaves the router serving. -/
theorem Serves.project {router : ProcessorRouter} {db db' : Database} {op : ProjectOp}
    (hserves : Serves db router) (hlead : BindingsLead db)
    (hquiet : AdminOp.Quiet router db (.project op)) (h : op.run db = .ok db') :
    Serves db' router := by
  cases op with
  | createProjectWithIngestSettings randomKey input settings =>
    obtain ⟨a, h⟩ := map_snd_eq_ok.mp h
    simp only [ProjectRepository.createProjectWithIngestSettings, bind_eq_ok, okOr_eq_ok,
      pure_eq_ok] at h
    obtain ⟨_, _, _, _, ⟨id, projects⟩, hinsert, h⟩ := h
    cases h
    obtain ⟨rfl, -, hnext, hget⟩ := RowTable.insert?_eq_some hinsert
    have hget' : ∀ projectId, (ProjectRepository.bumpProjectsVersion
        { db with projects := projects }).projects.get projectId = projects.get projectId :=
      fun _ => rfl
    refine ⟨hserves.default, hserves.sinks, fun projectId project hproject hor => ?_,
      fun projectId hlookup => ?_⟩
    · have hstored := hproject
      rw [hget', hget] at hstored
      by_cases heq : projectId = db.projects.nextId
      · -- the new project has no binding, and the router does not have it
        subst heq
        have hnot : ¬(router.projects.lookup db.projects.nextId).isSome = true :=
          fun hlookup => Nat.lt_irrefl _ (hserves.known _ hlookup)
        rw [ProcessorRouter.processorForProject_of_none hnot, ← hserves.default]
        have hnone : db.projectProcessors.find? (fun binding =>
            binding.projectId = db.projects.nextId ∧ binding.enabled = true) = none := by
          refine RowTable.find?_eq_none.mpr fun id binding hbinding => ?_
          obtain ⟨project', hproject'⟩ := hlead id binding hbinding
          have hlt := RowTable.lt_nextId hproject'
          exact decide_eq_false fun h => absurd h.1 (Nat.ne_of_lt hlt)
        have hnone' : (ProjectRepository.bumpProjectsVersion
            { db with projects := projects }).projectProcessors.find? (fun binding =>
              binding.projectId = db.projects.nextId ∧ binding.enabled = true) = none := hnone
        simp only [runtimeScriptForProject, hget', hget, if_true, hnone']
        rfl
      · rw [if_neg heq] at hstored
        rw [← hserves.projects projectId project hstored hor]
        exact runtimeScriptForProject_congr hstored hproject rfl rfl rfl
    · exact Nat.lt_of_lt_of_le (hserves.known projectId hlookup)
        (show db.projects.nextId ≤ projects.nextId by omega)
  | updateProjectWithIngestSettings id input settings =>
    obtain ⟨a, h⟩ := map_snd_eq_ok.mp h
    simp only [ProjectRepository.updateProjectWithIngestSettings, bind_eq_ok, okOr_eq_ok,
      pure_eq_ok, ProjectRepository.findProjectById] at h
    obtain ⟨existing, hexisting, _, _, _, _, projects, hupdate, h⟩ := h
    cases h
    obtain ⟨-, hnext, hget⟩ := RowTable.update?_eq_some hupdate
    have hget' : ∀ projectId, (ProjectRepository.bumpProjectsVersion
        { db with projects := projects }).projects.get projectId = projects.get projectId :=
      fun _ => rfl
    refine ⟨hserves.default, hserves.sinks, fun projectId project hproject hor => ?_,
      fun projectId hlookup => ?_⟩
    · have hstored := hproject
      rw [hget', hget] at hstored
      by_cases heq : projectId = id
      · subst heq
        rw [if_pos rfl, hexisting] at hstored
        cases hstored
        rw [runtimeScriptForProject_congr hexisting hproject rfl rfl rfl]
        by_cases hlookup : (router.projects.lookup projectId).isSome = true
        · exact hserves.projects projectId existing hexisting (Or.inr hlookup)
        · have henabled : input.enabled.getD existing.enabled = true := hor.resolve_right hlookup
          cases hwas : existing.enabled with
          | true => exact hserves.projects projectId existing hexisting (Or.inl hwas)
          | false =>
            -- it is enabled now, and runs the default script
            have hnow : input.enabled = some true := by
              cases hinput : input.enabled with
              | none => simp [hinput, hwas] at henabled
              | some enabled => simpa [hinput] using henabled
            have hdefault := (hquiet existing hexisting hwas hnow).resolve_left hlookup
            rw [hdefault, ProcessorRouter.processorForProject_of_none hlookup, hserves.default]
      · rw [if_neg heq] at hstored
        rw [← hserves.projects projectId project hstored hor]
        exact runtimeScriptForProject_congr hstored hproject rfl rfl rfl
    · exact Nat.lt_of_lt_of_le (hserves.known projectId hlookup) (Nat.le_of_eq hnext.symm)
  | deleteProject id =>
    obtain ⟨a, h⟩ := map_snd_eq_ok.mp h
    simp only [ProjectRepository.deleteProject, bind_eq_ok, pure_eq_ok] at h
    obtain ⟨_, _, h⟩ := h
    cases h
    refine ⟨hserves.default, hserves.sinks, fun projectId project hproject hor => ?_,
      hserves.known⟩
    have hstored : (db.projects.delete id).get projectId = some project := hproject
    rw [RowTable.get_delete] at hstored
    split_ifs at hstored with heq
    rw [← hserves.projects projectId project hstored hor]
    exact runtimeScriptForProject_congr hstored hproject rfl rfl
      (find?_binding_deleteWhere db.projectProcessors heq)

/-! ### Runs -/

variable [SinkBackends] [SerdeText] [DurationCodec]

/-- **The database and the processors of a node**, with the operations since the router was loaded, each
beside the database before it. -/
structure ProcessorCache where
  db : Database
  registry : ProcessorRegistryState
  since : List (Database × AdminOp)

/-- **The runs**: the router is loaded, and then operations succeed and refreshes return in any order.
A refresh that fails leaves everything as it was. -/
inductive CacheReachable : ProcessorCache → Prop
  | load {db : Database} {registry : ProcessorRegistryState} (hlead : BindingsLead db)
      (hload : ProcessorRegistryState.load db = .ok registry) : CacheReachable ⟨db, registry, []⟩
  | mutate {cache : ProcessorCache} (hcache : CacheReachable cache) {op : AdminOp} {db : Database}
      (hrun : op.run cache.db = .ok db) :
      CacheReachable ⟨db, cache.registry, (cache.db, op) :: cache.since⟩
  | refresh {cache : ProcessorCache} (hcache : CacheReachable cache) {changed : Bool}
      {registry : ProcessorRegistryState}
      (hrefresh : cache.registry.refreshIfNeeded cache.db = .ok (changed, registry)) :
      CacheReachable ⟨cache.db, registry, if changed then [] else cache.since⟩

/-- **A refresh sees what has changed**: the version of the scripts is another one than the installed
one, or all operations since the load were quiet. -/
def ProcessorCache.Noticed (cache : ProcessorCache) : Prop :=
  cache.db.processorScriptsVersion ≠ cache.registry.version ∨
    ∀ e ∈ cache.since, e.2.Quiet cache.registry.router e.1

/-- Two compiled scripts are the same script with the same sink constants. -/
structure CompiledScript.RunsLike (compiled compiled' : CompiledScript) : Prop where
  script : compiled.script = compiled'.script
  sinkTargets : ∀ s, s ∈ compiled.sinkTargets ↔ s ∈ compiled'.sinkTargets

/-- **The router is coherent with the database**: every enabled project runs what it would run in a
router that is loaded now. -/
def ProcessorRouter.Coherent (router : ProcessorRouter) (db : Database) : Prop :=
  ∀ fresh, loadProcessorRouter db = .ok fresh → ∀ projectId project,
    (db.projects.get projectId).filter (·.enabled) = some project →
    (router.processorForProject projectId).RunsLike (fresh.processorForProject projectId)

omit [SinkBackends] [SerdeText] [DurationCodec] in
/-- A router that serves a state is coherent with it. -/
theorem Serves.coherent {db : Database} {router : ProcessorRouter} (h : Serves db router) :
    router.Coherent db := by
  intro fresh hfresh projectId project hproject
  obtain ⟨hget, henabled⟩ := Option.filter_eq_some_iff.mp hproject
  obtain ⟨hscript, hsinks⟩ := loadProcessorRouter_script hfresh hproject
  have hserved := h.projects projectId project hget (Or.inl henabled)
  rw [hscript] at hserved
  exact ⟨(Except.ok.inj hserved).symm, fun s => by rw [h.sinks, hsinks]⟩

omit [Engine] [SinkBackends] [SerdeText] [DurationCodec] in
/-- An operation on the processors changes the version, or nothing. -/
theorem ProcessorsChange.version {db db' : Database} (h : ProcessorsChange db db') :
    db'.processorScriptsVersion = db.processorScriptsVersion + 1 ∨ db' = db := by
  cases h with
  | @bindDefaults scriptId inserted script bindings hbind hget hstatus =>
    split_ifs with hpos
    · exact Or.inl rfl
    · obtain rfl : inserted = 0 := by omega
      right
      rw [(bindDefaults_unchanged hbind).2 rfl]
  | _ => exact Or.inl rfl

omit [Engine] [SinkBackends] [SerdeText] [DurationCodec] in
theorem ProjectsChange.processorScriptsVersion {db db' : Database} (h : ProjectsChange db db') :
    db'.processorScriptsVersion = db.processorScriptsVersion := by
  cases h <;> rfl

omit [Engine] in
theorem SinksChange.processorScriptsVersion {db db' : Database}
    (h : SinksChange db db') :
    db'.processorScriptsVersion = db.processorScriptsVersion := by
  cases h <;> rfl

/-- **The version never goes back.** -/
theorem AdminOp.version_le {op : AdminOp} {db db' : Database} (h : op.run db = .ok db') :
    db.processorScriptsVersion ≤ db'.processorScriptsVersion := by
  cases AdminOp.run_ok h with
  | project h => exact Nat.le_of_eq h.processorScriptsVersion.symm
  | eventSink h => exact Nat.le_of_eq h.processorScriptsVersion.symm
  | processor h =>
    rcases h.version with hnext | rfl
    · omega
    · exact le_rfl

/-- **The foreign key holds on**, whatever the operation. -/
theorem AdminOp.lead {op : AdminOp} {db db' : Database} (hlead : BindingsLead db)
    (h : op.run db = .ok db') : BindingsLead db' := by
  cases op with
  | project op => exact (ProjectOp.run_ok (mapError_eq_ok.mp h)).lead hlead
  | processor op => exact ProcessorOp.lead hlead (mapError_eq_ok.mp h)
  | eventSink op =>
    obtain ⟨-, -, hbindings, hprojects⟩ := (EventSinkOp.run_ok (mapError_eq_ok.mp h)).processors
    rw [BindingsLead, hbindings, hprojects]
    exact hlead

/-- **A quiet operation without a new version** leaves the router serving. -/
theorem Serves.run {router : ProcessorRouter} {db db' : Database} {op : AdminOp}
    (hserves : Serves db router) (hlead : BindingsLead db) (hquiet : op.Quiet router db)
    (h : op.run db = .ok db')
    (hversion : db'.processorScriptsVersion = db.processorScriptsVersion) : Serves db' router := by
  cases op with
  | project op => exact hserves.project hlead hquiet (mapError_eq_ok.mp h)
  | processor op =>
    rcases (ProcessorOp.run_ok (mapError_eq_ok.mp h)).version with hnext | rfl
    · omega
    · exact hserves
  | eventSink op =>
    have hrun := mapError_eq_ok.mp h
    obtain ⟨hscripts, hmodules, hbindings, hprojects⟩ := (EventSinkOp.run_ok hrun).processors
    refine ⟨by rw [defaultRuntimeScript_congr hscripts hmodules, hserves.default],
      fun projectId s => by rw [EventSinkOp.enabledSinkIds_of_quiet hquiet hrun, hserves.sinks],
      fun projectId project hproject hor => ?_, by rw [hprojects]; exact hserves.known⟩
    have hstored := hproject
    rw [hprojects] at hstored
    rw [← hserves.projects projectId project hstored hor]
    exact runtimeScriptForProject_congr hstored hproject hscripts hmodules (by rw [hbindings])

/-- **The invariant of the runs.** -/
structure CacheOk (cache : ProcessorCache) : Prop where
  lead : BindingsLead cache.db
  version : cache.registry.version ≤ cache.db.processorScriptsVersion
  serves : cache.db.processorScriptsVersion = cache.registry.version →
    (∀ e ∈ cache.since, e.2.Quiet cache.registry.router e.1) →
    Serves cache.db cache.registry.router

omit [SinkBackends] [SerdeText] [DurationCodec] in
/-- What holds of a registry that was just loaded. -/
theorem ProcessorRegistryState.load_spec {db : Database} {registry : ProcessorRegistryState}
    (h : load db = .ok registry) :
    registry.version = db.processorScriptsVersion ∧ Serves db registry.router := by
  obtain ⟨router, hrouter, rfl⟩ := map_eq_ok.mp h
  exact ⟨rfl, Serves.of_load hrouter⟩

/-- **Every run keeps the invariant.** -/
theorem CacheReachable.ok {cache : ProcessorCache} (h : CacheReachable cache) : CacheOk cache := by
  induction h with
  | load hlead hload =>
    obtain ⟨hversion, hserves⟩ := ProcessorRegistryState.load_spec hload
    exact ⟨hlead, Nat.le_of_eq hversion, fun _ _ => hserves⟩
  | @mutate cache _ op db hrun ih =>
    have hle := AdminOp.version_le hrun
    refine ⟨AdminOp.lead ih.lead hrun, ih.version.trans hle, fun hsame hquiet => ?_⟩
    -- the version is still the one that was loaded, so it was so before
    have hbefore : cache.db.processorScriptsVersion = cache.registry.version :=
      Nat.le_antisymm (hle.trans (Nat.le_of_eq hsame)) ih.version
    obtain ⟨hop, hrest⟩ := List.forall_mem_cons.mp hquiet
    exact (ih.serves hbefore hrest).run ih.lead hop hrun (hsame.trans hbefore.symm)
  | refresh _ hrefresh ih =>
    rcases ProcessorRegistryState.refreshIfNeeded_cases hrefresh with
      ⟨-, rfl, rfl⟩ | ⟨-, rfl, rfl⟩ | ⟨-, rfl, hload⟩
    · exact ⟨ih.lead, ih.version, ih.serves⟩
    · exact ⟨ih.lead, ih.version, ih.serves⟩
    · obtain ⟨hversion, hserves⟩ := ProcessorRegistryState.load_spec hload
      exact ⟨ih.lead, Nat.le_of_eq hversion, fun _ _ => hserves⟩

/-- **The processors are coherent with the database after a refresh** in every run, where the refresh
sees what has changed: the version of the scripts is another one than at the load, or since then no
sink was enabled, disabled or deleted while enabled, and no project was enabled that the router does
not have and that runs another script than the default one. -/
theorem refreshIfNeeded_coherent {cache : ProcessorCache} (hcache : CacheReachable cache)
    (hnoticed : cache.Noticed) {changed : Bool} {registry : ProcessorRegistryState}
    (hrefresh : cache.registry.refreshIfNeeded cache.db = .ok (changed, registry)) :
    registry.router.Coherent cache.db := by
  have hok := hcache.ok
  rcases ProcessorRegistryState.refreshIfNeeded_cases hrefresh with
    ⟨hsame, -, rfl⟩ | ⟨hlt, -⟩ | ⟨-, -, hload⟩
  · exact (hok.serves hsame (hnoticed.resolve_left (not_not_intro hsame))).coherent
  · exact absurd hok.version (Nat.not_le.mpr hlt)
  · exact (ProcessorRegistryState.load_spec hload).2.coherent

end Cache

/-! ### A project that is enabled -/

section Sample

attribute [local instance] nodeEngine acceptingBackends typeNameText secondsCodec

/-- A project that is bound to a script besides the default one. -/
def boundProject (enabled : Bool) : Database :=
  nodeDatabase .migrated [
    .project (.createProjectWithIngestSettings "k" ⟨"One", enabled, "igx_one_token"⟩ .unchanged),
    .processor (.createScript ⟨"default", "Default", "main", .active, [⟨"main", "none"⟩]⟩),
    .processor (.createScript ⟨"other", "Other", "main", .active, [⟨"main", "other"⟩]⟩),
    .processor (.assignProjectProcessor 1 2 true)]

/-- The project is updated. -/
def updateProjectOp (name : Option String) (enabled : Option Bool) : AdminOp :=
  .project (.updateProjectWithIngestSettings 1 ⟨name, enabled, none⟩ .unchanged)

theorem boundProject_lead (enabled : Bool) : BindingsLead (boundProject enabled) := by
  intro id binding hget
  have hall : ∀ e ∈ (boundProject enabled).projectProcessors.all,
      ((boundProject enabled).projects.get e.2.projectId).isSome = true := by
    cases enabled <;> decide +kernel
  exact Option.isSome_iff_exists.mp (hall (id, binding) (RowTable.mem_all.mpr hget))

/-- The registry is loaded, with one of the two scripts for the project. -/
theorem boundProject_loads (enabled : Bool) : ∃ router,
    loadProcessorRouter (boundProject enabled) = .ok router ∧
      (router.processorForProject 1).script.id = if enabled then 2 else 1 := by
  have hsome : (loadProcessorRouter (boundProject enabled)).toOption.map (fun router =>
      (router.processorForProject 1).script.id) = some (if enabled then 2 else 1) := by
    cases enabled <;> decide +kernel
  obtain ⟨router, hrouter, hid⟩ := map_toOption_eq_some.mp hsome
  exact ⟨router, hrouter, hid⟩

/-- The theorem on a project that gets another name: nothing is reloaded, and it runs its script. -/
theorem refreshIfNeeded_coherent_sample : ∃ (cache : ProcessorCache)
    (registry : ProcessorRegistryState), cache.since ≠ [] ∧
      cache.registry.refreshIfNeeded cache.db = .ok (false, registry) ∧
      registry.router.Coherent cache.db := by
  obtain ⟨router, hrouter, -⟩ := boundProject_loads true
  have hload : ProcessorRegistryState.load (boundProject true) =
      .ok ⟨router, (boundProject true).processorScriptsVersion⟩ := by
    rw [ProcessorRegistryState.load, hrouter]
    rfl
  have hrun : (updateProjectOp (some "Two") none).run (boundProject true) =
      .ok ((updateProjectOp (some "Two") none).commit (boundProject true)) :=
    run_eq_commit (by decide +kernel)
  have hreach := (CacheReachable.load (boundProject_lead true) hload).mutate hrun
  have hsame : ((updateProjectOp (some "Two") none).commit (boundProject true)).processorScriptsVersion =
      (boundProject true).processorScriptsVersion := by decide +kernel
  have hrefresh : ProcessorRegistryState.refreshIfNeeded
      ((updateProjectOp (some "Two") none).commit (boundProject true))
      ⟨router, (boundProject true).processorScriptsVersion⟩ =
        .ok (false, ⟨router, (boundProject true).processorScriptsVersion⟩) := if_pos hsame
  refine ⟨_, _, ?_, hrefresh, refreshIfNeeded_coherent hreach (Or.inr ?_) hrefresh⟩
  · exact List.cons_ne_nil _ _
  refine List.forall_mem_singleton.mpr ?_
  rintro existing - - ⟨⟩

/-- **A refresh misses a change**: a project is enabled after the load, and goes on with the default
script instead of its own. -/
theorem not_refreshIfNeeded_coherent : ¬∀ (cache : ProcessorCache) (changed : Bool)
    (registry : ProcessorRegistryState), CacheReachable cache →
      cache.registry.refreshIfNeeded cache.db = .ok (changed, registry) →
      registry.router.Coherent cache.db := by
  intro hclaim
  obtain ⟨router, hrouter, hdefault⟩ := boundProject_loads false
  have hload : ProcessorRegistryState.load (boundProject false) =
      .ok ⟨router, (boundProject false).processorScriptsVersion⟩ := by
    rw [ProcessorRegistryState.load, hrouter]
    rfl
  have hrun : (updateProjectOp none (some true)).run (boundProject false) =
      .ok ((updateProjectOp none (some true)).commit (boundProject false)) :=
    run_eq_commit (by decide +kernel)
  have hsame : ((updateProjectOp none (some true)).commit
      (boundProject false)).processorScriptsVersion =
        (boundProject false).processorScriptsVersion := by decide +kernel
  -- a router that is loaded now has the project's own script
  have hfreshSome : (loadProcessorRouter ((updateProjectOp none (some true)).commit
      (boundProject false))).toOption.map (fun router =>
        (router.processorForProject 1).script.id) = some 2 := by decide +kernel
  obtain ⟨fresh, hfresh, hown⟩ := map_toOption_eq_some.mp hfreshSome
  obtain ⟨project, hproject⟩ : ∃ project, (((updateProjectOp none (some true)).commit
      (boundProject false)).projects.get 1).filter (·.enabled) = some project :=
    Option.isSome_iff_exists.mp (by decide +kernel)
  have hlike := hclaim _ false ⟨router, (boundProject false).processorScriptsVersion⟩
    ((CacheReachable.load (boundProject_lead false) hload).mutate hrun) (if_pos hsame) fresh hfresh 1
    project hproject
  have hid := congrArg RuntimeProcessorScript.id hlike.script
  have hid : 1 = 2 := hdefault.symm.trans (hid.trans hown)
  cases hid

end Sample

end Ingest4x
