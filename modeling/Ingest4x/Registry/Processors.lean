import Ingest4x.Registry.Sinks
import Ingest4x.Repositories.RuntimeScripts

/-! # The registry of processors

`ProcessorRegistryState`: the compiled scripts of the enabled projects, and the default script. Their
load asks for the enabled sinks first, and what is compiled names these sinks; the version that it
checks is that of the scripts.

* **`CompiledScript`** — a processor with the script and the sinks that it was compiled from.
* **`processorSource`**, **`processorInstall`** — `load_processor_router_snapshot` and the end of
  `refresh_if_needed`.
* **`loadProcessorRouter_script`** — a router has the script that each enabled project runs. -/

namespace Ingest4x

open Effect Result Rhai ProcessorRepository

variable [Engine]

/-! ### Compiled scripts -/

/-- `compile_runtime_script`. -/
def compileRuntimeScript (script : RuntimeProcessorScript) (sinkTargets : List String) :
    Except String ProcessorState :=
  ProcessorState.newWithSinkTargets script.entrySource script.resolverModules sinkTargets
    defaultProcessorMaxOperations

/-- **A compiled script.** The source keeps only the processor; what it was compiled from is kept here
beside it. -/
structure CompiledScript where
  script : RuntimeProcessorScript
  sinkTargets : List String
  state : ProcessorState
  compiled : compileRuntimeScript script sinkTargets = .ok state

/-- `compile_runtime_script`, with what it was compiled from. -/
def CompiledScript.compile (script : RuntimeProcessorScript) (sinkTargets : List String) :
    Except String CompiledScript :=
  match h : compileRuntimeScript script sinkTargets with
  | .error error => .error error
  | .ok state => .ok ⟨script, sinkTargets, state, h⟩

theorem CompiledScript.compile_eq_ok {script : RuntimeProcessorScript} {sinkTargets : List String}
    {compiled : CompiledScript} (h : compile script sinkTargets = .ok compiled) :
    compiled.script = script ∧ compiled.sinkTargets = sinkTargets := by
  rw [compile] at h
  split at h
  · cases h
  · cases h
    exact ⟨rfl, rfl⟩

/-- The projects are compiled one after another. -/
def compileProjects (sinkTargets : List String) :
    List (Nat × RuntimeProcessorScript) → Except String (List (Nat × CompiledScript))
  | [] => .ok []
  | (projectId, script) :: scripts =>
    (CompiledScript.compile script sinkTargets).bind fun compiled =>
      (compileProjects sinkTargets scripts).map fun rest => (projectId, compiled) :: rest

/-- What is compiled are the scripts, for the sinks. -/
theorem compileProjects_eq_ok {sinkTargets : List String}
    {scripts : List (Nat × RuntimeProcessorScript)} {compiled : List (Nat × CompiledScript)}
    (h : compileProjects sinkTargets scripts = .ok compiled) :
    compiled.map (fun e => (e.1, e.2.script)) = scripts ∧
      ∀ e ∈ compiled, e.2.sinkTargets = sinkTargets := by
  induction scripts generalizing compiled with
  | nil =>
    cases h
    exact ⟨rfl, nofun⟩
  | cons e scripts ih =>
    obtain ⟨projectId, script⟩ := e
    obtain ⟨first, hfirst, h⟩ := bind_eq_ok.mp h
    obtain ⟨rest, hrest, rfl⟩ := map_eq_ok.mp h
    obtain ⟨hscript, hsinks⟩ := CompiledScript.compile_eq_ok hfirst
    obtain ⟨hscripts, hall⟩ := ih hrest
    refine ⟨?_, List.forall_mem_cons.mpr ⟨hsinks, hall⟩⟩
    rw [List.map_cons, hscripts, hscript]

/-- `ProcessorRouter`. -/
structure ProcessorRouter where
  default : CompiledScript
  projects : SortedTable Nat CompiledScript

/-- `processor_for_project`. -/
def ProcessorRouter.processorForProject (router : ProcessorRouter) (projectId : Nat) :
    CompiledScript :=
  (router.projects.lookup projectId).getD router.default

/-! ### Loading and installing -/

/-- Why a load fails. -/
inductive ProcessorLoadError
  | repository (error : ProcessorRepositoryError)
  | compile (message : String)
  deriving DecidableEq

/-- `default_runtime_script` as queries: the script, then its modules. -/
def defaultRuntimeScriptQuery : Query Database (Except ProcessorLoadError RuntimeProcessorScript) :=
  .op () fun db =>
    match findDefaultProcessorScript db with
    | .error error => .pure (.error (.repository error))
    | .ok (id, script) =>
      Query.read fun db => (runtimeScriptFromModel db id script).mapError .repository

/-- The loop of `list_enabled_runtime_project_processors`: for every binding the project, the script
and its modules. -/
def runtimeProjectProcessorsQuery : List (Nat × ProjectProcessorRow) →
    Query Database (Except ProcessorLoadError (List (Nat × RuntimeProcessorScript)))
  | [] => .pure (.ok [])
  | (_, binding) :: bindings =>
    .op () fun db =>
      match (db.projects.get binding.projectId).filter (·.enabled) with
      | none => runtimeProjectProcessorsQuery bindings
      | some _ =>
        .op () fun db =>
          match activeScript db binding.processorScriptId with
          | none => runtimeProjectProcessorsQuery bindings
          | some script =>
            .op () fun db =>
              match runtimeScriptFromModel db binding.processorScriptId script with
              | .error error => .pure (.error (.repository error))
              | .ok runtimeScript => do
                let rest ← runtimeProjectProcessorsQuery bindings
                .pure (rest.map fun rest => (binding.projectId, runtimeScript) :: rest)

/-- `list_enabled_runtime_project_processors` as queries. -/
def listEnabledRuntimeProjectProcessorsQuery :
    Query Database (Except ProcessorLoadError (List (Nat × RuntimeProcessorScript))) :=
  .op () fun db => runtimeProjectProcessorsQuery (db.projectProcessors.all.filter fun e => e.2.enabled)

/-- What a load has before it compiles the scripts of the projects. -/
structure LoadedProcessors where
  sinkTargets : List String
  default : CompiledScript
  projectScripts : List (Nat × RuntimeProcessorScript)

/-- The queries of `load_processor_router_snapshot` between its two reads of the version. The default
script is compiled before the projects are asked for. -/
def loadProcessorsQuery : Query Database (Except ProcessorLoadError LoadedProcessors) :=
  .op () fun db => do
    let sinkTargets := enabledSinkIds db
    let script ← defaultRuntimeScriptQuery
    match script.bind fun script => (CompiledScript.compile script sinkTargets).mapError .compile with
    | .error error => .pure (.error error)
    | .ok default => do
      let projectScripts ← listEnabledRuntimeProjectProcessorsQuery
      .pure (projectScripts.map fun projectScripts => ⟨sinkTargets, default, projectScripts⟩)

/-- **`load_processor_router_snapshot`.** -/
def processorSource : SnapshotSource Database LoadedProcessors ProcessorLoadError Unit
    ProcessorRouter where
  version := Database.processorScriptsVersion
  load := loadProcessorsQuery
  build loaded := ((compileProjects loaded.sinkTargets loaded.projectScripts).mapError .compile).map
    fun projects _ => ⟨loaded.default, .ofPairs projects⟩

/-- **The end of `refresh_if_needed`.** -/
def processorInstall : List (InstallStep Unit) := [.check, .lock (), .write (), .store]

/-- What a load has of one state of the database. -/
def loadProcessors (db : Database) : Except ProcessorLoadError LoadedProcessors := do
  let script ← (defaultRuntimeScript db).mapError .repository
  let default ← (CompiledScript.compile script (enabledSinkIds db)).mapError .compile
  let projectScripts ← (listEnabledRuntimeProjectProcessors db).mapError .repository
  return ⟨enabledSinkIds db, default, projectScripts⟩

/-- **The router of one state of the database.** -/
def loadProcessorRouter (db : Database) : Except ProcessorLoadError ProcessorRouter := do
  let loaded ← loadProcessors db
  let projects ← (compileProjects loaded.sinkTargets loaded.projectScripts).mapError .compile
  return ⟨loaded.default, .ofPairs projects⟩

omit [Engine] in
theorem run_defaultRuntimeScriptQuery (db : Database) :
    defaultRuntimeScriptQuery.run db = (defaultRuntimeScript db).mapError .repository := by
  rw [defaultRuntimeScriptQuery, Query.run, defaultRuntimeScript]
  cases findDefaultProcessorScript db with
  | error error => rfl
  | ok e => rfl

omit [Engine] in
theorem run_runtimeProjectProcessorsQuery (db : Database)
    (bindings : List (Nat × ProjectProcessorRow)) :
    (runtimeProjectProcessorsQuery bindings).run db =
      (runtimeProjectProcessors db bindings).mapError .repository := by
  induction bindings with
  | nil => rfl
  | cons e bindings ih =>
    obtain ⟨id, binding⟩ := e
    rw [runtimeProjectProcessorsQuery, runtimeProjectProcessors, Query.run]
    cases (db.projects.get binding.projectId).filter (·.enabled) with
    | none => exact ih
    | some project =>
      simp only [Query.run]
      cases activeScript db binding.processorScriptId with
      | none => exact ih
      | some script =>
        simp only [Query.run]
        cases runtimeScriptFromModel db binding.processorScriptId script with
        | error error => rfl
        | ok runtimeScript =>
          simp only [Query.run_bind, ih]
          cases runtimeProjectProcessors db bindings with
          | error error => rfl
          | ok rest => rfl

theorem run_loadProcessorsQuery (db : Database) : loadProcessorsQuery.run db = loadProcessors db := by
  have hlist : listEnabledRuntimeProjectProcessorsQuery.run db =
      (listEnabledRuntimeProjectProcessors db).mapError .repository :=
    run_runtimeProjectProcessorsQuery db _
  rw [loadProcessorsQuery, loadProcessors, Query.run, Query.run_bind, run_defaultRuntimeScriptQuery]
  cases defaultRuntimeScript db with
  | error error => rfl
  | ok script =>
    cases hdefault : CompiledScript.compile script (enabledSinkIds db) with
    | error error => simp only [mapError_ok, mapError_error, Except.bind, bind, hdefault, Query.run]
    | ok default =>
      simp only [mapError_ok, Except.bind, hdefault]
      rw [Query.run_bind, hlist]
      cases listEnabledRuntimeProjectProcessors db with
      | error error => simp only [mapError_ok, mapError_error, Except.bind, bind, hdefault]; rfl
      | ok projectScripts => simp only [mapError_ok, Except.bind, bind, hdefault]; rfl

/-- **The snapshot of a state is its router.** -/
theorem processorSource_of (db : Database) :
    processorSource.of db = (loadProcessorRouter db).map fun router _ => router := by
  rw [SnapshotSource.of, processorSource, run_loadProcessorsQuery, loadProcessorRouter]
  cases loadProcessors db with
  | error error => rfl
  | ok loaded =>
    cases hprojects : compileProjects loaded.sinkTargets loaded.projectScripts with
    | error message => simp [mapError_error, Except.bind, Except.map, bind, hprojects]
    | ok projects => simp [mapError_ok, Except.bind, Except.map, bind, pure, Except.pure, hprojects]

/-! ### What a router has -/

omit [Engine] in
/-- The scripts of the projects, from the bindings that can be used. -/
theorem mem_runtimeProjectProcessors {db : Database} {bindings : List (Nat × ProjectProcessorRow)}
    {scripts : List (Nat × RuntimeProcessorScript)}
    (h : runtimeProjectProcessors db bindings = .ok scripts) {projectId : Nat}
    {script : RuntimeProcessorScript} : (projectId, script) ∈ scripts ↔
      ∃ e ∈ bindings, e.2.projectId = projectId ∧
        (∃ project, (db.projects.get projectId).filter (·.enabled) = some project) ∧
        ∃ row, activeScript db e.2.processorScriptId = some row ∧
          runtimeScriptFromModel db e.2.processorScriptId row = .ok script := by
  induction bindings generalizing scripts with
  | nil =>
    cases h
    simp
  | cons e bindings ih =>
    obtain ⟨id, binding⟩ := e
    rw [runtimeProjectProcessors] at h
    split at h
    · next project row hproject hactive =>
      obtain ⟨runtimeScript, hmodel, h⟩ := bind_eq_ok.mp h
      obtain ⟨rest, hrest, rfl⟩ := map_eq_ok.mp h
      rw [List.mem_cons, ih hrest, List.exists_mem_cons_iff]
      refine or_congr_left ⟨?_, ?_⟩
      · rintro ⟨⟩
        exact ⟨rfl, ⟨project, hproject⟩, row, hactive, hmodel⟩
      · rintro ⟨rfl, -, row', hactive', hmodel'⟩
        rw [hactive] at hactive'
        cases hactive'
        rw [hmodel] at hmodel'
        cases hmodel'
        rfl
    · next hnot =>
      rw [ih h, List.exists_mem_cons_iff, or_iff_right]
      rintro ⟨rfl, ⟨project, hproject⟩, row, hactive, -⟩
      exact hnot project row hproject hactive

omit [Engine] in
/-- A binding that can be used has been loaded. -/
theorem exists_mem_runtimeProjectProcessors {db : Database}
    {bindings : List (Nat × ProjectProcessorRow)} {scripts : List (Nat × RuntimeProcessorScript)}
    (h : runtimeProjectProcessors db bindings = .ok scripts) {e : Nat × ProjectProcessorRow}
    (he : e ∈ bindings) {project : ProjectRow}
    (hproject : (db.projects.get e.2.projectId).filter (·.enabled) = some project)
    {row : ProcessorScriptRow} (hactive : activeScript db e.2.processorScriptId = some row) :
    ∃ script, (e.2.projectId, script) ∈ scripts := by
  induction bindings generalizing scripts with
  | nil => cases he
  | cons e' bindings ih =>
    obtain ⟨id, binding⟩ := e'
    rw [runtimeProjectProcessors] at h
    split at h
    · obtain ⟨runtimeScript, hmodel, h⟩ := bind_eq_ok.mp h
      obtain ⟨rest, hrest, rfl⟩ := map_eq_ok.mp h
      rcases List.mem_cons.mp he with rfl | hmem
      · exact ⟨runtimeScript, List.mem_cons_self ..⟩
      · obtain ⟨script, hscript⟩ := ih hrest hmem
        exact ⟨script, List.mem_cons_of_mem _ hscript⟩
    · next hnot =>
      rcases List.mem_cons.mp he with rfl | hmem
      · exact absurd hactive (hnot project row hproject)
      · exact ih h hmem

omit [Engine] in
/-- A project that was loaded runs the script that was loaded for it. -/
theorem runtimeScriptForProject_of_mem {db : Database}
    {scripts : List (Nat × RuntimeProcessorScript)}
    (h : listEnabledRuntimeProjectProcessors db = .ok scripts) {projectId : Nat}
    {script : RuntimeProcessorScript} (hmem : (projectId, script) ∈ scripts) :
    runtimeScriptForProject db projectId = .ok script := by
  obtain ⟨⟨id, binding⟩, hbinding, rfl, ⟨project, hproject⟩, row, hactive, hmodel⟩ :=
    (mem_runtimeProjectProcessors h).mp hmem
  obtain ⟨hall, henabled⟩ := List.mem_filter.mp hbinding
  have hget := RowTable.mem_all.mp hall
  have henabled' : binding.enabled = true := henabled
  obtain ⟨hprojectGet, -⟩ := Option.filter_eq_some_iff.mp hproject
  simp only [runtimeScriptForProject, hprojectGet]
  cases hfind : db.projectProcessors.find? fun b =>
      b.projectId = binding.projectId ∧ b.enabled = true with
  | none =>
    have hnot := RowTable.find?_eq_none.mp hfind id binding hget
    simp [henabled'] at hnot
  | some found =>
    obtain ⟨id', binding'⟩ := found
    obtain ⟨hget', hp⟩ := RowTable.find?_eq_some hfind
    have hsame : binding'.projectId = binding.projectId := (of_decide_eq_true hp).1
    have heq := db.projectProcessors.unique id' id binding' binding hget' hget
      (by simp [UniqueIndexes.clash, hsame])
    subst heq
    rw [hget] at hget'
    cases hget'
    simp only [hactive, hmodel]

omit [Engine] in
/-- A project that was not loaded runs the default script. -/
theorem runtimeScriptForProject_of_notMem {db : Database}
    {scripts : List (Nat × RuntimeProcessorScript)}
    (h : listEnabledRuntimeProjectProcessors db = .ok scripts) {projectId : Nat} {project : ProjectRow}
    (hproject : (db.projects.get projectId).filter (·.enabled) = some project)
    (hmem : ∀ script, (projectId, script) ∉ scripts) :
    runtimeScriptForProject db projectId = defaultRuntimeScript db := by
  obtain ⟨hprojectGet, -⟩ := Option.filter_eq_some_iff.mp hproject
  simp only [runtimeScriptForProject, hprojectGet]
  cases hfind : db.projectProcessors.find? fun b =>
      b.projectId = projectId ∧ b.enabled = true with
  | none => rfl
  | some found =>
    obtain ⟨id, binding⟩ := found
    obtain ⟨hget, hp⟩ := RowTable.find?_eq_some hfind
    obtain ⟨rfl, henabled⟩ := of_decide_eq_true hp
    cases hactive : activeScript db binding.processorScriptId with
    | none => simp only [hactive]
    | some row =>
      have hbinding : (id, binding) ∈ db.projectProcessors.all.filter fun e => e.2.enabled :=
        List.mem_filter.mpr ⟨RowTable.mem_all.mpr hget, henabled⟩
      obtain ⟨script, hscript⟩ := exists_mem_runtimeProjectProcessors h hbinding hproject hactive
      exact absurd hscript (hmem script)

/-- **A router has the script that each enabled project runs**, compiled for the enabled sinks. -/
theorem loadProcessorRouter_script {db : Database} {router : ProcessorRouter}
    (h : loadProcessorRouter db = .ok router) {projectId : Nat} {project : ProjectRow}
    (hproject : (db.projects.get projectId).filter (·.enabled) = some project) :
    runtimeScriptForProject db projectId = .ok (router.processorForProject projectId).script ∧
      (router.processorForProject projectId).sinkTargets = enabledSinkIds db := by
  simp only [loadProcessorRouter, loadProcessors, bind_eq_ok, mapError_eq_ok, pure_eq_ok] at h
  obtain ⟨_, ⟨script, hscript, default, hdefault, projectScripts, hlist, rfl⟩, projects, hprojects,
    rfl⟩ := h
  have hcompiled := compileProjects_eq_ok hprojects
  simp only at hcompiled
  obtain ⟨hscripts, hsinks⟩ := hcompiled
  obtain ⟨hdefaultScript, hdefaultSinks⟩ := CompiledScript.compile_eq_ok hdefault
  rw [ProcessorRouter.processorForProject]
  cases hlookup : (SortedTable.ofPairs projects).lookup projectId with
  | some compiled =>
    rw [SortedTable.lookup_ofPairs] at hlookup
    obtain ⟨⟨key, _⟩, hlast, rfl⟩ := Option.map_eq_some_iff.mp hlookup
    obtain ⟨hmem, hkey⟩ := List.mem_filter.mp (List.mem_of_getLast? hlast)
    cases of_decide_eq_true hkey
    refine ⟨runtimeScriptForProject_of_mem hlist ?_, hsinks _ hmem⟩
    rw [← hscripts]
    exact List.mem_map_of_mem hmem
  | none =>
    refine ⟨?_, hdefaultSinks⟩
    rw [runtimeScriptForProject_of_notMem hlist hproject, hscript, Option.getD_none, hdefaultScript]
    intro script' hmem
    rw [← hscripts] at hmem
    obtain ⟨⟨key, compiled⟩, hentry, ⟨⟩⟩ := List.mem_map.mp hmem
    rw [SortedTable.lookup_ofPairs, Option.map_eq_none_iff, List.getLast?_eq_none_iff] at hlookup
    exact List.filter_eq_nil_iff.mp hlookup _ hentry (decide_eq_true rfl)

end Ingest4x
