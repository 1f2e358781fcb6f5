import Ingest4x.Registry.Node
import Ingest4x.Repositories.Routing
import Ingest4x.Wal.Reference

/-! # Records that are set aside for the configuration

A script that was compiled for one set of sinks, and a router that has another one, make the replay
set a record aside although every committed state is valid.

* **`ConfigIssue`** — an unknown sink, or a constant that is not defined.
* **`NodeState.Consistent`** — the installed script and the installed sinks fit where the replay reads
  them.
* **`quarantined_not_configIssue`** — in runs whose steps of the replay meet it, no record is set aside
  for the configuration; and they meet it where all registries have one state. -/

namespace Ingest4x

open Effect Result Rhai Wal Sinks ProcessorRepository

/-! ### The condition -/

/-- **An issue of the configuration**: `replay_unknown_sink_target`, or a failure of the script because
a sink constant is not defined. -/
def ConfigIssue (use : ConstantUse) (issue : ReplayIssue) : Prop :=
  issue.code = "replay_unknown_sink_target" ∨
    ∃ error name, issue = .processorRuntimeFailed error ∧ use.undefinedConstant error = some name

/-- An issue with another code, which is not one of the script, is none of the configuration. -/
theorem not_configIssue {use : ConstantUse} {issue : ReplayIssue}
    (hsink : issue.code ≠ "replay_unknown_sink_target")
    (hscript : issue.code ≠ "replay_processor_runtime_failed") : ¬ConfigIssue use issue := by
  rintro (hcode | ⟨error, name, rfl, -⟩)
  · exact hsink hcode
  · exact hscript rfl

section Condition

variable {ι : Type} [Engine]

/-- The constants that a compiled script and its modules refer to. -/
def CompiledScript.constants (use : ConstantUse) (compiled : CompiledScript) : List String :=
  use.scriptConstants compiled.script.entrySource compiled.script.resolverModules

/-- The scope that a script was compiled in. -/
def CompiledScript.scope (compiled : CompiledScript) : Scope :=
  pushSinkTargetConstants compiled.sinkTargets

/-- **The registries fit where the replay reads them**: the constants of the script that a record is
given to were defined when it was compiled, and the installed router has the sinks that they meant. -/
def NodeState.Consistent (use : ConstantUse) (node : NodeState ι) : Prop :=
  match node.replay with
  | .checked record _ =>
    let compiled := node.processorRouter.processorForProject (databaseId record.projectId)
    ∀ name ∈ compiled.constants use, (compiled.scope.resolve name).isSome = true
  | .grouping _ compiled _ => ∀ name ∈ compiled.constants use, ∀ sinkTarget,
      compiled.scope.resolve name = some sinkTarget → node.sinkRouter.containsSink sinkTarget = true
  | _ => True

/-! ### The steps of the replay -/

/-- What holds of the replay: the deliveries of a record are what its constants mean, and its issue is
none of the configuration. -/
def ReplayOk (use : ConstantUse) : ReplayPc → Prop
  | .grouping _ compiled rest => ∀ delivery ∈ rest, ∃ name ∈ compiled.constants use,
      compiled.scope.resolve name = some delivery.target
  | .failing _ issue => ¬ConfigIssue use issue
  | _ => True

theorem checkRecord_ok [JsonCodec] (use : ConstantUse) (projects : Registry ProjectCell ProjectMap ι)
    (record : WalRecord) : ReplayOk use (checkRecord projects record) := by
  rw [checkRecord]
  split
  · exact not_configIssue (by simp [ReplayIssue.invalidJsonBody, ReplayIssue.code])
      (by simp [ReplayIssue.invalidJsonBody, ReplayIssue.code])
  · split
    · trivial
    · exact not_configIssue (by simp [ReplayIssue.unknownProjectId, ReplayIssue.code])
        (by simp [ReplayIssue.unknownProjectId, ReplayIssue.code])

theorem processChecked_ok {use : ConstantUse} (hengine : EmitsByName use) {router : ProcessorRouter}
    {record : WalRecord} {json : Value} (hdefined : ∀ name ∈
      (router.processorForProject (databaseId record.projectId)).constants use,
      ((router.processorForProject (databaseId record.projectId)).scope.resolve name).isSome = true) :
    ReplayOk use (processChecked router record json) := by
  rw [processChecked]
  split
  · next error hprocess =>
    rintro (hcode | ⟨error', name, herror, hundefined⟩)
    · simp [ReplayIssue.processorRuntimeFailed, ReplayIssue.code] at hcode
    · cases herror
      obtain ⟨hname, hnone⟩ := hengine.undefined
        (router.processorForProject (databaseId record.projectId)).compiled hprocess hundefined
      have hsome := hdefined name hname
      rw [CompiledScript.scope, hnone] at hsome
      cases hsome
  · next deliveries hprocess =>
    exact hengine.delivered (router.processorForProject (databaseId record.projectId)).compiled hprocess

theorem groupNext_ok {use : ConstantUse} {router : EventRouter} {record : WalRecord}
    {compiled : CompiledScript} {rest : List ProcessorDelivery}
    (hrest : ReplayOk use (.grouping record compiled rest))
    (hsinks : ∀ name ∈ compiled.constants use, ∀ sinkTarget,
      compiled.scope.resolve name = some sinkTarget → router.containsSink sinkTarget = true) :
    ReplayOk use (groupNext router record compiled rest) := by
  cases rest with
  | nil => trivial
  | cons delivery rest =>
    obtain ⟨⟨name, hname, hresolve⟩, htail⟩ := List.forall_mem_cons.mp hrest
    rw [groupNext]
    split
    · exact not_configIssue (by simp [ReplayIssue.emptySinkTarget, ReplayIssue.code])
        (by simp [ReplayIssue.emptySinkTarget, ReplayIssue.code])
    · rw [if_pos (hsinks name hname _ hresolve)]
      exact htail

/-- **What holds of a node** whose replay met the condition. -/
structure NodeOk (use : ConstantUse) (node : NodeState ι) : Prop where
  replay : ReplayOk use node.replay
  quarantined : ∀ e ∈ node.quarantined, ¬ConfigIssue use e.2

/-- **A step of the replay that meets the condition** sets nothing aside for the configuration. -/
theorem NodeOk.replayStep [JsonCodec] {use : ConstantUse} (hengine : EmitsByName use)
    {node node' : NodeState ι} (hok : NodeOk use node) (hconsistent : node.Consistent use)
    (hstep : ReplayStep node node') : NodeOk use node' := by
  obtain ⟨hreplay, hquarantined⟩ := hok
  rw [NodeState.Consistent] at hconsistent
  cases hstep with
  | call => exact ⟨trivial, hquarantined⟩
  | check => exact ⟨checkRecord_ok use _ _, hquarantined⟩
  | process hchecked =>
    rw [hchecked] at hconsistent
    exact ⟨processChecked_ok hengine hconsistent, hquarantined⟩
  | group hgrouping =>
    rw [hgrouping] at hconsistent hreplay
    exact ⟨groupNext_ok hreplay hconsistent, hquarantined⟩
  | quarantine hfailing =>
    rw [hfailing] at hreplay
    exact ⟨trivial, List.forall_mem_cons.mpr ⟨hreplay, hquarantined⟩⟩
  | stop => exact ⟨trivial, hquarantined⟩
  | finish => exact ⟨trivial, hquarantined⟩

section Runs

variable [SinkBackends] [SerdeText] [DurationCodec] [DecidableEq ι]

/-- A step of the configuration leaves the replay as it is. -/
theorem ConfigStep.replay_eq {use : ConstantUse} {node node' : NodeState ι}
    (hstep : ConfigStep use node node') :
    node'.replay = node.replay ∧ node'.quarantined = node.quarantined := by
  cases hstep with
  | commit => exact ⟨rfl, rfl⟩
  | projects => exact ⟨rfl, rfl⟩
  | sinks => exact ⟨rfl, rfl⟩
  | processors => exact ⟨rfl, rfl⟩

variable [JsonCodec]

/-- **A run whose steps of the replay meet the condition** sets nothing aside for the configuration. -/
theorem NodeReachable.ok {use : ConstantUse} (hengine : EmitsByName use) {node : NodeState ι}
    (h : NodeReachable use (NodeState.Consistent use) node) : NodeOk use node := by
  induction h with
  | start => exact ⟨trivial, nofun⟩
  | config _ hstep ih =>
    obtain ⟨hreplay, hquarantined⟩ := hstep.replay_eq
    exact ⟨hreplay ▸ ih.replay, hquarantined ▸ ih.quarantined⟩
  | replay _ hconsistent hstep ih => exact ih.replayStep hengine hconsistent hstep

/-! ### Registries with one state -/

omit [DecidableEq ι] [JsonCodec] in
/-- All committed states are valid. -/
theorem Committed.valid {use : ConstantUse} {h : History Database} (hcommitted : Committed use h) :
    ∀ db ∈ h.states, ConfigValid use db := by
  induction hcommitted with
  | start hvalid => exact List.forall_mem_singleton.mpr hvalid
  | commit _ _ hvalid ih => exact List.forall_mem_cons.mpr ⟨hvalid, ih⟩

/-- The committed states of a run. -/
theorem NodeReachable.committed {use : ConstantUse} {condition : NodeState ι → Prop}
    {node : NodeState ι} (h : NodeReachable use condition node) : Committed use node.history := by
  induction h with
  | start hcommitted => exact hcommitted
  | config _ hstep ih =>
    cases hstep with
    | commit hrun hvalid => exact ih.commit hrun hvalid
    | projects => exact ih
    | sinks => exact ih
    | processors => exact ih
  | replay _ _ hstep ih => cases hstep <;> exact ih

/-- **The registries have one state of the database**, and can be read. -/
structure NodeState.Installed (node : NodeState ι) (db : Database) : Prop where
  projects : ProjectsInstalled db.projectsView node.projects.registry
  projectsFree : node.projects.registry.held .byToken = false
  sinks : SinksInstalled db.sinksView node.sinks.registry
  sinksFree : node.sinks.registry.held () = false
  processors : loadProcessorRouter db = .ok node.processorRouter

/-- A record that was given to the script of its project in a state. -/
def ReplayPc.OfState (db : Database) (router : ProcessorRouter) : ReplayPc → Prop
  | .checked record _ => ∃ project,
      (db.projects.get (databaseId record.projectId)).filter (·.enabled) = some project
  | .grouping record compiled _ => (∃ project,
      (db.projects.get (databaseId record.projectId)).filter (·.enabled) = some project) ∧
      compiled = router.processorForProject (databaseId record.projectId)
  | _ => True

omit [Engine] [SinkBackends] [SerdeText] [DurationCodec] [DecidableEq ι] [JsonCodec] in
/-- The projects that are found are those that are enabled. -/
theorem containsRecordProject_iff {db : Database} {projects : Registry ProjectCell ProjectMap ι}
    (hprojects : ProjectsInstalled db.projectsView projects) (hfree : projects.held .byToken = false)
    {projectId : Int32} : containsRecordProject projects projectId = true ↔ 0 ≤ projectId.toInt ∧
      ∃ project, (db.projects.get (databaseId projectId)).filter (·.enabled) = some project := by
  rw [containsRecordProject, Bool.and_eq_true_iff, decide_eq_true_iff, hprojects.byId hfree]
  exact and_congr_right' (exists_congr fun row => Option.filter_eq_some_iff.symm)

omit [DecidableEq ι] in
/-- **Steps of the replay alone** keep to the state that the registries have. -/
theorem ReplayStep.ofState {db : Database} {node node' : NodeState ι} (hinstalled : node.Installed db)
    (hpc : node.replay.OfState db node.processorRouter) (hstep : ReplayStep node node') :
    node'.Installed db ∧ node'.replay.OfState db node'.processorRouter := by
  have hsame : ∀ pc quarantined, NodeState.Installed
      { node with replay := pc, quarantined := quarantined } db :=
    fun _ _ => ⟨hinstalled.projects, hinstalled.projectsFree, hinstalled.sinks, hinstalled.sinksFree,
      hinstalled.processors⟩
  refine ⟨?_, ?_⟩
  · cases hstep <;> exact hsame _ _
  · cases hstep with
    | call => trivial
    | @check record =>
      show ReplayPc.OfState db _ (checkRecord node.projects.registry record)
      rw [checkRecord]
      split
      · trivial
      · split
        · next hcontains =>
          exact ((containsRecordProject_iff hinstalled.projects hinstalled.projectsFree).mp hcontains).2
        · trivial
    | @process record json hchecked =>
      show ReplayPc.OfState db node.processorRouter (processChecked node.processorRouter record json)
      rw [hchecked] at hpc
      rw [processChecked]
      split
      · trivial
      · exact ⟨hpc, rfl⟩
    | @group record compiled rest hgrouping =>
      show ReplayPc.OfState db node.processorRouter (groupNext node.sinkRouter record compiled rest)
      rw [hgrouping] at hpc
      cases rest with
      | nil => trivial
      | cons delivery rest =>
        rw [groupNext]
        split
        · trivial
        · split
          · exact hpc
          · trivial
    | quarantine => trivial
    | stop => trivial
    | finish => trivial

omit [DecidableEq ι] [JsonCodec] in
/-- **Registries that have one valid state** fit. -/
theorem consistent_of_installed {use : ConstantUse} {db : Database} (hvalid : ConfigValid use db)
    {node : NodeState ι} (hinstalled : node.Installed db)
    (hpc : node.replay.OfState db node.processorRouter) : node.Consistent use := by
  have hscript : ∀ {projectId : Nat} {project : ProjectRow},
      (db.projects.get projectId).filter (·.enabled) = some project →
      ∀ name ∈ (node.processorRouter.processorForProject projectId).constants use,
        ∃ sinkId, (node.processorRouter.processorForProject projectId).scope.resolve name =
          some sinkId ∧ node.sinkRouter.containsSink sinkId = true := by
    intro projectId project hproject name hname
    obtain ⟨hrun, hsinks⟩ := loadProcessorRouter_script hinstalled.processors hproject
    obtain ⟨hget, henabled⟩ := Option.filter_eq_some_iff.mp hproject
    obtain ⟨sinkId, hmem, hresolve⟩ := hvalid (projectId, project) (RowTable.mem_all.mpr hget) henabled
      (node.processorRouter.processorForProject projectId).script (by rw [hrun]; rfl) name hname
    refine ⟨sinkId, ?_, ?_⟩
    · rw [CompiledScript.scope, hsinks, hresolve]
    · exact (hinstalled.sinks.sinks hinstalled.sinksFree sinkId).mpr (mem_deliverableSinkIds.mp hmem)
  rw [NodeState.Consistent]
  cases hreplay : node.replay with
  | checked record json =>
    rw [hreplay] at hpc
    obtain ⟨project, hproject⟩ := hpc
    intro name hname
    obtain ⟨sinkId, hresolve, -⟩ := hscript hproject name hname
    exact Option.isSome_of_eq_some hresolve
  | grouping record compiled rest =>
    rw [hreplay] at hpc
    obtain ⟨⟨project, hproject⟩, rfl⟩ := hpc
    intro name hname sinkTarget hresolve
    obtain ⟨sinkId, hresolve', hcontains⟩ := hscript hproject name hname
    rw [hresolve] at hresolve'
    cases hresolve'
    exact hcontains
  | idle => trivial
  | running => trivial
  | failing record issue => trivial

/-- **No record is set aside for the configuration** in a run whose steps of the replay meet the
condition; and they all meet it in calls during which the registries have one committed state. -/
theorem quarantined_not_configIssue {use : ConstantUse} (hengine : EmitsByName use)
    {node : NodeState ι} (h : NodeReachable use (NodeState.Consistent use) node) :
    (∀ e ∈ node.quarantined, ¬ConfigIssue use e.2) ∧
      ∀ db ∈ node.history.states, node.Installed db → (node.replay = .idle ∨ node.replay = .running) →
        ∀ node', Relation.ReflTransGen ReplayStep node node' → node'.Consistent use := by
  refine ⟨(h.ok hengine).quarantined, fun db hdb hinstalled hreplay node' hsteps => ?_⟩
  have hvalid := h.committed.valid db hdb
  have hpc : node.replay.OfState db node.processorRouter := by
    rcases hreplay with hidle | hrunning
    · rw [hidle]
      trivial
    · rw [hrunning]
      trivial
  suffices hkept : node'.Installed db ∧ node'.replay.OfState db node'.processorRouter from
    consistent_of_installed hvalid hkept.1 hkept.2
  induction hsteps with
  | refl => exact ⟨hinstalled, hpc⟩
  | tail _ hstep ih => exact ReplayStep.ofState ih.1 ih.2 hstep

/-! ### Runs with nothing in between -/

/-- A node that was loaded from one state. -/
def NodeState.loadedFrom (db : Database) (sinks : EventRouter) (processors : ProcessorRouter) :
    NodeState ι where
  history := ⟨db, []⟩
  projects := .loaded (fun
    | .byToken => .ofPairs (db.projectsView.listEnabledProjects.map fun project =>
      (project.2.ingestToken, project))
    | .byKey => .ofPairs (db.projectsView.listEnabledProjects.map fun project =>
      (project.2.projectKey, project))) db.projectsVersion
  sinks := .loaded (fun _ => sinks) db.eventSinksVersion
  processors := .loaded (fun _ => processors) db.processorScriptsVersion
  replay := .idle
  quarantined := []

/-- **A node that is loaded with no commit in between** has one state. -/
theorem NodeReachable.loadedFrom {use : ConstantUse} {condition : NodeState ι → Prop} {db : Database}
    (hvalid : ConfigValid use db) {sinks : EventRouter}
    (hsinks : loadRouter db.sinksView.database = .ok sinks) {processors : ProcessorRouter}
    (hprocessors : loadProcessorRouter db = .ok processors) :
    NodeReachable use condition (NodeState.loadedFrom (ι := ι) db sinks processors) ∧
      (NodeState.loadedFrom (ι := ι) db sinks processors).Installed db := by
  have hsinksOf : sinkSource.of db.sinksView = .ok fun _ => sinks := by
    rw [sinkSource_of, hsinks]
    rfl
  have hprocessorsOf : processorSource.of db = .ok fun _ => processors := by
    rw [processorSource_of, hprocessors]
    rfl
  refine ⟨.start (.start hvalid) (.alone (h := ⟨db, []⟩) rfl) (.alone (h := ⟨db, []⟩) hsinksOf)
    (.alone (h := ⟨db, []⟩) hprocessorsOf), ?_, rfl, ?_, rfl, hprocessors⟩
  · exact projectsInstalled_of_snapshot rfl rfl fun _ _ => rfl
  · exact sinksInstalled_of_snapshot hsinksOf rfl fun _ _ => rfl

/-- The steps of refreshes of the processors are steps of the node. -/
theorem NodeReachable.processorSteps {use : ConstantUse} {condition : NodeState ι → Prop}
    {node : NodeState ι} (h : NodeReachable use condition node)
    {processors : Refreshed Database LoadedProcessors ProcessorLoadError Unit ProcessorRouter ι}
    (hsteps : Relation.ReflTransGen (Refreshed.Step processorSource processorInstall
      node.history.current) node.processors processors) :
    NodeReachable use condition { node with processors := processors } := by
  induction hsteps with
  | refl => exact h
  | tail _ hstep ih => exact ih.config (.processors hstep)

/-- A refresh of the processors alone installs the router of the current state. -/
theorem NodeReachable.refreshProcessors {use : ConstantUse} {condition : NodeState ι → Prop}
    {node : NodeState ι} (h : NodeReachable use condition node) {i : ι}
    (hresting : (node.processors.refreshes i).resting = true)
    (hfree : node.processors.registry.refreshLock = none)
    (hheld : node.processors.registry.held = fun _ => false)
    (hnewer : node.processors.registry.version < node.history.current.processorScriptsVersion)
    {router : ProcessorRouter} (hrouter : loadProcessorRouter node.history.current = .ok router) :
    ∃ processors : Refreshed Database LoadedProcessors ProcessorLoadError Unit ProcessorRouter ι,
      NodeReachable use condition { node with processors := processors } ∧
      processors.registry.cells () = router ∧ processors.registry.held () = false := by
  have hof : processorSource.of node.history.current = .ok fun _ => router := by
    rw [processorSource_of, hrouter]
    rfl
  obtain ⟨reg, hrun, hcells⟩ : ∃ reg, InstallStep.runAll (fun _ => router)
      node.history.current.processorScriptsVersion processorInstall
      { node.processors.registry with refreshLock := some i } = some reg ∧ reg.cells () = router := by
    simp [processorInstall, InstallStep.runAll, InstallStep.run, hnewer, hheld]
  have hsteps := Refreshed.alone hresting hfree (Nat.ne_of_gt hnewer) hof hrun
  exact ⟨_, h.processorSteps hsteps, hcells, rfl⟩

/-- **A script that is newer than the sinks**: where the current default of a project emits to a sink
that the installed router does not have, a refresh of the processors alone makes the replay set the
record aside. -/
theorem NodeReachable.setsAside {use : ConstantUse} {node : NodeState ι}
    (h : NodeReachable use (fun _ => True) node) (hidle : node.replay = .idle) {i : ι}
    (hresting : (node.processors.refreshes i).resting = true)
    (hfree : node.processors.registry.refreshLock = none)
    (hheld : node.processors.registry.held = fun _ => false)
    (hnewer : node.processors.registry.version < node.history.current.processorScriptsVersion)
    {router : ProcessorRouter} (hrouter : loadProcessorRouter node.history.current = .ok router)
    (hsinksFree : node.sinks.registry.held () = false) (hsinks : node.sinkRouter.sinks.keys ≠ [])
    (hprojectsFree : node.projects.registry.held .byToken = false) (record : WalRecord) {json : Value}
    (hjson : JsonCodec.fromSlice record.payload = .ok json)
    (hproject : containsRecordProject node.projects.registry record.projectId = true)
    {delivery : ProcessorDelivery} {rest : List ProcessorDelivery}
    (hprocess : (router.processorForProject (databaseId record.projectId)).state.process json
      (requestContext record) = .ok (delivery :: rest))
    (htarget : Text.trim delivery.target ≠ "")
    (hunknown : node.sinkRouter.containsSink delivery.target = false) :
    ∃ node' : NodeState ι, NodeReachable use (fun _ => True) node' ∧
      (record, .unknownSinkTarget delivery.target) ∈ node'.quarantined := by
  obtain ⟨processors, hrefreshed, hcells, hprocessorsFree⟩ :=
    h.refreshProcessors hresting hfree hheld hnewer hrouter
  have hcalled := hrefreshed.replay trivial (.call hidle hsinksFree hsinks)
  have hcheck : ReplayStep { node with processors := processors, replay := .running }
      { node with
        processors := processors
        replay := checkRecord node.projects.registry record } := .check rfl hprojectsFree
  have hchecked := hcalled.replay trivial hcheck
  simp only [checkRecord, hjson, if_pos hproject] at hchecked
  have hprocessed := hchecked.replay trivial (.process rfl hprocessorsFree)
  simp only [processChecked, NodeState.processorRouter, hcells, hprocess] at hprocessed
  have hgrouped := hprocessed.replay trivial (.group rfl fun _ _ _ => hsinksFree)
  have hunknown' : (node.sinks.registry.cells ()).containsSink delivery.target = false := hunknown
  simp only [groupNext, NodeState.sinkRouter, if_neg htarget, hunknown', Bool.false_eq_true,
    if_false] at hgrouped
  exact ⟨_, hgrouped.replay trivial (.quarantine rfl rfl), List.mem_cons_self ..⟩

end Runs

end Condition

/-! ### A script that is newer than the sinks -/

/-- A script engine with one script that emits, which is `emit`. -/
@[reducible] def nodeEngine : Engine where
  Module := Unit
  Ast := Scope × String
  emitCalls source := if source = "emit" then .ok [⟨.variable_ "SINK_S", "1:1"⟩] else .ok []
  compileWithScope scope source := .ok (scope, source)
  evalAstAsNew _ _ _ := .ok ()
  compileIntoSelfContained scope _ source := .ok (scope, source)
  callProcess _ _ ast event _ :=
    if ast.2 = "emit" then
      match ast.1.resolve "SINK_S" with
      | some target => .ok [⟨target, event⟩]
      | none => .error "Variable not found: SINK_S"
    else .ok []

/-- How the scripts of this engine use the constants. -/
def nodeUse : ConstantUse where
  constants source := if source = "emit" then ["SINK_S"] else []
  undefinedConstant error := if error = "Variable not found: SINK_S" then some "SINK_S" else none

/-- What a script does that this engine compiled. -/
theorem nodeEngine_process {script : String} {modules : List (String × String)} {scope : Scope}
    {maxOperations : Nat} {state : @ProcessorState nodeEngine}
    (h : @compileScript nodeEngine script modules scope maxOperations = .ok state) (event : Value)
    (request : ProcessorRequestContext) : @ProcessorState.process nodeEngine state event request =
      if script = "emit" then
        match scope.resolve "SINK_S" with
        | some target => .ok [⟨target, event⟩]
        | none => .error "Variable not found: SINK_S"
      else .ok [] := by
  unfold compileScript at h
  split at h
  · cases h
  · cases h
    rfl

theorem nodeEngine_emitsByName : @EmitsByName nodeEngine nodeUse := by
  have hconstants : ∀ {script : String} {modules : List (String × String)}, script = "emit" →
      "SINK_S" ∈ nodeUse.scriptConstants script modules := by
    rintro script modules rfl
    exact List.mem_append_left _ (List.mem_singleton_self _)
  refine @EmitsByName.mk nodeEngine nodeUse ?_ ?_
  · intro script modules scope maxOperations state event request deliveries hcompile hprocess
    rw [nodeEngine_process hcompile] at hprocess
    split at hprocess
    · next hscript =>
      refine fun delivery hdelivery => ⟨"SINK_S", hconstants hscript, ?_⟩
      split at hprocess
      · next target htarget =>
        cases hprocess
        rw [List.mem_singleton.mp hdelivery]
        exact htarget
      · cases hprocess
    · cases hprocess
      exact nofun
  · intro script modules scope maxOperations state event request error name hcompile hprocess hname
    rw [nodeEngine_process hcompile] at hprocess
    split at hprocess
    · next hscript =>
      split at hprocess
      · cases hprocess
      · next hnone =>
        cases hprocess
        cases hname
        exact ⟨hconstants hscript, hnone⟩
    · cases hprocess

/-- The database after operations. -/
def nodeDatabase (db : Database) (ops : List AdminOp) : Database :=
  ops.foldl (@AdminOp.commit nodeEngine acceptingBackends typeNameText secondsCodec) db

/-- A target with a sink, a project, and a default script that emits nothing. -/
def nodeStart : Database :=
  nodeDatabase .migrated [createOutOp, createSinkOp "a",
    .project (.createProjectWithIngestSettings "k" ⟨"One", true, "igx_one_token"⟩ .unchanged),
    .processor (.createScript ⟨"default", "Default", "main", .active, [⟨"main", "none"⟩]⟩)]

/-- A sink is created. -/
def nodeSink : Database := nodeDatabase nodeStart [createSinkOp "s"]

/-- The default script emits to it. -/
def nodeEmits : Database :=
  nodeDatabase nodeSink [.processor (.updateScript 1 ⟨"Default", "main", .active, [⟨"main", "emit"⟩]⟩)]

/-- The three states are valid, and the third one has another version of the scripts. -/
theorem nodeEmits_valid : ConfigValid nodeUse nodeStart ∧ ConfigValid nodeUse nodeSink ∧
    ConfigValid nodeUse nodeEmits ∧
    nodeStart.processorScriptsVersion < nodeEmits.processorScriptsVersion := by
  decide +kernel

/-- The first state can be loaded, with one sink. -/
theorem nodeStart_loads : ∃ sinks processors,
    @loadRouter acceptingBackends typeNameText secondsCodec nodeStart.sinksView.database = .ok sinks ∧
      @loadProcessorRouter nodeEngine nodeStart = .ok processors ∧ sinks.sinks.keys ≠ [] ∧
      sinks.containsSink "s" = false := by
  have hsinks : (@loadRouter acceptingBackends typeNameText secondsCodec
      nodeStart.sinksView.database).toOption.map (fun sinks =>
        (sinks.sinks.keys, sinks.containsSink "s")) = some (["a"], false) := by
    decide +kernel
  have hprocessors : (@loadProcessorRouter nodeEngine nodeStart).toOption.isSome = true := by
    decide +kernel
  obtain ⟨sinks, hsinks, hkeys⟩ := map_toOption_eq_some.mp hsinks
  obtain ⟨processors, hprocessors⟩ := isSome_toOption.mp hprocessors
  obtain ⟨hkeys, hunknown⟩ := Prod.mk.inj hkeys
  exact ⟨sinks, processors, hsinks, hprocessors, by simp [hkeys], hunknown⟩

/-- The script of the third state emits to the new sink. -/
theorem nodeEmits_loads : ∃ processors, @loadProcessorRouter nodeEngine nodeEmits = .ok processors ∧
    ∀ event request, @ProcessorState.process nodeEngine (@CompiledScript.state nodeEngine
      (@ProcessorRouter.processorForProject nodeEngine processors 1)) event request =
        .ok [⟨"s", event⟩] := by
  have hprocessors : (@loadProcessorRouter nodeEngine nodeEmits).toOption.isSome = true := by
    decide +kernel
  have hscript : (runtimeScriptForProject nodeEmits 1).toOption.map (fun script =>
      (script.entrySource, (pushSinkTargetConstants (enabledSinkIds nodeEmits)).resolve "SINK_S")) =
        some ("emit", some "s") := by
    decide +kernel
  have hproject : ((nodeEmits.projects.get 1).filter (·.enabled)).isSome = true := by decide +kernel
  obtain ⟨processors, hprocessors⟩ := isSome_toOption.mp hprocessors
  obtain ⟨project, hproject⟩ := Option.isSome_iff_exists.mp hproject
  obtain ⟨script, hscript, heq⟩ := map_toOption_eq_some.mp hscript
  obtain ⟨hemit, hresolve⟩ := Prod.mk.inj heq
  obtain ⟨hrun, hsinks⟩ := @loadProcessorRouter_script nodeEngine _ _ hprocessors _ _ hproject
  rw [hscript] at hrun
  cases hrun
  refine ⟨processors, hprocessors, fun event request => ?_⟩
  have hcompiled := @CompiledScript.compiled nodeEngine
    (@ProcessorRouter.processorForProject nodeEngine processors 1)
  rw [nodeEngine_process hcompiled, if_pos hemit, hsinks, hresolve]

/-- An operation that succeeds commits what it makes. -/
theorem run_eq_commit [Engine] [SinkBackends] [SerdeText] [DurationCodec] {db : Database} {op : AdminOp}
    (h : (op.run db).toOption.isSome = true) : op.run db = .ok (op.commit db) := by
  obtain ⟨db', hrun⟩ := isSome_toOption.mp h
  rw [AdminOp.commit, hrun]

/-- The runs of a node with this engine. -/
abbrev SampleReachable : (@NodeState nodeEngine Unit → Prop) → @NodeState nodeEngine Unit → Prop :=
  @NodeReachable Unit nodeEngine acceptingBackends typeNameText secondsCodec _ referenceJsonCodec
    nodeUse

/-- **A valid configuration sets a record aside**: a sink is created, a script is saved that emits to it,
and the node refreshes its processors before its sinks. -/
theorem quarantined_configIssue : @EmitsByName nodeEngine nodeUse ∧
    ¬∀ node, SampleReachable (fun _ => True) node →
      ∀ e ∈ @NodeState.quarantined nodeEngine Unit node, ¬ConfigIssue nodeUse e.2 := by
  refine ⟨nodeEngine_emitsByName, fun hall => ?_⟩
  let _ : Engine := nodeEngine
  let _ : SinkBackends := acceptingBackends
  let _ : SerdeText := typeNameText
  let _ : DurationCodec := secondsCodec
  let _ : JsonCodec := referenceJsonCodec
  obtain ⟨sinks, processors, hsinks, hprocessors, hkeys, hunknown⟩ := nodeStart_loads
  obtain ⟨processors', hprocessors', hprocess⟩ := nodeEmits_loads
  obtain ⟨hvalid, hvalidSink, hvalidEmits, hnewer⟩ := nodeEmits_valid
  have hstart : SampleReachable (fun _ => True) (.loadedFrom nodeStart sinks processors) ∧
      (NodeState.loadedFrom nodeStart sinks processors).Installed nodeStart :=
    NodeReachable.loadedFrom hvalid hsinks hprocessors
  obtain ⟨hloaded, hinstalled⟩ := hstart
  have hproject : ∃ project, (nodeStart.projects.get 1).filter (·.enabled) = some project :=
    Option.isSome_iff_exists.mp (by decide +kernel)
  have hcontains := (containsRecordProject_iff hinstalled.projects rfl).mpr
    ⟨(by decide : (0 : Int) ≤ (sampleRecord "r").projectId.toInt), hproject⟩
  have hsink : (createSinkOp "s").run nodeStart = .ok nodeSink := run_eq_commit (by decide +kernel)
  have hemits : AdminOp.run nodeSink (.processor (.updateScript 1
      ⟨"Default", "main", .active, [⟨"main", "emit"⟩]⟩)) = .ok nodeEmits :=
    run_eq_commit (by decide +kernel)
  have hcommitted := (hloaded.config (.commit hsink hvalidSink)).config (.commit hemits hvalidEmits)
  have hjson : JsonCodec.fromSlice (sampleRecord "r").payload = .ok (.object []) := rfl
  obtain ⟨node, hnode, hmem⟩ := @NodeReachable.setsAside _ _ _ _ _ _ _ _ _ hcommitted rfl () rfl rfl rfl
    hnewer _ hprocessors' rfl hkeys rfl _ _ hjson hcontains _ _ (hprocess _ _) (by decide +kernel) hunknown
  exact hall node hnode _ hmem (Or.inl rfl)

/-- A node that is loaded from the third state gives the record to the script, and delivers it. -/
theorem quarantined_not_configIssue_sample : ∃ node, SampleReachable
    (@NodeState.Consistent Unit nodeEngine nodeUse) node ∧
    (∃ compiled, @NodeState.replay nodeEngine Unit node = @ReplayPc.grouping nodeEngine
      (sampleRecord "r") compiled [⟨"s", .object []⟩]) ∧
    ∀ e ∈ @NodeState.quarantined nodeEngine Unit node, ¬ConfigIssue nodeUse e.2 := by
  let _ : Engine := nodeEngine
  let _ : SinkBackends := acceptingBackends
  let _ : SerdeText := typeNameText
  let _ : DurationCodec := secondsCodec
  let _ : JsonCodec := referenceJsonCodec
  have hsinksSome : (loadRouter nodeEmits.sinksView.database).toOption.map (fun sinks =>
      sinks.sinks.keys) = some ["a", "s"] := by
    decide +kernel
  obtain ⟨sinks, hsinks, hkeys⟩ := map_toOption_eq_some.mp hsinksSome
  obtain ⟨processors, hprocessors, hprocess⟩ := nodeEmits_loads
  let node₀ : NodeState Unit := .loadedFrom nodeEmits sinks processors
  have hloaded : SampleReachable (NodeState.Consistent nodeUse) node₀ ∧ node₀.Installed nodeEmits :=
    NodeReachable.loadedFrom nodeEmits_valid.2.2.1 hsinks hprocessors
  obtain ⟨hstart, hinstalled⟩ := hloaded
  have hproject : ∃ project, (nodeEmits.projects.get 1).filter (·.enabled) = some project :=
    Option.isSome_iff_exists.mp (by decide +kernel)
  have hcontains := (containsRecordProject_iff hinstalled.projects rfl).mpr
    ⟨(by decide : (0 : Int) ≤ (sampleRecord "r").projectId.toInt), hproject⟩
  have hjson : JsonCodec.fromSlice (sampleRecord "r").payload = .ok (.object []) := rfl
  have hcall : ReplayStep node₀ { node₀ with replay := .running } :=
    .call rfl rfl (by simp [NodeState.sinkRouter, node₀, NodeState.loadedFrom, Refreshed.loaded, hkeys])
  have hcheck : ReplayStep { node₀ with replay := .running }
      { node₀ with replay := checkRecord node₀.projects.registry (sampleRecord "r") } := .check rfl rfl
  simp only [checkRecord, hjson, if_pos hcontains] at hcheck
  -- The condition is met where the script is run, as the registries have one state.
  have hall := (quarantined_not_configIssue nodeEngine_emitsByName hstart).2 nodeEmits
    (List.mem_singleton_self _) hinstalled (Or.inl rfl)
  have hchecked := (hstart.replay trivial hcall).replay trivial hcheck
  have hprocessed := hchecked.replay (hall _ (.head hcall (.single hcheck))) (.process rfl rfl)
  refine ⟨_, hprocessed, ⟨processors.processorForProject 1, ?_⟩,
    (quarantined_not_configIssue nodeEngine_emitsByName hprocessed).1⟩
  have hscript : (processors.processorForProject (databaseId (sampleRecord "r").projectId)).state.process
      (.object []) (requestContext (sampleRecord "r")) = .ok [⟨"s", .object []⟩] := hprocess _ _
  show processChecked processors (sampleRecord "r") (.object []) = _
  simp only [processChecked, hscript]
  rfl

end Ingest4x
