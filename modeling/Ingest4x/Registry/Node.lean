import Ingest4x.Effect.Refresh
import Ingest4x.Registry.Processors
import Ingest4x.Rhai.Constants

/-! # A node and its configuration

The three registries of a node, which are refreshed one by one while the administration commits, and
the replay, which asks each of them where it needs it: the projects and the processors for every
record, and the sinks for every delivery.

* **`ConfigStep`** — a commit, or a step of a refresh; **`ReplayStep`** — a step of the replay.
* **`NodeReachable`** — the runs in which every committed state is valid.
* **`ReplayStep.record`** — with nothing in between, the steps of a record are `process_record` and
  `group_deliveries_by_sink`. -/

namespace Ingest4x

open Effect Result Rhai Wal Sinks ProcessorRepository

/-! ### Valid states -/

/-- The sinks that are enabled with their targets. -/
def deliverableSinkIds (db : Database) : List String :=
  (db.eventSinks.all.filter fun e =>
    e.2.enabled && (db.deliveryTargets.get e.2.deliveryTargetId).any (·.enabled)).map fun e => e.2.sinkId

/-- The constants of a script mean sinks that events can be delivered to. -/
def EmitsToEnabled (use : ConstantUse) (db : Database) (script : RuntimeProcessorScript) : Prop :=
  ∀ name ∈ use.scriptConstants script.entrySource script.resolverModules,
    ∃ sinkId ∈ deliverableSinkIds db,
      (pushSinkTargetConstants (enabledSinkIds db)).resolve name = some sinkId

/-- **A valid state**: each enabled project's script emits only to sinks that are enabled in it. -/
def ConfigValid (use : ConstantUse) (db : Database) : Prop :=
  ∀ e ∈ db.projects.all, e.2.enabled = true →
    ∀ script ∈ (runtimeScriptForProject db e.1).toOption, EmitsToEnabled use db script

instance (use : ConstantUse) (db : Database) (script : RuntimeProcessorScript) :
    Decidable (EmitsToEnabled use db script) :=
  inferInstanceAs (Decidable (∀ name ∈ use.scriptConstants script.entrySource script.resolverModules,
    ∃ sinkId ∈ deliverableSinkIds db,
      (pushSinkTargetConstants (enabledSinkIds db)).resolve name = some sinkId))

instance (use : ConstantUse) (db : Database) : Decidable (ConfigValid use db) :=
  inferInstanceAs (Decidable (∀ e ∈ db.projects.all, e.2.enabled = true →
    ∀ script ∈ (runtimeScriptForProject db e.1).toOption, EmitsToEnabled use db script))

theorem mem_deliverableSinkIds {db : Database} {sinkId : String} :
    sinkId ∈ deliverableSinkIds db ↔ db.sinksView.Enabled sinkId := by
  rw [deliverableSinkIds, List.mem_map]
  constructor
  · rintro ⟨⟨id, row⟩, hmem, rfl⟩
    obtain ⟨hall, hp⟩ := List.mem_filter.mp hmem
    obtain ⟨henabled, htarget⟩ := Bool.and_eq_true_iff.mp hp
    obtain ⟨target, hget, htargetEnabled⟩ := Option.any_eq_true _ _ |>.mp htarget
    exact ⟨row, target, ⟨⟨id, RowTable.mem_all.mp hall⟩, henabled, hget, htargetEnabled⟩, rfl⟩
  · rintro ⟨row, target, ⟨⟨id, hget⟩, henabled, hget', htargetEnabled⟩, rfl⟩
    refine ⟨(id, row), List.mem_filter.mpr ⟨RowTable.mem_all.mpr hget, ?_⟩, rfl⟩
    have htargetAny : (db.deliveryTargets.get row.deliveryTargetId).any (·.enabled) = true :=
      (Option.any_eq_true _ _).mpr ⟨target, hget', htargetEnabled⟩
    exact Bool.and_eq_true_iff.mpr ⟨henabled, htargetAny⟩

/-! ### The replay -/

/-- **Where the replay stands**: between its calls, between two records, after the check of the project,
among the deliveries of a record, and with an issue of a record. -/
inductive ReplayPc [Engine]
  | idle
  | running
  | checked (record : WalRecord) (json : Value)
  | grouping (record : WalRecord) (compiled : CompiledScript) (rest : List ProcessorDelivery)
  | failing (record : WalRecord) (issue : ReplayIssue)

/-- The id in the database; it has none that is negative. -/
def databaseId (projectId : Int32) : Nat := projectId.toInt.toNat

section Node

variable {ι : Type}

/-- `contains_project_id` for the id of a record. -/
def containsRecordProject (projects : Registry ProjectCell ProjectMap ι) (projectId : Int32) : Bool :=
  decide (0 ≤ projectId.toInt) && containsProjectId projects (databaseId projectId)

/-- `process_record` up to the check of the project. -/
def checkRecord [JsonCodec] [Engine] (projects : Registry ProjectCell ProjectMap ι)
    (record : WalRecord) : ReplayPc :=
  match JsonCodec.fromSlice record.payload with
  | .error error => .failing record (.invalidJsonBody error)
  | .ok json =>
    if containsRecordProject projects record.projectId then .checked record json
    else .failing record (.unknownProjectId record.projectId ((json.get "xwhat").bind Value.asStr))

variable [Engine]

/-- `process_record` after the check of the project. -/
def processChecked (router : ProcessorRouter) (record : WalRecord) (json : Value) : ReplayPc :=
  let compiled := router.processorForProject (databaseId record.projectId)
  match compiled.state.process json (requestContext record) with
  | .error error => .failing record (.processorRuntimeFailed error)
  | .ok deliveries => .grouping record compiled deliveries

/-- The loop of `group_deliveries_by_sink`, up to the next delivery. -/
def groupNext (router : EventRouter) (record : WalRecord) (compiled : CompiledScript) :
    List ProcessorDelivery → ReplayPc
  | [] => .running
  | delivery :: rest =>
    if Text.trim delivery.target = "" then .failing record .emptySinkTarget
    else if router.containsSink delivery.target then .grouping record compiled rest
    else .failing record (.unknownSinkTarget delivery.target)

/-- **A node**: the committed states, its registries, the replay, and the records set aside with their
issues. -/
structure NodeState (ι : Type) where
  history : History Database
  projects : Refreshed ProjectsView (List (Nat × ProjectRow)) ProjectRepositoryError ProjectCell
    ProjectMap ι
  sinks : Refreshed SinksView (List RuntimeEventSink) LoadError Unit EventRouter ι
  processors : Refreshed Database LoadedProcessors ProcessorLoadError Unit ProcessorRouter ι
  replay : ReplayPc
  quarantined : List (WalRecord × ReplayIssue)

/-- The installed router of the sinks. -/
def NodeState.sinkRouter (node : NodeState ι) : EventRouter := node.sinks.registry.cells ()

/-- The installed router of the processors. -/
def NodeState.processorRouter (node : NodeState ι) : ProcessorRouter :=
  node.processors.registry.cells ()

/-- **A step of the replay.** A call begins where there are sinks; a registry is read when it is not
locked; a record is set aside, or the call ends because the records before it could not be sent. -/
inductive ReplayStep [JsonCodec] (node : NodeState ι) : NodeState ι → Prop
  | call (hidle : node.replay = .idle) (hfree : node.sinks.registry.held () = false)
      (hsinks : node.sinkRouter.sinks.keys ≠ []) : ReplayStep node { node with replay := .running }
  | check {record : WalRecord} (hrunning : node.replay = .running)
      (hfree : node.projects.registry.held .byToken = false) :
      ReplayStep node { node with replay := checkRecord node.projects.registry record }
  | process {record : WalRecord} {json : Value} (hchecked : node.replay = .checked record json)
      (hfree : node.processors.registry.held () = false) :
      ReplayStep node { node with replay := processChecked node.processorRouter record json }
  | group {record : WalRecord} {compiled : CompiledScript} {rest : List ProcessorDelivery}
      (hgrouping : node.replay = .grouping record compiled rest)
      (hfree : ∀ delivery ∈ rest.head?, Text.trim delivery.target ≠ "" →
        node.sinks.registry.held () = false) :
      ReplayStep node { node with replay := groupNext node.sinkRouter record compiled rest }
  | quarantine {record : WalRecord} {issue : ReplayIssue}
      (hfailing : node.replay = .failing record issue) (haction : issue.action = .quarantineRecord) :
      ReplayStep node { node with
        replay := .running
        quarantined := (record, issue) :: node.quarantined }
  | stop {record : WalRecord} {issue : ReplayIssue} (hfailing : node.replay = .failing record issue) :
      ReplayStep node { node with replay := .idle }
  | finish (hrunning : node.replay = .running) : ReplayStep node { node with replay := .idle }

/-- The replay context of a node as it is now. -/
def NodeState.context (node : NodeState ι) (checkpoint : CheckpointSettings)
    (replay : ReplaySettings) : WalReplayContext where
  eventSinks := node.sinkRouter.sinks.mapValues fun _ entry =>
    ⟨entry.autoOffsetReset, entry.batchConfig⟩
  containsProjectId := containsRecordProject node.projects.registry
  processEvent projectId event request :=
    (node.processorRouter.processorForProject (databaseId projectId)).state.process event request
  checkpoint := checkpoint
  replay := replay

/-- What becomes of a record. -/
def recordOutcome {α : Type} (record : WalRecord) : Except ReplayIssue α → ReplayPc
  | .error issue => .failing record issue
  | .ok _ => .running

/-- The deliveries of a record, one after another. -/
theorem ReplayStep.deliveries [JsonCodec] {node : NodeState ι} {checkpoint : CheckpointSettings}
    {replay : ReplaySettings} {record : WalRecord} {compiled : CompiledScript}
    (hfree : node.sinks.registry.held () = false) (deliveries : List ProcessorDelivery)
    (table : SortedTable String (List Value)) :
    Relation.ReflTransGen ReplayStep { node with replay := .grouping record compiled deliveries }
      { node with
        replay := recordOutcome record
          (groupDeliveriesLoop (node.context checkpoint replay) deliveries table) } := by
  induction deliveries generalizing table with
  | nil =>
    have hstep : ReplayStep { node with replay := .grouping record compiled [] }
        { node with replay := groupNext node.sinkRouter record compiled [] } :=
      .group rfl (by simp)
    exact .single hstep
  | cons delivery rest ih =>
    have hstep : ReplayStep { node with replay := .grouping record compiled (delivery :: rest) }
        { node with replay := groupNext node.sinkRouter record compiled (delivery :: rest) } :=
      .group rfl fun _ _ _ => hfree
    have hlookup : ((node.context checkpoint replay).eventSinks.lookup delivery.target).isSome =
        node.sinkRouter.containsSink delivery.target := by
      rw [NodeState.context, SortedTable.lookup_mapValues, Option.isSome_map]
      rfl
    rw [groupNext] at hstep
    rw [groupDeliveriesLoop, hlookup]
    by_cases hempty : Text.trim delivery.target = ""
    · rw [if_pos hempty] at hstep ⊢
      exact .single hstep
    · rw [if_neg hempty] at hstep ⊢
      by_cases hcontains : node.sinkRouter.containsSink delivery.target = true
      · rw [if_pos hcontains] at hstep ⊢
        exact .head hstep (ih _)
      · rw [if_neg hcontains] at hstep ⊢
        exact .single hstep

/-- **A record with nothing in between** becomes what `process_record` and `group_deliveries_by_sink`
make of it. -/
theorem ReplayStep.record [JsonCodec] {node : NodeState ι} (hrunning : node.replay = .running)
    (hprojects : node.projects.registry.held .byToken = false)
    (hprocessors : node.processors.registry.held () = false)
    (hsinks : node.sinks.registry.held () = false) (checkpoint : CheckpointSettings)
    (replay : ReplaySettings) (record : WalRecord) :
    Relation.ReflTransGen ReplayStep node { node with
      replay := recordOutcome record
        ((processRecord (node.context checkpoint replay) record).bind
          (groupDeliveriesBySink (node.context checkpoint replay))) } := by
  have hcheck : ReplayStep node { node with
      replay := checkRecord node.projects.registry record } := .check hrunning hprojects
  rw [checkRecord] at hcheck
  rw [processRecord]
  cases hjson : JsonCodec.fromSlice record.payload with
  | error error =>
    rw [hjson] at hcheck
    exact .single hcheck
  | ok json =>
    simp only [hjson] at hcheck ⊢
    have hcontext : (node.context checkpoint replay).containsProjectId record.projectId =
        containsRecordProject node.projects.registry record.projectId := rfl
    rw [hcontext]
    by_cases hcontains : containsRecordProject node.projects.registry record.projectId = true
    · rw [if_pos hcontains] at hcheck
      rw [if_neg (not_not_intro hcontains)]
      have hprocess : ReplayStep { node with replay := .checked record json }
          { node with replay := processChecked node.processorRouter record json } :=
        .process rfl hprocessors
      refine .head hcheck (.head hprocess ?_)
      have hevent : (node.context checkpoint replay).processEvent record.projectId json
          (requestContext record) = (node.processorRouter.processorForProject
            (databaseId record.projectId)).state.process json (requestContext record) := rfl
      rw [processChecked, hevent]
      cases (node.processorRouter.processorForProject (databaseId record.projectId)).state.process
          json (requestContext record) with
      | error error => exact .refl
      | ok deliveries => exact ReplayStep.deliveries hsinks deliveries ∅
    · rw [if_neg hcontains] at hcheck
      rw [if_pos hcontains]
      exact .single hcheck

/-! ### Runs -/

variable [SinkBackends] [SerdeText] [DurationCodec]

/-- **Committed states**: all of them valid, each after the first one made by one operation. -/
inductive Committed (use : ConstantUse) : History Database → Prop
  | start {db : Database} (hvalid : ConfigValid use db) : Committed use ⟨db, []⟩
  | commit {h : History Database} (hcommitted : Committed use h) {op : AdminOp} {db : Database}
      (hrun : op.run h.current = .ok db) (hvalid : ConfigValid use db) : Committed use (h.commit db)

variable [DecidableEq ι]

/-- **A step of the configuration**: a commit of a valid state, or a step of a refresh. -/
inductive ConfigStep (use : ConstantUse) (node : NodeState ι) : NodeState ι → Prop
  | commit {op : AdminOp} {db : Database} (hrun : op.run node.history.current = .ok db)
      (hvalid : ConfigValid use db) :
      ConfigStep use node { node with history := node.history.commit db }
  | projects {projects} (hstep : Refreshed.Step projectSource projectInstall
        node.history.current.projectsView node.projects projects) :
      ConfigStep use node { node with projects := projects }
  | sinks {sinks} (hstep : Refreshed.Step sinkSource sinkInstall node.history.current.sinksView
        node.sinks sinks) :
      ConfigStep use node { node with sinks := sinks }
  | processors {processors} (hstep : Refreshed.Step processorSource processorInstall
        node.history.current node.processors processors) :
      ConfigStep use node { node with processors := processors }

variable [JsonCodec]

/-- **The runs of a node**: its registries are loaded, with any commits between the queries of the
loads, and then commits, refreshes and the replay take their steps in any order, the replay only where
a condition holds. -/
inductive NodeReachable (use : ConstantUse) (condition : NodeState ι → Prop) : NodeState ι → Prop
  | start {h : History Database} (hcommitted : Committed use h)
      {projects : ProjectCell → ProjectMap} {sinks : Unit → EventRouter}
      {processors : Unit → ProcessorRouter} {projectsVersion sinksVersion processorsVersion : Nat}
      (hprojects : FirstLoad Database.projectsView projectSource h (.done projects projectsVersion))
      (hsinks : FirstLoad Database.sinksView sinkSource h (.done sinks sinksVersion))
      (hprocessors : FirstLoad id processorSource h (.done processors processorsVersion)) :
      NodeReachable use condition
        ⟨h, .loaded projects projectsVersion, .loaded sinks sinksVersion,
          .loaded processors processorsVersion, .idle, []⟩
  | config {node node' : NodeState ι} (hnode : NodeReachable use condition node)
      (hstep : ConfigStep use node node') : NodeReachable use condition node'
  | replay {node node' : NodeState ι} (hnode : NodeReachable use condition node)
      (hcondition : condition node) (hstep : ReplayStep node node') :
      NodeReachable use condition node'

end Node

end Ingest4x
