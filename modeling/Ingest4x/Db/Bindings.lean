import Ingest4x.Db.Seed

/-! # The bindings of a running server

What holds of the database after the seed and any operations of the repositories: bindings lead to
scripts that can be loaded, so no project runs another script than its binding says.

* **`BindingsHold`** — the properties.
* **`bindings_hold`** — every database of a running server has them. -/

namespace Ingest4x

open Result Sinks Rhai ProcessorRepository

section Runs

variable [SinkBackends] [SerdeText] [DurationCodec] [Engine] [SeedScripts]

/-- **The bindings of a database hold.** -/
structure BindingsHold (db : Database) : Prop where
  /-- An enabled binding leads to an active script that has its entry module. -/
  enabledBinding : ∀ id binding, db.projectProcessors.get id = some binding → binding.enabled = true →
    ∃ script, db.processorScripts.get binding.processorScriptId = some script ∧
      script.status = .active ∧ ∃ moduleId module,
        db.processorScriptModules.get moduleId = some module ∧
          module.processorScriptId = binding.processorScriptId ∧
          module.moduleName = script.entryModule
  /-- The default script is active. -/
  defaultActive : ∃ id script, db.processorScripts.get id = some script ∧
    script.scriptKey = "default" ∧ script.status = .active
  /-- A project has at most one binding. -/
  oneBinding : ∀ id id' binding binding', db.projectProcessors.get id = some binding →
    db.projectProcessors.get id' = some binding' → binding.projectId = binding'.projectId → id = id'
  /-- An operation that fails changes nothing. -/
  errorUnchanged : ∀ (op : AdminOp) error, op.run db = .error error → op.commit db = db
  /-- A project with an enabled binding runs the script of the binding. -/
  runtimeScript : ∀ id binding project, db.projectProcessors.get id = some binding →
    binding.enabled = true → db.projects.get binding.projectId = some project →
    ∃ script, runtimeScriptForProject db binding.projectId = .ok script ∧
      script.id = binding.processorScriptId
  /-- The scripts of the registry can be loaded. -/
  registryLoads : ∃ defaultScript projectScripts, defaultRuntimeScript db = .ok defaultScript ∧
    listEnabledRuntimeProjectProcessors db = .ok projectScripts

omit [SeedScripts] in
/-- The invariant of the repositories gives the properties. -/
theorem ProcessorsValid.hold {db : Database} (h : ProcessorsValid db) (hdefault : DefaultActive db) :
    BindingsHold db where
  enabledBinding id binding hbinding henabled := by
    obtain ⟨script, hscript, hactive⟩ := h.bindings id binding hbinding henabled
    exact ⟨script, hscript, hactive, h.entries _ script hscript⟩
  defaultActive := hdefault
  oneBinding id id' binding binding' hbinding hbinding' hproject :=
    db.projectProcessors.unique id id' binding binding' hbinding hbinding'
      (by simp [UniqueIndexes.clash, hproject])
  errorUnchanged op error herror := by rw [AdminOp.commit, herror]
  runtimeScript id binding project hbinding henabled hproject :=
    runtimeScriptForProject_of_binding h hbinding henabled hproject
  registryLoads := by
    obtain ⟨defaultScript, hok⟩ := defaultRuntimeScript_isOk h hdefault
    obtain ⟨projectScripts, hscripts⟩ := runtimeProjectProcessors_isOk h
      (db.projectProcessors.all.filter fun e => e.2.enabled)
    exact ⟨defaultScript, projectScripts, hok, hscripts⟩

/-- The databases of a running server have valid processors. -/
theorem AdminReachable.valid {db₀ db : Database} (hseed : Seed.run .migrated = .ok db₀)
    (h : AdminReachable db₀ db) : ProcessorsValid db :=
  ((Seed.run_reachable hseed).trans h).induct ProcessorsValid.migrated
    fun _ _ hchange hvalid => hchange.valid hvalid

/-- The databases of a running server have an active default script. -/
theorem AdminReachable.defaultActive {db₀ db : Database} (hseed : Seed.run .migrated = .ok db₀)
    (h : AdminReachable db₀ db) : DefaultActive db :=
  h.induct (Seed.run_defaultActive hseed) fun _ _ hchange hdefault => hchange.defaultActive hdefault

/-- **The bindings hold after the seed and any operations**, successful or not. -/
theorem bindings_hold {db₀ db : Database} (hseed : Seed.run .migrated = .ok db₀)
    (h : AdminReachable db₀ db) : BindingsHold db :=
  (h.valid hseed).hold (h.defaultActive hseed)

end Runs

/-! ### A run -/

/-- Client libraries that accept everything. -/
@[reducible] def seedBackends : SinkBackends := ⟨fun _ => .ok (), fun _ _ => .ok ()⟩

/-- An error text that names the type. -/
@[reducible] def seedText : SerdeText := ⟨fun typeName _ => typeName⟩

/-- The one duration that the seed writes. -/
@[reducible] def seedDurations : DurationCodec where
  parseDuration s := if s = "60s" then .ok 60000000000 else .error "invalid duration"

/-- Script texts by their names. -/
@[reducible] def seedScripts : SeedScripts := ⟨"default", "loadtest"⟩

/-- A script engine that knows the two seeded scripts: each emits to its own sinks. -/
@[reducible] def seedEngine : Engine where
  Module := Unit
  Ast := List String
  emitCalls source :=
    if source = "default" then
      .ok [⟨.variable_ "SINK_EVENTS", "1:1"⟩, ⟨.variable_ "SINK_EVENTS_ERROR", "2:1"⟩]
    else if source = "loadtest" then .ok [⟨.variable_ "SINK_LOADTEST_EVENTS", "1:1"⟩]
    else .ok []
  compileWithScope _ source := .ok [source]
  evalAstAsNew _ _ _ := .ok ()
  compileIntoSelfContained _ _ source := .ok [source]
  callProcess _ _ _ _ _ := .ok []

/-- The seed runs on the migrated database. -/
def seededDatabase : Except SeedError Database :=
  @Seed.run seedBackends seedText seedDurations seedEngine seedScripts .migrated

/-- The properties hold of a seeded database. -/
theorem bindings_hold_sample : ∃ db, seededDatabase = .ok db ∧
    @BindingsHold seedBackends seedText seedDurations seedEngine db := by
  have hsome : seededDatabase.toOption.isSome = true := by decide +kernel
  cases hseed : seededDatabase with
  | error e =>
    rw [hseed] at hsome
    cases hsome
  | ok db =>
    exact ⟨db, rfl, @bindings_hold seedBackends seedText seedDurations seedEngine seedScripts db db hseed
      (@AdminReachable.start seedEngine seedBackends seedText seedDurations db)⟩

end Ingest4x
