import Ingest4x.Db.SeedProcessors

/-! # Starting again

The server runs the seed at every start, so on any database that the operations of the repositories
leave.

* **`SeedAccepted`** — the databases that the seed accepts.
* **`run_again_iff`** — on a database of a running server, the seed runs, and a second run changes
  nothing, exactly if the database is accepted. -/

namespace Ingest4x.Seed

open Result Sinks Rhai ProcessorRepository

section Runs

variable [SinkBackends] [SerdeText] [DurationCodec] [Engine] [SeedScripts]

/-! ### What the operations keep -/

omit [SinkBackends] [DurationCodec] [Engine] [SeedScripts] [SerdeText] in
/-- The sinks after an operation on projects. -/
theorem sinks_of_projectsChange {db db' : Database} (h : ProjectsChange db db') :
    db'.deliveryTargets = db.deliveryTargets ∧ db'.eventSinks = db.eventSinks := by
  cases h <;> exact ⟨rfl, rfl⟩

omit [SinkBackends] [SerdeText] [DurationCodec] [Engine] [SeedScripts] in
/-- The sinks after an operation on processors. -/
theorem sinks_of_processorsChange {db db' : Database} (h : ProcessorsChange db db') :
    db'.deliveryTargets = db.deliveryTargets ∧ db'.eventSinks = db.eventSinks := by
  cases h with
  | bindDefaults hbind hget hstatus =>
    split
    · exact ⟨rfl, rfl⟩
    · exact ⟨rfl, rfl⟩
  | _ => exact ⟨rfl, rfl⟩

omit [Engine] [SeedScripts] in
/-- **Every operation keeps the configurations of the sinks well formed.** -/
theorem sinksWellFormed_of_change {db db' : Database} (hchange : AdminChange db db')
    (h : SinksWellFormed db) : SinksWellFormed db' := by
  have hsame : db'.deliveryTargets = db.deliveryTargets ∧ db'.eventSinks = db.eventSinks →
      SinksWellFormed db' := by
    rintro ⟨htargets, hsinks⟩
    refine ⟨?_, ?_, ?_⟩
    · rw [htargets]
      exact h.targets
    · rw [htargets, hsinks]
      exact h.sinks
    · rw [hsinks]
      exact h.sinkIds
  cases hchange with
  | project hchange => exact hsame (sinks_of_projectsChange hchange)
  | eventSink hchange => exact hchange.wellFormed h
  | processor hchange => exact hsame (sinks_of_processorsChange hchange)

/-! ### The databases of a running server -/

/-- **What holds of every database of a running server**, and the seed builds on. -/
structure Running (db : Database) : Prop where
  sinks : SinksWellFormed db
  processors : ProcessorsValid db
  defaultActive : DefaultActive db
  loadtestScript : HasScript db "loadtest_blackhole_processor"

omit [SeedScripts] in
theorem Running.reachable {db db' : Database} (h : Running db) (hreach : AdminReachable db db') :
    Running db' := by
  refine hreach.induct h ?_
  rintro db db' hchange ⟨hsinks, hprocessors, hdefault, hscript⟩
  exact ⟨sinksWellFormed_of_change hchange hsinks, hchange.valid hprocessors,
    hchange.defaultActive hdefault, hasScript_of_change hchange hscript⟩

theorem Running.of_seed {db : Database} (hseed : run .migrated = .ok db) : Running db where
  sinks := (run_reachable hseed).induct SinksWellFormed.migrated fun _ _ hchange h =>
    sinksWellFormed_of_change hchange h
  processors := AdminReachable.start.valid hseed
  defaultActive := run_defaultActive hseed
  loadtestScript := run_hasScript hseed

omit [SinkBackends] [SerdeText] [DurationCodec] [Engine] [SeedScripts] in
/-- What holds of the processors holds where their tables are the same. -/
theorem processors_congr {db db' : Database} (hscripts : db'.processorScripts = db.processorScripts)
    (hmodules : db'.processorScriptModules = db.processorScriptModules)
    (hbindings : db'.projectProcessors = db.projectProcessors) (hvalid : ProcessorsValid db)
    (hdefault : DefaultActive db) (hscript : HasScript db "loadtest_blackhole_processor") :
    ProcessorsValid db' ∧ DefaultActive db' ∧ HasScript db' "loadtest_blackhole_processor" ∧
      (LoadtestScriptActive db' ↔ LoadtestScriptActive db) := by
  refine ⟨⟨?_, ?_⟩, ?_, ?_, ?_⟩
  · rw [hbindings, hscripts]
    exact hvalid.bindings
  · rw [hscripts, hmodules]
    exact hvalid.entries
  · rw [DefaultActive, hscripts]
    exact hdefault
  · rw [HasScript, hscripts]
    exact hscript
  · rw [LoadtestScriptActive, LoadtestScriptActive, hscripts]

/-! ### The seed on a running server -/

/-- **The databases that the seed accepts.** -/
structure SeedAccepted (db : Database) : Prop where
  sinks : SinksAccepted db
  projects : ProjectsAccepted db
  loadtestScript : LoadtestScriptActive db

/-- Two databases have the same rows. -/
structure SameTables (db db' : Database) : Prop where
  projects : db'.projects = db.projects
  deliveryTargets : db'.deliveryTargets = db.deliveryTargets
  eventSinks : db'.eventSinks = db.eventSinks
  processorScripts : db'.processorScripts = db.processorScripts
  processorScriptModules : db'.processorScriptModules = db.processorScriptModules
  projectProcessors : db'.projectProcessors = db.projectProcessors

/-- **The databases that the seed changes no more.** -/
structure Seeded (db : Database) : Prop where
  sinks : SinksSeeded db
  testProject : hasToken db "igx_local_test_token" = true
  loadtestProject : hasToken db "igx_loadtest_token" = true
  processors : ProcessorsSeeded db

/-- **The seed on a running server** succeeds exactly if the database is accepted, and leaves one that
it changes no more. -/
theorem run_spec {db : Database} {duration : Nat}
    (hduration : DurationCodec.parseDuration "60s" = .ok duration) (h : Running db) :
    ((∃ db', run db = .ok db') ↔ SeedAccepted db) ∧ ∀ db', run db = .ok db' → Seeded db' := by
  obtain ⟨hsinksIff, hsinksOk⟩ := seedSinks_spec hduration (typesKnown_of_wellFormed h.sinks)
  -- The phases look at different tables, so that the first two leave the conditions of the later ones.
  have hprojects : ∀ db₁, seedSinks db = .ok db₁ →
      (ProjectsAccepted db₁ ↔ ProjectsAccepted db) := by
    intro db₁ h₁
    have hsame := (hsinksOk db₁ h₁).2.projects
    have htoken : hasToken db₁ = hasToken db := by
      funext ingestToken
      rw [hasToken, findProjectByIngestToken, hsame]
      rfl
    have hkey : hasKey db₁ = hasKey db := by
      funext projectKey
      rw [hasKey, hsame]
      rfl
    constructor
    · rintro ⟨htest, hloadtest⟩
      rw [htoken, hkey] at htest hloadtest
      exact ⟨htest, hloadtest⟩
    · rintro ⟨htest, hloadtest⟩
      rw [← htoken, ← hkey] at htest hloadtest
      exact ⟨htest, hloadtest⟩
  have hprocessors : ∀ db₁ db₂, seedSinks db = .ok db₁ → seedProjects db₁ = .ok db₂ →
      ((∃ db', seedProcessors db₂ = .ok db') ↔ LoadtestScriptActive db) ∧
        ∀ db', seedProcessors db₂ = .ok db' → OnlyBindings db₂ db' ∧ ProcessorsSeeded db' := by
    intro db₁ db₂ h₁ h₂
    obtain ⟨-, honly₁⟩ := hsinksOk db₁ h₁
    obtain ⟨honly₂, -, hloadtest⟩ := seedProjects_spec.2 db₂ h₂
    obtain ⟨hvalid, hdefault, hscript, hactive⟩ := processors_congr
      (honly₂.processorScripts.trans honly₁.processorScripts)
      (honly₂.processorScriptModules.trans honly₁.processorScriptModules)
      (honly₂.projectProcessors.trans honly₁.projectProcessors) h.processors h.defaultActive
      h.loadtestScript
    obtain ⟨hiff, hok⟩ := seedProcessors_spec hvalid hdefault hscript hloadtest
    exact ⟨hiff.trans hactive, hok⟩
  constructor
  · constructor
    · rintro ⟨db', hrun⟩
      obtain ⟨db₁, db₂, h₁, h₂, h₃⟩ := run_eq_ok.mp hrun
      exact ⟨hsinksIff.mp ⟨db₁, h₁⟩, (hprojects db₁ h₁).mp (seedProjects_spec.1.mp ⟨db₂, h₂⟩),
        (hprocessors db₁ db₂ h₁ h₂).1.mp ⟨db', h₃⟩⟩
    · rintro ⟨hsinks, hprojectsAccepted, hscript⟩
      obtain ⟨db₁, h₁⟩ := hsinksIff.mpr hsinks
      obtain ⟨db₂, h₂⟩ := seedProjects_spec.1.mpr ((hprojects db₁ h₁).mpr hprojectsAccepted)
      obtain ⟨db', h₃⟩ := (hprocessors db₁ db₂ h₁ h₂).1.mpr hscript
      exact ⟨db', run_eq_ok.mpr ⟨db₁, db₂, h₁, h₂, h₃⟩⟩
  · intro db' hrun
    obtain ⟨db₁, db₂, h₁, h₂, h₃⟩ := run_eq_ok.mp hrun
    obtain ⟨hseeded, -⟩ := hsinksOk db₁ h₁
    obtain ⟨honly₂, htest, hloadtest⟩ := seedProjects_spec.2 db₂ h₂
    obtain ⟨honly₃, hprocessorsSeeded⟩ := (hprocessors db₁ db₂ h₁ h₂).2 db' h₃
    refine ⟨hseeded.congr (honly₃.deliveryTargets.trans honly₂.deliveryTargets)
      (honly₃.eventSinks.trans honly₂.eventSinks), ?_, ?_, hprocessorsSeeded⟩
    · rw [hasToken, findProjectByIngestToken, honly₃.projects]
      exact htest
    · rw [hasToken, findProjectByIngestToken, honly₃.projects]
      exact hloadtest

/-- **A seeded database only gets another version of its processors.** -/
theorem run_of_seeded {db : Database} (h : Running db) (hseeded : Seeded db) :
    run db = .ok (bumpProcessorScriptsVersion db) :=
  run_eq_ok.mpr ⟨db, db, seedSinks_of_seeded hseeded.sinks,
    seedProjects_of_seeded hseeded.testProject hseeded.loadtestProject,
    seedProcessors_of_seeded h.processors h.defaultActive hseeded.processors⟩

/-- **When the server starts again**: after the first seed and any operations of the repositories, the
seed succeeds, and leaves rows that a second run leaves as they are, exactly if each seeded project is
there under its token or its key is free, the missing sinks can be made on the targets that have the
ids of the seeded ones, and the script of the load tests is active. -/
theorem run_again_iff {db₀ db : Database} {duration : Nat}
    (hduration : DurationCodec.parseDuration "60s" = .ok duration)
    (hseed : run .migrated = .ok db₀) (hreach : AdminReachable db₀ db) :
    (∃ db₁ db₂, run db = .ok db₁ ∧ run db₁ = .ok db₂ ∧ SameTables db₁ db₂) ↔ SeedAccepted db := by
  have hrunning := (Running.of_seed hseed).reachable hreach
  obtain ⟨hiff, hok⟩ := run_spec hduration hrunning
  constructor
  · rintro ⟨db₁, db₂, h₁, -⟩
    exact hiff.mp ⟨db₁, h₁⟩
  · intro haccepted
    obtain ⟨db₁, h₁⟩ := hiff.mpr haccepted
    have hrunning₁ := hrunning.reachable (run_reachable h₁)
    exact ⟨db₁, _, h₁, run_of_seeded hrunning₁ (hok db₁ h₁), ⟨rfl, rfl, rfl, rfl, rfl, rfl⟩⟩

end Runs

/-! ### A rotated token -/

/-- The database after the token of the test project was rotated. -/
def rotatedDatabase (db₀ : Database) : Database :=
  @AdminOp.commit seedEngine seedBackends seedText seedDurations db₀
    (.project (.updateProjectWithIngestSettings 1 ⟨none, none, some "igx_rotated_token"⟩ .unchanged))

/-- **A rotated token keeps the server from starting**: the seed does not find the project under its
first token, and cannot make one with the same key. -/
theorem run_rejects_rotatedToken : ¬∀ db₀ db, seededDatabase = .ok db₀ →
    @AdminReachable seedEngine seedBackends seedText seedDurations db₀ db →
    ∃ db₁ db₂, @run seedBackends seedText seedDurations seedEngine seedScripts db = .ok db₁ ∧
      @run seedBackends seedText seedDurations seedEngine seedScripts db₁ = .ok db₂ ∧
      SameTables db₁ db₂ := by
  intro hall
  have hfails : (seededDatabase.toOption.map fun db₀ => (@run seedBackends seedText seedDurations
      seedEngine seedScripts (rotatedDatabase db₀)).toOption.isSome) = some false := by
    decide +kernel
  obtain ⟨db₀, hseed, hrun⟩ := map_toOption_eq_some.mp hfails
  obtain ⟨db₁, db₂, h₁, -⟩ := hall db₀ (rotatedDatabase db₀) hseed
    (@AdminReachable.step seedEngine seedBackends seedText seedDurations _ _
      (@AdminReachable.start seedEngine seedBackends seedText seedDurations db₀) _)
  rw [h₁] at hrun
  cases hrun

/-- The seed runs again on the database that it left. -/
theorem run_again_iff_sample : ∃ db₀ db₁ db₂, seededDatabase = .ok db₀ ∧
    @run seedBackends seedText seedDurations seedEngine seedScripts db₀ = .ok db₁ ∧
    @run seedBackends seedText seedDurations seedEngine seedScripts db₁ = .ok db₂ ∧
    SameTables db₁ db₂ := by
  have hsome : (seededDatabase.toOption.map fun db₀ => (@run seedBackends seedText seedDurations
      seedEngine seedScripts db₀).toOption.isSome) = some true := by
    decide +kernel
  obtain ⟨db₀, hseed, hrun⟩ := map_toOption_eq_some.mp hsome
  have haccepted : SeedAccepted db₀ :=
    (@run_spec seedBackends seedText seedDurations seedEngine seedScripts db₀ 60000000000 rfl
      (@Running.of_seed seedBackends seedText seedDurations seedEngine seedScripts db₀ hseed)).1.mp
      (isSome_toOption.mp hrun)
  obtain ⟨db₁, db₂, h⟩ :=
    (@run_again_iff seedBackends seedText seedDurations seedEngine seedScripts db₀ db₀ 60000000000 rfl
      hseed (@AdminReachable.start seedEngine seedBackends seedText seedDurations db₀)).mpr haccepted
  exact ⟨db₀, db₁, db₂, hseed, h⟩

end Ingest4x.Seed
