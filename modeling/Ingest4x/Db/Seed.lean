import Ingest4x.Repositories.RuntimeScripts

/-! # The startup seed

What the server makes sure of in the database whenever it starts: delivery targets, sinks, projects,
scripts and bindings, each looked up by one attribute and made if it is missing.

* **`Seed.run`** — the steps one after another.
* **`Seed.run_reachable`** — a run is a sequence of operations of the repositories. -/

namespace Ingest4x

open Result Sinks Rhai

/-- **The texts of the two seeded scripts**, which nothing but the script engine reads. -/
class SeedScripts where
  defaultProcessorScript : String
  loadtestProcessorScript : String

/-- Why the seed failed. -/
inductive SeedError
  | project (error : ProjectRepositoryError)
  | eventSink (error : EventSinkRepositoryError)
  | processor (error : ProcessorRepositoryError)
  | other (message : String)
  deriving DecidableEq

namespace Seed

variable [SinkBackends] [SerdeText] [DurationCodec] [Engine] [SeedScripts]

/-! ### Delivery targets and sinks -/

/-- The delivery target with an id. -/
def findTarget (db : Database) (targetId : String) : Option (Nat × DeliveryTargetRow) :=
  db.deliveryTargets.find? fun target => target.targetId = targetId

/-- The sink with an id. -/
def findSink (db : Database) (sinkId : String) : Option (Nat × EventSinkRow) :=
  db.eventSinks.find? fun sink => sink.sinkId = sinkId

/-- The target with an id, or else a new one. -/
def findOrCreateTarget (db : Database) (input : CreateDeliveryTargetInput) :
    Except SeedError (Nat × Database) :=
  match findTarget db input.targetId with
  | some (id, _) => .ok (id, db)
  | none =>
    ((EventSinkRepository.createDeliveryTarget db input).mapError .eventSink).map fun created =>
      (created.1.id, created.2)

/-- The input of `ensure_local_kafka_delivery_target`. -/
def localKafka : CreateDeliveryTargetInput where
  targetId := "local_kafka"
  name := "Local Kafka"
  targetType := "kafka"
  configJson := .object [
    ("batch_num_messages", .string "100"),
    ("bootstrap_servers", .string "127.0.0.1:9092"),
    ("delivery_timeout_ms", .string "3000"),
    ("linger_ms", .string "100"),
    ("queue_buffering_max_messages", .string "300"),
    ("queue_buffering_max_ms", .string "0")]
  enabled := true

/-- The input of `ensure_local_parquet_delivery_target`. -/
def localParquet : CreateDeliveryTargetInput where
  targetId := "local_parquet"
  name := "Local Parquet"
  targetType := "parquet"
  configJson := .object [("options", .object [("root", .string "data")]), ("scheme", .string "fs")]
  enabled := true

/-- The target that `ensure_default_event_sinks` makes. -/
def defaultStdout : CreateDeliveryTargetInput :=
  ⟨"default_stdout", "Default Stdout", "stdout", .object [], true⟩

/-- The target that `ensure_loadtest_event_sink` makes. -/
def loadtestBlackhole : CreateDeliveryTargetInput :=
  ⟨"loadtest_blackhole", "Loadtest Blackhole", "blackhole", .object [], true⟩

/-- `ensure_local_kafka_delivery_target`. -/
def ensureLocalKafkaDeliveryTarget (db : Database) : Except SeedError Database :=
  (findOrCreateTarget db localKafka).map Prod.snd

/-- `ensure_local_parquet_delivery_target`. -/
def ensureLocalParquetDeliveryTarget (db : Database) : Except SeedError Database :=
  (findOrCreateTarget db localParquet).map Prod.snd

/-- A seeded sink on a target. -/
def sinkInput (sinkId name : String) (deliveryTargetId : Nat) (destinationJson : Value) :
    CreateEventSinkInput :=
  ⟨sinkId, name, deliveryTargetId, destinationJson, .latest, true⟩

/-- The sinks are made one after another, with the id as their name. -/
def createSinks (db : Database) (deliveryTargetId : Nat) : List String → Except SeedError Database
  | [] => .ok db
  | sinkId :: sinkIds =>
    match EventSinkRepository.createEventSink db
        (sinkInput sinkId sinkId deliveryTargetId (.object [])) with
    | .error error => .error (.eventSink error)
    | .ok (_, db') => createSinks db' deliveryTargetId sinkIds

/-- **`ensure_default_event_sinks`.** The target is looked at only if a sink is missing. -/
def ensureDefaultEventSinks (db : Database) : Except SeedError Database :=
  let missingSinkIds := ["events", "events_error"].filter fun sinkId => (findSink db sinkId).isNone
  if missingSinkIds = [] then .ok db
  else
    (findOrCreateTarget db defaultStdout).bind fun target =>
      createSinks target.2 target.1 missingSinkIds

/-- A sink with an id is there, or is made on a target. -/
def ensureSink (db : Database) (input : CreateEventSinkInput) : Except SeedError Database :=
  match findSink db input.sinkId with
  | some _ => .ok db
  | none => ((EventSinkRepository.createEventSink db input).mapError .eventSink).map Prod.snd

/-- The destination of the seeded Parquet sink. -/
def parquetDestination : Value :=
  .object [
    ("batch", .object [
      ("max_bytes", .number (.posInt 67108864)),
      ("max_events", .number (.posInt 1000)),
      ("timeout", .string "60s")]),
    ("path_prefix", .string "events")]

/-- **`ensure_parquet_event_sink`.** -/
def ensureParquetEventSink (db : Database) : Except SeedError Database :=
  match findTarget db "local_parquet" with
  | none => .error (.other "local parquet delivery target is missing")
  | some (targetId, _) =>
    ensureSink db (sinkInput "parquet_events" "Parquet Events" targetId parquetDestination)

/-- **`ensure_loadtest_event_sink`.** The target is made even if the sink is there. -/
def ensureLoadtestEventSink (db : Database) : Except SeedError Database :=
  (findOrCreateTarget db loadtestBlackhole).bind fun target =>
    ensureSink target.2 (sinkInput "loadtest_events" "Loadtest Events" target.1 (.object []))

/-! ### Projects -/

/-- `find_project_by_ingest_token`. -/
def findProjectByIngestToken (db : Database) (ingestToken : String) : Option (Nat × ProjectRow) :=
  db.projects.find? fun project => project.ingestToken = ingestToken

/-- A project with a token is there, or is made. Its key comes from its name, so no random key is
drawn. -/
def ensureProject (db : Database) (name ingestToken : String) : Except SeedError Database :=
  match findProjectByIngestToken db ingestToken with
  | some _ => .ok db
  | none =>
    ((ProjectRepository.createProject db "" ⟨name, true, ingestToken⟩).mapError .project).map Prod.snd

/-- `ensure_test_project`. -/
def ensureTestProject (db : Database) : Except SeedError Database :=
  ensureProject db "test_app" "igx_local_test_token"

/-- `ensure_loadtest_project`. -/
def ensureLoadtestProject (db : Database) : Except SeedError Database :=
  ensureProject db "loadtest_app" "igx_loadtest_token"

/-! ### Scripts and bindings -/

/-- A seeded script of one module. -/
def scriptInput (scriptKey name source : String) : CreateProcessorScriptInput :=
  ⟨scriptKey, name, "main", .active, [⟨"main", source⟩]⟩

/-- **`ensure_default_processor_script`.** -/
def ensureDefaultProcessorScript (db : Database) : Except SeedError Database :=
  match ProcessorRepository.defaultRuntimeScript db with
  | .ok _ => .ok db
  | .error _ =>
    ((ProcessorRepository.createScript db (scriptInput "default" "Default processor"
      SeedScripts.defaultProcessorScript)).mapError .processor).map Prod.snd

/-- The script with a key. -/
def findScript (db : Database) (scriptKey : String) : Option (Nat × ProcessorScriptRow) :=
  (ProcessorRepository.listScripts db).find? fun script => script.2.scriptKey = scriptKey

/-- **`ensure_loadtest_processor_script`.** -/
def ensureLoadtestProcessorScript (db : Database) : Except SeedError Database :=
  match findScript db "loadtest_blackhole_processor" with
  | some _ => .ok db
  | none =>
    ((ProcessorRepository.createScript db (scriptInput "loadtest_blackhole_processor"
      "Loadtest blackhole processor" SeedScripts.loadtestProcessorScript)).mapError
        .processor).map Prod.snd

/-- `ensure_default_processor_bindings`. -/
def ensureDefaultProcessorBindings (db : Database) : Except SeedError Database :=
  ((ProcessorRepository.ensureDefaultProjectProcessors db).mapError .processor).map Prod.snd

/-- **`ensure_loadtest_processor_binding`.** -/
def ensureLoadtestProcessorBinding (db : Database) : Except SeedError Database :=
  match findProjectByIngestToken db "igx_loadtest_token" with
  | none => .ok db
  | some (projectId, _) =>
    match findScript db "loadtest_blackhole_processor" with
    | none => .error (.other "loadtest processor seed is missing")
    | some (scriptId, _) =>
      ((ProcessorRepository.assignProjectProcessor db projectId scriptId true).mapError
        .processor).map Prod.snd

/-- **`seed::run`.** -/
def run (db : Database) : Except SeedError Database := do
  let db ← ensureLocalKafkaDeliveryTarget db
  let db ← ensureLocalParquetDeliveryTarget db
  let db ← ensureDefaultEventSinks db
  let db ← ensureParquetEventSink db
  let db ← ensureLoadtestEventSink db
  let db ← ensureTestProject db
  let db ← ensureLoadtestProject db
  let db ← ensureDefaultProcessorScript db
  let db ← ensureLoadtestProcessorScript db
  let db ← ensureDefaultProcessorBindings db
  ensureLoadtestProcessorBinding db

/-! ### A run is a sequence of operations -/

omit [SeedScripts] in
/-- An operation that succeeds reaches its result. -/
theorem reachable_of_run {db db' : Database} (op : AdminOp) (h : op.run db = .ok db') :
    AdminReachable db db' := by
  have hstep : AdminReachable db (op.commit db) := AdminReachable.start.step op
  rwa [AdminOp.commit, h] at hstep

omit [SeedScripts] in
/-- An operation inside a step of the seed reaches its result. -/
theorem reachable_of_step {ε α : Type} {db db' : Database} {x : Except ε (α × Database)}
    {f : ε → SeedError} (h : (x.mapError f).map Prod.snd = .ok db')
    (hop : ∀ a, x = .ok (a, db') → ∃ op : AdminOp, op.run db = .ok db') : AdminReachable db db' := by
  obtain ⟨a, ha⟩ := map_snd_eq_ok.mp h
  obtain ⟨op, hrun⟩ := hop a (mapError_eq_ok.mp ha)
  exact reachable_of_run op hrun

omit [SeedScripts] in
theorem createDeliveryTarget_reachable {db db' : Database} {input : CreateDeliveryTargetInput}
    {target : DeliveryTarget}
    (h : EventSinkRepository.createDeliveryTarget db input = .ok (target, db')) :
    AdminReachable db db' :=
  reachable_of_run (.eventSink (.createDeliveryTarget input)) <| by
    rw [AdminOp.run, EventSinkOp.run, h]
    rfl

omit [SeedScripts] in
theorem createEventSink_reachable {db db' : Database} {input : CreateEventSinkInput}
    {sink : EventSink} (h : EventSinkRepository.createEventSink db input = .ok (sink, db')) :
    AdminReachable db db' :=
  reachable_of_run (.eventSink (.createEventSink input)) <| by
    rw [AdminOp.run, EventSinkOp.run, h]
    rfl

omit [SeedScripts] in
theorem findOrCreateTarget_reachable {db db' : Database} {input : CreateDeliveryTargetInput}
    {id : Nat} (h : findOrCreateTarget db input = .ok (id, db')) : AdminReachable db db' := by
  rw [findOrCreateTarget] at h
  split at h
  · cases h
    exact .start
  · cases hcreate : EventSinkRepository.createDeliveryTarget db input with
    | error e =>
      rw [hcreate] at h
      cases h
    | ok created =>
      rw [hcreate] at h
      cases h
      exact createDeliveryTarget_reachable hcreate

omit [SeedScripts] in
theorem createSinks_reachable {db db' : Database} {targetId : Nat} {sinkIds : List String}
    (h : createSinks db targetId sinkIds = .ok db') : AdminReachable db db' := by
  induction sinkIds generalizing db with
  | nil =>
    cases h
    exact .start
  | cons sinkId sinkIds ih =>
    rw [createSinks] at h
    split at h
    · cases h
    · next hcreate => exact (createEventSink_reachable hcreate).trans (ih h)

omit [SeedScripts] in
theorem ensureSink_reachable {db db' : Database} {input : CreateEventSinkInput}
    (h : ensureSink db input = .ok db') : AdminReachable db db' := by
  rw [ensureSink] at h
  split at h
  · cases h
    exact .start
  · obtain ⟨a, ha⟩ := map_snd_eq_ok.mp h
    exact createEventSink_reachable (mapError_eq_ok.mp ha)

omit [SeedScripts] in
theorem ensureProject_reachable {db db' : Database} {name ingestToken : String}
    (h : ensureProject db name ingestToken = .ok db') : AdminReachable db db' := by
  rw [ensureProject] at h
  split at h
  · cases h
    exact .start
  · refine reachable_of_step h fun a ha =>
      ⟨.project (.createProjectWithIngestSettings "" ⟨name, true, ingestToken⟩ .unchanged), ?_⟩
    rw [ProjectRepository.createProject] at ha
    rw [AdminOp.run, ProjectOp.run, ha]
    rfl

omit [SeedScripts] in
theorem createScript_reachable {db db' : Database} {input : CreateProcessorScriptInput}
    (h : ((ProcessorRepository.createScript db input).mapError SeedError.processor).map Prod.snd =
      .ok db') : AdminReachable db db' := by
  refine reachable_of_step h fun a ha => ⟨.processor (.createScript input), ?_⟩
  rw [AdminOp.run, ProcessorOp.run, ha]
  rfl

omit [SeedScripts] in
theorem ensureLoadtestProcessorBinding_reachable {db db' : Database}
    (h : ensureLoadtestProcessorBinding db = .ok db') : AdminReachable db db' := by
  rw [ensureLoadtestProcessorBinding] at h
  split at h
  · cases h
    exact .start
  · split at h
    · cases h
    · next projectId _ _ _ scriptId _ _ =>
      refine reachable_of_step h fun a ha =>
        ⟨.processor (.assignProjectProcessor projectId scriptId true), ?_⟩
      rw [AdminOp.run, ProcessorOp.run, ha]
      rfl

/-- **The steps of a run**: operations of the repositories, and the two scripts made on the way. -/
theorem run_split {db db' : Database} (h : run db = .ok db') : ∃ db₇ db₈ db₉,
    AdminReachable db db₇ ∧
      (ensureDefaultProcessorScript db₇ = .ok db₈ ∧ AdminReachable db₇ db₈) ∧
      (ensureLoadtestProcessorScript db₈ = .ok db₉ ∧ AdminReachable db₈ db₉) ∧
      AdminReachable db₉ db' := by
  simp only [run, bind_eq_ok] at h
  obtain ⟨db₁, h₁, db₂, h₂, db₃, h₃, db₄, h₄, db₅, h₅, db₆, h₆, db₇, h₇, db₈, h₈, db₉, h₉, db₁₀, h₁₀,
    h⟩ := h
  have r₁ : AdminReachable db db₁ := by
    obtain ⟨id, hid⟩ := map_snd_eq_ok.mp h₁
    exact findOrCreateTarget_reachable hid
  have r₂ : AdminReachable db₁ db₂ := by
    obtain ⟨id, hid⟩ := map_snd_eq_ok.mp h₂
    exact findOrCreateTarget_reachable hid
  have r₃ : AdminReachable db₂ db₃ := by
    simp only [ensureDefaultEventSinks] at h₃
    split at h₃
    · cases h₃
      exact .start
    · obtain ⟨target, htarget, hsinks⟩ := bind_eq_ok.mp h₃
      exact (findOrCreateTarget_reachable htarget).trans (createSinks_reachable hsinks)
  have r₄ : AdminReachable db₃ db₄ := by
    rw [ensureParquetEventSink] at h₄
    split at h₄
    · cases h₄
    · exact ensureSink_reachable h₄
  have r₅ : AdminReachable db₄ db₅ := by
    obtain ⟨target, htarget, hsink⟩ := bind_eq_ok.mp h₅
    exact (findOrCreateTarget_reachable htarget).trans (ensureSink_reachable hsink)
  have r₈ : AdminReachable db₇ db₈ := by
    rw [ensureDefaultProcessorScript] at h₈
    split at h₈
    · cases h₈
      exact .start
    · exact createScript_reachable h₈
  have r₉ : AdminReachable db₈ db₉ := by
    rw [ensureLoadtestProcessorScript] at h₉
    split at h₉
    · cases h₉
      exact .start
    · exact createScript_reachable h₉
  have r₁₀ : AdminReachable db₉ db₁₀ := by
    refine reachable_of_step h₁₀ fun a ha => ⟨.processor .ensureDefaultProjectProcessors, ?_⟩
    rw [AdminOp.run, ProcessorOp.run, ha]
    rfl
  exact ⟨db₇, db₈, db₉,
    r₁.trans <| r₂.trans <| r₃.trans <| r₄.trans <| r₅.trans <|
      (ensureProject_reachable h₆).trans (ensureProject_reachable h₇),
    ⟨h₈, r₈⟩, ⟨h₉, r₉⟩, r₁₀.trans (ensureLoadtestProcessorBinding_reachable h)⟩

/-- **A run of the seed is a sequence of operations** of the repositories. -/
theorem run_reachable {db db' : Database} (h : run db = .ok db') : AdminReachable db db' := by
  obtain ⟨db₇, db₈, db₉, r₇, ⟨-, r₈⟩, ⟨-, r₉⟩, r⟩ := run_split h
  exact r₇.trans <| r₈.trans <| r₉.trans r

/-! ### The seeded scripts -/

omit [SinkBackends] [SerdeText] [DurationCodec] [SeedScripts] in
/-- A script that was made is in the table. -/
theorem createScript_get {db db' : Database} {input : CreateProcessorScriptInput}
    (h : ((ProcessorRepository.createScript db input).mapError SeedError.processor).map Prod.snd =
      .ok db') : ∃ id script, db'.processorScripts.get id = some script ∧
        script.scriptKey = input.scriptKey ∧ script.status = input.status := by
  obtain ⟨a, h⟩ := map_snd_eq_ok.mp h
  rw [mapError_eq_ok] at h
  simp only [ProcessorRepository.createScript, bind_eq_ok, okOr_eq_ok, pure_eq_ok] at h
  obtain ⟨_, _, ⟨id, scripts⟩, hinsert, modules, _, h⟩ := h
  cases h
  obtain ⟨-, -, -, hget⟩ := RowTable.insert?_eq_some hinsert
  exact ⟨id, _, (hget id).trans (if_pos rfl), rfl, rfl⟩

/-- **A database that was seeded has an active default script.** -/
theorem run_defaultActive {db db' : Database} (h : run db = .ok db') : DefaultActive db' := by
  obtain ⟨db₇, db₈, db₉, -, ⟨h₈, -⟩, ⟨-, r₉⟩, r⟩ := run_split h
  refine (r₉.trans r).induct ?_ fun _ _ hchange hdefault => hchange.defaultActive hdefault
  rw [ensureDefaultProcessorScript] at h₈
  split at h₈
  · next runtimeScript hdefault =>
    cases h₈
    obtain ⟨⟨id, script⟩, hfind, -⟩ := bind_eq_ok.mp hdefault
    exact ⟨id, script, findDefaultProcessorScript_eq_ok hfind⟩
  · exact createScript_get h₈

/-- A script with a key is in the table. -/
def HasScript (db : Database) (scriptKey : String) : Prop :=
  ∃ id script, db.processorScripts.get id = some script ∧ script.scriptKey = scriptKey

omit [Engine] [SeedScripts] in
/-- **Scripts are never deleted**, and keep their keys. -/
theorem hasScript_of_change {db db' : Database} {scriptKey : String} (hchange : AdminChange db db')
    (h : HasScript db scriptKey) : HasScript db' scriptKey := by
  cases hchange with
  | project hchange =>
    rw [HasScript, hchange.processors.1]
    exact h
  | eventSink hchange =>
    rw [HasScript, hchange.processors.1]
    exact h
  | processor hchange =>
    obtain ⟨id, script, hscript, hkey⟩ := h
    have hupdated : ∀ {id' : Nat} {existing row : ProcessorScriptRow}
        {scripts : RowTable ProcessorScriptRow}, db.processorScripts.update? id' row = some scripts →
        db.processorScripts.get id' = some existing → row.scriptKey = existing.scriptKey →
        ∃ script', scripts.get id = some script' ∧ script'.scriptKey = scriptKey := by
      intro id' existing row scripts hupdate hget hsame
      obtain ⟨-, -, hget'⟩ := RowTable.update?_eq_some hupdate
      rw [hget', hget]
      by_cases hid : id = id'
      · subst hid
        rw [hscript] at hget
        cases hget
        exact ⟨row, if_pos rfl, hsame.trans hkey⟩
      · exact ⟨script, by rw [if_neg hid, hscript], hkey⟩
    cases hchange with
    | createScript hinsert hmodules hentry =>
      obtain ⟨rfl, -, -, hget⟩ := RowTable.insert?_eq_some hinsert
      refine ⟨id, script, ?_, hkey⟩
      simp only [ProcessorRepository.bumpProcessorScriptsVersion, hget,
        if_neg (Nat.ne_of_lt (RowTable.lt_nextId hscript)), hscript]
    | updateScript hupdate hget hsame hstatus hmodules hentry => exact ⟨id, hupdated hupdate hget hsame⟩
    | updateScriptStatus hupdate hget hstatus => exact ⟨id, hupdated hupdate hget rfl⟩
    | bindDefaults hbind hget hstatus =>
      split
      · exact ⟨id, script, hscript, hkey⟩
      · exact ⟨id, script, hscript, hkey⟩
    | assign hput hget hstatus => exact ⟨id, script, hscript, hkey⟩
    | deleteBinding => exact ⟨id, script, hscript, hkey⟩

omit [SinkBackends] [SerdeText] [DurationCodec] [Engine] [SeedScripts] in
/-- The scripts are found by their keys. -/
theorem findScript_spec {db : Database} {scriptKey : String} {id : Nat} {script : ProcessorScriptRow} :
    findScript db scriptKey = some (id, script) ↔
      db.processorScripts.get id = some script ∧ script.scriptKey = scriptKey := by
  have hunique : ∀ e ∈ db.processorScripts.all, ∀ e' ∈ db.processorScripts.all,
      e.2.scriptKey = e'.2.scriptKey → e = e' := by
    intro e he e' he' hkey
    have hget := RowTable.mem_all.mp he
    have hget' := RowTable.mem_all.mp he'
    have hid := db.processorScripts.unique e.1 e'.1 e.2 e'.2 hget hget'
      (by simp [UniqueIndexes.clash, hkey])
    rw [hid, hget'] at hget
    exact Prod.ext hid (Option.some.inj hget).symm
  have hmem : ∀ e, e ∈ ProcessorRepository.listScripts db ↔ db.processorScripts.get e.1 = some e.2 :=
    fun e => (mem_orderBy hunique).trans RowTable.mem_all
  constructor
  · intro h
    rw [findScript] at h
    exact ⟨(hmem _).mp (List.mem_of_find?_eq_some h), by simpa using List.find?_some h⟩
  · rintro ⟨hget, hkey⟩
    cases hfind : findScript db scriptKey with
    | none =>
      have hnot := List.find?_eq_none.mp hfind (id, script) ((hmem _).mpr hget)
      simp [hkey] at hnot
    | some e =>
      rw [findScript] at hfind
      have hget' := (hmem e).mp (List.mem_of_find?_eq_some hfind)
      have hkey' : e.2.scriptKey = scriptKey := by simpa using List.find?_some hfind
      refine congrArg some (hunique e (RowTable.mem_all.mpr hget') (id, script)
        (RowTable.mem_all.mpr hget) (hkey'.trans hkey.symm))

/-- **A database that was seeded has the script of the load tests.** -/
theorem run_hasScript {db db' : Database} (h : run db = .ok db') :
    HasScript db' "loadtest_blackhole_processor" := by
  obtain ⟨db₇, db₈, db₉, -, -, ⟨h₉, -⟩, r⟩ := run_split h
  refine r.induct ?_ fun _ _ hchange hscript => hasScript_of_change hchange hscript
  rw [ensureLoadtestProcessorScript] at h₉
  split at h₉
  · next e hfind =>
    cases h₉
    exact ⟨e.1, e.2, findScript_spec.mp hfind⟩
  · obtain ⟨id, script, hscript, hkey, -⟩ := createScript_get h₉
    exact ⟨id, script, hscript, hkey⟩

end Seed

end Ingest4x
