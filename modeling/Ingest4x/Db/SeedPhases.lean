import Ingest4x.Db.SeedSinks

/-! # The phases of the seed

The seed in three phases: sinks, projects, and processors. For each of them, the databases that it
accepts, what it makes sure of, and the databases that it does not change. -/

namespace Ingest4x.Seed

open Result Sinks Rhai

section Phases

variable [SinkBackends] [SerdeText] [DurationCodec] [Engine] [SeedScripts]

/-- The steps on targets and sinks. -/
def seedSinks (db : Database) : Except SeedError Database := do
  let db ← ensureLocalKafkaDeliveryTarget db
  let db ← ensureLocalParquetDeliveryTarget db
  let db ← ensureDefaultEventSinks db
  let db ← ensureParquetEventSink db
  ensureLoadtestEventSink db

/-- The steps on projects. -/
def seedProjects (db : Database) : Except SeedError Database := do
  let db ← ensureTestProject db
  ensureLoadtestProject db

/-- The steps on scripts and bindings. -/
def seedProcessors (db : Database) : Except SeedError Database := do
  let db ← ensureDefaultProcessorScript db
  let db ← ensureLoadtestProcessorScript db
  let db ← ensureDefaultProcessorBindings db
  ensureLoadtestProcessorBinding db

/-- **The seed is its three phases.** -/
theorem run_eq_ok {db db' : Database} : run db = .ok db' ↔ ∃ db₁ db₂,
    seedSinks db = .ok db₁ ∧ seedProjects db₁ = .ok db₂ ∧ seedProcessors db₂ = .ok db' := by
  simp only [run, seedSinks, seedProjects, seedProcessors, bind_eq_ok]
  constructor
  · rintro ⟨a, ha, b, hb, c, hc, d, hd, e, he, f, hf, g, hg, rest⟩
    exact ⟨e, g, ⟨a, ha, b, hb, c, hc, d, hd, he⟩, ⟨f, hf, hg⟩, rest⟩
  · rintro ⟨e, g, ⟨a, ha, b, hb, c, hc, d, hd, he⟩, ⟨f, hf, hg⟩, rest⟩
    exact ⟨a, ha, b, hb, c, hc, d, hd, e, he, f, hf, g, hg, rest⟩

/-! ### Sinks -/

omit [Engine] [SeedScripts] in
/-- The databases of the repositories have targets of registered types. -/
theorem typesKnown_of_wellFormed {db : Database} (h : SinksWellFormed db) : TypesKnown db := by
  intro targetId type htype
  obtain ⟨id, row, hget, -, rfl⟩ := targetType_eq_some.mp htype
  obtain ⟨provider, hprovider, -⟩ := h.targets id row hget
  exact ⟨provider, hprovider⟩

/-- **The databases whose sinks the seed accepts**: a sink that is missing can be made on the target
that has the id of the seeded one. -/
structure SinksAccepted (db : Database) : Prop where
  defaultSinks : (hasSink db "events" = true ∧ hasSink db "events_error" = true) ∨
    ∀ type, targetType db "default_stdout" = some type → type ∈ acceptsEmpty
  parquetSink : hasSink db "parquet_events" = true ∨
    ∀ type, targetType db "local_parquet" = some type → type = "parquet"
  loadtestSink : hasSink db "loadtest_events" = true ∨
    ∀ type, targetType db "loadtest_blackhole" = some type → type ∈ acceptsEmpty

/-- **The databases whose sinks the seed does not change.** -/
structure SinksSeeded (db : Database) : Prop where
  localKafka : ∃ type, targetType db "local_kafka" = some type
  localParquet : ∃ type, targetType db "local_parquet" = some type
  loadtestBlackhole : ∃ type, targetType db "loadtest_blackhole" = some type
  sinks : ∀ sinkId ∈ ["events", "events_error", "parquet_events", "loadtest_events"],
    hasSink db sinkId = true

omit [Engine] [SeedScripts] in
/-- **The step on the default sinks.** -/
theorem ensureDefaultEventSinks_spec {db : Database} (hknown : TypesKnown db) :
    ((∃ db', ensureDefaultEventSinks db = .ok db') ↔
      (hasSink db "events" = true ∧ hasSink db "events_error" = true) ∨
        ∀ type, targetType db "default_stdout" = some type → type ∈ acceptsEmpty) ∧
    ∀ db', ensureDefaultEventSinks db = .ok db' →
      Ensured ["default_stdout"] ["events", "events_error"] db db' := by
  have hthere : ∀ {sinkId}, (findSink db sinkId).isNone = false ↔ hasSink db sinkId = true := by
    intro sinkId
    rw [hasSink]
    cases findSink db sinkId <;> simp
  have hall : (["events", "events_error"].filter fun sinkId => (findSink db sinkId).isNone) = [] ↔
      hasSink db "events" = true ∧ hasSink db "events_error" = true := by
    rw [List.filter_eq_nil_iff]
    simp only [List.forall_mem_cons, List.not_mem_nil, false_imp_iff, implies_true, and_true,
      Bool.not_eq_true, hthere]
  rw [ensureDefaultEventSinks]
  by_cases hnone : (["events", "events_error"].filter fun sinkId => (findSink db sinkId).isNone) = []
  · rw [if_pos hnone]
    obtain ⟨hevents, herror⟩ := hall.mp hnone
    refine ⟨iff_of_true ⟨db, rfl⟩ (Or.inl ⟨hevents, herror⟩), fun db' h => ?_⟩
    cases h
    exact (Ensured.refl db).weaken (List.nil_subset _) (List.nil_subset _)
      (by simp [hevents, herror])
  · rw [if_neg hnone]
    have hmem : defaultStdout ∈ [localKafka, localParquet, defaultStdout, loadtestBlackhole] := by simp
    obtain ⟨id, db₁, htarget, hensured⟩ := findOrCreateTarget_spec hmem db
    have hfirst := hensured.ensured ⟨_, rfl⟩
    obtain ⟨row, provider, hget, htype, hprovider⟩ := hensured.provider (hfirst.known hknown)
    have hmissing : ∀ sinkId ∈ ["events", "events_error"].filter fun sinkId =>
        (findSink db sinkId).isNone, hasSink db₁ sinkId = false := by
      intro sinkId hin
      have hisNone := (List.mem_filter.mp hin).2
      rw [hensured.sinks, hasSink, ← Option.not_isNone, hisNone]
      rfl
    obtain ⟨hiff, hok⟩ := createSinks_spec hget hprovider
      (fun sinkId hin => by
        have hin' := (List.mem_filter.mp hin).1
        simp only [List.mem_cons, List.not_mem_nil, or_false] at hin'
        rcases hin' with rfl | rfl
        · decide +kernel
        · decide +kernel)
      hmissing ((show ["events", "events_error"].Nodup by decide).filter _)
    rw [htarget]
    constructor
    · have hcannot := mt hall.mpr hnone
      have haccepts : row.targetType ∈ acceptsEmpty ↔ ∀ type,
          targetType db "default_stdout" = some type → type ∈ acceptsEmpty :=
        hensured.accepts (show "stdout" ∈ acceptsEmpty by decide) htype
      rw [or_iff_right hcannot, ← haccepts]
      exact hiff.trans (or_iff_right hnone)
    · intro db' h
      refine (hfirst.trans (hok db' h)).weaken (by simp [defaultStdout])
        (fun sinkId hin => (List.mem_filter.mp hin).1) ?_
      intro sinkId hin
      rw [(hok db' h).sinks, hensured.sinks]
      by_cases hsink : hasSink db sinkId = true
      · exact Or.inr hsink
      · refine Or.inl (List.mem_filter.mpr ⟨hin, ?_⟩)
        rwa [← hthere, Bool.not_eq_false] at hsink

omit [Engine] [SeedScripts] in
/-- **The step on the Parquet sink**, where its target is there. -/
theorem ensureParquetEventSink_spec {db : Database} {duration : Nat}
    (hduration : DurationCodec.parseDuration "60s" = .ok duration) (hknown : TypesKnown db)
    {type : String} (htype : targetType db "local_parquet" = some type) :
    ((∃ db', ensureParquetEventSink db = .ok db') ↔
      hasSink db "parquet_events" = true ∨ type = "parquet") ∧
    ∀ db', ensureParquetEventSink db = .ok db' → Ensured [] ["parquet_events"] db db' := by
  obtain ⟨⟨id, row⟩, hfind, rfl⟩ := Option.map_eq_some_iff.mp htype
  obtain ⟨hget, -⟩ := findTarget_eq_some.mp hfind
  obtain ⟨provider, hprovider⟩ := hknown _ _ htype
  obtain ⟨hmem, hprovided⟩ := providerFor_eq_some hprovider
  rw [ensureParquetEventSink, hfind]
  have hid : validateEventSinkId "parquet_events" = .ok () := by decide +kernel
  obtain ⟨hiff, hok⟩ := ensureSink_spec (show validateEventSinkId
    (sinkInput "parquet_events" "Parquet Events" id parquetDestination).sinkId = .ok () from hid)
    hget hprovider
  refine ⟨hiff.trans ?_, fun db' h => (hok db' h).ensured⟩
  rw [← hprovided]
  exact or_congr_right (normalizeEventSinkConfig_parquet hduration hmem)

omit [Engine] [SeedScripts] in
/-- **The step on the sink of the load tests.** -/
theorem ensureLoadtestEventSink_spec {db : Database} (hknown : TypesKnown db) :
    ((∃ db', ensureLoadtestEventSink db = .ok db') ↔ hasSink db "loadtest_events" = true ∨
      ∀ type, targetType db "loadtest_blackhole" = some type → type ∈ acceptsEmpty) ∧
    ∀ db', ensureLoadtestEventSink db = .ok db' →
      Ensured ["loadtest_blackhole"] ["loadtest_events"] db db' ∧
        ∃ type, targetType db' "loadtest_blackhole" = some type := by
  have hmem : loadtestBlackhole ∈ [localKafka, localParquet, defaultStdout, loadtestBlackhole] := by
    simp
  obtain ⟨id, db₁, htarget, hensured⟩ := findOrCreateTarget_spec hmem db
  have hfirst := hensured.ensured ⟨_, rfl⟩
  obtain ⟨row, provider, hget, htype, hprovider⟩ := hensured.provider (hfirst.known hknown)
  obtain ⟨hmemProvider, hprovided⟩ := providerFor_eq_some hprovider
  rw [ensureLoadtestEventSink, htarget]
  have hid : validateEventSinkId "loadtest_events" = .ok () := by decide +kernel
  obtain ⟨hiff, hok⟩ := ensureSink_spec (show validateEventSinkId
    (sinkInput "loadtest_events" "Loadtest Events" id (.object [])).sinkId = .ok () from hid)
    hget hprovider
  have haccepts : row.targetType ∈ acceptsEmpty ↔ ∀ type,
      targetType db "loadtest_blackhole" = some type → type ∈ acceptsEmpty :=
    hensured.accepts (show "blackhole" ∈ acceptsEmpty by decide) htype
  constructor
  · refine hiff.trans ?_
    rw [hensured.sinks, ← haccepts, ← hprovided]
    exact or_congr_right (normalizeEventSinkConfig_empty hmemProvider)
  · intro db' h
    have hlast := (hok db' h).ensured
    exact ⟨hfirst.trans hlast, row.targetType, hlast.keeps _ _ htype⟩

omit [Engine] [SeedScripts] in
/-- **The phase of the sinks** succeeds exactly for the databases that are accepted. -/
theorem seedSinks_spec {db : Database} {duration : Nat}
    (hduration : DurationCodec.parseDuration "60s" = .ok duration) (hknown : TypesKnown db) :
    ((∃ db', seedSinks db = .ok db') ↔ SinksAccepted db) ∧
    ∀ db', seedSinks db = .ok db' → SinksSeeded db' ∧ OnlySinks db db' := by
  -- The two targets are always made sure of, so only the three steps on sinks can fail.
  obtain ⟨id₁, db₁, h₁, e₁⟩ := findOrCreateTarget_spec
    (show localKafka ∈ [localKafka, localParquet, defaultStdout, loadtestBlackhole] by simp) db
  obtain ⟨id₂, db₂, h₂, e₂⟩ := findOrCreateTarget_spec
    (show localParquet ∈ [localKafka, localParquet, defaultStdout, loadtestBlackhole] by simp) db₁
  have hensured := (e₁.ensured ⟨_, rfl⟩).trans (e₂.ensured ⟨_, rfl⟩)
  have hknown₂ := hensured.known hknown
  have hsteps : ∀ db', seedSinks db = .ok db' ↔ ∃ db₃, ensureDefaultEventSinks db₂ = .ok db₃ ∧
      ∃ db₄, ensureParquetEventSink db₃ = .ok db₄ ∧ ensureLoadtestEventSink db₄ = .ok db' := by
    intro db'
    simp only [seedSinks, bind_eq_ok, ensureLocalKafkaDeliveryTarget,
      ensureLocalParquetDeliveryTarget, map_snd_eq_ok]
    constructor
    · rintro ⟨a, ⟨_, ha⟩, b, ⟨_, hb⟩, rest⟩
      rw [h₁] at ha
      cases ha
      rw [h₂] at hb
      cases hb
      exact rest
    · rintro rest
      exact ⟨db₁, ⟨id₁, h₁⟩, db₂, ⟨id₂, h₂⟩, rest⟩
  obtain ⟨row₂, -, -, htype₂, -⟩ := e₂.provider hknown₂
  have hparquet : row₂.targetType = "parquet" ↔
      ∀ type, targetType db "local_parquet" = some type → type = "parquet" := by
    have haccepts : row₂.targetType ∈ ["parquet"] ↔ ∀ type,
        targetType db₁ "local_parquet" = some type → type ∈ ["parquet"] :=
      e₂.accepts (show "parquet" ∈ ["parquet"] by simp) htype₂
    rw [(e₁.ensured ⟨_, rfl⟩).targetTypes "local_parquet" (by decide)] at haccepts
    simpa only [List.mem_singleton] using haccepts
  obtain ⟨hiff₃, hok₃⟩ := ensureDefaultEventSinks_spec hknown₂
  have hcond₃ : ((hasSink db₂ "events" = true ∧ hasSink db₂ "events_error" = true) ∨
      ∀ type, targetType db₂ "default_stdout" = some type → type ∈ acceptsEmpty) ↔
      ((hasSink db "events" = true ∧ hasSink db "events_error" = true) ∨
      ∀ type, targetType db "default_stdout" = some type → type ∈ acceptsEmpty) := by
    rw [hensured.targetTypes "default_stdout" (by decide), hensured.sinks, hensured.sinks]
    simp
  -- The later steps see of the earlier ones only what these made sure of.
  have hstep₄ : ∀ db₃, ensureDefaultEventSinks db₂ = .ok db₃ →
      ((∃ db₄, ensureParquetEventSink db₃ = .ok db₄) ↔ hasSink db "parquet_events" = true ∨
        ∀ type, targetType db "local_parquet" = some type → type = "parquet") ∧
      ∀ db₄, ensureParquetEventSink db₃ = .ok db₄ → Ensured [] ["parquet_events"] db₃ db₄ := by
    intro db₃ h₃
    have e₃ := hok₃ db₃ h₃
    obtain ⟨hiff₄, hok₄⟩ := ensureParquetEventSink_spec hduration (e₃.known hknown₂)
      (e₃.keeps _ _ htype₂)
    refine ⟨?_, hok₄⟩
    rw [hiff₄, hparquet, e₃.sinks, hensured.sinks]
    simp
  have hstep₅ : ∀ db₃ db₄, ensureDefaultEventSinks db₂ = .ok db₃ →
      ensureParquetEventSink db₃ = .ok db₄ →
      ((∃ db', ensureLoadtestEventSink db₄ = .ok db') ↔ hasSink db "loadtest_events" = true ∨
        ∀ type, targetType db "loadtest_blackhole" = some type → type ∈ acceptsEmpty) ∧
      ∀ db', ensureLoadtestEventSink db₄ = .ok db' →
        Ensured ["loadtest_blackhole"] ["loadtest_events"] db₄ db' ∧
          ∃ type, targetType db' "loadtest_blackhole" = some type := by
    intro db₃ db₄ h₃ h₄
    have e₄ := (hok₃ db₃ h₃).trans ((hstep₄ db₃ h₃).2 db₄ h₄)
    obtain ⟨hiff₅, hok₅⟩ := ensureLoadtestEventSink_spec (e₄.known hknown₂)
    refine ⟨?_, hok₅⟩
    rw [hiff₅, e₄.targetTypes "loadtest_blackhole" (by decide),
      hensured.targetTypes "loadtest_blackhole" (by decide), e₄.sinks, hensured.sinks]
    simp
  constructor
  · constructor
    · rintro ⟨db', h⟩
      obtain ⟨db₃, h₃, db₄, h₄, h₅⟩ := (hsteps db').mp h
      exact ⟨hcond₃.mp (hiff₃.mp ⟨db₃, h₃⟩), (hstep₄ db₃ h₃).1.mp ⟨db₄, h₄⟩,
        (hstep₅ db₃ db₄ h₃ h₄).1.mp ⟨db', h₅⟩⟩
    · rintro ⟨hdefault, hparquetSink, hloadtest⟩
      obtain ⟨db₃, h₃⟩ := hiff₃.mpr (hcond₃.mpr hdefault)
      obtain ⟨db₄, h₄⟩ := (hstep₄ db₃ h₃).1.mpr hparquetSink
      obtain ⟨db', h₅⟩ := (hstep₅ db₃ db₄ h₃ h₄).1.mpr hloadtest
      exact ⟨db', (hsteps db').mpr ⟨db₃, h₃, db₄, h₄, h₅⟩⟩
  · intro db' h
    obtain ⟨db₃, h₃, db₄, h₄, h₅⟩ := (hsteps db').mp h
    have e₃ := hok₃ db₃ h₃
    have e₄ := (hstep₄ db₃ h₃).2 db₄ h₄
    obtain ⟨e₅, hloadtestTarget⟩ := (hstep₅ db₃ db₄ h₃ h₄).2 db' h₅
    have hlater := e₃.trans (e₄.trans e₅)
    refine ⟨⟨?_, ?_, hloadtestTarget, ?_⟩, hensured.frame.trans hlater.frame⟩
    · obtain ⟨row₁, hget₁, hid₁⟩ := e₁.target
      exact ⟨row₁.targetType, hlater.keeps _ _ ((e₂.ensured ⟨_, rfl⟩).keeps _ _
        (targetType_eq_some.mpr ⟨id₁, row₁, hget₁, hid₁, rfl⟩))⟩
    · exact ⟨row₂.targetType, hlater.keeps _ _ htype₂⟩
    · intro sinkId hin
      exact (hlater.sinks sinkId).mpr (Or.inl (by simpa using hin))

omit [Engine] [SeedScripts] in
/-- **The phase of the sinks changes nothing** where they are seeded. -/
theorem seedSinks_of_seeded {db : Database} (h : SinksSeeded db) : seedSinks db = .ok db := by
  have htarget : ∀ (input : CreateDeliveryTargetInput) {type : String},
      targetType db input.targetId = some type → ∃ id, findOrCreateTarget db input = .ok (id, db) := by
    intro input type htype
    obtain ⟨⟨id, row⟩, hfind, -⟩ := Option.map_eq_some_iff.mp htype
    exact ⟨id, by rw [findOrCreateTarget, hfind]⟩
  have hsink : ∀ {input : CreateEventSinkInput}, hasSink db input.sinkId = true →
      ensureSink db input = .ok db := by
    intro input hthere
    obtain ⟨found, hfind⟩ := Option.isSome_iff_exists.mp hthere
    rw [ensureSink, hfind]
  obtain ⟨_, hkafka⟩ := h.localKafka
  obtain ⟨_, hparquet⟩ := h.localParquet
  obtain ⟨_, hloadtest⟩ := h.loadtestBlackhole
  obtain ⟨id₁, h₁⟩ := htarget localKafka hkafka
  obtain ⟨id₂, h₂⟩ := htarget localParquet hparquet
  obtain ⟨id₅, h₅⟩ := htarget loadtestBlackhole hloadtest
  have h₃ : ensureDefaultEventSinks db = .ok db := by
    rw [ensureDefaultEventSinks, if_pos]
    rw [List.filter_eq_nil_iff]
    intro sinkId hin hisNone
    have hthere := h.sinks sinkId (List.mem_append_left ["parquet_events", "loadtest_events"] hin)
    rw [hasSink, ← Option.not_isNone, hisNone] at hthere
    cases hthere
  have h₄ : ensureParquetEventSink db = .ok db := by
    obtain ⟨⟨id, row⟩, hfind, -⟩ := Option.map_eq_some_iff.mp hparquet
    rw [ensureParquetEventSink, hfind]
    exact hsink (h.sinks "parquet_events" (by simp))
  simp only [seedSinks, bind_eq_ok, ensureLocalKafkaDeliveryTarget, ensureLocalParquetDeliveryTarget,
    map_snd_eq_ok]
  refine ⟨db, ⟨id₁, h₁⟩, db, ⟨id₂, h₂⟩, db, h₃, db, h₄, ?_⟩
  rw [ensureLoadtestEventSink, h₅]
  exact hsink (h.sinks "loadtest_events" (by simp))

omit [SinkBackends] [SerdeText] [DurationCodec] [Engine] [SeedScripts] in
/-- Where the sinks are seeded is a matter of the targets and the sinks. -/
theorem SinksSeeded.congr {db db' : Database} (h : SinksSeeded db)
    (htargets : db'.deliveryTargets = db.deliveryTargets) (hsinks : db'.eventSinks = db.eventSinks) :
    SinksSeeded db' := by
  have htype : targetType db' = targetType db := by
    funext targetId
    rw [targetType, findTarget, htargets]
    rfl
  have hsink : hasSink db' = hasSink db := by
    funext sinkId
    rw [hasSink, findSink, hsinks]
    rfl
  exact ⟨htype ▸ h.localKafka, htype ▸ h.localParquet, htype ▸ h.loadtestBlackhole, hsink ▸ h.sinks⟩

/-! ### Projects -/

/-- A project with a token is there. -/
def hasToken (db : Database) (ingestToken : String) : Bool :=
  (findProjectByIngestToken db ingestToken).isSome

/-- A project with a key is there. -/
def hasKey (db : Database) (projectKey : String) : Bool :=
  (db.projects.find? fun project => project.projectKey = projectKey).isSome

/-- **The databases whose projects the seed accepts**: a seeded token that is missing does not come
with a key that is taken. -/
structure ProjectsAccepted (db : Database) : Prop where
  testProject : hasToken db "igx_local_test_token" = true ∨ hasKey db "test_app" = false
  loadtestProject : hasToken db "igx_loadtest_token" = true ∨ hasKey db "loadtest_app" = false

/-- The tables that operations on projects leave alone, deletions apart. -/
structure OnlyProjects (db db' : Database) : Prop where
  deliveryTargets : db'.deliveryTargets = db.deliveryTargets
  eventSinks : db'.eventSinks = db.eventSinks
  processorScripts : db'.processorScripts = db.processorScripts
  processorScriptModules : db'.processorScriptModules = db.processorScriptModules
  projectProcessors : db'.projectProcessors = db.projectProcessors

omit [SinkBackends] [SerdeText] [DurationCodec] [Engine] [SeedScripts] in
theorem OnlyProjects.trans {db₁ db₂ db₃ : Database} (h : OnlyProjects db₁ db₂)
    (h' : OnlyProjects db₂ db₃) : OnlyProjects db₁ db₃ :=
  ⟨h'.deliveryTargets.trans h.deliveryTargets, h'.eventSinks.trans h.eventSinks,
    h'.processorScripts.trans h.processorScripts,
    h'.processorScriptModules.trans h.processorScriptModules,
    h'.projectProcessors.trans h.projectProcessors⟩

omit [SinkBackends] [SerdeText] [DurationCodec] [Engine] [SeedScripts] in
theorem hasToken_eq_true {db : Database} {ingestToken : String} : hasToken db ingestToken = true ↔
    ∃ id row, db.projects.get id = some row ∧ row.ingestToken = ingestToken := by
  rw [hasToken, findProjectByIngestToken, Option.isSome_iff_ne_none, ne_eq, RowTable.find?_eq_none]
  simp only [not_forall, decide_eq_false_iff_not, not_not, exists_prop]

omit [SinkBackends] [SerdeText] [DurationCodec] [Engine] [SeedScripts] in
theorem hasKey_eq_true {db : Database} {projectKey : String} : hasKey db projectKey = true ↔
    ∃ id row, db.projects.get id = some row ∧ row.projectKey = projectKey := by
  rw [hasKey, Option.isSome_iff_ne_none, ne_eq, RowTable.find?_eq_none]
  simp only [not_forall, decide_eq_false_iff_not, not_not, exists_prop]

omit [SinkBackends] [SerdeText] [DurationCodec] [Engine] [SeedScripts] in
/-- **The step on a project** succeeds exactly if its token is there or its key is free. -/
theorem ensureProject_spec {db : Database} {name ingestToken : String}
    (htoken : ProjectRepository.checkedToken ingestToken = .ok ingestToken)
    (hname : ProjectRepository.projectKeyFromName name "" = name) :
    ((∃ db', ensureProject db name ingestToken = .ok db') ↔
      hasToken db ingestToken = true ∨ hasKey db name = false) ∧
    ∀ db', ensureProject db name ingestToken = .ok db' → OnlyProjects db db' ∧
      (∀ token, hasToken db' token = true ↔ token = ingestToken ∨ hasToken db token = true) ∧
      ∀ key ≠ name, hasKey db' key = hasKey db key := by
  rw [ensureProject]
  cases hfind : findProjectByIngestToken db ingestToken with
  | some found =>
    have hthere : hasToken db ingestToken = true := by rw [hasToken, hfind]; rfl
    refine ⟨iff_of_true ⟨db, rfl⟩ (Or.inl hthere), fun db' h => ?_⟩
    cases h
    refine ⟨⟨rfl, rfl, rfl, rfl, rfl⟩, fun token => ⟨Or.inr, ?_⟩, fun _ _ => rfl⟩
    rintro (rfl | h)
    · exact hthere
    · exact h
  | none =>
    have hmissing : hasToken db ingestToken = false := by rw [hasToken, hfind]; rfl
    let row : ProjectRow := ⟨ingestToken, name, .token, [], name, true⟩
    have hcreate : ∀ r, ProjectRepository.createProject db "" ⟨name, true, ingestToken⟩ = .ok r ↔
        ∃ id projects, db.projects.insert? row = some (id, projects) ∧
          (id, ProjectRepository.bumpProjectsVersion { db with projects := projects }) = r := by
      intro r
      simp only [ProjectRepository.createProject, ProjectRepository.createProjectWithIngestSettings,
        bind_eq_ok, okOr_eq_ok, pure_eq_ok, htoken, UpdateProjectIngestSettingsInput.unchanged,
        ProjectRepository.updatedProjectKey, hname]
      constructor
      · rintro ⟨token, htoken', key, hkey, ⟨id, projects⟩, hinsert, hr⟩
        cases htoken'
        cases hkey
        exact ⟨id, projects, hinsert, hr⟩
      · rintro ⟨id, projects, hinsert, hr⟩
        exact ⟨ingestToken, rfl, name, rfl, (id, projects), hinsert, hr⟩
    have hclash : db.projects.clashes row = false ↔ hasKey db name = false := by
      rw [RowTable.clashes_eq_false, ← Bool.not_eq_true, hasKey_eq_true]
      constructor
      · rintro hall ⟨id, row', hrow', hkey⟩
        have hnot := hall id row' hrow'
        simp [UniqueIndexes.clash, row, hkey] at hnot
      · intro hnone id row' hrow'
        have htoken' : row'.ingestToken ≠ ingestToken := fun heq =>
          Bool.false_ne_true (hmissing.symm.trans (hasToken_eq_true.mpr ⟨id, row', hrow', heq⟩))
        have hkey' : row'.projectKey ≠ name := fun heq => hnone ⟨id, row', hrow', heq⟩
        simp [UniqueIndexes.clash, row, htoken'.symm, hkey'.symm]
    constructor
    · rw [hmissing, or_iff_right Bool.false_ne_true, ← hclash, ← RowTable.isSome_insert?]
      constructor
      · rintro ⟨db', h⟩
        obtain ⟨a, h⟩ := map_snd_eq_ok.mp h
        obtain ⟨id, projects, hinsert, -⟩ := (hcreate _).mp (mapError_eq_ok.mp h)
        rw [hinsert]
        rfl
      · intro hsome
        obtain ⟨⟨id, projects⟩, hinsert⟩ := Option.isSome_iff_exists.mp hsome
        exact ⟨_, map_snd_eq_ok.mpr ⟨id, mapError_eq_ok.mpr
          ((hcreate _).mpr ⟨id, projects, hinsert, rfl⟩)⟩⟩
    · intro db' h
      obtain ⟨a, h⟩ := map_snd_eq_ok.mp h
      obtain ⟨id, projects, hinsert, heq⟩ := (hcreate _).mp (mapError_eq_ok.mp h)
      cases heq
      obtain ⟨rfl, -, -, hget⟩ := RowTable.insert?_eq_some hinsert
      have hold : ∀ id' row', db.projects.get id' = some row' → projects.get id' = some row' := by
        intro id' row' hrow'
        rw [hget, if_neg (Nat.ne_of_lt (RowTable.lt_nextId hrow')), hrow']
      have hnew : ∀ id' row', projects.get id' = some row' →
          row' = row ∨ db.projects.get id' = some row' := by
        intro id' row' hrow'
        rw [hget] at hrow'
        split at hrow'
        · exact Or.inl (Option.some.inj hrow').symm
        · exact Or.inr hrow'
      refine ⟨⟨rfl, rfl, rfl, rfl, rfl⟩, fun token => ?_, fun key hne => ?_⟩
      · rw [hasToken_eq_true, hasToken_eq_true]
        constructor
        · rintro ⟨id', row', hrow', rfl⟩
          rcases hnew id' row' hrow' with rfl | hrow
          · exact Or.inl rfl
          · exact Or.inr ⟨id', row', hrow, rfl⟩
        · rintro (rfl | ⟨id', row', hrow', rfl⟩)
          · exact ⟨_, row, (hget _).trans (if_pos rfl), rfl⟩
          · exact ⟨id', row', hold id' row' hrow', rfl⟩
      · rw [Bool.eq_iff_iff, hasKey_eq_true, hasKey_eq_true]
        constructor
        · rintro ⟨id', row', hrow', rfl⟩
          rcases hnew id' row' hrow' with rfl | hrow
          · exact absurd rfl hne
          · exact ⟨id', row', hrow, rfl⟩
        · rintro ⟨id', row', hrow', rfl⟩
          exact ⟨id', row', hold id' row' hrow', rfl⟩

omit [SinkBackends] [SerdeText] [DurationCodec] [Engine] [SeedScripts] in
/-- **The phase of the projects** succeeds exactly for the databases that are accepted. -/
theorem seedProjects_spec {db : Database} :
    ((∃ db', seedProjects db = .ok db') ↔ ProjectsAccepted db) ∧
    ∀ db', seedProjects db = .ok db' → OnlyProjects db db' ∧
      hasToken db' "igx_local_test_token" = true ∧ hasToken db' "igx_loadtest_token" = true := by
  obtain ⟨hiff₁, hok₁⟩ := @ensureProject_spec db "test_app" "igx_local_test_token"
    (by decide +kernel) (by decide +kernel)
  have hspec₂ := fun db₁ => @ensureProject_spec db₁ "loadtest_app" "igx_loadtest_token"
    (by decide +kernel) (by decide +kernel)
  have hsteps : ∀ db', seedProjects db = .ok db' ↔ ∃ db₁,
      ensureProject db "test_app" "igx_local_test_token" = .ok db₁ ∧
        ensureProject db₁ "loadtest_app" "igx_loadtest_token" = .ok db' := fun db' => bind_eq_ok
  -- The first step makes neither the token nor the key that the second one looks for.
  have hcond₂ : ∀ db₁, ensureProject db "test_app" "igx_local_test_token" = .ok db₁ →
      ((∃ db', ensureProject db₁ "loadtest_app" "igx_loadtest_token" = .ok db') ↔
        hasToken db "igx_loadtest_token" = true ∨ hasKey db "loadtest_app" = false) := by
    intro db₁ h₁
    obtain ⟨-, htokens, hkeys⟩ := hok₁ db₁ h₁
    rw [(hspec₂ db₁).1, htokens, hkeys "loadtest_app" (by decide),
      or_iff_right (show ¬"igx_loadtest_token" = "igx_local_test_token" by decide)]
  constructor
  · constructor
    · rintro ⟨db', h⟩
      obtain ⟨db₁, h₁, h₂⟩ := (hsteps db').mp h
      exact ⟨hiff₁.mp ⟨db₁, h₁⟩, (hcond₂ db₁ h₁).mp ⟨db', h₂⟩⟩
    · rintro ⟨htest, hloadtest⟩
      obtain ⟨db₁, h₁⟩ := hiff₁.mpr htest
      obtain ⟨db', h₂⟩ := (hcond₂ db₁ h₁).mpr hloadtest
      exact ⟨db', (hsteps db').mpr ⟨db₁, h₁, h₂⟩⟩
  · intro db' h
    obtain ⟨db₁, h₁, h₂⟩ := (hsteps db').mp h
    obtain ⟨honly₁, htokens₁, -⟩ := hok₁ db₁ h₁
    obtain ⟨honly₂, htokens₂, -⟩ := (hspec₂ db₁).2 db' h₂
    exact ⟨honly₁.trans honly₂, (htokens₂ _).mpr (Or.inr ((htokens₁ _).mpr (Or.inl rfl))),
      (htokens₂ _).mpr (Or.inl rfl)⟩

omit [SinkBackends] [SerdeText] [DurationCodec] [Engine] [SeedScripts] in
/-- **The phase of the projects changes nothing** where their tokens are there. -/
theorem seedProjects_of_seeded {db : Database} (htest : hasToken db "igx_local_test_token" = true)
    (hloadtest : hasToken db "igx_loadtest_token" = true) : seedProjects db = .ok db := by
  have hensure : ∀ name ingestToken, hasToken db ingestToken = true →
      ensureProject db name ingestToken = .ok db := by
    intro name ingestToken hthere
    obtain ⟨found, hfind⟩ := Option.isSome_iff_exists.mp hthere
    rw [ensureProject, hfind]
  exact bind_eq_ok.mpr ⟨db, hensure _ _ htest, hensure _ _ hloadtest⟩

end Phases

end Ingest4x.Seed
