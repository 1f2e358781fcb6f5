import Ingest4x.Db.Bindings
import Ingest4x.Db.SeedPhases

/-! # The phase of the processors

The last steps of the seed, on a database of a running server: the scripts are there, every project
gets a binding, and the project of the load tests gets the script of the load tests.

* **`LoadtestScriptActive`** — the databases that the phase accepts.
* **`ProcessorsSeeded`** — the databases that it changes no more. -/

namespace Ingest4x.Seed

open Result Sinks Rhai ProcessorRepository

section Processors

variable [SinkBackends] [SerdeText] [DurationCodec] [Engine] [SeedScripts]

/-! ### Bindings -/

/-- A project has a binding. -/
def Bound (bindings : RowTable ProjectProcessorRow) (projectId : Nat) : Prop :=
  ∃ id row, bindings.get id = some row ∧ row.projectId = projectId

omit [SinkBackends] [SerdeText] [DurationCodec] [Engine] [SeedScripts] in
theorem find?_isSome_iff_bound {bindings : RowTable ProjectProcessorRow} {projectId : Nat} :
    (bindings.find? fun binding => binding.projectId = projectId).isSome = true ↔
      Bound bindings projectId := by
  rw [Option.isSome_iff_ne_none, ne_eq, RowTable.find?_eq_none]
  simp only [not_forall, decide_eq_false_iff_not, not_not, exists_prop, Bound]

omit [SinkBackends] [SerdeText] [DurationCodec] [Engine] [SeedScripts] in
/-- A project without a binding can get one. -/
theorem insert?_of_not_bound {bindings : RowTable ProjectProcessorRow} {row : ProjectProcessorRow}
    (h : ¬Bound bindings row.projectId) : ∃ id bindings', bindings.insert? row = some (id, bindings') ∧
      bindings'.get id = some row ∧
      ∀ id' row', bindings.get id' = some row' → bindings'.get id' = some row' := by
  have hclash : bindings.clashes row = false := by
    rw [RowTable.clashes_eq_false]
    intro id row' hrow'
    have hproject : row'.projectId ≠ row.projectId := fun heq => h ⟨id, row', hrow', heq⟩
    simp [UniqueIndexes.clash, hproject.symm]
  obtain ⟨⟨id, bindings'⟩, hinsert⟩ := Option.isSome_iff_exists.mp (RowTable.isSome_insert?.mpr hclash)
  obtain ⟨rfl, -, -, hget⟩ := RowTable.insert?_eq_some hinsert
  refine ⟨_, bindings', hinsert, (hget _).trans (if_pos rfl), fun id' row' hrow' => ?_⟩
  rw [hget, if_neg (Nat.ne_of_lt (RowTable.lt_nextId hrow')), hrow']

omit [SinkBackends] [SerdeText] [DurationCodec] [Engine] [SeedScripts] in
/-- **Binding the defaults always succeeds**, keeps the bindings, and binds all projects. -/
theorem bindDefaults_isOk (scriptId inserted : Nat) (bindings : RowTable ProjectProcessorRow)
    (projects : List (Nat × ProjectRow)) : ∃ inserted' bindings',
      bindDefaults scriptId inserted bindings projects = .ok (inserted', bindings') ∧
      (∀ id row, bindings.get id = some row → bindings'.get id = some row) ∧
      ∀ e ∈ projects, Bound bindings' e.1 := by
  induction projects generalizing inserted bindings with
  | nil => exact ⟨inserted, bindings, rfl, fun _ _ hrow => hrow, nofun⟩
  | cons project projects ih =>
    rw [bindDefaults]
    cases hfind : bindings.find? fun binding => binding.projectId = project.1 with
    | some found =>
      obtain ⟨inserted', bindings', hok, hkeep, hbound⟩ := ih inserted bindings
      obtain ⟨id, row, hrow, hproject⟩ := find?_isSome_iff_bound.mp
        (hfind ▸ rfl : (bindings.find? fun binding => binding.projectId = project.1).isSome = true)
      exact ⟨inserted', bindings', hok, hkeep,
        List.forall_mem_cons.mpr ⟨⟨id, row, hkeep id row hrow, hproject⟩, hbound⟩⟩
    | none =>
      have hnot : ¬Bound bindings project.1 := by
        rw [← find?_isSome_iff_bound, hfind]
        exact Bool.false_ne_true
      obtain ⟨id, bindings₁, hinsert, hnew, hkeep₁⟩ := insert?_of_not_bound
        (show ¬Bound bindings (ProjectProcessorRow.mk project.1 scriptId true).projectId from hnot)
      obtain ⟨inserted', bindings', hok, hkeep, hbound⟩ := ih (inserted + 1) bindings₁
      simp only [hinsert]
      exact ⟨inserted', bindings', hok, fun id' row' hrow' => hkeep id' row' (hkeep₁ id' row' hrow'),
        List.forall_mem_cons.mpr ⟨⟨id, _, hkeep id _ hnew, rfl⟩, hbound⟩⟩

omit [SinkBackends] [SerdeText] [DurationCodec] [Engine] [SeedScripts] in
/-- Where all projects have a binding, none is made. -/
theorem bindDefaults_of_bound {scriptId inserted : Nat} {bindings : RowTable ProjectProcessorRow}
    {projects : List (Nat × ProjectRow)} (h : ∀ e ∈ projects, Bound bindings e.1) :
    bindDefaults scriptId inserted bindings projects = .ok (inserted, bindings) := by
  induction projects with
  | nil => rfl
  | cons project projects ih =>
    obtain ⟨hproject, hprojects⟩ := List.forall_mem_cons.mp h
    obtain ⟨found, hfind⟩ := Option.isSome_iff_exists.mp (find?_isSome_iff_bound.mpr hproject)
    rw [bindDefaults, hfind]
    exact ih hprojects

omit [SinkBackends] [SerdeText] [DurationCodec] [Engine] [SeedScripts] in
/-- **Putting a binding always succeeds**, and leaves no project without one. -/
theorem putBinding_isOk (db : Database) (row : ProjectProcessorRow) : ∃ bindings,
    putBinding db row = .ok bindings ∧ (∃ id, bindings.get id = some row) ∧
      ∀ projectId, Bound db.projectProcessors projectId → Bound bindings projectId := by
  rw [putBinding]
  cases hfind : findBinding db row.projectId with
  | some found =>
    obtain ⟨id, row₀⟩ := found
    obtain ⟨hget, hp⟩ := RowTable.find?_eq_some hfind
    have hproject : row₀.projectId = row.projectId := of_decide_eq_true hp
    have hclash : db.projectProcessors.clashesBeside id row = false := by
      rw [RowTable.clashesBeside_eq_false]
      intro id' row' hrow' hid
      cases hcl : UniqueIndexes.clash row row' with
      | false => rfl
      | true =>
        refine absurd (db.projectProcessors.unique id' id row' row₀ hrow' hget ?_) hid
        rw [UniqueIndexes.clash_comm]
        simpa [UniqueIndexes.clash, hproject] using hcl
    obtain ⟨bindings, hupdate⟩ := Option.isSome_iff_exists.mp (RowTable.isSome_update?.mpr hclash)
    obtain ⟨-, -, hget'⟩ := RowTable.update?_eq_some hupdate
    have hnew : bindings.get id = some row := by rw [hget', if_pos rfl, hget]; rfl
    refine ⟨bindings, okOr_eq_ok.mpr hupdate, ⟨id, hnew⟩, ?_⟩
    rintro projectId ⟨id', row', hrow', rfl⟩
    by_cases hid : id' = id
    · subst hid
      rw [hget] at hrow'
      cases hrow'
      exact ⟨_, row, hnew, hproject.symm⟩
    · exact ⟨id', row', by rw [hget', if_neg hid, hrow'], rfl⟩
  | none =>
    have hnot : ¬Bound db.projectProcessors row.projectId := by
      rw [← find?_isSome_iff_bound, ← findBinding, hfind]
      exact Bool.false_ne_true
    obtain ⟨id, bindings, hinsert, hnew, hkeep⟩ := insert?_of_not_bound hnot
    refine ⟨bindings, okOr_eq_ok.mpr (by rw [hinsert]; rfl), ⟨id, hnew⟩, ?_⟩
    rintro projectId ⟨id', row', hrow', hproject⟩
    exact ⟨id', row', hkeep id' row' hrow', hproject⟩

omit [SinkBackends] [SerdeText] [DurationCodec] [Engine] [SeedScripts] in
/-- Putting a binding that is there changes nothing. -/
theorem putBinding_self {db : Database} {row : ProjectProcessorRow} {id : Nat}
    (h : db.projectProcessors.get id = some row) : putBinding db row = .ok db.projectProcessors := by
  obtain ⟨⟨id', row'⟩, hfind⟩ := Option.isSome_iff_exists.mp
    (find?_isSome_iff_bound.mpr ⟨id, row, h, rfl⟩)
  obtain ⟨hget, hp⟩ := RowTable.find?_eq_some hfind
  have hproject : row'.projectId = row.projectId := of_decide_eq_true hp
  have hid := db.projectProcessors.unique id' id row' row hget h
    (by simp [UniqueIndexes.clash, hproject])
  subst hid
  rw [putBinding, findBinding, hfind]
  exact okOr_eq_ok.mpr (RowTable.update?_self h)

/-! ### The phase -/

/-- The script of the load tests is active. -/
def LoadtestScriptActive (db : Database) : Prop :=
  ∃ id script, db.processorScripts.get id = some script ∧
    script.scriptKey = "loadtest_blackhole_processor" ∧ script.status = .active

/-- The binding that the last step puts. -/
def loadtestBinding (db : Database) : Option ProjectProcessorRow :=
  (findProjectByIngestToken db "igx_loadtest_token").bind fun project =>
    (findScript db "loadtest_blackhole_processor").map fun script => ⟨project.1, script.1, true⟩

/-- **The databases whose processors the seed changes no more.** -/
structure ProcessorsSeeded (db : Database) : Prop where
  bound : ∀ projectId project, db.projects.get projectId = some project →
    Bound db.projectProcessors projectId
  loadtest : ∃ row, loadtestBinding db = some row ∧ ∃ id, db.projectProcessors.get id = some row
  active : LoadtestScriptActive db

/-- The tables that the phase leaves alone on a running server: all but the bindings. -/
structure OnlyBindings (db db' : Database) : Prop where
  projects : db'.projects = db.projects
  deliveryTargets : db'.deliveryTargets = db.deliveryTargets
  eventSinks : db'.eventSinks = db.eventSinks
  processorScripts : db'.processorScripts = db.processorScripts
  processorScriptModules : db'.processorScriptModules = db.processorScriptModules

omit [SinkBackends] [SerdeText] [DurationCodec] [Engine] [SeedScripts] in
theorem OnlyBindings.loadtestBinding {db db' : Database} (h : OnlyBindings db db') :
    loadtestBinding db' = loadtestBinding db := by
  simp only [Seed.loadtestBinding, findProjectByIngestToken, findScript, listScripts, h.projects,
    h.processorScripts]

omit [SinkBackends] [SerdeText] [DurationCodec] in
/-- **The two scripts are there**, so the first two steps change nothing. -/
theorem ensureScripts_of_seeded {db : Database} (hvalid : ProcessorsValid db)
    (hdefault : DefaultActive db) (hscript : HasScript db "loadtest_blackhole_processor") :
    ensureDefaultProcessorScript db = .ok db ∧ ensureLoadtestProcessorScript db = .ok db := by
  obtain ⟨runtimeScript, hok⟩ := defaultRuntimeScript_isOk hvalid hdefault
  obtain ⟨id, script, hget, hkey⟩ := hscript
  rw [ensureDefaultProcessorScript, hok, ensureLoadtestProcessorScript,
    findScript_spec.mpr ⟨hget, hkey⟩]
  exact ⟨rfl, rfl⟩

omit [SinkBackends] [SerdeText] [DurationCodec] [Engine] [SeedScripts] in
/-- **The step on the default bindings** always succeeds, and binds all projects. -/
theorem ensureDefaultProcessorBindings_spec {db : Database} (hdefault : DefaultActive db) : ∃ db',
    ensureDefaultProcessorBindings db = .ok db' ∧ OnlyBindings db db' ∧
      ∀ projectId project, db.projects.get projectId = some project →
        Bound db'.projectProcessors projectId := by
  obtain ⟨scriptId, script, hfind⟩ := findDefaultProcessorScript_isOk hdefault
  obtain ⟨inserted, bindings, hok, -, hbound⟩ :=
    bindDefaults_isOk scriptId 0 db.projectProcessors db.projects.all
  have hall : ∀ projectId project, db.projects.get projectId = some project →
      Bound bindings projectId := fun projectId project hproject =>
    hbound (projectId, project) (RowTable.mem_all.mpr hproject)
  have hrun : ensureDefaultProcessorBindings db = .ok
      (if 0 < inserted then bumpProcessorScriptsVersion { db with projectProcessors := bindings }
        else { db with projectProcessors := bindings }) := by
    refine map_snd_eq_ok.mpr ⟨inserted, mapError_eq_ok.mpr ?_⟩
    simp only [ensureDefaultProjectProcessors, bind_eq_ok, pure_eq_ok]
    exact ⟨(scriptId, script), hfind, (inserted, bindings), hok, rfl⟩
  refine ⟨_, hrun, ?_, ?_⟩
  · split
    · exact ⟨rfl, rfl, rfl, rfl, rfl⟩
    · exact ⟨rfl, rfl, rfl, rfl, rfl⟩
  · split
    · exact hall
    · exact hall

omit [SinkBackends] [SerdeText] [DurationCodec] [Engine] [SeedScripts] in
/-- Where all projects have a binding, the step changes nothing, and not the version either. -/
theorem ensureDefaultProcessorBindings_of_bound {db : Database} (hdefault : DefaultActive db)
    (hbound : ∀ projectId project, db.projects.get projectId = some project →
      Bound db.projectProcessors projectId) : ensureDefaultProcessorBindings db = .ok db := by
  obtain ⟨scriptId, script, hfind⟩ := findDefaultProcessorScript_isOk hdefault
  have hok : bindDefaults scriptId 0 db.projectProcessors db.projects.all =
      .ok (0, db.projectProcessors) :=
    bindDefaults_of_bound fun e he => hbound e.1 e.2 (RowTable.mem_all.mp he)
  refine map_snd_eq_ok.mpr ⟨0, mapError_eq_ok.mpr ?_⟩
  simp only [ensureDefaultProjectProcessors, bind_eq_ok, pure_eq_ok]
  exact ⟨(scriptId, script), hfind, (0, db.projectProcessors), hok, rfl⟩

omit [SinkBackends] [SerdeText] [DurationCodec] [Engine] [SeedScripts] in
/-- **The last step** succeeds exactly if the script is active. -/
theorem ensureLoadtestProcessorBinding_spec {db : Database}
    (htoken : hasToken db "igx_loadtest_token" = true)
    (hscript : HasScript db "loadtest_blackhole_processor") : ∃ row,
      loadtestBinding db = some row ∧ ∀ db', ensureLoadtestProcessorBinding db = .ok db' ↔
        LoadtestScriptActive db ∧ ∃ bindings, putBinding db row = .ok bindings ∧
          bumpProcessorScriptsVersion { db with projectProcessors := bindings } = db' := by
  obtain ⟨⟨projectId, project⟩, hproject⟩ := Option.isSome_iff_exists.mp htoken
  obtain ⟨scriptId, script, hget, hkey⟩ := hscript
  have hfind := findScript_spec.mpr ⟨hget, hkey⟩
  have hprojectRow := (RowTable.find?_eq_some hproject).1
  have hactive : LoadtestScriptActive db ↔ script.status = .active := by
    refine ⟨fun ⟨id, script', hget', hkey', hactive'⟩ => ?_, fun h => ⟨scriptId, script, hget, hkey, h⟩⟩
    have heq := findScript_spec.mpr ⟨hget', hkey'⟩
    rw [hfind] at heq
    cases heq
    exact hactive'
  refine ⟨⟨projectId, scriptId, true⟩, by rw [loadtestBinding, hproject, hfind]; rfl, fun db' => ?_⟩
  rw [ensureLoadtestProcessorBinding, hproject, hactive]
  simp only [hfind]
  rw [map_snd_eq_ok]
  simp only [mapError_eq_ok, assignProjectProcessor, bind_eq_ok, okOr_eq_ok, ensure_eq_ok, pure_eq_ok,
    ProcessorRepository.findProjectById, findProcessorScriptById]
  constructor
  · rintro ⟨_, _, _, script', hget', _, hstatus, bindings, hput, heq⟩
    rw [hget] at hget'
    cases hget'
    exact ⟨hstatus trivial, bindings, hput, congrArg Prod.snd heq⟩
  · rintro ⟨hstatus, bindings, hput, rfl⟩
    exact ⟨(), project, hprojectRow, script, hget, (), fun _ => hstatus, bindings, hput, rfl⟩

omit [SinkBackends] [SerdeText] [DurationCodec] in
/-- **The phase of the processors**, on a database of a running server, succeeds exactly if the script
of the load tests is active. -/
theorem seedProcessors_spec {db : Database} (hvalid : ProcessorsValid db)
    (hdefault : DefaultActive db) (hscript : HasScript db "loadtest_blackhole_processor")
    (htoken : hasToken db "igx_loadtest_token" = true) :
    ((∃ db', seedProcessors db = .ok db') ↔ LoadtestScriptActive db) ∧
    ∀ db', seedProcessors db = .ok db' → OnlyBindings db db' ∧ ProcessorsSeeded db' := by
  obtain ⟨hdefaultScript, hloadtestScript⟩ := ensureScripts_of_seeded hvalid hdefault hscript
  obtain ⟨db₁, h₁, honly₁, hbound₁⟩ := ensureDefaultProcessorBindings_spec hdefault
  have hsteps : ∀ db', seedProcessors db = .ok db' ↔ ensureLoadtestProcessorBinding db₁ = .ok db' := by
    intro db'
    rw [seedProcessors, hdefaultScript]
    show (ensureLoadtestProcessorScript db >>= _) = _ ↔ _
    rw [hloadtestScript]
    show (ensureDefaultProcessorBindings db >>= _) = _ ↔ _
    rw [h₁]
    rfl
  have htoken₁ : hasToken db₁ "igx_loadtest_token" = true := by
    rw [hasToken, findProjectByIngestToken, honly₁.projects]
    exact htoken
  have hscript₁ : HasScript db₁ "loadtest_blackhole_processor" := by
    rw [HasScript, honly₁.processorScripts]
    exact hscript
  have hactive₁ : LoadtestScriptActive db₁ ↔ LoadtestScriptActive db := by
    rw [LoadtestScriptActive, LoadtestScriptActive, honly₁.processorScripts]
  obtain ⟨row, hrow, hlast⟩ := ensureLoadtestProcessorBinding_spec htoken₁ hscript₁
  obtain ⟨bindings, hput, hin, hkeep⟩ := putBinding_isOk db₁ row
  constructor
  · rw [← hactive₁]
    constructor
    · rintro ⟨db', h⟩
      exact ((hlast db').mp ((hsteps db').mp h)).1
    · intro hactive
      exact ⟨_, (hsteps _).mpr ((hlast _).mpr ⟨hactive, bindings, hput, rfl⟩)⟩
  · intro db' h
    obtain ⟨hactive, bindings', hput', rfl⟩ := (hlast db').mp ((hsteps db').mp h)
    rw [hput] at hput'
    cases hput'
    have honly : OnlyBindings db₁
        (bumpProcessorScriptsVersion { db₁ with projectProcessors := bindings }) :=
      ⟨rfl, rfl, rfl, rfl, rfl⟩
    refine ⟨⟨honly₁.projects, honly₁.deliveryTargets, honly₁.eventSinks, honly₁.processorScripts,
      honly₁.processorScriptModules⟩, ?_, ⟨row, honly.loadtestBinding.trans hrow, hin⟩, hactive⟩
    intro projectId project hproject
    exact hkeep projectId (hbound₁ projectId project (honly₁.projects ▸ hproject))

omit [SinkBackends] [SerdeText] [DurationCodec] in
/-- **The phase changes only the version** where the processors are seeded. -/
theorem seedProcessors_of_seeded {db : Database} (hvalid : ProcessorsValid db)
    (hdefault : DefaultActive db) (h : ProcessorsSeeded db) :
    seedProcessors db = .ok (bumpProcessorScriptsVersion db) := by
  obtain ⟨row, hrow, id, hin⟩ := h.loadtest
  obtain ⟨scriptId, script, hget, hkey, -⟩ := h.active
  obtain ⟨hdefaultScript, hloadtestScript⟩ :=
    ensureScripts_of_seeded hvalid hdefault ⟨scriptId, script, hget, hkey⟩
  have htoken : hasToken db "igx_loadtest_token" = true := by
    obtain ⟨project, hproject, -⟩ := Option.bind_eq_some_iff.mp hrow
    rw [hasToken, hproject]
    rfl
  obtain ⟨row', hrow', hlast⟩ :=
    ensureLoadtestProcessorBinding_spec htoken ⟨scriptId, script, hget, hkey⟩
  rw [hrow] at hrow'
  cases hrow'
  simp only [seedProcessors, bind_eq_ok]
  exact ⟨db, hdefaultScript, db, hloadtestScript, db,
    ensureDefaultProcessorBindings_of_bound hdefault h.bound,
    (hlast _).mpr ⟨h.active, db.projectProcessors, putBinding_self hin, rfl⟩⟩

end Processors

end Ingest4x.Seed
