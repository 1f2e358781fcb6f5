import Ingest4x.Repositories.EventSinks
import Ingest4x.Repositories.Processors

/-! # Bindings stay valid

What the operations of the three repositories keep: an enabled binding leads to an active script, a
script has its entry module, and the default script stays active.

* **`AdminOp`** — an operation of one of the repositories; **`AdminChange`** — what one that succeeds
  does.
* **`ProcessorsValid`**, **`DefaultActive`** — the invariant.
* The scripts that run, where the invariant holds. -/

namespace Ingest4x

open Result Sinks Rhai ProcessorRepository

/-! ### Operations -/

/-- An operation of `ProcessorRepository` with its input. -/
inductive ProcessorOp
  | createScript (input : CreateProcessorScriptInput)
  | updateScript (id : Nat) (input : UpdateProcessorScriptInput)
  | updateScriptStatus (id : Nat) (status : ProcessorScriptStatus)
  | assignDefaultProcessor (projectId : Nat)
  | ensureDefaultProjectProcessors
  | assignProjectProcessor (projectId processorScriptId : Nat) (enabled : Bool)
  | deleteProjectProcessor (projectId : Nat)

variable [Engine]

/-- What an operation makes of the database. -/
def ProcessorOp.run (db : Database) : ProcessorOp → Except ProcessorRepositoryError Database
  | .createScript input => (ProcessorRepository.createScript db input).map Prod.snd
  | .updateScript id input => (ProcessorRepository.updateScript db id input).map Prod.snd
  | .updateScriptStatus id status =>
    (ProcessorRepository.updateScriptStatus db id status).map Prod.snd
  | .assignDefaultProcessor projectId =>
    (findDefaultProcessorScript db).bind fun script =>
      (ProcessorRepository.assignProjectProcessor db projectId script.1 true).map Prod.snd
  | .ensureDefaultProjectProcessors =>
    (ProcessorRepository.ensureDefaultProjectProcessors db).map Prod.snd
  | .assignProjectProcessor projectId processorScriptId enabled =>
    (ProcessorRepository.assignProjectProcessor db projectId processorScriptId enabled).map Prod.snd
  | .deleteProjectProcessor projectId =>
    (ProcessorRepository.deleteProjectProcessor db projectId).map Prod.snd

/-- A script may leave the active status: it is not the default, and no enabled binding leads to it. -/
def CanBeDisabled (db : Database) (id : Nat) (script : ProcessorScriptRow) : Prop :=
  script.scriptKey ≠ defaultProcessorScriptKey ∧
    ∀ bindingId binding, db.projectProcessors.get bindingId = some binding →
      binding.enabled = true → binding.processorScriptId ≠ id

omit [Engine] in
theorem ensureStatusChange_eq_ok {db : Database} {id : Nat} {script : ProcessorScriptRow}
    {status : ProcessorScriptStatus} {u : Unit} (h : ensureStatusChange db id script status = .ok u) :
    status = .active ∨ CanBeDisabled db id script := by
  rw [ensureStatusChange] at h
  split at h
  · next hstatus => exact Or.inl hstatus
  · simp only [ensureProcessorScriptCanBeDisabled, bind_eq_ok, ensure_eq_ok] at h
    obtain ⟨_, hkey, hnone⟩ := h
    refine Or.inr ⟨hkey, fun bindingId binding hbinding henabled heq => ?_⟩
    simpa [heq, henabled] using RowTable.find?_eq_none.mp hnone bindingId binding hbinding

/-- A list of modules has an entry module. -/
def HasEntry (entryModule : String) (modules : List ProcessorScriptModuleInput) : Prop :=
  ∃ module ∈ modules, module.moduleName = entryModule

/-- A script that is saved has its entry module. -/
theorem validateScriptInput_hasEntry {entryModule : String}
    {modules : List ProcessorScriptModuleInput} {sinkTargets : List String} {u : Unit}
    (h : validateScriptInput entryModule modules sinkTargets = .ok u) :
    HasEntry entryModule modules := by
  simp only [validateScriptInput, bind_eq_ok, okOr_eq_ok] at h
  obtain ⟨_, _, _, _, entry, hentry, _⟩ := h
  exact ⟨entry, List.mem_of_find?_eq_some hentry, by simpa using List.find?_some hentry⟩

/-- **What an operation on processors that succeeds does.** -/
inductive ProcessorsChange (db : Database) : Database → Prop
  | createScript {row : ProcessorScriptRow} {id : Nat} {scripts : RowTable ProcessorScriptRow}
      {inputs : List ProcessorScriptModuleInput} {modules : RowTable ProcessorScriptModuleRow}
      (hinsert : db.processorScripts.insert? row = some (id, scripts))
      (hmodules : insertModules id db.processorScriptModules inputs = .ok modules)
      (hentry : HasEntry row.entryModule inputs) :
      ProcessorsChange db (bumpProcessorScriptsVersion { db with
        processorScripts := scripts
        processorScriptModules := modules })
  | updateScript {id : Nat} {existing row : ProcessorScriptRow} {scripts : RowTable ProcessorScriptRow}
      {inputs : List ProcessorScriptModuleInput} {modules : RowTable ProcessorScriptModuleRow}
      (hupdate : db.processorScripts.update? id row = some scripts)
      (hget : db.processorScripts.get id = some existing) (hkey : row.scriptKey = existing.scriptKey)
      (hstatus : row.status = .active ∨ CanBeDisabled db id existing)
      (hmodules : insertModules id
        (db.processorScriptModules.deleteWhere fun _ module => module.processorScriptId = id)
        inputs = .ok modules)
      (hentry : HasEntry row.entryModule inputs) :
      ProcessorsChange db (bumpProcessorScriptsVersion { db with
        processorScripts := scripts
        processorScriptModules := modules })
  | updateScriptStatus {id : Nat} {existing : ProcessorScriptRow} {status : ProcessorScriptStatus}
      {scripts : RowTable ProcessorScriptRow}
      (hupdate : db.processorScripts.update? id { existing with status := status } = some scripts)
      (hget : db.processorScripts.get id = some existing)
      (hstatus : status = .active ∨ CanBeDisabled db id existing) :
      ProcessorsChange db (bumpProcessorScriptsVersion { db with processorScripts := scripts })
  | bindDefaults {scriptId inserted : Nat} {script : ProcessorScriptRow}
      {bindings : RowTable ProjectProcessorRow}
      (hbind : bindDefaults scriptId 0 db.projectProcessors db.projects.all = .ok (inserted, bindings))
      (hget : db.processorScripts.get scriptId = some script) (hstatus : script.status = .active) :
      ProcessorsChange db
        (if 0 < inserted then bumpProcessorScriptsVersion { db with projectProcessors := bindings }
        else { db with projectProcessors := bindings })
  | assign {row : ProjectProcessorRow} {script : ProcessorScriptRow}
      {bindings : RowTable ProjectProcessorRow} (hput : putBinding db row = .ok bindings)
      (hget : db.processorScripts.get row.processorScriptId = some script)
      (hstatus : row.enabled = true → script.status = .active) :
      ProcessorsChange db (bumpProcessorScriptsVersion { db with projectProcessors := bindings })
  | deleteBinding {projectId : Nat} :
      ProcessorsChange db (bumpProcessorScriptsVersion { db with
        projectProcessors := db.projectProcessors.deleteWhere fun _ binding =>
          binding.projectId = projectId })

omit [Engine] in
theorem findDefaultProcessorScript_eq_ok {db : Database} {id : Nat} {script : ProcessorScriptRow}
    (h : findDefaultProcessorScript db = .ok (id, script)) :
    db.processorScripts.get id = some script ∧ script.scriptKey = defaultProcessorScriptKey ∧
      script.status = .active := by
  rw [findDefaultProcessorScript, okOr_eq_ok] at h
  obtain ⟨hget, hp⟩ := RowTable.find?_eq_some h
  exact ⟨hget, of_decide_eq_true hp⟩

omit [Engine] in
theorem assignProjectProcessor_change {db db' : Database} {projectId processorScriptId : Nat}
    {enabled : Bool} {u : Unit}
    (h : ProcessorRepository.assignProjectProcessor db projectId processorScriptId enabled =
      .ok (u, db')) : ProcessorsChange db db' := by
  simp only [ProcessorRepository.assignProjectProcessor, bind_eq_ok, okOr_eq_ok, ensure_eq_ok,
    pure_eq_ok, ProcessorRepository.findProjectById, findProcessorScriptById] at h
  obtain ⟨_, _, script, hscript, _, hstatus, bindings, hput, h⟩ := h
  cases h
  exact .assign hput hscript hstatus

/-- **The changes of an operation on processors.** -/
theorem ProcessorOp.run_ok {db db' : Database} {op : ProcessorOp} (h : op.run db = .ok db') :
    ProcessorsChange db db' := by
  cases op with
  | createScript input =>
    obtain ⟨a, h⟩ := map_snd_eq_ok.mp h
    simp only [ProcessorRepository.createScript, bind_eq_ok, okOr_eq_ok, pure_eq_ok] at h
    obtain ⟨_, hvalidate, ⟨id, scripts⟩, hinsert, modules, hmodules, h⟩ := h
    cases h
    exact .createScript hinsert hmodules (validateScriptInput_hasEntry hvalidate)
  | updateScript id input =>
    obtain ⟨a, h⟩ := map_snd_eq_ok.mp h
    simp only [ProcessorRepository.updateScript, bind_eq_ok, okOr_eq_ok, pure_eq_ok,
      findProcessorScriptById] at h
    obtain ⟨existing, hget, _, hstatus, _, hvalidate, scripts, hupdate, modules, hmodules, h⟩ := h
    cases h
    exact .updateScript hupdate hget rfl (ensureStatusChange_eq_ok hstatus) hmodules
      (validateScriptInput_hasEntry hvalidate)
  | updateScriptStatus id status =>
    obtain ⟨a, h⟩ := map_snd_eq_ok.mp h
    simp only [ProcessorRepository.updateScriptStatus, bind_eq_ok, okOr_eq_ok, pure_eq_ok,
      findProcessorScriptById] at h
    obtain ⟨existing, hget, _, hstatus, scripts, hupdate, h⟩ := h
    cases h
    exact .updateScriptStatus hupdate hget (ensureStatusChange_eq_ok hstatus)
  | assignDefaultProcessor projectId =>
    obtain ⟨script, -, h⟩ := bind_eq_ok.mp h
    obtain ⟨a, h⟩ := map_snd_eq_ok.mp h
    exact assignProjectProcessor_change h
  | ensureDefaultProjectProcessors =>
    obtain ⟨a, h⟩ := map_snd_eq_ok.mp h
    simp only [ProcessorRepository.ensureDefaultProjectProcessors, bind_eq_ok, pure_eq_ok] at h
    obtain ⟨⟨scriptId, script⟩, hdefault, ⟨inserted, bindings⟩, hbind, h⟩ := h
    cases h
    obtain ⟨hget, -, hstatus⟩ := findDefaultProcessorScript_eq_ok hdefault
    exact .bindDefaults hbind hget hstatus
  | assignProjectProcessor projectId processorScriptId enabled =>
    obtain ⟨a, h⟩ := map_snd_eq_ok.mp h
    exact assignProjectProcessor_change h
  | deleteProjectProcessor projectId =>
    obtain ⟨a, h⟩ := map_snd_eq_ok.mp h
    simp only [ProcessorRepository.deleteProjectProcessor, bind_eq_ok, okOr_eq_ok, pure_eq_ok,
      ProcessorRepository.findProjectById] at h
    obtain ⟨_, _, h⟩ := h
    cases h
    exact .deleteBinding

/-! ### The tables after a change -/

omit [Engine] in
/-- The modules after an insertion: what was there, and the new ones. -/
theorem insertModules_spec {scriptId : Nat} {inputs : List ProcessorScriptModuleInput}
    {table table' : RowTable ProcessorScriptModuleRow}
    (h : insertModules scriptId table inputs = .ok table') :
    (∀ id row, table.get id = some row → table'.get id = some row) ∧
      ∀ input ∈ inputs, ∃ id, table'.get id = some ⟨scriptId, input.moduleName, input.source⟩ := by
  induction inputs generalizing table with
  | nil =>
    cases h
    exact ⟨fun _ _ hrow => hrow, nofun⟩
  | cons input inputs ih =>
    rw [insertModules] at h
    split at h
    · cases h
    · next id table₁ hinsert =>
      obtain ⟨hid, -, -, hget⟩ := RowTable.insert?_eq_some hinsert
      obtain ⟨hkeep, hnew⟩ := ih h
      have hkeep₁ : ∀ id' row, table.get id' = some row → table'.get id' = some row := by
        intro id' row hrow
        refine hkeep id' row ?_
        rw [hget, if_neg (hid ▸ Nat.ne_of_lt (RowTable.lt_nextId hrow)), hrow]
      refine ⟨hkeep₁, List.forall_mem_cons.mpr ⟨⟨id, hkeep id _ ?_⟩, hnew⟩⟩
      rw [hget, if_pos rfl]

omit [Engine] in
/-- The bindings after the defaults were bound: what was there, or an enabled one to the script. -/
theorem bindDefaults_spec {scriptId inserted inserted' : Nat} {projects : List (Nat × ProjectRow)}
    {bindings bindings' : RowTable ProjectProcessorRow}
    (h : bindDefaults scriptId inserted bindings projects = .ok (inserted', bindings')) :
    ∀ id row, bindings'.get id = some row →
      bindings.get id = some row ∨ row.processorScriptId = scriptId := by
  induction projects generalizing inserted bindings with
  | nil =>
    cases h
    exact fun _ _ hrow => Or.inl hrow
  | cons project projects ih =>
    rw [bindDefaults] at h
    split at h
    · exact ih h
    · split at h
      · cases h
      · next id₁ bindings₁ hinsert =>
        obtain ⟨-, -, -, hget⟩ := RowTable.insert?_eq_some hinsert
        intro id row hrow
        refine (ih h id row hrow).elim (fun hrow₁ => ?_) Or.inr
        rw [hget] at hrow₁
        split at hrow₁
        · cases hrow₁
          exact Or.inr rfl
        · exact Or.inl hrow₁

omit [Engine] in
/-- The bindings after one was put: what was there, or the new one. -/
theorem putBinding_spec {db : Database} {row : ProjectProcessorRow}
    {bindings : RowTable ProjectProcessorRow} (h : putBinding db row = .ok bindings) :
    ∀ id row', bindings.get id = some row' → db.projectProcessors.get id = some row' ∨ row' = row := by
  intro id row' hrow
  rw [putBinding] at h
  split at h
  · obtain ⟨-, -, hget⟩ := RowTable.update?_eq_some (okOr_eq_ok.mp h)
    rw [hget] at hrow
    split at hrow
    · obtain ⟨_, -, rfl⟩ := Option.map_eq_some_iff.mp hrow
      exact Or.inr rfl
    · exact Or.inl hrow
  · obtain ⟨⟨id₁, bindings₁⟩, hinsert, rfl⟩ := Option.map_eq_some_iff.mp (okOr_eq_ok.mp h)
    obtain ⟨-, -, -, hget⟩ := RowTable.insert?_eq_some hinsert
    rw [hget] at hrow
    split at hrow
    · cases hrow
      exact Or.inr rfl
    · exact Or.inl hrow

/-! ### The invariant -/

/-- **The processors are valid**: an enabled binding leads to an active script, and every script has
its entry module. -/
structure ProcessorsValid (db : Database) : Prop where
  bindings : ∀ id binding, db.projectProcessors.get id = some binding → binding.enabled = true →
    ∃ script, db.processorScripts.get binding.processorScriptId = some script ∧
      script.status = .active
  entries : ∀ id script, db.processorScripts.get id = some script →
    ∃ moduleId module, db.processorScriptModules.get moduleId = some module ∧
      module.processorScriptId = id ∧ module.moduleName = script.entryModule

/-- **The default script is active.** -/
def DefaultActive (db : Database) : Prop :=
  ∃ id script, db.processorScripts.get id = some script ∧
    script.scriptKey = defaultProcessorScriptKey ∧ script.status = .active

omit [Engine] in
/-- The database after the migrations has no bindings and no scripts. -/
theorem ProcessorsValid.migrated : ProcessorsValid Database.migrated := ⟨nofun, nofun⟩

omit [Engine] in
/-- A script that may not leave the active status is active after an update. -/
theorem active_of_update {db : Database} {id : Nat} {existing row : ProcessorScriptRow}
    {scripts : RowTable ProcessorScriptRow}
    (hupdate : db.processorScripts.update? id row = some scripts)
    (hget : db.processorScripts.get id = some existing) (hkey : row.scriptKey = existing.scriptKey)
    (hstatus : row.status = .active ∨ CanBeDisabled db id existing) {id' : Nat}
    {script : ProcessorScriptRow} (hscript : db.processorScripts.get id' = some script)
    (hactive : script.status = .active) (hcannot : ¬CanBeDisabled db id' script) :
    ∃ script', scripts.get id' = some script' ∧ script'.scriptKey = script.scriptKey ∧
      script'.status = .active := by
  obtain ⟨-, -, hget'⟩ := RowTable.update?_eq_some hupdate
  rw [hget', hget]
  by_cases hid : id' = id
  · subst hid
    rw [hscript] at hget
    cases hget
    exact ⟨row, if_pos rfl, hkey, hstatus.resolve_right hcannot⟩
  · exact ⟨script, by rw [if_neg hid, hscript], rfl, hactive⟩

omit [Engine] in
/-- **Every operation on processors keeps them valid.** -/
theorem ProcessorsChange.valid {db db' : Database} (hchange : ProcessorsChange db db')
    (h : ProcessorsValid db) : ProcessorsValid db' := by
  obtain ⟨hbindings, hentries⟩ := h
  have hcannot : ∀ id binding script, db.projectProcessors.get id = some binding →
      binding.enabled = true → ¬CanBeDisabled db binding.processorScriptId script :=
    fun id binding script hbinding henabled hcan => hcan.2 id binding hbinding henabled rfl
  cases hchange with
  | createScript hinsert hmodules hentry =>
    obtain ⟨rfl, -, -, hget⟩ := RowTable.insert?_eq_some hinsert
    obtain ⟨hkeep, hnew⟩ := insertModules_spec hmodules
    refine ⟨fun id binding hbinding henabled => ?_, fun id script hscript => ?_⟩
    · obtain ⟨script, hscript, hactive⟩ := hbindings id binding hbinding henabled
      refine ⟨script, ?_, hactive⟩
      simp only [bumpProcessorScriptsVersion, hget,
        if_neg (Nat.ne_of_lt (RowTable.lt_nextId hscript)), hscript]
    · simp only [bumpProcessorScriptsVersion, hget] at hscript
      split at hscript
      · next hid =>
        cases hscript
        obtain ⟨input, hinput, hname⟩ := hentry
        obtain ⟨moduleId, hmodule⟩ := hnew input hinput
        exact ⟨moduleId, _, hmodule, hid.symm, hname⟩
      · obtain ⟨moduleId, module, hmodule, hrest⟩ := hentries id script hscript
        exact ⟨moduleId, module, hkeep _ _ hmodule, hrest⟩
  | updateScript hupdate hget hkey hstatus hmodules hentry =>
    obtain ⟨-, -, hget'⟩ := RowTable.update?_eq_some hupdate
    obtain ⟨hkeep, hnew⟩ := insertModules_spec hmodules
    refine ⟨fun id binding hbinding henabled => ?_, fun id script hscript => ?_⟩
    · obtain ⟨script, hscript, hactive⟩ := hbindings id binding hbinding henabled
      obtain ⟨script', hscript', -, hactive'⟩ := active_of_update hupdate hget hkey hstatus hscript
        hactive (hcannot id binding script hbinding henabled)
      exact ⟨script', hscript', hactive'⟩
    · simp only [bumpProcessorScriptsVersion, hget', hget, Option.map_some] at hscript
      split at hscript
      · next hid =>
        cases hscript
        obtain ⟨input, hinput, hname⟩ := hentry
        obtain ⟨moduleId, hmodule⟩ := hnew input hinput
        exact ⟨moduleId, _, hmodule, hid.symm, hname⟩
      · next hid =>
        obtain ⟨moduleId, module, hmodule, hscriptId, hname⟩ := hentries id script hscript
        refine ⟨moduleId, module, hkeep _ _ ?_, hscriptId, hname⟩
        exact RowTable.get_deleteWhere.mpr ⟨hmodule, by simp [hscriptId, hid]⟩
  | updateScriptStatus hupdate hget hstatus =>
    obtain ⟨-, -, hget'⟩ := RowTable.update?_eq_some hupdate
    refine ⟨fun id binding hbinding henabled => ?_, fun id script hscript => ?_⟩
    · obtain ⟨script, hscript, hactive⟩ := hbindings id binding hbinding henabled
      obtain ⟨script', hscript', -, hactive'⟩ := active_of_update hupdate hget rfl hstatus hscript
        hactive (hcannot id binding script hbinding henabled)
      exact ⟨script', hscript', hactive'⟩
    · simp only [bumpProcessorScriptsVersion, hget', hget, Option.map_some] at hscript
      split at hscript
      · next hid =>
        cases hscript
        obtain ⟨moduleId, module, hmodule, hscriptId, hname⟩ := hentries _ _ hget
        exact ⟨moduleId, module, hmodule, hscriptId.trans hid.symm, hname⟩
      · exact hentries id script hscript
  | @bindDefaults scriptId inserted script bindings hbind hget hstatus =>
    have hvalid : ∀ id binding, bindings.get id = some binding → binding.enabled = true →
        ∃ script, db.processorScripts.get binding.processorScriptId = some script ∧
          script.status = .active := by
      intro id binding hbinding henabled
      rcases bindDefaults_spec hbind id binding hbinding with hold | hscriptId
      · exact hbindings id binding hold henabled
      · exact ⟨script, by rw [hscriptId, hget], hstatus⟩
    split
    · exact ⟨hvalid, hentries⟩
    · exact ⟨hvalid, hentries⟩
  | assign hput hget hstatus =>
    refine ⟨fun id binding hbinding henabled => ?_, hentries⟩
    rcases putBinding_spec hput id binding hbinding with hold | rfl
    · exact hbindings id binding hold henabled
    · exact ⟨_, hget, hstatus henabled⟩
  | deleteBinding =>
    refine ⟨fun id binding hbinding henabled => ?_, hentries⟩
    exact hbindings id binding (RowTable.get_deleteWhere.mp hbinding).1 henabled

omit [Engine] in
/-- **Every operation on processors leaves the default script active.** -/
theorem ProcessorsChange.defaultActive {db db' : Database} (hchange : ProcessorsChange db db')
    (h : DefaultActive db) : DefaultActive db' := by
  obtain ⟨id, script, hscript, hkey, hactive⟩ := h
  have hcannot : ¬CanBeDisabled db id script := fun hcan => hcan.1 hkey
  cases hchange with
  | createScript hinsert hmodules hentry =>
    obtain ⟨rfl, -, -, hget⟩ := RowTable.insert?_eq_some hinsert
    refine ⟨id, script, ?_, hkey, hactive⟩
    simp only [bumpProcessorScriptsVersion, hget,
      if_neg (Nat.ne_of_lt (RowTable.lt_nextId hscript)), hscript]
  | updateScript hupdate hget hkey' hstatus hmodules hentry =>
    obtain ⟨script', hscript', hkey'', hactive'⟩ := active_of_update hupdate hget hkey' hstatus hscript
      hactive hcannot
    exact ⟨id, script', hscript', hkey''.trans hkey, hactive'⟩
  | updateScriptStatus hupdate hget hstatus =>
    obtain ⟨script', hscript', hkey'', hactive'⟩ := active_of_update hupdate hget rfl hstatus hscript
      hactive hcannot
    exact ⟨id, script', hscript', hkey''.trans hkey, hactive'⟩
  | bindDefaults hbind hget hstatus =>
    split
    · exact ⟨id, script, hscript, hkey, hactive⟩
    · exact ⟨id, script, hscript, hkey, hactive⟩
  | assign hput hget hstatus => exact ⟨id, script, hscript, hkey, hactive⟩
  | deleteBinding => exact ⟨id, script, hscript, hkey, hactive⟩

/-! ### All three repositories -/

variable [SinkBackends] [SerdeText] [DurationCodec]

/-- **An operation of one of the repositories.** -/
inductive AdminOp
  | project (op : ProjectOp)
  | eventSink (op : EventSinkOp)
  | processor (op : ProcessorOp)

/-- An error of one of the repositories. -/
inductive AdminError
  | project (error : ProjectRepositoryError)
  | eventSink (error : EventSinkRepositoryError)
  | processor (error : ProcessorRepositoryError)
  deriving DecidableEq

/-- What an operation makes of the database. -/
def AdminOp.run (db : Database) : AdminOp → Except AdminError Database
  | .project op => (op.run db).mapError .project
  | .eventSink op => (op.run db).mapError .eventSink
  | .processor op => (op.run db).mapError .processor

/-- **What an operation that succeeds does.** -/
inductive AdminChange (db db' : Database) : Prop
  | project (h : ProjectsChange db db')
  | eventSink (h : SinksChange db db')
  | processor (h : ProcessorsChange db db')

theorem AdminOp.run_ok {db db' : Database} {op : AdminOp} (h : op.run db = .ok db') :
    AdminChange db db' := by
  cases op with
  | project op => exact .project (ProjectOp.run_ok (mapError_eq_ok.mp h))
  | eventSink op => exact .eventSink (EventSinkOp.run_ok (mapError_eq_ok.mp h))
  | processor op => exact .processor (ProcessorOp.run_ok (mapError_eq_ok.mp h))

omit [Engine] in
/-- The scripts and their bindings after an operation on sinks. -/
theorem SinksChange.processors {db db' : Database} (h : SinksChange db db') :
    db'.processorScripts = db.processorScripts ∧
      db'.processorScriptModules = db.processorScriptModules ∧
      db'.projectProcessors = db.projectProcessors ∧ db'.projects = db.projects := by
  cases h <;> exact ⟨rfl, rfl, rfl, rfl⟩

omit [Engine] [SinkBackends] [SerdeText] [DurationCodec] in
/-- The scripts after an operation on projects; bindings are only deleted. -/
theorem ProjectsChange.processors {db db' : Database} (h : ProjectsChange db db') :
    db'.processorScripts = db.processorScripts ∧
      db'.processorScriptModules = db.processorScriptModules ∧
      ∀ id binding, db'.projectProcessors.get id = some binding →
        db.projectProcessors.get id = some binding := by
  cases h with
  | create hinsert => exact ⟨rfl, rfl, fun _ _ hbinding => hbinding⟩
  | update hupdate hget => exact ⟨rfl, rfl, fun _ _ hbinding => hbinding⟩
  | delete hget =>
    exact ⟨rfl, rfl, fun _ _ hbinding => (RowTable.get_deleteWhere.mp hbinding).1⟩

omit [Engine] in
/-- **Every operation keeps the processors valid.** -/
theorem AdminChange.valid {db db' : Database} (hchange : AdminChange db db')
    (h : ProcessorsValid db) : ProcessorsValid db' := by
  cases hchange with
  | project hchange =>
    obtain ⟨hscripts, hmodules, hbindings⟩ := hchange.processors
    refine ⟨fun id binding hbinding henabled => ?_, ?_⟩
    · rw [hscripts]
      exact h.bindings id binding (hbindings id binding hbinding) henabled
    · rw [hscripts, hmodules]
      exact h.entries
  | eventSink hchange =>
    obtain ⟨hscripts, hmodules, hbindings, -⟩ := hchange.processors
    refine ⟨?_, ?_⟩
    · rw [hscripts, hbindings]
      exact h.bindings
    · rw [hscripts, hmodules]
      exact h.entries
  | processor hchange => exact hchange.valid h

omit [Engine] in
/-- **Every operation leaves the default script active.** -/
theorem AdminChange.defaultActive {db db' : Database} (hchange : AdminChange db db')
    (h : DefaultActive db) : DefaultActive db' := by
  cases hchange with
  | project hchange =>
    rw [DefaultActive, hchange.processors.1]
    exact h
  | eventSink hchange =>
    rw [DefaultActive, hchange.processors.1]
    exact h
  | processor hchange => exact hchange.defaultActive h

/-- **An operation as one transaction**: it is committed if it succeeds, and rolled back else. -/
def AdminOp.commit (db : Database) (op : AdminOp) : Database :=
  match op.run db with
  | .ok db' => db'
  | .error _ => db

/-- **The databases after any operations**, successful or not. -/
inductive AdminReachable (db₀ : Database) : Database → Prop
  | start : AdminReachable db₀ db₀
  | step {db : Database} (h : AdminReachable db₀ db) (op : AdminOp) :
      AdminReachable db₀ (op.commit db)

/-- What every successful operation keeps holds after any operations. -/
theorem AdminReachable.induct {db₀ db : Database} (h : AdminReachable db₀ db) {p : Database → Prop}
    (hstart : p db₀) (hchange : ∀ db db', AdminChange db db' → p db → p db') : p db := by
  induction h with
  | start => exact hstart
  | @step db _ op ih =>
    rw [AdminOp.commit]
    split
    · next db' hrun => exact hchange db db' (AdminOp.run_ok hrun) ih
    · exact ih

theorem AdminReachable.trans {db₀ db₁ db₂ : Database} (h₁ : AdminReachable db₀ db₁)
    (h₂ : AdminReachable db₁ db₂) : AdminReachable db₀ db₂ := by
  induction h₂ with
  | start => exact h₁
  | step _ op ih => exact ih.step op

end Ingest4x
