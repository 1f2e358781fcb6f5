import Ingest4x.Repositories.Projects
import Ingest4x.Rhai.Lint

/-! # Processor scripts and bindings

The operations of `ProcessorRepository`, each one transaction, and the scripts that the registry of
processors loads.

* **`ProcessorOp`** — an operation with its input; **`ProcessorsChange`** — what one that succeeds
  does.
* **`runtimeScriptForProject`** — the script that a project runs. -/

namespace Ingest4x

open Result Rhai

/-- `ProcessorRepositoryError`. -/
inductive ProcessorRepositoryError
  | projectNotFound (id : Nat)
  | processorScriptNotFound (id : Nat)
  | duplicateProcessorScriptKey (scriptKey : String)
  | processorScriptNotActive (id : Nat)
  | processorScriptInUse (id : Nat)
  | defaultProcessorScriptMissing
  | entryModuleMissing (moduleName : String)
  | invalidModuleName (moduleName : String)
  | invalidScript (message : String)
  | database
  deriving DecidableEq

/-- `CreateProcessorScriptModuleInput` and its two siblings. -/
structure ProcessorScriptModuleInput where
  moduleName : String
  source : String
  deriving DecidableEq

/-- `CreateProcessorScriptInput`. -/
structure CreateProcessorScriptInput where
  scriptKey : String
  name : String
  entryModule : String
  status : ProcessorScriptStatus
  modules : List ProcessorScriptModuleInput

/-- `UpdateProcessorScriptInput`. -/
structure UpdateProcessorScriptInput where
  name : String
  entryModule : String
  status : ProcessorScriptStatus
  modules : List ProcessorScriptModuleInput

/-- `RuntimeProcessorScript`, with the modules in the order of their names. -/
structure RuntimeProcessorScript where
  id : Nat
  scriptKey : String
  name : String
  entryModule : String
  version : Nat
  entrySource : String
  modules : List ProcessorScriptModuleRow
  deriving DecidableEq

/-- `resolver_modules`: the modules besides the entry. -/
def RuntimeProcessorScript.resolverModules (script : RuntimeProcessorScript) :
    List (String × String) :=
  (script.modules.filter fun module => module.moduleName ≠ script.entryModule).map fun module =>
    (module.moduleName, module.source)

/-- `DEFAULT_PROCESSOR_SCRIPT_KEY`. -/
def defaultProcessorScriptKey : String := "default"

/-- `default_processor_max_operations`, the limit that scripts are checked with too. -/
def defaultProcessorMaxOperations : Nat := 10000

namespace ProcessorRepository

/-! ### Checks -/

/-- A character that a module name may have after the first. -/
def isModuleNameChar (c : Char) : Bool := c == '_' || Text.isAsciiAlphanumeric c

/-- **`validate_module_name`.** -/
def validateModuleName (moduleName : String) : Except ProcessorRepositoryError Unit :=
  match moduleName.toList with
  | [] => .error (.invalidModuleName moduleName)
  | first :: chars =>
    if (first = '_' ∨ Text.isAsciiAlphabetic first = true) ∧ chars.all isModuleNameChar = true then
      .ok ()
    else .error (.invalidModuleName moduleName)

/-- The checks of the module names, one after another. -/
def validateModuleNames : List ProcessorScriptModuleInput → Except ProcessorRepositoryError Unit
  | [] => .ok ()
  | module :: modules =>
    match validateModuleName module.moduleName with
    | .error error => .error error
    | .ok () => validateModuleNames modules

/-- `label_entry_compile_error`: an error in a module names it already. -/
def labelEntryCompileError (entryModule message : String) : String :=
  if (message.splitOn "Rhai module \x60").length ≠ 1 then message
  else "failed to compile Rhai module \x60" ++ entryModule ++ "\x60: " ++ message

variable [Engine]

/-- `validate_emit_targets`. -/
def validateEmitTargets (sinkTargets : List String) :
    List ProcessorScriptModuleInput → Except ProcessorRepositoryError Unit
  | [] => .ok ()
  | module :: modules =>
    match lintEmitTargets module.moduleName module.source sinkTargets with
    | .error message => .error (.invalidScript message)
    | .ok () => validateEmitTargets sinkTargets modules

/-- **`validate_script_input`**, for the sinks that are enabled. -/
def validateScriptInput (entryModule : String) (modules : List ProcessorScriptModuleInput)
    (sinkTargets : List String) : Except ProcessorRepositoryError Unit := do
  validateModuleName entryModule
  validateModuleNames modules
  let entry ← okOr (modules.find? fun module => module.moduleName = entryModule)
    (.entryModuleMissing entryModule)
  let resolverModules := (modules.filter fun module => module.moduleName ≠ entryModule).map
    fun module => (module.moduleName, module.source)
  validateEmitTargets sinkTargets modules
  let _ ← (ProcessorState.newWithSinkTargets entry.source resolverModules sinkTargets 10000).mapError
    fun error => .invalidScript (labelEntryCompileError entryModule error)
  return ()

/-! ### Queries -/

/-- `enabled_sink_ids`, in their order. -/
def enabledSinkIds (db : Database) : List String :=
  orderBy id ((db.eventSinks.all.filter fun e => e.2.enabled).map fun e => e.2.sinkId)

/-- `find_project_by_id` of the processors. -/
def findProjectById (db : Database) (id : Nat) : Except ProcessorRepositoryError ProjectRow :=
  okOr (db.projects.get id) (.projectNotFound id)

/-- `find_processor_script_by_id`. -/
def findProcessorScriptById (db : Database) (id : Nat) :
    Except ProcessorRepositoryError ProcessorScriptRow :=
  okOr (db.processorScripts.get id) (.processorScriptNotFound id)

/-- `find_default_processor_script`. -/
def findDefaultProcessorScript (db : Database) :
    Except ProcessorRepositoryError (Nat × ProcessorScriptRow) :=
  okOr (db.processorScripts.find? fun script =>
    script.scriptKey = defaultProcessorScriptKey ∧ script.status = .active)
    .defaultProcessorScriptMissing

/-- `ensure_processor_script_can_be_disabled`. -/
def ensureProcessorScriptCanBeDisabled (db : Database) (id : Nat) (script : ProcessorScriptRow) :
    Except ProcessorRepositoryError Unit := do
  ensure (script.scriptKey ≠ defaultProcessorScriptKey) (.processorScriptInUse id)
  ensure (db.projectProcessors.find? (fun binding =>
    binding.processorScriptId = id ∧ binding.enabled = true) = none) (.processorScriptInUse id)

/-- The check before a script gets a status. -/
def ensureStatusChange (db : Database) (id : Nat) (script : ProcessorScriptRow)
    (status : ProcessorScriptStatus) : Except ProcessorRepositoryError Unit :=
  if status = .active then .ok () else ensureProcessorScriptCanBeDisabled db id script

/-- `list_scripts`, in the order of their keys. -/
def listScripts (db : Database) : List (Nat × ProcessorScriptRow) :=
  orderBy (fun e => e.2.scriptKey) db.processorScripts.all

/-- The modules of a script, in the order of their names. -/
def scriptModules (db : Database) (scriptId : Nat) : List ProcessorScriptModuleRow :=
  orderBy (·.moduleName) ((db.processorScriptModules.all.filter fun e =>
    e.2.processorScriptId = scriptId).map Prod.snd)

/-- `bump_processor_scripts_version`. -/
def bumpProcessorScriptsVersion (db : Database) : Database :=
  { db with processorScriptsVersion := nextVersion db.processorScriptsVersion }

/-! ### Scripts -/

/-- The modules of a script are inserted one after another. -/
def insertModules (scriptId : Nat) (table : RowTable ProcessorScriptModuleRow) :
    List ProcessorScriptModuleInput →
      Except ProcessorRepositoryError (RowTable ProcessorScriptModuleRow)
  | [] => .ok table
  | module :: modules =>
    match table.insert? ⟨scriptId, module.moduleName, module.source⟩ with
    | none => .error .database
    | some (_, table) => insertModules scriptId table modules

/-- **`create_script`.** -/
def createScript (db : Database) (input : CreateProcessorScriptInput) :
    Except ProcessorRepositoryError (Nat × Database) := do
  validateScriptInput input.entryModule input.modules (enabledSinkIds db)
  let (id, scripts) ← okOr
    (db.processorScripts.insert? ⟨input.scriptKey, input.name, input.entryModule, 1, input.status⟩)
    (.duplicateProcessorScriptKey input.scriptKey)
  let modules ← insertModules id db.processorScriptModules input.modules
  return (id, bumpProcessorScriptsVersion { db with
    processorScripts := scripts
    processorScriptModules := modules })

/-- **`update_script`.** -/
def updateScript (db : Database) (id : Nat) (input : UpdateProcessorScriptInput) :
    Except ProcessorRepositoryError (Nat × Database) := do
  let existing ← findProcessorScriptById db id
  ensureStatusChange db id existing input.status
  validateScriptInput input.entryModule input.modules (enabledSinkIds db)
  let scripts ← okOr (db.processorScripts.update? id ⟨existing.scriptKey, input.name,
    input.entryModule, existing.version + 1, input.status⟩) .database
  let modules ← insertModules id
    (db.processorScriptModules.deleteWhere fun _ module => module.processorScriptId = id)
    input.modules
  return (id, bumpProcessorScriptsVersion { db with
    processorScripts := scripts
    processorScriptModules := modules })

/-- **`update_script_status`.** -/
def updateScriptStatus (db : Database) (id : Nat) (status : ProcessorScriptStatus) :
    Except ProcessorRepositoryError (Nat × Database) := do
  let existing ← findProcessorScriptById db id
  ensureStatusChange db id existing status
  let scripts ← okOr (db.processorScripts.update? id { existing with status := status }) .database
  return (id, bumpProcessorScriptsVersion { db with processorScripts := scripts })

/-! ### Bindings -/

/-- The binding of a project. -/
def findBinding (db : Database) (projectId : Nat) : Option (Nat × ProjectProcessorRow) :=
  db.projectProcessors.find? fun binding => binding.projectId = projectId

/-- The loop of `ensure_default_project_processors`: the projects without a binding get one to the
default script. -/
def bindDefaults (scriptId : Nat) (inserted : Nat) (bindings : RowTable ProjectProcessorRow) :
    List (Nat × ProjectRow) →
      Except ProcessorRepositoryError (Nat × RowTable ProjectProcessorRow)
  | [] => .ok (inserted, bindings)
  | (projectId, _) :: projects =>
    match bindings.find? fun binding => binding.projectId = projectId with
    | some _ => bindDefaults scriptId inserted bindings projects
    | none =>
      match bindings.insert? ⟨projectId, scriptId, true⟩ with
      | none => .error .database
      | some (_, bindings) => bindDefaults scriptId (inserted + 1) bindings projects

/-- **`ensure_default_project_processors`.** The version is bumped only if a binding was made. -/
def ensureDefaultProjectProcessors (db : Database) :
    Except ProcessorRepositoryError (Nat × Database) := do
  let (scriptId, _) ← findDefaultProcessorScript db
  let (inserted, bindings) ← bindDefaults scriptId 0 db.projectProcessors db.projects.all
  let db' := { db with projectProcessors := bindings }
  return (inserted, if 0 < inserted then bumpProcessorScriptsVersion db' else db')

/-- The binding of a project is updated, or made. -/
def putBinding (db : Database) (row : ProjectProcessorRow) :
    Except ProcessorRepositoryError (RowTable ProjectProcessorRow) :=
  match findBinding db row.projectId with
  | some (id, _) => okOr (db.projectProcessors.update? id row) .database
  | none => okOr ((db.projectProcessors.insert? row).map Prod.snd) .database

/-- **`assign_project_processor`.** -/
def assignProjectProcessor (db : Database) (projectId processorScriptId : Nat) (enabled : Bool) :
    Except ProcessorRepositoryError (Unit × Database) := do
  let _ ← findProjectById db projectId
  let script ← findProcessorScriptById db processorScriptId
  ensure (enabled = true → script.status = .active) (.processorScriptNotActive processorScriptId)
  let bindings ← putBinding db ⟨projectId, processorScriptId, enabled⟩
  return ((), bumpProcessorScriptsVersion { db with projectProcessors := bindings })

/-- **`delete_project_processor`.** -/
def deleteProjectProcessor (db : Database) (projectId : Nat) :
    Except ProcessorRepositoryError (Unit × Database) := do
  let _ ← findProjectById db projectId
  return ((), bumpProcessorScriptsVersion { db with
    projectProcessors := db.projectProcessors.deleteWhere fun _ binding =>
      binding.projectId = projectId })

/-! ### The scripts that run -/

/-- `runtime_script_from_parts`. -/
def runtimeScriptFromParts (id : Nat) (script : ProcessorScriptRow)
    (modules : List ProcessorScriptModuleRow) :
    Except ProcessorRepositoryError RuntimeProcessorScript := do
  let entry ← okOr (modules.find? fun module => module.moduleName = script.entryModule)
    (.entryModuleMissing script.entryModule)
  return ⟨id, script.scriptKey, script.name, script.entryModule, script.version, entry.source,
    modules⟩

/-- `runtime_script_from_model`. -/
def runtimeScriptFromModel (db : Database) (id : Nat) (script : ProcessorScriptRow) :
    Except ProcessorRepositoryError RuntimeProcessorScript :=
  runtimeScriptFromParts id script (scriptModules db id)

/-- `default_runtime_script`. -/
def defaultRuntimeScript (db : Database) :
    Except ProcessorRepositoryError RuntimeProcessorScript := do
  let (id, script) ← findDefaultProcessorScript db
  runtimeScriptFromModel db id script

/-- The script with an id, if it is active. -/
def activeScript (db : Database) (id : Nat) : Option ProcessorScriptRow :=
  (db.processorScripts.get id).filter fun script => script.status = .active

/-- **`runtime_script_for_project`.** A project without an enabled binding to an active script runs
the default script. -/
def runtimeScriptForProject (db : Database) (projectId : Nat) :
    Except ProcessorRepositoryError RuntimeProcessorScript :=
  match db.projects.get projectId with
  | none => defaultRuntimeScript db
  | some _ =>
    match db.projectProcessors.find? fun binding =>
        binding.projectId = projectId ∧ binding.enabled = true with
    | none => defaultRuntimeScript db
    | some (_, binding) =>
      match activeScript db binding.processorScriptId with
      | none => defaultRuntimeScript db
      | some script => runtimeScriptFromModel db binding.processorScriptId script

/-- The loop of `list_enabled_runtime_project_processors`. -/
def runtimeProjectProcessors (db : Database) :
    List (Nat × ProjectProcessorRow) →
      Except ProcessorRepositoryError (List (Nat × RuntimeProcessorScript))
  | [] => .ok []
  | (_, binding) :: bindings =>
    match (db.projects.get binding.projectId).filter (·.enabled),
        activeScript db binding.processorScriptId with
    | some _, some script =>
      (runtimeScriptFromModel db binding.processorScriptId script).bind fun runtimeScript =>
        (runtimeProjectProcessors db bindings).map fun rest =>
          (binding.projectId, runtimeScript) :: rest
    | _, _ => runtimeProjectProcessors db bindings

/-- **`list_enabled_runtime_project_processors`.** -/
def listEnabledRuntimeProjectProcessors (db : Database) :
    Except ProcessorRepositoryError (List (Nat × RuntimeProcessorScript)) :=
  runtimeProjectProcessors db (db.projectProcessors.all.filter fun e => e.2.enabled)

end ProcessorRepository

end Ingest4x
