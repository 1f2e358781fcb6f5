import Ingest4x.Json
import Ingest4x.Repositories.Project
import Ingest4x.Settings
import Ingest4x.Table.Rows

/-! # The database schema

The tables of the admin configuration and their unique indexes. The columns for times and checksums
are left out, as no decision reads them. A configuration column holds the JSON value whose text the
database stores; a version row holds a number, as no operation writes anything else into it.

* **The rows** with their `UniqueIndexes` instances.
* **`Database`** — one committed state.
* **`Database.after`** — the state that an operation leaves. -/

namespace Ingest4x

/-! ### Rows -/

/-- A row of `projects`. -/
structure ProjectRow where
  ingestToken : String
  projectKey : String
  authMode : ProjectAuthMode
  allowedIps : List String
  name : String
  enabled : Bool
  deriving DecidableEq

/-- The ingest tokens are unique, and the project keys. -/
instance : UniqueIndexes ProjectRow where
  clash a b := a.ingestToken == b.ingestToken || a.projectKey == b.projectKey
  clash_comm a b := by simp only [Bool.beq_comm]

/-- A row of `delivery_targets`. -/
structure DeliveryTargetRow where
  targetId : String
  name : String
  targetType : String
  configJson : Value
  enabled : Bool
  deriving DecidableEq

instance : UniqueIndexes DeliveryTargetRow where
  clash a b := a.targetId == b.targetId
  clash_comm a b := by simp only [Bool.beq_comm]

/-- A row of `event_sinks`. -/
structure EventSinkRow where
  sinkId : String
  name : String
  deliveryTargetId : Nat
  destinationJson : Value
  autoOffsetReset : AutoOffsetReset
  enabled : Bool
  deriving DecidableEq

instance : UniqueIndexes EventSinkRow where
  clash a b := a.sinkId == b.sinkId
  clash_comm a b := by simp only [Bool.beq_comm]

/-- `ProcessorScriptStatus`. -/
inductive ProcessorScriptStatus
  | draft
  | active
  | archived
  deriving DecidableEq

/-- A row of `processor_scripts`. -/
structure ProcessorScriptRow where
  scriptKey : String
  name : String
  entryModule : String
  version : Nat
  status : ProcessorScriptStatus
  deriving DecidableEq

instance : UniqueIndexes ProcessorScriptRow where
  clash a b := a.scriptKey == b.scriptKey
  clash_comm a b := by simp only [Bool.beq_comm]

/-- A row of `processor_script_modules`. -/
structure ProcessorScriptModuleRow where
  processorScriptId : Nat
  moduleName : String
  source : String
  deriving DecidableEq

/-- A script has one module of a name. -/
instance : UniqueIndexes ProcessorScriptModuleRow where
  clash a b := a.processorScriptId == b.processorScriptId && a.moduleName == b.moduleName
  clash_comm a b := by simp only [Bool.beq_comm]

/-- A row of `project_processors`. -/
structure ProjectProcessorRow where
  projectId : Nat
  processorScriptId : Nat
  enabled : Bool
  deriving DecidableEq

/-- A project has one binding. -/
instance : UniqueIndexes ProjectProcessorRow where
  clash a b := a.projectId == b.projectId
  clash_comm a b := by simp only [Bool.beq_comm]

/-! ### The database -/

/-- **A committed state of the database**: the tables, and the version counters of `app_meta`. -/
structure Database where
  projects : RowTable ProjectRow
  deliveryTargets : RowTable DeliveryTargetRow
  eventSinks : RowTable EventSinkRow
  processorScripts : RowTable ProcessorScriptRow
  processorScriptModules : RowTable ProcessorScriptModuleRow
  projectProcessors : RowTable ProjectProcessorRow
  projectsVersion : Nat
  eventSinksVersion : Nat
  processorScriptsVersion : Nat

/-- The database after the migrations: no rows, and the versions at zero. -/
def Database.migrated : Database where
  projects := .empty
  deliveryTargets := .empty
  eventSinks := .empty
  processorScripts := .empty
  processorScriptModules := .empty
  projectProcessors := .empty
  projectsVersion := 0
  eventSinksVersion := 0
  processorScriptsVersion := 0

/-- **The version that a change writes**, from the version it read. -/
def nextVersion (version : Nat) : Nat := version + 1

/-- **The state after an operation**, which returns a result with the state that it committed, or an
error: a transaction that ends in an error is rolled back. -/
def Database.after {ε α : Type} (db : Database) : Except ε (α × Database) → Database
  | .ok (_, db') => db'
  | .error _ => db

@[simp] theorem Database.after_ok {ε α : Type} (db db' : Database) (a : α) :
    db.after (.ok (a, db') : Except ε (α × Database)) = db' := rfl

@[simp] theorem Database.after_error {ε α : Type} (db : Database) (e : ε) :
    db.after (.error e : Except ε (α × Database)) = db := rfl

end Ingest4x
