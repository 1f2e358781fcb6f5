import Ingest4x.Effect.Result
import Ingest4x.Repositories.Schema
import Ingest4x.Text

/-! # Project operations

The operations of `ProjectRepository`, each one transaction. Deleting a project deletes its processor
binding, as the foreign key says.

* **`ProjectOp`** — an operation with its input; **`ProjectsChange`** — what one that succeeds does. -/

namespace Ingest4x

open Result

/-- `ProjectRepositoryError`. -/
inductive ProjectRepositoryError
  | notFound (id : Nat)
  | duplicateIngestToken (ingestTokenPrefix : String)
  | duplicateProjectKey (projectKey : String)
  | invalidIngestToken
  | invalidProjectKey
  | database
  deriving DecidableEq

/-- `CreateProjectInput`. -/
structure CreateProjectInput where
  name : String
  enabled : Bool
  ingestToken : String

/-- `UpdateProjectInput`. -/
structure UpdateProjectInput where
  name : Option String
  enabled : Option Bool
  ingestToken : Option String

/-- `UpdateProjectIngestSettingsInput`. -/
structure UpdateProjectIngestSettingsInput where
  projectKey : Option String
  authMode : Option ProjectAuthMode
  allowedIps : Option (List String)

/-- `UpdateProjectInput::default`. -/
def UpdateProjectInput.unchanged : UpdateProjectInput := ⟨none, none, none⟩

/-- `UpdateProjectIngestSettingsInput::default`. -/
def UpdateProjectIngestSettingsInput.unchanged : UpdateProjectIngestSettingsInput :=
  ⟨none, none, none⟩

namespace ProjectRepository

/-- `ingest_token_prefix`. -/
def ingestTokenPrefix (token : String) : String :=
  let start := String.ofList (token.toList.take 12)
  if 12 < token.toList.length then start ++ "..." else start

/-- The characters of a normalized key: what a key may not have becomes a dash, unless it follows one
that was put in. -/
def projectKeyChars (lastWasDash : Bool) : List Char → List Char
  | [] => []
  | ch :: chars =>
    if Text.isAsciiAlphanumeric ch || ch == '_' || ch == '-' then ch :: projectKeyChars false chars
    else if lastWasDash then projectKeyChars true chars
    else '-' :: projectKeyChars true chars

/-- `normalize_project_key`. -/
def normalizeProjectKey (value : String) : Option String :=
  let key := Text.trimMatches '-' (String.ofList (projectKeyChars false (Text.trim value).toList))
  if key = "" then none else some key

/-- `project_key_from_name`, with the random key that stands in for a name without letters. -/
def projectKeyFromName (name randomKey : String) : String :=
  (normalizeProjectKey name).getD ("project-" ++ randomKey)

/-- `allowed_ips_to_storage`. -/
def allowedIpsToStorage (allowedIps : List String) : List String :=
  (allowedIps.map Text.trim).filter fun ip => ip ≠ ""

/-- `map_write_error`: the index that a refused row violates. Where both are violated, the one on the
token is reported. -/
def mapWriteError (rows : List (Nat × ProjectRow)) (row : ProjectRow)
    (ingestTokenPrefix projectKey : String) : ProjectRepositoryError :=
  if rows.any fun e => e.2.ingestToken == row.ingestToken then .duplicateIngestToken ingestTokenPrefix
  else .duplicateProjectKey projectKey

/-- `bump_projects_version`. -/
def bumpProjectsVersion (db : Database) : Database :=
  { db with projectsVersion := nextVersion db.projectsVersion }

/-- `find_project_by_id`. -/
def findProjectById (db : Database) (id : Nat) : Except ProjectRepositoryError ProjectRow :=
  okOr (db.projects.get id) (.notFound id)

/-- A token without the white space around it; a blank one is refused. -/
def checkedToken (ingestToken : String) : Except ProjectRepositoryError String :=
  let token := Text.trim ingestToken
  if token = "" then .error .invalidIngestToken else .ok token

/-- The key that was asked for, or else the one there is. -/
def updatedProjectKey (existing : String) : Option String → Except ProjectRepositoryError String
  | none => .ok existing
  | some projectKey => okOr (normalizeProjectKey projectKey) .invalidProjectKey

/-- **`create_project_with_ingest_settings`.** -/
def createProjectWithIngestSettings (db : Database) (randomKey : String) (input : CreateProjectInput)
    (settings : UpdateProjectIngestSettingsInput) :
    Except ProjectRepositoryError (Nat × Database) := do
  let ingestToken ← checkedToken input.ingestToken
  let projectKey ← updatedProjectKey (projectKeyFromName input.name randomKey) settings.projectKey
  let row : ProjectRow := ⟨ingestToken, projectKey, settings.authMode.getD .token,
    (settings.allowedIps.map allowedIpsToStorage).getD [], input.name, input.enabled⟩
  let (id, projects) ← okOr (db.projects.insert? row)
    (mapWriteError db.projects.all row (ingestTokenPrefix ingestToken) projectKey)
  return (id, bumpProjectsVersion { db with projects := projects })

/-- `create_project`. -/
def createProject (db : Database) (randomKey : String) (input : CreateProjectInput) :
    Except ProjectRepositoryError (Nat × Database) :=
  createProjectWithIngestSettings db randomKey input .unchanged

/-- The new token of an update. -/
def updatedToken (existing : String) : Option String → Except ProjectRepositoryError String
  | none => .ok existing
  | some ingestToken => checkedToken ingestToken

/-- The error of an update that is refused: without a new token and a new key it stays a database
error. -/
def updateWriteError (db : Database) (id : Nat) (row : ProjectRow) (ingestToken projectKey :
    Option String) : ProjectRepositoryError :=
  if ingestToken.isNone ∧ projectKey.isNone then .database
  else
    mapWriteError (db.projects.all.filter fun e => e.1 ≠ id) row
      ((ingestToken.map fun _ => ingestTokenPrefix row.ingestToken).getD "")
      ((projectKey.map fun _ => row.projectKey).getD "")

/-- **`update_project_with_ingest_settings`.** -/
def updateProjectWithIngestSettings (db : Database) (id : Nat) (input : UpdateProjectInput)
    (settings : UpdateProjectIngestSettingsInput) :
    Except ProjectRepositoryError (Nat × Database) := do
  let existing ← findProjectById db id
  let ingestToken ← updatedToken existing.ingestToken input.ingestToken
  let projectKey ← updatedProjectKey existing.projectKey settings.projectKey
  let row : ProjectRow := ⟨ingestToken, projectKey, settings.authMode.getD existing.authMode,
    (settings.allowedIps.map allowedIpsToStorage).getD existing.allowedIps,
    input.name.getD existing.name, input.enabled.getD existing.enabled⟩
  let projects ← okOr (db.projects.update? id row)
    (updateWriteError db id row input.ingestToken settings.projectKey)
  return (id, bumpProjectsVersion { db with projects := projects })

/-- `update_project`. -/
def updateProject (db : Database) (id : Nat) (input : UpdateProjectInput) :
    Except ProjectRepositoryError (Nat × Database) :=
  updateProjectWithIngestSettings db id input .unchanged

/-- `update_project_ingest_settings`. -/
def updateProjectIngestSettings (db : Database) (id : Nat)
    (input : UpdateProjectIngestSettingsInput) : Except ProjectRepositoryError (Nat × Database) :=
  updateProjectWithIngestSettings db id .unchanged input

/-- **`delete_project`**: the bindings of the project go with it. -/
def deleteProject (db : Database) (id : Nat) : Except ProjectRepositoryError (Unit × Database) := do
  let _ ← findProjectById db id
  return ((), bumpProjectsVersion { db with
    projects := db.projects.delete id
    projectProcessors := db.projectProcessors.deleteWhere fun _ binding =>
      binding.projectId = id })

/-- `list_projects`. -/
def listProjects (db : Database) : List (Nat × ProjectRow) := db.projects.all

/-- `list_enabled_projects`. -/
def listEnabledProjects (db : Database) : List (Nat × ProjectRow) :=
  db.projects.all.filter fun e => e.2.enabled

end ProjectRepository

/-! ### Operations -/

/-- An operation with its input. -/
inductive ProjectOp
  | createProjectWithIngestSettings (randomKey : String) (input : CreateProjectInput)
      (settings : UpdateProjectIngestSettingsInput)
  | updateProjectWithIngestSettings (id : Nat) (input : UpdateProjectInput)
      (settings : UpdateProjectIngestSettingsInput)
  | deleteProject (id : Nat)

open ProjectRepository

/-- What an operation makes of the database. -/
def ProjectOp.run (db : Database) : ProjectOp → Except ProjectRepositoryError Database
  | .createProjectWithIngestSettings randomKey input settings =>
    (ProjectRepository.createProjectWithIngestSettings db randomKey input settings).map Prod.snd
  | .updateProjectWithIngestSettings id input settings =>
    (ProjectRepository.updateProjectWithIngestSettings db id input settings).map Prod.snd
  | .deleteProject id => (ProjectRepository.deleteProject db id).map Prod.snd

/-- **What an operation that succeeds does**: one project is inserted, updated or deleted with its
binding, and the version is bumped. -/
inductive ProjectsChange (db : Database) : Database → Prop
  | create {row : ProjectRow} {id : Nat} {projects : RowTable ProjectRow}
      (hinsert : db.projects.insert? row = some (id, projects)) :
      ProjectsChange db (bumpProjectsVersion { db with projects := projects })
  | update {id : Nat} {existing row : ProjectRow} {projects : RowTable ProjectRow}
      (hupdate : db.projects.update? id row = some projects)
      (hget : db.projects.get id = some existing) :
      ProjectsChange db (bumpProjectsVersion { db with projects := projects })
  | delete {id : Nat} {existing : ProjectRow} (hget : db.projects.get id = some existing) :
      ProjectsChange db (bumpProjectsVersion { db with
        projects := db.projects.delete id
        projectProcessors := db.projectProcessors.deleteWhere fun _ binding =>
          binding.projectId = id })

/-- **The changes of an operation.** -/
theorem ProjectOp.run_ok {db db' : Database} {op : ProjectOp} (h : op.run db = .ok db') :
    ProjectsChange db db' := by
  cases op with
  | createProjectWithIngestSettings randomKey input settings =>
    obtain ⟨a, h⟩ := map_snd_eq_ok.mp h
    simp only [ProjectRepository.createProjectWithIngestSettings, bind_eq_ok, okOr_eq_ok,
      pure_eq_ok] at h
    obtain ⟨ingestToken, _, projectKey, _, ⟨id, projects⟩, hinsert, h⟩ := h
    cases h
    exact .create hinsert
  | updateProjectWithIngestSettings id input settings =>
    obtain ⟨a, h⟩ := map_snd_eq_ok.mp h
    simp only [ProjectRepository.updateProjectWithIngestSettings, bind_eq_ok, okOr_eq_ok,
      pure_eq_ok, findProjectById] at h
    obtain ⟨existing, hget, ingestToken, _, projectKey, _, projects, hupdate, h⟩ := h
    cases h
    exact .update hupdate hget
  | deleteProject id =>
    obtain ⟨a, h⟩ := map_snd_eq_ok.mp h
    simp only [ProjectRepository.deleteProject, bind_eq_ok, okOr_eq_ok, pure_eq_ok,
      findProjectById] at h
    obtain ⟨existing, hget, h⟩ := h
    cases h
    exact .delete hget

end Ingest4x
