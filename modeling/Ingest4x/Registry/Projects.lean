import Ingest4x.Effect.Snapshot
import Ingest4x.Repositories.Bindings

/-! # The registry of projects

`ProjectRegistryState`: the enabled projects of the database in memory, by their tokens and by their
keys.

* **`ProjectsView`** — the part of the database that the registry reads.
* **`projectSource`**, **`projectInstall`** — `load_snapshot` and `apply_snapshot_if_newer`.
* **`ProjectsInstalled`** — the lookups of a registry that has a state of the database. -/

namespace Ingest4x

open Effect Sinks

/-! ### What the registry reads -/

/-- **The projects of the database**, with their version. -/
structure ProjectsView where
  projects : RowTable ProjectRow
  version : Nat

/-- What the registry reads of a database. -/
def Database.projectsView (db : Database) : ProjectsView := ⟨db.projects, db.projectsVersion⟩

/-- `list_enabled_projects`. -/
def ProjectsView.listEnabledProjects (view : ProjectsView) : List (Nat × ProjectRow) :=
  view.projects.all.filter fun e => e.2.enabled

/-- **Every operation of the repositories** leaves the projects as they are, or bumps their version by
one. -/
theorem AdminChange.projectsView [SinkBackends] [SerdeText] [DurationCodec] {db db' : Database}
    (h : AdminChange db db') : db'.projectsView = db.projectsView ∨
      db'.projectsView.version = db.projectsView.version + 1 := by
  cases h with
  | project h => cases h <;> exact Or.inr rfl
  | eventSink h => cases h <;> exact Or.inl rfl
  | processor h =>
    cases h with
    | bindDefaults hbind hget hstatus =>
      split
      · exact Or.inl rfl
      · exact Or.inl rfl
    | _ => exact Or.inl rfl

/-! ### Loading and installing -/

/-- `projects_by_token` and `projects_by_key`. -/
inductive ProjectCell
  | byToken
  | byKey
  deriving DecidableEq

/-- A map of the registry. -/
abbrev ProjectMap : Type := SortedTable String (Nat × ProjectRow)

/-- **`load_snapshot`**: one query for the projects, which cannot be refused by what it reads. -/
def projectSource : SnapshotSource ProjectsView (List (Nat × ProjectRow)) ProjectRepositoryError
    ProjectCell ProjectMap where
  version := ProjectsView.version
  load := Query.read fun view => .ok view.listEnabledProjects
  build projects := .ok fun
    | .byToken => .ofPairs (projects.map fun project => (project.2.ingestToken, project))
    | .byKey => .ofPairs (projects.map fun project => (project.2.projectKey, project))

/-- **`apply_snapshot_if_newer`.** -/
def projectInstall : List (InstallStep ProjectCell) :=
  [.check, .lock .byToken, .lock .byKey, .check, .write .byToken, .write .byKey, .store]

theorem projectInstall_allowed : Progress.start.Allows projectInstall := by
  have hall : ∀ {p : ProjectCell → Prop}, p .byToken → p .byKey → ∀ cell, p cell := by
    intro p htoken hkey cell
    cases cell with
    | byToken => exact htoken
    | byKey => exact hkey
  exact ⟨rfl, fun _ => rfl, rfl, fun _ => rfl, rfl, rfl, rfl, rfl, rfl, hall rfl rfl, rfl⟩

/-- **The database, the registry of projects, and its refreshes.** -/
abbrev ProjectSystem (ι : Type) : Type :=
  System ProjectsView (List (Nat × ProjectRow)) ProjectRepositoryError ProjectCell ProjectMap ι

/-! ### Lookups -/

section Lookups

variable {ι : Type}

/-- `project_by_key`. -/
def projectByKey (reg : Registry ProjectCell ProjectMap ι) (projectKey : String) :
    Option (Nat × ProjectRow) :=
  (reg.cells .byKey).lookup (Text.trim projectKey)

/-- The project with a token. -/
def projectByToken (reg : Registry ProjectCell ProjectMap ι) (ingestToken : String) :
    Option (Nat × ProjectRow) :=
  (reg.cells .byToken).lookup ingestToken

/-- `contains_project_id`. -/
def containsProjectId (reg : Registry ProjectCell ProjectMap ι) (projectId : Nat) : Bool :=
  (reg.cells .byToken).values.any fun project => project.1 = projectId

/-- A project is enabled in a state of the database. -/
def ProjectsView.Enabled (view : ProjectsView) (project : Nat × ProjectRow) : Prop :=
  view.projects.get project.1 = some project.2 ∧ project.2.enabled = true

theorem ProjectsView.mem_listEnabledProjects {view : ProjectsView} {project : Nat × ProjectRow} :
    project ∈ view.listEnabledProjects ↔ view.Enabled project := by
  rw [listEnabledProjects, List.mem_filter]
  exact and_congr_left' RowTable.mem_all

/-- Two enabled projects that clash are the same. -/
theorem ProjectsView.enabled_unique {view : ProjectsView} {project project' : Nat × ProjectRow}
    (h : view.Enabled project) (h' : view.Enabled project')
    (hclash : UniqueIndexes.clash project.2 project'.2 = true) : project = project' := by
  have hid := view.projects.unique _ _ _ _ h.1 h'.1 hclash
  have hrow := h.1
  rw [hid, h'.1] at hrow
  exact Prod.ext hid (Option.some.inj hrow).symm

/-- A map by a unique column has the enabled projects by this column. -/
theorem ProjectsView.lookup_ofPairs {view : ProjectsView} {column : ProjectRow → String}
    (hunique : ∀ row row', column row = column row' → UniqueIndexes.clash row row' = true)
    {key : String} {project : Nat × ProjectRow} :
    (SortedTable.ofPairs (view.listEnabledProjects.map fun project =>
      (column project.2, project))).lookup key = some project ↔
        view.Enabled project ∧ column project.2 = key := by
  rw [SortedTable.lookup_ofPairs, List.filter_map, List.getLast?_map, Option.map_map]
  have hmem : ∀ project', project' ∈ view.listEnabledProjects.filter
      ((fun pair => decide (pair.1 = key)) ∘ fun project => (column project.2, project)) ↔
      view.Enabled project' ∧ column project'.2 = key := by
    intro project'
    rw [List.mem_filter, mem_listEnabledProjects]
    exact and_congr_right' decide_eq_true_iff
  cases hlast : (view.listEnabledProjects.filter
      ((fun pair => decide (pair.1 = key)) ∘ fun project => (column project.2, project))).getLast? with
  | none =>
    rw [List.getLast?_eq_none_iff] at hlast
    refine iff_of_false nofun fun h => ?_
    have hin := (hmem project).mpr h
    rw [hlast] at hin
    cases hin
  | some project' =>
    have h' := (hmem project').mp (List.mem_of_getLast? hlast)
    rw [Option.map_some, Option.some.injEq]
    constructor
    · rintro rfl
      exact h'
    · intro h
      exact enabled_unique h'.1 h.1 (hunique _ _ (h'.2.trans h.2.symm))

/-- **A registry has a state of the database**: what can be read of it by key, by token and by id is
that state's. -/
structure ProjectsInstalled (view : ProjectsView) (reg : Registry ProjectCell ProjectMap ι) : Prop where
  version : view.version = reg.version
  byKey : reg.held .byKey = false → ∀ projectKey project, projectByKey reg projectKey = some project ↔
    view.Enabled project ∧ project.2.projectKey = Text.trim projectKey
  byToken : reg.held .byToken = false → ∀ ingestToken project,
    projectByToken reg ingestToken = some project ↔
      view.Enabled project ∧ project.2.ingestToken = ingestToken
  byId : reg.held .byToken = false → ∀ projectId,
    containsProjectId reg projectId = true ↔ ∃ row, view.Enabled (projectId, row)

/-- **The snapshot of a state answers like the state.** -/
theorem projectsInstalled_of_snapshot {view : ProjectsView} {snapshot : ProjectCell → ProjectMap}
    {reg : Registry ProjectCell ProjectMap ι} (hsnapshot : projectSource.of view = .ok snapshot)
    (hversion : view.version = reg.version)
    (hcells : ∀ cell, reg.held cell = false → reg.cells cell = snapshot cell) :
    ProjectsInstalled view reg := by
  cases hsnapshot
  have htoken : reg.held .byToken = false → ∀ ingestToken project,
      projectByToken reg ingestToken = some project ↔
        view.Enabled project ∧ project.2.ingestToken = ingestToken := by
    intro hfree ingestToken project
    rw [projectByToken, hcells .byToken hfree]
    exact ProjectsView.lookup_ofPairs fun row row' heq => by simp [UniqueIndexes.clash, heq]
  refine ⟨hversion, fun hfree projectKey project => ?_, htoken, fun hfree projectId => ?_⟩
  · rw [projectByKey, hcells .byKey hfree]
    exact ProjectsView.lookup_ofPairs fun row row' heq => by simp [UniqueIndexes.clash, heq]
  · rw [containsProjectId, List.any_eq_true]
    constructor
    · rintro ⟨project, hmem, hid⟩
      obtain ⟨⟨key, _⟩, hentry, rfl⟩ := List.mem_map.mp hmem
      have hfound := SortedTable.lookup_eq_some.mpr hentry
      have henabled := ((htoken hfree key _).mp hfound).1
      rw [← of_decide_eq_true hid]
      exact ⟨_, henabled⟩
    · rintro ⟨row, henabled⟩
      have hfound := (htoken hfree row.ingestToken (projectId, row)).mpr ⟨henabled, rfl⟩
      exact ⟨(projectId, row), List.mem_map.mpr ⟨_, SortedTable.lookup_eq_some.mp hfound, rfl⟩,
        decide_eq_true rfl⟩

end Lookups

end Ingest4x
