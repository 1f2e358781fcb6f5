import Ingest4x.Bytes.Layout
import Ingest4x.Json.Serde
import Ingest4x.Repositories.Projects
import Mathlib.Logic.Function.Basic

/-! # Projects as they are stored

What becomes of the admin's input: the columns of a row, the project that is read from them, and the
rows that a history of operations leaves.

* **`ProjectModel`** — the columns; **`Project.ofModel`** — the project that is read from them.
* **`Supplied`** — what the admin supplied for a project: the token, the tokens before, the allow-list.
* **`ProjectHistory`** — the operations that lead to a database; **`ProjectHistory.stores`** — each row holds what was
  supplied, trimmed. -/

namespace Ingest4x

open Bytes Result ProjectRepository

/-! ### Columns -/

/-- `projects::Model`, less its timestamps. -/
structure ProjectModel where
  id : Int32
  ingestToken : String
  projectKey : String
  authMode : String
  allowedIps : String
  name : String
  enabled : Bool

section Columns

variable [JsonCodec]

/-- The text of `allowed_ips_to_storage`. -/
def allowedIpsText (ips : List String) : String :=
  match JsonCodec.toVec ((Codec.list Codec.string).encode ips) with
  | .ok bytes => (utf8OfBytes bytes).getD "[]"
  | .error _ => "[]"

/-- **`parse_allowed_ips`**: a text that is no list of texts is read as the empty list. -/
def parseAllowedIps (value : String) : List String :=
  let ips :=
    match JsonCodec.fromSlice (utf8Bytes value) with
    | .ok json => ((Codec.list Codec.string).decode json).getD []
    | .error _ => []
  (ips.map Text.trim).filter fun ip => ip ≠ ""

/-- **The columns of a row.** -/
def ProjectRow.model (id : Nat) (row : ProjectRow) : ProjectModel where
  id := Int32.ofNat id
  ingestToken := row.ingestToken
  projectKey := row.projectKey
  authMode := row.authMode.asStr
  allowedIps := allowedIpsText row.allowedIps
  name := row.name
  enabled := row.enabled

/-- **`impl From<projects::Model> for Project`.** -/
def Project.ofModel (model : ProjectModel) : Project where
  id := model.id
  ingestToken := model.ingestToken
  projectKey := model.projectKey
  authMode := ProjectAuthMode.fromStorage model.authMode
  allowedIps := parseAllowedIps model.allowedIps
  name := model.name
  enabled := model.enabled

/-- The project of a row. -/
def ProjectRow.project (id : Nat) (row : ProjectRow) : Project := Project.ofModel (row.model id)

/-- **The JSON crate reads a list of texts back** from what it writes for it. -/
def ReadsBack (ips : List String) : Prop :=
  ∃ text : String,
    JsonCodec.toVec ((Codec.list Codec.string).encode ips) = .ok (utf8Bytes text) ∧
      JsonCodec.fromSlice (utf8Bytes text) = .ok ((Codec.list Codec.string).encode ips)

/-- The items of a list of texts. -/
theorem decode_encode_strings (ips : List String) :
    (Codec.list Codec.string).decode ((Codec.list Codec.string).encode ips) = some ips := by
  change Codec.decodeItems Codec.string.decode (ips.map Codec.string.encode) = some ips
  induction ips with
  | nil => rfl
  | cons ip ips ih =>
    rw [List.map_cons, Codec.decodeItems, ih]
    rfl

/-- **The allow-list comes back** from its column, trimmed. -/
theorem parseAllowedIps_text {ips : List String} (h : ReadsBack ips) :
    parseAllowedIps (allowedIpsText ips) = allowedIpsToStorage ips := by
  obtain ⟨text, hwrite, hread⟩ := h
  have htext : allowedIpsText ips = text := by
    rw [allowedIpsText, hwrite]
    simp only [utf8OfBytes_utf8Bytes, Option.getD_some]
  rw [htext, parseAllowedIps, hread]
  simp only [decode_encode_strings, Option.getD_some]
  rfl

omit [JsonCodec] in
/-- Normalising twice is normalising once. -/
theorem allowedIpsToStorage_idem (ips : List String) :
    allowedIpsToStorage (allowedIpsToStorage ips) = allowedIpsToStorage ips := by
  unfold allowedIpsToStorage
  have hmap : ((ips.map Text.trim).filter fun ip => ip ≠ "").map Text.trim
      = (ips.map Text.trim).filter fun ip => ip ≠ "" := by
    rw [List.map_congr_left (g := id), List.map_id]
    intro ip hip
    obtain ⟨ip', -, rfl⟩ := List.mem_map.mp (List.mem_filter.mp hip).1
    exact Text.trim_trim ip'
  rw [hmap, List.filter_filter]
  simp only [Bool.and_self]

end Columns

/-- An entry of a normalised list. -/
theorem mem_allowedIpsToStorage {ips : List String} {ip : String} :
    ip ∈ allowedIpsToStorage ips ↔ ∃ supplied ∈ ips, Text.trim supplied = ip ∧ ip ≠ "" := by
  unfold allowedIpsToStorage
  rw [List.mem_filter, List.mem_map, decide_eq_true_iff]
  constructor
  · rintro ⟨⟨supplied, hsupplied, htrim⟩, hne⟩
    exact ⟨supplied, hsupplied, htrim, hne⟩
  · rintro ⟨supplied, hsupplied, htrim, hne⟩
    exact ⟨⟨supplied, hsupplied, htrim⟩, hne⟩

/-! ### The admin's input -/

/-- **What the admin supplied for a project**: the token of its creation or its latest rotation, the
tokens before that one, the mode, and the latest allow-list. -/
structure Supplied where
  token : String
  older : List String
  authMode : ProjectAuthMode
  allowedIps : List String

/-- The input of a creation. -/
def Supplied.created (input : CreateProjectInput) (settings : UpdateProjectIngestSettingsInput) :
    Supplied where
  token := input.ingestToken
  older := []
  authMode := settings.authMode.getD .token
  allowedIps := settings.allowedIps.getD []

/-- The input of an update. -/
def Supplied.updated (supplied : Supplied) (input : UpdateProjectInput)
    (settings : UpdateProjectIngestSettingsInput) : Supplied where
  token := input.ingestToken.getD supplied.token
  older :=
    match input.ingestToken with
    | some _ => supplied.token :: supplied.older
    | none => supplied.older
  authMode := settings.authMode.getD supplied.authMode
  allowedIps := settings.allowedIps.getD supplied.allowedIps

/-- **The operations that lead to a database**, with what was supplied for each project so far. -/
inductive ProjectHistory : Database → (Nat → Option Supplied) → Prop
  | migrated : ProjectHistory .migrated fun _ => none
  | create {db db' : Database} {supplied : Nat → Option Supplied} {randomKey : String}
      {input : CreateProjectInput} {settings : UpdateProjectIngestSettingsInput} {id : Nat}
      (before : ProjectHistory db supplied)
      (hrun : createProjectWithIngestSettings db randomKey input settings = .ok (id, db')) :
      ProjectHistory db' (Function.update supplied id (some (.created input settings)))
  | update {db db' : Database} {supplied : Nat → Option Supplied} {input : UpdateProjectInput}
      {settings : UpdateProjectIngestSettingsInput} {id updated : Nat} (before : ProjectHistory db supplied)
      (hrun : updateProjectWithIngestSettings db id input settings = .ok (updated, db')) :
      ProjectHistory db' (Function.update supplied id
        ((supplied id).map fun s => s.updated input settings))
  | delete {db db' : Database} {supplied : Nat → Option Supplied} {id : Nat}
      (before : ProjectHistory db supplied) (hrun : deleteProject db id = .ok ((), db')) :
      ProjectHistory db' (Function.update supplied id none)
  | other {db db' : Database} {supplied : Nat → Option Supplied} (before : ProjectHistory db supplied)
      (hprojects : db'.projects = db.projects) : ProjectHistory db' supplied

/-- **A row holds what was supplied**: the token without the white space around it, which is not blank,
and the entries of the allow-list that are not blank. -/
structure ProjectRow.Holds (row : ProjectRow) (supplied : Supplied) : Prop where
  token : row.ingestToken = Text.trim supplied.token
  notBlank : Text.trim supplied.token ≠ ""
  authMode : row.authMode = supplied.authMode
  allowedIps : row.allowedIps = allowedIpsToStorage supplied.allowedIps

/-- A token that is accepted. -/
theorem checkedToken_eq_ok {ingestToken token : String} :
    checkedToken ingestToken = .ok token ↔ token = Text.trim ingestToken ∧ token ≠ "" := by
  unfold checkedToken
  by_cases hblank : Text.trim ingestToken = ""
  · simp only [hblank, if_true, reduceCtorEq, false_iff, not_and, not_not]
    exact id
  · simp only [hblank, if_false, Except.ok.injEq]
    constructor
    · rintro rfl
      exact ⟨rfl, hblank⟩
    · exact fun h => h.1.symm

/-- **What a creation stores.** -/
theorem createProject_ok {db db' : Database} {randomKey : String} {input : CreateProjectInput}
    {settings : UpdateProjectIngestSettingsInput} {id : Nat}
    (h : createProjectWithIngestSettings db randomKey input settings = .ok (id, db')) :
    ∃ row : ProjectRow, row.Holds (.created input settings) ∧
      ∀ id', db'.projects.get id' = if id' = id then some row else db.projects.get id' := by
  simp only [createProjectWithIngestSettings, bind_eq_ok, okOr_eq_ok, pure_eq_ok] at h
  obtain ⟨ingestToken, htoken, projectKey, -, ⟨id₁, projects⟩, hinsert, h⟩ := h
  cases h
  obtain ⟨rfl, hblank⟩ := checkedToken_eq_ok.mp htoken
  obtain ⟨-, -, -, hget⟩ := RowTable.insert?_eq_some hinsert
  refine ⟨_, ⟨rfl, hblank, rfl, ?_⟩, hget⟩
  cases hips : settings.allowedIps with
  | none => simp [Supplied.created, hips, allowedIpsToStorage]
  | some ips => simp [Supplied.created, hips]

/-- **What an update stores.** -/
theorem updateProject_ok {db db' : Database} {input : UpdateProjectInput}
    {settings : UpdateProjectIngestSettingsInput} {id updated : Nat} {supplied : Supplied}
    (hholds : ∀ row, db.projects.get id = some row → row.Holds supplied)
    (h : updateProjectWithIngestSettings db id input settings = .ok (updated, db')) :
    ∃ row : ProjectRow, row.Holds (supplied.updated input settings) ∧
      ∀ id', db'.projects.get id' = if id' = id then some row else db.projects.get id' := by
  simp only [updateProjectWithIngestSettings, bind_eq_ok, okOr_eq_ok, pure_eq_ok,
    findProjectById] at h
  obtain ⟨existing, hget, ingestToken, htoken, projectKey, -, projects, hupdate, h⟩ := h
  cases h
  obtain ⟨-, -, hget'⟩ := RowTable.update?_eq_some hupdate
  obtain ⟨hexisting, hblank, hmode, hips⟩ := hholds existing hget
  have hstored : ingestToken = Text.trim (supplied.updated input settings).token ∧
      ingestToken ≠ "" := by
    unfold updatedToken at htoken
    cases hnew : input.ingestToken with
    | none =>
      rw [hnew] at htoken
      cases htoken
      simp only [Supplied.updated, hnew, Option.getD_none]
      exact ⟨hexisting, hexisting ▸ hblank⟩
    | some token =>
      rw [hnew] at htoken
      simp only [Supplied.updated, hnew, Option.getD_some]
      exact checkedToken_eq_ok.mp htoken
  refine ⟨⟨ingestToken, projectKey, settings.authMode.getD existing.authMode,
    (settings.allowedIps.map allowedIpsToStorage).getD existing.allowedIps,
    input.name.getD existing.name, input.enabled.getD existing.enabled⟩,
    ⟨hstored.1, hstored.1 ▸ hstored.2, by rw [hmode]; rfl, ?_⟩, ?_⟩
  · cases hnew : settings.allowedIps with
    | none => simp [Supplied.updated, hnew, hips]
    | some ips => simp [Supplied.updated, hnew]
  · intro id'
    exact (hget' id').trans (by rw [hget]; rfl)

/-- **Each row holds what was supplied for it.** -/
theorem ProjectHistory.stores {db : Database} {supplied : Nat → Option Supplied}
    (h : ProjectHistory db supplied) {id : Nat} {row : ProjectRow} (hrow : db.projects.get id = some row) :
    ∃ s, supplied id = some s ∧ row.Holds s := by
  induction h generalizing id row with
  | migrated => cases hrow
  | create before hrun ih =>
    obtain ⟨row', hholds, hget⟩ := createProject_ok hrun
    rw [hget] at hrow
    split at hrow
    · rename_i heq
      cases hrow
      exact ⟨_, by rw [heq, Function.update_self], hholds⟩
    · rename_i hne
      rw [Function.update_of_ne hne]
      exact ih hrow
  | @update db db' supplied input settings updatedId _ before hrun ih =>
    -- an update that succeeds has found the project
    obtain ⟨existing, hexisting⟩ : ∃ existing, db.projects.get updatedId = some existing := by
      simp only [updateProjectWithIngestSettings, bind_eq_ok, findProjectById, okOr_eq_ok] at hrun
      obtain ⟨existing, hget, -⟩ := hrun
      exact ⟨existing, hget⟩
    obtain ⟨s, hs, -⟩ := ih hexisting
    have hholds : ∀ row, db.projects.get updatedId = some row → row.Holds s := by
      intro row hrow
      obtain ⟨s', hs', h⟩ := ih hrow
      rw [hs, Option.some.injEq] at hs'
      rwa [hs']
    obtain ⟨row', hrow', hget⟩ := updateProject_ok hholds hrun
    rw [hget] at hrow
    split at hrow
    · rename_i heq
      cases hrow
      exact ⟨_, by rw [heq, Function.update_self, hs, Option.map_some], hrow'⟩
    · rename_i hne
      rw [Function.update_of_ne hne]
      exact ih hrow
  | @delete db db' supplied deletedId before hrun ih =>
    simp only [deleteProject, bind_eq_ok, pure_eq_ok] at hrun
    obtain ⟨existing, -, hrun⟩ := hrun
    cases hrun
    change (db.projects.delete deletedId).get _ = _ at hrow
    rw [RowTable.get_delete] at hrow
    split at hrow
    · cases hrow
    · rename_i hne
      rw [Function.update_of_ne hne]
      exact ih hrow
  | other before hprojects ih =>
    rw [hprojects] at hrow
    exact ih hrow

/-- The project that is read from a stored row. -/
theorem ProjectRow.Holds.project [JsonCodec] {row : ProjectRow} {supplied : Supplied}
    (h : row.Holds supplied) (hcolumn : ReadsBack row.allowedIps) (id : Nat) :
    (row.project id).ingestToken = Text.trim supplied.token ∧
      (row.project id).authMode = supplied.authMode ∧
      (row.project id).allowedIps = allowedIpsToStorage supplied.allowedIps := by
  refine ⟨h.token, (ProjectAuthMode.fromStorage_asStr _).trans h.authMode, ?_⟩
  change parseAllowedIps (allowedIpsText row.allowedIps) = _
  rw [parseAllowedIps_text hcolumn, h.allowedIps, allowedIpsToStorage_idem]

end Ingest4x
