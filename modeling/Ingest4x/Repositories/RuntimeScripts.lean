import Ingest4x.Repositories.Bindings

/-! # The scripts that run

Where the processors are valid, a project with an enabled binding runs the script of that binding, and
the scripts that the registry loads all have their entry modules. -/

namespace Ingest4x

open Result ProcessorRepository

/-- The modules of a script are found by their names. -/
theorem mem_scriptModules {db : Database} {scriptId : Nat} {row : ProcessorScriptModuleRow} :
    row ∈ scriptModules db scriptId ↔
      row.processorScriptId = scriptId ∧ ∃ id, db.processorScriptModules.get id = some row := by
  have hrows : ∀ row, row ∈ (db.processorScriptModules.all.filter fun e =>
      e.2.processorScriptId = scriptId).map Prod.snd ↔
      row.processorScriptId = scriptId ∧ ∃ id, db.processorScriptModules.get id = some row := by
    intro row
    rw [List.mem_map]
    constructor
    · rintro ⟨⟨id, row'⟩, hmem, rfl⟩
      obtain ⟨hall, hscript⟩ := List.mem_filter.mp hmem
      exact ⟨of_decide_eq_true hscript, id, RowTable.mem_all.mp hall⟩
    · rintro ⟨hscript, id, hget⟩
      exact ⟨(id, row), List.mem_filter.mpr ⟨RowTable.mem_all.mpr hget, decide_eq_true hscript⟩, rfl⟩
  rw [scriptModules, mem_orderBy, hrows]
  intro row₁ h₁ row₂ h₂ hname
  obtain ⟨hscript₁, id₁, hget₁⟩ := (hrows row₁).mp h₁
  obtain ⟨hscript₂, id₂, hget₂⟩ := (hrows row₂).mp h₂
  have hid := db.processorScriptModules.unique id₁ id₂ row₁ row₂ hget₁ hget₂
    (by simp [UniqueIndexes.clash, hscript₁, hscript₂, hname])
  rw [RowTable.get] at hget₁ hget₂
  rw [hid, hget₂] at hget₁
  exact (Option.some.inj hget₁).symm

/-- **A script that has its entry module can be loaded.** -/
theorem runtimeScriptFromModel_isOk {db : Database} (h : ProcessorsValid db) {id : Nat}
    {script : ProcessorScriptRow} (hget : db.processorScripts.get id = some script) :
    ∃ runtimeScript, runtimeScriptFromModel db id script = .ok runtimeScript ∧
      runtimeScript.id = id := by
  obtain ⟨moduleId, module, hmodule, hscriptId, hname⟩ := h.entries id script hget
  have hmem : module ∈ scriptModules db id := mem_scriptModules.mpr ⟨hscriptId, moduleId, hmodule⟩
  rw [runtimeScriptFromModel, runtimeScriptFromParts]
  cases hfind : (scriptModules db id).find? fun module => module.moduleName = script.entryModule with
  | none =>
    refine absurd (List.find?_eq_none.mp hfind module hmem) ?_
    simp [hname]
  | some entry => exact ⟨_, rfl, rfl⟩

/-- The default script is found where it is active. -/
theorem findDefaultProcessorScript_isOk {db : Database} (h : DefaultActive db) :
    ∃ id script, findDefaultProcessorScript db = .ok (id, script) := by
  obtain ⟨id, script, hget, hkey, hactive⟩ := h
  rw [findDefaultProcessorScript]
  cases hfind : db.processorScripts.find? fun script =>
      script.scriptKey = defaultProcessorScriptKey ∧ script.status = .active with
  | none =>
    have hnot := RowTable.find?_eq_none.mp hfind id script hget
    simp [hkey, hactive] at hnot
  | some found => exact ⟨found.1, found.2, rfl⟩

/-- **The default script can be loaded.** -/
theorem defaultRuntimeScript_isOk {db : Database} (h : ProcessorsValid db) (hdefault : DefaultActive db) :
    ∃ runtimeScript, defaultRuntimeScript db = .ok runtimeScript := by
  obtain ⟨id, script, hfind⟩ := findDefaultProcessorScript_isOk hdefault
  obtain ⟨runtimeScript, hok, -⟩ :=
    runtimeScriptFromModel_isOk h (findDefaultProcessorScript_eq_ok hfind).1
  refine ⟨runtimeScript, ?_⟩
  rw [defaultRuntimeScript, hfind]
  exact hok

/-- The script of an enabled binding is active. -/
theorem activeScript_of_binding {db : Database} (h : ProcessorsValid db) {id : Nat}
    {binding : ProjectProcessorRow} (hbinding : db.projectProcessors.get id = some binding)
    (henabled : binding.enabled = true) : ∃ script,
      db.processorScripts.get binding.processorScriptId = some script ∧
        activeScript db binding.processorScriptId = some script := by
  obtain ⟨script, hscript, hactive⟩ := h.bindings id binding hbinding henabled
  refine ⟨script, hscript, ?_⟩
  rw [activeScript, hscript, Option.filter_some, if_pos (decide_eq_true hactive)]

/-- **A project with an enabled binding runs the script of the binding**, not the default script. -/
theorem runtimeScriptForProject_of_binding {db : Database} (h : ProcessorsValid db) {id : Nat}
    {binding : ProjectProcessorRow} (hbinding : db.projectProcessors.get id = some binding)
    (henabled : binding.enabled = true) {project : ProjectRow}
    (hproject : db.projects.get binding.projectId = some project) :
    ∃ runtimeScript, runtimeScriptForProject db binding.projectId = .ok runtimeScript ∧
      runtimeScript.id = binding.processorScriptId := by
  obtain ⟨script, hscript, hactive⟩ := activeScript_of_binding h hbinding henabled
  obtain ⟨runtimeScript, hok, hid⟩ := runtimeScriptFromModel_isOk h hscript
  refine ⟨runtimeScript, ?_, hid⟩
  rw [runtimeScriptForProject, hproject]
  cases hfind : db.projectProcessors.find? fun b =>
      b.projectId = binding.projectId ∧ b.enabled = true with
  | none =>
    have hnot := RowTable.find?_eq_none.mp hfind id binding hbinding
    simp [henabled] at hnot
  | some found =>
    obtain ⟨id', binding'⟩ := found
    obtain ⟨hget, hp⟩ := RowTable.find?_eq_some hfind
    have hsame : binding'.projectId = binding.projectId := (of_decide_eq_true hp).1
    have heq := db.projectProcessors.unique id' id binding' binding hget hbinding
      (by simp [UniqueIndexes.clash, hsame])
    subst heq
    rw [hbinding] at hget
    cases hget
    simp only [hactive, hok]

/-- **The bindings can be loaded.** -/
theorem runtimeProjectProcessors_isOk {db : Database} (h : ProcessorsValid db)
    (bindings : List (Nat × ProjectProcessorRow)) :
    ∃ scripts, runtimeProjectProcessors db bindings = .ok scripts := by
  induction bindings with
  | nil => exact ⟨[], rfl⟩
  | cons e bindings ih =>
    obtain ⟨id, binding⟩ := e
    obtain ⟨rest, hrest⟩ := ih
    rw [runtimeProjectProcessors]
    split
    · next project script _ hactive =>
      have hget : db.processorScripts.get binding.processorScriptId = some script :=
        (Option.filter_eq_some_iff.mp hactive).1
      obtain ⟨runtimeScript, hok, -⟩ := runtimeScriptFromModel_isOk h hget
      rw [hok, hrest]
      exact ⟨_, rfl⟩
    · exact ⟨rest, hrest⟩

end Ingest4x
