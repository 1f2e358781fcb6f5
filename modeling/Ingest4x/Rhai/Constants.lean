import Ingest4x.Rhai.Lint

/-! # Distinct constants

What the constants of a list of sinks mean, where no two of the sinks have the same one: every
constant means its own sink, in whatever order they were pushed, and a sink that is added changes the
meaning of no other constant.

* **`DistinctConstants`** — the lists of sinks that the check of emit targets does not refuse.
* **`ResolvesByName`** — what is assumed of the engine: a script sees of a scope only what the names
  mean that it refers to.
* **`EmitsByName`** — what is assumed of its calls: a script emits to what its constants mean. -/

namespace Ingest4x.Rhai

/-- **The sinks of a list have distinct constants**, and every one has more than the common start. -/
structure DistinctConstants (sinkTargets : List String) : Prop where
  ne_sink : ∀ s ∈ sinkTargets, sinkTargetConstantName s ≠ "SINK"
  injective : ∀ s ∈ sinkTargets, ∀ s' ∈ sinkTargets,
    sinkTargetConstantName s = sinkTargetConstantName s' → s = s'

theorem DistinctConstants.nil : DistinctConstants [] := ⟨nofun, nofun⟩

/-- Distinct constants stay distinct with one of its own added. -/
theorem DistinctConstants.insert {sinkTargets sinkTargets' : List String} {added : String}
    (h : DistinctConstants sinkTargets) (hsink : sinkTargetConstantName added ≠ "SINK")
    (hdistinct : ∀ s ∈ sinkTargets, sinkTargetConstantName s = sinkTargetConstantName added → s = added)
    (hmem : ∀ s ∈ sinkTargets', s ∈ sinkTargets ∨ s = added) : DistinctConstants sinkTargets' := by
  refine ⟨fun s hs => ?_, fun s hs s' hs' heq => ?_⟩
  · rcases hmem s hs with hold | rfl
    · exact h.ne_sink s hold
    · exact hsink
  · rcases hmem s hs with hold | rfl
    · rcases hmem s' hs' with hold' | rfl
      · exact h.injective s hold s' hold' heq
      · exact hdistinct s hold heq
    · rcases hmem s' hs' with hold' | rfl
      · exact (hdistinct s' hold' heq.symm).symm
      · rfl

/-! ### The table of constants -/

/-- What the loop over the sinks makes, where it succeeds. -/
theorem insertSinkTargetConstants_spec {sinkTargets : List String}
    {constants : SortedTable String String} (hnodup : sinkTargets.Nodup) :
    (∃ constants', insertSinkTargetConstants constants sinkTargets = .ok constants') ↔
      DistinctConstants sinkTargets ∧
        ∀ s ∈ sinkTargets, constants.lookup (sinkTargetConstantName s) = none := by
  induction sinkTargets generalizing constants with
  | nil => exact iff_of_true ⟨constants, rfl⟩ ⟨.nil, List.forall_mem_nil _⟩
  | cons s sinkTargets ih =>
    obtain ⟨hs, htail⟩ := List.nodup_cons.mp hnodup
    rw [insertSinkTargetConstants]
    by_cases hsink : sinkTargetConstantName s = "SINK"
    · rw [if_pos hsink]
      refine iff_of_false (by rintro ⟨_, ⟨⟩⟩) fun h => ?_
      exact h.1.ne_sink s (List.mem_cons_self ..) hsink
    · rw [if_neg hsink]
      cases hlookup : constants.lookup (sinkTargetConstantName s) with
      | some existing =>
        refine iff_of_false (by rintro ⟨_, ⟨⟩⟩) fun h => ?_
        rw [h.2 s (List.mem_cons_self ..)] at hlookup
        cases hlookup
      | none =>
        have hinsert : ∀ s', (constants.insert (sinkTargetConstantName s) s).lookup
            (sinkTargetConstantName s') = none ↔
            sinkTargetConstantName s' ≠ sinkTargetConstantName s ∧
              constants.lookup (sinkTargetConstantName s') = none := by
          intro s'
          rw [SortedTable.lookup_insert]
          split
          · next heq => exact iff_of_false (by rintro ⟨⟩) fun h => h.1 heq
          · next hne => exact (and_iff_right hne).symm
        show (∃ constants', insertSinkTargetConstants _ sinkTargets = .ok constants') ↔ _
        rw [ih htail]
        constructor
        · rintro ⟨⟨hneSink, hinj⟩, hnone⟩
          have hne : ∀ s' ∈ sinkTargets, sinkTargetConstantName s' ≠ sinkTargetConstantName s :=
            fun s' hs' => ((hinsert s').mp (hnone s' hs')).1
          refine ⟨⟨List.forall_mem_cons.mpr ⟨hsink, hneSink⟩, ?_⟩,
            List.forall_mem_cons.mpr ⟨hlookup, fun s' hs' => ((hinsert s').mp (hnone s' hs')).2⟩⟩
          intro s₁ h₁ s₂ h₂ heq
          rcases List.mem_cons.mp h₁ with h₁' | h₁'
          · rcases List.mem_cons.mp h₂ with h₂' | h₂'
            · exact h₁'.trans h₂'.symm
            · exact absurd (h₁' ▸ heq).symm (hne s₂ h₂')
          · rcases List.mem_cons.mp h₂ with h₂' | h₂'
            · exact absurd (h₂' ▸ heq) (hne s₁ h₁')
            · exact hinj s₁ h₁' s₂ h₂' heq
        · rintro ⟨⟨hneSink, hinj⟩, hnone⟩
          refine ⟨⟨fun s' hs' => hneSink s' (List.mem_cons_of_mem _ hs'), fun s₁ h₁ s₂ h₂ =>
            hinj s₁ (List.mem_cons_of_mem _ h₁) s₂ (List.mem_cons_of_mem _ h₂)⟩, fun s' hs' => ?_⟩
          refine (hinsert s').mpr ⟨fun heq => ?_, hnone s' (List.mem_cons_of_mem _ hs')⟩
          rw [hinj s' (List.mem_cons_of_mem _ hs') s (List.mem_cons_self ..) heq] at hs'
          exact hs hs'

/-- **The check refuses a list of sinks** exactly if their constants are not distinct. -/
theorem sinkTargetConstants_isOk {sinkTargets : List String} (hnodup : sinkTargets.Nodup) :
    (∃ constants, sinkTargetConstants sinkTargets = .ok constants) ↔
      DistinctConstants sinkTargets :=
  (insertSinkTargetConstants_spec hnodup).trans (and_iff_left fun _ _ => rfl)

/-- The names that the loop inserts. -/
theorem insertSinkTargetConstants_lookup {sinkTargets : List String}
    {constants constants' : SortedTable String String}
    (h : insertSinkTargetConstants constants sinkTargets = .ok constants') (name : String) :
    (constants'.lookup name).isSome = true ↔
      (constants.lookup name).isSome = true ∨ ∃ s ∈ sinkTargets, sinkTargetConstantName s = name := by
  induction sinkTargets generalizing constants with
  | nil =>
    cases h
    simp
  | cons s sinkTargets ih =>
    rw [insertSinkTargetConstants] at h
    by_cases hsink : sinkTargetConstantName s = "SINK"
    · rw [if_pos hsink] at h
      cases h
    · rw [if_neg hsink] at h
      cases hlookup : constants.lookup (sinkTargetConstantName s) with
      | some existing =>
        rw [hlookup] at h
        cases h
      | none =>
        rw [hlookup] at h
        rw [ih h, SortedTable.lookup_insert]
        simp only [List.mem_cons, exists_eq_or_imp]
        split
        · next heq => simp [heq]
        · next hne => simp [Ne.symm hne]

/-- **The constants that a call may name**: those of the sinks. -/
theorem sinkTargetConstants_lookup {sinkTargets : List String} {constants : SortedTable String String}
    (h : sinkTargetConstants sinkTargets = .ok constants) (name : String) :
    (constants.lookup name).isSome = true ↔ ∃ s ∈ sinkTargets, sinkTargetConstantName s = name :=
  (insertSinkTargetConstants_lookup h name).trans (or_iff_right Bool.false_ne_true)

/-! ### What constants mean -/

/-- **Distinct constants mean their sinks.** -/
theorem Scope.resolve_eq_some {sinkTargets : List String} (h : DistinctConstants sinkTargets)
    {name s : String} : (pushSinkTargetConstants sinkTargets).resolve name = some s ↔
      s ∈ sinkTargets ∧ sinkTargetConstantName s = name := by
  refine ⟨Scope.resolve_pushSinkTargetConstants, ?_⟩
  rintro ⟨hs, rfl⟩
  obtain ⟨s', hs'⟩ := Option.isSome_iff_exists.mp (Scope.isSome_resolve hs)
  obtain ⟨hmem, hname⟩ := Scope.resolve_pushSinkTargetConstants hs'
  rw [hs', h.injective s' hmem s hs hname]

/-- A sink with a constant of its own changes the meaning of no other constant. -/
theorem Scope.resolve_of_added {sinkTargets sinkTargets' : List String} {added : String}
    (h : DistinctConstants sinkTargets) (h' : DistinctConstants sinkTargets')
    (hmem : ∀ s, s ∈ sinkTargets' ↔ s ∈ sinkTargets ∨ s = added) {name : String}
    (hname : name ≠ sinkTargetConstantName added) :
    (pushSinkTargetConstants sinkTargets').resolve name =
      (pushSinkTargetConstants sinkTargets).resolve name := by
  refine Option.ext fun s => ?_
  rw [Scope.resolve_eq_some h', Scope.resolve_eq_some h, hmem]
  constructor
  · rintro ⟨hs | rfl, heq⟩
    · exact ⟨hs, heq⟩
    · exact absurd heq.symm hname
  · rintro ⟨hs, heq⟩
    exact ⟨Or.inl hs, heq⟩

/-! ### The engine -/

/-- Two scopes mean the same to a script. -/
def SameMeaning (refersTo : String → String → Prop) (source : String) (scope scope' : Scope) : Prop :=
  ∀ name, refersTo source name → scope'.resolve name = scope.resolve name

variable [Engine]

/-- **What is assumed of the engine**: a script sees of a scope only what the names mean that it
refers to, and of the modules only their names while it is compiled. -/
structure ResolvesByName (refersTo : String → String → Prop) : Prop where
  module : ∀ {maxOperations : Nat} {scope scope' : Scope} {source : String},
    SameMeaning refersTo source scope scope' →
    (∃ ast module, Engine.compileWithScope scope source = .ok ast ∧
      Engine.evalAstAsNew maxOperations scope ast = .ok module) →
    ∃ ast module, Engine.compileWithScope scope' source = .ok ast ∧
      Engine.evalAstAsNew maxOperations scope' ast = .ok module
  entry : ∀ {scope scope' : Scope} {modules modules' : List (String × Engine.Module)}
    {source : String}, SameMeaning refersTo source scope scope' →
    modules'.map Prod.fst = modules.map Prod.fst →
    (∃ ast, Engine.compileIntoSelfContained scope modules source = .ok ast) →
    ∃ ast, Engine.compileIntoSelfContained scope' modules' source = .ok ast

/-- The modules are registered again in a scope that means the same to them. -/
theorem registerScriptModules_congr {refersTo : String → String → Prop}
    (hengine : ResolvesByName refersTo) {maxOperations : Nat} {scope scope' : Scope}
    {modules : List (String × String)}
    (hsame : ∀ module ∈ modules, SameMeaning refersTo module.2 scope scope')
    {registered : List (String × Engine.Module)}
    (h : registerScriptModules maxOperations scope modules = .ok registered) :
    ∃ registered', registerScriptModules maxOperations scope' modules = .ok registered' ∧
      registered'.map Prod.fst = registered.map Prod.fst := by
  induction modules generalizing registered with
  | nil =>
    cases h
    exact ⟨[], rfl, rfl⟩
  | cons module modules ih =>
    obtain ⟨name, script⟩ := module
    obtain ⟨hhead, htail⟩ := List.forall_mem_cons.mp hsame
    rw [registerScriptModules] at h
    cases hast : Engine.compileWithScope scope script with
    | error e =>
      rw [hast] at h
      cases h
    | ok ast =>
      simp only [hast] at h
      cases hmodule : Engine.evalAstAsNew maxOperations scope ast with
      | error e =>
        rw [hmodule] at h
        cases h
      | ok module =>
        simp only [hmodule] at h
        cases hrest : registerScriptModules maxOperations scope modules with
        | error e =>
          rw [hrest] at h
          cases h
        | ok rest =>
          rw [hrest] at h
          cases h
          obtain ⟨ast', module', hast', hmodule'⟩ := hengine.module hhead ⟨ast, module, hast, hmodule⟩
          obtain ⟨rest', hrest', hnames⟩ := ih htail hrest
          refine ⟨(name, module') :: rest', ?_, by rw [List.map_cons, hnames]; rfl⟩
          rw [registerScriptModules]
          simp only [hast', hmodule', hrest', Except.map]

/-- **A script is compiled again** in a scope that means the same to it and its modules. -/
theorem compileScript_congr {refersTo : String → String → Prop} (hengine : ResolvesByName refersTo)
    {script : String} {modules : List (String × String)} {scope scope' : Scope} {maxOperations : Nat}
    (hscript : SameMeaning refersTo script scope scope')
    (hmodules : ∀ module ∈ modules, SameMeaning refersTo module.2 scope scope')
    {state : ProcessorState} (h : compileScript script modules scope maxOperations = .ok state) :
    ∃ state', compileScript script modules scope' maxOperations = .ok state' := by
  rw [compileScript] at h
  cases hregister : registerScriptModules maxOperations scope modules with
  | error e =>
    rw [hregister] at h
    cases h
  | ok registered =>
    simp only [hregister] at h
    obtain ⟨registered', hregister', hnames⟩ :=
      registerScriptModules_congr hengine hmodules hregister
    cases hast : Engine.compileIntoSelfContained scope registered script with
    | error e =>
      rw [hast] at h
      cases h
    | ok ast =>
      obtain ⟨ast', hast'⟩ := hengine.entry hscript hnames ⟨ast, hast⟩
      exact ⟨⟨maxOperations, registered', ast'⟩, by rw [compileScript, hregister']; simp only [hast']; rfl⟩

/-- **How scripts use the sink constants**: those that a source refers to, and the one that an error
of the engine says is not defined. -/
structure ConstantUse where
  constants : String → List String
  undefinedConstant : String → Option String

/-- The constants of a script and its modules. -/
def ConstantUse.scriptConstants (use : ConstantUse) (script : String)
    (modules : List (String × String)) : List String :=
  use.constants script ++ modules.flatMap fun module => use.constants module.2

/-- **What is assumed of the calls of a compiled script**: it emits to what its constants meant when it
was compiled, and a constant that is not defined is one of them that meant nothing. -/
structure EmitsByName (use : ConstantUse) : Prop where
  delivered : ∀ {script : String} {modules : List (String × String)} {scope : Scope}
    {maxOperations : Nat} {state : ProcessorState} {event : Value}
    {request : Wal.ProcessorRequestContext} {deliveries : List Wal.ProcessorDelivery},
    compileScript script modules scope maxOperations = .ok state →
    state.process event request = .ok deliveries → ∀ delivery ∈ deliveries,
      ∃ name ∈ use.scriptConstants script modules, scope.resolve name = some delivery.target
  undefined : ∀ {script : String} {modules : List (String × String)} {scope : Scope}
    {maxOperations : Nat} {state : ProcessorState} {event : Value}
    {request : Wal.ProcessorRequestContext} {error name : String},
    compileScript script modules scope maxOperations = .ok state →
    state.process event request = .error error → use.undefinedConstant error = some name →
      name ∈ use.scriptConstants script modules ∧ scope.resolve name = none

/-! ### The check -/

/-- **A module passes the check again** where there are more sinks and their constants are distinct. -/
theorem lintEmitTargets_mono {moduleName source : String} {sinkTargets sinkTargets' : List String}
    (hnodup : sinkTargets'.Nodup) (hdistinct : DistinctConstants sinkTargets')
    (hsub : sinkTargets ⊆ sinkTargets')
    (h : lintEmitTargets moduleName source sinkTargets = .ok ()) :
    lintEmitTargets moduleName source sinkTargets' = .ok () := by
  obtain ⟨constants', hconstants'⟩ := (sinkTargetConstants_isOk hnodup).mpr hdistinct
  rw [lintEmitTargets] at h
  cases hconstants : sinkTargetConstants sinkTargets with
  | error e =>
    rw [hconstants] at h
    cases h
  | ok constants =>
    simp only [hconstants] at h
    cases hcalls : Engine.emitCalls source with
    | error e =>
      rw [hcalls] at h
      cases h
    | ok calls =>
      simp only [hcalls] at h
      have hnone : calls.findSome? (lintEmitCall moduleName constants) = none := by
        rw [lintEmitTargetsInAst] at h
        split at h
        · cases h
        · assumption
      have hnone' : calls.findSome? (lintEmitCall moduleName constants') = none := by
        rw [List.findSome?_eq_none_iff] at hnone ⊢
        intro call hcall
        have hpass := hnone call hcall
        rw [lintEmitCall] at hpass ⊢
        split
        · next htarget => simp [htarget] at hpass
        · next name htarget =>
          simp only [htarget] at hpass
          have hthere : (constants.lookup name).isSome = true := by
            by_contra hnot
            rw [if_neg hnot] at hpass
            cases hpass
          obtain ⟨s, hs, hname⟩ := (sinkTargetConstants_lookup hconstants name).mp hthere
          exact if_pos ((sinkTargetConstants_lookup hconstants' name).mpr ⟨s, hsub hs, hname⟩)
        · next htarget => simp [htarget] at hpass
        · next htarget => simp [htarget] at hpass
      rw [lintEmitTargets, hconstants']
      simp only [hcalls, lintEmitTargetsInAst, hnone']

end Ingest4x.Rhai
