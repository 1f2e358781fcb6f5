import Ingest4x.Replay.Context

/-! # Scripts and their sink constants

A processor script names the sinks it emits to by constants, which are pushed into its scope when it
is compiled. The Rhai engine is a parameter.

* **`sinkTargetConstantName`** — the constant of a sink id; letters lose their case, and every run of
  other characters becomes one underscore.
* **`Scope`** — the constants that were pushed; **`Scope.resolve`** — the one that a name means.
* **`ProcessorState`** — a compiled script. -/

namespace Ingest4x.Rhai

open Wal

/-! ### Constants -/

/-- The characters of a constant after the first ones: what is no letter and no digit becomes an
underscore, unless it follows one. -/
def constantChars (previousWasSeparator : Bool) : List Char → List Char
  | [] => []
  | ch :: chars =>
    if Text.isAsciiAlphanumeric ch then ch.toUpper :: constantChars false chars
    else if previousWasSeparator then constantChars true chars
    else '_' :: constantChars true chars

/-- **`sink_target_constant_name`.** -/
def sinkTargetConstantName (sinkTarget : String) : String :=
  String.ofList ((("SINK_".toList ++ constantChars false sinkTarget.toList).reverse.dropWhile
    (· = '_')).reverse)

example : sinkTargetConstantName "events.error-1" = "SINK_EVENTS_ERROR_1" := by decide +kernel

/-- `SinkTarget` constants with their names, in the order in which they were pushed. -/
abbrev Scope : Type := List (String × String)

/-- `push_sink_target_constants` into an empty scope. -/
def pushSinkTargetConstants (sinkTargets : List String) : Scope :=
  sinkTargets.map fun sinkTarget => (sinkTargetConstantName sinkTarget, sinkTarget)

/-- **What a name means in a scope**: the last constant that was pushed under it. -/
def Scope.resolve (scope : Scope) (name : String) : Option String :=
  ((scope.filter fun constant => constant.1 = name).getLast?).map Prod.snd

/-- A name that was pushed once means its constant. -/
theorem Scope.resolve_pushSinkTargetConstants {sinkTargets : List String} {name sinkTarget : String} :
    (pushSinkTargetConstants sinkTargets).resolve name = some sinkTarget →
      sinkTarget ∈ sinkTargets ∧ sinkTargetConstantName sinkTarget = name := by
  intro h
  obtain ⟨constant, hlast, rfl⟩ := Option.map_eq_some_iff.mp h
  obtain ⟨hmem, hname⟩ := List.mem_filter.mp (List.mem_of_getLast? hlast)
  obtain ⟨target, htarget, rfl⟩ := List.mem_map.mp hmem
  exact ⟨htarget, of_decide_eq_true hname⟩

/-- A constant of one of the sinks has a meaning. -/
theorem Scope.isSome_resolve {sinkTargets : List String} {sinkTarget : String}
    (h : sinkTarget ∈ sinkTargets) : ((pushSinkTargetConstants sinkTargets).resolve
      (sinkTargetConstantName sinkTarget)).isSome = true := by
  rw [resolve, Option.isSome_map, Option.isSome_iff_ne_none, ne_eq, List.getLast?_eq_none_iff,
    List.filter_eq_nil_iff]
  intro hall
  exact hall _ (List.mem_map_of_mem h) (decide_eq_true rfl)

/-! ### The engine -/

/-- The first argument of a call of `emit`, as the syntax tree has it. -/
inductive EmitTarget
  | missing
  | variable_ (name : String)
  | stringConstant (value : String)
  | other
  deriving DecidableEq

/-- A call of `emit`, with the position that a message names. -/
structure EmitCall where
  target : EmitTarget
  position : String

/-- **The Rhai engine**, with the host functions registered: what `compile`, `compile_with_scope`,
`eval_ast_as_new`, `compile_into_self_contained` and `call_fn` do. The calls of `emit` are listed in
the order of the walk over the syntax tree. -/
class Engine where
  Module : Type
  Ast : Type
  emitCalls : String → Except String (List EmitCall)
  compileWithScope : Scope → String → Except String Ast
  evalAstAsNew : (maxOperations : Nat) → Scope → Ast → Except String Module
  compileIntoSelfContained : Scope → List (String × Module) → String → Except String Ast
  callProcess : (maxOperations : Nat) → List (String × Module) → Ast → Value →
    ProcessorRequestContext → Except String (List ProcessorDelivery)

variable [Engine]

/-- `register_script_modules`. -/
def registerScriptModules (maxOperations : Nat) (scope : Scope) :
    List (String × String) → Except String (List (String × Engine.Module))
  | [] => .ok []
  | (name, script) :: modules =>
    match Engine.compileWithScope scope script with
    | .error error => .error ("failed to compile Rhai module \x60" ++ name ++ "\x60: " ++ error)
    | .ok ast =>
      match Engine.evalAstAsNew maxOperations scope ast with
      | .error error => .error ("failed to initialize Rhai module \x60" ++ name ++ "\x60: " ++ error)
      | .ok module =>
        (registerScriptModules maxOperations scope modules).map fun rest => (name, module) :: rest

/-- **`ProcessorState`**: the engine with its modules, and a compiled script. -/
structure ProcessorState where
  maxOperations : Nat
  modules : List (String × Engine.Module)
  ast : Engine.Ast

/-- `compile_script` with a scope. -/
def compileScript (script : String) (modules : List (String × String)) (scope : Scope)
    (maxOperations : Nat) : Except String ProcessorState :=
  match registerScriptModules maxOperations scope modules with
  | .error error => .error error
  | .ok modules =>
    (Engine.compileIntoSelfContained scope modules script).map fun ast => ⟨maxOperations, modules, ast⟩

/-- **`ProcessorState::new_with_sink_targets`.** -/
def ProcessorState.newWithSinkTargets (script : String) (modules : List (String × String))
    (sinkTargets : List String) (maxOperations : Nat) : Except String ProcessorState :=
  compileScript script modules (pushSinkTargetConstants sinkTargets) maxOperations

/-- `ProcessorState::process`. -/
def ProcessorState.process (state : ProcessorState) (event : Value)
    (request : ProcessorRequestContext) : Except String (List ProcessorDelivery) :=
  Engine.callProcess state.maxOperations state.modules state.ast event request

end Ingest4x.Rhai
