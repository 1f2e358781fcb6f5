import Ingest4x.Rhai.Scope

/-! # The check of emit targets

A script is saved only if every call of `emit` in it names the constant of a sink that is enabled at
that time. The check also looks at the sinks: two of them with one constant are an error, whatever
the script says. -/

namespace Ingest4x.Rhai

/-- The loop of `sink_target_constants`: the constants that were inserted so far. -/
def insertSinkTargetConstants (constants : SortedTable String String) :
    List String → Except String (SortedTable String String)
  | [] => .ok constants
  | sinkTarget :: sinkTargets =>
    let constantName := sinkTargetConstantName sinkTarget
    if constantName = "SINK" then
      .error s!"invalid event sink id '{sinkTarget}' for Rhai constant"
    else
      match constants.lookup constantName with
      | some existing =>
        .error ("event sink ids '" ++ existing ++ "' and '" ++ sinkTarget ++
          "' both map to Rhai constant \x60" ++ constantName ++ "\x60")
      | none => insertSinkTargetConstants (constants.insert constantName sinkTarget) sinkTargets

/-- **`sink_target_constants`.** -/
def sinkTargetConstants (sinkTargets : List String) : Except String (SortedTable String String) :=
  insertSinkTargetConstants ∅ sinkTargets

/-- `invalid_emit_target`. -/
def invalidEmitTarget (moduleName message position : String) : String :=
  "failed to lint Rhai module \x60" ++ moduleName ++ "\x60: " ++ message ++ " " ++ position

/-- `lint_emit_call`: the error of a call, if it has one. -/
def lintEmitCall (moduleName : String) (constants : SortedTable String String) (call : EmitCall) :
    Option String :=
  match call.target with
  | .missing =>
    some (invalidEmitTarget moduleName "emit(target, event) requires a sink target constant"
      call.position)
  | .variable_ constantName =>
    if (constants.lookup constantName).isSome then none
    else
      some (invalidEmitTarget moduleName
        ("unknown sink target constant \x60" ++ constantName ++ "\x60") call.position)
  | .stringConstant sinkTarget =>
    let constantName := sinkTargetConstantName sinkTarget
    let message :=
      if (constants.lookup constantName).isSome then
        "emit target must use sink constant \x60" ++ constantName ++ "\x60 instead of string literal"
      else "unknown sink target \x60" ++ sinkTarget ++ "\x60"
    some (invalidEmitTarget moduleName message call.position)
  | .other =>
    some (invalidEmitTarget moduleName "emit target must be a configured sink constant" call.position)

/-- `lint_emit_targets_in_ast`: the first call with an error decides. -/
def lintEmitTargetsInAst (moduleName : String) (constants : SortedTable String String)
    (calls : List EmitCall) : Except String Unit :=
  match calls.findSome? (lintEmitCall moduleName constants) with
  | some error => .error error
  | none => .ok ()

variable [Engine]

/-- **`lint_emit_targets`.** -/
def lintEmitTargets (moduleName source : String) (sinkTargets : List String) : Except String Unit :=
  match sinkTargetConstants sinkTargets with
  | .error error => .error error
  | .ok constants =>
    match Engine.emitCalls source with
    | .error error => .error ("failed to compile Rhai module \x60" ++ moduleName ++ "\x60: " ++ error)
    | .ok calls => lintEmitTargetsInAst moduleName constants calls

end Ingest4x.Rhai
