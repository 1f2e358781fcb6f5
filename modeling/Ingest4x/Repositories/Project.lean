import Mathlib.Tactic.Basic

/-! # Projects

A project as the repositories hand it out: what a request authenticates against. -/

namespace Ingest4x

/-- `ProjectAuthMode`. -/
inductive ProjectAuthMode
  | token
  | public_
  deriving DecidableEq, Repr

namespace ProjectAuthMode

/-- `ProjectAuthMode::as_str`. -/
def asStr : ProjectAuthMode → String
  | token => "token"
  | public_ => "public"

/-- `ProjectAuthMode::from_storage`: every other text means a token. -/
def fromStorage (value : String) : ProjectAuthMode :=
  if value = "public" then public_ else token

@[simp] theorem fromStorage_asStr (mode : ProjectAuthMode) : fromStorage mode.asStr = mode := by
  cases mode <;> rfl

end ProjectAuthMode

/-- **`Project`**, less its timestamps. -/
structure Project where
  id : Int32
  ingestToken : String
  projectKey : String
  authMode : ProjectAuthMode
  allowedIps : List String
  name : String
  enabled : Bool
  deriving DecidableEq

end Ingest4x
