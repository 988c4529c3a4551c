import ModuleGateway.Bytes

/-!
What a build ends with.
-/

namespace ModuleGateway.Build

/-- The result of one build. -/
inductive Outcome where
  /-- Output that was compiled and linked. -/
  | success (content : ByteArray) (contentType : String)
  /-- The message is shown to the developer. -/
  | failure (message : String)
  deriving DecidableEq

def Outcome.isSuccess : Outcome → Bool
  | .success .. => true
  | .failure _ => false

end ModuleGateway.Build
