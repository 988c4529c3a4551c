import ModuleGateway.Settings.Basic

/-!
What a path asks for. Below the public prefix, what lies in the vendor segment is a specifier and all
else is a source file.
-/

namespace ModuleGateway

/-- What a path asks for. -/
inductive Route where
  /-- The module of a specifier. -/
  | vendor (specifier : String)
  /-- A source file, by a path that starts with a slash. -/
  | source (path : String)
  deriving DecidableEq, Repr

namespace Route

/-- The part of a path below the public prefix: a slash with something behind it. -/
def below? (settings : Settings) (path : List Char) : Option (List Char) := do
  let rest ←
    if settings.publicPrefix = "/" then some path
    else Text.after? settings.publicPrefix.toList path
  if rest.head? = some '/' && rest ≠ ['/'] then some rest else none

/-- The segment that vendor modules are served under, between slashes. -/
def vendorMark (settings : Settings) : List Char :=
  '/' :: settings.vendorSegment.toList ++ ['/']

/-- What a path without query asks for; none when the gateway does not own it. -/
def ofPath? (settings : Settings) (path : String) : Option Route := do
  let rest ← below? settings path.toList
  match Text.after? (vendorMark settings) rest with
  | some specifier => some (.vendor (String.ofList specifier))
  | none => some (.source (String.ofList rest))

end Route

end ModuleGateway
