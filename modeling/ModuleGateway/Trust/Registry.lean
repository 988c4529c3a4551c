import ModuleGateway.Specifier.Basic

/-!
The packages a gateway may bundle. The registry only grows. Registering has two parts, looking a
name up and adding it, and another caller may come between them; adding looks again.
-/

namespace ModuleGateway.Trust

/-- The trusted package names, latest first. -/
structure Registry where
  names : List String := []
  deriving DecidableEq, Repr

namespace Registry

def empty : Registry := {}

/-- Whether a package name is trusted. -/
def contains (r : Registry) (name : String) : Bool :=
  r.names.contains name

/-- Whether the package that owns a specifier is trusted. -/
def trusts (r : Registry) (specifier : String) : Bool :=
  r.contains (Specifier.packageName specifier)

/-- Adds a name, and tells whether it was missing. -/
def insert (r : Registry) (name : String) : Bool × Registry :=
  if r.contains name then (false, r) else (true, ⟨name :: r.names⟩)

/-- The name that registering a specifier goes on to add after looking it up: none for an empty
name and for one that is trusted already. -/
def candidate? (r : Registry) (specifier : String) : Option String :=
  let name := Specifier.packageName specifier
  if name = "" || r.trusts name then none else some name

/-- Trusts the package that owns a specifier, and tells whether it was not trusted before. -/
def register (r : Registry) (specifier : String) : Bool × Registry :=
  match r.candidate? specifier with
  | none => (false, r)
  | some name => r.insert name

/-- Trusts the packages of all specifiers in order. -/
def extend (r : Registry) (specifiers : List String) : Registry :=
  specifiers.foldl (fun r s => (r.register s).2) r

def size (r : Registry) : Nat :=
  r.names.length

/-- The trusted names in ascending order. -/
def sorted (r : Registry) : List String :=
  r.names.mergeSort (· ≤ ·)

end Registry

end ModuleGateway.Trust
