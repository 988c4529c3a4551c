import ModuleGateway.Package.Locate
import ModuleGateway.Settings.Basic
import ModuleGateway.Trust.Registry

/-!
What provides a package: a runtime global, an installed package, or the CDN, in this order.
Importing an installed package makes it trusted.
-/

namespace ModuleGateway.Package

/-- What provides the module of a specifier. -/
inductive Resolution where
  /-- The installed package of this name; the module is served at the path. -/
  | installed (package path : String)
  /-- A runtime global. -/
  | shimmed
  /-- The CDN, at the address. -/
  | cdn (url : String)
  /-- Nothing. -/
  | unresolved
  deriving DecidableEq, Repr

/-- The installed package that provides the module. -/
def Resolution.package? : Resolution → Option String
  | .installed package _ => some package
  | _ => none

/-- Where packages come from and where their modules are served. -/
structure Sources where
  /-- The directory of installed packages. -/
  directory : Path
  /-- The public path of vendor modules. -/
  vendorPrefix : String
  /-- The specifiers that a runtime global stands for. -/
  globals : List (String × String)
  /-- The address of the CDN, when it is used. -/
  cdn? : Option String
  deriving DecidableEq, Repr

namespace Sources

def ofSettings (s : Settings) : Sources where
  directory := s.packagesDirectory
  vendorPrefix := s.vendorPrefix
  globals := s.globals
  cdn? := if s.cdnEnabled then some s.cdnAddress else none

/-- The public path that serves a specifier. -/
def publicPath (sources : Sources) (specifier : String) : String :=
  sources.vendorPrefix ++ "/" ++ specifier

/-- The address of a specifier at the CDN. -/
def cdnUrl? (sources : Sources) (specifier : String) : Option String :=
  sources.cdn?.map fun base => base ++ "/" ++ specifier

/-- The expression of the runtime global that stands for a specifier. -/
def global? (sources : Sources) (specifier : String) : Option String :=
  sources.globals.lookup specifier

/-- The installed module that a specifier names. -/
def locate? (sources : Sources) (fs : FileSystem) (specifier : String) : Option Located :=
  Package.locate? fs sources.directory specifier

/-- What provides the module of a specifier. -/
def resolve (sources : Sources) (fs : FileSystem) (specifier : String) : Resolution :=
  if (sources.global? specifier).isSome then .shimmed
  else
    match sources.locate? fs specifier with
    | some m => .installed m.package (sources.publicPath specifier)
    | none =>
      match sources.cdnUrl? specifier with
      | some url => .cdn url
      | none => .unresolved

/-- The text that an import of a specifier becomes. What nothing provides keeps its public path, so
that output does not depend on what is installed. -/
def rendered (sources : Sources) (specifier : String) : Resolution → String
  | .cdn url => url
  | .installed _ path => path
  | .shimmed | .unresolved => sources.publicPath specifier

/-- Resolves a specifier and trusts the installed package that provides it. -/
def resolveTrusting (sources : Sources) (fs : FileSystem) (specifier : String) :
    StateM Trust.Registry Resolution := do
  let resolution := sources.resolve fs specifier
  if let some package := resolution.package? then
    modify fun registry => (registry.register package).2
  pure resolution

end Sources

end ModuleGateway.Package
