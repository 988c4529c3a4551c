import ModuleGateway.Package.Resolve
import ModuleGateway.Relink.Splice

/-!
What an import target becomes. Addresses and absolute paths stay. A bare specifier becomes the
place of its package. A relative path between source modules gets the extension that it lacks; one
inside a package becomes the public path of the file it means, unless that lies outside the package.
-/

namespace ModuleGateway.Relink

open Package (Sources Located)

/-- What kind of module the imports stand in. -/
inductive Importer where
  | source
  | package (located : Located)
  deriving DecidableEq, Repr

/-- A relative path with the extension that a script has by default, when its last segment has
none. -/
def withExtension? (specifier : String) : Option String :=
  match (Text.split '/' specifier.toList).getLast? with
  | some last => if last = [] || last.contains '.' then none else some (specifier ++ ".js")
  | none => none

/-- The public path of the file that a relative path in a package's module means. -/
def insidePath? (sources : Sources) (m : Located) (specifier : String) : Option String := do
  let directory ← m.file.parent?
  let steps ← Path.normalize? (directory.join ⟨specifier⟩).components
  let inner ← m.specifierFor? (Path.ofComponents steps)
  some (sources.publicPath inner)

/-- What a target becomes; nothing when it stays. A bare target trusts the installed package that
provides it. -/
def mapTarget (sources : Sources) (fs : FileSystem) (importer : Importer) (specifier : String) :
    StateM Trust.Registry (Option String) :=
  match Specifier.kind specifier with
  | .url | .rootAbsolute => pure none
  | .bare => do
    let resolution ← sources.resolveTrusting fs specifier
    pure (some (sources.rendered specifier resolution))
  | .relative =>
    match importer with
    | .source => pure (withExtension? specifier)
    | .package m => pure (insidePath? sources m specifier)

/-- A script with its import targets linked to what the gateway serves. -/
def link (sources : Sources) (fs : FileSystem) (importer : Importer) (script : String) :
    StateM Trust.Registry (Except Unterminated String) :=
  relink (mapTarget sources fs importer) script

end ModuleGateway.Relink
