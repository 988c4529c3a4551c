import ModuleGateway.FileSystem.Access
import ModuleGateway.Package.Manifest
import ModuleGateway.Specifier.Basic

/-!
Where the module of a specifier lies. A target is tried as it is and with the usual endings, and
counts only when it is a regular file that stays inside its package, whatever links it passes.
-/

namespace ModuleGateway.Package

open Json (Value)

/-- A module file of an installed package. -/
structure Located where
  /-- The name of the package. -/
  package : String
  /-- The directory of the package, free of links. -/
  directory : Path
  /-- The file of the module, free of links and below the directory. -/
  file : Path
  deriving DecidableEq, Repr

/-- The specifier of a file of the package; none for the package's directory and for files outside
it. -/
def Located.specifierFor? (m : Located) (file : Path) : Option String := do
  let inner ← Path.below? m.directory.components file.components
  if inner = [] then none
  else
    let written := (Path.ofComponents inner).text.toList.map fun c => if c = '\\' then '/' else c
    some (m.package ++ "/" ++ String.ofList written)

/-- A target without the dot segments it starts with. -/
def dropHere : List Char → List Char
  | '.' :: '/' :: rest => dropHere rest
  | target => target

/-- The paths a target may stand for, in the order they are tried; none when the target leaves the
package. -/
def candidates (directory : Path) (target : String) : List Path :=
  let joined := directory.join ⟨String.ofList (dropHere target.toList)⟩
  match Path.normalize? joined.components with
  | none => []
  | some steps =>
    if (Path.below? directory.components steps).isNone then []
    else
      let base := Path.ofComponents steps
      [base, base.append ".js", base.append ".mjs", base.join ⟨"index.js"⟩]

/-- The location of a candidate that is a regular file inside the package. -/
def accept? (fs : FileSystem) (directory : Location) (candidate : Path) : Option Location :=
  match fs.canonical candidate with
  | .error _ => none
  | .ok l =>
    if directory.isPrefixOf l && (fs.get? l).any Node.isFile then some l else none

/-- The file a target names in the package at `directory`. -/
def probe? (fs : FileSystem) (directory : Location) (target : String) : Option Location :=
  (candidates directory.path target).findSome? (accept? fs directory)

/-- The manifest of the package at `directory`. A manifest that cannot be read counts as absent. -/
def manifest? (fs : FileSystem) (directory : Location) : Option Value :=
  match fs.readText (directory.path.join ⟨"package.json"⟩) with
  | .ok text => Json.read? text
  | .error _ => none

/-- The module that a specifier names among the packages installed in `packages`. -/
def locate? (fs : FileSystem) (packages : Path) (specifier : String) : Option Located :=
  let (package, subpath) := Specifier.split specifier
  match fs.canonical (packages.join ⟨package⟩) with
  | .error _ => none
  | .ok directory =>
    if !(fs.get? directory).any Node.isDirectory then none
    else
      let manifest := manifest? fs directory
      let targets :=
        match subpath with
        | none => mainTargets manifest
        | some inner => subpathTargets manifest inner
      (targets.findSome? (probe? fs directory)).map fun file =>
        ⟨package, directory.path, file.path⟩

end ModuleGateway.Package
