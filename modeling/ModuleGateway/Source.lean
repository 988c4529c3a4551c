import ModuleGateway.AssetKind
import ModuleGateway.FileSystem.Access
import ModuleGateway.Settings.Basic

/-!
The source file that a request asks for. A request names a file below the source root, with its own
extension, with that of the compiled script, or with none. Only regular files inside the root
count, whatever links lead to them.
-/

namespace ModuleGateway.Source

/-- The extensions of script files in the order they are tried. -/
def scriptExtensions : List String :=
  ["ts", "tsx", "js", "jsx", "mjs"]

/-- The extensions of compiled scripts. A request with one asks for the source behind it. -/
def compiledExtensions : List String :=
  ["js", "mjs"]

/-- The stem and the extension of a request's last segment. A dot in front of the segment starts no
extension. -/
def stemAndExtension? (request : String) : Option (String × String) := do
  let (stem, ext) ← Text.cutLast? '.' request.toList
  if ext.contains '/' || stem.getLast? = some '/' then none
  else some (String.ofList stem, String.ofList ext)

/-- A stem with each script extension. -/
def withExtensions (stem : String) : List String :=
  scriptExtensions.map fun ext => stem ++ "." ++ ext

/-- The files a script request may mean, in the order they are tried. -/
def scriptCandidates (request : String) : List String :=
  match stemAndExtension? request with
  | some (stem, ext) =>
    if compiledExtensions.contains ext then withExtensions stem
    else if scriptExtensions.contains ext then [request]
    else withExtensions request
  | none => withExtensions request

/-- The files a request may mean, in the order they are tried. -/
def candidates (kind : AssetKind) (request : String) : List String :=
  match kind with
  | .style => [request]
  | .script => scriptCandidates request

/-- The location of a candidate that is a regular file strictly inside the root. -/
def accept? (fs : FileSystem) (root : Location) (candidate : String) : Option Location :=
  match fs.canonical (root.path.join ⟨candidate⟩) with
  | .error _ => none
  | .ok l =>
    if root.isPrefixOf l && l ≠ root && (fs.get? l).any Node.isFile then some l else none

/-- The source file that a request means. -/
def resolve? (fs : FileSystem) (root : Location) (kind : AssetKind) (request : String) :
    Option Location :=
  let relative := Text.trimStart (· = '/') request.toList
  if relative = [] || relative.contains '\x00' then none
  else (candidates kind (String.ofList relative)).findSome? (accept? fs root)

/-- The location of the source root, which has to be a directory. -/
def root (fs : FileSystem) (path : Path) : Except SetupError Location :=
  match fs.canonical path with
  | .error _ => .error (.sourceRootMissing path)
  | .ok l =>
    if (fs.get? l).any Node.isDirectory then .ok l else .error (.sourceRootMissing l.path)

end ModuleGateway.Source
