import ModuleGateway.FileSystem.Access
import ModuleGateway.Script.Module
import ModuleGateway.Specifier.Basic

/-!
The packages that sources import. All script files below a directory are read, apart from those in
hidden directories and installed packages. Links are not followed, and a file that is no module
contributes nothing.
-/

namespace ModuleGateway.Trust

/-- The extensions of the files that are read. -/
def scannedExtensions : List String :=
  ["ts", "tsx", "mts", "js", "jsx", "mjs"]

/-- Whether an entry of a directory is passed over. -/
def isSkipped (name : String) : Bool :=
  name.toList.head? = some '.' || name = "node_modules"

section Walk

-- What tells the specifiers at the top of a text, if the text is a module of the dialect.
variable (specifiers? : Script.Dialect → String → Option (List String))

/-- The bare specifiers that a file imports at its top. -/
def fileImports (name : String) (data : FileData) : List String :=
  let ext := (Path.extension? ⟨name⟩).getD ""
  if scannedExtensions.contains ext then
    match String.fromUTF8? data.content, Script.Dialect.ofName? name with
    | some source, some dialect =>
      ((specifiers? dialect source).getD []).filter fun s => Specifier.kind s = .bare
    | _, _ => []
  else []

mutual
/-- The bare specifiers that the files of an entry import. -/
def entryImports (name : String) (node : Node) : List String :=
  match node with
  | .file data => fileImports specifiers? name data
  | .symlink _ => []
  | .directory entries => entriesImports entries

/-- The bare specifiers that the files of a directory's entries import. -/
def entriesImports (entries : List (String × Node)) : List String :=
  match entries with
  | [] => []
  | (name, node) :: rest =>
    (if isSkipped name then [] else entryImports name node) ++ entriesImports rest
end

/-- The bare specifiers that the script files below a path import. The path itself may be a link, and
its name does not count. -/
def importsBelow (fs : FileSystem) (root : Path) : List String :=
  match fs.stat root with
  | .ok node => entryImports specifiers? (root.fileName?.getD "") node
  | .error _ => []

end Walk

/-- What the scripts below a path import, read by the grammar of modules. -/
def scan (fs : FileSystem) (root : Path) : List String :=
  importsBelow Script.specifiers? fs root

end ModuleGateway.Trust
