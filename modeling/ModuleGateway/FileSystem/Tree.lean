import ModuleGateway.Bytes
import ModuleGateway.Path

/-!
File systems as values: a tree of directories whose leaves are files and symbolic links. A
location is the list of names that leads from the root to a node without passing a link.
-/

namespace ModuleGateway

/-- What a file holds and when it was last changed, in nanoseconds from the epoch. -/
structure FileData where
  content : ByteArray
  modified : Int
  deriving DecidableEq

/-- A node of a file system. -/
inductive Node where
  | file (data : FileData)
  | symlink (target : String)
  | directory (children : List (String × Node))

/-- The names from the root to a node. -/
abbrev Location := List String

namespace Node

def isDirectory : Node → Bool
  | .directory _ => true
  | _ => false

def isFile : Node → Bool
  | .file _ => true
  | _ => false

/-- The named children of a directory; nothing else has any. -/
def children : Node → List (String × Node)
  | .directory entries => entries
  | _ => []

/-- The node at a location. -/
def get? (node : Node) : Location → Option Node
  | [] => some node
  | name :: rest =>
    match node.children.lookup name with
    | some child => child.get? rest
    | none => none

/-- A list of children in which `name` stands for `child`, or for nothing. The other children keep
their places. -/
def setChild (name : String) (child : Option Node) (entries : List (String × Node)) :
    List (String × Node) :=
  match child with
  | none => entries.filter fun (n, _) => n ≠ name
  | some node =>
    if entries.any fun (n, _) => n = name then
      entries.map fun (n, old) => if n = name then (n, node) else (n, old)
    else entries ++ [(name, node)]

/-- The tree with `value` at a location, or with nothing there. A location whose parent is not a
directory stays as it is. -/
def set (value : Option Node) (node : Node) : Location → Node
  | [] => value.getD node
  | name :: rest =>
    match node, rest with
    | .directory entries, [] => .directory (setChild name value entries)
    | .directory entries, _ :: _ =>
      match entries.lookup name with
      | some child => .directory (setChild name (some (child.set value rest)) entries)
      | none => node
    | _, _ => node

end Node

namespace Location

/-- A location as an absolute path. -/
def path (l : Location) : Path :=
  ⟨"/" ++ String.intercalate "/" l⟩

end Location

/-- A tree and the directory that relative paths start from. -/
structure FileSystem where
  root : Node
  workingDirectory : Location := []

namespace FileSystem

/-- A file system without files. -/
def empty : FileSystem where
  root := .directory []

def get? (fs : FileSystem) (l : Location) : Option Node :=
  fs.root.get? l

def set (fs : FileSystem) (l : Location) (value : Option Node) : FileSystem :=
  { fs with root := fs.root.set value l }

end FileSystem

end ModuleGateway
