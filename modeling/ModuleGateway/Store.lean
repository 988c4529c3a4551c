import ModuleGateway.FileSystem.Access
import ModuleGateway.Specifier.EntryName

/-!
Persisted vendor modules, one file for each specifier. That a file is there means that it is
valid: an entry is written under another name first and then moved into place, so a reader finds
nothing or all of it.
-/

namespace ModuleGateway

/-- The three steps of writing an entry. -/
inductive WriteStep where
  | directory
  | content
  | move
  deriving DecidableEq, Repr

/-- A store of modules in a directory, which the first write makes. -/
structure Store where
  directory : Path
  /-- The number that marks this process's unfinished files. -/
  process : Nat := 1
  /-- The step at which the disk refuses every write, if it does. -/
  refusal : Option WriteStep := none
  deriving DecidableEq, Repr

namespace Store

/-- The file that holds the entry of a specifier. -/
def entryPath (store : Store) (specifier : String) : Path :=
  store.directory.join ⟨Specifier.entryName specifier⟩

/-- The file an entry is written to before it is moved. Its name starts with a dot, so it is never
taken for an entry. -/
def unfinishedPath (store : Store) (specifier : String) : Path :=
  store.directory.join
    ⟨"." ++ Specifier.escape specifier ++ "." ++ toString store.process ++ ".tmp"⟩

/-- The entry of a specifier. A file that cannot be read counts as absent. -/
def read? (store : Store) (fs : FileSystem) (specifier : String) : Option ByteArray :=
  match fs.read (store.entryPath specifier) with
  | .ok content => some content
  | .error _ => none

def contains (store : Store) (fs : FileSystem) (specifier : String) : Bool :=
  fs.existsAt (store.entryPath specifier)

/-- A write that failed: why, and the file system it leaves. -/
structure Failed where
  error : FileError
  left : FileSystem

/-- The file system after an unfinished file has been taken away again, if it was there. -/
def discard (store : Store) (fs : FileSystem) (specifier : String) : FileSystem :=
  match fs.remove (store.unfinishedPath specifier) with
  | .ok cleaned => cleaned
  | .error _ => fs

/-- A step of a write, refused if the disk refuses it. -/
def attempt (store : Store) (step : WriteStep) (action : Except FileError FileSystem) :
    Except FileError FileSystem :=
  if store.refusal = some step then .error .noEntry else action

/-- Persists the content of a specifier. After a failure the unfinished file is removed; the
directory that was made stays. -/
def write (store : Store) (fs : FileSystem) (specifier : String) (content : ByteArray) :
    Except Failed FileSystem :=
  match store.attempt .directory (fs.makeDirectories store.directory) with
  | .error e => .error ⟨e, fs⟩
  | .ok ready =>
    let unfinished := store.unfinishedPath specifier
    match store.attempt .content (ready.write unfinished ⟨content, 0⟩) with
    | .error e => .error ⟨e, store.discard ready specifier⟩
    | .ok written =>
      match store.attempt .move (written.rename unfinished (store.entryPath specifier)) with
      | .error e => .error ⟨e, store.discard written specifier⟩
      | .ok moved => .ok moved

/-- The specifier whose entry a directory child is: a file whose name ends in the extension of
entries and does not start with a dot. -/
def entrySpecifier? (name : String) (node : Node) : Option String :=
  if node.isFile && name.toList.head? ≠ some '.' then
    (Text.before? Specifier.entryExtension.toList name.toList).map fun stem =>
      Specifier.unescape (String.ofList stem)
  else none

/-- The specifiers of all entries in ascending order. A directory that cannot be listed has
none. -/
def specifiers (store : Store) (fs : FileSystem) : List String :=
  match fs.list store.directory with
  | .error _ => []
  | .ok entries =>
    (entries.filterMap fun (name, node) => entrySpecifier? name node).mergeSort (· ≤ ·)

/-- Removes the directory with everything in it, and counts the entries that were there. A
directory that does not exist counts as empty. -/
def clear (store : Store) (fs : FileSystem) : Except FileError (Nat × FileSystem) :=
  match fs.removeTree store.directory with
  | .ok cleared => .ok ((store.specifiers fs).length, cleared)
  | .error .noEntry => .ok (0, fs)
  | .error e => .error e

end Store

end ModuleGateway
