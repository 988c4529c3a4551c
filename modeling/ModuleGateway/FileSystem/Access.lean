import ModuleGateway.FileSystem.Walk

/-!
Reading and changing a file system. A change gives the new file system; a change that fails gives
the reason and leaves nothing behind.
-/

namespace ModuleGateway.FileSystem

/-- The node a path leads to. -/
def stat (fs : FileSystem) (p : Path) : Except FileError Node := do
  match fs.get? (← fs.locate p) with
  | some node => .ok node
  | none => .error .noEntry

def isDirectory (fs : FileSystem) (p : Path) : Bool :=
  match fs.stat p with
  | .ok node => node.isDirectory
  | .error _ => false

def isFile (fs : FileSystem) (p : Path) : Bool :=
  match fs.stat p with
  | .ok node => node.isFile
  | .error _ => false

/-- Whether a path leads to anything. -/
def existsAt (fs : FileSystem) (p : Path) : Bool :=
  match fs.stat p with
  | .ok _ => true
  | .error _ => false

/-- The content of the file at a path. -/
def read (fs : FileSystem) (p : Path) : Except FileError ByteArray := do
  match ← fs.stat p with
  | .file data => .ok data.content
  | .directory _ => .error .isDirectory
  | .symlink _ => .error .noEntry

/-- The content of the file at a path as text. -/
def readText (fs : FileSystem) (p : Path) : Except FileError String := do
  match String.fromUTF8? (← fs.read p) with
  | some text => .ok text
  | none => .error .notText

/-- The names in the directory at a path with the nodes they stand for, links not followed. -/
def list (fs : FileSystem) (p : Path) : Except FileError (List (String × Node)) := do
  match ← fs.stat p with
  | .directory entries => .ok entries
  | _ => .error .notDirectory

/-- The path without the slashes at its end; a path of slashes only is kept. -/
@[irreducible]
def dropTrailingSlashes (p : Path) : Path :=
  let text := Text.trimEnd (· = '/') p.text.toList
  if text = [] then p else ⟨String.ofList text⟩

/-- Makes one directory, whose parent has to exist. -/
def makeDirectory (fs : FileSystem) (p : Path) : Except FileError FileSystem := do
  match ← fs.arrive (dropTrailingSlashes p) false with
  | .node _ => .error .exists
  | .vacant dir name => .ok (fs.set (dir ++ [name]) (some (.directory [])))

/-- Makes the directory at a path and those above it that do not exist, which are looked for
upwards for at most `depth` steps. -/
def makeDirectoriesFor : Nat → FileSystem → Path → Except FileError FileSystem
  | depth, fs, p =>
    match fs.makeDirectory p with
    | .ok made => .ok made
    | .error .noEntry =>
      match depth, p.parent? with
      | depth + 1, some parent =>
        match makeDirectoriesFor depth fs parent with
        | .error e => .error e
        | .ok above =>
          match above.makeDirectory p with
          | .ok made => .ok made
          | .error e => if above.isDirectory p then .ok above else .error e
      | _, _ => .error .noEntry
    | .error e => if fs.isDirectory p then .ok fs else .error e

/-- Makes the directory at a path and those above it that do not exist. The empty path names
nothing to make. -/
def makeDirectories (fs : FileSystem) (p : Path) : Except FileError FileSystem :=
  if p.text = "" then .ok fs else makeDirectoriesFor p.components.length fs p

/-- Puts a file at a path, in place of a file that is there. -/
def write (fs : FileSystem) (p : Path) (data : FileData) : Except FileError FileSystem := do
  match ← fs.arrive p with
  | .vacant dir name => .ok (fs.set (dir ++ [name]) (some (.file data)))
  | .node l =>
    match fs.get? l with
    | some (.directory _) => .error .isDirectory
    | _ => .ok (fs.set l (some (.file data)))

/-- Puts a link at a path where nothing is. -/
def link (fs : FileSystem) (p : Path) (target : String) : Except FileError FileSystem := do
  match ← fs.arrive p false with
  | .vacant dir name => .ok (fs.set (dir ++ [name]) (some (.symlink target)))
  | .node _ => .error .exists

/-- Moves the file or link at one path to another, in place of a file or link that is there. -/
def rename (fs : FileSystem) (source target : Path) : Except FileError FileSystem := do
  let origin ← fs.locate source false
  match fs.get? origin with
  | none => .error .noEntry
  | some node =>
    match ← fs.arrive target false with
    | .vacant dir name => .ok ((fs.set origin none).set (dir ++ [name]) (some node))
    | .node l =>
      match fs.get? l with
      | some (.directory _) => .error .isDirectory
      | _ => if l = origin then .ok fs else .ok ((fs.set origin none).set l (some node))

/-- Removes a file or a link. -/
def remove (fs : FileSystem) (p : Path) : Except FileError FileSystem := do
  let l ← fs.locate p false
  match fs.get? l with
  | some (.directory _) => .error .isDirectory
  | _ => .ok (fs.set l none)

/-- Removes a directory with everything in it, or a link. -/
def removeTree (fs : FileSystem) (p : Path) : Except FileError FileSystem := do
  let l ← fs.locate p false
  match fs.get? l with
  | some (.file _) => .error .notDirectory
  | _ => .ok (fs.set l none)

end ModuleGateway.FileSystem
