import ModuleGateway.CommandLine.Run

/-!
The program. It reads the tree below the working directory, runs the command on that tree as a value,
and makes the outside agree with what the run leaves. All decisions are those of the run.
-/

namespace ModuleGateway

/-! ### Reading the tree -/

/-- A point in time in nanoseconds from the epoch. -/
def nanoseconds (time : IO.FS.SystemTime) : Int :=
  time.sec * 1000000000 + time.nsec.toNat

/-- The tree at an entry of a directory. A link is read as one to the place where it ends. -/
partial def readNode (entry : IO.FS.DirEntry) : IO Node := do
  let info ← entry.path.symlinkMetadata
  match info.type with
  | .dir =>
    let entries ← entry.path.readDir
    let children ← entries.toList.mapM fun child => do
      pure (child.fileName, ← readNode child)
    pure (.directory children)
  | .symlink =>
    let target ← IO.FS.realPath entry.path
    pure (.symlink target.toString)
  | _ =>
    let content ← IO.FS.readBinFile entry.path
    pure (.file { content, modified := nanoseconds info.modified })

/-- A tree with a node at a location and nothing else. -/
def Node.nest (node : Node) (l : Location) : Node :=
  l.foldr (fun name inner => .directory [(name, inner)]) node

/-! ### Writing the tree -/

/-- Removes what is at a place. -/
def removePlace (place : String) : Node → IO Unit
  | .directory _ => IO.FS.removeDirAll place
  | _ => IO.FS.removeFile place

/-- Makes a place hold a node instead of what it held before. No command makes links. -/
partial def writeNode (place : String) (before : Option Node) (after : Node) : IO Unit := do
  match after, before with
  | .file new, some (.file old) =>
    if new.content ≠ old.content then IO.FS.writeBinFile place new.content
  | .file new, _ => IO.FS.writeBinFile place new.content
  | .directory entries, _ =>
    let known := (before.map Node.children).getD []
    if !before.any Node.isDirectory then IO.FS.createDir place
    for (name, child) in known do
      if (entries.lookup name).isNone then removePlace (place ++ "/" ++ name) child
    for (name, child) in entries do
      writeNode (place ++ "/" ++ name) (known.lookup name) child
  | .symlink _, _ => pure ()

end ModuleGateway

open ModuleGateway

/-- Runs a command in the working directory. A server that is ready to listen is only announced. -/
def main (args : List String) : IO UInt32 := do
  let top : IO.FS.DirEntry := { root := ← IO.currentDir, fileName := "" }
  let place := top.root.toString
  let location : Location := (place.splitOn "/").filter (· ≠ "")
  let before ← readNode top
  let finished :=
    CommandLine.run args { root := before.nest location, workingDirectory := location }
  match finished.fs.get? location with
  | some after => writeNode place (some before) after
  | none => pure ()
  IO.print finished.stdout
  IO.eprint finished.stderr
  if !finished.isUnderstood then IO.eprintln "error: the arguments are not understood"
  if finished.server.isSome then
    IO.eprintln "Error: there is nothing to listen with"
    pure 1
  else pure (UInt32.ofNat finished.code)
