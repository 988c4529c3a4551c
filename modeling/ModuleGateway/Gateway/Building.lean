import ModuleGateway.Freshness
import ModuleGateway.Gateway.Basic
import ModuleGateway.Relink.Importer

/-!
Builds of the gateway. A build runs as a job of several steps, and other jobs and requests may come
between any two of them. A job for a package's module looks into the store first, because another job
for the same module may have ended just before it was registered, and persists what it built.
-/

namespace ModuleGateway

/-- What a job builds. -/
inductive Building where
  /-- The module of a specifier, which lies in an installed package. -/
  | vendor (specifier : String) (module : Package.Located)
  /-- A source file with the tag it had when it was asked for. -/
  | source (file : Location) (validator : Validator) (kind : AssetKind)
  deriving DecidableEq, Repr

namespace Building

/-- The key that jobs are told apart by. -/
def key : Building → String
  | .vendor specifier _ => "vendor:" ++ specifier
  | .source file validator _ => "local:" ++ file.path.text ++ ":" ++ validator.text

/-- The file that is compiled. -/
def file : Building → Path
  | .vendor _ m => m.file
  | .source file _ _ => file.path

/-- What the file is compiled as. -/
def kind : Building → AssetKind
  | .vendor .. => .script
  | .source _ _ kind => kind

/-- What the imports of the output stand in; style sheets are not linked. -/
def importer? : Building → Option Relink.Importer
  | .vendor _ m => some (.package m)
  | .source _ _ .script => some .source
  | .source _ _ .style => none

/-- The message for a file that cannot be read. -/
def unreadable (b : Building) (e : FileError) : String :=
  match b with
  | .vendor _ m => "cannot read " ++ m.file.text ++ ": " ++ e.message
  | .source .. => "cannot read source: " ++ e.message

end Building

/-- How far a job has come, by what it does next. -/
inductive Stage where
  /-- Look into the store. -/
  | checking
  | reading
  | compiling (source : String)
  | persisting (content : ByteArray)
  /-- The result is ready for the clients. -/
  | ended (outcome : Build.Outcome)
  deriving DecidableEq

namespace Stage

/-- The stage a job starts in. -/
def first : Building → Stage
  | .vendor .. => .checking
  | .source .. => .reading

/-- The result of a job. A job that has not ended has none. -/
def outcome : Stage → Build.Outcome
  | .ended outcome => outcome
  | _ => .failure "build finished without a result"

end Stage

namespace Gateway

/-- Compiles a file and links its output. The packages that the output imports become trusted, also
when linking fails later on. -/
def compileAndLink (g : Gateway) (fs : FileSystem) (b : Building) (source : String) :
    StateM Trust.Registry (Except String String) :=
  match g.compiler ⟨b.file, source, b.kind⟩ with
  | .failed message => pure (.error message)
  | .panicked message =>
    -- The compiler's task has a number, which says nothing about the build.
    pure (.error ("compiler task failed: task N panicked with message " ++ Text.quoted message))
  | .done output =>
    match b.importer? with
    | none => pure (.ok output)
    | some importer => do
      match ← Relink.link g.sources fs importer output with
      | .ok linked => pure (.ok linked)
      | .error e => pure (.error e.message)

/-- Where a job stands after its file was compiled and linked, or was not. -/
def afterLinking (b : Building) (linked : Except String String) : Stage :=
  match linked, b with
  | .error message, _ => .ended (.failure message)
  | .ok output, .vendor .. => .persisting output.toUTF8
  | .ok output, .source _ _ kind => .ended (.success output.toUTF8 kind.contentType)

/-- The file system after the module of a specifier was persisted. A store that cannot be written
does not fail the build. -/
def persist (g : Gateway) (fs : FileSystem) (b : Building) (content : ByteArray) : FileSystem :=
  match b with
  | .source .. => fs
  | .vendor specifier _ =>
    match g.store.write fs specifier content with
    | .ok written => written
    | .error failed => failed.left

/-- What a job finds in the store. -/
def stored? (g : Gateway) (fs : FileSystem) : Building → Option ByteArray
  | .vendor specifier _ => g.store.read? fs specifier
  | .source .. => none

/-- One step of a job. -/
def advance (g : Gateway) (b : Building) (w : World) : Stage → Stage × World
  | .checking =>
    match g.stored? w.fs b with
    | some content => (.ended (.success content b.kind.contentType), w)
    | none => (.reading, w)
  | .reading =>
    match w.fs.readText b.file with
    | .ok source => (.compiling source, w)
    | .error e => (.ended (.failure (b.unreadable e)), w)
  | .compiling source =>
    let (linked, trusted) := (g.compileAndLink w.fs b source).run w.trusted
    (afterLinking b linked, { w with trusted, compiled := b.file :: w.compiled })
  | .persisting content =>
    (.ended (.success content b.kind.contentType), { w with fs := g.persist w.fs b content })
  | .ended outcome => (.ended outcome, w)

/-- Some steps of a job, with nothing between them. -/
def advances (g : Gateway) (b : Building) : Nat → Stage → World → Stage × World
  | 0, stage, w => (stage, w)
  | n + 1, stage, w =>
    let (next, after) := g.advance b w stage
    g.advances b n next after

/-- The number of steps after which every job has ended. -/
def longestJob : Nat := 4

/-- Runs a job to its end with nothing between its steps, and frees its key. -/
def work (g : Gateway) (w : World) (b : Building) : Build.Outcome × World :=
  let (stage, after) := g.advances b longestJob (Stage.first b) w
  (stage.outcome,
    { after with coordinator := after.coordinator.finish b.key (.returned stage.outcome) })

end Gateway

/-- A client joins the job that runs for a build, or starts it. -/
def World.join (w : World) (client : String) (b : Building) : World :=
  { w with coordinator := w.coordinator.request client b.key }

/-- All clients of jobs that ended receive their results. -/
def World.wake (w : World) : List Build.Delivery × World :=
  let (deliveries, coordinator) := w.coordinator.wake
  (deliveries, { w with coordinator })

end ModuleGateway
