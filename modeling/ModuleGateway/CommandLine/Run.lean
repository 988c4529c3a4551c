import ModuleGateway.CommandLine.Arguments
import ModuleGateway.CommandLine.Help
import ModuleGateway.Gateway.Prewarm
import ModuleGateway.Http.Listening
import ModuleGateway.Http.Message
import ModuleGateway.Settings.Document

/-!
The commands. A run gives what is printed, the exit code and the file system it leaves. Serving ends
here with a server that is ready to listen.
-/

namespace ModuleGateway.CommandLine

/-! ### Printing -/

/-- A text in a style of the terminal, which is a number. -/
def styled (style : Nat) (text : String) : String :=
  "\x1b[" ++ toString style ++ "m" ++ text ++ "\x1b[0m"

def bold : String → String := styled 1
def dim : String → String := styled 2
def green : String → String := styled 32
def yellow : String → String := styled 33
def cyan : String → String := styled 36

/-- Why a command fails. -/
inductive Failure where
  | setup (error : SetupError)
  | store (error : FileError)
  | listen (error : Http.ListenError)
  /-- Some packages could not be prewarmed. -/
  | notReady (count : Nat)
  deriving DecidableEq, Repr

/-- The text of the failure, with a hint where there is one. -/
def Failure.message : Failure → String
  | .setup e => e.withHint
  | .store e => e.message
  | .listen e => e.message
  | .notReady count => toString count ++ " prewarm packages failed; run with -v for details"

/-- A server that is ready to listen. -/
structure Server where
  gateway : Gateway
  world : World
  endpoint : Http.Endpoint

/-- What a run leaves. -/
structure Finished where
  stdout : String := ""
  fs : FileSystem
  failure : Option Failure := none
  /-- Whether the arguments could be understood. -/
  isUnderstood : Bool := true
  server : Option Server := none

namespace Finished

/-- The exit code: two when the arguments are wrong, one for a failure. -/
def code (f : Finished) : Nat :=
  if !f.isUnderstood then 2 else if f.failure.isSome then 1 else 0

/-- What is printed about a failure. -/
def stderr (f : Finished) : String :=
  match f.failure with
  | some failure => "Error: " ++ failure.message ++ "\n"
  | none => ""

end Finished

/-! ### Settings -/

/-- The file of settings that counts when none is named. -/
def defaultConfig : Path :=
  ⟨"./kiln.toml"⟩

/-- The settings that a command works with, in normal form. A file that is named has to exist. -/
def settingsOf (fs : FileSystem) (origin : Origin) : Except SetupError Settings := do
  let loaded ←
    match origin.config with
    | some path => Settings.load fs ⟨path⟩
    | none =>
      if fs.isFile defaultConfig then Settings.load fs defaultConfig
      else .ok (Settings.relativeTo {} ⟨"."⟩)
  let chosen :=
    match origin.root with
    | some root => { loaded with sourceRoot := ⟨root⟩ }
    | none => loaded
  chosen.normalize

/-- The gateway that a command works with. -/
def gatewayOf (fs : FileSystem) (origin : Origin) : Except SetupError Gateway := do
  let settings ← settingsOf fs origin
  Gateway.ofSettings settings (Build.standardCompiler (.ofSettings settings) []) fs

/-! ### Commands -/

/-- The line for a trusted package, which tells whether its module is persisted. -/
def trustedLine (g : Gateway) (fs : FileSystem) (name : String) : String :=
  let mark := if fs.isFile (g.store.entryPath name) then " " ++ dim "(cached)" else ""
  "  " ++ name ++ mark ++ "\n"

/-- The settings and the trusted packages. -/
def checkText (g : Gateway) (w : World) : String :=
  let names := w.trusted.sorted
  dim "# resolved configuration" ++ "\n" ++ g.settings.render ++ "\n" ++
    bold ("Trusted packages (" ++ toString names.length ++ "):") ++ "\n" ++
    String.join (names.map (trustedLine g w.fs))

def runCheck (fs : FileSystem) (origin : Origin) : Finished :=
  match gatewayOf fs origin with
  | .error e => { fs, failure := some (.setup e) }
  | .ok g => { fs, stdout := checkText g (g.newWorld fs) }

def runClean (fs : FileSystem) (origin : Origin) : Finished :=
  match settingsOf fs origin with
  | .error e => { fs, failure := some (.setup e) }
  | .ok settings =>
    let store : Store := { directory := settings.cacheDirectory }
    match store.clear fs with
    | .error e => { fs, failure := some (.store e) }
    | .ok (count, cleared) =>
      { fs := cleared
        stdout := green "✓" ++ " removed " ++ toString count ++ " cached vendor modules " ++
          dim ("(" ++ store.directory.text ++ ")") ++ "\n" }

/-- Prewarms everything and waits for it. Entries that name no vendor module are never ready, but only
those that were begun can fail the command. -/
def runPrewarm (fs : FileSystem) (origin : Origin) : Finished :=
  match gatewayOf fs origin with
  | .error e => { fs, failure := some (.setup e) }
  | .ok g =>
    let requested := g.settings.prewarm.length
    if requested = 0 then
      { fs
        stdout := yellow "Nothing to prewarm:" ++ " add packages to \x60prewarm\x60 in kiln.toml\n" }
    else
      let (started, begun) := g.prewarm (g.newWorld fs)
      let (ready, done) := g.wait begun
      { fs := done.fs
        stdout := green "✓" ++ " " ++ toString ready ++ "/" ++ toString requested ++
          " packages ready in " ++ g.store.directory.text ++ "\n"
        failure := if ready < started then some (.notReady (started - ready)) else none }

/-- A line of what a server tells before it listens. -/
def bannerLine (name text : String) : String :=
  cyan ("  ◆ " ++ name ++ ":") ++ " " ++ text ++ "\n"

/-- What a server tells before it listens. -/
def banner (g : Gateway) (w : World) (e : Http.Endpoint) : String :=
  let rule := String.ofList (List.replicate 50 '─') ++ "\n"
  let static :=
    match e.staticDirectory with
    | some directory => bannerLine "Static" directory.text
    | none => ""
  "\n" ++ bold "kiln" ++ " - module gateway\n" ++ rule ++
    bannerLine "Sources" g.root.path.text ++
    bannerLine "Modules" ("http://" ++ e.address ++ g.settings.publicPrefix) ++ static ++
    bannerLine "Trusted" (toString w.trusted.size ++ " packages") ++ rule ++
    green "Press Ctrl+C to stop" ++ "\n\n"

def runServe (fs : FileSystem) (origin : Origin) (endpoint : Http.Endpoint) : Finished :=
  match gatewayOf fs origin with
  | .error e => { fs, failure := some (.setup e) }
  | .ok g =>
    let world := g.newWorld fs
    let stdout := banner g world endpoint
    match endpoint.check fs with
    | .error e => { fs, stdout, failure := some (.listen e) }
    | .ok _ => { fs, stdout, server := some ⟨g, (g.prewarm world).2, endpoint⟩ }

def runCommand (fs : FileSystem) : Command → Finished
  | .serve origin host port directory =>
    runServe fs origin { host, port, staticDirectory := directory.map Path.mk }
  | .prewarm origin => runPrewarm fs origin
  | .clean origin => runClean fs origin
  | .check origin => runCheck fs origin
  | .version => { fs, stdout := "kiln " ++ Http.version ++ "\n" }
  | .help topic => { fs, stdout := helpText topic }

/-- Runs the program with some arguments in a file system. -/
def run (args : List String) (fs : FileSystem) : Finished :=
  match parse? args with
  | some command => runCommand fs command
  | none => { fs, isUnderstood := false }

end ModuleGateway.CommandLine
