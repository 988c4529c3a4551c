import ModuleGateway.Build.Compiler
import ModuleGateway.Build.Coordinator
import ModuleGateway.Package.Resolve
import ModuleGateway.Source
import ModuleGateway.Store
import ModuleGateway.Trust.Scan

/-!
The gateway: its settings with what is derived from them, and the world it works in. At the start it
trusts what is prewarmed, what globals stand for, what is in the store and what the sources import.
-/

namespace ModuleGateway

/-- A gateway. Nothing here changes while it runs. -/
structure Gateway where
  /-- In normal form. -/
  settings : Settings
  /-- Where the source root lies. -/
  root : Location
  store : Store
  compiler : Build.Compiler

/-- What a running gateway reads and changes. -/
structure World where
  fs : FileSystem
  trusted : Trust.Registry
  coordinator : Build.Coordinator := {}
  /-- The files given to the compiler so far, latest first. -/
  compiled : List Path := []
  /-- The specifiers whose prewarming has begun and was not waited for. -/
  warming : List String := []

namespace Gateway

/-- Where packages come from and where their modules are served. -/
def sources (g : Gateway) : Package.Sources :=
  .ofSettings g.settings

/-- The specifiers whose packages are trusted at the start. -/
def seeds (g : Gateway) (fs : FileSystem) : List String :=
  g.settings.prewarm ++ g.settings.globals.map Prod.fst ++ g.store.specifiers fs ++
    Trust.scan fs g.root.path

/-- The world of a gateway that starts. -/
def newWorld (g : Gateway) (fs : FileSystem) : World where
  fs := fs
  trusted := Trust.Registry.empty.extend (g.seeds fs)

/-- A gateway by its settings, which are brought into normal form. -/
def ofSettings (settings : Settings) (compiler : Build.Compiler) (fs : FileSystem) :
    Except SetupError Gateway := do
  let settings ← settings.normalize
  let root ← Source.root fs settings.sourceRoot
  .ok { settings, root, store := { directory := settings.cacheDirectory }, compiler }

/-- A short text that tells one gateway from another. -/
def summary (g : Gateway) (w : World) : String :=
  "Gateway \x7b source_root: " ++ Text.quotedPath g.root.path.text ++ ", public_prefix: " ++
    Text.quoted g.settings.publicPrefix ++ ", trusted: " ++ toString w.trusted.size ++ ", .. \x7d"

end Gateway

end ModuleGateway
