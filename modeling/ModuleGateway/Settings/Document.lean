import ModuleGateway.FileSystem.Access
import ModuleGateway.Settings.Basic
import ModuleGateway.Toml.Read
import ModuleGateway.Toml.Write

/-!
Settings as documents. Every key of a document has to be known and of its kind; keys that a
document leaves out keep their defaults. A document that is written has every key.
-/

namespace ModuleGateway.Settings

open Toml

/-- Entries in ascending order of their keys. -/
def sortEntries (entries : List (String × String)) : List (String × String) :=
  entries.mergeSort fun a b => a.1 ≤ b.1

/-- The settings with the one that a key names changed; `none` for a key that is unknown and for a
value of the wrong kind. -/
def change (s : Settings) (key : String) (value : Value) : Option Settings :=
  match key, value with
  | "source_root", .text t => some { s with sourceRoot := ⟨t⟩ }
  | "public_prefix", .text t => some { s with publicPrefix := t }
  | "vendor_subpath", .text t => some { s with vendorSegment := t }
  | "prewarm", .array items => some { s with prewarm := items }
  | "minify", .boolean b => some { s with minify := b }
  | "local_cache_ttl_seconds", .integer n =>
    if 0 ≤ n then some { s with localSeconds := n.toNat } else none
  | "define", .table _ entries => some { s with define := sortEntries entries }
  | "globals", .table _ entries => some { s with globals := sortEntries entries }
  | "cdn_fallback", .boolean b => some { s with cdnEnabled := b }
  | "cdn_url", .text t => some { s with cdnAddress := t }
  | "cache_dir", .text t => some { s with cacheDirectory := ⟨t⟩ }
  | "packages_dir", .text t => some { s with packagesDirectory := ⟨t⟩ }
  | _, _ => none

/-- The settings of a document. -/
def ofDocument (doc : Document) : Option Settings :=
  doc.foldlM (fun s (key, value) => s.change key value) {}

/-- The settings that a text holds, in normal form. -/
def parse (text : String) : Except SetupError Settings :=
  match (Toml.read? text).bind ofDocument with
  | some s => s.normalize
  | none => .error .malformedSettings

/-- The settings in the file at a path, with their relative directories seen from the directory of
the file. -/
def load (fs : FileSystem) (path : Path) : Except SetupError Settings :=
  match fs.readText path with
  | .error e => .error (.settingsUnreadable path e)
  | .ok text => (parse text).map (·.relativeTo (path.parent?.getD ⟨"."⟩))

/-- Settings as a document. -/
def render (s : Settings) : String :=
  writeEntry "source_root" (writeText s.sourceRoot.text) ++
  writeEntry "public_prefix" (writeText s.publicPrefix) ++
  writeEntry "vendor_subpath" (writeText s.vendorSegment) ++
  writeEntry "prewarm" (writeTexts s.prewarm) ++
  writeEntry "minify" (writeBool s.minify) ++
  writeEntry "local_cache_ttl_seconds" (toString s.localSeconds) ++
  writeEntry "cdn_fallback" (writeBool s.cdnEnabled) ++
  writeEntry "cdn_url" (writeText s.cdnAddress) ++
  writeEntry "cache_dir" (writeText s.cacheDirectory.text) ++
  writeEntry "packages_dir" (writeText s.packagesDirectory.text) ++
  "\n" ++ writeTable "define" s.define ++
  "\n" ++ writeTable "globals" s.globals

end ModuleGateway.Settings
