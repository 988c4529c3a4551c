import ModuleGateway.FileSystem.Walk
import ModuleGateway.Text.Blank
import ModuleGateway.Text.Quoted

/-!
The settings of one gateway, and their normal form: the public prefix has one slash in front and
none behind, the vendor segment is one plain segment, and the CDN's address has no slash behind.
-/

namespace ModuleGateway

/-- The settings of one gateway. -/
structure Settings where
  /-- The directory of the source modules. -/
  sourceRoot : Path := ⟨"src"⟩
  /-- The URL path that the gateway owns. -/
  publicPrefix : String := "/modules"
  /-- The segment below the public prefix that vendor modules are served under. -/
  vendorSegment : String := "vendor"
  /-- The packages that are trusted and built at the start. -/
  prewarm : List String := []
  minify : Bool := false
  /-- How long a client may keep a local module; zero means that it asks every time. -/
  localSeconds : Nat := 0
  /-- Replacements of global identifiers, in ascending order of their names. -/
  define : List (String × String) := []
  /-- The specifiers that a runtime global stands for, in ascending order. -/
  globals : List (String × String) := []
  /-- Whether packages that are not served here are looked for at the CDN. -/
  cdnEnabled : Bool := false
  cdnAddress : String := "https://esm.sh"
  /-- The directory of persisted vendor modules. -/
  cacheDirectory : Path := ⟨".kiln/cache"⟩
  /-- The directory of installed packages. -/
  packagesDirectory : Path := ⟨"node_modules"⟩
  deriving DecidableEq, Repr

/-- Why a gateway cannot be set up. -/
inductive SetupError where
  /-- The text is not a document of settings. -/
  | malformedSettings
  | prefixHasDots (written : String)
  | vendorNotOneSegment (written : String)
  | cdnAddressMissing
  | settingsUnreadable (path : Path) (error : FileError)
  | sourceRootMissing (path : Path)
  | fileFailed (error : FileError)
  deriving DecidableEq, Repr

namespace SetupError

/-- The text of the error. -/
def message : SetupError → String
  | .malformedSettings => "invalid configuration: TOML parse error"
  | .prefixHasDots written =>
    "invalid configuration: public_prefix must not contain dot segments: " ++ written
  | .vendorNotOneSegment written =>
    "invalid configuration: vendor_subpath must be a single path segment: " ++
      Text.quoted written
  | .cdnAddressMissing => "invalid configuration: cdn_fallback is enabled but cdn_url is empty"
  | .settingsUnreadable path error =>
    "failed to read config " ++ path.text ++ ": " ++ error.message
  | .sourceRootMissing path => "source root not found: " ++ path.text
  | .fileFailed error => "IO error: " ++ error.message

/-- How to recover, where something can be said. -/
def hint? : SetupError → Option String
  | .malformedSettings | .prefixHasDots _ | .vendorNotOneSegment _ | .cdnAddressMissing =>
    some "check the keys in your kiln.toml against \x60kiln check\x60"
  | .settingsUnreadable .. => some "pass --config <path> or create kiln.toml"
  | .sourceRootMissing _ =>
    some "set \x60source_root\x60 to the directory holding your .ts/.tsx modules"
  | .fileFailed _ => none

/-- The text of the error, with the hint on a line of its own. -/
def withHint (e : SetupError) : String :=
  match e.hint? with
  | some hint => e.message ++ "\n  hint: " ++ hint
  | none => e.message

end SetupError

namespace Settings

/-- A text without the slashes around it. -/
def bare (text : String) : List Char :=
  Text.trim (· = '/') text.toList

/-- Whether one of the segments is a dot segment. -/
def hasDots (text : List Char) : Bool :=
  (Text.split '/' text).any fun segment => segment = ['.'] || segment = ['.', '.']

/-- Whether a text without slashes around it is one plain segment. -/
def isOneSegment (text : List Char) : Bool :=
  !(text = [] || text.contains '/' || text = ['.'] || text = ['.', '.'])

/-- Checks settings and brings them into normal form. Of two faults the one in the public prefix
is told first, then the one in the vendor segment. -/
def normalize (s : Settings) : Except SetupError Settings :=
  let base := bare s.publicPrefix
  let vendor := bare s.vendorSegment
  if hasDots base then .error (.prefixHasDots s.publicPrefix)
  else if !isOneSegment vendor then .error (.vendorNotOneSegment s.vendorSegment)
  else if s.cdnEnabled && Text.trim Text.isSpace s.cdnAddress.toList = [] then
    .error .cdnAddressMissing
  else
    .ok { s with
      publicPrefix := String.ofList ('/' :: base)
      vendorSegment := String.ofList vendor
      cdnAddress := String.ofList (Text.trimEnd (· = '/') s.cdnAddress.toList) }

/-- The settings with their relative directories seen from `base`. -/
def relativeTo (s : Settings) (base : Path) : Settings :=
  let seen (p : Path) : Path := if p.isAbsolute then p else base.join p
  { s with
    sourceRoot := seen s.sourceRoot
    cacheDirectory := seen s.cacheDirectory
    packagesDirectory := seen s.packagesDirectory }

/-- The public path that vendor modules are served under. -/
def vendorPrefix (s : Settings) : String :=
  if s.publicPrefix = "/" then "/" ++ s.vendorSegment
  else s.publicPrefix ++ "/" ++ s.vendorSegment

/-- How long clients may keep a local module, as a header says it. -/
def localCacheControl (s : Settings) : String :=
  if s.localSeconds = 0 then "no-cache" else "max-age=" ++ toString s.localSeconds

end Settings

end ModuleGateway
