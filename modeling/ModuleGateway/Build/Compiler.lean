import ModuleGateway.AssetKind
import ModuleGateway.Script.Define
import ModuleGateway.Script.Printer
import ModuleGateway.Settings.Basic

/-!
Compilers turn the source of one file into what a browser runs. The compiler of scripts reads a module,
removes its types, applies definitions and prints it; style sheets are taken as they are. Plugins then
change the output one after another.
-/

namespace ModuleGateway.Build

/-- A file to compile. -/
structure CompileUnit where
  path : Path
  source : String
  kind : AssetKind
  deriving DecidableEq, Repr

/-- What a compiler run ends with. -/
inductive Compilation where
  | done (output : String)
  /-- The message is shown to the developer as it is. -/
  | failed (message : String)
  /-- The compiler broke down. -/
  | panicked (message : String)
  deriving DecidableEq, Repr

/-- A compiler depends on nothing but the file. -/
abbrev Compiler := CompileUnit → Compilation

/-- A change to compiled output. -/
structure Plugin where
  name : String
  transform : CompileUnit → String → Except String String

/-- Why a file is not compiled. -/
inductive CompileError where
  | syntaxError
  /-- A name is declared twice. -/
  | semanticError
  /-- The script holds a construct that has no printed form. -/
  | transformError
  | invalidDefine
  | plugin (name reason : String)
  deriving DecidableEq, Repr

/-- The text of the error. -/
def CompileError.message : CompileError → String
  | .syntaxError => "syntax error: the script cannot be read"
  | .semanticError => "semantic error: a name is declared twice"
  | .transformError => "transform error: the script holds a construct that is not supported"
  | .invalidDefine => "invalid define: a name or value cannot be read"
  | .plugin name reason => "plugin " ++ name ++ ": " ++ reason

/-- How scripts are compiled. -/
structure CompilerSettings where
  minify : Bool := false
  /-- Names with the expressions that replace them. -/
  define : List (String × String) := []
  deriving DecidableEq, Repr

def CompilerSettings.ofSettings (s : Settings) : CompilerSettings :=
  ⟨s.minify, s.define⟩

/-- The dialect of a file by its name; a plain module when the name does not tell. -/
def dialectOf (path : Path) : Script.Dialect :=
  (path.fileName?.bind Script.Dialect.ofName?).getD { typed := false, markup := false }

/-- The script of a file as a browser runs it. -/
def compileScript (settings : CompilerSettings) (path : Path) (source : String) :
    Except CompileError String := do
  let dialect := dialectOf path
  let some body := Script.parse? dialect source | .error .syntaxError
  if Script.redeclares body then .error .semanticError
  let plain := if dialect.typed then Script.plainModule body else body
  let definitions := settings.define.mapM fun (name, value) =>
    Script.Definition.ofTexts? name value
  let some definitions := definitions | .error .invalidDefine
  let final :=
    if definitions.isEmpty then plain else Script.applyDefinitions definitions plain
  match Script.print? settings.minify final with
  | some output => .ok output
  | none => .error .transformError

/-- The output after all plugins. -/
def applyPlugins (plugins : List Plugin) (unit : CompileUnit) (output : String) :
    Except CompileError String :=
  plugins.foldlM (fun text p =>
    match p.transform unit text with
    | .ok changed => .ok changed
    | .error reason => .error (.plugin p.name reason)) output

/-- A file as a browser takes it. -/
def compile (settings : CompilerSettings) (plugins : List Plugin) (unit : CompileUnit) :
    Except CompileError String := do
  let output ← match unit.kind with
    | .script => compileScript settings unit.path unit.source
    | .style => .ok unit.source
  applyPlugins plugins unit output

/-- The compiler of scripts and style sheets. -/
def standardCompiler (settings : CompilerSettings) (plugins : List Plugin) : Compiler := fun unit =>
  match compile settings plugins unit with
  | .ok output => .done output
  | .error e => .failed e.message

end ModuleGateway.Build
