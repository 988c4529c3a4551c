import ModuleGateway.Text.Split

/-!
Specifiers as flat file names. A slash is written `%2F` and a percent sign `%25`, so an escaped
specifier holds no slash and reads back as the specifier it came from.
-/

namespace ModuleGateway.Specifier

open Text

/-- One character of an escaped specifier. -/
def escapeChar (c : Char) : List Char :=
  if c = '%' then ['%', '2', '5'] else if c = '/' then ['%', '2', 'F'] else [c]

/-- The specifier as one flat name. -/
def escape (specifier : String) : String :=
  String.ofList (specifier.toList.flatMap escapeChar)

/-- The specifier a flat name stands for. Slashes are read first and percent signs after them,
so the text `%252F` is read as `%2F`. -/
def unescape (name : String) : String :=
  String.ofList
    (replaceAll ['%', '2', '5'] ['%'] (replaceAll ['%', '2', 'F'] ['/'] name.toList))

/-- What every file of a persisted module ends with. -/
def entryExtension : String := ".js"

/-- The file name of the persisted module of a specifier. -/
def entryName (specifier : String) : String :=
  escape specifier ++ entryExtension

end ModuleGateway.Specifier
