import ModuleGateway.Text.Hex

/-!
Writing settings documents. A text stands in the plainest quotes that hold it without escapes: double
ones, then single ones, then three of either; escapes are used where none of these will do.
-/

namespace ModuleGateway.Toml

/-- Whether a character has to be escaped wherever it stands. -/
def needsEscape (c : Char) : Bool :=
  (c.toNat < 0x20 && c ≠ '\t' && c ≠ '\n') || c.toNat = 0x7f

/-- The most times that a character occurs in a row. -/
def longestRun (c : Char) (text : List Char) : Nat :=
  let step (state : Nat × Nat) (d : Char) : Nat × Nat :=
    let run := if d = c then state.1 + 1 else 0
    (run, max state.2 run)
  (text.foldl step (0, 0)).2

/-- The quotes that a text can stand in. -/
inductive Quotes where
  | basic
  | literal
  | longBasic
  | longLiteral
  deriving DecidableEq, Repr

/-- The quotes at either end. -/
def Quotes.mark : Quotes → List Char
  | .basic => ['"']
  | .literal => ['\'']
  | .longBasic => ['"', '"', '"']
  | .longLiteral => ['\'', '\'', '\'']

/-- The quotes that a value stands in. -/
def valueQuotes (text : List Char) : Quotes :=
  let controls := text.any needsEscape
  let backslash := text.contains '\\'
  let lines := text.contains '\n'
  let doubles := longestRun '"' text
  let singles := longestRun '\'' text
  if !controls && !backslash && doubles = 0 && !lines then .basic
  else if !controls && singles = 0 && !lines then .literal
  else if !controls && !backslash && doubles ≤ 2 then .longBasic
  else if !controls && singles ≤ 2 then .longLiteral
  else if lines then .longBasic
  else .basic

/-- One character between double quotes. -/
def escaped (c : Char) : List Char :=
  if c = '\x08' then ['\\', 'b']
  else if c = '\t' then ['\\', 't']
  else if c = '\n' then ['\\', 'n']
  else if c = '\x0c' then ['\\', 'f']
  else if c = '\r' then ['\\', 'r']
  else if c = '"' then ['\\', '"']
  else if c = '\\' then ['\\', '\\']
  else if needsEscape c then '\\' :: 'u' :: (Text.hex4 c.toNat).map Char.toUpper
  else [c]

/-- The characters between three double quotes: line breaks stand as they are, and so do up to two
quotes in a row. -/
def longEscaped : Nat → List Char → List Char
  | _, [] => []
  | run, '"' :: rest =>
    if run < 2 then '"' :: longEscaped (run + 1) rest else '\\' :: '"' :: longEscaped 0 rest
  | _, '\n' :: rest => '\n' :: longEscaped 0 rest
  | _, c :: rest => escaped c ++ longEscaped 0 rest

/-- A text in some quotes. A long text starts on a line of its own when it has several. -/
def inQuotes (quotes : Quotes) (text : List Char) : List Char :=
  let first : List Char := if text.contains '\n' then ['\n'] else []
  let inner :=
    match quotes with
    | .basic => text.flatMap escaped
    | .literal => text
    | .longBasic => first ++ longEscaped 0 text
    | .longLiteral => first ++ text
  quotes.mark ++ inner ++ quotes.mark

/-- A text as a value. -/
def writeText (text : String) : String :=
  String.ofList (inQuotes (valueQuotes text.toList) text.toList)

/-- Whether a character can stand in a key without quotes. -/
def isKeyChar (c : Char) : Bool :=
  c.isAlphanum || c = '_' || c = '-'

/-- A key: as it is, in the plainest quotes on one line, or with escapes. -/
def writeKey (key : String) : String :=
  let text := key.toList
  if text ≠ [] && text.all isKeyChar then key
  else
    match valueQuotes text with
    | .literal => String.ofList (inQuotes .literal text)
    | _ => String.ofList (inQuotes .basic text)

/-- Texts as an array; two or more stand on lines of their own. -/
def writeTexts (items : List String) : String :=
  match items with
  | [] => "[]"
  | [item] => "[" ++ writeText item ++ "]"
  | items => "[\n" ++ String.join (items.map fun item => "    " ++ writeText item ++ ",\n") ++ "]"

def writeBool (b : Bool) : String :=
  if b then "true" else "false"

/-- A key with its value on a line. -/
def writeEntry (key value : String) : String :=
  writeKey key ++ " = " ++ value ++ "\n"

/-- A table of texts below its name. -/
def writeTable (name : String) (entries : List (String × String)) : String :=
  "[" ++ writeKey name ++ "]\n" ++
    String.join (entries.map fun (key, value) => writeEntry key (writeText value))

end ModuleGateway.Toml
