import ModuleGateway.Text.Hex
import ModuleGateway.Text.Invisible

/-!
Texts in quotes for messages. Quotes, backslashes and invisible characters are escaped, so that a
message shows exactly which text it names.
-/

namespace ModuleGateway.Text

/-- One character of a quoted text. A single quote is escaped only where `singleQuote` asks. -/
def showChar (singleQuote : Bool) (c : Char) : List Char :=
  if c = '\x00' then ['\\', '0']
  else if c = '\t' then ['\\', 't']
  else if c = '\r' then ['\\', 'r']
  else if c = '\n' then ['\\', 'n']
  else if c = '\\' then ['\\', '\\']
  else if c = '"' then ['\\', '"']
  else if c = '\'' && singleQuote then ['\\', '\'']
  else if isInvisible c then ['\\', 'u', '\x7b'] ++ hex c.toNat ++ ['\x7d']
  else [c]

/-- A text in double quotes. -/
def quoted (text : String) : String :=
  String.ofList ('"' :: text.toList.flatMap (showChar false) ++ ['"'])

/-- A path in double quotes; single quotes are escaped too. -/
def quotedPath (text : String) : String :=
  String.ofList ('"' :: text.toList.flatMap (showChar true) ++ ['"'])

end ModuleGateway.Text
