import ModuleGateway.Text.Hex

/-!
Texts as JSON string literals. Only what JSON forbids in a literal is escaped: the quote, the
backslash and the control characters below the space.
-/

namespace ModuleGateway.Json

/-- One character of a JSON string literal. -/
def escapeChar (c : Char) : List Char :=
  if c = '"' then ['\\', '"']
  else if c = '\\' then ['\\', '\\']
  else if c = '\x08' then ['\\', 'b']
  else if c = '\x0c' then ['\\', 'f']
  else if c = '\n' then ['\\', 'n']
  else if c = '\r' then ['\\', 'r']
  else if c = '\t' then ['\\', 't']
  else if c.toNat < 0x20 then ['\\', 'u'] ++ Text.hex4 c.toNat
  else [c]

/-- The JSON string literal of a text, with its quotes. -/
def quote (text : List Char) : List Char :=
  '"' :: text.flatMap escapeChar ++ ['"']

end ModuleGateway.Json
