import ModuleGateway.Script.Parser
import ModuleGateway.Script.Tree

/-!
What all parts of the grammar share. Constructs that hold each other call each other through a record
of parsers. The parsers of one record read constructs up to a certain depth; each call through a record
comes after a token, so a record as deep as the text is long reads all of it.
-/

namespace ModuleGateway.Script

/-- The parsers of the constructs that other constructs hold. -/
structure Grammar where
  /-- A type. -/
  type : Parser Unit
  /-- An expression without a comma. -/
  assignment : Parser Expr
  /-- An expression with commas. -/
  expression : Parser Expr
  /-- What a declaration binds, without type and value. -/
  target : Parser Target
  statement : Parser Statement
  /-- An element in angle brackets, from its text on to the text behind it. -/
  element : List Char → Parser (List Char)

/-- The grammar of constructs without depth, of which there are none. -/
def Grammar.none : Grammar where
  type := failure
  assignment := failure
  expression := failure
  target := failure
  statement := failure
  element _ := failure

open Script.Parser

/-- A parser inside brackets, where `in` is an operator again. -/
def inside {α : Type} (p : Parser α) : Parser α :=
  within (fun c => { c with allowIn := true, expectsColon := false }) p

/-- The words that are never names. -/
def reservedWords : List String :=
  ["break", "case", "catch", "class", "const", "continue", "debugger", "default", "delete", "do",
    "else", "enum", "export", "extends", "false", "finally", "for", "function", "if", "import", "in",
    "instanceof", "new", "null", "return", "super", "switch", "this", "throw", "true", "try",
    "typeof", "var", "void", "while", "with"]

/-- Whether a word may be a name here. -/
def isNameHere (context : Context) (word : String) : Bool :=
  !(reservedWords.contains word || (word = "await" && context.allowAwait) ||
    (word = "yield" && context.allowYield))

/-- Whether the token may be a name. -/
def atName : Parser Bool := do
  match ← peek with
  | .word word _ => pure (isNameHere (← read) word)
  | _ => pure false

/-- A name. -/
def nameHere : Parser String := do
  match ← peek with
  | .word word _ =>
    require (isNameHere (← read) word)
    advance
    pure word
  | _ => failure

/-- A word, reserved or not. -/
def anyWord : Parser String := do
  match ← peek with
  | .word word _ =>
    advance
    pure word
  | _ => failure

/-- A text. -/
def textHere : Parser String := do
  match ← peek with
  | .text value =>
    advance
    pure value
  | _ => failure

/-- The end of a statement: a semicolon, or a place where one may be left out. -/
def endStatement : Parser Unit := do
  if ← eatMark ";" then pure ()
  else require ((← atMark "\x7d") || (← peek) = .finish || (← lineEnded))

/-- The chunks of a template from a text on, with the substitutions between them. Every turn reads a
character. -/
def templateFor {α : Type} (strict : Bool) (substitution : Parser α) :
    Nat → List Char → Parser (List String × List α)
  | 0, _ => failure
  | turns + 1, text => do
    match chunkFor strict (text.length + 1) text with
    | none => failure
    | some (chunk, rest, more) =>
      moveTo rest
      if more then
        let value ← substitution
        require (← atMark "\x7d")
        let (chunks, values) ← templateFor strict substitution turns (← get).rest
        pure (String.ofList chunk :: chunks, value :: values)
      else pure ([String.ofList chunk], [])

/-- A template with its backticks. With `strict`, every escape in it has to be one. -/
def template {α : Type} (strict : Bool) (substitution : Parser α) :
    Parser (List String × List α) := do
  require (← atMark "\x60")
  templateFor strict substitution (← read).limit (← get).rest

/-- Whether the token is one of some words, written without escapes. -/
def atAnyWord (words : List String) : Parser Bool := do
  match ← peek with
  | .word word false => pure (words.contains word)
  | _ => pure false

end ModuleGateway.Script
