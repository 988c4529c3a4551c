import ModuleGateway.Script.Annotation

/-!
Elements in angle brackets. They are only checked. The text between two tags is no script, so elements
are read from the text itself; only what stands in braces is read by the parsers of scripts.
-/

namespace ModuleGateway.Script

open Script.Parser

variable (g : Grammar)

/-- The text behind blanks and comments. -/
def behindGap (text : List Char) : Parser (List Char) :=
  match skipGap .blank false text with
  | some (_, rest) => pure rest
  | none => failure

/-- A part of a tag's name, which may hold hyphens. -/
def tagWord (text : List Char) : Parser (List Char × List Char) :=
  match text with
  | c :: rest =>
    if Text.isNameStart c then
      let more := rest.takeWhile fun d => Text.isNamePart d || d = '-'
      pure (c :: more, rest.drop more.length)
    else failure
  | [] => failure

/-- The part of a name behind a colon, which is empty when there is no colon. -/
def wordBehindColon (text : List Char) : Parser (List Char × List Char) := do
  match ← behindGap text with
  | ':' :: rest =>
    let (word, rest) ← tagWord (← behindGap rest)
    pure (':' :: word, rest)
  | rest => pure ([], rest)

/-- The parts of a tag's name that stand behind a point each, without hyphens. -/
def wordsBehindPoints : Nat → List Char → Parser (List Char × List Char)
  | 0, _ => failure
  | turns + 1, text => do
    match ← behindGap text with
    | '.' :: rest =>
      let (word, rest) ← tagWord (← behindGap rest)
      require (!(word.contains '-'))
      let (more, rest) ← wordsBehindPoints turns rest
      pure ('.' :: word ++ more, rest)
    | rest => pure ([], rest)

/-- The name of a tag; an empty one is that of a fragment. -/
def tagName (text : List Char) : Parser (List Char × List Char) := do
  let text ← behindGap text
  if text.head? = some '>' then pure ([], text)
  else
    let (word, rest) ← tagWord text
    let (behindColon, rest) ← wordBehindColon rest
    let (behindPoints, rest) ←
      if behindColon = [] then wordsBehindPoints (← read).limit rest else pure ([], rest)
    pure (word ++ behindColon ++ behindPoints, rest)

/-- The text behind the types in angle brackets that a tag's name may have in a typed script. -/
def behindTypes (text : List Char) : Parser (List Char) := do
  let text ← behindGap text
  if text.head? = some '<' && (← isTyped) then
    moveTo text
    typeArguments g
    pure (← get).start
  else pure text

/-- What stands in braces, behind the opening brace. -/
def inBraces (p : Parser Unit) (text : List Char) : Parser (List Char) := do
  moveTo text
  inside p
  require (← atMark "\x7d")
  pure (← get).rest

/-- The value of an attribute: a text without escapes, an expression in braces, or an element. -/
def attributeValue (text : List Char) : Parser (List Char) :=
  match text with
  | '\x7b' :: rest => inBraces (do let _ ← g.assignment) rest
  | '<' :: _ => g.element text
  | c :: rest =>
    if c = '"' || c = '\'' then
      let more := rest.dropWhile (· ≠ c)
      if more = [] then failure else pure (more.drop 1)
    else failure
  | [] => failure

/-- The attributes of a tag up to its closing sign, and whether the element ends there. -/
def attributes : Nat → List Char → Parser (Bool × List Char)
  | 0, _ => failure
  | turns + 1, text => do
    let text ← behindGap text
    match text with
    | '>' :: rest => pure (false, rest)
    | '/' :: rest =>
      match ← behindGap rest with
      | '>' :: rest => pure (true, rest)
      | _ => failure
    | '\x7b' :: rest =>
      let rest ← inBraces (do
        expectMark "..."
        let _ ← g.assignment) rest
      attributes turns rest
    | _ =>
      let (_, rest) ← tagWord text
      let (_, rest) ← wordBehindColon rest
      match rest with
      | '=' :: rest => attributes turns (← attributeValue g (← behindGap rest))
      | _ => attributes turns rest

/-- What stands between two tags, up to the closing tag of the given name. -/
def children (name : List Char) : Nat → List Char → Parser (List Char)
  | 0, _ => failure
  | turns + 1, text =>
    match text with
    | '<' :: rest => do
      match ← behindGap rest with
      | '/' :: rest =>
        let (closing, rest) ← tagName rest
        require (closing = name)
        match ← behindGap rest with
        | '>' :: rest => pure rest
        | _ => failure
      | _ => children name turns (← g.element text)
    | '\x7b' :: rest => do
      let rest ← inBraces (do
        unless ← atMark "\x7d" do
          let _ ← eatMark "..."
          let _ ← g.expression) rest
      children name turns rest
    | c :: rest => if c = '>' || c = '\x7d' then failure else children name turns rest
    | [] => failure

/-- An element, from its text on to the text behind it. -/
def elementStep (text : List Char) : Parser (List Char) := do
  match text with
  | '<' :: rest =>
    let limit := (← read).limit
    let (name, rest) ← tagName rest
    let (closed, rest) ← attributes g limit (← behindTypes g rest)
    require (!(closed && name = []))
    if closed then pure rest else children g name limit rest
  | _ => failure

end ModuleGateway.Script
