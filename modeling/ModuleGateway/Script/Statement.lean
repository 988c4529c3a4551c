import ModuleGateway.Script.Expression
import ModuleGateway.Script.Markup

/-!
Statements and declarations. Declarations of types leave no trace; loops and the like are only checked.
-/

namespace ModuleGateway.Script

open Script.Parser

variable (g : Grammar)

/-! ### Variables -/

/-- One variable with its type and value. Outside a loop's head, a constant and a pattern need a
value. -/
def declarator (kind : VariableKind) (inHead : Bool) : Parser (Target × Option Expr) := do
  let target ← targetStep g
  if ← isTyped then
    let _ ← eatMark "!"
  annotation? g
  let value ← initializer? g
  let isPattern := match target with
    | .name _ => false
    | .pattern _ => true
  let needed := (kind = .const || isPattern) && !inHead && !(← read).ambient
  require (!(needed && value.isNone))
  pure (target, value)

/-- The word that variables are declared with, when a declaration starts here. The word `let` is a
name where no target follows it. -/
def variableKind? : Parser (Option VariableKind) := do
  match ← peek with
  | .word "const" false => pure (some .const)
  | .word "var" false => pure (some .var)
  | .word "let" false =>
    match (← second).token with
    | .word word _ => pure (if word = "in" || word = "instanceof" then none else some .let)
    | .mark symbol => pure (if symbol = "[" || symbol = "\x7b" then some .let else none)
    | _ => pure none
  | _ => pure none

/-- Variables behind the word that declares them. -/
def variablesRest (kind : VariableKind) (inHead : Bool) : Parser Statement := do
  pure (.variables kind (← separated "," (declarator g kind inHead)))

/-- Names with values behind the word `using`, perhaps with `await` in front. The first name stands on
the line of that word; inside a loop's head it needs no value. -/
def resources (inHead : Bool) : Parser Statement := do
  if (← read).allowAwait then
    let _ ← eatWord "await"
  expectWord "using"
  require (!(← lineEnded) && !(← atWord "of"))
  let declared ← separated "," do
    let id ← nameHere
    annotation? g
    let value ← initializer? g
    require (inHead || value.isSome)
    pure (Target.name id, value)
  pure (.variables .const declared)

/-- Resources, when they are declared here. -/
def resources? (inHead : Bool) : Parser (Option Statement) := do
  if ← atAnyWord ["using", "await"] then attempt? (resources g inHead) else pure none

/-! ### Declarations -/

/-- A function with a name. A typed one without a body only declares its type. -/
def functionDeclaration : Parser Statement := do
  let kind ← functionHead
  let name ← nameHere
  match ← functionRest g kind false with
  | (bound, some body) => pure (.function kind name bound body)
  | (_, none) => pure (.erased false)

/-- A class with a name. -/
def classDeclaration : Parser Statement := do
  decorators g
  if ← isTyped then
    let _ ← eatWord "abstract"
  expectWord "class"
  match ← classRest g (chain g) with
  | some name => pure (.classDeclared name)
  | none => failure

/-- The key of a member of an enumeration: a name, or a text that may stand in brackets. -/
def enumKey : Parser Unit := do
  match ← peek with
  | .text _ | .word _ _ => advance
  | _ =>
    expectMark "["
    match ← inside g.assignment with
    | .text _ | .template _ [] => pure ()
    | _ => failure
    expectMark "]"

/-- The members of an enumeration. -/
def enumBody : Parser Unit := do
  expectMark "\x7b"
  let _ ← listUntil "\x7d" do
    enumKey g
    let _ ← inside (initializer? g)
  pure ()

/-- An interface behind its word. -/
def interfaceRest : Parser Unit := do
  let _ ← nameHere
  typeParameters? g
  if ← eatWord "extends" then
    let _ ← separated "," (postfixType g)
  typeMembers g

/-- A name for a type behind the word `type`. -/
def aliasRest : Parser Unit := do
  let _ ← nameHere
  typeParameters? g
  expectMark "="
  g.type
  endStatement

/-- A namespace or module: a name with points and a body, or a text with perhaps a body. -/
def namespaceRest : Parser Unit := do
  match ← peek with
  | .text _ =>
    advance
    if ← atMark "\x7b" then
      let _ ← braced g
    else endStatement
  | _ =>
    let _ ← separated "." nameHere
    let _ ← braced g

/-- Whether a typed declaration starts here: its word has to be followed by a name on the same
line. -/
def atTypedDeclaration : Parser Bool := do
  if !(← isTyped) then pure false
  else
    let after ← second
    let named := match after.token with
      | .word word _ => !after.ended && !(["in", "instanceof", "as", "satisfies"].contains word)
      | _ => false
    match ← peek with
    | .word "enum" false => pure true
    | .word "interface" false | .word "type" false => pure named
    | .word "abstract" false => pure (after.token = .word "class" false && !after.ended)
    | .word "declare" false => pure named
    | .word "namespace" false => pure named
    | .word "module" false =>
      pure (named || (!after.ended && match after.token with | .text _ => true | _ => false))
    | .word "global" false => pure (after.token = .mark "\x7b")
    | .word "const" false => pure (after.token = .word "enum" false)
    | _ => pure false

/-- A declaration that only typed scripts have, which leaves nothing unless it makes a value. -/
def typedDeclaration : Parser Statement := do
  match ← peek with
  | .word "interface" _ =>
    advance
    interfaceRest g
    pure (.erased false)
  | .word "type" _ =>
    advance
    aliasRest g
    pure (.erased false)
  | .word "const" _ =>
    advance
    expectWord "enum"
    let _ ← nameHere
    enumBody g
    pure .other
  | .word "enum" _ =>
    advance
    let _ ← nameHere
    enumBody g
    pure .other
  | .word "abstract" _ =>
    advance
    classDeclaration g
  | .word "declare" _ =>
    advance
    require ((← atTypedDeclaration) || (← atFunction) || (← atAnyWord ["class", "import"]) ||
      (← variableKind?).isSome)
    let _ ← within (fun c => { c with ambient := true }) g.statement
    pure (.erased false)
  | .word "global" _ =>
    advance
    let _ ← braced g
    pure (.erased false)
  | _ =>
    advance
    namespaceRest g
    pure .other

/-! ### Loops and branches -/

/-- An expression in parentheses. -/
def parenthesized : Parser Expr := do
  expectMark "("
  let e ← inside g.expression
  expectMark ")"
  pure e

/-- An expression, unless a mark stands here. -/
def optionalBefore (symbol : String) : Parser Unit := do
  unless ← atMark symbol do
    let _ ← inside g.expression

/-- The head of a loop behind the word `for`. The word `await` asks for a loop over items. -/
def forHead : Parser Unit := do
  let awaited ← eatWord "await"
  expectMark "("
  let before := (← get).defaults
  let start ← within (fun c => { c with allowIn := false }) do
    if ← atMark ";" then pure none
    else
      match ← variableKind? with
      | some kind =>
        advance
        pure (some (← variablesRest g kind true))
      | none =>
        match ← resources? g true with
        | some declared => pure (some declared)
        | none => pure (some (.expression (← g.expression)))
  let single := match start with
    | some (.variables _ [(_, none)]) => true
    | some (.expression e) => e.isTarget
    | _ => false
  let overItems ← atWord "of"
  let named := match start with
    | some (.expression (.name id)) => id = "async"
    | _ => false
  require (if awaited then overItems else !(overItems && named))
  if single && (overItems || (← atWord "in")) then
    modify fun c => { c with defaults := before }
    advance
    let _ ← inside (if overItems then g.assignment else g.expression)
  else
    let needed := match start with
      | some (.variables kind declared) =>
        declared.any fun (target, value) =>
          value.isNone && (kind = .const || match target with
            | .name _ => false
            | .pattern _ => true)
      | _ => false
    require (!needed)
    expectMark ";"
    optionalBefore g ";"
    expectMark ";"
    optionalBefore g ")"
  expectMark ")"

/-- An expression that stands alone. -/
def loneExpression : Parser Statement := do
  let value ← inside (expressionStep g)
  endStatement
  pure (.expression value)

/-- A statement that is the body of another one. A declaration whose name would live in a block of its
own is none. The word `let` is a name here, unless a bracket follows. -/
def bodyStatement : Parser Statement := do
  let after := (← second).token
  let declares ← match ← peek with
    | .word "class" false => pure true
    | .word "const" false => pure (!((← isTyped) && after = .word "enum" false))
    | .word "let" false => pure (after = .mark "[")
    | .word "function" false => pure (after = .mark "*")
    | .word "async" false => atFunction
    | .mark symbol => pure (symbol = "@")
    | _ => pure false
  require (!declares)
  if ← atWord "let" then loneExpression g else g.statement

/-- The cases of a `switch` in braces. -/
def cases : Parser Unit := do
  expectMark "\x7b"
  let _ ← collect do
    if ← atMark "\x7d" then pure none
    else
      if ← eatWord "case" then
        let _ ← inside g.expression
      else expectWord "default"
      expectMark ":"
      let _ ← collect do
        if (← atMark "\x7d") || (← atAnyWord ["case", "default"]) then pure none
        else pure (some (← g.statement))
      pure (some ())
  expectMark "\x7d"

/-- What follows the block of a `try`. -/
def handlers : Parser Unit := do
  let caught ← eatWord "catch"
  if caught then
    if ← eatMark "(" then
      let _ ← targetStep g
      annotation? g
      expectMark ")"
    let _ ← braced g
  let finished ← eatWord "finally"
  if finished then
    let _ ← braced g
  require (caught || finished)

/-- A label behind `break` or `continue`. -/
def label? : Parser Unit := do
  if (← atName) && !(← lineEnded) then
    let _ ← nameHere
  endStatement

/-- A statement that starts with a word of its own; nothing when it does not. -/
def wordStatement? (word : String) : Parser (Option Statement) := do
  match word with
  | "if" =>
    advance
    let test ← parenthesized g
    let yes ← bodyStatement g
    let no ← if ← eatWord "else" then pure (some (← bodyStatement g)) else pure none
    pure (some (.choice test yes no))
  | "for" =>
    advance
    forHead g
    let _ ← bodyStatement g
    pure (some .other)
  | "while" | "with" =>
    advance
    let _ ← parenthesized g
    let _ ← bodyStatement g
    pure (some .other)
  | "do" =>
    advance
    let _ ← bodyStatement g
    expectWord "while"
    let _ ← parenthesized g
    let _ ← eatMark ";"
    pure (some .other)
  | "switch" =>
    advance
    let _ ← parenthesized g
    cases g
    pure (some .other)
  | "try" =>
    advance
    let _ ← braced g
    handlers g
    pure (some .other)
  | "break" | "continue" =>
    advance
    label?
    pure (some .other)
  | "throw" =>
    advance
    require (!(← lineEnded))
    let _ ← inside g.expression
    endStatement
    pure (some .other)
  | "debugger" =>
    advance
    endStatement
    pure (some .other)
  | "return" =>
    require (← read).allowReturn
    advance
    if (← atMark ";") || (← atMark "\x7d") || (← peek) = .finish || (← lineEnded) then
      endStatement
      pure (some (.result none))
    else
      let value ← inside g.expression
      endStatement
      pure (some (.result (some value)))
  | _ => pure none

/-- An expression that stands alone, or a statement behind a label. -/
def expressionStatement : Parser Statement := do
  let labelled ← pure ((← atName) && (← second).token = .mark ":")
  if labelled then
    advance
    advance
    let _ ← bodyStatement g
    pure .other
  else loneExpression g

end ModuleGateway.Script
