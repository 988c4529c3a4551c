import ModuleGateway.Script.Function

/-!
Expressions, from the tightest to the loosest.
-/

namespace ModuleGateway.Script

open Script.Parser

variable (g : Grammar)

/-! ### Arrays, objects and calls -/

/-- An argument of a call, which may be spread. -/
def argument : Parser Expr := do
  if ← eatMark "..." then
    let _ ← g.assignment
    pure .other
  else g.assignment

/-- An item of an array. One that is left out is fine in a pattern, one that is spread only when it is
the last. -/
def arrayItem : Parser Expr := do
  if ← atMark "," then pure .pattern
  else if ← eatMark "..." then
    let e ← g.assignment
    pure (if e.isTarget && (← atMark "]") then .pattern else .other)
  else g.assignment

/-- An array behind its bracket. -/
def arrayRest : Parser Expr := do
  let items ← inside (listUntil "]" (arrayItem g))
  pure (
    if !(items.any Expr.isChecked) then .array items
    else if items.all Expr.isItem then .pattern
    else .other)

/-- A field of an object. Only fields with keys that are names or texts and with a value behind a colon
have a tree. A spread object is fine in a pattern when it is the last field. -/
def objectField : Parser (Option Key × Expr) := do
  if ← eatMark "..." then
    let e ← g.assignment
    pure (none, if e.isPlace && (← atMark "\x7d") then .place else .other)
  else
    let accessor ← pure ((← atAnyWord ["get", "set"]) && (← beforeKey))
    if accessor then advance
    let isAsync ← pure ((← atWord "async") && (← beforeMember) && !(← second).ended)
    if isAsync then advance
    let isGenerator ← eatMark "*"
    let special := accessor || isAsync || isGenerator
    let short ← atName
    let start ← peek
    let _ ← memberKey g
    if (← atMark "(") || (← atMark "<") then
      let (_, body) ← functionRest g { isAsync, isGenerator } true
      require body.isSome
      pure (none, .other)
    else
      require (!special)
      if ← eatMark ":" then
        let value ← g.assignment
        match start with
        | .word id _ => pure (some (.name id), value)
        | .text t => pure (some (.text t), value)
        | _ => pure (none, value)
      else
        require short
        let value ← initializer? g
        if value.isSome then modify fun c => { c with defaults := c.defaults + 1 }
        pure (none, .place)

/-- An object behind its brace. -/
def objectRest : Parser Expr := do
  let fields ← inside (listUntil "\x7d" (objectField g))
  let known := fields.filterMap fun (key?, value) => key?.map fun key => (key, value)
  pure (
    if known.length = fields.length then .object known
    else if fields.all (·.2.isItem) then .pattern
    else .other)

/-- The arguments of a call in parentheses. -/
def arguments : Parser (List Expr) := do
  expectMark "("
  inside (listUntil ")" (argument g))

/-! ### Primary expressions -/

/-- A name behind the point of a member, or of a chain. -/
def memberName : Parser (Option String) := do
  match ← peek with
  | .privateName _ =>
    advance
    pure none
  | _ => pure (some (← anyWord))

/-- The word `import` in an expression: what the module knows of itself, or a dynamic import of one
expression with perhaps another for the way to load it. -/
def importExpression : Parser Expr := do
  expectWord "import"
  let word ← if ← eatMark "." then anyWord else pure ""
  if word = "meta" then pure .other
  else
    require (["", "defer", "source"].contains word)
    expectMark "("
    let loaded ← inside (listUntil ")" g.assignment)
    require (loaded.length = 1 || loaded.length = 2)
    pure .other

/-- A primary expression; `parent` reads what a class extends. -/
def primary (parent : Parser Expr) : Parser Expr := do
  match ← peek with
  | .number written =>
    advance
    pure (.number written)
  | .text value =>
    advance
    pure (.text value)
  | .privateName _ =>
    advance
    require (← atWord "in")
    pure .other
  | .mark "(" =>
    advance
    let e ← inside g.expression
    expectMark ")"
    pure (.group e)
  | .mark "[" =>
    advance
    arrayRest g
  | .mark "\x7b" =>
    advance
    objectRest g
  | .mark "\x60" =>
    let (chunks, values) ← template true (inside g.expression)
    pure (.template chunks values)
  | .mark "@" =>
    decorators g
    expectWord "class"
    let _ ← classRest g parent
    pure .other
  | .mark "<" =>
    require (← read).dialect.markup
    moveTo (← g.element (← get).start)
    pure .other
  | .mark symbol =>
    require (symbol = "/" || symbol = "/=")
    match regex? ((← get).start.drop 1) with
    | some (written, rest) =>
      moveTo rest
      pure (.literal written)
    | none => failure
  | .word "function" false => functionExpression g
  | .word "class" false =>
    advance
    let _ ← classRest g parent
    pure .other
  | .word "import" false => importExpression g
  | .word "super" false =>
    advance
    require (← atAny ["(", ".", "["])
    pure .other
  | .word word escaped =>
    if !escaped && ["this", "null", "true", "false"].contains word then
      advance
      pure (.literal word)
    else if ← atFunction then functionExpression g
    else pure (.name (← nameHere))
  | _ => failure

/-! ### Members and calls -/

/-- Whether the types in angle brackets that end here belong to a call or stand for themselves. -/
def typesMayEnd : Parser Bool := do
  let c ← get
  match c.token with
  | .mark symbol =>
    pure (["(", "\x60"].contains symbol ||
      !(["<", ">", "+", "-", "[", "\x7b", "!", "~"].contains symbol))
  | .finish => pure true
  | .word word _ => pure (c.ended || ["as", "satisfies", "in", "instanceof"].contains word)
  | _ => pure c.ended

/-- Types in angle brackets between a callee and its arguments, if they are there. -/
def callTypes? : Parser Bool := do
  if (← isTyped) && (← atMark "<") then
    let found ← attempt? do
      typeArguments g
      require (← typesMayEnd)
    pure found.isSome
  else pure false

/-- One more member, call or template behind an expression. -/
def suffix (calls : Bool) (e : Expr) : Parser (Option Expr) := do
  match ← peek with
  | .mark "." =>
    advance
    match ← memberName with
    | some name => pure (some (.member e name))
    | none => pure (some .place)
  | .mark "?." =>
    require calls
    advance
    if (← atMark "(") || (← atMark "<") then
      let _ ← callTypes? g
      let _ ← arguments g
    else if ← eatMark "[" then
      let _ ← inside g.expression
      expectMark "]"
    else
      let _ ← memberName
    pure (some .other)
  | .mark "[" =>
    advance
    let key ← inside g.expression
    expectMark "]"
    pure (some (.index e key))
  | .mark "(" =>
    if calls then pure (some (.call e (← arguments g))) else pure none
  | .mark "\x60" =>
    let _ ← template false (inside g.expression)
    pure (some .other)
  | .mark "!" =>
    if (← isTyped) && !(← lineEnded) then
      advance
      pure (some e)
    else pure none
  | _ => if ← callTypes? g then pure (some e) else pure none

/-- What is made by `new`: an expression without a call, behind further `new`s. -/
def constructed (parent : Parser Expr) : Nat → Parser Expr
  | 0 => failure
  | turns + 1 => do
    expectWord "new"
    if ← eatMark "." then
      expectWord "target"
      pure .other
    else
      require (!(← atWord "import"))
      let callee ←
        if ← atWord "new" then constructed parent turns
        else extendWith (suffix g false) (← primary g parent)
      if ← atMark "(" then pure (.construct callee (← arguments g))
      else pure (.construct callee [])

/-- One more link of a chain, which is optional from the first link with a question mark on. An optional
chain holds no template. -/
def link (chain : Bool × Expr) : Parser (Option (Bool × Expr)) := do
  let (optional, e) := chain
  let starts ← atMark "?."
  require (!(optional && (← atMark "\x60")))
  match ← suffix g true e with
  | some longer => pure (some (optional || starts, longer))
  | none => pure none

/-- A primary expression with members and calls behind it. Nothing can be assigned to an optional
chain. -/
def chainFor : Nat → Parser Expr
  | 0 => failure
  | turns + 1 => do
    let parent := chainFor turns
    let start ←
      if ← atWord "new" then constructed g parent (← read).limit
      else primary g parent
    let (optional, e) ← extendWith (link g) (false, start)
    pure (if optional then .other else e)

/-- A primary expression with members and calls behind it. What a class extends is such an expression
itself. -/
def chain : Parser Expr := do
  chainFor g (← read).limit

/-! ### Operators -/

/-- An operator in front of an expression. -/
inductive FrontOperator where
  | plain (symbol : String)
  /-- Changes a place, so that there is no tree. -/
  | change
  /-- A type in angle brackets, which leaves no trace. -/
  | type

def frontOperator? : Parser (Option FrontOperator) := do
  match ← peek with
  | .mark symbol =>
    if ["+", "-", "~", "!"].contains symbol then
      advance
      pure (some (.plain symbol))
    else if ["++", "--"].contains symbol then
      advance
      pure (some .change)
    else if symbol = "<" && (← isTyped) && !(← read).dialect.markup then
      advance
      g.type
      expectMark ">"
      pure (some .type)
    else pure none
  | .word word false =>
    if ["typeof", "void", "delete"].contains word ||
        (word = "await" && (← read).allowAwait) then
      advance
      pure (some (.plain word))
    else pure none
  | _ => pure none

/-- An expression with its operators, the innermost applied first. -/
def applyFront (operators : List FrontOperator) (e : Expr) : Option Expr :=
  operators.foldrM (fun operator inner =>
    match operator with
    | .plain symbol => some (.unary symbol inner)
    | .change => if inner.isPlace then some .other else none
    | .type => some inner) e

/-- An expression with operators in front of it and one behind. -/
def unary : Parser Expr := do
  let operators ← collect (frontOperator? g)
  let e ← chain g
  let e ←
    if (← atAny ["++", "--"]) && !(← lineEnded) then do
      require e.isPlace
      advance
      pure .other
    else pure e
  match applyFront operators e with
  | some e => pure e
  | none => failure

def isUnary : Expr → Bool
  | .unary .. => true
  | _ => false

/-- A power, which groups to the right. Its base has no operator in front. -/
def power : Parser Expr := do
  let operands ← separated "**" (unary g)
  match operands.reverse with
  | [] => failure
  | last :: bases =>
    require (!(bases.any isUnary))
    pure (bases.foldl (fun e base => .binary "**" base e) last)

/-- The operators that group to the left, tightest first. -/
def operatorLevels : List (List String) :=
  [["*", "/", "%"], ["+", "-"], ["<<", ">>", ">>>"],
    ["<", ">", "<=", ">=", "instanceof", "in", "as", "satisfies"], ["==", "!=", "===", "!=="],
    ["&"], ["^"], ["|"], ["&&"], ["||"], ["??"]]

/-- The operator here, when it is one of some. -/
def operatorHere? (symbols : List String) : Parser (Option String) := do
  match (← get).joined.token with
  | .mark symbol => pure (if symbols.contains symbol then some symbol else none)
  | .word word false =>
    let c ← read
    let ended ← lineEnded
    let fits :=
      if word = "in" then c.allowIn
      else if word = "as" || word = "satisfies" then c.dialect.typed && !ended
      else true
    pure (if fits && symbols.contains word then some word else none)
  | _ => pure none

/-- Whether an operand must be in parentheses next to `??`. -/
def clashes : Expr → Bool
  | .binary symbol _ _ => symbol = "||" || symbol = "&&"
  | _ => false

/-- Operands with operators of one level between them. -/
def binaryLevel (operand : Parser Expr) (symbols : List String) : Parser Expr := do
  let first ← operand
  extendWith (fun left => do
    match ← operatorHere? symbols with
    | none => pure none
    | some symbol =>
      modify Cursor.joined
      advance
      if symbol = "as" || symbol = "satisfies" then
        unless ← eatWord "const" do g.type
        pure (some left)
      else
        let right ← operand
        if symbol = "??" then require (!(clashes left) && !(clashes right))
        pure (some (.binary symbol left right))) first

/-- Operands with operators of all levels between them. -/
def binary : Parser Expr :=
  operatorLevels.foldl (binaryLevel g) (power g)

/-- A condition with its two results, if there is a question mark. -/
def conditional : Parser Expr := do
  let test ← binary g
  if ← eatMark "?" then
    let yes ← within (fun c => { c with allowIn := true, expectsColon := true }) g.assignment
    expectMark ":"
    let no ← g.assignment
    pure (.conditional test yes no)
  else pure test

/-! ### Arrow functions -/

/-- The arrow of a function, which stands on the line of the parameters' end. -/
def arrowMark : Parser Unit := do
  require (!(← lineEnded))
  expectMark "=>"

/-- An arrow function in front of its body. -/
structure ArrowHead where
  isAsync : Bool
  bound : List Target
  /-- Whether the type of the result is written. -/
  resultTyped : Bool

/-- The part of an arrow function in front of its body. -/
def arrowHead : Parser ArrowHead := do
  let isAsync ← pure ((← atWord "async") && !(← second).ended && (← second).token ≠ .mark "=>")
  if isAsync then advance
  within (fun c => { c with allowAwait := c.allowAwait || isAsync }) do
    if ← atName then
      let id ← nameHere
      arrowMark
      pure ⟨isAsync, [.name id], false⟩
    else
      if ← atMark "<" then
        require (← isTyped)
        if (← read).dialect.markup then
          let apart ← wouldRead do
            expectMark "<"
            let _ ← nameHere
            require ((← atMark ",") || (← atWord "extends"))
          require apart
        typeParameters? g
      let bound ← parameters g
      let resultTyped ← atMark ":"
      resultAnnotation? g
      arrowMark
      pure ⟨isAsync, bound, resultTyped⟩

/-- The body of an arrow function: statements in braces, or an expression. -/
def arrowBody (isAsync : Bool) : Parser Statement := do
  let context := fun (c : Context) =>
    { c with allowAwait := isAsync, allowYield := false, allowReturn := true }
  within context do
    if ← atMark "\x7b" then pure (.block (← inside (braced g)))
    else pure (.expression (← g.assignment))

/-- An arrow function, if one starts here. Behind a question mark, a colon after parentheses may also
be that of the condition; it is when no further one follows the function. -/
def arrow? : Parser (Option Expr) := do
  let possible ← pure ((← atName) || (← atMark "(") || (← atMark "<"))
  if !possible then pure none
  else
    let start ← get
    match ← attempt? (arrowHead g) with
    | none => pure none
    | some head =>
      let body ← arrowBody g head.isAsync
      if head.resultTyped && (← read).expectsColon && !(← atMark ":") then
        set start
        pure none
      else pure (some (.arrow head.isAsync head.bound body))

/-! ### Assignments and sequences -/

def assignmentMarks : List String :=
  ["=", "+=", "-=", "*=", "/=", "%=", "**=", "<<=", ">>=", ">>>=", "&=", "|=", "^=", "&&=", "||=",
    "??="]

/-- The word `yield` with its value, if it has one. -/
def yieldExpression : Parser Expr := do
  expectWord "yield"
  if !(← lineEnded) then
    let delegated ← eatMark "*"
    let ends ← pure ((← atAny [")", "]", "\x7d", ",", ";", ":"]) || (← peek) = .finish)
    if delegated || !ends then
      let _ ← g.assignment
  pure .other

/-- An expression without a comma. -/
def assignmentStep : Parser Expr := do
  if (← atWord "yield") && (← read).allowYield then yieldExpression g
  else
    match ← arrow? g with
    | some e => pure e
    | none =>
      let before := (← get).defaults
      let left ← conditional g
      match (← get).joined.token with
      | .mark symbol =>
        if assignmentMarks.contains symbol then
          require (if symbol = "=" then left.isTarget else left.isPlace)
          if symbol = "=" then modify fun c => { c with defaults := before }
          modify Cursor.joined
          advance
          pure (.assign symbol left (← g.assignment))
        else pure left
      | _ => pure left

/-- Expressions with commas between them. -/
def expressionStep : Parser Expr := do
  match ← separated "," (assignmentStep g) with
  | [e] => pure e
  | items => pure (.sequence items)

end ModuleGateway.Script
