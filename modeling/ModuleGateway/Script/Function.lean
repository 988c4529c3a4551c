import ModuleGateway.Script.Annotation

/-!
What declarations bind, functions and classes. The body of a class is only checked.
-/

namespace ModuleGateway.Script

open Script.Parser

variable (g : Grammar)

/-! ### Targets -/

/-- A value behind an equals sign, if there is one. -/
def initializer? : Parser (Option Expr) := do
  if ← eatMark "=" then
    pure (some (← g.assignment))
  else pure none

/-- A target inside a pattern, with its default. -/
def targetItem : Parser (List String) :=
  inside do
    let target ← g.target
    let _ ← initializer? g
    pure target.names

/-- A field of an object pattern. The other fields go to the last one, which is a name, behind three
points. -/
def patternField : Parser (List String) := do
  if ← eatMark "..." then
    let name ← nameHere
    require (← atMark "\x7d")
    pure [name]
  else
    let short ← atName
    let name ← memberKey g
    if ← eatMark ":" then targetItem g
    else
      require short
      let _ ← inside (initializer? g)
      pure name.toList

/-- An item of an array pattern, which may be left out. The other items go to the last one behind three
points. -/
def patternItem : Parser (List String) := do
  if ← atMark "," then pure []
  else if ← eatMark "..." then
    let target ← g.target
    require (← atMark "]")
    pure target.names
  else targetItem g

/-- A name, or a pattern in braces or brackets. -/
def targetStep : Parser Target := do
  if ← eatMark "\x7b" then
    let names ← listUntil "\x7d" (patternField g)
    pure (.pattern names.flatten)
  else if ← eatMark "[" then
    let names ← listUntil "]" (patternItem g)
    pure (.pattern names.flatten)
  else pure (.name (← nameHere))

/-! ### Functions -/

/-- The context of a function's parameters and body. -/
def functionContext (kind : FunctionKind) (c : Context) : Context :=
  { c with
    allowIn := true, allowReturn := true, allowAwait := kind.isAsync
    allowYield := kind.isGenerator, expectsColon := false }

/-- Statements in braces. -/
def braced : Parser (List Statement) := do
  expectMark "\x7b"
  let body ← collect do
    if ← atMark "\x7d" then pure none else pure (some (← g.statement))
  expectMark "\x7d"
  pure body

/-- The parameters and the body of a function behind its name. A typed function may have no body. -/
def functionRest (kind : FunctionKind) (needsBody : Bool) :
    Parser (List Target × Option (List Statement)) :=
  within (functionContext kind) do
    if ← isTyped then typeParameters? g
    let bound ← parameters g
    resultAnnotation? g
    if ← atMark "\x7b" then
      let body ← within (fun c => { c with ambient := false }) (braced g)
      pure (bound, some body)
    else
      require ((← isTyped) && !needsBody)
      endStatement
      pure (bound, none)

/-- The kind of a function from the word `async`, if it is there, to the star, if it is there. -/
def functionHead : Parser FunctionKind := do
  let isAsync ← eatWord "async"
  expectWord "function"
  let isGenerator ← eatMark "*"
  pure { isAsync, isGenerator }

/-- Whether a function starts here. -/
def atFunction : Parser Bool := do
  if ← atWord "function" then pure true
  else if ← atWord "async" then
    let after ← second
    pure (after.token = .word "function" false && !after.ended)
  else pure false

/-- A function as an expression. -/
def functionExpression : Parser Expr := do
  let kind ← functionHead
  let name ← within (functionContext kind) do
    if ← atName then pure (some (← nameHere)) else pure none
  match ← functionRest g kind true with
  | (bound, some body) => pure (.function kind name bound body)
  | (_, none) => failure

/-! ### Classes -/

/-- The words that may stand in front of a member. -/
def memberModifiers (typed : Bool) : List String :=
  if typed then
    ["static", "public", "private", "protected", "readonly", "abstract", "override", "declare",
      "accessor"]
  else ["static", "accessor"]

/-- Whether the word here is a modifier or an accessor of the member behind it. -/
def beforeMember : Parser Bool := do
  if ← beforeKey then pure true
  else pure ((← second).token = .mark "*")

/-- A block that runs when the class is made. -/
def staticBlock : Parser Unit := do
  expectWord "static"
  let context := fun (c : Context) => { functionContext {} c with allowReturn := false, allowAwait := true }
  let _ ← within context (braced g)

/-- A method behind its key. A typed method may have no body. -/
def methodRest (kind : FunctionKind) : Parser Unit := do
  let _ ← functionRest g kind false

/-- A member of a class. -/
def classMember : Parser Unit := do
  if ← eatMark ";" then pure ()
  else if (← atWord "static") && (← second).token = .mark "\x7b" then staticBlock g
  else
    decorators g
    let typed ← isTyped
    let _ ← collect do
      if (← atAnyWord (memberModifiers typed)) && (← beforeMember) then
        advance
        pure (some ())
      else pure none
    let signature ←
      if typed && (← atMark "[") then attempt? (indexSignature g) else pure none
    match signature with
    | some () => endStatement
    | none =>
      let accessor ← pure ((← atAnyWord ["get", "set"]) && (← beforeKey))
      if accessor then advance
      let isAsync ← pure ((← atWord "async") && (← beforeMember) && !(← second).ended)
      if isAsync then advance
      let isGenerator ← eatMark "*"
      let _ ← memberKey g
      if typed then
        let _ ← eatMark "?"
      if (← atMark "(") || (typed && (← atMark "<")) then methodRest g { isAsync, isGenerator }
      else
        require (!accessor && !isAsync && !isGenerator)
        if typed then
          let _ ← eatMark "!"
        annotation? g
        let _ ← within (functionContext {}) (initializer? g)
        endStatement

/-- A class behind the word `class`, with its name. The class it extends is read by `parent`. -/
def classRest (parent : Parser Expr) : Parser (Option String) := do
  let typed ← isTyped
  let name ←
    if (← atName) && !(← atWord "implements") then pure (some (← nameHere))
    else pure none
  if typed then typeParameters? g
  if ← eatWord "extends" then
    let _ ← parent
    if typed then typeArguments? g
  if ← eatWord "implements" then
    require typed
    let _ ← separated "," g.type
  expectMark "\x7b"
  let _ ← collect do
    if ← atMark "\x7d" then pure none
    else
      classMember g
      pure (some ())
  expectMark "\x7d"
  pure name

end ModuleGateway.Script
