import ModuleGateway.Script.Grammar

/-!
Types and the parameters of functions. Types are only checked: none of them is left in a tree.
-/

namespace ModuleGateway.Script

open Script.Parser

variable (g : Grammar)

/-! ### Arguments and parameters of types -/

/-- Types in angle brackets, at least one. -/
def typeArguments : Parser Unit := do
  expectMark "<"
  let types ← listUntil ">" g.type
  require (types ≠ [])

/-- Types in angle brackets, if there are any. -/
def typeArguments? : Parser Unit := do
  if ← atMark "<" then typeArguments g

/-- A name that stands for a type, with its bound and its default. -/
def typeParameter : Parser Unit := do
  let _ ← collect do
    if (← atAnyWord ["const", "in", "out"]) &&
        (match (← second).token with | .word _ _ => true | _ => false) then
      advance
      pure (some ())
    else pure none
  let _ ← nameHere
  if ← eatWord "extends" then g.type
  if ← eatMark "=" then g.type

/-- The parameters of types in angle brackets, if there are any. -/
def typeParameters? : Parser Unit := do
  if ← eatMark "<" then
    let parameters ← listUntil ">" (typeParameter g)
    require (parameters ≠ [])

/-- A colon with a type behind it, if there is one. -/
def annotation? : Parser Unit := do
  if ← isTyped then
    if ← eatMark ":" then g.type

/-- What a function gives back: a type, or a statement about a parameter. -/
def resultType : Parser Unit := do
  let token ← peek
  let after ← second
  let follows := fun (word : String) => after.token = .word word false && !after.ended
  match token with
  | .word "asserts" false =>
    match after.token with
    | .word word _ =>
      if after.ended || word = "is" then g.type
      else
        advance
        advance
        if (← atWord "is") && !(← lineEnded) then
          advance
          g.type
    | _ => g.type
  | .word _ _ =>
    if follows "is" then
      advance
      advance
      g.type
    else g.type
  | _ => g.type

/-- A colon with the type of a result behind it, if there is one. -/
def resultAnnotation? : Parser Unit := do
  if ← isTyped then
    if ← eatMark ":" then resultType g

/-! ### Parameters of functions -/

/-- An expression behind an at sign, any number of times. -/
def decorators : Parser Unit := do
  let _ ← collect do
    if ← eatMark "@" then
      let _ ← g.assignment
      pure (some ())
    else pure none

/-- Whether a word in front of a parameter is a modifier of it. -/
def atParameterModifier : Parser Bool := do
  if (← isTyped) && (← atAnyWord ["public", "private", "protected", "readonly", "override"]) then
    match (← second).token with
    | .word _ _ => pure true
    | .mark symbol => pure (symbol = "\x7b" || symbol = "[")
    | _ => pure false
  else pure false

/-- One parameter of a function. A parameter with more than a name is a pattern, and one with a
modifier declares a member too, which is not printed. The parameter for all other arguments is the last
and has no default. -/
def parameter : Parser Target := do
  let decorated ← atMark "@"
  decorators g
  let modifiers ← collect do
    if ← atParameterModifier then
      advance
      pure (some ())
    else pure none
  let rest ← eatMark "..."
  let isThis ← pure ((← isTyped) && (← atWord "this"))
  let target ←
    if isThis then do
      advance
      pure (Target.pattern [])
    else g.target
  if ← isTyped then
    let _ ← eatMark "?"
  annotation? g
  let valued ← eatMark "="
  if valued then
    let _ ← inside g.assignment
  require (!rest || (!valued && (← atMark ")")))
  if rest || valued || decorated || modifiers ≠ [] then pure (.pattern target.names)
  else pure target

/-- The parameters of a function in parentheses. -/
def parameters : Parser (List Target) := do
  expectMark "("
  listUntil ")" (parameter g)

/-! ### Types -/

/-- Names with points between them. -/
def entityName : Parser Unit := do
  let _ ← anyWord
  let _ ← collect do
    if ← eatMark "." then
      let _ ← anyWord
      pure (some ())
    else pure none

/-- A function's type behind its type parameters. -/
def arrowType : Parser Unit := do
  let _ ← parameters g
  expectMark "=>"
  resultType g

/-- A key of a member: a name, a text, a number, or an expression in brackets. -/
def memberKey : Parser (Option String) := do
  match ← peek with
  | .word name _ =>
    advance
    pure (some name)
  | .text value =>
    advance
    pure (some value)
  | .number _ =>
    advance
    pure none
  | .privateName _ =>
    advance
    pure none
  | _ =>
    expectMark "["
    let _ ← inside g.assignment
    expectMark "]"
    pure none

/-- A key in brackets with its type, such as `[name: string]: number`. -/
def indexSignature : Parser Unit := do
  expectMark "["
  let _ ← nameHere
  expectMark ":"
  g.type
  expectMark "]"
  annotation? g

/-- The end of a member of an object type. -/
def endMember : Parser Unit := do
  unless ← eatAny [";", ","] do
    require ((← atMark "\x7d") || (← lineEnded))

/-- Whether the token behind this one starts a key, so that this one is a modifier. -/
def beforeKey : Parser Bool := do
  let after ← second
  match after.token with
  | .word _ _ | .text _ | .number _ | .privateName _ => pure true
  | .mark symbol => pure (symbol = "[")
  | _ => pure false

/-- A member of an object type. -/
def typeMember : Parser Unit := do
  if (← atMark "(") || (← atMark "<") then
    typeParameters? g
    let _ ← parameters g
    resultAnnotation? g
  else if (← atWord "new") &&
      ((← second).token = .mark "(" || (← second).token = .mark "<") then
    advance
    typeParameters? g
    let _ ← parameters g
    resultAnnotation? g
  else
    if (← atWord "readonly") && (← beforeKey) then advance
    match ← attempt? (indexSignature g) with
    | some () => pure ()
    | none =>
      if (← atAnyWord ["get", "set"]) && (← beforeKey) then advance
      let _ ← memberKey g
      let _ ← eatMark "?"
      if (← atMark "(") || (← atMark "<") then
        typeParameters? g
        let _ ← parameters g
        resultAnnotation? g
      else annotation? g
  endMember

/-- The members of an object type in braces. -/
def typeMembers : Parser Unit := do
  expectMark "\x7b"
  let _ ← collect do
    if ← atMark "\x7d" then pure none
    else
      typeMember g
      pure (some ())
  expectMark "\x7d"

/-- An object type with a member for each member of another type. -/
def mappedType : Parser Unit := do
  expectMark "\x7b"
  if ← eatAny ["+", "-"] then expectWord "readonly"
  else
    let _ ← eatWord "readonly"
  expectMark "["
  let _ ← nameHere
  expectWord "in"
  g.type
  if ← eatWord "as" then g.type
  expectMark "]"
  if ← eatAny ["+", "-"] then expectMark "?"
  else
    let _ ← eatMark "?"
  annotation? g
  let _ ← eatMark ";"
  let _ ← eatMark ","
  expectMark "\x7d"

/-- An item of a tuple type. -/
def tupleItem : Parser Unit := do
  let _ ← eatMark "..."
  let named ← wouldRead do
    let _ ← anyWord
    let _ ← eatMark "?"
    expectMark ":"
  if named then
    let _ ← anyWord
    let _ ← eatMark "?"
    expectMark ":"
  g.type
  let _ ← eatMark "?"

/-- A type that is one word, a literal, a name with arguments, or something in brackets. -/
def primaryType : Parser Unit := do
  match ← peek with
  | .text _ | .number _ => advance
  | .mark "-" =>
    advance
    match ← peek with
    | .number _ => advance
    | _ => failure
  | .mark "\x60" =>
    let _ ← template true g.type
  | .mark "(" =>
    advance
    g.type
    expectMark ")"
  | .mark "[" =>
    advance
    let _ ← listUntil "]" (tupleItem g)
  | .mark "\x7b" =>
    match ← attempt? (mappedType g) with
    | some () => pure ()
    | none => typeMembers g
  | .word "typeof" false =>
    advance
    if ← eatWord "import" then
      expectMark "("
      let _ ← textHere
      expectMark ")"
      let _ ← collect do
        if ← eatMark "." then
          let _ ← anyWord
          pure (some ())
        else pure none
    else
      entityName
    unless ← lineEnded do typeArguments? g
  | .word "import" false =>
    advance
    expectMark "("
    let _ ← textHere
    if ← eatMark "," then
      let _ ← g.assignment
    expectMark ")"
    if ← eatMark "." then entityName
    typeArguments? g
  | .word word _ =>
    require (!(reservedWords.contains word) ||
      ["this", "void", "null", "true", "false"].contains word)
    entityName
    unless ← lineEnded do typeArguments? g
  | _ => failure

/-- A type with brackets behind it, for arrays and for the type of a member. -/
def postfixType : Parser Unit := do
  primaryType g
  extendWith (fun () => do
    if (← atMark "[") && !(← lineEnded) then
      advance
      unless ← atMark "]" do g.type
      expectMark "]"
      pure (some ())
    else pure none) ()

/-- A type with operators in front of it. -/
def operatorType : Parser Unit := do
  if ← atAnyWord ["keyof", "unique", "readonly"] then
    advance
    g.type
  else if ← eatWord "infer" then
    let _ ← nameHere
    let _ ← attempt? do
      expectWord "extends"
      g.type
      require (!(← atMark "?"))
  else postfixType g

/-- Types between a mark, which may also stand in front of the first. -/
def joinedTypes (symbol : String) (p : Parser Unit) : Parser Unit := do
  let _ ← eatMark symbol
  let _ ← separated symbol p

/-- A type: of a function or a constructor, or a union with perhaps a condition. -/
def typeStep : Parser Unit := do
  let constructs ← pure ((← atWord "new") ||
    ((← atWord "abstract") && (← second).token = .word "new" false))
  if constructs then
    let _ ← eatWord "abstract"
    advance
    typeParameters? g
    arrowType g
  else if ← atMark "<" then
    typeParameters? g
    arrowType g
  else
    match ← attempt? (arrowType g) with
    | some () => pure ()
    | none =>
      joinedTypes "|" (joinedTypes "&" (operatorType g))
      if (← atWord "extends") && !(← lineEnded) then
        advance
        let checked ← attempt? do
          g.type
          expectMark "?"
        require checked.isSome
        g.type
        expectMark ":"
        g.type

end ModuleGateway.Script
