import ModuleGateway.Script.Statement
import ModuleGateway.Text.Split

/-!
Import and export declarations, and whole modules. The declarations at the top of a module tell which
modules it loads; those that only name types load nothing.
-/

namespace ModuleGateway.Script

open Script.Parser

variable (g : Grammar)

/-! ### Names in braces -/

/-- A name in braces of an import or export. -/
structure Specifier where
  /-- Whether it names a type. -/
  isType : Bool
  /-- The name in front, and whether it may stand for a local name. -/
  first : String
  isLocal : Bool
  /-- The name behind `as`. -/
  renamed : Option String

/-- A name or a text that an export is called by, and whether it is a name that may be local. -/
def outerName : Parser (String × Bool) := do
  match ← peek with
  | .text value =>
    advance
    pure (value, false)
  | _ =>
    let isLocal ← atName
    pure (← anyWord, isLocal)

/-- Whether the word `type` here says that a type is named. The words behind it tell: it may also be
the name itself, and `as` may be one too. -/
def namesType : Parser Bool := do
  if !((← isTyped) && (← atWord "type")) then pure false
  else
    let after ← second
    let closes := fun (t : Token) => t = .mark "," || t = .mark "\x7d"
    match after.token with
    | .word "as" _ =>
      let third := after.next
      if third.token = .word "as" false then pure !(closes third.next.token)
      else pure (closes third.token)
    | .word _ _ | .text _ => pure true
    | _ => pure false

/-- One name in braces. -/
def specifier (innerName : Parser String) : Parser Specifier := do
  let isType ← namesType
  if isType then advance
  let (first, isLocal) ← outerName
  let renamed ← if ← eatWord "as" then pure (some (← innerName)) else pure none
  pure { isType, first, isLocal, renamed }

/-- The attributes behind the text that a module is loaded by. -/
def requestAttributes : Parser (List (String × String)) := do
  let marked ← pure ((← atWord "with") || ((← atWord "assert") && !(← lineEnded)))
  if marked then
    advance
    expectMark "\x7b"
    listUntil "\x7d" do
      let key ← match ← peek with
        | .text value => do
          advance
          pure value
        | _ => anyWord
      expectMark ":"
      pure (key, ← textHere)
  else pure []

/-- The text that a module is loaded by, with its attributes. -/
def request : Parser Request := do
  let specifier ← textHere
  let attributes ← requestAttributes
  pure { specifier, attributes }

/-! ### Imports -/

/-- What the word behind `import` says when it is not a name itself. -/
inductive ImportWord where
  | type
  | phase

/-- Whether a default import's name stands at a cursor. It may be the word `from` itself. -/
def startsDefault (c : Cursor) : Bool :=
  match c.token with
  | .word word _ => word ≠ "from" || c.next.token = .word "from" false
  | _ => false

/-- Whether what an import names as types stands at a cursor. -/
def startsTypes (c : Cursor) : Bool :=
  c.token = .mark "\x7b" || c.token = .mark "*" || startsDefault c ||
    (c.token = .word "from" false && c.next.token = .mark "=")

/-- The word behind `import`, when it is not the name of the default import. -/
def importWord? : Parser (Option ImportWord) := do
  let after ← second
  if (← isTyped) && (← atWord "type") then
    pure (if startsTypes after then some .type else none)
  else if ← atWord "defer" then
    pure (if after.token = .mark "*" then some .phase else none)
  else if ← atWord "source" then pure (if startsDefault after then some .phase else none)
  else pure none

/-- The names that an import brings in, in braces. -/
def importNames : Parser (List Specifier) := do
  expectMark "\x7b"
  listUntil "\x7d" do
    let s ← specifier nameHere
    require (s.renamed.isSome || s.isLocal)
    pure s

/-- The names of an import clause that are not names of types. -/
def bindings (specifiers : List Specifier) : List Binding :=
  (specifiers.filter fun s => !s.isType).map fun s => ⟨s.first, s.renamed.getD s.first⟩

/-- All names behind a star: `* as name`. -/
def namespaceName : Parser String := do
  expectMark "*"
  expectWord "as"
  nameHere

/-- What an import brings in. -/
def importClause : Parser ImportClause := do
  let default? ← if ← atName then pure (some (← nameHere)) else pure none
  let more ← if default?.isSome then eatMark "," else pure true
  if !more then pure { default? }
  else if ← atMark "*" then pure { default?, star? := some (← namespaceName) }
  else
    let specifiers ← importNames
    pure { default?, names? := some (bindings specifiers), hasTypes := specifiers.any (·.isType) }

/-- What a typed import is made equal to: a module, or a name with points. -/
def importedEntity : Parser Unit := do
  expectMark "="
  if (← atWord "require") && (← second).token = .mark "(" then
    advance
    advance
    let _ ← textHere
    expectMark ")"
  else entityName
  endStatement

/-- An import declaration. -/
def importDeclaration : Parser Statement := do
  expectWord "import"
  match ← peek with
  | .text _ =>
    let loaded ← request
    endStatement
    pure (.importing none loaded)
  | _ =>
    let word ← importWord?
    if word.isSome then advance
    let equated ← pure ((← isTyped) && (← atName) && (← second).token = .mark "=")
    if equated then
      let _ ← nameHere
      importedEntity
      pure (match word with
        | some .type => .erased true
        | _ => .other)
    else
      let clause ← importClause
      expectWord "from"
      let loaded ← request
      endStatement
      match word with
      | some .type =>
        require (!clause.hasTypes)
        pure (.erased true)
      | _ => pure (.importing (some clause) loaded)

/-! ### Exports -/

/-- An export of all names of another module, from its star on. -/
def exportAllRest : Parser Statement := do
  expectMark "*"
  let name ← if ← eatWord "as" then pure (some (← outerName).1) else pure none
  expectWord "from"
  let loaded ← request
  endStatement
  pure (.exportAll name loaded)

/-- An export of names in braces. Without another module behind them the names are local. Where all
names are of types, none of them says so again. -/
def exportNamesRest (ofTypes : Bool) : Parser Statement := do
  expectMark "\x7b"
  let specifiers ← listUntil "\x7d" (specifier (do pure (← outerName).1))
  require (!(ofTypes && specifiers.any (·.isType)))
  let names := (specifiers.filter fun s => !s.isType).map fun s =>
    ({ outer := s.renamed.getD s.first, inner := s.first } : Binding)
  if ← eatWord "from" then
    let loaded ← request
    endStatement
    pure (.exportNames names (some loaded))
  else
    require (specifiers.all (·.isLocal))
    endStatement
    pure (.exportNames names none)

/-- A default export behind its word. -/
def exportDefaultRest : Parser Statement := do
  if ← atFunction then
    let kind ← functionHead
    let name ← if ← atName then pure (some (← nameHere)) else pure none
    match ← functionRest g kind false with
    | (bound, some body) => pure (.exportDefault (.function kind name bound body))
    | (_, none) => pure (.erased true)
  else if (← atMark "@") || (← atWord "class") ||
      ((← isTyped) && (← atWord "abstract") && (← second).token = .word "class" false) then
    decorators g
    let _ ← eatWord "abstract"
    expectWord "class"
    let _ ← classRest g (chain g)
    pure (.exportDefault .other)
  else if (← atWord "interface") && (← atTypedDeclaration) then
    advance
    interfaceRest g
    pure (.erased true)
  else
    let value ← assignmentStep g
    endStatement
    pure (.exportDefault value)

/-- A declaration of variables, with its end. -/
def variablesDeclaration (kind : VariableKind) : Parser Statement := do
  advance
  let declared ← variablesRest g kind false
  endStatement
  pure declared

/-- A declaration of what a module or a block makes; nothing when none starts here. -/
def declaration? : Parser (Option Statement) := do
  if ← atTypedDeclaration then pure (some (← typedDeclaration g))
  else if ← atFunction then pure (some (← functionDeclaration g))
  else if (← atMark "@") || (← atWord "class") then pure (some (← classDeclaration g))
  else
    match ← variableKind? with
    | some kind => pure (some (← variablesDeclaration g kind))
    | none => pure none

/-- An export declaration that only typed scripts have; nothing when none starts here. -/
def typedExport? : Parser (Option Statement) := do
  let after ← second
  if !(← isTyped) then pure none
  else if ← eatMark "=" then
    let _ ← g.expression
    endStatement
    pure (some .other)
  else if (← atWord "as") && after.token = .word "namespace" false then
    advance
    advance
    let _ ← nameHere
    endStatement
    pure (some (.erased true))
  else if ← atWord "import" then
    advance
    if (← importWord?).isSome then advance
    let _ ← nameHere
    importedEntity
    pure (some .other)
  else if (← atWord "type") && (after.token = .mark "\x7b" || after.token = .mark "*") then
    advance
    let _ ← if ← atMark "*" then exportAllRest else exportNamesRest true
    pure (some (.erased true))
  else pure none

/-- An export declaration. -/
def exportDeclaration : Parser Statement := do
  expectWord "export"
  match ← typedExport? g with
  | some statement => pure statement
  | none =>
    if ← atMark "*" then exportAllRest
    else if ← atMark "\x7b" then exportNamesRest false
    else if ← eatWord "default" then exportDefaultRest g
    else
      match ← declaration? g with
      | some (.erased _) => pure (.erased true)
      | some statement => pure (.exporting statement)
      | none => failure

/-! ### Statements and modules -/

/-- Whether an import declaration starts here, rather than an expression. -/
def atImport : Parser Bool := do
  if ← atWord "import" then
    match (← second).token with
    | .mark symbol => pure (symbol ≠ "(" && symbol ≠ ".")
    | _ => pure true
  else pure false

/-- A statement that is no block, import or export and declares nothing but resources. -/
def plainStatement : Parser Statement := do
  if (← resources? g false).isSome then
    endStatement
    pure .other
  else
    let started ← match ← peek with
      | .word word false => wordStatement? g word
      | _ => pure none
    match started with
    | some statement => pure statement
    | none => expressionStatement g

/-- A statement or declaration. -/
def statementStep : Parser Statement := do
  if ← atMark "\x7b" then pure (.block (← braced g))
  else if ← eatMark ";" then pure .empty
  else if ← atImport then importDeclaration
  else if ← atWord "export" then exportDeclaration g
  else if ← atMark "@" then
    decorators g
    if ← atWord "export" then exportDeclaration g else classDeclaration g
  else
    match ← declaration? g with
    | some statement => pure statement
    | none => plainStatement g

/-- The grammar of constructs one step deeper. -/
def Grammar.step : Grammar where
  type := typeStep g
  assignment := assignmentStep g
  expression := expressionStep g
  target := targetStep g
  statement := statementStep g
  element := elementStep g

/-- The grammar of constructs that nest up to a depth. -/
def grammar : Nat → Grammar
  | 0 => .none
  | depth + 1 => (grammar depth).step

/-- The text behind a first line that names the program to run a script with. -/
def behindProgramLine (text : List Char) : List Char :=
  match text with
  | '#' :: '!' :: rest => rest.dropWhile fun c => !isLineEnd c
  | _ => text

/-- The names an export declaration gives, to tell names given twice. -/
def exportedNames : Statement → List String
  | .exporting (.variables _ declared) => declared.flatMap fun (target, _) => target.names
  | .exporting (.function _ name _ _) => [name]
  | .exporting (.classDeclared name) => [name]
  | .exportDefault _ => ["default"]
  | .exportNames names _ => names.map (·.outer)
  | .exportAll (some name) _ => [name]
  | _ => []

/-- The statements of a module; none when the text is no module of the dialect. No name is exported
twice, unless the script is typed, where several declarations may share a name. -/
def parse? (dialect : Dialect) (source : String) : Option (List Statement) := do
  let text := behindProgramLine source.toList
  let limit := text.length + 2
  let context : Context := { dialect, ambient := dialect.ambient, limit }
  let g := grammar limit
  let statements : Parser (List Statement) := collect do
    if (← peek) = .finish then pure none else pure (some (← g.statement))
  let (body, finish) ← statements context (Cursor.ofText text)
  let names := body.flatMap exportedNames
  if finish.defaults = 0 && (dialect.typed || decide names.Nodup) then some body else none

/-- The module that a statement at the top loads. -/
def Statement.requested? : Statement → Option String
  | .importing _ loaded => some loaded.specifier
  | .exportNames _ loaded => loaded.map (·.specifier)
  | .exportAll _ loaded => some loaded.specifier
  | _ => none

/-- The specifiers of the modules that a module loads, in order; none when the text is no module. -/
def specifiers? (dialect : Dialect) (source : String) : Option (List String) :=
  (parse? dialect source).map fun body => body.filterMap Statement.requested?

/-- The dialect of a script file by its extension. -/
def Dialect.ofExtension? (ext : String) : Option Dialect :=
  match ext with
  | "js" | "mjs" | "cjs" => some { typed := false, markup := false }
  | "jsx" => some { typed := false, markup := true }
  | "ts" | "mts" | "cts" => some { typed := true, markup := false }
  | "tsx" => some { typed := true, markup := true }
  | _ => none

/-- The dialect of a script file by its name. Behind a second extension `d` stands a script that only
declares. -/
def Dialect.ofName? (name : String) : Option Dialect := do
  let (stem, ext) ← Text.cutLast? '.' name.toList
  let dialect ← ofExtension? (String.ofList ext)
  let declares := ".d".toList.isSuffixOf stem
  some { dialect with ambient := dialect.typed && declares }

end ModuleGateway.Script
