import ModuleGateway.Script.Token

/-!
Parsers of scripts. A cursor stands at a token and holds the text from it on, so that a literal can be
read where the token turns out to start one. A parser moves the cursor over one construct or fails; it
says nothing about why.
-/

namespace ModuleGateway.Script

/-- The dialect of a script. -/
structure Dialect where
  /-- Whether type annotations are part of it. -/
  typed : Bool
  /-- Whether elements in angle brackets are part of it. -/
  markup : Bool
  /-- Whether the script only declares what exists elsewhere. -/
  ambient : Bool := false
  deriving DecidableEq, Repr

/-- What a construct may hold, given where it stands. -/
structure Context where
  dialect : Dialect
  ambient : Bool
  /-- Whether `in` is an operator. -/
  allowIn : Bool := true
  /-- Whether `return` is a statement. -/
  allowReturn : Bool := false
  /-- Whether `await` is an operator. -/
  allowAwait : Bool := true
  /-- Whether `yield` is an operator. -/
  allowYield : Bool := false
  /-- Whether a colon has to follow an arrow function whose result has a type. -/
  expectsColon : Bool := false
  /-- More turns than any loop over the text can take. -/
  limit : Nat

/-- A place in a script. -/
structure Cursor where
  token : Token
  /-- Whether a line ends between the token before and this one. -/
  ended : Bool
  /-- The text from the token on. -/
  start : List Char
  /-- The text behind the token. -/
  rest : List Char
  /-- The number of defaults in objects so far, which only patterns may have. -/
  defaults : Nat := 0

namespace Cursor

/-- The cursor at the first token of a text. -/
def ofText (text : List Char) : Cursor :=
  match skipGap .blank false text with
  | none => { token := .invalid, ended := false, start := [], rest := [] }
  | some (ended, start) =>
    let (token, rest) := Script.token start
    { token, ended, start, rest }

/-- The cursor at the first token of a later text. -/
def move (c : Cursor) (text : List Char) : Cursor :=
  { ofText text with defaults := c.defaults }

/-- The cursor at the next token. -/
def next (c : Cursor) : Cursor :=
  c.move c.rest

/-- The cursor with all signs of a mark that starts with `>` in one token. -/
def joined (c : Cursor) : Cursor :=
  match c.token with
  | .mark ">" =>
    match mark? closingMarks c.start with
    | some (symbol, rest) => { c with token := .mark symbol, rest := rest }
    | none => c
  | _ => c

end Cursor

/-- A parser of one construct. -/
abbrev Parser := ReaderT Context (StateT Cursor Option)

namespace Parser

variable {α β : Type}

/-- The token the cursor stands at. -/
def peek : Parser Token := do
  pure (← get).token

/-- The token behind the one the cursor stands at, with its cursor. -/
def second : Parser Cursor := do
  pure (← get).next

/-- Moves to the next token. -/
def advance : Parser Unit :=
  modify Cursor.next

/-- Moves behind a literal that was read from the text. -/
def moveTo (rest : List Char) : Parser Unit :=
  modify (·.move rest)

/-- Whether a line ends in front of the token. -/
def lineEnded : Parser Bool := do
  pure (← get).ended

def isTyped : Parser Bool := do
  pure (← read).dialect.typed

def require (condition : Bool) : Parser Unit :=
  if condition then pure () else failure

def atMark (symbol : String) : Parser Bool := do
  pure ((← peek) = .mark symbol)

/-- Whether the token is one of some marks. -/
def atAny (symbols : List String) : Parser Bool := do
  match ← peek with
  | .mark symbol => pure (symbols.contains symbol)
  | _ => pure false

def atWord (name : String) : Parser Bool := do
  pure ((← peek) = .word name false)

def eatMark (symbol : String) : Parser Bool := do
  if ← atMark symbol then
    advance
    pure true
  else pure false

def eatWord (name : String) : Parser Bool := do
  if ← atWord name then
    advance
    pure true
  else pure false

/-- Moves behind the token when it is one of some marks. -/
def eatAny (symbols : List String) : Parser Bool := do
  if ← atAny symbols then
    advance
    pure true
  else pure false

def expectMark (symbol : String) : Parser Unit := do
  require (← eatMark symbol)

def expectWord (name : String) : Parser Unit := do
  require (← eatWord name)

/-- What a parser gives, or nothing with the cursor where it was when the parser fails. -/
def attempt? (p : Parser α) : Parser (Option α) := fun context cursor =>
  match p context cursor with
  | some (a, after) => some (some a, after)
  | none => some (none, cursor)

/-- Whether a parser succeeds here; the cursor stays. -/
def wouldRead (p : Parser α) : Parser Bool := fun context cursor =>
  some ((p context cursor).isSome, cursor)

/-- The results of a parser that is run until it gives nothing. -/
def collectFor (p : Parser (Option α)) : Nat → Parser (List α)
  | 0 => failure
  | turns + 1 => do
    match ← p with
    | none => pure []
    | some a =>
      let rest ← collectFor p turns
      pure (a :: rest)

/-- The results of a parser that is run until it gives nothing. Every run but the last has to move the
cursor. -/
def collect (p : Parser (Option α)) : Parser (List α) := do
  collectFor p (← read).limit

/-- Extends a value until there is nothing to extend it with. -/
def extendFor (p : α → Parser (Option α)) : Nat → α → Parser α
  | 0, _ => failure
  | turns + 1, a => do
    match ← p a with
    | none => pure a
    | some b => extendFor p turns b

/-- Extends a value until there is nothing to extend it with. Every extension has to move the
cursor. -/
def extendWith (p : α → Parser (Option α)) (a : α) : Parser α := do
  extendFor p (← read).limit a

/-- Items between commas up to a closing mark, which is read too. A comma may follow the last
item. -/
def listUntil (close : String) (item : Parser α) : Parser (List α) := do
  let items ← collect do
    if ← atMark close then pure none
    else
      let a ← item
      unless ← atMark close do expectMark ","
      pure (some a)
  expectMark close
  pure items

/-- Items between a separator, at least one. -/
def separated (separator : String) (item : Parser α) : Parser (List α) := do
  let first ← item
  let rest ← collect do
    if ← eatMark separator then pure (some (← item)) else pure none
  pure (first :: rest)

/-- A parser in a changed context. -/
def within (change : Context → Context) (p : Parser α) : Parser α := fun context =>
  p (change context)

end Parser

end ModuleGateway.Script
