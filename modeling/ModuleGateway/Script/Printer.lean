import ModuleGateway.Script.Layout
import ModuleGateway.Script.Number
import ModuleGateway.Script.Tree

/-!
Printing scripts. Parentheses stand only where the tree needs them, texts stand in double quotes unless
the dense layout is shorter with others, and numbers are in their shortest spelling. A tree with a
construct that is only checked has no printed form.
-/

namespace ModuleGateway.Script

/-! ### Texts -/

/-- One character of a text, in some quotes, with the character behind it. -/
def quotedChar (quote : Char) (c : Char) (next : Option Char) : List Char :=
  if c = quote || c = '\\' then ['\\', c]
  else if c = '\x00' then
    if next.any Char.isDigit then ['\\', 'x', '0', '0'] else ['\\', '0']
  else if c = '\x07' then ['\\', 'x', '0', '7']
  else if c = '\x08' then ['\\', 'b']
  else if c = '\x0b' then ['\\', 'v']
  else if c = '\x0c' then ['\\', 'f']
  else if c = '\n' then if quote = '\x60' then [c] else ['\\', 'n']
  else if c = '\r' then ['\\', 'r']
  else if c = '\x1b' then ['\\', 'x', '1', 'B']
  else if c = '\xa0' then ['\\', 'x', 'A', '0']
  else if c = '\u2028' then "\\u2028".toList
  else if c = '\u2029' then "\\u2029".toList
  else if c = '$' && quote = '\x60' && next = some '\x7b' then ['\\', '$']
  else [c]

/-- The characters of a text in some quotes. A closing script tag is broken up. -/
def quotedChars (quote : Char) : List Char → List Char
  | [] => []
  | '<' :: '/' :: rest =>
    if (rest.take 6).map Char.toLower = "script".toList then
      '<' :: '\\' :: '/' :: quotedChars quote rest
    else '<' :: '/' :: quotedChars quote rest
  | c :: rest => quotedChar quote c rest.head? ++ quotedChars quote rest

/-- The quote in which a text is shortest: double quotes if they are, then single ones. A backtick saves
the escapes of line breaks, where it may stand. -/
def bestQuote (backtick : Bool) (text : List Char) : Char :=
  let cost (quote : Char) : Int := text.count quote
  let lines : Int := text.count '\n'
  let tick := if backtick then cost '\x60' - lines else text.length + 1
  if cost '\'' < cost '"' then if tick < cost '\'' then '\x60' else '\''
  else if tick < cost '"' then '\x60'
  else '"'

/-- A text literal. -/
def textPiece (isDense backtick : Bool) (value : String) : Piece :=
  let text := value.toList
  let quote := if isDense then bestQuote backtick text else '"'
  .text (quote :: quotedChars quote text ++ [quote])

/-! ### Expressions -/

/-- How tight an expression binds. -/
abbrev Level := Nat

/-- The level of an operator between two operands; the tighter the higher. -/
def operatorLevel (symbol : String) : Level :=
  match symbol with
  | "??" => 6
  | "||" => 7
  | "&&" => 8
  | "|" => 9
  | "^" => 10
  | "&" => 11
  | "==" | "!=" | "===" | "!==" => 12
  | "<" | ">" | "<=" | ">=" | "in" | "instanceof" => 13
  | "<<" | ">>" | ">>>" => 14
  | "+" | "-" => 15
  | "*" | "/" | "%" => 16
  | _ => 17

def commaLevel : Level := 1
def assignLevel : Level := 4
def conditionalLevel : Level := 5
def powerLevel : Level := 17
def frontLevel : Level := 18
def behindLevel : Level := 19
def newLevel : Level := 20

/-- Pieces with a comma between each two. -/
def commaSeparated : List (List Piece) → List Piece
  | [] => []
  | [item] => item
  | item :: items => item ++ [.ofString ",", .space] ++ commaSeparated items

/-- Pieces in parentheses, where `needed` holds. -/
def grouped (needed : Bool) (pieces : List Piece) : List Piece :=
  if needed then [.ofString "("] ++ pieces ++ [.ofString ")"] else pieces

/-- Items in brackets: on one line, or each on a line of its own. A blank stands inside the brackets of
a line where `airy` holds. -/
def bracketed (opening closing : String) (lines airy : Bool) (items : List (List Piece)) :
    List Piece :=
  let gap : List Piece := if airy && items ≠ [] then [.space] else []
  if lines then
    let rows := items.zipIdx.flatMap fun (item, i) =>
      (if i = 0 then [] else [Piece.ofString ","]) ++ [.line] ++ item
    [.ofString opening, .deeper] ++ rows ++ [.shallower, .line, .ofString closing]
  else [.ofString opening] ++ gap ++ commaSeparated items ++ gap ++ [.ofString closing]

/-- Whether an expression starts with a brace or the word `function`, which a statement must not. -/
def startsOpen : Expr → Bool
  | .object _ | .function .. => true
  | .member e _ | .index e _ | .call e _ => startsOpen e
  | .binary _ e _ | .conditional e _ _ | .assign _ e _ => startsOpen e
  | .group e => startsOpen e
  | _ => false

/-- Whether an object stands at the start of an expression. -/
def startsObject : Expr → Bool
  | .object _ => true
  | .member e _ | .index e _ | .call e _ => startsObject e
  | .binary _ e _ | .conditional e _ _ | .assign _ e _ => startsObject e
  | .group e => startsObject e
  | _ => false

def targetPieces : Target → Option (List Piece)
  | .name id => some [.ofString id]
  | .pattern _ => none

/-- The parameters of a function in parentheses. -/
def parameterPieces (parameters : List Target) : Option (List Piece) := do
  let names ← parameters.mapM targetPieces
  some (grouped true (commaSeparated names))

/-- An import or export name: a name as it is, anything else as a text. -/
def outerPiece (isDense : Bool) (name : String) : Piece :=
  if Text.isName name.toList then .ofString name else textPiece isDense false name

/-- The words in front of a function's parameters. -/
def functionPieces (kind : FunctionKind) (name : Option String) : List Piece :=
  (if kind.isAsync then [.ofString "async", .space] else []) ++
    [.ofString "function"] ++ (if kind.isGenerator then [.ofString "*"] else []) ++
    (match name with
      | some id => [.space, .ofString id]
      | none => [])

/-- Whether parameters need no parentheses: the dense layout shows one name as it is. -/
def isBareParameter (isDense : Bool) : List Target → Bool
  | [.name _] => isDense
  | _ => false

/-- Whether a blank has to stand between an operator in front and its operand. -/
def isWordOperator (symbol : String) : Bool :=
  Text.isName symbol.toList

/-- Whether the operands of two operators must be parted by parentheses. -/
def mixes (outer inner : String) : Bool :=
  (outer = "??" && (inner = "||" || inner = "&&")) || (inner = "??" && (outer = "||" || outer = "&&"))

/-- Statements in braces. -/
def blockOf (inner : List Piece) : List Piece :=
  if inner = [] then [.ofString "\x7b", .ofString "\x7d"]
  else [.ofString "\x7b", .deeper, .line] ++ inner.dropLast ++ [.shallower, .line, .ofString "\x7d"]

/-- What an import brings in, with the word `from` behind it. -/
def importPieces (isDense : Bool) (clause : Option ImportClause) : List Piece :=
  match clause with
  | none => [.ofString "import", .space]
  | some c =>
    let named := c.names?.map fun names =>
      bracketed "\x7b" "\x7d" false true (names.map fun b =>
        if b.inner = b.outer then [.ofString b.inner]
        else [outerPiece isDense b.outer, .space, .ofString "as", .space, .ofString b.inner])
    let star := c.star?.map fun id =>
      [Piece.ofString "*", .space, .ofString "as", .space, .ofString id]
    let parts := (c.default?.map fun id => [Piece.ofString id]).toList ++ star.toList ++
      named.toList
    [.ofString "import", .space] ++ commaSeparated parts ++ [.space, .ofString "from", .space]

/-- The text a module is loaded by, with its attributes. -/
def requestPieces (isDense : Bool) (r : Request) : List Piece :=
  let shown := r.attributes.map fun (key, value) =>
    [outerPiece isDense key, .ofString ":", .space, textPiece isDense false value]
  textPiece isDense false r.specifier ::
    if shown = [] then []
    else
      [.space, .ofString "with", .space] ++ bracketed "\x7b" "\x7d" false true shown

mutual
/-- The pieces of an expression that stands where `level` binds. The printed form is whole: an
expression that binds less tight is in parentheses. -/
def Expr.pieces (isDense : Bool) (level : Level) (e : Expr) : Option (List Piece) :=
  match e with
  | .name id => some [.ofString id]
  | .literal written => some [.ofString written]
  | .number written => some [.ofString (Number.normal written)]
  | .text value => some [textPiece isDense true value]
  | .template chunks values => do
    let inner ← templatePieces isDense chunks values
    some ([.ofString "\x60"] ++ inner)
  | .member object name => do
    let inner ← object.pieces isDense behindLevel
    let isNumber := match object with
      | .number written => (Number.normal written).toList.all Char.isDigit
      | _ => false
    some (inner ++ [.ofString (if isNumber then " ." else "."), .ofString name])
  | .index object key => do
    let inner ← object.pieces isDense behindLevel
    let behind ← key.pieces isDense 0
    some (inner ++ [.ofString "["] ++ behind ++ [.ofString "]"])
  | .call callee arguments => do
    let inner ← callee.pieces isDense behindLevel
    let behind ← listPieces isDense commaLevel arguments
    some (grouped (newLevel ≤ level) (inner ++ grouped true (commaSeparated behind)))
  | .construct callee arguments => do
    let inner ← callee.pieces isDense newLevel
    let behind ← listPieces isDense commaLevel arguments
    let parens := if isDense && behind = [] then [] else grouped true (commaSeparated behind)
    some ([.ofString "new", .space] ++ inner ++ parens)
  | .unary symbol operand => do
    let inner ← operand.pieces isDense powerLevel
    let gap : List Piece := if isWordOperator symbol then [.space] else []
    some (grouped (frontLevel ≤ level) ([.ofString symbol] ++ gap ++ inner))
  | .binary symbol left right => do
    let own := operatorLevel symbol
    let power := symbol = "**"
    let first ← left.pieces isDense (if power then own else own - 1)
    let second ← right.pieces isDense (if power then own - 1 else own)
    let mixed (inner : Expr) : Bool := match inner with
      | .binary other _ _ => mixes symbol other
      | _ => false
    some (grouped (own ≤ level)
      (grouped (mixed left && own ≤ operatorLevel "&&") first ++
        [.space, .ofString symbol, .space] ++ second))
  | .conditional test yes no => do
    let first ← test.pieces isDense conditionalLevel
    let second ← yes.pieces isDense 3
    let third ← no.pieces isDense 3
    some (grouped (conditionalLevel ≤ level)
      (first ++ [.space, .ofString "?", .space] ++ second ++ [.space, .ofString ":", .space] ++
        third))
  | .assign symbol target value => do
    let first ← target.pieces isDense assignLevel
    let second ← value.pieces isDense commaLevel
    some (grouped (assignLevel ≤ level) (first ++ [.space, .ofString symbol, .space] ++ second))
  | .sequence items => do
    let inner ← listPieces isDense commaLevel items
    some (grouped (commaLevel ≤ level) (commaSeparated inner))
  | .array items => do
    let inner ← listPieces isDense commaLevel items
    some (bracketed "[" "]" (2 < inner.length) false inner)
  | .object fields => do
    let inner ← fieldPieces isDense fields
    some (bracketed "\x7b" "\x7d" (1 < inner.length) true inner)
  | .function kind name parameters body => do
    let bound ← parameterPieces parameters
    let inner ← statementsPieces isDense body
    some (functionPieces kind name ++ bound ++ [.space] ++ blockOf inner)
  | .arrow isAsync parameters body => do
    let bound ← parameterPieces parameters
    let inner ← body.bodyPieces isDense
    let shown :=
      if isBareParameter isDense parameters then (bound.drop 1).dropLast else bound
    some (grouped (assignLevel ≤ level)
      ((if isAsync then [.ofString "async", .space] else []) ++ shown ++
        [.space, .ofString "=>", .space] ++ inner))
  | .group inner => inner.pieces isDense level
  | .other | .place | .pattern => none

/-- The pieces of some expressions. -/
def listPieces (isDense : Bool) (level : Level) (items : List Expr) :
    Option (List (List Piece)) :=
  match items with
  | [] => some []
  | item :: rest => do
    let first ← item.pieces isDense level
    let later ← listPieces isDense level rest
    some (first :: later)

/-- The pieces of an object's fields. A field whose value is the name of its key is that name only. -/
def fieldPieces (isDense : Bool) (fields : List (Key × Expr)) : Option (List (List Piece)) :=
  match fields with
  | [] => some []
  | (key, value) :: rest => do
    let inner ← value.pieces isDense commaLevel
    let later ← fieldPieces isDense rest
    let name : Piece := match key with
      | .name id => .ofString id
      | .text t => textPiece isDense false t
    let short := match key, value with
      | .name id, .name other => id = other && id ≠ "__proto__"
      | _, _ => false
    some ((if short then inner else [name, .ofString ":", .space] ++ inner) :: later)

/-- The pieces of a template behind its opening backtick. -/
def templatePieces (isDense : Bool) (chunks : List String) (values : List Expr) :
    Option (List Piece) :=
  match chunks, values with
  | chunk :: chunks, value :: values => do
    let inner ← value.pieces isDense 0
    let later ← templatePieces isDense chunks values
    some ([.text (chunk.toList ++ ['$', '\x7b'])] ++ inner ++ [.ofString "\x7d"] ++ later)
  | [chunk], [] => some [.text (chunk.toList ++ ['\x60'])]
  | _, _ => none

/-- The body of an arrow function. An object at the start of an expression is in parentheses. -/
def Statement.bodyPieces (isDense : Bool) (s : Statement) : Option (List Piece) :=
  match s with
  | .block body => do
    let inner ← statementsPieces isDense body
    some (blockOf inner)
  | .expression value => do
    let inner ← value.pieces isDense commaLevel
    some (grouped (startsObject value) inner)
  | _ => none

/-- The pieces of a statement, which ends with a line break unless nothing is printed. -/
def Statement.pieces (isDense : Bool) (s : Statement) : Option (List Piece) :=
  match s with
  | .expression value => do
    let inner ← value.pieces isDense 0
    some (grouped (startsOpen value) inner ++ [.stop, .line])
  | .variables kind declared => do
    let inner ← declaredPieces isDense declared
    some ([.ofString kind.word, .space] ++ commaSeparated inner ++ [.stop, .line])
  | .function kind name parameters body => do
    let bound ← parameterPieces parameters
    let inner ← statementsPieces isDense body
    some (functionPieces kind (some name) ++ bound ++ [.space] ++ blockOf inner ++ [.line])
  | .result none => some [.ofString "return", .stop, .line]
  | .result (some value) => do
    let inner ← value.pieces isDense 0
    some ([.ofString "return", .space] ++ inner ++ [.stop, .line])
  | .block body => do
    let inner ← statementsPieces isDense body
    some (blockOf inner ++ [.line])
  | .choice test yes no => do
    let condition ← test.pieces isDense 0
    let first ← yes.pieces isDense
    let second ← match no with
      | none => some []
      | some otherwise => do
        let inner ← otherwise.pieces isDense
        some ([.ofString "else", .space] ++ inner)
    let joint : List Piece := match no, yes with
      | some _, .block _ => first.dropLast ++ [.space]
      | _, _ => first
    some ([.ofString "if", .space, .ofString "("] ++ condition ++ [.ofString ")", .space] ++
      joint ++ second)
  | .empty => some [.ofString ";", .line]
  | .importing clause loaded =>
    some (importPieces isDense clause ++ requestPieces isDense loaded ++ [.stop, .line])
  | .exporting declaration => do
    let inner ← declaration.pieces isDense
    some ([.ofString "export", .space] ++ inner)
  | .exportDefault value => do
    let inner ← value.pieces isDense commaLevel
    let isFunction := match value with
      | .function .. => true
      | _ => false
    let shown := grouped (!isFunction && startsOpen value && !startsObject value) inner
    some ([.ofString "export", .space, .ofString "default", .space] ++ shown ++
      (if isFunction then [.line] else [.stop, .line]))
  | .exportNames names loaded =>
    let listed := names.map fun b =>
      outerPiece isDense b.inner ::
        if b.inner = b.outer then []
        else [.space, .ofString "as", .space, outerPiece isDense b.outer]
    let source : List Piece := match loaded with
      | some r => [.space, .ofString "from", .space] ++ requestPieces isDense r
      | none => []
    some ([.ofString "export", .space] ++ bracketed "\x7b" "\x7d" false true listed ++ source ++
      [.stop, .line])
  | .exportAll name loaded =>
    let shown : List Piece := match name with
      | some id => [.space, .ofString "as", .space, outerPiece isDense id]
      | none => []
    some ([.ofString "export", .space, .ofString "*"] ++ shown ++
      [.space, .ofString "from", .space] ++ requestPieces isDense loaded ++ [.stop, .line])
  | .erased _ => some []
  | .classDeclared _ | .other => none

/-- The pieces of variables with their values. -/
def declaredPieces (isDense : Bool) (declared : List (Target × Option Expr)) :
    Option (List (List Piece)) :=
  match declared with
  | [] => some []
  | (target, none) :: rest => do
    let name ← targetPieces target
    let later ← declaredPieces isDense rest
    some (name :: later)
  | (target, some value) :: rest => do
    let name ← targetPieces target
    let inner ← value.pieces isDense commaLevel
    let later ← declaredPieces isDense rest
    some ((name ++ [.space, .ofString "=", .space] ++ inner) :: later)

/-- The pieces of some statements. -/
def statementsPieces (isDense : Bool) (body : List Statement) : Option (List Piece) :=
  match body with
  | [] => some []
  | s :: rest => do
    let first ← s.pieces isDense
    let later ← statementsPieces isDense rest
    some (first ++ later)

end

/-- A module's text. -/
def print? (isDense : Bool) (body : List Statement) : Option String := do
  let statements ← body.mapM (Statement.pieces isDense)
  some (layOut isDense (statements.flatMap fun pieces => pieces ++ [.settle]))

end ModuleGateway.Script
