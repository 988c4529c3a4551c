import ModuleGateway.Text.Split

/-!
Finding import targets in script text. The scanner walks the text from left to right without
parsing it: it tells string, template and regular expression literals and comments from code, and
marks the string literal that follows an `import`, `import(` or `from` as a target. Text that only
looks like an import inside a literal or a comment is never marked.

Every step sees the text read so far, the text ahead and the scanner's own fields. Nothing depends
on what a target is later replaced by.
-/

namespace ModuleGateway.Relink

open Text

/-- The constructs that have to be closed. -/
inductive Construct where
  | string
  | template
  | blockComment
  | regex
  deriving DecidableEq, Repr

/-- The name of a construct in an error. -/
def Construct.name : Construct → String
  | .string => "string literal"
  | .template => "template literal"
  | .blockComment => "block comment"
  | .regex => "regular expression"

/-- A literal or comment that runs off the end of its line or of the text. The offset is in bytes
of UTF-8. -/
structure Unterminated where
  construct : Construct
  offset : Nat
  deriving DecidableEq, Repr

/-- The text of the error. -/
def Unterminated.message (e : Unterminated) : String :=
  "unterminated " ++ e.construct.name ++ " starting at byte " ++ toString e.offset

/-- What the last significant token was. It decides whether a slash divides or opens a regular
expression. -/
inductive Prior where
  | start
  | operator
  | operand
  deriving DecidableEq, Repr

/-- What the scanner stands in. -/
inductive Mode where
  | code
  /-- Behind the opening quote of a string literal. -/
  | quoted (quote : Char)
  /-- In the text of a template literal. -/
  | template
  | lineComment
  | blockComment
  /-- Behind the slash that opens a regular expression. -/
  | regex
  /-- In front of the opening quote of an import target. -/
  | target
  deriving DecidableEq, Repr

/-- The scanner between two steps. -/
structure Scanner where
  /-- The text read so far, nearest character first. -/
  behind : List Char
  /-- The text not read yet. -/
  ahead : List Char
  /-- The characters of the text read so far. -/
  count : Nat
  /-- The bytes of the text read so far. -/
  offset : Nat
  mode : Mode
  /-- Where the last literal or block comment opened. -/
  opened : Nat
  prior : Prior
  /-- The number of open braces. -/
  braces : Nat
  /-- The number of open braces at each open substitution, innermost first. -/
  substitutions : List Nat
  /-- One entry for each open parenthesis, innermost first: whether a statement follows it. -/
  parens : List Bool
  /-- The last word was a statement keyword with a parenthesis right after it. -/
  statementHead : Bool
  /-- Inside an `import` or `export` clause that a `from` may end. -/
  awaitingFrom : Bool
  deriving DecidableEq, Repr

/-- The scanner in front of a text. -/
def Scanner.initial (text : List Char) : Scanner where
  behind := []
  ahead := text
  count := 0
  offset := 0
  mode := .code
  opened := 0
  prior := .start
  braces := 0
  substitutions := []
  parens := []
  statementHead := false
  awaitingFrom := false

/-- Blanks between tokens: space, tab, line feed, form feed, carriage return. -/
def isBlank (c : Char) : Bool :=
  c = ' ' || c = '\t' || c = '\n' || c = '\x0c' || c = '\r'

def isQuote (c : Char) : Bool :=
  c = '\'' || c = '"'

/-- Every character above ASCII counts as a letter. -/
def isWordStart (c : Char) : Bool :=
  c.isAlpha || c = '_' || c = '$' || 0x80 ≤ c.val

def isWordPart (c : Char) : Bool :=
  isWordStart c || c.isDigit

def isLineEnd (c : Char) : Bool :=
  c = '\n' || c = '\r'

/-- Words after which a slash opens a regular expression. -/
def regexWords : List String :=
  ["return", "typeof", "instanceof", "in", "of", "new", "delete", "void", "throw", "case", "do",
    "else", "yield", "await"]

/-- Words whose parenthesized head is followed by a statement. -/
def headWords : List String :=
  ["if", "while", "for", "with"]

/-! ### Literals

Each reader starts behind the opening delimiter and gives what it reads, the delimiter that ends
it included, as the number of characters read. -/

/-- The inside of a string literal, up to its closing quote. A backslash takes the next character
with it; a line end outside an escape leaves the literal open. -/
def stringBody (quote : Char) : List Char → Option (List Char)
  | [] => none
  | '\\' :: c :: rest => (stringBody quote rest).map fun body => '\\' :: c :: body
  | ['\\'] => none
  | c :: rest =>
    if isLineEnd c then none
    else if c = quote then some []
    else (stringBody quote rest).map (c :: ·)

/-- How a stretch of template text ends. -/
inductive ChunkEnd where
  /-- The closing backtick. -/
  | closed
  /-- The two characters that open a substitution. -/
  | substitution
  deriving DecidableEq, Repr

/-- The length of a stretch of template text with what ends it. -/
def templateChunk : List Char → Option (Nat × ChunkEnd)
  | [] => none
  | '\\' :: _ :: rest => (templateChunk rest).map fun (n, e) => (n + 2, e)
  | ['\\'] => none
  | '\x60' :: _ => some (1, .closed)
  | '$' :: '\x7b' :: _ => some (2, .substitution)
  | _ :: rest => (templateChunk rest).map fun (n, e) => (n + 1, e)

/-- The length of a block comment behind its opening, with what ends it. -/
def blockBody : List Char → Option Nat
  | [] => none
  | '*' :: '/' :: _ => some 2
  | _ :: rest => (blockBody rest).map (· + 1)

/-- The length of a regular expression behind its opening slash, with the closing slash and
without the flags. A slash in a class does not close it. -/
def regexBody (inClass : Bool) : List Char → Option Nat
  | [] => none
  | '\\' :: _ :: rest => (regexBody inClass rest).map (· + 2)
  | ['\\'] => none
  | '[' :: rest => (regexBody true rest).map (· + 1)
  | ']' :: rest => (regexBody false rest).map (· + 1)
  | c :: rest =>
    if isLineEnd c then none
    else if c = '/' && !inClass then some 1
    else (regexBody inClass rest).map (· + 1)

/-! ### Steps -/

namespace Scanner

/-- Moves past the next `n` characters. -/
def advance (s : Scanner) (n : Nat) : Scanner :=
  { s with
    behind := (s.ahead.take n).reverse ++ s.behind
    ahead := s.ahead.drop n
    count := s.count + n
    offset := s.offset + utf8Length (s.ahead.take n) }

/-- Opens a construct here with a delimiter of `n` characters. -/
def openWith (s : Scanner) (n : Nat) (mode : Mode) : Scanner :=
  { s.advance n with opened := s.offset, mode := mode }

/-- Moves past `n` characters of code whose last token is of the given kind. -/
def token (s : Scanner) (n : Nat) (prior : Prior) : Scanner :=
  { s.advance n with prior := prior }

/-- Whether the next word is a member name, one behind a dot that does not end a spread. -/
def isMember (s : Scanner) : Bool :=
  match s.behind with
  | '.' :: '.' :: '.' :: _ => false
  | '.' :: _ => true
  | _ => false

/-- Moves past `n` characters and stands in front of a target. -/
def toTarget (s : Scanner) (n : Nat) : Scanner :=
  { s.advance n with mode := .target }

/-- How many blanks a text starts with. -/
def blanks (text : List Char) : Nat :=
  (text.takeWhile isBlank).length

/-- The first character behind the next `n` characters and the blanks after them. -/
def afterBlanks (s : Scanner) (n : Nat) : Option Char :=
  ((s.ahead.drop n).dropWhile isBlank).head?

/-- The word `import`, read as `read`: a target follows directly or behind a parenthesis, or a
clause starts. -/
def importWord (read : Scanner) : Scanner :=
  let gap := blanks read.ahead
  match read.ahead.drop gap with
  | '(' :: rest =>
    let inner := blanks rest
    match rest.drop inner with
    | q :: _ => if isQuote q then read.toTarget (gap + 1 + inner) else read
    | [] => read
  | c :: _ =>
    if isQuote c then read.toTarget gap
    else if c = '\x7b' || c = '*' || isWordStart c then { read with awaitingFrom := true }
    else read
  | [] => read

/-- The word `export`, read as `read`: only a clause in braces or a star can have a `from`. -/
def exportWord (read : Scanner) : Scanner :=
  match read.afterBlanks 0 with
  | some c => if c = '\x7b' || c = '*' then { read with awaitingFrom := true } else read
  | none => read

/-- The word `from` inside a clause, read as `read`. -/
def fromWord (read : Scanner) : Scanner :=
  match read.afterBlanks 0 with
  | some c => if isQuote c then read.toTarget (blanks read.ahead) else read
  | none => read

/-- An identifier or keyword. -/
def word (s : Scanner) : Scanner :=
  let letters := s.ahead.takeWhile isWordPart
  let n := letters.length
  let text := String.ofList letters
  if s.isMember then s.token n .operand
  else if text = "import" then (s.token n .operator).importWord
  else if text = "export" then (s.token n .operator).exportWord
  else if text = "from" && s.awaitingFrom then (s.token n .operand).fromWord
  else if headWords.contains text then
    { s.token n .operator with statementHead := s.afterBlanks n = some '(' }
  else s.token n (if regexWords.contains text then .operator else .operand)

/-- A slash in code. -/
def slash (s : Scanner) (next : Option Char) : Scanner :=
  if next = some '/' then { s.advance 2 with mode := .lineComment }
  else if next = some '*' then s.openWith 2 .blockComment
  else if s.prior ≠ .operand then s.openWith 1 .regex
  else s.token 1 .operator

/-- A closing brace: it ends the innermost substitution when it stands at that depth. -/
def closeBrace (s : Scanner) : Scanner :=
  match s.substitutions with
  | depth :: outer =>
    if depth = s.braces then { s.advance 1 with substitutions := outer, mode := .template }
    else { s.token 1 .operator with braces := s.braces - 1 }
  | [] => { s.token 1 .operator with braces := s.braces - 1 }

/-- A closing parenthesis: behind a statement head, an expression starts. -/
def closeParen (s : Scanner) : Scanner :=
  { s.token 1 (if s.parens.head? = some true then .operator else .operand) with
    parens := s.parens.tail }

/-- One token of code, which starts with `c` and goes on with `rest`. -/
def code (s : Scanner) (c : Char) (rest : List Char) : Scanner :=
  if isQuote c then s.openWith 1 (.quoted c)
  else if c = '\x60' then s.openWith 1 .template
  else if c = '/' then s.slash rest.head?
  else if c = '\x7b' then { s.token 1 .operator with braces := s.braces + 1 }
  else if c = '\x7d' then s.closeBrace
  else if c = ';' then { s.token 1 .operator with awaitingFrom := false }
  else if c = '(' then
    { s.token 1 .operator with parens := s.statementHead :: s.parens, statementHead := false }
  else if c = ')' then s.closeParen
  else if c = ']' then s.token 1 .operand
  else if (c = '+' || c = '-') && rest.head? = some c then
    s.token 2 (if s.prior = .operand then .operand else .operator)
  else if c.isDigit then
    s.token (s.ahead.takeWhile fun d => isWordPart d || d = '.').length .operand
  else if isWordStart c then s.word
  else if isBlank c then s.advance 1
  else s.token 1 .operator

end Scanner

/-- What one step reads: plain text, or a target with its quotes. -/
inductive Piece where
  | verbatim (text : List Char)
  /-- The quote and the text between the quotes. -/
  | target (quote : Char) (raw : List Char)
  deriving DecidableEq, Repr

/-- The text of a piece as it stands in the source. -/
def Piece.text : Piece → List Char
  | .verbatim text => text
  | .target quote raw => quote :: raw ++ [quote]

namespace Scanner

/-- The text a step from `s` to `t` has read. -/
def readTo (s t : Scanner) : Piece :=
  .verbatim (s.ahead.take (t.count - s.count))

/-- One step: a token of code, or the rest of the construct the scanner stands in. -/
def step (s : Scanner) (c : Char) (rest : List Char) : Except Unterminated (Piece × Scanner) :=
  let go (t : Scanner) : Except Unterminated (Piece × Scanner) := .ok (s.readTo t, t)
  match s.mode with
  | .code => go (s.code c rest)
  | .quoted quote =>
    match stringBody quote s.ahead with
    | some body => go { s.token (body.length + 1) .operand with mode := .code }
    | none => .error ⟨.string, s.opened⟩
  | .template =>
    match templateChunk s.ahead with
    | some (n, .closed) => go { s.token n .operand with mode := .code }
    | some (n, .substitution) =>
      go { s.token n .start with mode := .code, substitutions := s.braces :: s.substitutions }
    | none => .error ⟨.template, s.opened⟩
  | .lineComment =>
    go { s.advance (s.ahead.takeWhile (· ≠ '\n')).length with mode := .code }
  | .blockComment =>
    match blockBody s.ahead with
    | some n => go { s.advance n with mode := .code }
    | none => .error ⟨.blockComment, s.opened⟩
  | .regex =>
    match regexBody false s.ahead with
    | some n =>
      let flags := ((s.ahead.drop n).takeWhile isWordPart).length
      go { s.token (n + flags) .operand with mode := .code }
    | none => .error ⟨.regex, s.opened⟩
  | .target =>
    match stringBody c rest with
    | some body =>
      .ok (.target c body,
        { s.token (body.length + 2) .operand with
          mode := .code, opened := s.offset, awaitingFrom := false })
    | none => .error ⟨.string, s.offset⟩

/-- What is wrong with a text that ends here: a construct or a substitution is still open. -/
def pending (s : Scanner) : Option Unterminated :=
  match s.mode with
  | .quoted _ | .target => some ⟨.string, s.opened⟩
  | .template => some ⟨.template, s.opened⟩
  | .blockComment => some ⟨.blockComment, s.opened⟩
  | .regex => some ⟨.regex, s.opened⟩
  | .code | .lineComment =>
    if s.substitutions = [] then none else some ⟨.template, s.opened⟩

end Scanner

/-- The pieces of a text in order, and the error the scan ended with, if any. -/
structure Survey where
  pieces : List Piece
  failure : Option Unterminated
  deriving DecidableEq, Repr

/-- The number of steps after which a text is scanned. Every step but that of an empty line comment
reads something, and after a line comment comes code, so two steps for each character, and one more,
are enough. -/
def Scanner.enoughSteps (text : List Char) : Nat :=
  2 * text.length + 1

/-- Scans from `s`, for at most as many steps as are given. -/
def Scanner.surveyFor : Nat → Scanner → Survey
  | 0, s => ⟨[], s.pending⟩
  | fuel + 1, s =>
    match s.ahead with
    | [] => ⟨[], s.pending⟩
    | c :: rest =>
      match s.step c rest with
      | .error e => ⟨[], some e⟩
      | .ok (piece, next) =>
        let later := next.surveyFor fuel
        ⟨piece :: later.pieces, later.failure⟩

/-- The pieces of a text and the error its scan ends with. -/
def survey (text : List Char) : Survey :=
  (Scanner.initial text).surveyFor (Scanner.enoughSteps text)

end ModuleGateway.Relink
