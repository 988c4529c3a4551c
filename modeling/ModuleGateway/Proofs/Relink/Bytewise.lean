import ModuleGateway.Proofs.Text.Utf8
import ModuleGateway.Relink.Splice

/-!
The relinker as it works on the bytes of a source. Positions are numbers of bytes, an escape moves over two
bytes whatever they belong to, and text is cut out of the source by its first byte and the byte behind it. A
byte that the source does not have, and a cut inside a character, is a fault.

The loops look at no byte without having compared its index with the length; every other index is checked
here by `byteAt`, and every cut by `slice`.
-/

namespace ModuleGateway.Relink.Bytewise

open Text

/-- Why a scan stops. -/
inductive Stop where
  /-- An index beyond the source, or a cut inside a character. -/
  | fault
  /-- There were too few steps. -/
  | cutOff
  | unterminated (e : Unterminated)
  deriving DecidableEq

/-- What the scanner stands in. Which quote a literal opened with is found where it opened. -/
inductive Phase where
  | code
  | quoted
  | template
  | lineComment
  | blockComment
  | regex
  | target
  deriving DecidableEq

/-- The scanner between two steps. -/
structure Cursor where
  /-- The index of the next byte. -/
  pos : Nat := 0
  /-- Where the last literal or block comment opened. -/
  start : Nat := 0
  phase : Phase := .code
  prior : Prior := .start
  braces : Nat := 0
  /-- The number of open braces at each open substitution, innermost first. -/
  substitutions : List Nat := []
  /-- One entry for each open parenthesis, innermost first: whether a statement follows it. -/
  parens : List Bool := []
  statementHead : Bool := false
  awaitingFrom : Bool := false

/-- The relinker between two steps. -/
structure Writer where
  cursor : Cursor := {}
  out : List Char := []
  /-- The bytes in front of this index are written already. -/
  copied : Nat := 0

/-! ### Looking at the source -/

/-- The byte at an index. -/
def byteAt (source : List Char) (i : Nat) : Except Stop UInt8 :=
  match (bytes source)[i]? with
  | some b => .ok b
  | none => .error .fault

/-- The bytes from one index up to another. They need not be whole characters. -/
def bytesBetween (source : List Char) (i j : Nat) : Except Stop (List UInt8) :=
  if i ≤ j ∧ j ≤ (bytes source).length then .ok (((bytes source).take j).drop i) else .error .fault

/-- The text from one index up to another, both of which lie between characters. -/
def slice (source : List Char) (i j : Nat) : Except Stop (List Char) :=
  match cutAtByte? i source with
  | none => .error .fault
  | some (_, back) =>
    match cutAtByte? (j - i) back with
    | none => .error .fault
    | some (text, _) => if i ≤ j then .ok text else .error .fault

def isQuoteByte (b : UInt8) : Bool :=
  b = ascii '\'' || b = ascii '"'

def isBlankByte (b : UInt8) : Bool :=
  b = ascii ' ' || b = ascii '\t' || b = ascii '\n' || b = ascii '\x0c' || b = ascii '\r'

def isLineEndByte (b : UInt8) : Bool :=
  b = ascii '\n' || b = ascii '\r'

def isDigitByte (b : UInt8) : Bool :=
  ascii '0' ≤ b && b ≤ ascii '9'

def isWordStartByte (b : UInt8) : Bool :=
  ascii 'a' ≤ b && b ≤ ascii 'z' || ascii 'A' ≤ b && b ≤ ascii 'Z' || b = ascii '_' || b = ascii '$' ||
    0x80 ≤ b

def isWordPartByte (b : UInt8) : Bool :=
  isWordStartByte b || isDigitByte b

/-! ### Loops -/

/-- The first index from `i` on at which the test fails, or the end. -/
def skip (test : UInt8 → Bool) (source : List Char) (i : Nat) : Nat :=
  if h : i < (bytes source).length then
    if test (bytes source)[i] then skip test source (i + 1) else i
  else i
termination_by (bytes source).length - i

/-- The index of the quote that closes a string literal, looked for from `i` on. -/
def closingQuote? (quote : UInt8) (source : List Char) (i : Nat) : Option Nat :=
  if h : i < (bytes source).length then
    let b := (bytes source)[i]
    if b = ascii '\\' then closingQuote? quote source (i + 2)
    else if isLineEndByte b then none
    else if b = quote then some i
    else closingQuote? quote source (i + 1)
  else none
termination_by (bytes source).length - i

/-- The index behind what ends a stretch of template text. -/
def chunkEnd? (source : List Char) (i : Nat) : Option (Nat × ChunkEnd) :=
  if h : i < (bytes source).length then
    let b := (bytes source)[i]
    if b = ascii '\\' then chunkEnd? source (i + 2)
    else if b = ascii '\x60' then some (i + 1, .closed)
    else if b = ascii '$' && (bytes source)[i + 1]? = some (ascii '\x7b') then some (i + 2, .substitution)
    else chunkEnd? source (i + 1)
  else none
termination_by (bytes source).length - i

/-- The index behind the slash that closes a regular expression. -/
def closingSlash? (inClass : Bool) (source : List Char) (i : Nat) : Option Nat :=
  if h : i < (bytes source).length then
    let b := (bytes source)[i]
    if b = ascii '\\' then closingSlash? inClass source (i + 2)
    else if isLineEndByte b then none
    else if b = ascii '[' then closingSlash? true source (i + 1)
    else if b = ascii ']' then closingSlash? false source (i + 1)
    else if b = ascii '/' && !inClass then some (i + 1)
    else closingSlash? inClass source (i + 1)
  else none
termination_by (bytes source).length - i

/-- How many bytes stand in front of a pattern in a text. -/
def find? (pattern : List Char) : List Char → Option Nat
  | [] => if pattern = [] then some 0 else none
  | c :: rest =>
    if pattern.isPrefixOf (c :: rest) then some 0 else (find? pattern rest).map (c.utf8Size + ·)

/-! ### Code -/

/-- The next byte behind blanks, with its index. -/
def behindBlanks (source : List Char) (i : Nat) : Except Stop (Option (Nat × UInt8)) :=
  let j := skip isBlankByte source i
  if j < (bytes source).length then (byteAt source j).map fun b => some (j, b) else .ok none

/-- Whether a word that starts here is a member name: a dot stands in front of it, and no spread. -/
def isMember (source : List Char) (start : Nat) : Except Stop Bool :=
  if 0 < start then do
    let b ← byteAt source (start - 1)
    if b = ascii '.' then
      if 3 ≤ start then
        let front ← bytesBetween source (start - 3) start
        .ok (front ≠ ['.', '.', '.'].map ascii)
      else .ok true
    else .ok false
  else .ok false

/-- The word `import`, behind which stands `next`. -/
def importWord (source : List Char) (read : Cursor) : Option (Nat × UInt8) → Except Stop Cursor
  | none => .ok read
  | some (i, b) =>
    if b = ascii '(' then do
      match ← behindBlanks source (i + 1) with
      | some (inner, q) =>
        if isQuoteByte q then .ok { read with pos := inner, phase := .target } else .ok read
      | none => .ok read
    else if isQuoteByte b then .ok { read with pos := i, phase := .target }
    else if b = ascii '\x7b' || b = ascii '*' || isWordStartByte b then
      .ok { read with awaitingFrom := true }
    else .ok read

/-- The word `export`. -/
def exportWord (read : Cursor) : Option (Nat × UInt8) → Cursor
  | some (_, b) =>
    if b = ascii '\x7b' || b = ascii '*' then { read with awaitingFrom := true } else read
  | none => read

/-- The word `from` inside a clause. -/
def fromWord (read : Cursor) : Option (Nat × UInt8) → Cursor
  | some (i, b) => if isQuoteByte b then { read with pos := i, phase := .target } else read
  | none => read

/-- An identifier or keyword. -/
def word (source : List Char) (s : Cursor) : Except Stop Cursor := do
  let pos := skip isWordPartByte source s.pos
  let letters ← slice source s.pos pos
  let text := String.ofList letters
  if ← isMember source s.pos then .ok { s with pos, prior := .operand }
  else
    let next ← behindBlanks source pos
    if text = "import" then importWord source { s with pos, prior := .operator } next
    else if text = "export" then .ok (exportWord { s with pos, prior := .operator } next)
    else if text = "from" && s.awaitingFrom then .ok (fromWord { s with pos, prior := .operand } next)
    else if headWords.contains text then
      .ok { s with
        pos
        prior := .operator
        statementHead := next.map Prod.snd = some (ascii '(') }
    else .ok { s with pos, prior := if regexWords.contains text then .operator else .operand }

/-- A slash in code. -/
def slash (source : List Char) (s : Cursor) : Cursor :=
  let next := (bytes source)[s.pos + 1]?
  if next = some (ascii '/') then { s with pos := s.pos + 2, phase := .lineComment }
  else if next = some (ascii '*') then
    { s with start := s.pos, pos := s.pos + 2, phase := .blockComment }
  else if s.prior ≠ .operand then { s with start := s.pos, pos := s.pos + 1, phase := .regex }
  else { s with pos := s.pos + 1, prior := .operator }

/-- A closing brace. -/
def closeBrace (s : Cursor) : Cursor :=
  let read := { s with pos := s.pos + 1 }
  match s.substitutions with
  | depth :: outer =>
    if depth = s.braces then { read with substitutions := outer, phase := .template }
    else { read with braces := s.braces - 1, prior := .operator }
  | [] => { read with braces := s.braces - 1, prior := .operator }

/-- One token of code. -/
def code (source : List Char) (s : Cursor) : Except Stop Cursor := do
  let b ← byteAt source s.pos
  let read := { s with pos := s.pos + 1, prior := .operator }
  if isQuoteByte b then .ok { s with start := s.pos, pos := s.pos + 1, phase := .quoted }
  else if b = ascii '\x60' then .ok { s with start := s.pos, pos := s.pos + 1, phase := .template }
  else if b = ascii '/' then .ok (slash source s)
  else if b = ascii '\x7b' then .ok { read with braces := s.braces + 1 }
  else if b = ascii '\x7d' then .ok (closeBrace s)
  else if b = ascii ';' then .ok { read with awaitingFrom := false }
  else if b = ascii '(' then
    .ok { read with parens := s.statementHead :: s.parens, statementHead := false }
  else if b = ascii ')' then
    .ok { read with
      prior := if s.parens.head? = some true then .operator else .operand
      parens := s.parens.tail }
  else if b = ascii ']' then .ok { read with prior := .operand }
  else if (b = ascii '+' || b = ascii '-') && (bytes source)[s.pos + 1]? = some b then
    .ok { s with pos := s.pos + 2, prior := if s.prior = .operand then .operand else .operator }
  else if isDigitByte b then
    .ok { s with
      pos := skip (fun d => isWordPartByte d || d = ascii '.') source s.pos
      prior := .operand }
  else if isWordStartByte b then word source s
  else if isBlankByte b then .ok { s with pos := s.pos + 1 }
  else .ok read

/-! ### Steps -/

/-- The index of the quote that closes the literal opened at `opened`. -/
def closing (source : List Char) (opened : Nat) : Except Stop Nat := do
  let quote ← byteAt source opened
  match closingQuote? quote source (opened + 1) with
  | some i => .ok i
  | none => .error (.unterminated ⟨.string, opened⟩)

/-- What a step comes to: the next state, or a question to the map and what becomes of each answer. -/
inductive Turned where
  | moved (next : Writer)
  | asks (raw : String) (answered : Option String → Except Stop Writer)

/-- The relinker goes on with `next` after the answer for the target between two quotes. -/
def settle (source : List Char) (w : Writer) (opened close : Nat) (raw : List Char) (next : Cursor) :
    Option String → Except Stop Writer
  | none => .ok { w with cursor := next }
  | some replacement =>
    if replacement.toList = raw then .ok { w with cursor := next }
    else do
      let quote ← byteAt source opened
      let front ← slice source w.copied (opened + 1)
      .ok
        { cursor := next
          out := w.out ++ front ++ quoteWithin (Char.ofNat quote.toNat) replacement.toList
          copied := close }

/-- An import target. -/
def target (source : List Char) (w : Writer) : Except Stop Turned := do
  let opened := w.cursor.pos
  let close ← closing source opened
  let raw ← slice source (opened + 1) close
  let next : Cursor :=
    { w.cursor with
      pos := close + 1
      start := opened
      phase := .code
      prior := .operand
      awaitingFrom := false }
  if raw.contains '\\' then .ok (.moved { w with cursor := next })
  else .ok (.asks (String.ofList raw) (settle source w opened close raw next))

/-- One step. -/
def step (source : List Char) (w : Writer) : Except Stop Turned :=
  let s := w.cursor
  let go (next : Cursor) : Except Stop Turned := .ok (.moved { w with cursor := next })
  match s.phase with
  | .code => (code source s).bind go
  | .quoted => (closing source s.start).bind fun close =>
    go { s with pos := close + 1, phase := .code, prior := .operand }
  | .template =>
    match chunkEnd? source s.pos with
    | some (i, .closed) => go { s with pos := i, phase := .code, prior := .operand }
    | some (i, .substitution) =>
      go { s with pos := i, phase := .code, prior := .start, substitutions := s.braces :: s.substitutions }
    | none => .error (.unterminated ⟨.template, s.start⟩)
  | .lineComment => go { s with pos := skip (· ≠ ascii '\n') source s.pos, phase := .code }
  | .blockComment => (slice source s.pos (bytes source).length).bind fun back =>
    match find? ['*', '/'] back with
    | some n => go { s with pos := s.pos + n + 2, phase := .code }
    | none => .error (.unterminated ⟨.blockComment, s.start⟩)
  | .regex =>
    match closingSlash? false source s.pos with
    | some i => go { s with pos := skip isWordPartByte source i, phase := .code, prior := .operand }
    | none => .error (.unterminated ⟨.regex, s.start⟩)
  | .target => target source w

/-- What is wrong with a source that ends here. -/
def pending (s : Cursor) : Option Unterminated :=
  match s.phase with
  | .quoted | .target => some ⟨.string, s.start⟩
  | .template => some ⟨.template, s.start⟩
  | .blockComment => some ⟨.blockComment, s.start⟩
  | .regex => some ⟨.regex, s.start⟩
  | .code | .lineComment => if s.substitutions = [] then none else some ⟨.template, s.start⟩

/-- The output when the source ends here. -/
def finish (source : List Char) (w : Writer) : Except Stop String :=
  match pending w.cursor with
  | some e => .error (.unterminated e)
  | none => (slice source w.copied (bytes source).length).map fun back => String.ofList (w.out ++ back)

/-- Relinks from `w` on, for at most as many steps as are given. -/
def runFor {m : Type → Type} [Monad m] (map : String → m (Option String)) (source : List Char) :
    Nat → Writer → m (Except Stop String)
  | 0, _ => pure (.error .cutOff)
  | fuel + 1, w =>
    if w.cursor.pos < (bytes source).length then
      match step source w with
      | .error e => pure (.error e)
      | .ok (.moved next) => runFor map source fuel next
      | .ok (.asks raw answered) => do
        let answer ← map raw
        match answered answer with
        | .error e => pure (.error e)
        | .ok next => runFor map source fuel next
    else pure (finish source w)

end ModuleGateway.Relink.Bytewise
