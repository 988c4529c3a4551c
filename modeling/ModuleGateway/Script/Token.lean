import ModuleGateway.Text.Blank
import ModuleGateway.Text.Digits
import ModuleGateway.Text.Hex
import ModuleGateway.Text.Name

/-!
The tokens of scripts. What a slash or a backtick starts depends on where it stands, so these are
tokens of one character here, and literals are read from them where one is expected. The sign `>` is
a token of its own for the same reason: two of them may close two lists of types.

A reader gives what it has read and the text behind it.
-/

namespace ModuleGateway.Script

open Text

/-- A token of a script. -/
inductive Token where
  /-- A name or a keyword; `escaped` when it is written with an escape. -/
  | word (name : String) (escaped : Bool)
  /-- A name behind a number sign. -/
  | privateName (name : String)
  | number (written : String)
  | text (value : String)
  | mark (symbol : String)
  | finish
  /-- What is no token. -/
  | invalid
  deriving DecidableEq, Repr

/-- Line feed, carriage return, line separator and paragraph separator. -/
def isLineEnd (c : Char) : Bool :=
  c = '\n' || c = '\r' || c = '\u2028' || c = '\u2029'

/-- A blank that does not end a line. The byte order mark is one, the next line character is
not. -/
def isGap (c : Char) : Bool :=
  c = '\ufeff' || (isSpace c && !isLineEnd c && c ≠ '\u0085')

/-- What stands between two tokens. -/
inductive Gap where
  | blank
  | line
  | block

/-- The text behind blanks and comments, and whether a line ends in them or had ended before. A block
comment has to be closed. -/
def skipGap : Gap → Bool → List Char → Option (Bool × List Char)
  | .block, _, [] => none
  | _, ended, [] => some (ended, [])
  | .blank, ended, '/' :: '/' :: rest => skipGap .line ended rest
  | .blank, ended, '/' :: '*' :: rest => skipGap .block ended rest
  | .blank, ended, c :: rest =>
    if isLineEnd c then skipGap .blank true rest
    else if isGap c then skipGap .blank ended rest
    else some (ended, c :: rest)
  | .line, ended, c :: rest =>
    if isLineEnd c then skipGap .blank true rest else skipGap .line ended rest
  | .block, ended, '*' :: '/' :: rest => skipGap .blank ended rest
  | .block, ended, c :: rest => skipGap .block (ended || isLineEnd c) rest

/-! ### Escapes -/

/-- The code unit or code point of an escape, behind its `u`. -/
def unitEscape? (text : List Char) : Option (Nat × List Char) :=
  match text with
  | '\x7b' :: rest => do
    let digits := rest.takeWhile (· ≠ '\x7d')
    let n ← hexNumber? digits
    if digits ≠ [] && n ≤ 0x10ffff && (rest.drop digits.length).head? = some '\x7d' then
      some (n, rest.drop (digits.length + 1))
    else none
  | a :: b :: c :: d :: rest => (hexNumber? [a, b, c, d]).map fun n => (n, rest)
  | _ => none

def isHigh (n : Nat) : Bool := 0xd800 ≤ n && n ≤ 0xdbff

def isLow (n : Nat) : Bool := 0xdc00 ≤ n && n ≤ 0xdfff

/-- The characters of an escape behind its `u`. Two surrogates are one character; a surrogate alone
is shown by its digits behind a replacement character. -/
def unicodeEscape? (text : List Char) : Option (List Char × List Char) := do
  let (n, rest) ← unitEscape? text
  if isHigh n then
    match rest with
    | '\\' :: 'u' :: more =>
      match unitEscape? more with
      | some (low, rest) =>
        if isLow low then
          return ([Char.ofNat (0x10000 + (n - 0xd800) * 0x400 + (low - 0xdc00))], rest)
      | none => pure ()
    | _ => pure ()
  if isHigh n || isLow n then some ('\ufffd' :: hex4 n, rest)
  else some ([Char.ofNat n], rest)

/-- An octal digit's value. -/
def octal? (c : Char) : Option Nat :=
  if '0' ≤ c && c ≤ '7' then some (c.toNat - '0'.toNat) else none

/-- What an escape in a text stands for, behind the backslash. -/
def escape? (text : List Char) : Option (List Char × List Char) :=
  match text with
  | [] => none
  | '\r' :: '\n' :: rest => some ([], rest)
  | 'u' :: rest => unicodeEscape? rest
  | 'x' :: a :: b :: rest => (hexNumber? [a, b]).map fun n => ([Char.ofNat n], rest)
  | 'x' :: _ => none
  | 'n' :: rest => some (['\n'], rest)
  | 't' :: rest => some (['\t'], rest)
  | 'r' :: rest => some (['\r'], rest)
  | 'b' :: rest => some (['\x08'], rest)
  | 'v' :: rest => some (['\x0b'], rest)
  | 'f' :: rest => some (['\x0c'], rest)
  | c :: rest =>
    if isLineEnd c then some ([], rest)
    else
      match octal? c with
      | none => some ([c], rest)
      | some n =>
        let room := if n ≤ 3 then 2 else 1
        let more := (rest.take room).takeWhile fun d => (octal? d).isSome
        let value := more.foldl (fun n d => n * 8 + (octal? d).getD 0) n
        some ([Char.ofNat value], rest.drop more.length)

/-! ### Words, numbers and texts -/

/-- The rest of a name. Every turn reads a character, so `fuel` is the length of the text. -/
def nameFor : Nat → List Char → Option (List Char × Bool × List Char)
  | 0, text => some ([], false, text)
  | fuel + 1, text =>
    match text with
    | '\\' :: 'u' :: rest =>
      match unitEscape? rest with
      | none => none
      | some (n, rest) =>
        if n.isValidChar && isNamePart (Char.ofNat n) then
          (nameFor fuel rest).map fun (name, _, rest) => (Char.ofNat n :: name, true, rest)
        else none
    | '\\' :: _ => none
    | c :: rest =>
      if isNamePart c then
        (nameFor fuel rest).map fun (name, escaped, rest) => (c :: name, escaped, rest)
      else some ([], false, text)
    | [] => some ([], false, [])

/-- A name, and whether it is written with an escape. -/
def name? (text : List Char) : Option (String × Bool × List Char) :=
  match nameFor text.length text with
  | some (c :: name, escaped, rest) =>
    if isNameStart c then some (String.ofList (c :: name), escaped, rest) else none
  | _ => none

/-- A run of digits, which a low line may part but not start or end. -/
def digitRun (isDigit : Char → Bool) (text : List Char) : Option (List Char) :=
  let run := text.takeWhile fun c => isDigit c || c = '_'
  let doubled := (run.zip run.tail).any fun (a, b) => a = '_' && b = '_'
  if run = [] || run.head? = some '_' || run.getLast? = some '_' || doubled then none else some run

/-- The exponent of a number; nothing when there is none. -/
def exponentRun (text : List Char) : Option (List Char) :=
  match text with
  | e :: rest =>
    if e = 'e' || e = 'E' then
      match rest with
      | '+' :: rest => (digitRun Char.isDigit rest).map fun run => e :: '+' :: run
      | '-' :: rest => (digitRun Char.isDigit rest).map fun run => e :: '-' :: run
      | _ => (digitRun Char.isDigit rest).map fun run => e :: run
    else some []
  | [] => some []

/-- A number in base ten. A point may stand at its end, and at its start in front of a digit. -/
def decimalRun (text : List Char) : Option (List Char) := do
  let whole ← match text with
    | '.' :: _ => some []
    | _ => digitRun Char.isDigit text
  let rest := text.drop whole.length
  let fraction ← match rest with
    | '.' :: more =>
      if more.head?.any Char.isDigit then (digitRun Char.isDigit more).map fun run => '.' :: run
      else if whole = [] then none
      else some ['.']
    | _ => some []
  let tail := rest.drop fraction.length
  if fraction = [] && tail.head? = some 'n' then some (whole ++ ['n'])
  else
    let exponent ← exponentRun tail
    some (whole ++ fraction ++ exponent)

def isHexDigit (c : Char) : Bool := (hexValue? c).isSome

/-- A number in base two, eight or sixteen behind the two characters that say so. -/
def basedRun (isDigit : Char → Bool) (start text : List Char) : Option (List Char) :=
  (digitRun isDigit text).map fun run =>
    start ++ run ++ (if (text.drop run.length).head? = some 'n' then ['n'] else [])

/-- A number. No name may follow it directly. -/
def number? (text : List Char) : Option (String × List Char) := do
  let run ← match text with
    | '0' :: c :: rest =>
      if c = 'x' || c = 'X' then basedRun isHexDigit ['0', c] rest
      else if c = 'o' || c = 'O' then basedRun (fun d => (octal? d).isSome) ['0', c] rest
      else if c = 'b' || c = 'B' then basedRun (fun d => d = '0' || d = '1') ['0', c] rest
      else decimalRun text
    | _ => decimalRun text
  let rest := text.drop run.length
  if rest.head?.any fun c => isNamePart c || c = '\\' then none
  else some (String.ofList run, rest)

/-- A text behind its opening quote. Every turn reads a character, so `fuel` is the length of the
text. -/
def textFor : Nat → Char → List Char → Option (List Char × List Char)
  | 0, _, _ => none
  | fuel + 1, quote, text =>
    match text with
    | [] => none
    | '\\' :: rest =>
      match escape? rest with
      | none => none
      | some (chars, rest) =>
        (textFor fuel quote rest).map fun (value, rest) => (chars ++ value, rest)
    | c :: rest =>
      if c = quote then some ([], rest)
      else if c = '\n' || c = '\r' then none
      else (textFor fuel quote rest).map fun (value, rest) => (c :: value, rest)

/-! ### Tokens -/

/-- The marks, each in front of those it starts with. -/
def marks : List String :=
  ["\x7b", "\x7d", "(", ")", "[", "]", ";", ",", "~", ":", "@", "\x60", "...", ".", "??=",
    "??", "?.", "?", "=>", "===", "==", "=", "!==", "!=", "!", "<<=", "<<", "<=", "<", ">", "+=",
    "++", "+", "-=", "--", "-", "**=", "**", "*=", "*", "/=", "/", "%=", "%", "&&=", "&&", "&=",
    "&", "||=", "||", "|=", "|", "^=", "^"]

/-- The marks that start with the sign `>`. -/
def closingMarks : List String :=
  [">>>=", ">>>", ">>=", ">>", ">=", ">"]

/-- The first of some marks that a text starts with. A question mark and a point in front of a digit
are two marks. -/
def mark? (marks : List String) (text : List Char) : Option (String × List Char) :=
  marks.findSome? fun symbol => do
    let rest ← symbol.toList.isPrefixOf? text
    if symbol = "?." && rest.head?.any Char.isDigit then none else some (symbol, rest)

/-- The token a text without leading blanks starts with. -/
def token (text : List Char) : Token × List Char :=
  match text with
  | [] => (.finish, [])
  | c :: rest =>
    if c = '"' || c = '\'' then
      match textFor (rest.length + 1) c rest with
      | some (value, rest) => (.text (String.ofList value), rest)
      | none => (.invalid, [])
    else if c = '#' then
      match name? rest with
      | some (name, _, rest) => (.privateName name, rest)
      | none => (.invalid, [])
    else if c.isDigit || (c = '.' && rest.head?.any Char.isDigit) then
      match number? text with
      | some (written, rest) => (.number written, rest)
      | none => (.invalid, [])
    else if c = '\\' || isNameStart c then
      match name? text with
      | some (name, escaped, rest) => (.word name escaped, rest)
      | none => (.invalid, [])
    else
      match mark? marks text with
      | some (symbol, rest) => (.mark symbol, rest)
      | none => (.invalid, [])

/-! ### Literals that start with a mark -/

/-- The text behind a regular expression's body, which starts behind its opening slash. -/
def regexEnd? (inClass : Bool) : List Char → Option (List Char)
  | [] => none
  | '\\' :: c :: rest => if isLineEnd c then none else regexEnd? inClass rest
  | ['\\'] => none
  | c :: rest =>
    if isLineEnd c then none
    else if c = '/' && !inClass then some rest
    else regexEnd? (if c = '[' then true else if c = ']' then false else inClass) rest

/-- Whether letters are flags of a regular expression, each at most once. -/
def areFlags (letters : List Char) : Bool :=
  letters.all ("dgimsuvy".toList.contains ·) && letters.Nodup &&
    !(letters.contains 'u' && letters.contains 'v')

/-- A regular expression behind its opening slash, as it is written, and the text behind it. -/
def regex? (text : List Char) : Option (String × List Char) := do
  let behind ← regexEnd? false text
  let flags := behind.takeWhile isNamePart
  let rest := behind.drop flags.length
  if areFlags flags then
    some (String.ofList ('/' :: text.take (text.length - rest.length)), rest)
  else none

/-- A stretch of template text as it is written, the text behind it, and whether a substitution
follows. With `strict`, every escape has to be one. -/
def chunkFor (strict : Bool) : Nat → List Char → Option (List Char × List Char × Bool)
  | 0, _ => none
  | fuel + 1, text =>
    match text with
    | [] => none
    | '\x60' :: rest => some ([], rest, false)
    | '$' :: '\x7b' :: rest => some ([], rest, true)
    | '\\' :: c :: rest =>
      let octal := c.isDigit && (c ≠ '0' || rest.head?.any Char.isDigit)
      if strict && (octal || (escape? (c :: rest)).isNone) then none
      else
        (chunkFor strict fuel rest).map fun (chunk, more) => ('\\' :: c :: chunk, more)
    | c :: rest => (chunkFor strict fuel rest).map fun (chunk, more) => (c :: chunk, more)

end ModuleGateway.Script
