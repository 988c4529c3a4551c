import ModuleGateway.Text.Digits
import ModuleGateway.Toml.Moment

/-!
Settings documents: the part of TOML that settings can hold. That is a table of texts,
integers, truth values, arrays of texts, and tables of texts one level deep, which may be written
with a header, with dotted keys, or in line. A document that holds anything else is refused, whether
it is no TOML or only no settings. A date is read because it passes for a table of texts.

A reader gives what it has read and the text behind it.
-/

namespace ModuleGateway.Toml

open Text (hexNumber? hexValue? numberIn)

/-- How a table came to be, which decides whether keys can be added later. -/
inductive Origin where
  | header
  | dotted
  | inline
  deriving DecidableEq, Repr

/-- A value of a settings document. -/
inductive Value where
  | text (value : String)
  | integer (value : Int)
  | boolean (value : Bool)
  | array (items : List String)
  | table (origin : Origin) (entries : List (String × String))
  deriving DecidableEq, Repr

/-- The keys of a document with their values, in the order of their first mention. -/
abbrev Document := List (String × Value)

/-! ### Texts -/

/-- A character that may stand for itself in a one-line text or a comment. -/
def isPlain (c : Char) : Bool :=
  c = '\t' || (0x20 ≤ c.toNat && c.toNat ≠ 0x7f)

/-- The character with a code point, which must not be a surrogate. -/
def scalar? (digits : List Char) : Option Char := do
  let n ← hexNumber? digits
  if n.isValidChar then some (Char.ofNat n) else none

/-- What a letter behind a backslash stands for. -/
def escape? (c : Char) : Option Char :=
  match c with
  | 'b' => some '\x08'
  | 't' => some '\t'
  | 'n' => some '\n'
  | 'f' => some '\x0c'
  | 'r' => some '\r'
  | '"' => some '"'
  | '\\' => some '\\'
  | _ => none

/-- Puts a character in front of what is read next. -/
def push (c : Char) (read : Option (List Char × List Char)) :
    Option (List Char × List Char) :=
  read.map fun (text, rest) => (c :: text, rest)

/-- A one-line text with escapes, behind its quote. -/
def basicBody : List Char → Option (List Char × List Char)
  | [] => none
  | '"' :: rest => some ([], rest)
  | '\\' :: 'u' :: a :: b :: c :: d :: rest =>
    match scalar? [a, b, c, d] with
    | some x => push x (basicBody rest)
    | none => none
  | '\\' :: 'U' :: a :: b :: c :: d :: e :: f :: g :: h :: rest =>
    match scalar? [a, b, c, d, e, f, g, h] with
    | some x => push x (basicBody rest)
    | none => none
  | '\\' :: c :: rest =>
    match escape? c with
    | some x => push x (basicBody rest)
    | none => none
  | c :: rest => if isPlain c && c ≠ '\\' then push c (basicBody rest) else none

/-- A one-line text without escapes, behind its quote. -/
def literalBody : List Char → Option (List Char × List Char)
  | [] => none
  | '\'' :: rest => some ([], rest)
  | c :: rest => if isPlain c then push c (literalBody rest) else none

def isBlank (c : Char) : Bool :=
  c = ' ' || c = '\t'

/-- Whether a backslash with this behind it joins two lines. -/
def joinsLines (text : List Char) : Bool :=
  match text.dropWhile isBlank with
  | '\n' :: _ => true
  | '\r' :: '\n' :: _ => true
  | _ => false

/-- The end of a text over several lines, where three quotes stand: up to two more quotes before
them belong to the text. -/
def longEnd? (quote : Char) (text : List Char) : Option (List Char × List Char) :=
  let run := (text.takeWhile (· = quote)).length
  if run < 3 then none
  else
    let inside := min (run - 3) 2
    some (List.replicate inside quote, text.drop (inside + 3))

/-- A text over several lines with escapes, behind its three quotes. A backslash at the end of a
line takes away the blanks and line ends behind it, among which `joining` is on. -/
def longBasicBody (joining : Bool) : List Char → Option (List Char × List Char)
  | [] => none
  | '\\' :: 'u' :: a :: b :: c :: d :: rest =>
    match scalar? [a, b, c, d] with
    | some x => push x (longBasicBody false rest)
    | none => none
  | '\\' :: 'U' :: a :: b :: c :: d :: e :: f :: g :: h :: rest =>
    match scalar? [a, b, c, d, e, f, g, h] with
    | some x => push x (longBasicBody false rest)
    | none => none
  | '\\' :: c :: rest =>
    if joinsLines (c :: rest) then longBasicBody true rest
    else
      match escape? c with
      | some x => push x (longBasicBody false rest)
      | none => none
  | '\r' :: '\n' :: rest =>
    if joining then longBasicBody true rest else push '\n' (longBasicBody false rest)
  | c :: rest =>
    match longEnd? '"' (c :: rest) with
    | some found => some found
    | none =>
      if joining && (isBlank c || c = '\n') then longBasicBody true rest
      else if c = '\n' || (isPlain c && c ≠ '\\') then push c (longBasicBody false rest)
      else none

/-- A text over several lines without escapes, behind its three quotes. -/
def longLiteralBody : List Char → Option (List Char × List Char)
  | [] => none
  | '\r' :: '\n' :: rest => push '\n' (longLiteralBody rest)
  | c :: rest =>
    match longEnd? '\'' (c :: rest) with
    | some found => some found
    | none => if c = '\n' || isPlain c then push c (longLiteralBody rest) else none

/-- Without a line end in front. -/
def dropLineEnd : List Char → List Char
  | '\n' :: rest => rest
  | '\r' :: '\n' :: rest => rest
  | text => text

/-- A quoted text in any of the four forms. -/
def quotedText : List Char → Option (List Char × List Char)
  | '"' :: '"' :: '"' :: rest => longBasicBody false (dropLineEnd rest)
  | '\'' :: '\'' :: '\'' :: rest => longLiteralBody (dropLineEnd rest)
  | '"' :: rest => basicBody rest
  | '\'' :: rest => literalBody rest
  | _ => none

/-! ### Keys and numbers -/

def isBareKey (c : Char) : Bool :=
  c.isAlphanum || c = '_' || c = '-'

/-- One part of a key. -/
def keyPart (text : List Char) : Option (String × List Char) :=
  match text with
  | '"' :: rest => (basicBody rest).map fun (key, rest) => (String.ofList key, rest)
  | '\'' :: rest => (literalBody rest).map fun (key, rest) => (String.ofList key, rest)
  | _ =>
    let key := text.takeWhile isBareKey
    if key = [] then none else some (String.ofList key, text.dropWhile isBareKey)

def dropBlanks (text : List Char) : List Char :=
  text.dropWhile isBlank

/-- A key of one part, or of two with a dot between them. A longer key names nothing that settings
can hold. -/
def key (text : List Char) : Option ((String × Option String) × List Char) := do
  let (first, rest) ← keyPart text
  match dropBlanks rest with
  | '.' :: rest =>
    let (second, rest) ← keyPart (dropBlanks rest)
    some ((first, some second), dropBlanks rest)
  | rest => some ((first, none), rest)

/-- The digits that go on after a digit, with single underscores between them. -/
def moreDigits (isDigit : Char → Bool) : List Char → List Char × List Char
  | [] => ([], [])
  | '_' :: d :: rest =>
    if isDigit d then
      let (digits, after) := moreDigits isDigit rest
      (d :: digits, after)
    else ([], '_' :: d :: rest)
  | c :: rest =>
    if isDigit c then
      let (digits, after) := moreDigits isDigit rest
      (c :: digits, after)
    else ([], c :: rest)

/-- Digits with single underscores between them, and the text behind them. -/
def digitRun (isDigit : Char → Bool) : List Char → List Char × List Char
  | [] => ([], [])
  | c :: rest =>
    if isDigit c then
      let (digits, after) := moreDigits isDigit rest
      (c :: digits, after)
    else ([], c :: rest)

/-- The largest integer. -/
def integerLimit : Nat := Nat.pow 2 63 - 1

/-- A number in another base, behind what names the base. -/
def basedInteger (base : Nat) (isDigit : Char → Bool) (text : List Char) : Option (Int × List Char) :=
  match digitRun isDigit text with
  | ([], _) => none
  | (digits, rest) =>
    let n := numberIn base digits
    if n ≤ integerLimit then some (n, rest) else none

/-- A decimal number without its sign. A zero in front stands alone. -/
def decimal (negative : Bool) (text : List Char) : Option (Int × List Char) :=
  match digitRun Char.isDigit text with
  | ([], _) => none
  | (digits, rest) =>
    let n := numberIn 10 digits
    if digits.head? = some '0' && digits.length ≠ 1 then none
    else if negative then (if n ≤ integerLimit + 1 then some (-(n : Int), rest) else none)
    else if n ≤ integerLimit then some (n, rest)
    else none

def integer : List Char → Option (Int × List Char)
  | '0' :: 'x' :: rest => basedInteger 16 (fun c => (hexValue? c).isSome) rest
  | '0' :: 'o' :: rest => basedInteger 8 (fun c => '0' ≤ c && c ≤ '7') rest
  | '0' :: 'b' :: rest => basedInteger 2 (fun c => c = '0' || c = '1') rest
  | '+' :: rest => decimal false rest
  | '-' :: rest => decimal true rest
  | text => decimal false text

/-! ### Values -/

/-- The text behind a comment and the line end after it; `none` when the line holds anything
else. The end of the document ends a line too. -/
def lineEnd (text : List Char) : Option (List Char) :=
  let rest :=
    match text with
    | '#' :: comment => comment.dropWhile isPlain
    | _ => text
  match rest with
  | [] => some []
  | '\n' :: rest => some rest
  | '\r' :: '\n' :: rest => some rest
  | _ => none

/-- Without the blanks, comments and line ends in front, of which there are at most `fuel`. -/
def dropGaps : Nat → List Char → Option (List Char)
  | 0, text => some text
  | fuel + 1, text =>
    match dropBlanks text with
    | '#' :: comment =>
      match lineEnd ('#' :: comment) with
      | some rest => dropGaps fuel rest
      | none => none
    | '\n' :: rest => dropGaps fuel rest
    | '\r' :: '\n' :: rest => dropGaps fuel rest
    | rest => some rest

/-- The items of an array of texts, behind its bracket. -/
def items : Nat → List Char → Option (List String × List Char)
  | 0, _ => none
  | fuel + 1, text => do
    match ← dropGaps text.length text with
    | ']' :: rest => some ([], rest)
    | start =>
      let (item, rest) ← quotedText start
      match ← dropGaps rest.length rest with
      | ',' :: rest =>
        let (others, rest) ← items fuel rest
        some (String.ofList item :: others, rest)
      | ']' :: rest => some ([String.ofList item], rest)
      | _ => none

/-- Adds an entry whose key must be new. -/
def addEntry {α : Type} (entries : List (String × α)) (key : String) (value : α) :
    Option (List (String × α)) :=
  if entries.any fun (k, _) => k = key then none else some (entries ++ [(key, value)])

/-- The entries of a table in line, behind its brace or a comma. -/
def inlineEntries (entries : List (String × String)) : Nat → List Char →
    Option (List (String × String) × List Char)
  | 0, _ => none
  | fuel + 1, text => do
    let ((name, sub), rest) ← key (dropBlanks text)
    if sub.isSome then none
    else
      match rest with
      | '=' :: rest =>
        let (value, rest) ← quotedText (dropBlanks rest)
        let entries ← addEntry entries name (String.ofList value)
        match dropBlanks rest with
        | ',' :: rest => inlineEntries entries fuel rest
        | '\x7d' :: rest => some (entries, rest)
        | _ => none
      | _ => none

/-- A table in line, behind its brace. -/
def inlineTable (text : List Char) : Option (List (String × String) × List Char) :=
  match dropBlanks text with
  | '\x7d' :: rest => some ([], rest)
  | rest => inlineEntries [] rest.length rest

/-- The key under which the text of a date stands when it passes for a table. -/
def momentKey : String := "$__toml_private_datetime"

def value (text : List Char) : Option (Value × List Char) :=
  match text with
  | 't' :: 'r' :: 'u' :: 'e' :: rest => some (.boolean true, rest)
  | 'f' :: 'a' :: 'l' :: 's' :: 'e' :: rest => some (.boolean false, rest)
  | '[' :: rest => (items (rest.length + 1) rest).map fun (xs, rest) => (.array xs, rest)
  | '\x7b' :: rest => (inlineTable rest).map fun (es, rest) => (.table .inline es, rest)
  | _ =>
    match quotedText text with
    | some (t, rest) => some (.text (String.ofList t), rest)
    | none =>
      match moment text with
      | some (t, rest) => some (.table .inline [(momentKey, String.ofList t)], rest)
      | none => (integer text).map fun (n, rest) => (.integer n, rest)

/-! ### Documents -/

/-- Gives a key of one part a value, in the document or in the table whose header came last. -/
def assign (doc : Document) (section? : Option String) (name : String) (value : Value) :
    Option Document :=
  match section? with
  | none => addEntry doc name value
  | some table =>
    match value, doc.lookup table with
    | .text t, some (.table .header entries) => do
      let entries ← addEntry entries name t
      some (doc.map fun (k, v) => if k = table then (k, .table .header entries) else (k, v))
    | _, _ => none

/-- Gives a key of two parts a value. Only a table that such keys made can be added to. -/
def assignDotted (doc : Document) (section? : Option String) (table name : String)
    (value : Value) : Option Document :=
  match section?, value with
  | none, .text t =>
    match doc.lookup table with
    | none => some (doc ++ [(table, .table .dotted [(name, t)])])
    | some (.table .dotted entries) => do
      let entries ← addEntry entries name t
      some (doc.map fun (k, v) => if k = table then (k, .table .dotted entries) else (k, v))
    | some _ => none
  | _, _ => none

/-- The lines of a document, of which there are fewer than `fuel`. -/
def lines (doc : Document) (section? : Option String) : Nat → List Char → Option Document
  | 0, _ => none
  | fuel + 1, text =>
    match dropBlanks text with
    | [] => some doc
    | '[' :: rest => do
      let ((name, sub), rest) ← key (dropBlanks rest)
      match sub, dropBlanks rest with
      | none, ']' :: rest =>
        let doc ← addEntry doc name (.table .header [])
        let rest ← lineEnd (dropBlanks rest)
        lines doc (some name) fuel rest
      | _, _ => none
    | start =>
      match lineEnd start with
      | some rest => lines doc section? fuel rest
      | none => do
        let ((name, sub), rest) ← key start
        match dropBlanks rest with
        | '=' :: rest =>
          let (v, rest) ← value (dropBlanks rest)
          let rest ← lineEnd (dropBlanks rest)
          let doc ← match sub with
            | none => assign doc section? name v
            | some entry => assignDotted doc section? name entry v
          lines doc section? fuel rest
        | _ => none

/-- Reads a document. A byte order mark in front is passed over. -/
def read? (text : String) : Option Document :=
  let chars :=
    match text.toList with
    | '\ufeff' :: rest => rest
    | chars => chars
  lines [] none (chars.length + 2) chars

end ModuleGateway.Toml
