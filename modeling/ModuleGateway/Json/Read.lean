import ModuleGateway.Json.Value
import ModuleGateway.Text.Digits

/-!
Reading JSON. A text is one value with blanks around it. Arrays and objects nest at most 127 deep,
a number has to be within the range of double precision, an escaped surrogate has to be one of a
pair, and of two fields with one name the later counts.

A reader gives what it has read and the text behind it.
-/

namespace ModuleGateway.Json

abbrev Reader (α : Type) := List Char → Option (α × List Char)

def isBlank (c : Char) : Bool :=
  c = ' ' || c = '\n' || c = '\t' || c = '\r'

def skipBlanks (text : List Char) : List Char :=
  text.dropWhile isBlank

/-! ### Texts -/

/-- The number that four digits in base sixteen write. -/
def hexUnit? (a b c d : Char) : Option Nat :=
  Text.hexNumber? [a, b, c, d]

def isHighSurrogate (unit : Nat) : Bool :=
  0xd800 ≤ unit && unit ≤ 0xdbff

def isLowSurrogate (unit : Nat) : Bool :=
  0xdc00 ≤ unit && unit ≤ 0xdfff

/-- The character that a pair of surrogates stands for. -/
def ofPair (high low : Nat) : Char :=
  Char.ofNat (0x10000 + (high - 0xd800) * 0x400 + (low - 0xdc00))

/-- What a letter behind a backslash stands for. -/
def unescape? (c : Char) : Option Char :=
  match c with
  | '"' => some '"'
  | '\\' => some '\\'
  | '/' => some '/'
  | 'b' => some '\x08'
  | 'f' => some '\x0c'
  | 'n' => some '\n'
  | 'r' => some '\r'
  | 't' => some '\t'
  | _ => none

/-- Puts a character in front of what is read next. -/
def push (c : Char) (read : Option (List Char × List Char)) : Option (List Char × List Char) :=
  read.map fun (text, rest) => (c :: text, rest)

/-- A text behind its opening quote. -/
def textBody : Reader (List Char)
  | [] => none
  | '"' :: rest => some ([], rest)
  | '\\' :: 'u' :: a :: b :: c :: d :: '\\' :: 'u' :: e :: f :: g :: h :: rest =>
    match hexUnit? a b c d, hexUnit? e f g h with
    | some unit, some next =>
      if isHighSurrogate unit then
        if isLowSurrogate next then push (ofPair unit next) (textBody rest) else none
      else if isLowSurrogate unit then none
      else push (Char.ofNat unit) (textBody ('\\' :: 'u' :: e :: f :: g :: h :: rest))
    | _, _ => none
  | '\\' :: 'u' :: a :: b :: c :: d :: rest =>
    match hexUnit? a b c d with
    | some unit =>
      if isHighSurrogate unit || isLowSurrogate unit then none
      else push (Char.ofNat unit) (textBody rest)
    | none => none
  | '\\' :: c :: rest =>
    match unescape? c with
    | some x => push x (textBody rest)
    | none => none
  | c :: rest => if c.toNat < 0x20 || c = '\\' then none else push c (textBody rest)

/-! ### Numbers -/

/-- The digits a text starts with, at least one. -/
def someDigits : Reader (List Char) := fun text =>
  let run := text.takeWhile Char.isDigit
  if run = [] then none else some (run, text.dropWhile Char.isDigit)

/-- The whole part of a number, which has no zero in front of other digits. -/
def wholePart : Reader (List Char) := fun text =>
  match someDigits text with
  | some ('0' :: _ :: _, _) => none
  | read => read

/-- The digits behind a point; none when there is no point. -/
def fractionPart : Reader (List Char)
  | '.' :: rest => someDigits rest
  | text => some ([], text)

/-- The exponent of a number; zero when there is none. -/
def exponentPart : Reader Int
  | e :: rest =>
    if e = 'e' || e = 'E' then
      match rest with
      | '-' :: rest => (someDigits rest).map fun (ds, rest) => (-(Text.numberIn 10 ds : Int), rest)
      | '+' :: rest => (someDigits rest).map fun (ds, rest) => ((Text.numberIn 10 ds : Int), rest)
      | _ => (someDigits rest).map fun (ds, rest) => ((Text.numberIn 10 ds : Int), rest)
    else some (0, e :: rest)
  | [] => some (0, [])

/-- The least number that rounds beyond the range of double precision. -/
def rangeEnd : Nat := Nat.pow 2 1024 - Nat.pow 2 970

/-- Whether a number in scientific notation is within the range of double precision. It has at most
309 digits in front of the point. -/
def inRange (whole fraction : List Char) (exponent : Int) : Bool :=
  let digits := whole ++ fraction
  let significant := digits.dropWhile (· = '0')
  let scale := exponent - fraction.length
  if significant = [] then true
  else if 310 < significant.length + scale then false
  else if 0 ≤ scale then Text.numberIn 10 significant * Nat.pow 10 scale.toNat < rangeEnd
  else if significant.length + scale < 300 then true
  else Text.numberIn 10 significant < rangeEnd * Nat.pow 10 (-scale).toNat

/-- A number, with the sign it was written with. -/
def number : Reader Value := fun text => do
  let unsigned := match text with
    | '-' :: rest => rest
    | _ => text
  let (whole, rest) ← wholePart unsigned
  let (fraction, rest) ← fractionPart rest
  let (exponent, rest) ← exponentPart rest
  if inRange whole fraction exponent then
    some (.number (String.ofList (text.take (text.length - rest.length))), rest)
  else none

/-! ### Values -/

/-- The items of an array behind its bracket, or behind a comma when `more` holds. Every item has at
least one character, so `fuel` is the length of the text. -/
def items (element : Reader Value) : Nat → Bool → Reader (List Value)
  | 0, _, _ => none
  | fuel + 1, more, text =>
    match skipBlanks text with
    | ']' :: rest => if more then none else some ([], rest)
    | start =>
      match element start with
      | none => none
      | some (item, rest) =>
        match skipBlanks rest with
        | ']' :: rest => some ([item], rest)
        | ',' :: rest => (items element fuel true rest).map fun (later, rest) => (item :: later, rest)
        | _ => none

/-- The fields of an object behind its brace, or behind a comma when `more` holds. Every field has at
least one character, so `fuel` is the length of the text. -/
def fields (element : Reader Value) : Nat → Bool → Reader (List (String × Value))
  | 0, _, _ => none
  | fuel + 1, more, text =>
    match skipBlanks text with
    | '\x7d' :: rest => if more then none else some ([], rest)
    | '"' :: rest =>
      match textBody rest with
      | none => none
      | some (key, rest) =>
        match skipBlanks rest with
        | ':' :: rest =>
          match element (skipBlanks rest) with
          | none => none
          | some (value, rest) =>
            let field := (String.ofList key, value)
            match skipBlanks rest with
            | '\x7d' :: rest => some ([field], rest)
            | ',' :: rest =>
              (fields element fuel true rest).map fun (later, rest) => (field :: later, rest)
            | _ => none
        | _ => none
    | _ => none

/-- An object with the fields in order of their names. -/
def Value.ofFields (fields : List (String × Value)) : Value :=
  .object (fields.foldl (fun done (key, value) => insertField key value done) [])

/-- A value that holds arrays and objects at most `depth` deep. The text starts with the value. -/
def value (depth : Nat) : Reader Value := fun text =>
  match depth, text with
  | _, 'n' :: 'u' :: 'l' :: 'l' :: rest => some (.null, rest)
  | _, 't' :: 'r' :: 'u' :: 'e' :: rest => some (.boolean true, rest)
  | _, 'f' :: 'a' :: 'l' :: 's' :: 'e' :: rest => some (.boolean false, rest)
  | _, '"' :: rest => (textBody rest).map fun (body, rest) => (.text (String.ofList body), rest)
  | 0, '[' :: _ => none
  | 0, '\x7b' :: _ => none
  | depth + 1, '[' :: rest =>
    (items (value depth) (rest.length + 1) false rest).map fun (read, rest) => (.array read, rest)
  | depth + 1, '\x7b' :: rest =>
    (fields (value depth) (rest.length + 1) false rest).map fun (read, rest) =>
      (.ofFields read, rest)
  | _, _ => number text

/-- How deep arrays and objects nest. -/
def depthLimit : Nat := 127

/-- The value that a text holds. -/
def read? (text : String) : Option Value :=
  match value depthLimit (skipBlanks text.toList) with
  | some (v, rest) => if skipBlanks rest = [] then some v else none
  | none => none

end ModuleGateway.Json
