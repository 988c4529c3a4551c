/-!
Dates and times in documents: a date, a time of day, or both with a `T` or a space between, and
then perhaps an offset. A moment is read into the one form it is written in.
-/

namespace ModuleGateway.Toml

/-- `count` digits as a number. -/
def digits : Nat → List Char → Option (Nat × List Char)
  | count, text =>
    let run := text.take count
    if run.length = count && run.all Char.isDigit then
      some (run.foldl (fun n c => n * 10 + (c.toNat - '0'.toNat)) 0, text.drop count)
    else none

/-- A number with zeros in front of it up to `width` digits. -/
def padded (width n : Nat) : List Char :=
  let digits := Nat.toDigits 10 n
  List.replicate (width - digits.length) '0' ++ digits

def isLeapYear (year : Nat) : Bool :=
  year % 4 = 0 && (year % 100 ≠ 0 || year % 400 = 0)

def daysIn (year month : Nat) : Nat :=
  if month = 2 then (if isLeapYear year then 29 else 28)
  else if month = 4 || month = 6 || month = 9 || month = 11 then 30
  else 31

/-- A date. -/
def date (text : List Char) : Option (List Char × List Char) := do
  let (year, rest) ← digits 4 text
  let '-' :: rest := rest | none
  let (month, rest) ← digits 2 rest
  let '-' :: rest := rest | none
  let (day, rest) ← digits 2 rest
  if 1 ≤ month && month ≤ 12 && 1 ≤ day && day ≤ daysIn year month then
    some (padded 4 year ++ '-' :: padded 2 month ++ '-' :: padded 2 day, rest)
  else none

/-- The fraction of a second, to nine places and without zeros at its end. -/
def fraction (text : List Char) : Option (List Char × List Char) :=
  match text with
  | '.' :: rest =>
    let run := rest.takeWhile Char.isDigit
    if run = [] then none
    else
      let kept := ((run.take 9).reverse.dropWhile (· = '0')).reverse
      some (if kept = [] then [] else '.' :: kept, rest.dropWhile Char.isDigit)
  | _ => some ([], text)

/-- A time of day. -/
def time (text : List Char) : Option (List Char × List Char) := do
  let (hour, rest) ← digits 2 text
  let ':' :: rest := rest | none
  let (minute, rest) ← digits 2 rest
  let ':' :: rest := rest | none
  let (second, rest) ← digits 2 rest
  let (part, rest) ← fraction rest
  if hour ≤ 23 && minute ≤ 59 && second ≤ 60 then
    some (padded 2 hour ++ ':' :: padded 2 minute ++ ':' :: padded 2 second ++ part, rest)
  else none

/-- An offset from universal time; nothing when there is none. -/
def offset (text : List Char) : Option (List Char × List Char) :=
  match text with
  | 'Z' :: rest => some (['Z'], rest)
  | 'z' :: rest => some (['Z'], rest)
  | sign :: rest =>
    if sign = '+' || sign = '-' then do
      let (hour, rest) ← digits 2 rest
      let ':' :: rest := rest | none
      let (minute, rest) ← digits 2 rest
      if hour ≤ 23 && minute ≤ 59 then
        let shown := if hour = 0 && minute = 0 then '+' else sign
        some (shown :: padded 2 hour ++ ':' :: padded 2 minute, rest)
      else none
    else some ([], sign :: rest)
  | [] => some ([], [])

/-- A date, a time, or both. A space joins a date to a time only when a digit follows it. -/
def moment (text : List Char) : Option (List Char × List Char) :=
  match date text with
  | none => time text
  | some (day, rest) =>
    let joined :=
      match rest with
      | 'T' :: after => some after
      | 't' :: after => some after
      | ' ' :: c :: after => if c.isDigit then some (c :: after) else none
      | _ => none
    match joined with
    | none => some (day, rest)
    | some after => do
      let (hours, rest) ← time after
      let (shift, rest) ← offset rest
      some (day ++ 'T' :: hours ++ shift, rest)

end ModuleGateway.Toml
