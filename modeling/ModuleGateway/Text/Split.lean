/-!
Cutting character lists at a separator. Every cut keeps the characters in order, so joining the
parts with the separator gives the text back.
-/

namespace ModuleGateway.Text

/-- The text before and after the first `sep`; `none` when there is none. -/
def cut? (sep : Char) : List Char → Option (List Char × List Char)
  | [] => none
  | c :: rest =>
    if c = sep then some ([], rest)
    else (cut? sep rest).map fun (before, after) => (c :: before, after)

/-- The text before and after the last `sep`; `none` when there is none. -/
def cutLast? (sep : Char) (text : List Char) : Option (List Char × List Char) :=
  (cut? sep text.reverse).map fun (after, before) => (before.reverse, after.reverse)

/-- All parts between separators, one more than there are separators. -/
def split (sep : Char) : List Char → List (List Char)
  | [] => [[]]
  | c :: rest =>
    match split sep rest with
    | [] => [[c]]
    | part :: parts => if c = sep then [] :: part :: parts else (c :: part) :: parts

/-- Without the leading characters that satisfy `p`. -/
def trimStart (p : Char → Bool) (text : List Char) : List Char :=
  text.dropWhile p

/-- Without the trailing characters that satisfy `p`. -/
def trimEnd (p : Char → Bool) (text : List Char) : List Char :=
  (text.reverse.dropWhile p).reverse

/-- Without the leading and trailing characters that satisfy `p`. -/
def trim (p : Char → Bool) (text : List Char) : List Char :=
  trimEnd p (trimStart p text)

/-- What follows `start`, when the text begins with it. -/
def after? (start text : List Char) : Option (List Char) :=
  start.isPrefixOf? text

/-- What precedes `tail`, when the text ends with it. -/
def before? (tail text : List Char) : Option (List Char) :=
  tail.isSuffixOf? text

/-- The text with every non-overlapping occurrence of `pattern`, found from the left, replaced
by `value`. An empty pattern changes nothing. -/
def replaceAll (pattern value text : List Char) : List Char :=
  if pattern = [] then text else go 0 text
where
  /-- The first `skip` characters belong to an occurrence already replaced. -/
  go : Nat → List Char → List Char
    | _, [] => []
    | skip + 1, _ :: rest => go skip rest
    | 0, c :: rest =>
      if pattern.isPrefixOf (c :: rest) then value ++ go (pattern.length - 1) rest
      else c :: go 0 rest

/-- How many bytes the text takes in UTF-8. -/
def utf8Length (text : List Char) : Nat :=
  text.foldl (fun length c => length + c.utf8Size) 0

end ModuleGateway.Text
