import ModuleGateway.Text.Split

/-!
Module specifiers: what an import names. A specifier is kept as the text between the quotes.
This does not look anything up; it says only which kind of name a text is and which package it
belongs to.
-/

namespace ModuleGateway.Specifier

open Text

/-- How an import specifier is resolved. -/
inductive Kind where
  /-- `./x`, `../x`, `.` or `..`: relative to the importing module. -/
  | relative
  /-- `/x`: an absolute path on the serving origin. -/
  | rootAbsolute
  /-- A text with a scheme, such as `https://x` or `data:x`. -/
  | url
  /-- Anything else names a package. -/
  | bare
  deriving DecidableEq, Repr

/-- A scheme is an ASCII letter followed by ASCII letters, digits, `+`, `-` or `.`. -/
def isScheme : List Char → Bool
  | [] => false
  | c :: rest =>
    c.isAlpha && rest.all fun d => d.isAlphanum || d = '+' || d = '-' || d = '.'

/-- Whether the text before the first colon is a scheme. -/
def hasScheme (specifier : List Char) : Bool :=
  match cut? ':' specifier with
  | some (scheme, _) => isScheme scheme
  | none => false

/-- Whether the text is `.` or `..`, or starts with one of them and a slash. -/
def isRelative : List Char → Bool
  | ['.'] => true
  | ['.', '.'] => true
  | '.' :: '/' :: _ => true
  | '.' :: '.' :: '/' :: _ => true
  | _ => false

/-- Which kind of name a specifier is. Relative names come before absolute paths, and those
before schemes, so `./a:b` is relative. -/
def kind (specifier : String) : Kind :=
  let text := specifier.toList
  if isRelative text then .relative
  else if text.head? = some '/' then .rootAbsolute
  else if hasScheme text then .url
  else .bare

/-- The package part of a specifier and what follows it after a slash. A scoped name, one that
starts with `@`, reaches to its second slash; any other name to its first. A part after the
slash that is empty counts as absent. -/
def splitText (text : List Char) : List Char × Option (List Char) :=
  let nonempty (sub : List Char) : Option (List Char) := if sub = [] then none else some sub
  if text.head? = some '@' then
    match cut? '/' text with
    | none => (text, none)
    | some (scope, rest) =>
      match cut? '/' rest with
      | none => (text, none)
      | some (name, sub) => (scope ++ '/' :: name, nonempty sub)
  else
    match cut? '/' text with
    | none => (text, none)
    | some (name, sub) => (name, nonempty sub)

/-- The package name of a specifier and the subpath within the package, if there is one. -/
def split (specifier : String) : String × Option String :=
  let (name, sub) := splitText specifier.toList
  (String.ofList name, sub.map String.ofList)

/-- The package that owns a specifier. -/
def packageName (specifier : String) : String :=
  (split specifier).1

/-- Whether a part between slashes is a plain name: not empty and not a dot segment. -/
def isPlainSegment (segment : List Char) : Bool :=
  !(segment = [] || segment = ['.'] || segment = ['.', '.'])

/-- A package name a request may use: a scoped name has exactly a scope and a name, any other
name does not start with a dot. -/
def isPackageName (name : List Char) : Bool :=
  match name with
  | '@' :: rest => (Text.split '/' rest).length = 2
  | _ => name.head? ≠ some '.'

/-- Whether a specifier taken from a request path may be looked up: a bare name of plain
segments, without backslash and NUL, whose package name is well formed. -/
def isServable (specifier : String) : Bool :=
  let text := specifier.toList
  text ≠ [] && !text.contains '\\' && !text.contains '\x00'
    && kind specifier = .bare
    && (Text.split '/' text).all isPlainSegment
    && isPackageName (splitText text).1

end ModuleGateway.Specifier
