import ModuleGateway.Text.Name

/-!
Printed scripts as pieces, and the two ways to lay them out. The pretty layout puts one statement on a
line and indents by tabs; the dense one keeps only the blanks and semicolons that part what would
otherwise run together.
-/

namespace ModuleGateway.Script

/-- A piece of a printed script. -/
inductive Piece where
  | text (chars : List Char)
  /-- A blank for the eye. -/
  | space
  /-- A line break for the eye. -/
  | line
  /-- The lines from here on stand deeper. -/
  | deeper
  | shallower
  /-- The end of a statement. -/
  | stop
  /-- A place behind a statement that no brace can follow. -/
  | settle
  deriving DecidableEq, Repr

/-- A piece of text. -/
def Piece.ofString (s : String) : Piece :=
  .text s.toList

/-- The text so far, last character first, with what the layout has to remember. -/
structure Page where
  written : List Char := []
  depth : Nat := 0
  /-- Whether a line has just been broken, so that the next text is indented. -/
  fresh : Bool := false
  /-- Whether a statement has ended without its semicolon. -/
  unended : Bool := false

namespace Page

/-- Adds characters in order. -/
def write (page : Page) (chars : List Char) : Page :=
  { page with written := chars.reverse ++ page.written }

/-- Whether two characters must not stand next to each other: they would be one name or one
operator. -/
def sticks (before next : Char) : Bool :=
  (Text.isNamePart before && Text.isNamePart next) ||
    (before = next && (before = '+' || before = '-'))

/-- A text with the blank in front that keeps it apart from what is written. -/
def apart (page : Page) (chars : List Char) : List Char :=
  match page.written.head?, chars.head? with
  | some before, some next => if sticks before next then ' ' :: chars else chars
  | _, _ => chars

/-- One more piece of the pretty layout. -/
def pretty (page : Page) : Piece → Page
  | .text chars =>
    if page.fresh then
      { page.write (List.replicate page.depth '\t' ++ chars) with fresh := false }
    else page.write (page.apart chars)
  | .space => page.write [' ']
  | .line => { page.write ['\n'] with fresh := true }
  | .deeper => { page with depth := page.depth + 1 }
  | .shallower => { page with depth := page.depth - 1 }
  | .stop => page.write [';']
  | .settle => page

/-- One more piece of the dense layout. A statement's semicolon is left out in front of a brace. -/
def dense (page : Page) : Piece → Page
  | .text chars =>
    let ended :=
      if page.unended && chars ≠ ['\x7d'] then { page.write [';'] with unended := false }
      else { page with unended := false }
    ended.write (ended.apart chars)
  | .stop => { page with unended := true }
  | .settle => if page.unended then { page.write [';'] with unended := false } else page
  | _ => page

end Page

/-- The script that pieces make. -/
def layOut (isDense : Bool) (pieces : List Piece) : String :=
  let page := pieces.foldl (if isDense then Page.dense else Page.pretty) {}
  String.ofList page.written.reverse

end ModuleGateway.Script
