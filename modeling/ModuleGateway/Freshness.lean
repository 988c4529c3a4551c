import ModuleGateway.Text.Blank
import ModuleGateway.Text.Hex
import ModuleGateway.Text.Split

/-!
Conditional requests. A local module is tagged by its size, its time of change and whether output
is minified. The tag is weak: it is not derived from the content.
-/

namespace ModuleGateway

/-- What a tag is derived from. -/
structure Stamp where
  size : Nat
  /-- Nanoseconds from the epoch, which may lie ahead. -/
  modified : Int
  deriving DecidableEq, Repr

/-- The time of change in whole milliseconds; before the epoch it counts as zero. -/
def Stamp.milliseconds (stamp : Stamp) : Nat :=
  stamp.modified.toNat / 1000000

/-- The tag of a module's current content. -/
structure Validator where
  size : Nat
  milliseconds : Nat
  minified : Bool
  deriving DecidableEq, Repr

namespace Validator

def ofStamp (stamp : Stamp) (minified : Bool) : Validator :=
  ⟨stamp.size, stamp.milliseconds, minified⟩

/-- The characters of the tag as a header holds it. -/
def chars (v : Validator) : List Char :=
  ['W', '/', '"'] ++ Text.hex v.size ++ '-' :: Text.hex v.milliseconds ++
    (if v.minified then ['-', 'm'] else []) ++ ['"']

/-- The tag as a header holds it, such as `W/"1f-18c2a3b4c5d"`. -/
def text (v : Validator) : String :=
  String.ofList v.chars

/-- Whether a header names exactly this tag, alone or between commas. Blanks around an entry do
not count; a star names nothing. -/
def isNamedBy (v : Validator) (header : String) : Bool :=
  (Text.split ',' header.toList).any fun entry => Text.trim Text.isSpace entry = v.chars

end Validator

/-- Whether the client's copy is current. -/
inductive Freshness where
  | fresh (validator : Validator)
  | stale (validator : Validator)
  deriving DecidableEq, Repr

/-- Compares the current tag with the request's header, if it has one. -/
def Freshness.check (stamp : Stamp) (minified : Bool) (header : Option String) : Freshness :=
  let validator := Validator.ofStamp stamp minified
  match header with
  | some text => if validator.isNamedBy text then .fresh validator else .stale validator
  | none => .stale validator

end ModuleGateway
