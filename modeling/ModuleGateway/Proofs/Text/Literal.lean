import Mathlib.Data.List.Basic

/-!
String literals in double quotes, by the rules of the language that reads them. Behind the opening quote
come characters that stand for themselves and escapes, and the first quote outside of an escape closes the
literal. A text spells a value when it is read so whatever comes behind it, and spellings may be put one
behind the other.
-/

namespace ModuleGateway.Text

/-- How a language reads the inside of a string literal. -/
structure LiteralRules (α : Type) where
  /-- The characters that break a literal off. -/
  breaksOff : Char → Bool
  /-- What a character stands for outside of an escape. -/
  plain : Char → List α
  /-- What a text behind a backslash starts with, and how many characters belong to it; nothing when no
  escape is written so. -/
  escape? : List Char → Option (List α × Nat)

namespace LiteralRules

variable {α : Type} (rules : LiteralRules α)

/-- The value of a literal behind its opening quote, and the text behind its closing quote. The first
`skip` characters belong to an escape that has been read. -/
def readFrom : Nat → List Char → Option (List α × List Char)
  | _, [] => none
  | skip + 1, _ :: rest => readFrom skip rest
  | 0, c :: rest =>
    if c = '"' then some ([], rest)
    else if c = '\\' then
      match rules.escape? rest with
      | some (value, length) => (readFrom length rest).map fun (more, behind) => (value ++ more, behind)
      | none => none
    else if rules.breaksOff c then none
    else (readFrom 0 rest).map fun (more, behind) => (rules.plain c ++ more, behind)

/-- The value of the literal that a text starts with, and the text behind it. -/
def literal? : List Char → Option (List α × List Char)
  | '"' :: rest => rules.readFrom 0 rest
  | _ => none

/-- Inside of a literal the text is read as this value, whatever comes behind it. -/
def Spells (text : List Char) (value : List α) : Prop :=
  ∀ rest, rules.readFrom 0 (text ++ rest) =
    (rules.readFrom 0 rest).map fun (more, behind) => (value ++ more, behind)

variable {rules} {text first second : List Char} {value other : List α} {c : Char}

theorem spells_nil : rules.Spells [] [] := by
  intro rest
  cases h : rules.readFrom 0 rest <;> simp [h]

theorem Spells.append (left : rules.Spells first value) (right : rules.Spells second other) :
    rules.Spells (first ++ second) (value ++ other) := by
  intro rest
  rw [List.append_assoc, left, right]
  cases rules.readFrom 0 rest <;> simp

theorem spells_plain (hQuote : c ≠ '"') (hEscape : c ≠ '\\') (hLine : rules.breaksOff c = false) :
    rules.Spells [c] (rules.plain c) := by
  intro rest
  simp [readFrom, hQuote, hEscape, hLine]

theorem readFrom_length (text rest : List Char) :
    rules.readFrom text.length (text ++ rest) = rules.readFrom 0 rest := by
  induction text with
  | nil => rfl
  | cons c text ih => exact ih

theorem spells_escape (h : ∀ rest, rules.escape? (text ++ rest) = some (value, text.length)) :
    rules.Spells ('\\' :: text) value := by
  intro rest
  simp [readFrom, h, readFrom_length]

/-- A text whose characters are written one by one. -/
theorem spells_flatMap {write : Char → List Char} {stand : Char → List α}
    (h : ∀ c, rules.Spells (write c) (stand c)) (text : List Char) :
    rules.Spells (text.flatMap write) (text.flatMap stand) := by
  induction text with
  | nil => exact spells_nil
  | cons c text ih =>
      rw [List.flatMap_cons, List.flatMap_cons]
      exact (h c).append ih

/-- A literal is read up to the quote that was put behind its text. -/
theorem literal?_of_spells (h : rules.Spells text value) (rest : List Char) :
    rules.literal? ('"' :: text ++ '"' :: rest) = some (value, rest) := by
  have hClosed : rules.readFrom 0 ('"' :: rest) = some ([], rest) := rfl
  rw [List.cons_append, literal?, h, hClosed]
  simp

end LiteralRules

end ModuleGateway.Text
