import ModuleGateway.Proofs.Relink.Scanning

/-!
Modules with their layout. A module is a list of imports, exports, comments and expression statements,
each with the blanks between its tokens, so that a tree stands for one text. Two words never touch, which
the trees know by themselves. The printed text is given as pieces, in which the specifiers of the imports
and exports are targets and every other character stands for itself.
-/

namespace ModuleGateway.Relink.Concrete

/-! ### Tokens -/

/-- Blanks between tokens. -/
structure Gap where
  text : List Char
  blank : ∀ c ∈ text, isBlank c = true

/-- An identifier or a keyword, without escapes. -/
structure Word where
  first : Char
  others : List Char
  start : isWordStart first = true
  parts : ∀ c ∈ others, isWordPart c = true

def Word.text (w : Word) : List Char :=
  w.first :: w.others

/-- A word of an expression. The keywords that start items are none. -/
structure Name extends Word where
  notImport : String.ofList toWord.text ≠ "import"
  notExport : String.ofList toWord.text ≠ "export"

/-- A string literal, on one line but for escapes. -/
structure Literal where
  quote : Char
  body : List Char
  isQuote : isQuote quote = true
  inside : Inside quote body

def Literal.text (l : Literal) : List Char :=
  l.quote :: l.body ++ [l.quote]

/-- The specifier of an import or export with the quotes that it stands in. -/
structure Specifier where
  quote : Char
  text : List Char
  isQuote : isQuote quote = true

/-- The specifier can be written between its quotes as it is, on one line. -/
def Specifier.Plain (s : Specifier) : Prop :=
  ∀ c ∈ s.text, c ≠ s.quote ∧ c ≠ '\\' ∧ isLineEnd c = false

/-- Text of a template literal: no backtick and no start of a substitution outside an escape. -/
inductive Clear : List Char → Prop where
  | nil : Clear []
  | escaped {c : Char} {rest : List Char} (later : Clear rest) : Clear ('\\' :: c :: rest)
  | plain {c : Char} {rest : List Char} (hEscape : c ≠ '\\') (hTick : c ≠ '\x60')
      (hOpen : c = '$' → rest.head? ≠ some '\x7b') (later : Clear rest) : Clear (c :: rest)

structure Chunk where
  text : List Char
  clear : Clear text

inductive Operator where
  | assign
  | comma
  | dot
  | spread
  | plus
  deriving DecidableEq

def Operator.text : Operator → List Char
  | .assign => ['=']
  | .comma => [',']
  | .dot => ['.']
  | .spread => ['.', '.', '.']
  | .plus => ['+']

inductive Bracket where
  | round
  | square
  | curly
  deriving DecidableEq

def Bracket.opening : Bracket → Char
  | .round => '('
  | .square => '['
  | .curly => '\x7b'

def Bracket.closing : Bracket → Char
  | .round => ')'
  | .square => ']'
  | .curly => '\x7d'

/-! ### Expressions -/

/-- What stands in front of the next token of an expression. -/
inductive Edge where
  | word
  /-- The dot of a member access. -/
  | dot
  | other
  deriving DecidableEq

def Operator.edge : Operator → Edge
  | .dot => .dot
  | _ => .other

mutual

/-- The rest of an expression: its tokens, each with the gap in front of it, behind an edge. -/
inductive Code : Edge → Type where
  | done {e : Edge} (gap : Gap) : Code e
  | word {e : Edge} (gap : Gap) (hGap : e = .word → gap.text ≠ []) (name : Name)
      (rest : Code .word) : Code e
  | string {e : Edge} (gap : Gap) (literal : Literal) (rest : Code .other) : Code e
  | operator {e : Edge} (gap : Gap) (o : Operator) (rest : Code o.edge) : Code e
  /-- An import inside of an expression. Behind the dot of a member access it would be a name. -/
  | dynamic {e : Edge} (gap : Gap) (hGap : e = .word → gap.text ≠ []) (hDot : e ≠ .dot)
      (first second : Gap) (specifier : Specifier) (third : Gap) (rest : Code .other) : Code e
  | bracket {e : Edge} (gap : Gap) (b : Bracket) (inner : Code .other) (rest : Code .other) : Code e
  | template {e : Edge} (gap : Gap) (t : Template) (rest : Code .other) : Code e

/-- A template literal behind its opening backtick: a chunk of text up to the closing backtick, or up to
a substitution behind which the template goes on. -/
inductive Template : Type where
  | last (chunk : Chunk) : Template
  | more (chunk : Chunk) (inner : Code .other) (rest : Template) : Template

end

/-! ### Imports and exports -/

/-- One binding of a clause in braces. -/
inductive Binding where
  | kept (name : Word)
  | renamed (name : Word) (before after : Gap) (hBefore : before.text ≠ []) (hAfter : after.text ≠ [])
      (bound : Word)

def Binding.text : Binding → List Char
  | .kept name => name.text
  | .renamed name before after _ _ bound =>
    name.text ++ before.text ++ "as".toList ++ after.text ++ bound.text

/-- The bindings behind an opening brace; a comma may stand behind the last one. -/
inductive Names where
  | none (gap : Gap)
  | last (gap : Gap) (binding : Binding) (after : Gap)
  | more (gap : Gap) (binding : Binding) (after : Gap) (rest : Names)

def Names.text : Names → List Char
  | .none gap => gap.text ++ ['\x7d']
  | .last gap binding after => gap.text ++ binding.text ++ after.text ++ ['\x7d']
  | .more gap binding after rest => gap.text ++ binding.text ++ after.text ++ ',' :: rest.text

/-- A star with a name for all that it stands for. -/
structure Star where
  before : Gap
  after : Gap
  hAfter : after.text ≠ []
  name : Word

def Star.text (n : Star) : List Char :=
  '*' :: n.before.text ++ "as".toList ++ n.after.text ++ n.name.text

/-- What an import binds. -/
inductive Clause where
  | default (name : Word)
  | star (all : Star)
  | names (names : Names)
  | defaultAndStar (name : Word) (before after : Gap) (all : Star)
  | defaultAndNames (name : Word) (before after : Gap) (names : Names)

def Clause.text : Clause → List Char
  | .default name => name.text
  | .star s => s.text
  | .names ns => '\x7b' :: ns.text
  | .defaultAndStar name before after s => name.text ++ before.text ++ ',' :: after.text ++ s.text
  | .defaultAndNames name before after ns =>
    name.text ++ before.text ++ ',' :: after.text ++ '\x7b' :: ns.text

def Clause.startsWithWord : Clause → Bool
  | .default _ | .defaultAndStar .. | .defaultAndNames .. => true
  | .star _ | .names _ => false

def Clause.endsWithWord : Clause → Bool
  | .default _ | .star _ | .defaultAndStar .. => true
  | .names _ | .defaultAndNames .. => false

/-- What an export takes from another module. -/
inductive Reexport where
  | all
  | star (all : Star)
  | names (names : Names)

def Reexport.text : Reexport → List Char
  | .all => ['*']
  | .star s => s.text
  | .names ns => '\x7b' :: ns.text

def Reexport.endsWithWord : Reexport → Bool
  | .star _ => true
  | .all | .names _ => false

/-- The end of an import or export: the word in front of a specifier, and the specifier. -/
structure Origin where
  before : Gap
  gap : Gap
  specifier : Specifier
  after : Gap

/-! ### Modules -/

/-- One item of a module. -/
inductive Item where
  /-- An import for its effects alone. -/
  | effect (before : Gap) (specifier : Specifier) (after : Gap)
  | imports (before : Gap) (clause : Clause) (origin : Origin)
      (hBefore : clause.startsWithWord = true → before.text ≠ [])
      (hAfter : clause.endsWithWord = true → origin.before.text ≠ [])
  | reexports (before : Gap) (clause : Reexport) (origin : Origin)
      (hAfter : clause.endsWithWord = true → origin.before.text ≠ [])
  | exports (before : Gap) (names : Names) (after : Gap)
  | lineComment (text : List Char) (hText : '\n' ∉ text)
  | blockComment (text : List Char) (hText : ¬['*', '/'] <:+: text)
  | statement (code : Code .other)

/-- Items with the gaps behind them. -/
structure Module where
  gap : Gap
  items : List (Item × Gap)

/-! ### Printing -/

/-- Text that stands for itself, character by character. -/
def plain (text : List Char) : List Piece :=
  text.map fun c => .verbatim [c]

/-- The specifier between its quotes, with what cannot stand there as it is escaped. -/
def Specifier.piece (s : Specifier) : Piece :=
  .target s.quote (quoteWithin s.quote s.text)

mutual

def Code.pieces {e : Edge} : Code e → List Piece
  | .done gap => plain gap.text
  | .word gap _ name rest => plain (gap.text ++ name.text) ++ rest.pieces
  | .string gap literal rest => plain (gap.text ++ literal.text) ++ rest.pieces
  | .operator gap o rest => plain (gap.text ++ o.text) ++ rest.pieces
  | .dynamic gap _ _ first second specifier third rest =>
    plain (gap.text ++ "import".toList ++ first.text ++ '(' :: second.text) ++
      specifier.piece :: plain (third.text ++ [')']) ++ rest.pieces
  | .bracket gap b inner rest =>
    plain (gap.text ++ [b.opening]) ++ inner.pieces ++ plain [b.closing] ++ rest.pieces
  | .template gap t rest => plain (gap.text ++ ['\x60']) ++ t.pieces ++ rest.pieces

def Template.pieces : Template → List Piece
  | .last chunk => plain (chunk.text ++ ['\x60'])
  | .more chunk inner rest =>
    plain (chunk.text ++ ['$', '\x7b']) ++ inner.pieces ++ plain ['\x7d'] ++ rest.pieces

end

def Origin.pieces (o : Origin) : List Piece :=
  plain (o.before.text ++ "from".toList ++ o.gap.text) ++
    o.specifier.piece :: plain (o.after.text ++ [';'])

def Item.pieces : Item → List Piece
  | .effect before specifier after =>
    plain ("import".toList ++ before.text) ++ specifier.piece :: plain (after.text ++ [';'])
  | .imports before clause origin _ _ =>
    plain ("import".toList ++ before.text ++ clause.text) ++ origin.pieces
  | .reexports before clause origin _ =>
    plain ("export".toList ++ before.text ++ clause.text) ++ origin.pieces
  | .exports before names after =>
    plain ("export".toList ++ before.text ++ '\x7b' :: names.text ++ after.text ++ [';'])
  | .lineComment text _ => plain ("//".toList ++ text ++ ['\n'])
  | .blockComment text _ => plain ("/*".toList ++ text ++ "*/".toList)
  | .statement code => code.pieces ++ plain [';']

def Module.pieces (m : Module) : List Piece :=
  plain m.gap.text ++ m.items.flatMap fun (item, gap) => item.pieces ++ plain gap.text

/-- The text of a module. -/
def Module.print (m : Module) : List Char :=
  m.pieces.flatMap Piece.text

/-! ### Specifiers -/

mutual

def Code.specifiers {e : Edge} : Code e → List Specifier
  | .done _ => []
  | .word _ _ _ rest | .string _ _ rest | .operator _ _ rest => rest.specifiers
  | .dynamic _ _ _ _ _ specifier _ rest => specifier :: rest.specifiers
  | .bracket _ _ inner rest => inner.specifiers ++ rest.specifiers
  | .template _ t rest => t.specifiers ++ rest.specifiers

def Template.specifiers : Template → List Specifier
  | .last _ => []
  | .more _ inner rest => inner.specifiers ++ rest.specifiers

end

def Item.specifiers : Item → List Specifier
  | .effect _ specifier _ => [specifier]
  | .imports _ _ origin _ _ | .reexports _ _ origin _ => [origin.specifier]
  | .exports .. | .lineComment .. | .blockComment .. => []
  | .statement code => code.specifiers

/-- The specifiers of a module in the order of its text. -/
def Module.specifiers (m : Module) : List Specifier :=
  m.items.flatMap fun (item, _) => item.specifiers

section Traversal

variable {m : Type → Type} [Monad m] (f : Specifier → m Specifier)

mutual

/-- The same expression with other specifiers. -/
def Code.traverse {e : Edge} : Code e → m (Code e)
  | .done gap => pure (.done gap)
  | .word gap hGap name rest => return .word gap hGap name (← rest.traverse)
  | .string gap literal rest => return .string gap literal (← rest.traverse)
  | .operator gap o rest => return .operator gap o (← rest.traverse)
  | .dynamic gap hGap hDot first second specifier third rest => do
    let specifier ← f specifier
    return .dynamic gap hGap hDot first second specifier third (← rest.traverse)
  | .bracket gap b inner rest => do
    let inner ← inner.traverse
    return .bracket gap b inner (← rest.traverse)
  | .template gap t rest => do
    let t ← t.traverse
    return .template gap t (← rest.traverse)

def Template.traverse : Template → m Template
  | .last chunk => pure (.last chunk)
  | .more chunk inner rest => do
    let inner ← inner.traverse
    return .more chunk inner (← rest.traverse)

end

def Item.traverse : Item → m Item
  | .effect before specifier after => return .effect before (← f specifier) after
  | .imports before clause origin hBefore hAfter =>
    return .imports before clause { origin with specifier := ← f origin.specifier } hBefore hAfter
  | .reexports before clause origin hAfter =>
    return .reexports before clause { origin with specifier := ← f origin.specifier } hAfter
  | .statement code => return .statement (← code.traverse f)
  | item => pure item

/-- The same module with other specifiers, which are taken in the order of its text. -/
def Module.traverse (module : Module) : m Module :=
  return { module with items := ← module.items.mapM fun (item, gap) => return (← item.traverse f, gap) }

end Traversal

/-- The specifier that a map answers with, in the same quotes. Without an answer it stays. -/
def Specifier.answered (s : Specifier) (answer : Option String) : Specifier :=
  { s with text := (answer.map String.toList).getD s.text }

section Relinking

variable {m : Type → Type} [Monad m] (map : String → m (Option String))

/-- Asks a map for a specifier. -/
def Specifier.relink (s : Specifier) : m Specifier :=
  return s.answered (← map (String.ofList s.text))

/-- Asks a map for every specifier of a module. -/
def Module.relink (module : Module) : m Module :=
  module.traverse (·.relink map)

end Relinking

end ModuleGateway.Relink.Concrete
