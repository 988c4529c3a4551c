/-!
Scripts as trees. Annotations leave no trace in a tree. A construct that is checked when it is read but
never printed is `other`, and so is all that it holds; what can be assigned to it is all that is known of
such an expression.
-/

namespace ModuleGateway.Script

/-- The word a list of variables is declared with. -/
inductive VariableKind where
  | const
  | let
  | var
  deriving DecidableEq, Repr

def VariableKind.word : VariableKind → String
  | .const => "const"
  | .let => "let"
  | .var => "var"

/-- What a declaration binds: one name, or the names in a pattern. -/
inductive Target where
  | name (id : String)
  | pattern (names : List String)
  deriving DecidableEq, Repr

/-- The names a target binds. -/
def Target.names : Target → List String
  | .name id => [id]
  | .pattern names => names

/-- What kind of function stands behind the word `function`. -/
structure FunctionKind where
  isAsync : Bool := false
  isGenerator : Bool := false
  deriving DecidableEq, Repr

/-- One name of an import or export list: as it is called there and here. The two texts are equal
when nothing is renamed. -/
structure Binding where
  outer : String
  inner : String
  deriving DecidableEq, Repr

/-- What an import declaration brings in. -/
structure ImportClause where
  default? : Option String := none
  star? : Option String := none
  /-- The names in braces that are not names of types; none when there are no braces. -/
  names? : Option (List Binding) := none
  /-- Whether there are names of types in the braces. -/
  hasTypes : Bool := false
  deriving DecidableEq, Repr

/-- The module a declaration loads. -/
structure Request where
  specifier : String
  attributes : List (String × String) := []
  deriving DecidableEq, Repr

/-- The key of an object's field as it is written. -/
inductive Key where
  | name (id : String)
  | text (value : String)
  deriving DecidableEq, Repr

mutual
/-- An expression. -/
inductive Expr where
  | name (id : String)
  /-- A number, a regular expression or a word such as `null`, as it is written. -/
  | literal (written : String)
  | number (written : String)
  | text (value : String)
  | template (chunks : List String) (values : List Expr)
  | member (object : Expr) (name : String)
  | index (object key : Expr)
  | call (callee : Expr) (arguments : List Expr)
  | construct (callee : Expr) (arguments : List Expr)
  | unary (operator : String) (operand : Expr)
  | binary (operator : String) (left right : Expr)
  | conditional (test yes no : Expr)
  | assign (operator : String) (target value : Expr)
  | sequence (items : List Expr)
  | array (items : List Expr)
  | object (fields : List (Key × Expr))
  | function (kind : FunctionKind) (name : Option String) (parameters : List Target)
      (body : List Statement)
  | arrow (isAsync : Bool) (parameters : List Target) (body : Statement)
  | group (inner : Expr)
  | other
  /-- Like `other`, and a value can be assigned to it. -/
  | place
  /-- Like `other`, and the parts of a value can be assigned to it. -/
  | pattern

/-- A statement or a declaration. -/
inductive Statement where
  | expression (value : Expr)
  | variables (kind : VariableKind) (declared : List (Target × Option Expr))
  | function (kind : FunctionKind) (name : String) (parameters : List Target)
      (body : List Statement)
  | result (value : Option Expr)
  | block (body : List Statement)
  | choice (test : Expr) (yes : Statement) (no : Option Statement)
  | empty
  /-- An import declaration; without a clause it only runs the module. -/
  | importing (clause : Option ImportClause) (request : Request)
  | exporting (declaration : Statement)
  | exportDefault (value : Expr)
  | exportNames (names : List Binding) (request : Option Request)
  | exportAll (name : Option String) (request : Request)
  /-- A declaration of types only; `linked` when it is an import or export. -/
  | erased (linked : Bool)
  /-- A class with its name, which is not printed. -/
  | classDeclared (name : String)
  | other
end

/-- Whether an expression is checked only. -/
def Expr.isChecked : Expr → Bool
  | .other | .place | .pattern => true
  | _ => false

/-- Whether a value can be assigned to an expression. -/
def Expr.isPlace : Expr → Bool
  | .name _ | .member .. | .index .. | .place => true
  | .group e => e.isPlace
  | _ => false

mutual
/-- Whether an equals sign may stand behind an expression, which a pattern may be too. -/
def Expr.isTarget : Expr → Bool
  | .array items => Expr.areItems items
  | .object fields => Expr.areFields fields
  | .pattern => true
  | .name _ | .member .. | .index .. | .place => true
  | .group e => e.isPlace
  | _ => false

/-- Whether an expression may be part of a pattern, where it may have a default. -/
def Expr.isItem : Expr → Bool
  | .assign operator .. => operator = "="
  | e => e.isTarget

def Expr.areItems : List Expr → Bool
  | [] => true
  | e :: rest => e.isItem && Expr.areItems rest

def Expr.areFields : List (Key × Expr) → Bool
  | [] => true
  | (_, e) :: rest => e.isItem && Expr.areFields rest
end

instance : Inhabited Expr := ⟨.other⟩

instance : Inhabited Statement := ⟨.other⟩

end ModuleGateway.Script
