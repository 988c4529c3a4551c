import ModuleGateway.Script.Tree

/-!
Names and the scopes they are bound in. A function's variables belong to the whole function, all other
names to the block that declares them; no name that belongs to a block may be declared there twice.
-/

namespace ModuleGateway.Script

/-! ### Declared names -/

/-- The names that an import binds. -/
def ImportClause.bound (c : ImportClause) : List String :=
  c.default?.toList ++ c.star?.toList ++ (c.names?.getD []).map (·.inner)

/-- The names that a statement declares for its block. -/
def Statement.blockNames : Statement → List String
  | .variables .var _ => []
  | .variables _ declared => declared.flatMap fun (target, _) => target.names
  | .classDeclared name => [name]
  | .importing (some clause) _ => clause.bound
  | .exporting inner => inner.blockNames
  | _ => []

/-- The name of a function that a statement declares. -/
def Statement.functionNames : Statement → List String
  | .function _ name _ _ => [name]
  | .exporting inner => inner.functionNames
  | .exportDefault (.function _ (some name) _ _) => [name]
  | _ => []

mutual
/-- The variables that a statement declares for the function it stands in. -/
def Statement.variableNames (s : Statement) : List String :=
  match s with
  | .variables .var declared => declared.flatMap fun (target, _) => target.names
  | .exporting inner => inner.variableNames
  | .block body => allVariableNames body
  | .choice _ yes no =>
    yes.variableNames ++ match no with
      | some otherwise => otherwise.variableNames
      | none => []
  | _ => []

/-- The variables that some statements declare for the function they stand in. -/
def allVariableNames (body : List Statement) : List String :=
  match body with
  | [] => []
  | s :: rest => s.variableNames ++ allVariableNames rest
end

/-- A block, or a function's body with its parameters. -/
structure Scope where
  parameters : List String := []
  body : List Statement
  /-- Whether the body is a function's or a module's. -/
  isFunction : Bool

namespace Scope

/-- All names that a scope binds. -/
def names (s : Scope) : List String :=
  s.parameters ++ s.body.flatMap Statement.blockNames ++ s.body.flatMap Statement.functionNames ++
    (if s.isFunction then allVariableNames s.body else [])

/-- Whether a name that belongs to the block is declared twice. A function counts as a variable where it
stands in a function's body. -/
def redeclares (s : Scope) : Bool :=
  let functions := s.body.flatMap Statement.functionNames
  let block := s.body.flatMap Statement.blockNames ++ (if s.isFunction then [] else functions)
  let shared := s.parameters ++ allVariableNames s.body ++ (if s.isFunction then functions else [])
  !decide block.Nodup || block.any (shared.contains ·)

end Scope

/-! ### Visits -/

/-- What a visit does with the expressions and the scopes it meets. -/
structure Visitor (m : Type → Type) where
  /-- What takes the place of an expression, given the names bound around it; nothing to go on inside
  it. -/
  expression : List String → Expr → m (Option Expr)
  scope : Scope → m Unit

variable {m : Type → Type} [Monad m]

mutual
/-- An expression after a visit. -/
def Expr.visit (v : Visitor m) (bound : List String) (e : Expr) : m Expr := do
  match ← v.expression bound e with
  | some replacement => pure replacement
  | none =>
    match e with
    | .template chunks values => pure (.template chunks (← visitAll v bound values))
    | .member object name => pure (.member (← object.visit v bound) name)
    | .index object key => pure (.index (← object.visit v bound) (← key.visit v bound))
    | .call callee arguments =>
      pure (.call (← callee.visit v bound) (← visitAll v bound arguments))
    | .construct callee arguments =>
      pure (.construct (← callee.visit v bound) (← visitAll v bound arguments))
    | .unary symbol operand => pure (.unary symbol (← operand.visit v bound))
    | .binary symbol left right =>
      pure (.binary symbol (← left.visit v bound) (← right.visit v bound))
    | .conditional test yes no =>
      pure (.conditional (← test.visit v bound) (← yes.visit v bound) (← no.visit v bound))
    | .assign symbol target value =>
      pure (.assign symbol (← target.visit v bound) (← value.visit v bound))
    | .sequence items => pure (.sequence (← visitAll v bound items))
    | .array items => pure (.array (← visitAll v bound items))
    | .object fields => pure (.object (← visitFields v bound fields))
    | .function kind name parameters body =>
      let scope : Scope :=
        { parameters := parameters.flatMap Target.names, body, isFunction := true }
      v.scope scope
      let inner ← visitBody v (name.toList ++ scope.names ++ bound) body
      pure (.function kind name parameters inner)
    | .arrow isAsync parameters body =>
      let names := parameters.flatMap Target.names
      pure (.arrow isAsync parameters (← body.visitArrow v names bound))
    | .group inner => pure (.group (← inner.visit v bound))
    | leaf => pure leaf

/-- Expressions after a visit. -/
def visitAll (v : Visitor m) (bound : List String) (items : List Expr) : m (List Expr) := do
  match items with
  | [] => pure []
  | item :: rest => pure ((← item.visit v bound) :: (← visitAll v bound rest))

/-- Fields after a visit. -/
def visitFields (v : Visitor m) (bound : List String) (fields : List (Key × Expr)) :
    m (List (Key × Expr)) := do
  match fields with
  | [] => pure []
  | (key, value) :: rest =>
    pure ((key, ← value.visit v bound) :: (← visitFields v bound rest))

/-- The body of an arrow function after a visit; a block is a scope of its own. -/
def Statement.visitArrow (v : Visitor m) (parameters bound : List String) (s : Statement) :
    m Statement := do
  match s with
  | .block body =>
    let scope : Scope := { parameters, body, isFunction := true }
    v.scope scope
    pure (.block (← visitBody v (scope.names ++ bound) body))
  | .expression value => pure (.expression (← value.visit v (parameters ++ bound)))
  | leaf => pure leaf

/-- A statement after a visit. -/
def Statement.visit (v : Visitor m) (bound : List String) (s : Statement) : m Statement := do
  match s with
  | .expression value => pure (.expression (← value.visit v bound))
  | .variables kind declared => pure (.variables kind (← visitDeclared v bound declared))
  | .function kind name parameters body =>
    let scope : Scope :=
      { parameters := parameters.flatMap Target.names, body, isFunction := true }
    v.scope scope
    pure (.function kind name parameters (← visitBody v (scope.names ++ bound) body))
  | .result (some value) => pure (.result (some (← value.visit v bound)))
  | .block body =>
    let scope : Scope := { body, isFunction := false }
    v.scope scope
    pure (.block (← visitBody v (scope.names ++ bound) body))
  | .choice test yes none =>
    pure (.choice (← test.visit v bound) (← yes.visit v bound) none)
  | .choice test yes (some no) =>
    pure (.choice (← test.visit v bound) (← yes.visit v bound) (some (← no.visit v bound)))
  | .exporting inner => pure (.exporting (← inner.visit v bound))
  | .exportDefault value => pure (.exportDefault (← value.visit v bound))
  | leaf => pure leaf

/-- Variables with their values after a visit. -/
def visitDeclared (v : Visitor m) (bound : List String)
    (declared : List (Target × Option Expr)) : m (List (Target × Option Expr)) := do
  match declared with
  | [] => pure []
  | (target, none) :: rest => pure ((target, none) :: (← visitDeclared v bound rest))
  | (target, some value) :: rest =>
    pure ((target, some (← value.visit v bound)) :: (← visitDeclared v bound rest))

/-- Statements after a visit. -/
def visitBody (v : Visitor m) (bound : List String) (body : List Statement) :
    m (List Statement) := do
  match body with
  | [] => pure []
  | s :: rest => pure ((← s.visit v bound) :: (← visitBody v bound rest))
end

/-- The scope of a module. -/
def moduleScope (body : List Statement) : Scope :=
  { body, isFunction := true }

/-- A module after a visit of its statements. The names it declares itself are bound around them. -/
def visitModule (v : Visitor m) (body : List Statement) : m (List Statement) := do
  let scope := moduleScope body
  v.scope scope
  visitBody v scope.names body

/-! ### What visits find -/

/-- Whether a name is declared twice in some scope of a module. -/
def redeclares (body : List Statement) : Bool :=
  let note : Visitor (StateM Bool) :=
    { expression := fun _ _ => pure none
      scope := fun s => modify (· || s.redeclares) }
  ((visitModule note body).run false).2

/-- The names that the expressions of a module refer to without binding them, with a name for each
mention. Names of the module itself count as free here. -/
def freeNames (body : List Statement) : List String :=
  let note : Visitor (StateM (List String)) :=
    { expression := fun bound e => do
        match e with
        | .name id => if bound.contains id then pure () else modify (id :: ·)
        | _ => pure ()
        pure none
      scope := fun _ => pure () }
  ((visitBody note [] body).run []).2

/-- The names that a module lists as exports of its own. -/
def listedNames (body : List Statement) : List String :=
  body.flatMap fun s => match s with
    | .exportNames names none => names.map (·.inner)
    | _ => []

/-- An import without the names that nothing refers to; nothing is left of an import that then brings
in nothing. An import without any name stays. -/
def Statement.prunedImport (used : List String) (s : Statement) : Statement :=
  match s with
  | .importing (some clause) loaded =>
    let pruned : ImportClause :=
      { default? := clause.default?.filter (used.contains ·)
        star? := clause.star?.filter (used.contains ·)
        names? := (clause.names?.map fun names =>
          names.filter fun b => used.contains b.inner).filter (· ≠ []) }
    if clause.bound = [] && !clause.hasTypes then .importing none loaded
    else if pruned.bound = [] then .erased true
    else .importing (some pruned) loaded
  | _ => s

/-- Whether a statement makes its script a module when it is printed. -/
def Statement.isLinked : Statement → Bool
  | .importing .. | .exporting _ | .exportDefault _ | .exportNames .. | .exportAll .. => true
  | _ => false

def Statement.isErasedLink : Statement → Bool
  | .erased linked => linked
  | _ => false

/-- A typed module as a plain one: without the imports that only types refer to. A module that has lost
all its imports and exports exports nothing, so that it stays a module. -/
def plainModule (body : List Statement) : List Statement :=
  let used := freeNames body ++ listedNames body
  let pruned := body.map (·.prunedImport used)
  if pruned.any Statement.isErasedLink && !(pruned.any Statement.isLinked) then
    pruned ++ [.exportNames [] none]
  else pruned

end ModuleGateway.Script
