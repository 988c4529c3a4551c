import ModuleGateway.Script.Module
import ModuleGateway.Script.Scope

/-!
Replacing global names. A definition gives an expression for a name, or for the members of one such as
`process.env.NODE_ENV`. It applies where the name is not bound.
-/

namespace ModuleGateway.Script

/-- An expression for a name and the members behind it. -/
structure Definition where
  path : List String
  value : Expr

/-- The expression that a text starts with. -/
def parseExpression? (text : String) : Option Expr := do
  let limit := text.length + 2
  let context : Context :=
    { dialect := { typed := false, markup := false }, ambient := false, limit }
  let (e, _) ← (grammar limit).expression context (Cursor.ofText text.toList)
  some e

/-- A definition; none when its name is none or its value is no expression. -/
def Definition.ofTexts? (name value : String) : Option Definition := do
  let path := Text.split '.' name.toList
  let value ← parseExpression? value
  if path.all Text.isName then some ⟨path.map String.ofList, value⟩ else none

/-- The name an expression starts from with the members behind it, when it is nothing else. -/
def Expr.path? : Expr → Option (List String)
  | .name id => some [id]
  | .member owner key => owner.path?.map (· ++ [key])
  | .index owner (.text key) => owner.path?.map (· ++ [key])
  | .group e => e.path?
  | _ => none

/-- The expression that a definition gives for another one. -/
def replacement? (definitions : List Definition) (bound : List String) (e : Expr) :
    Option Expr := do
  let path ← e.path?
  let root ← path.head?
  if bound.contains root then none
  else (definitions.find? fun d => d.path = path).map (·.value)

/-- A module with all definitions applied. -/
def applyDefinitions (definitions : List Definition) (body : List Statement) : List Statement :=
  let replace : Visitor Id :=
    { expression := fun bound e => replacement? definitions bound e
      scope := fun _ => () }
  visitModule replace body

end ModuleGateway.Script
