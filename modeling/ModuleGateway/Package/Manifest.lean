import ModuleGateway.Json.Read
import ModuleGateway.Text.Split

/-!
The modules a package offers, as its manifest names them. The field `exports` maps subpaths to
targets, directly or by a pattern with a star, and a target may depend on conditions.
-/

namespace ModuleGateway.Package

open Json (Value)

/-- The conditions under which a target applies, the preferred one first. -/
def conditions : List String :=
  ["browser", "import", "module", "default"]

mutual
/-- The target a value names: a text, the first condition that holds and has a target, or the first
item that has one. -/
def target? (value : Value) : Option String :=
  match value with
  | .text t => some t
  | .object fields =>
    let targets := fieldTargets fields
    conditions.findSome? fun condition => (targets.lookup condition).join
  | .array items => itemTarget? items
  | _ => none

/-- The target each field has, if any. -/
def fieldTargets (fields : List (String × Value)) : List (String × Option String) :=
  match fields with
  | [] => []
  | (key, value) :: rest => (key, target? value) :: fieldTargets rest

/-- The target of the first item that has one. -/
def itemTarget? (items : List Value) : Option String :=
  match items with
  | [] => none
  | item :: rest => (target? item).or (itemTarget? rest)
end

/-- The text that the star of a pattern stands for in `key`. -/
def starText? (pattern key : String) : Option (List Char) := do
  let (before, after) ← Text.cut? '*' pattern.toList
  let rest ← Text.after? before key.toList
  Text.before? after rest

/-- The target with a text in place of every star. -/
def fillStars (target : String) (text : List Char) : String :=
  String.ofList (Text.replaceAll ['*'] text target.toList)

/-- The target of the first pattern that matches `key` and has one. -/
def patternTarget? (key : String) (fields : List (String × Value)) : Option String :=
  fields.findSome? fun (pattern, value) => do
    let text ← starText? pattern key
    let target ← target? value
    some (fillStars target text)

/-- Whether the fields are subpaths rather than conditions. -/
def areSubpaths (fields : List (String × Value)) : Bool :=
  fields.any fun (key, _) => key.toList.head? = some '.'

mutual
/-- The target that an `exports` value has for `key`, which is a dot for the package itself and
starts with `./` for a subpath. -/
def exported? (key : String) (value : Value) : Option String :=
  match value with
  | .text t => if key = "." then some t else none
  | .object fields =>
    if areSubpaths fields then
      match fields.lookup key with
      | some found => target? found
      | none => patternTarget? key fields
    else if key = "." then target? (.object fields)
    else none
  | .array items => exportedItem? key items
  | _ => none

/-- The target of the first item that has one for `key`. -/
def exportedItem? (key : String) (items : List Value) : Option String :=
  match items with
  | [] => none
  | item :: rest => (exported? key item).or (exportedItem? key rest)
end

/-- The fields that name the main module, the preferred one first. -/
def mainFields : List String :=
  ["module", "browser", "main"]

/-- The targets of the package itself in the order they are tried. -/
def mainTargets (manifest : Option Value) : List String :=
  let exports := (manifest.bind (·.field? "exports")).bind (exported? ".")
  let named := mainFields.filterMap fun field =>
    match manifest.bind (·.field? field) with
    | some (.text t) => some t
    | _ => none
  exports.toList ++ named ++ ["index.js"]

/-- The targets of a subpath in the order they are tried. -/
def subpathTargets (manifest : Option Value) (subpath : String) : List String :=
  let exports := (manifest.bind (·.field? "exports")).bind (exported? ("./" ++ subpath))
  exports.toList ++ [subpath]

end ModuleGateway.Package
