/-!
JSON values. An object keeps one value for each key, in ascending order of the keys.
-/

namespace ModuleGateway.Json

/-- A JSON value. A number keeps the digits it was written with. -/
inductive Value where
  | null
  | boolean (value : Bool)
  | number (written : String)
  | text (value : String)
  | array (items : List Value)
  | object (fields : List (String × Value))

/-- Fields with one put at its place; it takes the place of a field of the same name. -/
def insertField (key : String) (value : Value) :
    List (String × Value) → List (String × Value)
  | [] => [(key, value)]
  | (k, v) :: rest =>
    if key < k then (key, value) :: (k, v) :: rest
    else if key = k then (key, value) :: rest
    else (k, v) :: insertField key value rest

/-- The field of an object; nothing else has fields. -/
def Value.field? (v : Value) (key : String) : Option Value :=
  match v with
  | .object fields => fields.lookup key
  | _ => none

end ModuleGateway.Json
