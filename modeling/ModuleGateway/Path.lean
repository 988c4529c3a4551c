import ModuleGateway.Text.Split

/-!
Paths as texts. A path is kept as it was written, because joined paths are shown in errors; what
it means is its list of components. Empty segments and dot segments have no component, apart from
a dot that a relative path starts with. Nothing here looks at a file system.
-/

namespace ModuleGateway

/-- A path as it is written. -/
structure Path where
  text : String
  deriving DecidableEq, Repr

namespace Path

/-- One step of a path. -/
inductive Component where
  /-- The slash an absolute path starts with. -/
  | root
  /-- The dot a relative path starts with. -/
  | here
  /-- Two dots. -/
  | up
  | name (text : String)
  deriving DecidableEq, Repr

def Component.text : Component → String
  | .root => "/"
  | .here => "."
  | .up => ".."
  | .name text => text

/-- The texts between slashes. -/
def segments (p : Path) : List String :=
  (Text.split '/' p.text.toList).map String.ofList

def isAbsolute (p : Path) : Bool :=
  p.text.toList.head? = some '/'

/-- The component of a segment, when it has one. -/
def component? (segment : String) : Option Component :=
  if segment = "" || segment = "." then none
  else if segment = ".." then some .up
  else some (.name segment)

/-- What a path starts with: its root, a leading dot, or nothing. -/
def head (p : Path) : List Component :=
  if p.isAbsolute then [.root]
  else if p.segments.head? = some "." then [.here]
  else []

/-- The steps of a path in order. -/
def components (p : Path) : List Component :=
  p.head ++ p.segments.filterMap component?

/-- The path a list of components is written as. -/
def ofComponents : List Component → Path
  | .root :: rest => ⟨"/" ++ String.intercalate "/" (rest.map Component.text)⟩
  | parts => ⟨String.intercalate "/" (parts.map Component.text)⟩

/-- `q` seen from `p`: `q` itself when it is absolute, otherwise both with one slash between. An
empty `p` adds nothing. -/
@[irreducible]
def join (p q : Path) : Path :=
  if q.isAbsolute || p.text = "" then q
  else if p.text.toList.getLast? = some '/' then ⟨p.text ++ q.text⟩
  else ⟨p.text ++ "/" ++ q.text⟩

/-- The path with text added to its end. -/
def append (p : Path) (suffix : String) : Path :=
  ⟨p.text ++ suffix⟩

/-- The last component, when it is a name. -/
def fileName? (p : Path) : Option String :=
  match p.components.getLast? with
  | some (.name text) => some text
  | _ => none

/-- What follows the last dot of the file name. A name without a dot, or with its only dot in
front, has no extension. -/
def extension? (p : Path) : Option String := do
  let name ← p.fileName?
  let (stem, ext) ← Text.cutLast? '.' name.toList
  if stem = [] then none else some (String.ofList ext)

/-- The segments without the empty and dot segments at their end. -/
def dropIdle (segments : List String) : List String :=
  (segments.reverse.dropWhile fun s => (component? s).isNone).reverse

/-- The path without its last component, as it is written; `none` for the root and the empty
path. -/
def parent? (p : Path) : Option Path :=
  let lead := p.head
  let body := dropIdle (p.segments.drop lead.length)
  match body with
  | [] => if lead = [.here] then some ⟨""⟩ else none
  | _ :: _ =>
    let rest := dropIdle body.dropLast
    let written := String.intercalate "/" rest
    match lead with
    | .root :: _ => some ⟨"/" ++ written⟩
    | .here :: _ => some ⟨if rest = [] then "." else "./" ++ written⟩
    | _ => some ⟨written⟩

/-- One component put on a normal form, whose last component is first; `none` above its start. -/
def normalStep (done : List Component) : Component → Option (List Component)
  | .here => some done
  | .up =>
    match done with
    | .name _ :: rest => some rest
    | _ => none
  | c => some (c :: done)

/-- The components left when dot segments are resolved without a file system; `none` when the path
climbs above its start. -/
def normalize? (steps : List Component) : Option (List Component) :=
  (steps.foldlM normalStep []).map List.reverse

/-- What follows `base` in `target`, when `target` lies below `base` component by component. -/
def below? (base target : List Component) : Option (List Component) :=
  base.isPrefixOf? target

end Path

end ModuleGateway
