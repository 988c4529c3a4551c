import ModuleGateway.FileSystem.Tree

/-!
Where a path leads. Names are looked up one after another; two dots go to the parent of the
directory reached so far, also when that was reached through a link; every segment needs a
directory to stand in. At most forty links are followed.
-/

namespace ModuleGateway

/-- Why an operation on files fails. -/
inductive FileError where
  | noEntry
  | exists
  | notDirectory
  | isDirectory
  | nameTooLong
  | tooManyLinks
  | nulInName
  | notText
  deriving DecidableEq, Repr

/-- The text of a file error. -/
def FileError.message : FileError → String
  | .noEntry => "No such file or directory (os error 2)"
  | .exists => "File exists (os error 17)"
  | .notDirectory => "Not a directory (os error 20)"
  | .isDirectory => "Is a directory (os error 21)"
  | .nameTooLong => "File name too long (os error 36)"
  | .tooManyLinks => "Too many levels of symbolic links (os error 40)"
  | .nulInName => "file name contained an unexpected NUL byte"
  | .notText => "stream did not contain valid UTF-8"

namespace FileSystem

/-- One segment of a path. An empty segment at the end is one too: it asks for a directory. -/
inductive Segment where
  | stay
  | up
  | name (text : String)
  deriving DecidableEq, Repr

def Segment.ofText (text : String) : Segment :=
  if text = "" || text = "." then .stay else if text = ".." then .up else .name text

/-- The segments of a path. Slashes in a row count as one, and a leading slash is not a segment. -/
def segments (p : Path) : List Segment :=
  match p.segments with
  | first :: rest =>
    let last := rest.getLast?.toList
    let kept := (first :: rest.dropLast).filter (· ≠ "")
    (kept ++ last).map Segment.ofText
  | [] => []

/-- The longest name, in bytes. -/
def nameLimit : Nat := 255

/-- The longest path, in bytes. -/
def pathLimit : Nat := 4095

/-- The most links followed on one way. -/
def linkLimit : Nat := 40

/-- Where a way ends that meets no link, or the link it meets. -/
inductive Reached where
  | node (location : Location)
  /-- The last name does not exist in an existing directory. -/
  | vacant (directory : Location) (name : String)
  | link (directory : Location) (target : String) (rest : List Segment)
  deriving DecidableEq, Repr

/-- Goes from the directory `here` along `way`, up to the first link. A link in last place is
itself the end when `followLast` is off. -/
def stride (root : Node) (followLast : Bool) : Location → List Segment → Except FileError Reached
  | here, [] => .ok (.node here)
  | here, .stay :: rest => stride root followLast here rest
  | here, .up :: rest => stride root followLast here.dropLast rest
  | here, .name text :: rest =>
    if nameLimit < text.utf8ByteSize then .error .nameTooLong
    else
      match root.get? (here ++ [text]) with
      | none =>
        if rest = [] && (root.get? here).any Node.isDirectory then .ok (.vacant here text)
        else .error .noEntry
      | some (.symlink target) =>
        if rest = [] && !followLast then .ok (.node (here ++ [text]))
        else .ok (.link here target rest)
      | some (.file _) =>
        if rest = [] then .ok (.node (here ++ [text])) else .error .notDirectory
      | some (.directory _) => stride root followLast (here ++ [text]) rest

/-- Where a way ends when links are followed. -/
inductive Arrival where
  | node (location : Location)
  | vacant (directory : Location) (name : String)
  deriving DecidableEq, Repr

/-- Goes along `way` and follows at most `links` links. -/
def travel (root : Node) (followLast : Bool) : Nat → Location → List Segment →
    Except FileError Arrival
  | links, here, way =>
    match stride root followLast here way with
    | .error e => .error e
    | .ok (.node l) => .ok (.node l)
    | .ok (.vacant dir name) => .ok (.vacant dir name)
    | .ok (.link dir target rest) =>
      match links with
      | 0 => .error .tooManyLinks
      | left + 1 =>
        let target : Path := ⟨target⟩
        travel root followLast left (if target.isAbsolute then [] else dir)
          (segments target ++ rest)

/-- Where a path leads. -/
def arrive (fs : FileSystem) (p : Path) (followLast : Bool := true) : Except FileError Arrival :=
  if p.text.toList.contains '\x00' then .error .nulInName
  else if p.text = "" then .error .noEntry
  else if pathLimit < p.text.utf8ByteSize then .error .nameTooLong
  else
    travel fs.root followLast linkLimit (if p.isAbsolute then [] else fs.workingDirectory)
      (segments p)

/-- The location a path leads to, which has to exist. -/
def locate (fs : FileSystem) (p : Path) (followLast : Bool := true) :
    Except FileError Location :=
  match fs.arrive p followLast with
  | .ok (.node l) => .ok l
  | .ok (.vacant ..) => .error .noEntry
  | .error e => .error e

/-- The location a path leads to when it can be told by a path of its own, which must not be too long. -/
def canonical (fs : FileSystem) (p : Path) : Except FileError Location :=
  match fs.locate p with
  | .ok l => if pathLimit < l.path.text.utf8ByteSize then .error .nameTooLong else .ok l
  | .error e => .error e

theorem canonical_eq_ok_iff {fs : FileSystem} {p : Path} {l : Location} :
    fs.canonical p = .ok l ↔ fs.locate p = .ok l ∧ l.path.text.utf8ByteSize ≤ pathLimit := by
  unfold canonical
  cases fs.locate p with
  | error e => simp
  | ok place =>
      dsimp only
      by_cases hLong : pathLimit < place.path.text.utf8ByteSize
      · rw [if_pos hLong]
        constructor
        · intro h
          cases h
        · intro ⟨hPlace, hShort⟩
          cases hPlace
          exact absurd hShort (Nat.not_le.mpr hLong)
      · rw [if_neg hLong]
        constructor
        · intro h
          cases h
          exact ⟨rfl, Nat.not_lt.mp hLong⟩
        · exact And.left

theorem locate_of_canonical {fs : FileSystem} {p : Path} {l : Location} (h : fs.canonical p = .ok l) :
    fs.locate p = .ok l :=
  (canonical_eq_ok_iff.mp h).1

end FileSystem

end ModuleGateway
