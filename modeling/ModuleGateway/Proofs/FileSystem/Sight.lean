import ModuleGateway.Proofs.FileSystem.Access

/-!
What the end of a way depends on. A way looks at one place after another, and of each it can only tell
whether something is there and whether that is a file, a link or a directory. Two file systems that
show the same at the places a way looks at lead it to the same end. What files hold does not count, nor
what else there is in the directories it passes.
-/

namespace ModuleGateway

/-- What a way can tell of a node. -/
inductive Outline where
  | file
  | symlink (target : String)
  | directory
  deriving DecidableEq, Repr

namespace Node

def outline : Node → Outline
  | .file _ => .file
  | .symlink target => .symlink target
  | .directory _ => .directory

/-- What a way can tell of the place at a location. -/
def outline? (node : Node) (l : Location) : Option Outline :=
  (node.get? l).map outline

variable {node other : Node} {l x : Location}

theorem outline?_eq_none : node.outline? l = none ↔ node.get? l = none :=
  Option.map_eq_none_iff

theorem outline?_eq_file : node.outline? l = some .file ↔ ∃ data, node.get? l = some (.file data) := by
  rw [outline?, Option.map_eq_some_iff]
  constructor
  · rintro ⟨found, hFound, hOutline⟩
    cases found with
    | file data => exact ⟨data, hFound⟩
    | symlink target => cases hOutline
    | directory entries => cases hOutline
  · rintro ⟨data, hFound⟩
    exact ⟨_, hFound, rfl⟩

theorem outline?_eq_symlink {target : String} :
    node.outline? l = some (.symlink target) ↔ node.get? l = some (.symlink target) := by
  rw [outline?, Option.map_eq_some_iff]
  constructor
  · rintro ⟨found, hFound, hOutline⟩
    cases found with
    | file data => cases hOutline
    | symlink there =>
        cases hOutline
        exact hFound
    | directory entries => cases hOutline
  · exact fun hFound => ⟨_, hFound, rfl⟩

theorem outline?_eq_directory :
    node.outline? l = some .directory ↔ ∃ entries, node.get? l = some (.directory entries) := by
  rw [outline?, Option.map_eq_some_iff]
  constructor
  · rintro ⟨found, hFound, hOutline⟩
    cases found with
    | file data => cases hOutline
    | symlink target => cases hOutline
    | directory entries => exact ⟨entries, hFound⟩
  · rintro ⟨entries, hFound⟩
    exact ⟨_, hFound, rfl⟩

/-- A file in place of another looks the same. -/
theorem outline?_set_file {old new : FileData} (hFile : node.get? l = some (.file old)) (x : Location) :
    (node.set (some (.file new)) l).outline? x = node.outline? x := by
  by_cases hPlace : x = l
  · rw [hPlace, outline?_eq_file.mpr ⟨new, get?_set_file hFile⟩, outline?_eq_file.mpr ⟨old, hFile⟩]
  · rcases get?_set_file_of_ne hFile hPlace with hSame | ⟨before, after, hBefore, hAfter⟩
    · rw [outline?, outline?, hSame]
    · rw [outline?_eq_directory.mpr ⟨after, hAfter⟩, outline?_eq_directory.mpr ⟨before, hBefore⟩]

theorem any_isDirectory : (node.get? l).any isDirectory = (node.outline? l = some .directory) := by
  rw [outline?]
  rcases node.get? l with _ | ⟨_ | _ | _⟩ <;> simp [outline, isDirectory]

theorem any_isFile_iff {found : Option Node} :
    found.any isFile = true ↔ ∃ data, found = some (.file data) := by
  rcases found with _ | ⟨_ | _ | _⟩ <;> simp [isFile]

/-- What is there has something above it. -/
theorem isSome_above (hAbove : l <+: x) (hFound : (node.get? x).isSome) :
    (node.get? l).isSome := by
  obtain ⟨below, rfl⟩ := hAbove
  rw [get?_append] at hFound
  exact Option.isSome_of_isSome_bind hFound

/-- Only a directory has anything below it. -/
theorem directory_above (hAbove : l <+: x) (hProper : l ≠ x) (hFound : (node.get? x).isSome) :
    node.outline? l = some .directory := by
  obtain ⟨below, rfl⟩ := hAbove
  cases below with
  | nil => simp at hProper
  | cons name rest =>
      rw [get?_append] at hFound
      obtain ⟨found, hBelow⟩ := Option.isSome_iff_exists.mp hFound
      obtain ⟨parent, hParent, hChild⟩ := Option.bind_eq_some_iff.mp hBelow
      cases parent with
      | file data => cases hChild
      | symlink target => cases hChild
      | directory entries => exact outline?_eq_directory.mpr ⟨entries, hParent⟩

end Node

namespace FileSystem

variable {before after : Node} {followLast : Bool} {links : Nat} {here : Location}
  {way : List Segment}

/-- The places that a way looks at up to the first link: each directory in which it looks up a name,
and what it finds there. -/
def strideSeen (root : Node) : Location → List Segment → List Location
  | _, [] => []
  | here, .stay :: rest => strideSeen root here rest
  | here, .up :: rest => strideSeen root here.dropLast rest
  | here, .name text :: rest =>
    here :: (here ++ [text]) ::
      match root.get? (here ++ [text]) with
      | some (.directory _) => strideSeen root (here ++ [text]) rest
      | _ => []

/-- The places that a way looks at when links are followed. -/
def travelSeen (root : Node) : Nat → Location → List Segment → List Location
  | links, here, way =>
    strideSeen root here way ++
      match stride root true here way with
      | .ok (.link dir target rest) =>
        match links with
        | 0 => []
        | left + 1 =>
          travelSeen root left (if (⟨target⟩ : Path).isAbsolute then [] else dir)
            (segments ⟨target⟩ ++ rest)
      | _ => []

/-- The places that are looked at to find out where a path leads. -/
def seen (fs : FileSystem) (p : Path) : List Location :=
  travelSeen fs.root linkLimit (fs.origin p) (segments p)

theorem stride_congr (hSame : ∀ l ∈ strideSeen before here way, after.outline? l = before.outline? l) :
    stride after followLast here way = stride before followLast here way := by
  induction way generalizing here with
  | nil => rfl
  | cons segment rest ih =>
      cases segment with
      | stay => exact ih hSame
      | up => exact ih hSame
      | name text =>
          rw [strideSeen, List.forall_mem_cons, List.forall_mem_cons] at hSame
          obtain ⟨hHere, hThere, hRest⟩ := hSame
          have hInside : (after.get? here).any Node.isDirectory =
              (before.get? here).any Node.isDirectory := by
            rw [Bool.eq_iff_iff, Node.any_isDirectory, Node.any_isDirectory, hHere]
          rw [stride, stride, hInside]
          rcases hFound : before.get? (here ++ [text]) with _ | ⟨data | target | entries⟩
          · rw [Node.outline?_eq_none.mp (hThere.trans (Node.outline?_eq_none.mpr hFound))]
          · obtain ⟨now, hNow⟩ := Node.outline?_eq_file.mp
              (hThere.trans (Node.outline?_eq_file.mpr ⟨data, hFound⟩))
            rw [hNow]
          · rw [Node.outline?_eq_symlink.mp
              (hThere.trans (Node.outline?_eq_symlink.mpr hFound))]
          · obtain ⟨now, hNow⟩ := Node.outline?_eq_directory.mp
              (hThere.trans (Node.outline?_eq_directory.mpr ⟨entries, hFound⟩))
            rw [hFound] at hRest
            rw [hNow]
            dsimp only
            rw [ih hRest]

theorem strideSeen_congr
    (hSame : ∀ l ∈ strideSeen before here way, after.outline? l = before.outline? l) :
    strideSeen after here way = strideSeen before here way := by
  induction way generalizing here with
  | nil => rfl
  | cons segment rest ih =>
      cases segment with
      | stay => exact ih hSame
      | up => exact ih hSame
      | name text =>
          rw [strideSeen, List.forall_mem_cons, List.forall_mem_cons] at hSame
          obtain ⟨-, hThere, hRest⟩ := hSame
          rw [strideSeen, strideSeen]
          rcases hFound : before.get? (here ++ [text]) with _ | ⟨data | target | entries⟩
          · rw [Node.outline?_eq_none.mp (hThere.trans (Node.outline?_eq_none.mpr hFound))]
          · obtain ⟨now, hNow⟩ := Node.outline?_eq_file.mp
              (hThere.trans (Node.outline?_eq_file.mpr ⟨data, hFound⟩))
            rw [hNow]
          · rw [Node.outline?_eq_symlink.mp
              (hThere.trans (Node.outline?_eq_symlink.mpr hFound))]
          · obtain ⟨now, hNow⟩ := Node.outline?_eq_directory.mp
              (hThere.trans (Node.outline?_eq_directory.mpr ⟨entries, hFound⟩))
            rw [hFound] at hRest
            rw [hNow]
            dsimp only
            rw [ih hRest]

theorem travel_congr
    (hSame : ∀ l ∈ travelSeen before links here way, after.outline? l = before.outline? l) :
    travel after true links here way = travel before true links here way := by
  induction links using Nat.strongRecOn generalizing here way with
  | ind links ih =>
      rw [travelSeen, List.forall_mem_append] at hSame
      obtain ⟨hStride, hLink⟩ := hSame
      rw [travel, travel, stride_congr hStride]
      rcases hEnd : stride before true here way with e | _ | _ | ⟨dir, target, rest⟩
      · rfl
      · rfl
      · rfl
      · cases links with
        | zero => rfl
        | succ left =>
            rw [hEnd] at hLink
            exact ih left (Nat.lt_succ_self left) hLink

theorem travelSeen_congr
    (hSame : ∀ l ∈ travelSeen before links here way, after.outline? l = before.outline? l) :
    travelSeen after links here way = travelSeen before links here way := by
  induction links using Nat.strongRecOn generalizing here way with
  | ind links ih =>
      rw [travelSeen, List.forall_mem_append] at hSame
      obtain ⟨hStride, hLink⟩ := hSame
      rw [travelSeen, travelSeen, stride_congr hStride, strideSeen_congr hStride]
      rcases hEnd : stride before true here way with e | _ | _ | ⟨dir, target, rest⟩
      · rfl
      · rfl
      · rfl
      · cases links with
        | zero => rfl
        | succ left =>
            rw [hEnd] at hLink
            exact congrArg _ (ih left (Nat.lt_succ_self left) hLink)

/-- A way that is gone to its end passes only what is there. -/
theorem isSome_of_strideSeen {root : Node} {r : Reached} (hHere : (root.get? here).isSome)
    (h : stride root true here way = .ok r) (hEnd : ∀ dir name, r ≠ .vacant dir name) :
    (∀ l ∈ strideSeen root here way, (root.get? l).isSome) ∧
      ∀ dir target rest, r = .link dir target rest → (root.get? dir).isSome := by
  induction way generalizing here with
  | nil =>
      cases h
      simp [strideSeen]
  | cons segment rest ih =>
      cases segment with
      | stay => exact ih hHere h
      | up => exact ih (Node.isSome_above (List.dropLast_prefix here) hHere) h
      | name text =>
          rw [stride] at h
          split at h
          · cases h
          · rw [strideSeen, List.forall_mem_cons, List.forall_mem_cons]
            rcases hFound : root.get? (here ++ [text]) with _ | ⟨data | target | entries⟩
            · rw [hFound] at h
              dsimp only at h
              split at h
              · cases h
                exact absurd rfl (hEnd here text)
              · cases h
            · rw [hFound] at h
              dsimp only at h
              split at h
              · cases h
                simp [hHere]
              · cases h
            · rw [hFound] at h
              simp only [Bool.not_true, Bool.and_false, Bool.false_eq_true, if_false,
                Except.ok.injEq] at h
              subst h
              simp [hHere]
            · rw [hFound] at h
              obtain ⟨hSeen, hLink⟩ := ih (by simp [hFound]) h
              exact ⟨⟨hHere, rfl, hSeen⟩, hLink⟩

theorem isSome_of_travelSeen {root : Node} {l : Location} (hHere : (root.get? here).isSome)
    (h : travel root true links here way = .ok (.node l)) :
    ∀ x ∈ travelSeen root links here way, (root.get? x).isSome := by
  induction links using Nat.strongRecOn generalizing here way with
  | ind links ih =>
      rw [travelSeen, List.forall_mem_append]
      rcases travel_cases h with ⟨found, hStride, hSame⟩ | ⟨dir, name, -, hSame⟩ |
        ⟨dir, target, rest, left, hStride, rfl, hRest⟩
      · rw [hStride]
        refine ⟨(isSome_of_strideSeen hHere hStride (by simp)).1, ?_⟩
        simp
      · cases hSame
      · rw [hStride]
        obtain ⟨hSeen, hLink⟩ := isSome_of_strideSeen hHere hStride (by simp)
        refine ⟨hSeen, ih left (Nat.lt_succ_self left) ?_ hRest⟩
        split
        · rfl
        · exact hLink dir target rest rfl

variable {fs other : FileSystem} {p : Path}

/-- Two file systems that show the same at the places that are looked at agree on where a path leads. -/
theorem locate_congr (hOrigin : other.origin p = fs.origin p)
    (hSame : ∀ l ∈ fs.seen p, other.root.outline? l = fs.root.outline? l) :
    other.locate p = fs.locate p := by
  have hTravel : travel other.root true linkLimit (other.origin p) (segments p) =
      travel fs.root true linkLimit (fs.origin p) (segments p) := by
    rw [hOrigin]
    exact travel_congr hSame
  have hArrive : other.arrive p = fs.arrive p := by
    unfold arrive
    rw [origin, origin] at hTravel
    rw [hTravel]
  rw [locate, locate, hArrive]

theorem canonical_congr (hOrigin : other.origin p = fs.origin p)
    (hSame : ∀ l ∈ fs.seen p, other.root.outline? l = fs.root.outline? l) :
    other.canonical p = fs.canonical p := by
  rw [canonical, canonical, locate_congr hOrigin hSame]

theorem seen_congr (hOrigin : other.origin p = fs.origin p)
    (hSame : ∀ l ∈ fs.seen p, other.root.outline? l = fs.root.outline? l) :
    other.seen p = fs.seen p := by
  rw [seen, seen, hOrigin]
  exact travelSeen_congr hSame

/-- A path that leads anywhere passes only what is there. -/
theorem isSome_of_seen {l : Location} (hStart : (fs.get? (fs.origin p)).isSome)
    (h : fs.locate p = .ok l) : ∀ x ∈ fs.seen p, (fs.get? x).isSome := by
  have hArrive := locate_eq_ok_iff.mp h
  have hNonempty : p.text ≠ "" := by
    intro hEmpty
    simp [arrive, hEmpty] at hArrive
  rw [arrive_of_fits true (fits_of_arrive hArrive) hNonempty] at hArrive
  exact isSome_of_travelSeen hStart hArrive

end FileSystem

end ModuleGateway
