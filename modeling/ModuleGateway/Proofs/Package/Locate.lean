import ModuleGateway.Package.Locate
import ModuleGateway.Proofs.FileSystem.Canonical
import ModuleGateway.Proofs.FileSystem.Sight
import ModuleGateway.Proofs.Specifier.Package

/-!
Where the module of a specifier lies: in a regular file below the directory of its package. Whatever a
manifest names and whatever links are on the way, only the place at the end counts.
-/

namespace ModuleGateway.Package

open FileSystem

variable {fs : FileSystem} {packages : Path} {specifier target : String} {m : Located}
  {directory l : Location} {candidate : Path}

/-- Every path that is tried for a target is absolute. -/
theorem candidates_absolute (h : candidate ∈ candidates directory.path target) :
    candidate.isAbsolute = true := by
  unfold candidates at h
  dsimp only at h
  split at h
  · cases h
  · rename_i steps hNormal
    split at h
    · cases h
    · rename_i hBelow
      have hBase : (Path.ofComponents steps).isAbsolute = true := by
        rw [Bool.not_eq_true, Option.isNone_eq_false_iff, Option.isSome_iff_exists] at hBelow
        obtain ⟨inner, hInner⟩ := hBelow
        obtain rfl := List.isPrefixOf?_eq_some_iff_append_eq.mp hInner
        rw [Path.components, Path.head, if_pos directory.path_isAbsolute]
        simp [Path.ofComponents, Path.isAbsolute]
      simp only [List.mem_cons, List.not_mem_nil, or_false] at h
      rcases h with rfl | rfl | rfl | rfl
      · exact hBase
      · exact Path.isAbsolute_append rfl hBase
      · exact Path.isAbsolute_append rfl hBase
      · exact Path.isAbsolute_join _ hBase

theorem accept?_eq_some_iff :
    accept? fs directory candidate = some l ↔ fs.canonical candidate = .ok l ∧ directory <+: l ∧
      ∃ data, fs.get? l = some (.file data) := by
  unfold accept?
  cases hPlace : fs.canonical candidate with
  | error e => simp
  | ok place =>
      simp only [Option.ite_none_right_eq_some, Bool.and_eq_true, List.isPrefixOf_iff_prefix,
        Node.any_isFile_iff, Except.ok.injEq, Option.some.injEq]
      constructor
      · rintro ⟨⟨hInside, hRegular⟩, rfl⟩
        exact ⟨rfl, hInside, hRegular⟩
      · rintro ⟨rfl, hInside, hRegular⟩
        exact ⟨⟨hInside, hRegular⟩, rfl⟩

/-- The module of a specifier is a regular file below the directory that the package's name leads to. -/
theorem locate?_spec (h : locate? fs packages specifier = some m) :
    ∃ directory l : Location,
      fs.canonical (packages.join ⟨Specifier.packageName specifier⟩) = .ok directory ∧
      directory <+: l ∧ l.Named ∧ (∃ data, fs.get? l = some (.file data)) ∧
      m = ⟨Specifier.packageName specifier, directory.path, l.path⟩ := by
  unfold locate? at h
  dsimp only at h
  split at h
  · cases h
  · rename_i directory hDirectory
    split at h
    · cases h
    · obtain ⟨l, hFound, rfl⟩ := Option.map_eq_some_iff.mp h
      obtain ⟨target, -, hProbed⟩ := List.exists_of_findSome?_eq_some hFound
      obtain ⟨candidate, hCandidate, hAccepted⟩ := List.exists_of_findSome?_eq_some hProbed
      obtain ⟨hCanonical, hInside, hFile⟩ := accept?_eq_some_iff.mp hAccepted
      exact ⟨directory, l, hDirectory, hInside,
        named_of_locate (candidates_absolute hCandidate) (locate_of_canonical hCanonical), hFile, rfl⟩

/-- What a module's specifier was found in is a directory. -/
theorem installed_of_locate? (h : locate? fs packages specifier = some m)
    (hDirectory : fs.locate (packages.join ⟨m.package⟩) = .ok directory) :
    fs.canonical (packages.join ⟨m.package⟩) = .ok directory ∧
      (∃ entries, fs.get? directory = some (.directory entries)) ∧ directory.Named ∧
      m.package = Specifier.packageName specifier ∧ m.directory = directory.path := by
  obtain ⟨place, l, hPlace, hInside, hNamed, -, rfl⟩ := locate?_spec h
  obtain rfl := Except.ok.inj ((locate_of_canonical hPlace).symm.trans hDirectory)
  refine ⟨hPlace, ?_, fun n hName => hNamed n (hInside.subset hName), rfl, rfl⟩
  unfold locate? at h
  dsimp only at h
  rw [← Specifier.packageName, hPlace] at h
  dsimp only at h
  split at h
  · cases h
  · rename_i hThere
    exact Node.directory_of_any (by simpa using hThere)

/-- The file that the exports of the package at `directory` name for a subpath. -/
def exportedFile? (fs : FileSystem) (directory : Location) (subpath : String) : Option Location :=
  (((manifest? fs directory).bind (·.field? "exports")).bind (exported? ("./" ++ subpath))).bind
    (probe? fs directory)

/-- The exports come before the file that a subpath is the path of. -/
theorem locate?_subpath {package subpath : String}
    (hSplit : Specifier.split specifier = (package, some subpath))
    (hDirectory : fs.canonical (packages.join ⟨package⟩) = .ok directory)
    (hThere : (fs.get? directory).any Node.isDirectory = true) :
    locate? fs packages specifier =
      ((exportedFile? fs directory subpath).or (probe? fs directory subpath)).map fun file =>
        ⟨package, directory.path, file.path⟩ := by
  unfold locate?
  rw [hSplit]
  dsimp only
  rw [hDirectory]
  dsimp only
  rw [hThere, subpathTargets, List.findSome?_append, exportedFile?]
  cases ((manifest? fs directory).bind (·.field? "exports")).bind (exported? ("./" ++ subpath)) with
  | none => simp
  | some target => simp

/-- A target made of names is tried as the path of the location that they lead to. -/
theorem probe?_names {names : List String} (hNamed : directory.Named) (hSome : names ≠ [])
    (hNames : ∀ n ∈ names, Path.IsName n)
    (hCanonical : fs.canonical (Location.path (directory ++ names)) = .ok (directory ++ names))
    (hFile : ∃ data, fs.get? (directory ++ names) = some (.file data)) :
    probe? fs directory (String.intercalate "/" names) = some (directory ++ names) := by
  have hDirectory : ∀ n ∈ directory, Path.IsName n := fun n hName => (hNamed n hName).1
  have hWhole : ∀ n ∈ directory ++ names, Path.IsName n :=
    List.forall_mem_append.mpr ⟨hDirectory, hNames⟩
  have hTarget : String.ofList (dropHere (String.intercalate "/" names).toList) =
      String.intercalate "/" names := by
    obtain ⟨c, rest, hText, -, hDot⟩ := Location.head_intercalate hSome hNames
    have hDrop : dropHere (c :: rest) = c :: rest := by
      unfold dropHere
      split
      · rename_i later hHere
        obtain ⟨rfl, rfl⟩ := List.cons.inj hHere
        exact absurd rfl (hDot rfl)
      · rfl
    rw [hText, hDrop, ← hText, String.ofList_toList]
  have hBelow : (Path.below? directory.path.components
      (.root :: (directory ++ names).map .name)).isNone = false := by
    rw [← Location.path_components hWhole,
      (Location.below?_path hDirectory hWhole).mpr ⟨names, rfl, rfl⟩]
    rfl
  have hAccepted : accept? fs directory (Location.path (directory ++ names)) = some (directory ++ names) :=
    accept?_eq_some_iff.mpr ⟨hCanonical, List.prefix_append directory names, hFile⟩
  unfold probe? candidates
  dsimp only
  rw [hTarget, Location.path_join hDirectory hSome hNames, Location.path_components hWhole,
    Path.normalize?_names]
  dsimp only
  rw [hBelow, if_neg (by simp), Location.ofComponents_names, List.findSome?_cons, hAccepted]

/-- Without a directory of packages nothing is installed. -/
theorem locate?_of_missing {top : String} (hTop : Path.IsName top)
    (hMissing : fs.get? (fs.workingDirectory ++ [top]) = none) (specifier : String) :
    locate? fs ⟨top⟩ specifier = none := by
  cases hLocated : locate? fs ⟨top⟩ specifier with
  | none => rfl
  | some m =>
      obtain ⟨directory, l, hDirectory, -⟩ := locate?_spec hLocated
      have hRelative : Path.isAbsolute ⟨Specifier.packageName specifier⟩ = false := by
        simpa [Path.isAbsolute, Specifier.packageName, Specifier.split] using
          Specifier.splitText_head specifier.toList
      have hLead : Path.lead ⟨top⟩ = top ++ "/" := by
        have hLast : top.toList.getLast? ≠ some '/' := fun h =>
          hTop.noSlash (List.mem_of_getLast? h)
        rw [Path.lead, if_neg hTop.nonempty, if_neg hLast]
      have hPath : (Path.mk top).join ⟨Specifier.packageName specifier⟩ =
          ⟨top ++ "/" ++ Specifier.packageName specifier⟩ := by
        rw [Path.mk.injEq, Path.join_of_relative _ hRelative, hLead]
      rw [hPath] at hDirectory
      exact absurd (locate_of_canonical hDirectory) (locate_in_missing hTop hMissing)

end ModuleGateway.Package
