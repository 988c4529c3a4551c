import ModuleGateway.Proofs.Package.Locate
import ModuleGateway.Proofs.Relink.Linking

/-!
Relative paths between the modules of a package. Linking turns the file that such a path means into a
specifier of the package, and a request for that specifier looks it up among the package's exports before
it takes it for the path of a file. The path keeps its meaning exactly when the exports name no other
file.
-/

namespace ModuleGateway

namespace Package

/-- The path that a relative specifier in the module stands for, by its text alone. -/
def Located.lexically? (m : Located) (specifier : String) : Option Path := do
  let directory ← m.file.parent?
  let steps ← Path.normalize? (directory.join ⟨specifier⟩).components
  some (Path.ofComponents steps)

/-- A path inside the module's package, seen from the package. -/
def Located.inside? (m : Located) (p : Path) : Option String :=
  (Path.below? m.directory.components p.components).map fun inner => (Path.ofComponents inner).text

variable {m : Located} {specifier inside : String} {p : Path} {directory : Location} {fs : FileSystem}

theorem lexically?_names (h : m.file.isAbsolute = true) (hMeans : m.lexically? specifier = some p) :
    ∃ names : Location, p = names.path ∧ ∀ n ∈ names, Path.IsName n := by
  obtain ⟨parent, hParent, hMeans⟩ := Option.bind_eq_some_iff.mp hMeans
  obtain ⟨steps, hSteps, hMeans⟩ := Option.bind_eq_some_iff.mp hMeans
  obtain ⟨names, rfl, hNames⟩ :=
    Path.normalize?_absolute (Path.isAbsolute_join _ (Path.isAbsolute_parent? h hParent)) hSteps
  obtain rfl := Option.some.inj hMeans
  exact ⟨names, Location.ofComponents_names names, hNames⟩

/-- A path inside the package is made of the names that follow those of the package. -/
theorem inside?_path {names : Location} (hNamed : directory.Named) (hDirectory : m.directory = directory.path)
    (hNames : ∀ n ∈ names, Path.IsName n) (h : m.inside? names.path = some inside) :
    ∃ rest, names = directory ++ rest ∧ inside = String.intercalate "/" rest := by
  obtain ⟨inner, hBelow, rfl⟩ := Option.map_eq_some_iff.mp h
  rw [hDirectory] at hBelow
  obtain ⟨rest, rfl, rfl⟩ := (Location.below?_path (fun n hName => (hNamed n hName).1) hNames).mp hBelow
  exact ⟨rest, rfl, Path.text_ofComponents_names rest⟩

/-- In a package without links, the path of a file in it leads to the place that it is written as. -/
theorem locate_inside {names : Location} {data : FileData} (hUnlinked : fs.Unlinked directory)
    (hThere : ∃ entries, fs.get? directory = some (.directory entries)) (hInside : directory <+: names)
    (hNames : ∀ n ∈ names, Path.IsName n) (hFile : fs.stat names.path = .ok (.file data)) :
    fs.canonical names.path = .ok names ∧ names.Named ∧ fs.get? names = some (.file data) := by
  obtain ⟨entries, hEntries⟩ := hThere
  have hPlain (x : Location) (target : String) (hAbove : x <+: names) :
      fs.get? x ≠ some (.symlink target) := by
    rcases List.prefix_or_prefix_of_prefix hAbove hInside with hUp | hDown
    · by_cases hEnd : x = directory
      · rw [hEnd, hEntries]
        simp
      · have hSome : (fs.get? directory).isSome := by rw [hEntries]; rfl
        obtain ⟨children, hDirectory⟩ :=
          Node.outline?_eq_directory.mp (Node.directory_above hUp hEnd hSome)
        intro hLink
        cases hDirectory.symm.trans hLink
    · exact hUnlinked x target hDown
  obtain ⟨place, hArrive, hFound⟩ := FileSystem.stat_eq_ok_iff.mp hFile
  have hLocate := FileSystem.locate_eq_ok_iff.mpr hArrive
  obtain ⟨rfl, hNamed⟩ := FileSystem.named_of_locate_path hNames hPlain hLocate
  have hShort := (FileSystem.fits_of_arrive hArrive).short
  exact ⟨FileSystem.canonical_eq_ok_iff.mpr ⟨hLocate, hShort⟩, hNamed, hFound⟩

end Package

namespace Relink

open Package (Sources Located)

variable {sources : Sources} {fs : FileSystem} {m : Located} {s r inside : String} {p : Path}
  {directory : Location} {data : FileData}

/-- A relative path inside the package becomes the public path of a specifier of the package. -/
theorem insidePath?_eq (hMeans : m.lexically? r = some p) (hInside : m.inside? p = some inside)
    (hSome : inside ≠ "") (hPlain : '\\' ∉ inside.toList) :
    insidePath? sources m r = some (sources.publicPath (m.package ++ "/" ++ inside)) := by
  obtain ⟨parent, hParent, hMeans⟩ := Option.bind_eq_some_iff.mp hMeans
  obtain ⟨steps, hSteps, hMeans⟩ := Option.bind_eq_some_iff.mp hMeans
  obtain rfl := Option.some.inj hMeans
  obtain ⟨inner, hBelow, rfl⟩ := Option.map_eq_some_iff.mp hInside
  have hNonempty : inner ≠ [] := by
    rintro rfl
    exact hSome (by decide)
  have hKept : ((Path.ofComponents inner).text.toList.map fun c => if c = '\\' then '/' else c) =
      (Path.ofComponents inner).text.toList := by
    refine (List.map_congr_left fun c hMem => if_neg ?_).trans (List.map_id _)
    rintro rfl
    exact hPlain hMem
  have hSpecifier : m.specifierFor? (Path.ofComponents steps) =
      some (m.package ++ "/" ++ (Path.ofComponents inner).text) := by
    unfold Located.specifierFor?
    rw [hBelow, Option.bind_eq_bind, Option.bind_some, if_neg hNonempty, hKept]
    dsimp only
    rw [String.ofList_toList]
  unfold insidePath?
  rw [hParent, Option.bind_eq_bind, Option.bind_some, hSteps, Option.bind_eq_bind, Option.bind_some,
    hSpecifier]
  rfl

/-- Relative paths between the modules of a package without links. The file that one means is linked by
its path in the package, and this path finds it again exactly when the exports of the package name no
other file for it. -/
theorem relative_path_returns (hServable : Specifier.isServable s = true)
    (hLocated : sources.locate? fs s = some m)
    (hDirectory : fs.locate (sources.directory.join ⟨m.package⟩) = .ok directory)
    (hUnlinked : fs.Unlinked directory) (hRelative : Specifier.kind r = .relative)
    (hMeans : m.lexically? r = some p) (hInside : m.inside? p = some inside)
    (hFile : fs.stat p = .ok (.file data)) (hPlain : '\\' ∉ inside.toList) :
    let t := m.package ++ "/" ++ inside
    mapTarget sources fs (.package m) r = pure (some (sources.publicPath t)) ∧
      (sources.locate? fs t = some { m with file := p } ↔
        ∀ file, Package.exportedFile? fs directory inside = some file → file.path = p) := by
  intro t
  obtain ⟨hPlace, ⟨entries, hThere⟩, hNamed, hPackage, hPath⟩ :=
    Package.installed_of_locate? hLocated hDirectory
  have hModule : m.file.isAbsolute = true := by
    obtain ⟨_, l, -, -, -, -, rfl⟩ := Package.locate?_spec hLocated
    exact l.path_isAbsolute
  obtain ⟨names, rfl, hNames⟩ := Package.lexically?_names hModule hMeans
  obtain ⟨rest, rfl, rfl⟩ := Package.inside?_path hNamed hPath hNames hInside
  obtain ⟨hCanonical, -, hFound⟩ := Package.locate_inside hUnlinked ⟨entries, hThere⟩
    (List.prefix_append directory rest) hNames hFile
  have hSome : rest ≠ [] := by
    rintro rfl
    rw [List.append_nil, hThere] at hFound
    cases hFound
  have hRest : ∀ n ∈ rest, Path.IsName n := (List.forall_mem_append.mp hNames).2
  have hText : String.intercalate "/" rest ≠ "" := by
    obtain ⟨c, later, hChars, -⟩ := Location.head_intercalate hSome hRest
    intro hEmpty
    rw [hEmpty] at hChars
    cases hChars
  have hSplit : Specifier.split t = (m.package, some (String.intercalate "/" rest)) := by
    unfold t
    rw [hPackage, Specifier.split_inside hServable hText]
  have hProbe := Package.probe?_names hNamed hSome hRest hCanonical ⟨data, hFound⟩
  refine ⟨by rw [mapTarget_package hRelative, insidePath?_eq hMeans hInside hText hPlain], ?_⟩
  rw [Sources.locate?, Package.locate?_subpath hSplit hPlace (by rw [hThere]; rfl), hProbe]
  have hSame (file : Location) : (⟨m.package, directory.path, file.path⟩ : Located) =
      { m with file := Location.path (directory ++ rest) } ↔
        file.path = Location.path (directory ++ rest) := by
    rw [← hPath]
    simp
  cases Package.exportedFile? fs directory (String.intercalate "/" rest) with
  | none => simp [hPath]
  | some file => simp [hSame]

/-- A package with a module, the helper that it imports, another module, and the given exports. -/
def helperFiles (manifest : String) : FileSystem where
  root := .directory [("node_modules", .directory [("p", .directory
    [("package.json", .file ⟨manifest.toUTF8, 0⟩),
      ("index.js", .file ⟨"import './lib/util.js';".toUTF8, 0⟩),
      ("lib", .directory [("util.js", .file ⟨"export default 1;".toUTF8, 0⟩)]),
      ("other.js", .file ⟨"export default 2;".toUTF8, 0⟩)])])]

def helperSources : Sources :=
  Sources.ofSettings {}

/-- A module of that package. -/
def helperModule (inside : String) : Located :=
  ⟨"p", ⟨"/node_modules/p"⟩, ⟨"/node_modules/p/" ++ inside⟩⟩

theorem helperFiles_unlinked (manifest : String) :
    (helperFiles manifest).Unlinked ["node_modules", "p"] :=
  FileSystem.unlinked_of_linkFree rfl

theorem relative_path_returns_unexported :
    let fs := helperFiles "\x7b\"exports\": \x7b\".\": \"./index.js\"\x7d\x7d"
    mapTarget helperSources fs (.package (helperModule "index.js")) "./lib/util.js" =
        pure (some "/modules/vendor/p/lib/util.js") ∧
      helperSources.locate? fs "p/lib/util.js" = some (helperModule "lib/util.js") := by
  intro fs
  have hServable : Specifier.isServable "p" = true := by decide
  have hLocated : helperSources.locate? fs "p" = some (helperModule "index.js") := by decide +kernel
  have hDirectory : fs.locate (helperSources.directory.join ⟨(helperModule "index.js").package⟩) =
      .ok ["node_modules", "p"] := by decide +kernel
  have hRelative : Specifier.kind "./lib/util.js" = .relative := by decide
  have hMeans : (helperModule "index.js").lexically? "./lib/util.js" =
      some (helperModule "lib/util.js").file := by decide +kernel
  have hInside : (helperModule "index.js").inside? (helperModule "lib/util.js").file =
      some "lib/util.js" := by decide +kernel
  have hFile : fs.stat (helperModule "lib/util.js").file =
      .ok (.file ⟨"export default 1;".toUTF8, 0⟩) := by decide +kernel
  obtain ⟨hLinked, hReturns⟩ := relative_path_returns hServable hLocated hDirectory
    (helperFiles_unlinked _) hRelative hMeans hInside hFile (by decide)
  have hExports : Package.exportedFile? fs ["node_modules", "p"] "lib/util.js" = none := by
    decide +kernel
  refine ⟨hLinked, hReturns.mpr fun file hFile => ?_⟩
  cases hExports.symm.trans hFile

/-- Exports that name another file for the path of the helper take its import away from it: it is linked
by that path, and the path leads to the other file. -/
theorem relative_path_strays :
    let fs := helperFiles
      "\x7b\"exports\": \x7b\".\": \"./index.js\", \"./lib/util.js\": \"./other.js\"\x7d\x7d"
    Specifier.isServable "p" = true ∧
      helperSources.locate? fs "p" = some (helperModule "index.js") ∧
      fs.Unlinked ["node_modules", "p"] ∧
      (helperModule "index.js").lexically? "./lib/util.js" = some (helperModule "lib/util.js").file ∧
      fs.stat (helperModule "lib/util.js").file = .ok (.file ⟨"export default 1;".toUTF8, 0⟩) ∧
      ((mapTarget helperSources fs (.package (helperModule "index.js")) "./lib/util.js").run {}).1 =
        some "/modules/vendor/p/lib/util.js" ∧
      helperSources.locate? fs "p/lib/util.js" = some (helperModule "other.js") := by
  intro fs
  exact ⟨by decide, by decide +kernel, helperFiles_unlinked _, by decide +kernel, by decide +kernel,
    by decide +kernel, by decide +kernel⟩

end Relink

end ModuleGateway
