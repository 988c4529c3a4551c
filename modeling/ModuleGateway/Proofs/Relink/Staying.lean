import ModuleGateway.Proofs.Relink.Relative
import ModuleGateway.Proofs.Specifier.Servable

/-!
Where relative paths lead from the modules of a package. What one is linked to is a specifier of the same
package, and a request may use it. Nothing is linked where the path climbs too far, leads out of the
package or means the package's directory itself.
-/

namespace ModuleGateway

open Specifier (Clean)

namespace Package

/-- A relative path in a module that does not lead to anything inside of the package. -/
inductive Located.Leaves (m : Located) (r : String) : Prop where
  /-- It climbs above the top of the file system. -/
  | climbs {parent : Path} (inside : m.file.parent? = some parent)
      (above : Path.normalize? (parent.join ⟨r⟩).components = none)
  | outside {p : Path} (means : m.lexically? r = some p) (out : m.inside? p = none)
  /-- It means the directory of the package. -/
  | itself (means : m.lexically? r = some m.directory)

variable {fs : FileSystem} {packages p : Path} {s r : String} {m : Located} {directory : Location}

/-- A module lies behind the names of its package's directory. -/
theorem locate?_names (h : locate? fs packages s = some m) :
    ∃ (directory : Location) (front : List String) (last : String),
      m.package = Specifier.packageName s ∧ m.directory = directory.path ∧
      m.file = Location.path (directory ++ front ++ [last]) ∧ directory.Named ∧
      ∀ n ∈ directory ++ front ++ [last], Path.IsName n := by
  obtain ⟨directory, l, hDirectory, ⟨inner, rfl⟩, hNamed, ⟨data, hFile⟩, rfl⟩ := locate?_spec h
  obtain ⟨-, ⟨entries, hThere⟩, hOwn, -⟩ :=
    installed_of_locate? h (FileSystem.locate_of_canonical hDirectory)
  rcases List.eq_nil_or_concat inner with rfl | ⟨front, last, rfl⟩
  · rw [List.append_nil, hThere] at hFile
    cases hFile
  · rw [List.concat_eq_append, ← List.append_assoc] at hNamed ⊢
    exact ⟨directory, front, last, rfl, rfl, rfl, hOwn, fun n hName => (hNamed n hName).1⟩

theorem isAbsolute_of_relative (hRelative : Specifier.kind r = .relative) :
    (Path.mk r).isAbsolute = false := by
  rw [Path.isAbsolute, decide_eq_false_iff_not]
  intro hSlash
  obtain ⟨rest, hText⟩ := List.head?_eq_some_iff.mp hSlash
  rw [Specifier.kind, hText] at hRelative
  cases hRelative

/-- What a relative path means lies behind some of the names above the module, and behind these come
names of the path. -/
theorem lexically?_above {front : Location} {last : String}
    (hFile : m.file = Location.path (front ++ [last])) (hNames : ∀ n ∈ front ++ [last], Path.IsName n)
    (hRelative : Specifier.kind r = .relative) (hMeans : m.lexically? r = some p) :
    ∃ above added : List String, above <+: front ∧ p = Location.path (above ++ added) ∧
      ∀ n ∈ added, Path.IsName n ∧ n ∈ (Path.mk r).segments := by
  obtain ⟨parent, hParent, hMeans⟩ := Option.bind_eq_some_iff.mp hMeans
  obtain ⟨steps, hSteps, hMeans⟩ := Option.bind_eq_some_iff.mp hMeans
  obtain rfl := Option.some.inj hMeans
  rw [hFile, Location.parent?_path hNames] at hParent
  obtain rfl := Option.some.inj hParent
  have hText : front.path.text ≠ "" := by simp [Location.path]
  rw [Path.components_join_named hText (isAbsolute_of_relative hRelative),
    Location.path_components (List.forall_mem_append.mp hNames).1] at hSteps
  have hMore : ∀ step ∈ (Path.mk r).segments.filterMap Path.component?,
      step = .up ∨ ∃ n, step = .name n ∧ Path.IsName n ∧ n ∈ (Path.mk r).segments := by
    intro step hStep
    rcases Path.step_of_segments hStep with hUp | ⟨n, hMem, hOwn, hName⟩
    · exact .inl hUp
    · exact .inr ⟨n, hOwn, hName, hMem⟩
  obtain ⟨above, added, hAbove, rfl, hAdded⟩ := Path.normalize?_behind hMore hSteps
  exact ⟨above, added, hAbove, Location.ofComponents_names _, hAdded⟩

/-- Of names behind which others were put, those behind the directory stood there or were put. -/
theorem mem_of_append {directory front above added rest : List String}
    (hAbove : above <+: directory ++ front) (hWhole : directory ++ rest = above ++ added) :
    ∀ n ∈ rest, n ∈ front ∨ n ∈ added := by
  intro n hMem
  rcases List.append_eq_append_iff.mp hWhole with ⟨more, rfl, rfl⟩ | ⟨more, rfl, rfl⟩
  · rcases List.mem_append.mp hMem with hMore | hAdded
    · exact .inl (((List.prefix_append_right_inj directory).mp hAbove).subset hMore)
    · exact .inr hAdded
  · exact .inr (List.mem_append_right _ hMem)

theorem inside?_names {rest : List String} (hNames : ∀ n ∈ directory ++ rest, Path.IsName n)
    (hDirectory : m.directory = directory.path) :
    m.inside? (Location.path (directory ++ rest)) = some (String.intercalate "/" rest) := by
  have hOwn := (List.forall_mem_append.mp hNames).1
  rw [Located.inside?, hDirectory, (Location.below?_path hOwn hNames).mpr ⟨rest, rfl, rfl⟩,
    Option.map_some, Path.text_ofComponents_names]

/-- What does not leave the package lies in it, by names that the module's path has or the relative one. -/
theorem inside_of_stays (hLocated : locate? fs packages s = some m)
    (hModule : ∀ inside, m.inside? m.file = some inside → Clean inside)
    (hRelative : Specifier.kind r = .relative) (hClean : Clean r) (hStays : ¬ m.Leaves r) :
    ∃ p rest, m.lexically? r = some p ∧ rest ≠ [] ∧
      m.inside? p = some (String.intercalate "/" rest) ∧ ∀ n ∈ rest, Path.IsName n ∧ Clean n := by
  obtain ⟨directory, front, last, -, hDirectory, hFile, hNamed, hNames⟩ := locate?_names hLocated
  have hOwn : ∀ n ∈ directory ++ front, Path.IsName n := (List.forall_mem_append.mp hNames).1
  have hParent : m.file.parent? = some (Location.path (directory ++ front)) := by
    rw [hFile, Location.parent?_path hNames]
  -- The names of the module's path behind its package are clean, since the text of all of them is.
  have hFront : ∀ n ∈ front, Clean n := by
    intro n hMem
    rw [List.append_assoc] at hFile hNames
    have hInside := hModule _ (hFile ▸ inside?_names hNames hDirectory)
    have hFree : ∀ n ∈ front ++ [last], '/' ∉ n.toList := fun n hName =>
      ((List.forall_mem_append.mp hNames).2 n hName).noSlash
    refine Path.only_segments (p := ⟨String.intercalate "/" (front ++ [last])⟩) hInside n ?_
    rw [Path.segments_intercalate (by simp) hFree]
    exact List.mem_append_left _ hMem
  cases hMeans : m.lexically? r with
  | none =>
      refine absurd (.climbs hParent ?_) hStays
      refine Option.eq_none_iff_forall_ne_some.mpr fun steps hSteps => ?_
      simp [Located.lexically?, hParent, hSteps] at hMeans
  | some p =>
      obtain ⟨above, added, hAbove, rfl, hAdded⟩ := lexically?_above hFile hNames hRelative hMeans
      have hWhole : ∀ n ∈ above ++ added, Path.IsName n := List.forall_mem_append.mpr
        ⟨fun n hMem => hOwn n (hAbove.subset hMem), fun n hMem => (hAdded n hMem).1⟩
      cases hInside : m.inside? (Location.path (above ++ added)) with
      | none => exact absurd (.outside hMeans hInside) hStays
      | some inside =>
          obtain ⟨rest, hRest, rfl⟩ := inside?_path hNamed hDirectory hWhole hInside
          refine ⟨_, rest, rfl, ?_, hInside, fun n hMem => ⟨?_, ?_⟩⟩
          · rintro rfl
            refine hStays (.itself ?_)
            rw [hMeans, hRest, List.append_nil, hDirectory]
          · exact hWhole n (hRest ▸ List.mem_append_right _ hMem)
          · rcases mem_of_append hAbove hRest.symm n hMem with hKept | hPut
            · exact hFront n hKept
            · exact Path.only_segments (p := ⟨r⟩) hClean n (hAdded n hPut).2

end Package

namespace Relink

open Package (Sources Located)

variable {sources : Sources} {fs : FileSystem} {m : Located} {s r : String}

theorem insidePath?_of_leaves (h : m.Leaves r) : insidePath? sources m r = none := by
  unfold insidePath?
  cases h with
  | climbs hParent hAbove => simp [hParent, hAbove]
  | @outside p hMeans hOut =>
      obtain ⟨parent, hParent, hMeans⟩ := Option.bind_eq_some_iff.mp hMeans
      obtain ⟨steps, hSteps, hMeans⟩ := Option.bind_eq_some_iff.mp hMeans
      obtain rfl := Option.some.inj hMeans
      have hBelow := Option.map_eq_none_iff.mp hOut
      simp [hParent, hSteps, Located.specifierFor?, hBelow]
  | itself hMeans =>
      obtain ⟨parent, hParent, hMeans⟩ := Option.bind_eq_some_iff.mp hMeans
      obtain ⟨steps, hSteps, hMeans⟩ := Option.bind_eq_some_iff.mp hMeans
      have hSame := Option.some.inj hMeans
      have hBelow : Path.below? m.directory.components m.directory.components = some [] :=
        List.isPrefixOf?_eq_some_iff_append_eq.mpr (List.append_nil _)
      simp [hParent, hSteps, Located.specifierFor?, hSame, hBelow]

/-- A relative path in a module of a package becomes the public path of a specifier of the same package,
and one that a request may use, unless it leaves the package. -/
theorem relative_path_stays (hServable : Specifier.isServable s = true)
    (hLocated : sources.locate? fs s = some m)
    (hModule : ∀ inside, m.inside? m.file = some inside → Clean inside)
    (hRelative : Specifier.kind r = .relative) (hClean : Clean r) :
    ∃ answer, mapTarget sources fs (.package m) r = pure answer ∧ (answer = none ↔ m.Leaves r) ∧
      ∀ path, answer = some path → ∃ t inside, path = sources.publicPath t ∧
        Specifier.isServable t = true ∧ Specifier.packageName t = Specifier.packageName s ∧
        Specifier.split t = (Specifier.packageName s, some inside) ∧
        ∀ n ∈ (Path.mk inside).segments, Path.IsName n := by
  by_cases hLeaves : m.Leaves r
  · exact ⟨none, by rw [mapTarget_package hRelative, insidePath?_of_leaves hLeaves], by simp [hLeaves],
      by simp⟩
  · obtain ⟨p, rest, hMeans, hRest, hInside, hNames⟩ :=
      Package.inside_of_stays hLocated hModule hRelative hClean hLeaves
    have hPackage : m.package = Specifier.packageName s := by
      obtain ⟨directory, front, last, hOwn, -⟩ := Package.locate?_names hLocated
      exact hOwn
    have hSegments : (Path.mk (String.intercalate "/" rest)).segments = rest :=
      Path.segments_intercalate hRest fun n hMem => (hNames n hMem).1.noSlash
    have hPlain : Clean (String.intercalate "/" rest) :=
      Path.only_intercalate (by decide) fun n hMem => (hNames n hMem).2
    have hSome : String.intercalate "/" rest ≠ "" := by
      intro hEmpty
      rw [hEmpty, show (Path.mk "").segments = [""] from by decide] at hSegments
      exact (hNames "" (by simp [← hSegments])).1.nonempty rfl
    have hSplit := Specifier.split_inside hServable hSome
    have hTarget : ∀ n ∈ (Path.mk (String.intercalate "/" rest)).segments, Path.IsName n := by
      rw [hSegments]
      exact fun n hMem => (hNames n hMem).1
    have hAnswer : insidePath? sources m r = _ :=
      insidePath?_eq hMeans hInside hSome (Specifier.clean_iff.mp hPlain).1
    refine ⟨_, mapTarget_package hRelative, by simp [hAnswer, hLeaves], fun path hPath => ?_⟩
    rw [hAnswer, hPackage] at hPath
    obtain rfl := Option.some.inj hPath
    refine ⟨_, _, rfl, ?_, ?_, hSplit, hTarget⟩
    · exact Specifier.isServable_iff.mpr ((Specifier.isServable_iff.mp hServable).inside hPlain hTarget)
    · rw [Specifier.packageName, hSplit]

/-- A path that leads into a directory with a longer name is left alone, and one that leads out of the
package and back is linked. -/
theorem relative_path_stays_beside :
    let fs := helperFiles "\x7b\x7d"
    let m := helperModule "index.js"
    mapTarget helperSources fs (.package m) "../p2/lib/util.js" = pure none ∧
      ∃ t, mapTarget helperSources fs (.package m) "../p/lib/util.js" =
          pure (some (helperSources.publicPath t)) ∧
        Specifier.isServable t = true ∧ Specifier.packageName t = Specifier.packageName "p" := by
  intro fs m
  have hServable : Specifier.isServable "p" = true := by decide
  have hLocated : helperSources.locate? fs "p" = some m := by decide +kernel
  have hModule : ∀ inside, m.inside? m.file = some inside → Clean inside := by
    have hOwn : m.inside? m.file = some "index.js" := by decide +kernel
    intro inside hInside
    obtain rfl := Option.some.inj (hOwn.symm.trans hInside)
    exact Specifier.clean_iff.mpr (by decide)
  constructor
  · have hMeans : m.lexically? "../p2/lib/util.js" = some ⟨"/node_modules/p2/lib/util.js"⟩ := by
      decide +kernel
    have hOut : m.inside? ⟨"/node_modules/p2/lib/util.js"⟩ = none := by decide +kernel
    obtain ⟨answer, hMapped, hLeaves, -⟩ := relative_path_stays hServable hLocated hModule
      (by decide : Specifier.kind "../p2/lib/util.js" = .relative) (Specifier.clean_iff.mpr (by decide))
    rw [hMapped, hLeaves.mpr (.outside hMeans hOut)]
  · obtain ⟨answer, hMapped, -, hLinked⟩ := relative_path_stays hServable hLocated hModule
      (by decide : Specifier.kind "../p/lib/util.js" = .relative) (Specifier.clean_iff.mpr (by decide))
    have hAnswer : ((mapTarget helperSources fs (.package m) "../p/lib/util.js").run {}).1 =
        some "/modules/vendor/p/lib/util.js" := by decide +kernel
    rw [hMapped] at hAnswer
    obtain ⟨t, inside, hPath, hTarget, hPackage, -⟩ := hLinked _ hAnswer
    refine ⟨t, ?_, hTarget, hPackage⟩
    rw [hMapped, ← hPath]
    exact congrArg pure hAnswer

end Relink

end ModuleGateway
