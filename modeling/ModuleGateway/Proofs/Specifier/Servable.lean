import ModuleGateway.Proofs.Path
import ModuleGateway.Proofs.Specifier.Package

/-!
The specifiers that a request may use, by their parts. Acceptance looks at the characters, at the scheme,
at the parts between slashes and at the name of the package, each time at another way to cut the text.
Here all of them are put in terms of the package and of what stands behind it.
-/

namespace ModuleGateway.Specifier

open Text

variable {specifier sub : String}

/-- A text without backslashes and NUL, which no specifier in a request holds. -/
def Clean (text : String) : Prop :=
  Path.Only (fun c => c ≠ '\\' ∧ c ≠ '\x00') text

/-- What a specifier in a request is. -/
structure Servable (specifier : String) : Prop where
  clean : Clean specifier
  bare : kind specifier = .bare
  names : ∀ n ∈ (Path.mk specifier).segments, Path.IsName n
  package : isPackageName (packageName specifier).toList = true

/-! ### Acceptance -/

theorem clean_iff {text : String} : Clean text ↔ '\\' ∉ text.toList ∧ '\x00' ∉ text.toList := by
  constructor
  · exact fun h => ⟨fun hMem => (h _ hMem).1 rfl, fun hMem => (h _ hMem).2 rfl⟩
  · rintro ⟨hBackslash, hNul⟩ c hMem
    exact ⟨fun h => hBackslash (h ▸ hMem), fun h => hNul (h ▸ hMem)⟩

theorem isPlainSegment_iff {segment : List Char} (hFree : '/' ∉ segment) :
    isPlainSegment segment = true ↔ Path.IsName (String.ofList segment) := by
  have hDot : String.ofList segment = "." ↔ segment = ['.'] := by
    rw [← String.toList_inj, String.toList_ofList]
    rfl
  have hDots : String.ofList segment = ".." ↔ segment = ['.', '.'] := by
    rw [← String.toList_inj, String.toList_ofList]
    rfl
  simp only [isPlainSegment, Bool.not_eq_true', Bool.or_eq_false_iff, decide_eq_false_iff_not]
  constructor
  · rintro ⟨⟨hSome, hOne⟩, hTwo⟩
    exact ⟨by simpa using hSome, by simpa using hFree, hDot.not.mpr hOne, hDots.not.mpr hTwo⟩
  · rintro ⟨hSome, -, hOne, hTwo⟩
    exact ⟨⟨by simpa using hSome, hDot.not.mp hOne⟩, hDots.not.mp hTwo⟩

theorem all_isPlainSegment_iff :
    (Text.split '/' specifier.toList).all isPlainSegment = true ↔
      ∀ n ∈ (Path.mk specifier).segments, Path.IsName n := by
  rw [List.all_eq_true, Path.segments, List.forall_mem_map]
  exact forall₂_congr fun part hPart => isPlainSegment_iff (not_mem_of_mem_split hPart)

theorem isServable_iff : isServable specifier = true ↔ Servable specifier := by
  have hPackage : (packageName specifier).toList = (splitText specifier.toList).1 := by
    simp [packageName, Specifier.split]
  simp only [isServable, Bool.and_eq_true, decide_eq_true_eq, Bool.not_eq_true',
    List.contains_eq_mem, decide_eq_false_iff_not, all_isPlainSegment_iff, ← hPackage]
  constructor
  · rintro ⟨⟨⟨⟨⟨-, hBackslash⟩, hNul⟩, hBare⟩, hNames⟩, hName⟩
    exact ⟨clean_iff.mpr ⟨hBackslash, hNul⟩, hBare, hNames, hName⟩
  · rintro ⟨hClean, hBare, hNames, hName⟩
    obtain ⟨hBackslash, hNul⟩ := clean_iff.mp hClean
    refine ⟨⟨⟨⟨⟨fun hNil => ?_, hBackslash⟩, hNul⟩, hBare⟩, hNames⟩, hName⟩
    exact (hNames "" (by simp [Path.segments, hNil, Text.split])).nonempty rfl

/-! ### Schemes -/

theorem kind_eq_bare_iff :
    kind specifier = .bare ↔ isRelative specifier.toList = false ∧
      specifier.toList.head? ≠ some '/' ∧ hasScheme specifier.toList = false := by
  unfold kind
  dsimp only
  split_ifs <;> simp_all

theorem isRelative_of_head {text : List Char} (h : text.head? ≠ some '.') :
    isRelative text = false := by
  unfold isRelative
  split <;> simp_all

/-- There are no slashes in a scheme. -/
theorem isScheme_of_slash {text : List Char} (h : '/' ∈ text) : isScheme text = false := by
  cases text with
  | nil => cases h
  | cons c rest =>
      rw [isScheme, Bool.and_eq_false_iff]
      rcases List.mem_cons.mp h with rfl | hRest
      · exact .inl (by decide)
      · refine .inr (Bool.eq_false_iff.mpr fun hAll => ?_)
        exact absurd (List.all_eq_true.mp hAll '/' hRest) (by decide)

/-- What follows a slash does not make a scheme of what stands before it. -/
theorem hasScheme_append (name sub : List Char) : hasScheme (name ++ '/' :: sub) = hasScheme name := by
  cases hName : cut? ':' name with
  | some parts =>
      obtain ⟨scheme, rest⟩ := parts
      obtain ⟨rfl, hFree⟩ := cut?_eq_some_iff.mp hName
      have hWhole : cut? ':' (scheme ++ ':' :: rest ++ '/' :: sub) =
          some (scheme, rest ++ '/' :: sub) := by
        rw [List.append_assoc]
        exact cut?_append hFree
      simp only [hasScheme, hName, hWhole]
  | none =>
      have hFree := cut?_eq_none_iff.mp hName
      have hSecond : hasScheme name = false := by simp only [hasScheme, hName]
      rw [hSecond]
      cases hWhole : cut? ':' (name ++ '/' :: sub) with
      | none => simp only [hasScheme, hWhole]
      | some parts =>
          obtain ⟨scheme, rest⟩ := parts
          obtain ⟨hText, -⟩ := cut?_eq_some_iff.mp hWhole
          -- The colon stands behind the slash, so the slash is in what stands before the colon.
          have hSlash : '/' ∈ scheme := by
            rcases List.append_eq_append_iff.mp hText with
              ⟨more, hScheme, hMore⟩ | ⟨more, hBefore, hMore⟩
            · cases more with
              | nil => cases hMore
              | cons c others =>
                  obtain ⟨rfl, -⟩ := List.cons.inj hMore
                  simp [hScheme]
            · cases more with
              | nil => cases hMore
              | cons c others =>
                  obtain ⟨rfl, -⟩ := List.cons.inj hMore
                  simp [hBefore] at hFree
          simp only [hasScheme, hWhole, isScheme_of_slash hSlash]

/-! ### The package and what stands behind it -/

/-- The name of a package in a request does not start with a dot. -/
theorem head_of_isPackageName {name : List Char} (h : isPackageName name = true) :
    name.head? ≠ some '.' := by
  unfold isPackageName at h
  split at h
  · simp
  · simpa using h

theorem splitText_cases (text : List Char) :
    splitText text = (text, none) ∨ ∃ name sub, text = name ++ '/' :: sub ∧
      splitText text = (name, if sub = [] then none else some sub) := by
  unfold splitText
  dsimp only
  split
  · split
    · exact .inl rfl
    · rename_i scope rest hFirst
      split
      · exact .inl rfl
      · rename_i name sub hSecond
        obtain ⟨rfl, -⟩ := cut?_eq_some_iff.mp hSecond
        exact .inr ⟨_, sub, by simp [(cut?_eq_some_iff.mp hFirst).1], rfl⟩
  · split
    · exact .inl rfl
    · rename_i name sub hFirst
      exact .inr ⟨name, sub, (cut?_eq_some_iff.mp hFirst).1, rfl⟩

theorem segments_behind (name sub : String) :
    (Path.mk (name ++ "/" ++ sub)).segments = (Path.mk name).segments ++ (Path.mk sub).segments := by
  have hText : (name ++ "/" ++ sub).toList = name.toList ++ '/' :: sub.toList := by
    simp [String.toList_append]
  simp only [Path.segments, hText, split_append_cons, List.map_append]

namespace Servable

/-- A specifier in a request is its package, or its package and a path in it. -/
theorem lossless (h : Servable specifier) :
    specifier = packageName specifier ∧ (Specifier.split specifier).2 = none ∨
      ∃ sub, sub ≠ "" ∧ specifier = packageName specifier ++ "/" ++ sub ∧
        (Specifier.split specifier).2 = some sub := by
  rcases splitText_cases specifier.toList with hWhole | ⟨name, sub, hText, hParts⟩
  · exact .inl (by simp [packageName, Specifier.split, hWhole])
  · have hSpecifier : specifier = String.ofList name ++ "/" ++ String.ofList sub := by
      rw [← String.toList_inj, hText]
      simp [String.toList_append]
    have hSub : String.ofList sub ≠ "" := by
      intro hEmpty
      refine (h.names "" ?_).nonempty rfl
      rw [hSpecifier, segments_behind, hEmpty]
      exact List.mem_append_right _ (by simp [Path.segments, Text.split])
    rw [if_neg (by simpa using hSub)] at hParts
    refine .inr ⟨String.ofList sub, hSub, ?_, ?_⟩
    · rw [packageName, Specifier.split, hParts]
      exact hSpecifier
    · simp [Specifier.split, hParts]

/-- The package's part of a specifier is made of names. -/
theorem package_names (h : Servable specifier) :
    ∀ n ∈ (Path.mk (packageName specifier)).segments, Path.IsName n := by
  intro n hName
  rcases h.lossless with ⟨hSame, -⟩ | ⟨sub, -, hText, -⟩
  · exact h.names n (hSame ▸ hName)
  · refine h.names n ?_
    rw [hText, segments_behind]
    exact List.mem_append_left _ hName

theorem package_clean (h : Servable specifier) : Clean (packageName specifier) := by
  rcases h.lossless with ⟨hSame, -⟩ | ⟨sub, -, hText, -⟩
  · rw [← hSame]
    exact h.clean
  · intro c hMem
    refine h.clean c ?_
    rw [hText]
    simp [hMem]

/-- The name of a package in a request has no scheme in front. -/
theorem package_scheme (h : Servable specifier) :
    hasScheme (packageName specifier).toList = false := by
  have hOwn := (kind_eq_bare_iff.mp h.bare).2.2
  rcases h.lossless with ⟨hSame, -⟩ | ⟨sub, -, hText, -⟩
  · rw [← hSame]
    exact hOwn
  · rw [hText, String.toList_append, String.toList_append, List.append_assoc] at hOwn
    exact (hasScheme_append _ sub.toList).symm.trans hOwn

theorem sub_names (h : Servable specifier) (hSub : (Specifier.split specifier).2 = some sub) :
    ∀ n ∈ (Path.mk sub).segments, Path.IsName n := by
  intro n hName
  rcases h.lossless with ⟨-, hNone⟩ | ⟨inner, -, hText, hSome⟩
  · cases hNone.symm.trans hSub
  · obtain rfl := Option.some.inj (hSome.symm.trans hSub)
    refine h.names n ?_
    rw [hText, segments_behind]
    exact List.mem_append_right _ hName

theorem package_nonempty (h : Servable specifier) : (packageName specifier).toList ≠ [] := by
  simpa using packageName_ne_empty_of_isServable (isServable_iff.mpr h)

/-- A specifier starts as the name of its package does. -/
theorem head_package (h : Servable specifier) :
    specifier.toList.head? = (packageName specifier).toList.head? := by
  rcases h.lossless with ⟨hSame, -⟩ | ⟨sub, -, hText, -⟩
  · rw [← hSame]
  · conv_lhs => rw [hText]
    rw [String.toList_append, String.toList_append, List.append_assoc,
      List.head?_append_of_ne_nil _ h.package_nonempty]

/-- The name of a package is one segment, and a scoped one two. -/
theorem package_length (h : Servable specifier) :
    (Path.mk (packageName specifier)).segments.length =
      if specifier.toList.head? = some '@' then 2 else 1 := by
  rw [h.head_package, Path.segments, List.length_map]
  rcases packageName_shape (isServable_iff.mpr h) with
    ⟨hStart, hFree⟩ | ⟨scope, inner, hName, hScope, hInner⟩
  · rw [if_neg hStart, split_of_not_mem hFree]
    rfl
  · rw [hName, List.cons_append, List.head?_cons, if_pos rfl, ← List.cons_append, split_append_cons,
      split_of_not_mem (by simpa using hScope), split_of_not_mem hInner]
    rfl

/-- Behind the package of a specifier in a request any names may stand. -/
theorem inside (h : Servable specifier) (hClean : Clean sub)
    (hNames : ∀ n ∈ (Path.mk sub).segments, Path.IsName n) :
    Servable (packageName specifier ++ "/" ++ sub) := by
  have hSome : sub ≠ "" := by
    rintro rfl
    exact (hNames "" (by simp [Path.segments, Text.split])).nonempty rfl
  have hText : (packageName specifier ++ "/" ++ sub).toList =
      (packageName specifier).toList ++ '/' :: sub.toList := by
    simp [String.toList_append]
  have hHead : (packageName specifier ++ "/" ++ sub).toList.head? =
      (packageName specifier).toList.head? := by
    rw [hText, List.head?_append_of_ne_nil _ h.package_nonempty]
  have hPackage : packageName (packageName specifier ++ "/" ++ sub) = packageName specifier := by
    rw [packageName, split_inside (isServable_iff.mpr h) hSome]
  refine ⟨?_, kind_eq_bare_iff.mpr ⟨isRelative_of_head ?_, ?_, ?_⟩, ?_, ?_⟩
  · exact (h.package_clean.append (by simp [Path.Only])).append hClean
  · rw [hHead]
    exact head_of_isPackageName h.package
  · rw [hHead, packageName, Specifier.split, String.toList_ofList]
    exact splitText_head _
  · rw [hText, hasScheme_append, h.package_scheme]
  · rw [segments_behind]
    exact List.forall_mem_append.mpr ⟨h.package_names, hNames⟩
  · rw [hPackage]
    exact h.package

end Servable

end ModuleGateway.Specifier
