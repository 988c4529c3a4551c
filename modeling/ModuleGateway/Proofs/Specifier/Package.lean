import ModuleGateway.Proofs.Text.Split
import ModuleGateway.Specifier.Basic

/-!
Package names. The name of a package is its own package name, so trusting a package by its name and
by any of its specifiers is the same.
-/

namespace ModuleGateway.Specifier

open Text

/-- A name that a specifier was cut down to is not cut again. -/
theorem splitText_name (text : List Char) :
    (splitText (splitText text).1).1 = (splitText text).1 := by
  by_cases hScope : text.head? = some '@'
  · cases hFirst : cut? '/' text with
    | none => simp [splitText, hScope, hFirst]
    | some parts =>
        obtain ⟨scope, rest⟩ := parts
        cases hSecond : cut? '/' rest with
        | none => simp [splitText, hScope, hFirst, hSecond]
        | some inner =>
            obtain ⟨name, sub⟩ := inner
            obtain ⟨rfl, hScopeFree⟩ := cut?_eq_some_iff.mp hFirst
            obtain ⟨rfl, hNameFree⟩ := cut?_eq_some_iff.mp hSecond
            have hHead : (scope ++ '/' :: name).head? = some '@' := by
              cases scope with
              | nil => simp at hScope
              | cons c tail => simpa using hScope
            have hName : (splitText (scope ++ '/' :: (name ++ '/' :: sub))).1 =
                scope ++ '/' :: name := by
              simp only [splitText, if_pos hScope, hFirst, hSecond]
            rw [hName]
            simp only [splitText, if_pos hHead, cut?_append hScopeFree,
              cut?_eq_none_iff.mpr hNameFree]
  · cases hFirst : cut? '/' text with
    | none => simp [splitText, hScope, hFirst]
    | some parts =>
        obtain ⟨name, sub⟩ := parts
        obtain ⟨rfl, hNameFree⟩ := cut?_eq_some_iff.mp hFirst
        have hHead : name.head? ≠ some '@' := by
          cases name with
          | nil => simp
          | cons c tail => simpa using hScope
        have hName : (splitText (name ++ '/' :: sub)).1 = name := by
          simp only [splitText, if_neg hScope, hFirst]
        rw [hName]
        simp [splitText, hHead, cut?_eq_none_iff.mpr hNameFree]

/-- The name of a scoped package starts as its specifiers do. -/
theorem splitText_scoped {text : List Char} (hScope : text.head? = some '@') :
    (splitText text).1.head? = some '@' := by
  cases hFirst : cut? '/' text with
  | none => simp [splitText, hScope, hFirst]
  | some parts =>
      obtain ⟨scope, rest⟩ := parts
      obtain ⟨rfl, -⟩ := cut?_eq_some_iff.mp hFirst
      cases scope with
      | nil => simp at hScope
      | cons c tail =>
          cases hSecond : cut? '/' rest <;> simp_all [splitText]

/-- Any other name is one segment. -/
theorem splitText_unscoped {text : List Char} (hScope : text.head? ≠ some '@') :
    '/' ∉ (splitText text).1 := by
  cases hFirst : cut? '/' text with
  | none =>
      simp only [splitText, if_neg hScope, hFirst]
      exact cut?_eq_none_iff.mp hFirst
  | some parts =>
      obtain ⟨name, sub⟩ := parts
      simp only [splitText, if_neg hScope, hFirst]
      exact (cut?_eq_some_iff.mp hFirst).2

/-- The name of a package does not start with a slash. -/
theorem splitText_head (text : List Char) : (splitText text).1.head? ≠ some '/' := by
  intro hSlash
  by_cases hScope : text.head? = some '@'
  · rw [splitText_scoped hScope] at hSlash
    cases hSlash
  · exact splitText_unscoped hScope (List.mem_of_mem_head? hSlash)

@[simp] theorem packageName_packageName (specifier : String) :
    packageName (packageName specifier) = packageName specifier := by
  simp [packageName, split, splitText_name]

/-- A bare specifier has a package name, unless it is empty. -/
theorem packageName_ne_empty {specifier : String} (hBare : kind specifier = .bare)
    (hEmpty : specifier ≠ "") : packageName specifier ≠ "" := by
  have hText : specifier.toList ≠ [] := by simpa using hEmpty
  have hSlash : specifier.toList.head? ≠ some '/' := by
    intro h
    simp [kind, h] at hBare
    split at hBare <;> cases hBare
  intro hName
  have hNil : (splitText specifier.toList).1 = [] := by
    simpa [packageName, split] using hName
  unfold splitText at hNil
  dsimp only at hNil
  split at hNil
  · split at hNil
    · exact hText hNil
    · split at hNil
      · exact hText hNil
      · simp at hNil
  · split at hNil
    · exact hText hNil
    · rename_i name sub hCut
      obtain ⟨hParts, -⟩ := cut?_eq_some_iff.mp hCut
      rw [hParts, show name = [] from hNil] at hSlash
      exact hSlash rfl

theorem kind_of_isServable {specifier : String} (h : isServable specifier = true) :
    kind specifier = .bare := by
  simp only [isServable, Bool.and_eq_true, decide_eq_true_eq] at h
  exact h.1.1.2

theorem packageName_ne_empty_of_isServable {specifier : String}
    (h : isServable specifier = true) : packageName specifier ≠ "" := by
  refine packageName_ne_empty (kind_of_isServable h) ?_
  rintro rfl
  simp [isServable] at h

/-- The name of a package in a request is one segment, or a scope and a segment. -/
theorem packageName_shape {specifier : String} (h : isServable specifier = true) :
    let name := (packageName specifier).toList
    (name.head? ≠ some '@' ∧ '/' ∉ name) ∨
      ∃ scope inner, name = '@' :: scope ++ '/' :: inner ∧ '/' ∉ scope ∧ '/' ∉ inner := by
  have hName : isPackageName (splitText specifier.toList).1 = true := by
    simp only [isServable, Bool.and_eq_true] at h
    exact h.2
  simp only [packageName, split, String.toList_ofList]
  by_cases hScope : (splitText specifier.toList).1.head? = some '@'
  · obtain ⟨rest, hRest⟩ := List.head?_eq_some_iff.mp hScope
    rw [hRest] at hName ⊢
    have hTwo : (Text.split '/' rest).length = 2 := by simpa [isPackageName] using hName
    rcases split_last '/' rest with ⟨-, hOne⟩ | ⟨scope, inner, rfl, hParts⟩
    · rw [hOne] at hTwo
      cases hTwo
    · rw [hParts, List.length_append, List.length_singleton] at hTwo
      refine .inr ⟨scope, inner, rfl, ?_, ?_⟩
      · rcases split_last '/' scope with ⟨hFree, -⟩ | ⟨before, after, rfl, hMore⟩
        · exact hFree
        · have hSome := List.length_pos_of_ne_nil (split_ne_nil '/' before)
          rw [hMore, List.length_append, List.length_singleton] at hTwo
          omega
      · exact not_mem_of_mem_split (hParts ▸ List.mem_append_right _ List.mem_cons_self)
  · exact .inl ⟨hScope, splitText_unscoped fun hText => hScope (splitText_scoped hText)⟩

/-- A path behind the name of a package names what is inside of that package. -/
theorem split_inside {specifier inside : String} (h : isServable specifier = true)
    (hSome : inside ≠ "") :
    split (packageName specifier ++ "/" ++ inside) = (packageName specifier, some inside) := by
  have hInside : inside.toList ≠ [] := by simpa using hSome
  have hText : (packageName specifier ++ "/" ++ inside).toList =
      (packageName specifier).toList ++ '/' :: inside.toList := by
    simp [String.toList_append]
  have hSplit : splitText ((packageName specifier).toList ++ '/' :: inside.toList) =
      ((packageName specifier).toList, some inside.toList) := by
    rcases packageName_shape h with ⟨hHead, hFree⟩ | ⟨scope, inner, hName, hScope, hInner⟩
    · have hStart : ((packageName specifier).toList ++ '/' :: inside.toList).head? ≠ some '@' := by
        cases hChars : (packageName specifier).toList with
        | nil => simp
        | cons c rest => simpa [hChars] using hHead
      unfold splitText
      dsimp only
      rw [if_neg hStart, cut?_append hFree]
      simp [hInside]
    · have hCut : cut? '/' ('@' :: scope ++ '/' :: inner ++ '/' :: inside.toList) =
          some ('@' :: scope, inner ++ '/' :: inside.toList) := by
        rw [List.append_assoc]
        exact cut?_append (by simp [hScope])
      rw [hName]
      unfold splitText
      dsimp only
      rw [if_pos (by simp), hCut]
      simp [cut?_append hInner, hInside]
  rw [split, hText, hSplit]
  simp

end ModuleGateway.Specifier
