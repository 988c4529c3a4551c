import ModuleGateway.Proofs.Specifier.EntryName
import ModuleGateway.Proofs.Text.Split

/-!
Which texts are escaped specifiers. A flat name is written the same way again after it was read exactly
when it holds no slash and every percent sign in it begins what a percent sign or a slash is written as.
-/

namespace ModuleGateway.Specifier

/-- An escaped specifier has its percent signs replaced first, then its slashes. -/
theorem escape_eq_replaceAll (specifier : String) :
    escape specifier = String.ofList (Text.replaceAll ['/'] ['%', '2', 'F']
      (Text.replaceAll ['%'] ['%', '2', '5'] specifier.toList)) := by
  rw [Text.replaceAll_singleton, Text.replaceAll_singleton, List.flatMap_assoc, escape]
  congr 2
  funext c
  rcases escapeChar_cases c with ⟨rfl, h⟩ | ⟨rfl, h⟩ | ⟨hPercent, hSlash, h⟩ <;> rw [h]
  · rfl
  · rfl
  · simp [Text.replaceChar, hPercent, hSlash]

/-- The form of an escaped specifier. -/
structure IsEscaped (text : List Char) : Prop where
  noSlash : '/' ∉ text
  /-- Behind a percent sign stand the digits of a percent sign or of a slash. -/
  digits : ∀ before behind, text = before ++ '%' :: behind →
    ['2', '5'] <+: behind ∨ ['2', 'F'] <+: behind

theorem isEscaped_nil : IsEscaped [] where
  noSlash := List.not_mem_nil
  digits := by simp

theorem isEscaped_cons {c : Char} {rest : List Char} :
    IsEscaped (c :: rest) ↔
      c ≠ '/' ∧ (c = '%' → ['2', '5'] <+: rest ∨ ['2', 'F'] <+: rest) ∧ IsEscaped rest := by
  constructor
  · intro h
    obtain ⟨hFirst, hOthers⟩ := not_or.mp (List.mem_cons.not.mp h.noSlash)
    refine ⟨Ne.symm hFirst, ?_, hOthers, ?_⟩
    · rintro rfl
      exact h.digits [] rest rfl
    · rintro before behind rfl
      exact h.digits (c :: before) behind rfl
  · rintro ⟨hFirst, hDigits, hRest⟩
    constructor
    · exact List.mem_cons.not.mpr (not_or.mpr ⟨Ne.symm hFirst, hRest.noSlash⟩)
    · intro before behind hText
      cases before with
      | nil =>
          obtain ⟨rfl, rfl⟩ := List.cons.inj hText
          exact hDigits rfl
      | cons other more =>
          obtain ⟨-, rfl⟩ := List.cons.inj hText
          exact hRest.digits more behind rfl

theorem isEscaped_flatMap (text : List Char) : IsEscaped (text.flatMap escapeChar) := by
  induction text with
  | nil => exact isEscaped_nil
  | cons c rest ih =>
      rw [List.flatMap_cons]
      rcases escapeChar_cases c with ⟨-, h⟩ | ⟨-, h⟩ | ⟨hPercent, hSlash, h⟩ <;> rw [h]
      · simp [isEscaped_cons, ih]
      · simp [isEscaped_cons, ih]
      · simp [isEscaped_cons, hPercent, hSlash, ih]

/-- A text of the form is what some text is written as: its characters are read off from the front. -/
theorem exists_flatMap_of_isEscaped (text : List Char) (h : IsEscaped text) :
    ∃ plain : List Char, plain.flatMap escapeChar = text := by
  match text with
  | [] => exact ⟨[], rfl⟩
  | c :: rest =>
      obtain ⟨hSlash, hDigits, hRest⟩ := isEscaped_cons.mp h
      by_cases hPercent : c = '%'
      · subst hPercent
        rcases hDigits rfl with ⟨behind, rfl⟩ | ⟨behind, rfl⟩
        · have hBehind := (isEscaped_cons.mp (isEscaped_cons.mp hRest).2.2).2.2
          obtain ⟨plain, rfl⟩ := exists_flatMap_of_isEscaped behind hBehind
          exact ⟨'%' :: plain, rfl⟩
        · have hBehind := (isEscaped_cons.mp (isEscaped_cons.mp hRest).2.2).2.2
          obtain ⟨plain, rfl⟩ := exists_flatMap_of_isEscaped behind hBehind
          exact ⟨'/' :: plain, rfl⟩
      · obtain ⟨plain, rfl⟩ := exists_flatMap_of_isEscaped rest hRest
        refine ⟨c :: plain, ?_⟩
        rw [List.flatMap_cons, escapeChar, if_neg hPercent, if_neg hSlash]
        rfl
termination_by text.length

/-- Reading a flat name and writing it again gives the name back exactly when it is escaped. -/
theorem escape_unescape_iff (name : String) :
    escape (unescape name) = name ↔ IsEscaped name.toList := by
  constructor
  · intro h
    rw [← h, escape, String.toList_ofList]
    exact isEscaped_flatMap _
  · intro h
    obtain ⟨plain, hPlain⟩ := exists_flatMap_of_isEscaped name.toList h
    have hName : escape (String.ofList plain) = name := by
      rw [escape, String.toList_ofList, hPlain, String.ofList_toList]
    rw [← hName, unescape_escape]

end ModuleGateway.Specifier
