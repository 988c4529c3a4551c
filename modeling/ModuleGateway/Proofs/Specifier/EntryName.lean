import ModuleGateway.Proofs.FileSystem.Directory
import ModuleGateway.Specifier.EntryName

/-!
The names of entries. Every specifier has an entry of its own, and its name is one that a file can have.
-/

namespace ModuleGateway

namespace Specifier

theorem escapeChar_cases (c : Char) :
    (c = '%' ∧ escapeChar c = ['%', '2', '5']) ∨ (c = '/' ∧ escapeChar c = ['%', '2', 'F']) ∨
      (c ≠ '%' ∧ c ≠ '/' ∧ escapeChar c = [c]) := by
  by_cases hPercent : c = '%'
  · exact .inl ⟨hPercent, by simp [escapeChar, hPercent]⟩
  · by_cases hSlash : c = '/'
    · exact .inr (.inl ⟨hSlash, by simp [escapeChar, hSlash]⟩)
    · exact .inr (.inr ⟨hPercent, hSlash, by simp [escapeChar, hPercent, hSlash]⟩)

theorem escapeChar_ne_nil (c : Char) : escapeChar c ≠ [] := by
  rcases escapeChar_cases c with ⟨-, h⟩ | ⟨-, h⟩ | ⟨-, -, h⟩ <;> simp [h]

/-- A slash is never part of an escaped text. -/
theorem slash_not_mem_escape (specifier : String) : '/' ∉ (escape specifier).toList := by
  rw [escape, String.toList_ofList, List.mem_flatMap]
  rintro ⟨c, -, hSlash⟩
  rcases escapeChar_cases c with ⟨-, h⟩ | ⟨-, h⟩ | ⟨-, hOther, h⟩
  · simp [h] at hSlash
  · simp [h] at hSlash
  · rw [h] at hSlash
    exact hOther (List.mem_singleton.mp hSlash).symm

/-- No escaped character is the beginning of another. -/
theorem escapeChar_append_inj {a b : Char} {left right : List Char}
    (h : escapeChar a ++ left = escapeChar b ++ right) : a = b ∧ left = right := by
  rcases escapeChar_cases a with ⟨hA, hLeft⟩ | ⟨hA, hLeft⟩ | ⟨hA, -, hLeft⟩ <;>
    rcases escapeChar_cases b with ⟨hB, hRight⟩ | ⟨hB, hRight⟩ | ⟨hB, -, hRight⟩ <;>
    rw [hLeft, hRight] at h <;>
    simp only [List.cons_append, List.nil_append, List.cons.injEq] at h <;> grind

theorem escape_injective {a b : String} (h : escape a = escape b) : a = b := by
  have hChars : a.toList.flatMap escapeChar = b.toList.flatMap escapeChar :=
    String.ofList_injective h
  refine String.toList_inj.mp ?_
  generalize a.toList = left at hChars ⊢
  generalize b.toList = right at hChars ⊢
  induction left generalizing right with
  | nil =>
      cases right with
      | nil => rfl
      | cons c rest =>
          exact absurd (List.append_eq_nil_iff.mp hChars.symm).1 (escapeChar_ne_nil c)
  | cons c rest ih =>
      cases right with
      | nil => exact absurd (List.append_eq_nil_iff.mp hChars).1 (escapeChar_ne_nil c)
      | cons other others =>
          obtain ⟨rfl, hRest⟩ := escapeChar_append_inj hChars
          rw [ih others hRest]

/-- One character of an escaped specifier once its slashes have been read. -/
def escapePercent (c : Char) : List Char :=
  if c = '%' then ['%', '2', '5'] else [c]

theorem replaceAll_slashes (text : List Char) :
    Text.replaceAll ['%', '2', 'F'] ['/'] (text.flatMap escapeChar) = text.flatMap escapePercent := by
  rw [Text.replaceAll, if_neg (by simp)]
  induction text with
  | nil => rfl
  | cons c rest ih =>
      rw [List.flatMap_cons, List.flatMap_cons, ← ih]
      rcases escapeChar_cases c with ⟨rfl, h⟩ | ⟨rfl, h⟩ | ⟨hPercent, -, h⟩
      · rw [h]
        rfl
      · rw [h]
        rfl
      · simp [h, escapePercent, hPercent, Text.replaceAll.go, Ne.symm hPercent]

theorem replaceAll_percents (text : List Char) :
    Text.replaceAll ['%', '2', '5'] ['%'] (text.flatMap escapePercent) = text := by
  rw [Text.replaceAll, if_neg (by simp)]
  induction text with
  | nil => rfl
  | cons c rest ih =>
      rw [List.flatMap_cons]
      conv_rhs => rw [← ih]
      by_cases hPercent : c = '%'
      · rw [hPercent]
        rfl
      · simp [escapePercent, hPercent, Text.replaceAll.go, Ne.symm hPercent]

/-- An escaped specifier is read back. Percent signs are read last, so what a slash is written as is
not made by reading one. -/
theorem unescape_escape (specifier : String) : unescape (escape specifier) = specifier := by
  rw [unescape, escape, String.toList_ofList, replaceAll_slashes, replaceAll_percents,
    String.ofList_toList]

/-- The name of an entry starts with a dot when the specifier does, or is empty. -/
theorem head?_entryName (specifier : String) :
    (entryName specifier).toList.head? = some '.' ↔
      specifier = "" ∨ specifier.toList.head? = some '.' := by
  have hText : (entryName specifier).toList =
      specifier.toList.flatMap escapeChar ++ ['.', 'j', 's'] := by
    rw [entryName, escape, String.toList_append, String.toList_ofList]
    rfl
  rw [hText, ← String.toList_inj]
  cases specifier.toList with
  | nil => simp
  | cons c rest =>
      rcases escapeChar_cases c with ⟨rfl, h⟩ | ⟨rfl, h⟩ | ⟨-, -, h⟩ <;> simp [h]

theorem entryName_injective {a b : String} (h : entryName a = entryName b) : a = b := by
  refine escape_injective (String.toList_inj.mp ?_)
  have hChars := congrArg String.toList h
  rw [entryName, entryName, String.toList_append, String.toList_append] at hChars
  exact List.append_cancel_right hChars

end Specifier

namespace Path

theorem isName_of_slash {n : String} (hSlash : '/' ∉ n.toList) (hLength : 3 ≤ n.toList.length) :
    IsName n := by
  refine ⟨?_, hSlash, ?_, ?_⟩ <;> rintro rfl <;> simp at hLength

end Path

namespace Specifier

theorem isName_entryName (specifier : String) : Path.IsName (entryName specifier) := by
  have hText : (entryName specifier).toList = (escape specifier).toList ++ ['.', 'j', 's'] := by
    rw [entryName, String.toList_append]
    rfl
  refine Path.isName_of_slash ?_ ?_
  · rw [hText, List.mem_append]
    exact fun h => h.elim (slash_not_mem_escape specifier) (by decide)
  · rw [hText, List.length_append]
    exact Nat.le_add_left 3 _

end Specifier

end ModuleGateway
