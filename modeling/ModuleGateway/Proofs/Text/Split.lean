import ModuleGateway.Text.Split
import Mathlib.Data.List.Basic
import Mathlib.Data.List.TakeWhile

/-!
Cutting at a separator, by what the parts are: the part in front of the cut holds no separator, and
the parts with the separator between them are the text. A single character is replaced wherever it stands,
by itself.
-/

namespace ModuleGateway.Text

theorem cut?_eq_none_iff {sep : Char} {text : List Char} : cut? sep text = none ↔ sep ∉ text := by
  induction text with
  | nil => simp [cut?]
  | cons c rest ih =>
      by_cases hSep : c = sep
      · simp [cut?, hSep]
      · simp [cut?, hSep, ih, Ne.symm hSep]

theorem cut?_append {sep : Char} {before after : List Char} (h : sep ∉ before) :
    cut? sep (before ++ sep :: after) = some (before, after) := by
  induction before with
  | nil => simp [cut?]
  | cons c rest ih =>
      obtain ⟨hHead, hRest⟩ := not_or.mp (List.mem_cons.not.mp h)
      simp [cut?, Ne.symm hHead, ih hRest]

theorem cut?_eq_some_iff {sep : Char} {text before after : List Char} :
    cut? sep text = some (before, after) ↔ text = before ++ sep :: after ∧ sep ∉ before := by
  refine ⟨fun h => ?_, fun ⟨hText, hSep⟩ => hText ▸ cut?_append hSep⟩
  induction text generalizing before with
  | nil => cases h
  | cons c rest ih =>
      by_cases hSep : c = sep
      · simp [cut?, hSep] at h
        obtain ⟨rfl, rfl⟩ := h
        simp [hSep]
      · simp only [cut?, hSep, ↓reduceIte, Option.map_eq_some_iff, Prod.exists] at h
        obtain ⟨inner, tail, hInner, hPair⟩ := h
        cases hPair
        obtain ⟨rfl, hNot⟩ := ih hInner
        exact ⟨rfl, by simp [hNot, Ne.symm hSep]⟩

theorem cutLast?_eq_some_iff {sep : Char} {text before after : List Char} :
    cutLast? sep text = some (before, after) ↔ text = before ++ sep :: after ∧ sep ∉ after := by
  rw [cutLast?, Option.map_eq_some_iff]
  constructor
  · rintro ⟨⟨back, front⟩, hCut, hPair⟩
    cases hPair
    obtain ⟨hText, hFree⟩ := cut?_eq_some_iff.mp hCut
    exact ⟨by rw [← List.reverse_inj, hText]; simp, by simpa using hFree⟩
  · rintro ⟨rfl, hFree⟩
    exact ⟨(after.reverse, before.reverse),
      cut?_eq_some_iff.mpr ⟨by simp, by simpa using hFree⟩, by simp⟩

theorem after?_append (start rest : List Char) : after? start (start ++ rest) = some rest :=
  List.isPrefixOf?_eq_some_iff_append_eq.mpr rfl

theorem split_ne_nil (sep : Char) (text : List Char) : split sep text ≠ [] := by
  cases text with
  | nil => simp [split]
  | cons c rest =>
      simp only [split]
      split
      · simp
      · split <;> simp

theorem split_of_not_mem {sep : Char} {text : List Char} (h : sep ∉ text) :
    split sep text = [text] := by
  induction text with
  | nil => rfl
  | cons c rest ih =>
      obtain ⟨hHead, hRest⟩ := not_or.mp (List.mem_cons.not.mp h)
      simp [split, ih hRest, Ne.symm hHead]

theorem split_append_cons (sep : Char) (before after : List Char) :
    split sep (before ++ sep :: after) = split sep before ++ split sep after := by
  induction before with
  | nil =>
      cases hParts : split sep after with
      | nil => exact absurd hParts (split_ne_nil sep after)
      | cons part parts => simp [split, hParts]
  | cons c rest ih =>
      cases hParts : split sep rest with
      | nil => exact absurd hParts (split_ne_nil sep rest)
      | cons part parts =>
          rw [hParts] at ih
          by_cases hSep : c = sep
          · simp [split, ih, hParts, hSep]
          · simp [split, ih, hParts, hSep]

/-- No part holds the separator. -/
theorem not_mem_of_mem_split {sep : Char} {text part : List Char} (h : part ∈ split sep text) :
    sep ∉ part := by
  induction text generalizing part with
  | nil => simp_all [split]
  | cons c rest ih =>
      cases hParts : split sep rest with
      | nil => exact absurd hParts (split_ne_nil sep rest)
      | cons first others =>
          rw [hParts] at ih
          simp only [split, hParts] at h
          split at h
          · rcases List.mem_cons.mp h with rfl | hLater
            · exact List.not_mem_nil
            · exact ih hLater
          · rename_i hSep
            rcases List.mem_cons.mp h with rfl | hLater
            · exact fun hMem => (List.mem_cons.mp hMem).elim (Ne.symm hSep) (ih List.mem_cons_self)
            · exact ih (List.mem_cons_of_mem _ hLater)

/-- Each part is the text with some characters left out. -/
theorem sublist_of_mem_split {sep : Char} {text part : List Char} (h : part ∈ split sep text) :
    part.Sublist text := by
  induction text generalizing part with
  | nil => simp_all [split]
  | cons c rest ih =>
      cases hParts : split sep rest with
      | nil => exact absurd hParts (split_ne_nil sep rest)
      | cons first others =>
          rw [hParts] at ih
          simp only [split, hParts] at h
          split at h
          · rcases List.mem_cons.mp h with rfl | hLater
            · exact List.nil_sublist _
            · exact (ih hLater).cons c
          · rcases List.mem_cons.mp h with rfl | hLater
            · exact (ih List.mem_cons_self).cons_cons c
            · exact (ih (List.mem_cons_of_mem _ hLater)).cons c

/-- The parts are made of characters of the text. -/
theorem subset_of_mem_split {sep : Char} {text part : List Char} (h : part ∈ split sep text) :
    part ⊆ text :=
  (sublist_of_mem_split h).subset

/-- Joining texts with the separator puts their parts one behind the other. -/
theorem split_intercalate_flatMap {sep : Char} {texts : List (List Char)} (hSome : texts ≠ []) :
    split sep ([sep].intercalate texts) = texts.flatMap (split sep) := by
  induction texts with
  | nil => exact absurd rfl hSome
  | cons text others ih =>
      cases others with
      | nil => simp [List.intercalate]
      | cons next later =>
          rw [List.intercalate_cons_cons, List.append_assoc, List.singleton_append,
            split_append_cons, ih (by simp)]
          rfl

/-- Cutting what was joined gives the parts back. -/
theorem split_intercalate {sep : Char} {parts : List (List Char)} (hSome : parts ≠ [])
    (hFree : ∀ part ∈ parts, sep ∉ part) : split sep ([sep].intercalate parts) = parts := by
  rw [split_intercalate_flatMap hSome]
  induction parts with
  | nil => rfl
  | cons part others ih =>
      obtain ⟨hPart, hOthers⟩ := List.forall_mem_cons.mp hFree
      rw [List.flatMap_cons, split_of_not_mem hPart]
      cases others with
      | nil => rfl
      | cons next later => rw [ih (by simp) hOthers, List.singleton_append]

/-- Only the last part changes when a text without separators is put behind. -/
theorem split_append_free (sep : Char) (text : List Char) :
    ∃ front last, ∀ tail, sep ∉ tail → split sep (text ++ tail) = front ++ [last ++ tail] := by
  induction text with
  | nil => exact ⟨[], [], fun tail hFree => split_of_not_mem hFree⟩
  | cons c rest ih =>
      obtain ⟨front, last, hSplit⟩ := ih
      by_cases hSep : c = sep
      · refine ⟨[] :: front, last, fun tail hFree => ?_⟩
        have hCut := split_append_cons sep [] (rest ++ tail)
        rw [List.nil_append, hSplit tail hFree] at hCut
        rw [hSep, List.cons_append, hCut]
        rfl
      · cases front with
        | nil =>
            refine ⟨[], c :: last, fun tail hFree => ?_⟩
            rw [List.cons_append, split, hSplit tail hFree]
            simp [hSep]
        | cons first others =>
            refine ⟨(c :: first) :: others, last, fun tail hFree => ?_⟩
            rw [List.cons_append, split, hSplit tail hFree]
            simp [hSep]

/-- The parts that are left without the separators in front were there before. -/
theorem mem_split_of_trimStart {sep : Char} {text part : List Char}
    (h : part ∈ split sep (trimStart (· = sep) text)) : part ∈ split sep text := by
  induction text with
  | nil => exact h
  | cons c rest ih =>
      by_cases hSep : c = sep
      · rw [trimStart, List.dropWhile_cons_of_pos (by simpa using hSep)] at h
        rw [hSep, show sep :: rest = [] ++ sep :: rest from rfl, split_append_cons]
        exact List.mem_append_right _ (ih h)
      · rwa [trimStart, List.dropWhile_cons_of_neg (by simpa using hSep)] at h

/-- A text is its last part, or its last part stands behind a separator. -/
theorem split_last (sep : Char) (text : List Char) :
    (sep ∉ text ∧ split sep text = [text]) ∨
      ∃ before after, text = before ++ sep :: after ∧ split sep text = split sep before ++ [after] := by
  cases hCut : cut? sep text.reverse with
  | none =>
      have hFree : sep ∉ text := by simpa using cut?_eq_none_iff.mp hCut
      exact .inl ⟨hFree, split_of_not_mem hFree⟩
  | some parts =>
      obtain ⟨after, before⟩ := parts
      obtain ⟨hText, hFree⟩ := cut?_eq_some_iff.mp hCut
      have hWhole : text = before.reverse ++ sep :: after.reverse := by
        rw [← List.reverse_inj, hText]
        simp
      have hLast : split sep after.reverse = [after.reverse] :=
        split_of_not_mem (by simpa using hFree)
      exact .inr ⟨_, _, hWhole, by rw [hWhole, split_append_cons, hLast]⟩

/-- A text of separators has only empty parts. -/
theorem eq_nil_of_mem_split {sep : Char} {text part : List Char} (hAll : ∀ c ∈ text, c = sep)
    (h : part ∈ split sep text) : part = [] := by
  induction text with
  | nil => simpa [split] using h
  | cons c rest ih =>
      obtain ⟨rfl, hRest⟩ := List.forall_mem_cons.mp hAll
      rw [show c :: rest = [] ++ c :: rest from rfl, split_append_cons, List.mem_append] at h
      exact h.elim (fun hFirst => by simpa [split] using hFirst) (ih hRest)

theorem trim_sublist (p : Char → Bool) (text : List Char) : (trim p text).Sublist text := by
  have hStart : (trimStart p text).Sublist text := List.dropWhile_sublist p
  have hEnd := (List.dropWhile_sublist p (l := (trimStart p text).reverse)).reverse
  rw [List.reverse_reverse] at hEnd
  exact hEnd.trans hStart

/-- What is trimmed from the end satisfies the condition. -/
theorem trimEnd_append (p : Char → Bool) (text : List Char) :
    ∃ tail, text = trimEnd p text ++ tail ∧ ∀ c ∈ tail, p c = true := by
  refine ⟨(text.reverse.takeWhile p).reverse, ?_, fun c hMem => ?_⟩
  · rw [trimEnd, ← List.reverse_append, List.takeWhile_append_dropWhile, List.reverse_reverse]
  · exact List.mem_takeWhile_imp (List.mem_reverse.mp hMem)

/-! ### Replacing -/

/-- Replacing a single character writes the others as they are. -/
def replaceChar (old : Char) (new : List Char) (c : Char) : List Char :=
  if c = old then new else [c]

theorem replaceAll_singleton (old : Char) (new text : List Char) :
    replaceAll [old] new text = text.flatMap (replaceChar old new) := by
  have hGo (text : List Char) : replaceAll.go [old] new 0 text = text.flatMap (replaceChar old new) := by
    induction text with
    | nil => rfl
    | cons c text ih =>
        rw [List.flatMap_cons, replaceAll.go, replaceChar]
        by_cases h : c = old
        · simp [h, ih]
        · simp [h, Ne.symm h, ih]
  rw [replaceAll, if_neg (List.cons_ne_nil _ _), hGo]

theorem flatMap_replaceChar_of_not_mem {old : Char} {new text : List Char} (h : old ∉ text) :
    text.flatMap (replaceChar old new) = text := by
  induction text with
  | nil => rfl
  | cons c text ih =>
      obtain ⟨hFirst, hOthers⟩ := not_or.mp (List.mem_cons.not.mp h)
      rw [List.flatMap_cons, ih hOthers, replaceChar, if_neg (Ne.symm hFirst)]
      rfl

end ModuleGateway.Text
