import ModuleGateway.Proofs.Freshness

/-!
Headers that list entity tags. A tag may hold commas between its quotes, and the reader of a header cuts
at every comma, so that it sees fragments of tags. A fragment has at most one quote and a validator has
two: only whole tags count.
-/

namespace ModuleGateway

open Text

/-! ### Lists of tags -/

/-- The characters between the quotes of an entity tag: all but the quote, the space and the control
characters of ASCII. The comma is one of them. -/
def isTagChar (c : Char) : Bool :=
  0x20 < c.toNat && c.toNat ≠ 0x7f && c ≠ '"'

/-- An entity tag: a text in quotes, which a mark in front of them makes weak. -/
structure EntityTag where
  weak : Bool
  inner : List Char
  clean : ∀ c ∈ inner, isTagChar c = true

def EntityTag.chars (tag : EntityTag) : List Char :=
  (if tag.weak then ['W', '/'] else []) ++ '"' :: tag.inner ++ ['"']

def EntityTag.text (tag : EntityTag) : String :=
  String.ofList tag.chars

/-- Spaces and tabs. -/
structure Padding where
  text : List Char
  blank : ∀ c ∈ text, c = ' ' ∨ c = '\t'

/-- A tag in a list, with what stands between it and the commas. -/
structure ListedTag where
  before : Padding
  tag : EntityTag
  after : Padding

def ListedTag.chars (entry : ListedTag) : List Char :=
  entry.before.text ++ entry.tag.chars ++ entry.after.text

/-- A header that lists tags. -/
def tagList (entries : List ListedTag) : String :=
  String.ofList ([','].intercalate (entries.map ListedTag.chars))

/-! ### One tag -/

theorem EntityTag.quote_not_mem (tag : EntityTag) : '"' ∉ tag.inner :=
  fun hMem => absurd (tag.clean _ hMem) (by decide)

theorem Padding.isSpace (p : Padding) : ∀ c ∈ p.text, Text.isSpace c = true := by
  intro c hc
  rcases p.blank c hc with rfl | rfl <;> decide

theorem Padding.not_mem (p : Padding) {c : Char} (hc : c ≠ ' ' ∧ c ≠ '\t') : c ∉ p.text :=
  fun hMem => (p.blank c hMem).elim hc.1 hc.2

/-- The first and the last character of a tag. -/
theorem EntityTag.ends (tag : EntityTag) :
    ∃ c rest front, tag.chars = c :: rest ∧ tag.chars = front ++ ['"'] ∧ Text.isSpace c = false := by
  unfold EntityTag.chars
  cases tag.weak with
  | true => exact ⟨'W', _, _, rfl, rfl, by decide⟩
  | false => exact ⟨'"', _, _, rfl, rfl, by decide⟩

/-- Nothing of the tag is lost when the padding is taken away. -/
theorem ListedTag.trim_chars (entry : ListedTag) : trim isSpace entry.chars = entry.tag.chars := by
  obtain ⟨c, rest, front, hFirst, hLast, hSpace⟩ := entry.tag.ends
  have hStart : trimStart isSpace entry.chars = entry.tag.chars ++ entry.after.text := by
    rw [trimStart, ListedTag.chars, List.append_assoc,
      List.dropWhile_append_of_pos entry.before.isSpace, hFirst]
    exact List.dropWhile_cons_of_neg (by simp [hSpace])
  have hEnd : trimEnd isSpace (entry.tag.chars ++ entry.after.text) = entry.tag.chars := by
    have hAfter : ∀ c ∈ entry.after.text.reverse, isSpace c = true :=
      fun c hc => entry.after.isSpace c (List.mem_reverse.mp hc)
    rw [trimEnd, List.reverse_append, List.dropWhile_append_of_pos hAfter, hLast]
    exact trimEnd_of_last (by decide)
  rw [trim, hStart, hEnd]

namespace Validator

variable {v : Validator}

theorem count_quote (v : Validator) : v.chars.count '"' = 2 := by
  have hHex (n : Nat) : (hex n).count '"' = 0 :=
    List.count_eq_zero.mpr fun h => absurd (digit_of_mem_hex h) (by decide)
  unfold chars
  cases v.minified <;> simp [List.count_append, hHex]

/-- What is cut from a text with one quote is no validator, however it is trimmed. -/
theorem not_named_of_count {text part : List Char} (hCount : text.count '"' ≤ 1)
    (hPart : part ∈ split ',' text) : trim isSpace part ≠ v.chars := by
  intro hSame
  have hTwo : v.chars.count '"' ≤ text.count '"' :=
    hSame ▸ (((trim_sublist isSpace part).trans (sublist_of_mem_split hPart)).count_le '"')
  rw [count_quote] at hTwo
  omega

/-- Among the parts of one entry of a list is a validator if and only if the tag of the entry is that
validator. -/
theorem named_by_entry_iff (entry : ListedTag) :
    (∃ part ∈ split ',' entry.chars, trim isSpace part = v.chars) ↔ entry.tag.chars = v.chars := by
  by_cases hComma : ',' ∈ entry.tag.inner
  · -- The comma parts the quotes, and the validator holds none.
    obtain ⟨front, back, hInner⟩ := List.append_of_mem hComma
    let opening : List Char :=
      entry.before.text ++ ((if entry.tag.weak then ['W', '/'] else []) ++ '"' :: front)
    let closing : List Char := back ++ '"' :: entry.after.text
    have hChars : entry.chars = opening ++ ',' :: closing := by
      simp [ListedTag.chars, EntityTag.chars, hInner, opening, closing]
    have hInside : '"' ∉ front ∧ '"' ∉ back := by
      have hNone := hInner ▸ entry.tag.quote_not_mem
      simpa using hNone
    have hPadding (p : Padding) : p.text.count '"' = 0 :=
      List.count_eq_zero.mpr (p.not_mem (by decide))
    have hOpening : opening.count '"' ≤ 1 := by
      simp only [opening, List.count_append, hPadding, List.count_cons_self,
        List.count_eq_zero.mpr hInside.1]
      cases entry.tag.weak <;> simp
    have hClosing : closing.count '"' ≤ 1 := by
      simp [closing, List.count_append, hPadding, List.count_eq_zero.mpr hInside.2]
    rw [hChars, split_append_cons]
    constructor
    · rintro ⟨part, hPart, hSame⟩
      rcases List.mem_append.mp hPart with hOpen | hClose
      · exact absurd hSame (not_named_of_count hOpening hOpen)
      · exact absurd hSame (not_named_of_count hClosing hClose)
    · intro hSame
      have hNone : ',' ∉ v.chars := v.not_mem_chars (by decide) (by decide)
      rw [← hSame] at hNone
      exact absurd (by simp [EntityTag.chars, hComma]) hNone
  · have hNone : ',' ∉ entry.chars := by
      have hPadding (p : Padding) : ',' ∉ p.text := p.not_mem (by decide)
      unfold ListedTag.chars EntityTag.chars
      split <;> simp [hPadding, hComma]
    rw [split_of_not_mem hNone]
    simp [entry.trim_chars]

theorem text_eq_text_iff {tag : EntityTag} : tag.text = v.text ↔ tag.chars = v.chars :=
  ⟨fun h => String.ofList_injective h, congrArg String.ofList⟩

/-- A header that lists tags names exactly the validators that are among its tags, whatever the tags hold
between their quotes. Two validators have one text if and only if the sizes, the milliseconds of the last
change, zero before the epoch, and the choice of minifying are the same. -/
theorem isNamedBy_tagList (stamp other : Stamp) (minified otherMinified : Bool)
    (entries : List ListedTag) :
    ((ofStamp stamp minified).isNamedBy (tagList entries) = true ↔
      ∃ entry ∈ entries, entry.tag.text = (ofStamp stamp minified).text) ∧
    ((ofStamp stamp minified).text = (ofStamp other otherMinified).text ↔
      stamp.size = other.size ∧
      (if stamp.modified < 0 then 0 else stamp.modified / 1000000) =
        (if other.modified < 0 then 0 else other.modified / 1000000) ∧
      minified = otherMinified) := by
  constructor
  · rw [isNamedBy, tagList, String.toList_ofList, List.any_eq_true]
    simp only [decide_eq_true_eq, text_eq_text_iff]
    cases entries with
    | nil =>
        have hFew : List.count '"' [] ≤ 1 := Nat.zero_le 1
        have hEmpty : trim isSpace [] ≠ (ofStamp stamp minified).chars :=
          not_named_of_count hFew (List.mem_singleton_self [])
        simpa [split, List.intercalate] using hEmpty
    | cons entry later =>
        rw [split_intercalate_flatMap (by simp), List.flatMap_map]
        simp only [← named_by_entry_iff, List.mem_flatMap]
        constructor
        · rintro ⟨part, ⟨found, hFound, hPart⟩, hSame⟩
          exact ⟨found, hFound, part, hPart, hSame⟩
        · rintro ⟨found, hFound, part, hPart, hSame⟩
          exact ⟨part, ⟨found, hFound, hPart⟩, hSame⟩
  · have hTime (s : Stamp) :
        (s.milliseconds : Int) = if s.modified < 0 then 0 else s.modified / 1000000 := by
      unfold Stamp.milliseconds
      split <;> omega
    constructor
    · intro hText
      have hSame := text_injective hText
      simp only [ofStamp, Validator.mk.injEq] at hSame
      obtain ⟨hSize, hMilliseconds, hMinified⟩ := hSame
      exact ⟨hSize, by rw [← hTime, ← hTime, hMilliseconds], hMinified⟩
    · rintro ⟨hSize, hMilliseconds, rfl⟩
      rw [← hTime, ← hTime, Int.natCast_inj] at hMilliseconds
      rw [ofStamp, ofStamp, hSize, hMilliseconds]

end Validator

end ModuleGateway
