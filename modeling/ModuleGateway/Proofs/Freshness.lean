import ModuleGateway.Freshness
import ModuleGateway.Proofs.Text.Hex
import ModuleGateway.Proofs.Text.Split

/-!
Tags as headers hold them. A tag can be read back, and a header that holds one tag names that tag only.
-/

namespace ModuleGateway

open Text

theorem Text.trimStart_of_head {p : Char → Bool} {c : Char} {rest : List Char} (h : p c = false) :
    trimStart p (c :: rest) = c :: rest := by
  rw [trimStart, List.dropWhile_cons_of_neg (by simp [h])]

theorem Text.trimEnd_of_last {p : Char → Bool} {c : Char} {front : List Char} (h : p c = false) :
    trimEnd p (front ++ [c]) = front ++ [c] := by
  rw [trimEnd, List.reverse_append, List.reverse_singleton, List.singleton_append,
    List.dropWhile_cons_of_neg (by simp [h])]
  simp

namespace Validator

variable {v other : Validator}

/-- A character that is no digit and not among the marks of a tag is not in it. -/
theorem not_mem_chars {c : Char} (v : Validator) (hDigit : c ∉ "0123456789abcdef".toList)
    (hMark : c ∉ ['W', '/', '"', '-', 'm']) : c ∉ v.chars := by
  have hHex (n : Nat) : c ∉ hex n := fun h => hDigit (digit_of_mem_hex h)
  simp only [List.mem_cons, List.not_mem_nil, or_false, not_or] at hMark
  obtain ⟨hW, hSlash, hQuote, hDash, hM⟩ := hMark
  unfold chars
  split <;> simp [hHex, hW, hSlash, hQuote, hDash, hM]

/-- The parts of a tag between dashes. -/
theorem split_chars (v : Validator) :
    split '-' v.chars =
      (['W', '/', '"'] ++ hex v.size) ::
        if v.minified then [hex v.milliseconds, ['m', '"']] else [hex v.milliseconds ++ ['"']] := by
  have hHex (n : Nat) : '-' ∉ hex n := fun h => absurd (digit_of_mem_hex h) (by decide)
  have hFirst : '-' ∉ ['W', '/', '"'] ++ hex v.size := by simp [hHex]
  cases hMinified : v.minified with
  | true =>
      have hWhole : v.chars =
          (['W', '/', '"'] ++ hex v.size) ++ '-' :: (hex v.milliseconds ++ '-' :: ['m', '"']) := by
        simp [chars, hMinified]
      rw [hWhole, split_append_cons, split_append_cons, split_of_not_mem hFirst,
        split_of_not_mem (hHex _), split_of_not_mem (by decide)]
      rfl
  | false =>
      have hWhole : v.chars =
          (['W', '/', '"'] ++ hex v.size) ++ '-' :: (hex v.milliseconds ++ ['"']) := by
        simp [chars, hMinified]
      rw [hWhole, split_append_cons, split_of_not_mem hFirst,
        split_of_not_mem (by simp [hHex])]
      rfl

theorem chars_injective (h : v.chars = other.chars) : v = other := by
  have hParts := congrArg (split '-') h
  rw [split_chars, split_chars] at hParts
  obtain ⟨size, milliseconds, minified⟩ := v
  obtain ⟨otherSize, otherMilliseconds, otherMinified⟩ := other
  obtain ⟨hSize, hRest⟩ := List.cons.inj hParts
  have hSizes : size = otherSize := hex_injective (List.append_cancel_left hSize)
  have hShape : minified = otherMinified := by
    have hLength := congrArg List.length hRest
    cases minified <;> cases otherMinified <;> simp at hLength ⊢
  subst hShape
  have hTimes : hex milliseconds = hex otherMilliseconds := by
    cases minified with
    | true => exact (List.cons.inj hRest).1
    | false => exact List.append_cancel_right (List.cons.inj hRest).1
  rw [hSizes, hex_injective hTimes]

theorem text_injective (h : v.text = other.text) : v = other :=
  chars_injective (String.ofList_injective h)

/-- A header that is the text of one tag names that tag and no other. -/
theorem isNamedBy_text : other.isNamedBy v.text = true ↔ other = v := by
  have hComma : ',' ∉ v.chars := v.not_mem_chars (by decide) (by decide)
  have hTrim : trim isSpace v.chars = v.chars := by
    have hFirst : trimStart isSpace v.chars = v.chars := trimStart_of_head (by decide)
    rw [trim, hFirst]
    exact trimEnd_of_last (by decide)
  rw [isNamedBy, text, String.toList_ofList, split_of_not_mem hComma]
  simp only [List.any_cons, List.any_nil, Bool.or_false, decide_eq_true_eq, hTrim]
  exact ⟨fun h => (chars_injective h).symm, fun h => h ▸ rfl⟩

/-- A tag tells the size and, from the epoch on, the millisecond of the last change. -/
theorem stamp_of_tag {x y : Stamp} {minified : Bool} (h : ofStamp x minified = ofStamp y minified) :
    x.size = y.size ∧
      (0 ≤ x.modified → 0 ≤ y.modified → x.modified / 1000000 = y.modified / 1000000) := by
  simp only [ofStamp, Stamp.milliseconds, Validator.mk.injEq, and_true] at h
  exact ⟨h.1, fun hEpoch hOtherEpoch => by omega⟩

end Validator

namespace Freshness

variable {stamp : Stamp} {minified : Bool} {header : Option String} {v : Validator}

/-- A copy is current when the header names the tag of the file. -/
theorem check_eq_fresh_iff :
    check stamp minified header = .fresh v ↔ v = .ofStamp stamp minified ∧
      ∃ text, header = some text ∧ v.isNamedBy text = true := by
  unfold check
  cases header with
  | none => simp
  | some text =>
      dsimp only
      split
      · rename_i hNamed
        simp only [Freshness.fresh.injEq, Option.some.injEq]
        constructor
        · rintro rfl
          exact ⟨rfl, text, rfl, hNamed⟩
        · rintro ⟨rfl, -⟩
          rfl
      · rename_i hOther
        simp only [reduceCtorEq, Option.some.injEq, false_iff, not_and, not_exists]
        rintro rfl text rfl
        exact hOther

theorem tag_of_stale (h : check stamp minified header = .stale v) : v = .ofStamp stamp minified := by
  unfold check at h
  cases header with
  | none =>
      cases h
      rfl
  | some text =>
      dsimp only at h
      split at h
      · cases h
      · cases h
        rfl

end Freshness

end ModuleGateway
