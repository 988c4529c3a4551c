import ModuleGateway.Diagnostic
import ModuleGateway.Proofs.Text.Hex
import ModuleGateway.Proofs.Text.Literal
import ModuleGateway.Text.Digits
import Mathlib.Data.Bool.AllAny
import Mathlib.Data.Nat.Digits.Defs

/-!
Failures in style sheets. A style sheet reads a number behind a backslash as long as there are digits, up
to six of them, and takes one blank behind it along. Every number that a diagnostic writes has a space
behind it, so that neither digits nor blanks of the text that follows are taken for a part of the escape:
the string ends at its own quote and says what failed.
-/

namespace ModuleGateway

open Text

/-! ### Numbers -/

namespace Text

theorem hexValue?_of_mem {c : Char} (h : c ∈ "0123456789abcdef".toList) :
    hexValue? c.toUpper = some (hexDigit c) := by
  have hAll : ∀ d ∈ "0123456789abcdef".toList, hexValue? d.toUpper = some (hexDigit d) :=
    List.all_iff_forall_prop.mp (by decide)
  exact hAll c h

theorem hexValue?_of_mem_upperHex {n : Nat} {c : Char} (h : c ∈ upperHex n) :
    (hexValue? c).isSome = true := by
  obtain ⟨d, hDigit, rfl⟩ := List.mem_map.mp h
  rw [hexValue?_of_mem (digit_of_mem_hex hDigit)]
  rfl

theorem numberIn_upperHex (n : Nat) : numberIn 16 (upperHex n) = n := by
  have hDigits (digits : List Char) (start : Nat) (h : ∀ c ∈ digits, c ∈ "0123456789abcdef".toList) :
      (digits.map Char.toUpper).foldl (fun n c => n * 16 + (hexValue? c).getD 0) start =
        digits.foldl (fun n c => 16 * n + hexDigit c) start := by
    induction digits generalizing start with
    | nil => rfl
    | cons c digits ih =>
        obtain ⟨hFirst, hOthers⟩ := List.forall_mem_cons.mp h
        rw [List.map_cons, List.foldl_cons, List.foldl_cons, hexValue?_of_mem hFirst, Option.getD_some,
          Nat.mul_comm]
        exact ih _ hOthers
  rw [numberIn, upperHex, hDigits _ 0 fun c hc => digit_of_mem_hex hc]
  exact ofHex_hex n

end Text

namespace Diagnostic

/-! ### Strings of style sheets -/

/-- How a style sheet shows a character. The null character is replaced. -/
def shown (c : Char) : Char :=
  if c = '\x00' then '\ufffd' else c

/-- The character of a number in an escape. Null, surrogates and what lies beyond the last character are
replaced. -/
def shownNumber (n : Nat) : Char :=
  if n = 0 ∨ ¬n.isValidChar then '\ufffd' else Char.ofNat n

/-- The length of the line end that a text starts with; a carriage return and a line feed are one. -/
def lineEndLength : List Char → Nat
  | '\r' :: '\n' :: _ => 2
  | '\n' :: _ | '\r' :: _ | '\x0c' :: _ => 1
  | _ => 0

/-- The length of the blank that a text starts with. -/
def blankLength : List Char → Nat
  | ' ' :: _ | '\t' :: _ => 1
  | text => lineEndLength text

/-- The digits of the number that a text starts with, at most six. -/
def escapeDigits (text : List Char) : List Char :=
  (text.take 6).takeWhile fun c => (hexValue? c).isSome

/-- How style sheets read strings. Behind a backslash a line end stands for nothing, a number for a
character, with the blank behind it, and any other character for itself. -/
def styleRules : LiteralRules Char where
  breaksOff c := c = '\n' || c = '\r' || c = '\x0c'
  plain c := [shown c]
  escape? text :=
    match text with
    | [] => none
    | c :: _ =>
      let digits := escapeDigits text
      if lineEndLength text ≠ 0 then some ([], lineEndLength text)
      else if digits = [] then some ([shown c], 1)
      else some ([shownNumber (numberIn 16 digits)],
        digits.length + blankLength (text.drop digits.length))

theorem escapeDigits_upperHex {n : Nat} (hSmall : n < 16 ^ 6) (rest : List Char) :
    escapeDigits (upperHex n ++ ' ' :: rest) = upperHex n := by
  have hLength : (upperHex n).length ≤ 6 := by
    rw [upperHex, List.length_map]
    exact Nat.toDigits_length 16 n 6 (by decide) hSmall
  rw [escapeDigits, List.take_append, List.take_of_length_le hLength,
    List.takeWhile_append_of_pos fun c hc => hexValue?_of_mem_upperHex hc]
  cases 6 - (upperHex n).length with
  | zero => simp
  | succ k =>
      have hSpace : (hexValue? ' ').isSome = false := by decide
      simp [hSpace]

theorem lineEndLength_of_digit {c : Char} {rest : List Char} (h : (hexValue? c).isSome = true) :
    lineEndLength (c :: rest) = 0 := by
  have hOther (d : Char) (hd : hexValue? d = none) : c ≠ d := by
    rintro rfl
    rw [hd] at h
    cases h
  have hFeed := hOther '\n' (by decide)
  have hReturn := hOther '\r' (by decide)
  have hForm := hOther '\x0c' (by decide)
  unfold lineEndLength
  split <;> simp_all

/-- A number with a space behind it stands for its character, whatever comes next. -/
theorem spells_number {n : Nat} (hSmall : n < 16 ^ 6) :
    styleRules.Spells ('\\' :: upperHex n ++ [' ']) [shownNumber n] := by
  rw [List.cons_append]
  refine LiteralRules.spells_escape fun rest => ?_
  have hDigits := escapeDigits_upperHex hSmall rest
  have hSome : upperHex n ≠ [] := fun hNone => Nat.toDigits_ne_nil (List.map_eq_nil_iff.mp hNone)
  obtain ⟨d, digits, hFirst⟩ := List.exists_cons_of_ne_nil hSome
  have hFirstDigit : (hexValue? d).isSome = true :=
    hexValue?_of_mem_upperHex (n := n) (by rw [hFirst]; exact List.mem_cons_self)
  have hDrop : (upperHex n ++ ' ' :: rest).drop (upperHex n).length = ' ' :: rest := List.drop_left
  have hNumber := numberIn_upperHex n
  rw [List.append_assoc, List.singleton_append, List.length_append, List.length_singleton]
  rw [hFirst] at hDigits hDrop hNumber ⊢
  rw [List.cons_append] at hDigits hDrop ⊢
  simp only [styleRules, lineEndLength_of_digit hFirstDigit, hDigits, hNumber, hDrop]
  simp [blankLength]

/-! ### One character -/

theorem isControl_small {c : Char} (h : isControl c = true) : c.toNat < 16 ^ 6 := by
  simp only [isControl, Bool.or_eq_true, Bool.and_eq_true, decide_eq_true_eq] at h
  omega

theorem shownNumber_toNat (c : Char) : shownNumber c.toNat = shown c := by
  have hNull : c.toNat = '\x00'.toNat ↔ c = '\x00' := Char.toNat_inj
  have hValid : c.toNat.isValidChar := c.valid
  unfold shownNumber shown
  by_cases h : c = '\x00'
  · simp [h]
  · have hSome : c.toNat ≠ 0 := hNull.not.mpr h
    rw [if_neg (by simp [hSome, hValid]), if_neg h, Char.ofNat_toNat]

theorem spells_styleChar (c : Char) : styleRules.Spells (styleChar c) [shown c] := by
  unfold styleChar
  split
  · rename_i hQuote
    subst hQuote
    exact LiteralRules.spells_escape fun rest => rfl
  split
  · rename_i hSlash
    subst hSlash
    exact LiteralRules.spells_escape fun rest => rfl
  split
  · rename_i hLine
    subst hLine
    exact spells_number (n := 10) (by decide)
  split
  · rename_i hLess
    subst hLess
    exact spells_number (n := 60) (by decide)
  split
  · rename_i hControl
    rw [← shownNumber_toNat]
    exact spells_number (isControl_small hControl)
  · rename_i hQuote hSlash hLine hLess hControl
    refine LiteralRules.spells_plain hQuote hSlash ?_
    have hOther (d : Char) (hd : isControl d = true) : c ≠ d := by
      rintro rfl
      exact hControl hd
    simp [styleRules, hOther '\n' (by decide), hOther '\r' (by decide), hOther '\x0c' (by decide)]

/-- What is written for a character is neither a control character nor the sign that opens a tag. -/
theorem styleChar_clean (c : Char) : ∀ d ∈ styleChar c, isControl d = false ∧ d ≠ '<' := by
  have hHex : ∀ d ∈ "0123456789abcdef".toList, isControl d.toUpper = false ∧ d.toUpper ≠ '<' :=
    List.all_iff_forall_prop.mp (by decide)
  unfold styleChar
  split
  · exact List.all_iff_forall_prop.mp (by decide)
  split
  · exact List.all_iff_forall_prop.mp (by decide)
  split
  · exact List.all_iff_forall_prop.mp (by decide)
  split
  · exact List.all_iff_forall_prop.mp (by decide)
  split
  · intro d hd
    simp only [List.cons_append, List.mem_cons, List.mem_append, List.not_mem_nil, or_false] at hd
    rcases hd with rfl | hDigit | rfl
    · decide
    · obtain ⟨e, hMem, rfl⟩ := List.mem_map.mp hDigit
      exact hHex e (digit_of_mem_hex hMem)
    · decide
  · rename_i hLess hControl
    intro d hd
    rw [List.mem_singleton.mp hd]
    exact ⟨by simpa using hControl, hLess⟩

/-! ### The style sheet -/

/-- The style sheet up to its string. -/
def styleFront : String :=
  "body::before \x7b\n  content: "

/-- The style sheet behind its string. -/
def styleBack : String :=
  ";\n  display: block;\n  white-space: pre-wrap;\n  padding: 24px;\n  background: #180000;\n" ++
  "  color: #ffb4b4;\n  font: 13px/1.5 ui-monospace, monospace;\n\x7d\n"

/-- The characters that style sheets are made of around the string. -/
def IsFixed (c : Char) : Prop :=
  c ≠ '<' ∧ (isControl c = true → c = '\n')

instance (c : Char) : Decidable (IsFixed c) :=
  inferInstanceAs (Decidable (_ ∧ _))

theorem style_fixed : ∀ c ∈ styleFront.toList ++ styleBack.toList, IsFixed c := by
  -- The fixed text is compared with lists of characters, which is cheaper than decoding it.
  have hParts (front first second : List Char) (h : ∀ c ∈ front ++ (first ++ second), IsFixed c) :
      ∀ c ∈ (String.ofList front).toList ++ (String.ofList first ++ String.ofList second).toList,
        IsFixed c := by
    simpa only [String.toList_append, String.toList_ofList] using h
  exact hParts _ _ _ (List.all_iff_forall_prop.mp (by decide +kernel))

theorem styleLiteral_clean (text : String) :
    ∀ c ∈ (styleLiteral text).toList, isControl c = false ∧ c ≠ '<' := by
  intro c hc
  rw [styleLiteral, String.toList_ofList] at hc
  simp only [List.cons_append, List.mem_cons, List.mem_append, List.not_mem_nil, or_false,
    List.mem_flatMap] at hc
  rcases hc with rfl | ⟨d, -, hMem⟩ | rfl
  · decide
  · exact styleChar_clean d c hMem
  · decide

/-- A string is read up to its own quote. -/
theorem literal?_styleLiteral (text rest : String) :
    styleRules.literal? (styleLiteral text ++ rest).toList =
      some (text.toList.map shown, rest.toList) := by
  have hSpells : styleRules.Spells (text.toList.flatMap styleChar) (text.toList.map shown) := by
    rw [← List.flatMap_singleton' (text.toList.map shown), List.flatMap_map]
    exact LiteralRules.spells_flatMap spells_styleChar text.toList
  have hRead := LiteralRules.literal?_of_spells hSpells rest.toList
  rw [String.toList_append, styleLiteral, String.toList_ofList]
  simpa using hRead

/-- No text breaks out of a style sheet. Read by the rules of style sheets, the string of the content ends
at the quote that was written behind it, and its value is the failure with null characters replaced. The
style sheet holds no sign that opens a tag, and no control characters but the line feeds around the
string. -/
theorem style_contained (path message : String) :
    let text := "Build failed: " ++ path ++ "\n\n" ++ message
    style path message = styleFront ++ styleLiteral text ++ styleBack ∧
    styleRules.literal? (styleLiteral text ++ styleBack).toList =
      some (text.toList.map shown, styleBack.toList) ∧
    (∀ c ∈ (styleLiteral text).toList, isControl c = false) ∧
    ∀ c ∈ (style path message).toList, c ≠ '<' ∧ (isControl c = true → c = '\n') := by
  intro text
  have hWhole : style path message = styleFront ++ styleLiteral text ++ styleBack :=
    String.append_assoc
  refine ⟨hWhole, literal?_styleLiteral text styleBack,
    fun c hc => (styleLiteral_clean text c hc).1, ?_⟩
  intro c hc
  simp only [hWhole, String.toList_append, List.mem_append] at hc
  rcases hc with (hFront | hLiteral) | hBack
  · exact style_fixed c (List.mem_append_left _ hFront)
  · obtain ⟨hControl, hLess⟩ := styleLiteral_clean text c hLiteral
    exact ⟨hLess, fun h => absurd (hControl.symm.trans h) Bool.false_ne_true⟩
  · exact style_fixed c (List.mem_append_right _ hBack)

end Diagnostic

end ModuleGateway
