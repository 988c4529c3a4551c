import ModuleGateway.Diagnostic
import ModuleGateway.Proofs.Relink.Reading
import ModuleGateway.Proofs.Text.Literal
import ModuleGateway.Proofs.Text.Split
import ModuleGateway.Script.Token
import Mathlib.Data.Bool.AllAny

/-!
Texts as string literals of scripts. A script reads its texts in code units of UTF-16. JSON writes every
character as itself or as an escape that scripts know too. A diagnostic puts a backslash between the signs
of `</` and writes the line separators as escapes; these changes of an encoded text neither cut an escape
nor join one, because none of them starts inside of an escape.
-/

namespace ModuleGateway

open Text

namespace Diagnostic

/-! ### String literals of scripts -/

/-- The code units of a character's number in UTF-16. -/
def units (n : Nat) : List Nat :=
  if n < 0x10000 then [n] else [0xd800 + (n - 0x10000) / 0x400, 0xdc00 + (n - 0x10000) % 0x400]

/-- The code units of a text. -/
def textUnits (text : List Char) : List Nat :=
  text.flatMap fun c => units c.toNat

/-- The letters that stand for control characters behind a backslash. -/
def controlLetters : List (Char × Nat) :=
  [('b', 0x08), ('t', 0x09), ('n', 0x0a), ('v', 0x0b), ('f', 0x0c), ('r', 0x0d)]

/-- An escape in a string literal of a module, behind its backslash. A line end stands for nothing, and no
digit may follow the zero that stands for null. Characters without a meaning of their own stand for
themselves. -/
def scriptEscape? (text : List Char) : Option (List Nat × Nat) :=
  match text with
  | [] => none
  | '\r' :: '\n' :: _ => some ([], 2)
  | 'u' :: rest =>
    (Script.unitEscape? rest).map fun (n, behind) => (units n, 1 + (rest.length - behind.length))
  | 'x' :: a :: b :: _ => (hexNumber? [a, b]).map fun n => (units n, 3)
  | 'x' :: _ => none
  | c :: rest =>
    match controlLetters.lookup c with
    | some unit => some ([unit], 1)
    | none =>
      if Script.isLineEnd c then some ([], 1)
      else if c.isDigit then
        if c = '0' && !rest.head?.any Char.isDigit then some ([0], 1) else none
      else some (units c.toNat, 1)

/-- How modules read string literals. Line and paragraph separators may stand in them. -/
def scriptRules : LiteralRules Nat where
  breaksOff c := c = '\n' || c = '\r'
  plain c := units c.toNat
  escape? := scriptEscape?

/-! ### Characters in a literal -/

/-- The characters with a short escape, and its letter. -/
def shortEscapes : List (Char × Char) :=
  [('"', '"'), ('\\', '\\'), ('/', '/'), ('\x08', 'b'), ('\x0c', 'f'), ('\n', 'n'), ('\r', 'r'),
    ('\t', 't')]

/-- The ways to write a character in a literal. -/
inductive Form : Char → List Char → Prop where
  | plain {c : Char} (hQuote : c ≠ '"') (hEscape : c ≠ '\\') (hControl : 0x20 ≤ c.toNat) : Form c [c]
  | short {c letter : Char} (h : (c, letter) ∈ shortEscapes) : Form c ['\\', letter]
  | number {c : Char} (hSmall : c.toNat < 0x10000) : Form c ('\\' :: 'u' :: hex4 c.toNat)

/-- The second text is the first one, written in a literal. -/
inductive Encodes : List Char → List Char → Prop where
  | nil : Encodes [] []
  | cons {c : Char} {form text body : List Char} (first : Form c form) (later : Encodes text body) :
      Encodes (c :: text) (form ++ body)

variable {c : Char} {form text body rest : List Char}

theorem hexValue?_digitChar {d : Nat} (h : d < 16) : hexValue? d.digitChar = some d := by
  decide +revert

theorem digitChar_plain {d : Nat} (h : d < 16) :
    d.digitChar ≠ '"' ∧ d.digitChar ≠ '\\' ∧ d.digitChar ≠ '\x7b' ∧ d.digitChar ≠ '<' ∧
      0x20 ≤ d.digitChar.toNat ∧ d.digitChar.toNat < 0x80 := by
  decide +revert

theorem exists_digit_of_mem_hex4 {n : Nat} (h : c ∈ hex4 n) : ∃ d < 16, c = d.digitChar := by
  obtain ⟨d, hDigit, rfl⟩ := List.mem_map.mp h
  simp only [List.mem_cons, List.not_mem_nil, or_false] at hDigit
  exact ⟨d, by omega, rfl⟩

theorem hexNumber?_hex4 {n : Nat} (hSmall : n < 0x10000) : hexNumber? (hex4 n) = some n := by
  have hDigit (d : Nat) : hexValue? (d % 16).digitChar = some (d % 16) :=
    hexValue?_digitChar (Nat.mod_lt d (by decide))
  simp only [hexNumber?, hex4, List.map_cons, List.map_nil, List.foldlM_cons, List.foldlM_nil, hDigit]
  simp only [Option.map_some, Option.bind_eq_bind, Option.bind_some, Option.pure_def, Option.some.injEq]
  omega

theorem unitEscape?_hex4 {n : Nat} (hSmall : n < 0x10000) (rest : List Char) :
    Script.unitEscape? (hex4 n ++ rest) = some (n, rest) := by
  have hNumber := hexNumber?_hex4 hSmall
  have hBrace := (digitChar_plain (Nat.mod_lt (n / 4096) (by decide : 16 > 0))).2.2.1
  simp only [hex4, List.map_cons, List.map_nil, List.cons_append, List.nil_append] at hNumber ⊢
  unfold Script.unitEscape?
  split
  · rename_i hFirst
    exact absurd (List.cons.inj hFirst).1 hBrace
  · rename_i hFirst
    injection hFirst with hA hFirst
    injection hFirst with hB hFirst
    injection hFirst with hC hFirst
    injection hFirst with hD hRest
    rw [← hA, ← hB, ← hC, ← hD, hNumber, hRest]
    rfl
  · rename_i hNone
    exact absurd rfl (hNone _ _ _ _ _)

/-- However it is written, a character is read as its code units. -/
theorem Form.spells (h : Form c form) : scriptRules.Spells form (units c.toNat) := by
  cases h with
  | plain hQuote hEscape hControl =>
      refine LiteralRules.spells_plain hQuote hEscape ?_
      have hOther (d : Char) (hd : d.toNat < 0x20) : c ≠ d := by
        rintro rfl
        omega
      simp [scriptRules, hOther '\n' (by decide), hOther '\r' (by decide)]
  | short hShort =>
      refine LiteralRules.spells_escape fun rest => ?_
      simp only [shortEscapes, List.mem_cons, Prod.mk.injEq, List.not_mem_nil, or_false] at hShort
      rcases hShort with ⟨rfl, rfl⟩ | ⟨rfl, rfl⟩ | ⟨rfl, rfl⟩ | ⟨rfl, rfl⟩ | ⟨rfl, rfl⟩ | ⟨rfl, rfl⟩ |
        ⟨rfl, rfl⟩ | ⟨rfl, rfl⟩ <;> rfl
  | number hSmall =>
      refine LiteralRules.spells_escape fun rest => ?_
      have hLength : (hex4 c.toNat ++ rest).length - rest.length = 4 := by
        rw [List.length_append, Nat.add_sub_cancel]
        rfl
      simp only [scriptRules, scriptEscape?, List.cons_append, unitEscape?_hex4 hSmall, Option.map_some,
        hLength]
      rfl

theorem Encodes.spells (h : Encodes text body) : scriptRules.Spells body (textUnits text) := by
  induction h with
  | nil => exact LiteralRules.spells_nil
  | cons first later ih => exact first.spells.append ih

/-- A literal is read up to its own quote. -/
theorem Encodes.literal? (h : Encodes text body) (rest : List Char) :
    scriptRules.literal? ('"' :: body ++ '"' :: rest) = some (textUnits text, rest) :=
  LiteralRules.literal?_of_spells h.spells rest

/-- The characters of a literal lie above the control characters, and only characters that are written as
themselves lie above ASCII or open a tag. -/
theorem Form.mem (h : Form c form) {d : Char} (hMem : d ∈ form) :
    0x20 ≤ d.toNat ∧ (d = c ∨ d.toNat < 0x80 ∧ d ≠ '<') := by
  cases h with
  | plain hQuote hEscape hControl =>
      obtain rfl := List.mem_singleton.mp hMem
      exact ⟨hControl, .inl rfl⟩
  | short hShort =>
      have hLetters : ∀ pair ∈ shortEscapes,
          0x20 ≤ pair.2.toNat ∧ pair.2.toNat < 0x80 ∧ pair.2 ≠ '<' := by decide
      simp only [List.mem_cons, List.not_mem_nil, or_false] at hMem
      rcases hMem with rfl | rfl
      · exact ⟨by decide, .inr (by decide)⟩
      · obtain ⟨hLow, hHigh⟩ := hLetters _ hShort
        exact ⟨hLow, .inr hHigh⟩
  | number hSmall =>
      simp only [List.mem_cons] at hMem
      rcases hMem with rfl | rfl | hDigit
      · exact ⟨by decide, .inr (by decide)⟩
      · exact ⟨by decide, .inr (by decide)⟩
      · obtain ⟨n, hn, rfl⟩ := exists_digit_of_mem_hex4 hDigit
        obtain ⟨-, -, -, hLess, hLow, hHigh⟩ := digitChar_plain hn
        exact ⟨hLow, .inr ⟨hHigh, hLess⟩⟩

open Relink (Inside) in
theorem inside_plain {chunk : List Char}
    (hPlain : ∀ c ∈ chunk, c ≠ '"' ∧ c ≠ '\\' ∧ 0x20 ≤ c.toNat) (h : Inside '"' body) :
    Inside '"' (chunk ++ body) := by
  induction chunk with
  | nil => exact h
  | cons c chunk ih =>
      obtain ⟨⟨hQuote, hEscape, hControl⟩, hOthers⟩ := List.forall_mem_cons.mp hPlain
      have hOther (d : Char) (hd : d.toNat < 0x20) : c ≠ d := by
        rintro rfl
        omega
      have hLine : Relink.isLineEnd c = false := by
        simp [Relink.isLineEnd, hOther '\n' (by decide), hOther '\r' (by decide)]
      exact .plain hQuote hEscape hLine (ih hOthers)

/-- The scanner of scripts reads a literal up to the same quote. -/
theorem Encodes.inside (h : Encodes text body) : Relink.Inside '"' body := by
  induction h with
  | nil => exact .nil
  | cons first later ih =>
      cases first with
      | plain hQuote hEscape hControl => exact inside_plain (by simp [hQuote, hEscape, hControl]) ih
      | short hShort => exact .escaped ih
      | number hSmall =>
          refine .escaped (inside_plain (fun c hc => ?_) ih)
          obtain ⟨d, hd, rfl⟩ := exists_digit_of_mem_hex4 hc
          obtain ⟨hQuote, hEscape, -, -, hLow, -⟩ := digitChar_plain hd
          exact ⟨hQuote, hEscape, hLow⟩

/-! ### JSON -/

theorem form_escapeChar (c : Char) : Form c (Json.escapeChar c) := by
  have hShort {c letter : Char} (h : (c, letter) ∈ shortEscapes) : Form c ['\\', letter] := .short h
  unfold Json.escapeChar
  split_ifs with hQuote hEscape hBack hForm hFeed hReturn hTab hControl
  · exact hShort (by rw [hQuote]; decide)
  · exact hShort (by rw [hEscape]; decide)
  · exact hShort (by rw [hBack]; decide)
  · exact hShort (by rw [hForm]; decide)
  · exact hShort (by rw [hFeed]; decide)
  · exact hShort (by rw [hReturn]; decide)
  · exact hShort (by rw [hTab]; decide)
  · exact .number (by omega)
  · exact .plain hQuote hEscape (by omega)

theorem encodes_flatMap {write : Char → List Char} (h : ∀ c, Form c (write c)) (text : List Char) :
    Encodes text (text.flatMap write) := by
  induction text with
  | nil => exact .nil
  | cons c text ih =>
      rw [List.flatMap_cons]
      exact .cons (h c) ih

/-- A text written character by character, with a backslash between the signs of `</`. -/
def parted (write : Char → List Char) : List Char → List Char
  | [] => []
  | '<' :: '/' :: rest => '<' :: '\\' :: '/' :: parted write rest
  | c :: rest => write c ++ parted write rest

section Parted

variable {write : Char → List Char} (hForm : ∀ c, Form c (write c)) (hOpen : write '<' = ['<'])
  (hSlash : write '/' = ['/'])

/-- Only a slash is written with a slash in front. -/
theorem Form.eq_slash (h : Form c form) (hHead : (form ++ rest).head? = some '/') : c = '/' := by
  cases h with
  | plain hQuote hEscape hControl => exact Option.some.inj hHead
  | short hShort => exact absurd (Option.some.inj hHead) (by decide)
  | number hSmall => exact absurd (Option.some.inj hHead) (by decide)

theorem head_ne_slash (h : ∀ later, text ≠ '/' :: later) : text.head? ≠ some '/' := by
  cases text with
  | nil => simp
  | cons c later =>
      intro hHead
      exact h later (congrArg (· :: later) (Option.some.inj hHead))

include hForm in
theorem head_flatMap_ne_slash {tail : List Char} (hTail : tail.head? ≠ some '/')
    (hText : text.head? ≠ some '/') : (text.flatMap write ++ tail).head? ≠ some '/' := by
  cases text with
  | nil => exact hTail
  | cons c text =>
      rw [List.flatMap_cons, List.append_assoc]
      intro hHead
      exact hText (congrArg some ((hForm c).eq_slash hHead))

include hForm in
theorem head_parted_ne_slash {tail : List Char} (hTail : tail.head? ≠ some '/')
    (hText : text.head? ≠ some '/') : (parted write text ++ tail).head? ≠ some '/' := by
  unfold parted
  split
  · exact hTail
  · simp
  · rename_i c text _
    rw [List.append_assoc]
    intro hHead
    exact hText (congrArg some ((hForm c).eq_slash hHead))

include hForm in
theorem not_opening_of_ne (h : c ≠ '<') : '<' ∉ write c := by
  intro hMem
  rcases ((hForm c).mem hMem).2 with hSame | ⟨-, hLess⟩
  · exact h hSame.symm
  · exact hLess rfl

/-- Text without the first sign of the pattern is passed over. -/
theorem go_append {pattern value chunk : List Char} (hFree : '<' ∉ chunk) (rest : List Char) :
    replaceAll.go ('<' :: pattern) value 0 (chunk ++ rest) =
      chunk ++ replaceAll.go ('<' :: pattern) value 0 rest := by
  induction chunk with
  | nil => rfl
  | cons c chunk ih =>
      obtain ⟨hFirst, hOthers⟩ := not_or.mp (List.mem_cons.not.mp hFree)
      rw [List.cons_append, replaceAll.go, if_neg (by simp [hFirst]), ih hOthers]
      rfl

include hForm hOpen hSlash in
/-- Parting the signs of a written text is the same as writing it with parted signs. -/
theorem go_flatMap {tail : List Char} (hFree : '<' ∉ tail) (hTail : tail.head? ≠ some '/')
    (text : List Char) :
    replaceAll.go ['<', '/'] ['<', '\\', '/'] 0 (text.flatMap write ++ tail) =
      parted write text ++ tail := by
  fun_induction parted write text with
  | case1 =>
      have hKept : replaceAll.go ['<', '/'] ['<', '\\', '/'] 0 (tail ++ []) =
          tail ++ replaceAll.go ['<', '/'] ['<', '\\', '/'] 0 [] := go_append hFree []
      simpa [replaceAll.go] using hKept
  | case2 text ih =>
      rw [List.flatMap_cons, List.flatMap_cons, hOpen, hSlash]
      simp [replaceAll.go, ih]
  | case3 c text hTag ih =>
      rw [List.flatMap_cons, List.append_assoc, List.append_assoc]
      by_cases hLess : c = '<'
      · have hNext := head_flatMap_ne_slash hForm hTail (head_ne_slash fun later => hTag later hLess)
        rw [hLess, hOpen, List.singleton_append, replaceAll.go, if_neg, ih]
        · rfl
        · cases hRest : text.flatMap write ++ tail with
          | nil => simp
          | cons d others =>
              have hOther : '/' ≠ d := by
                rintro rfl
                exact hNext (by rw [hRest]; rfl)
              simp [hOther]
      · rw [go_append (not_opening_of_ne hForm hLess), ih]

/-- A replaced character stands in no tag. -/
theorem flatMap_parted (old : Char) {new : List Char} (hLess : old ≠ '<') (hSlash : old ≠ '/')
    (hEscape : old ≠ '\\') (text : List Char) :
    (parted write text).flatMap (replaceChar old new) =
      parted (fun c => (write c).flatMap (replaceChar old new)) text := by
  fun_induction parted write text with
  | case1 => rfl
  | case2 text ih =>
      rw [parted, ← ih]
      simp [replaceChar, hLess.symm, hSlash.symm, hEscape.symm]
  | case3 c text hTag ih =>
      rw [parted, List.flatMap_append, ih]
      exact hTag

theorem encodes_parted (hForm : ∀ c, Form c (write c)) (text : List Char) :
    Encodes text (parted write text) := by
  fun_induction parted write text with
  | case1 => exact .nil
  | case2 text ih =>
      have hLess : Form '<' ['<'] := .plain (by decide) (by decide) (by decide)
      have hSlash : Form '/' ['\\', '/'] := .short (by decide)
      exact .cons hLess (.cons hSlash ih)
  | case3 c text hTag ih => exact .cons (hForm c) ih

theorem mem_parted {d : Char} (h : d ∈ parted write text) :
    d ∈ ['<', '\\', '/'] ∨ ∃ c, d ∈ write c := by
  fun_induction parted write text with
  | case1 => cases h
  | case2 text ih =>
      rcases List.mem_append.mp (show d ∈ ['<', '\\', '/'] ++ parted write text from h) with hTag | hRest
      · exact .inl hTag
      · exact ih hRest
  | case3 c text hTag ih =>
      rcases List.mem_append.mp h with hFirst | hRest
      · exact .inr ⟨c, hFirst⟩
      · exact ih hRest

theorem not_infix_append (chunk : List Char) (hFree : '<' ∉ chunk)
    (hRest : ¬['<', '/'] <:+: rest) : ¬['<', '/'] <:+: chunk ++ rest := by
  induction chunk with
  | nil => exact hRest
  | cons c chunk ih =>
      obtain ⟨hFirst, hOthers⟩ := not_or.mp (List.mem_cons.not.mp hFree)
      rw [List.cons_append, List.infix_cons_iff, List.cons_prefix_cons]
      exact not_or.mpr ⟨fun hPrefix => hFirst hPrefix.1, ih hOthers⟩

/-- A text whose signs are parted closes no tag. -/
theorem parted_closes_no_tag (hForm : ∀ c, Form c (write c)) (hOpen : write '<' = ['<'])
    {tail : List Char} (hFree : '<' ∉ tail) (hTail : tail.head? ≠ some '/') (text : List Char) :
    ¬['<', '/'] <:+: parted write text ++ tail := by
  fun_induction parted write text with
  | case1 => exact fun hInfix => hFree (hInfix.subset List.mem_cons_self)
  | case2 text ih =>
      have hRest : ¬['<', '/'] <:+: ['\\', '/'] ++ (parted write text ++ tail) :=
        not_infix_append _ (by decide) ih
      rw [List.cons_append, List.infix_cons_iff, List.cons_prefix_cons]
      exact not_or.mpr ⟨by simp, hRest⟩
  | case3 c text hTag ih =>
      rw [List.append_assoc]
      by_cases hLess : c = '<'
      · have hNext := head_parted_ne_slash hForm hTail (head_ne_slash fun later => hTag later hLess)
        rw [hLess, hOpen, List.singleton_append, List.infix_cons_iff, List.cons_prefix_cons]
        refine not_or.mpr ⟨fun hPrefix => ?_, ih⟩
        obtain ⟨others, hOthers⟩ := hPrefix.2
        exact hNext (by rw [← hOthers]; rfl)
      · exact not_infix_append _ (not_opening_of_ne hForm hLess) ih

end Parted

/-! ### The literal of a script -/

/-- What a diagnostic writes for a character. -/
def scriptChar (c : Char) : List Char :=
  ((Json.escapeChar c).flatMap (replaceChar '\u2028' "\\u2028".toList)).flatMap
    (replaceChar '\u2029' "\\u2029".toList)

/-- Separators of lines and paragraphs are written as escapes, the other characters as in JSON. -/
theorem scriptChar_eq (c : Char) :
    scriptChar c =
      if c = '\u2028' ∨ c = '\u2029' then '\\' :: 'u' :: hex4 c.toNat else Json.escapeChar c := by
  split_ifs with h
  · rcases h with rfl | rfl <;> decide
  · have hFree (old : Char) (hOld : 0x80 ≤ old.toNat) (hNot : c ≠ old) : old ∉ Json.escapeChar c := by
      intro hMem
      rcases ((form_escapeChar c).mem hMem).2 with hSame | ⟨hSmall, -⟩
      · exact hNot hSame.symm
      · omega
    obtain ⟨hLine, hParagraph⟩ := not_or.mp h
    rw [scriptChar, flatMap_replaceChar_of_not_mem (hFree '\u2028' (by decide) hLine),
      flatMap_replaceChar_of_not_mem (hFree '\u2029' (by decide) hParagraph)]

theorem form_scriptChar (c : Char) : Form c (scriptChar c) := by
  rw [scriptChar_eq]
  split_ifs with h
  · exact .number (by rcases h with rfl | rfl <;> decide)
  · exact form_escapeChar c

/-- The inside of a literal in a script. -/
def scriptBody (text : List Char) : List Char :=
  parted scriptChar text

/-- The literal of a script is the text, written character by character, between two quotes. -/
theorem toList_scriptLiteral (text : String) :
    (scriptLiteral text).toList = '"' :: scriptBody text.toList ++ ['"'] := by
  have hClosed : replaceAll ['<', '/'] ['<', '\\', '/'] (Json.quote text.toList) =
      '"' :: (parted Json.escapeChar text.toList ++ ['"']) := by
    rw [replaceAll, if_neg (List.cons_ne_nil _ _), Json.quote]
    exact congrArg ('"' :: ·) (go_flatMap form_escapeChar rfl rfl (by decide) (by decide) text.toList)
  have hQuote (old : Char) (new : List Char) (h : old ≠ '"') : replaceChar old new '"' = ['"'] :=
    if_neg h.symm
  rw [scriptLiteral, String.toList_ofList, hClosed, replaceAll_singleton, replaceAll_singleton]
  simp only [List.flatMap_cons, List.flatMap_append, List.flatMap_nil, List.append_nil,
    hQuote '\u2028' _ (by decide), hQuote '\u2029' _ (by decide),
    flatMap_parted '\u2028' (by decide) (by decide) (by decide),
    flatMap_parted '\u2029' (by decide) (by decide) (by decide)]
  rfl

/-- The literal is read up to its own quote, and its value is the text. -/
theorem literal?_scriptLiteral (text rest : String) :
    scriptRules.literal? (scriptLiteral text ++ rest).toList =
      some (textUnits text.toList, rest.toList) := by
  have hRead := (encodes_parted form_scriptChar text.toList).literal? rest.toList
  rw [String.toList_append, toList_scriptLiteral]
  simpa [scriptBody] using hRead

/-- The characters at which a script ends a line. -/
def lineEnds : List Char :=
  ['\n', '\r', '\u2028', '\u2029']

/-- What is written for a character ends no line. -/
theorem scriptChar_one_line {c d : Char} (h : d ∈ scriptChar c) : d ∉ lineEnds := by
  have hEnds : ∀ e ∈ lineEnds, e.toNat < 0x20 ∨ 0x80 ≤ e.toNat ∧ (e = '\u2028' ∨ e = '\u2029') :=
    List.all_iff_forall_prop.mp (by decide)
  intro hMem
  obtain ⟨hLow, hHigh⟩ := (form_scriptChar c).mem h
  rcases hEnds d hMem with hControl | ⟨hAbove, hSeparator⟩
  · omega
  rcases hHigh with rfl | ⟨hSmall, -⟩
  · rw [scriptChar_eq, if_pos hSeparator] at h
    have hBelow : d.toNat < 0x80 := by
      simp only [List.mem_cons] at h
      rcases h with hSame | hSame | hDigit
      · rw [hSame]
        decide
      · rw [hSame]
        decide
      · obtain ⟨n, hn, rfl⟩ := exists_digit_of_mem_hex4 hDigit
        obtain ⟨-, -, -, -, -, hHigh⟩ := digitChar_plain hn
        exact hHigh
    omega
  · omega

theorem scriptLiteral_one_line (text : String) : ∀ c ∈ (scriptLiteral text).toList, c ∉ lineEnds := by
  intro c hc
  rw [toList_scriptLiteral] at hc
  simp only [List.cons_append, List.mem_cons, List.mem_append, List.not_mem_nil, or_false] at hc
  rcases hc with rfl | hBody | rfl
  · decide
  · rcases mem_parted hBody with hTag | ⟨d, hForm⟩
    · have hEvery : ∀ e ∈ ['<', '\\', '/'], e ∉ lineEnds := List.all_iff_forall_prop.mp (by decide)
      exact hEvery c hTag
    · exact scriptChar_one_line hForm
  · decide

theorem scriptLiteral_closes_no_tag (text : String) : ¬['<', '/'] <:+: (scriptLiteral text).toList := by
  have hBody : ¬['<', '/'] <:+: scriptBody text.toList ++ ['"'] :=
    parted_closes_no_tag form_scriptChar (by decide) (by decide) (by decide) text.toList
  rw [toList_scriptLiteral, List.cons_append]
  exact not_infix_append ['"'] (by decide) hBody

end Diagnostic

end ModuleGateway
