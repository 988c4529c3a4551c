import ModuleGateway.Proofs.Relink.Bytewise
import ModuleGateway.Proofs.Relink.Reading

/-!
The loops over bytes come to where the readers of characters come to. They start between two characters and
end between two characters, although an escape may lead them into the middle of one: there they find no byte
of ASCII until the next character begins.
-/

namespace ModuleGateway.Relink.Bytewise

open Text

variable {source front text middle back : List Char} {c d : Char} {b : UInt8} {i n : Nat}

/-! ### Bytes and cuts between characters -/

theorem byteAt_of_getElem? (h : (bytes source)[i]? = some b) : byteAt source i = .ok b := by
  rw [byteAt, h]

theorem getElem?_head (hText : source = front ++ text) :
    (bytes source)[utf8Length front]? = text.head?.map lead := by
  cases text with
  | nil => exact getElem?_end (by rw [hText, List.append_nil])
  | cons c rest => exact getElem?_lead hText

theorem utf8Length_concat (hAscii : c.toNat < 0x80) : utf8Length (front ++ [c]) = utf8Length front + 1 := by
  rw [utf8Length_append, utf8Length_cons, utf8Size_of_ascii hAscii]
  rfl

/-- The byte behind a character of ASCII is the first of the next character. -/
theorem getElem?_next (hText : source = front ++ c :: text) (hAscii : c.toNat < 0x80) :
    (bytes source)[utf8Length front + 1]? = text.head?.map lead := by
  have hBehind : source = (front ++ [c]) ++ text := by simp [hText]
  have hNext := getElem?_head hBehind
  rwa [utf8Length_concat hAscii] at hNext

/-- A cut succeeds exactly when it begins and ends between characters of the source, in this order. -/
theorem slice_eq_ok_iff {j : Nat} :
    slice source i j = .ok text ↔ ∃ front back, source = front ++ text ++ back ∧
      utf8Length front = i ∧ utf8Length (front ++ text) = j := by
  constructor
  · intro h
    unfold slice at h
    split at h
    · cases h
    · rename_i front back hFront
      split at h
      · cases h
      · rename_i inside after hInside
        split at h
        · rename_i hOrder
          cases h
          obtain ⟨rfl, rfl⟩ := cutAtByte?_eq_some_iff.mp hFront
          obtain ⟨rfl, hLength⟩ := cutAtByte?_eq_some_iff.mp hInside
          exact ⟨front, after, (List.append_assoc ..).symm, rfl, by rw [utf8Length_append]; omega⟩
        · cases h
  · rintro ⟨front, back, rfl, rfl, rfl⟩
    rw [slice, List.append_assoc, cutAtByte?_append, utf8Length_append, Nat.add_sub_cancel_left]
    simp only [cutAtByte?_append]
    exact if_pos (Nat.le_add_right _ _)

example : slice ['é'] 0 1 = .error .fault := by decide

theorem slice_of_append (back : List Char) (hText : source = front ++ middle ++ back) :
    slice source (utf8Length front) (utf8Length (front ++ middle)) = .ok middle :=
  slice_eq_ok_iff.mpr ⟨front, back, hText, rfl, rfl⟩

/-- Behind the two bytes of an escape the reader goes on where the escaped character ends. -/
theorem behind_escape {α : Type} {f : Nat → α} (h : PassesOver source f)
    (hText : source = front ++ '\\' :: c :: text) :
    f (utf8Length front + 2) = f (utf8Length (front ++ ['\\', c])) := by
  have hEscaped : source = (front ++ ['\\']) ++ c :: text := by simp [hText]
  have hBehind := h.tail hEscaped
  rw [utf8Length_concat (by decide), List.append_assoc] at hBehind
  exact hBehind

/-- A backslash begins an escape, of a character or of nothing. -/
theorem not_escape (hEscape : ∀ d rest, c = '\\' → text = d :: rest → False)
    (hEnd : c = '\\' → text = [] → False) : c ≠ '\\' := by
  rintro rfl
  cases text with
  | nil => exact hEnd rfl rfl
  | cons d rest => exact hEscape d rest rfl rfl

/-- Behind the two bytes of an escape without a character the source is over. -/
theorem length_le_of_escape (hText : source = front ++ ['\\']) :
    (bytes source).length ≤ utf8Length front + 2 := by
  rw [hText, length_bytes, utf8Length_concat (by decide)]
  exact Nat.le_succ _

/-! ### Tests -/

theorem ne_of_large (hLarge : 0x80 ≤ c.toNat) (hAscii : d.toNat < 0x80) : c ≠ d := by
  rintro rfl
  exact absurd hAscii (Nat.not_lt.mpr hLarge)

theorem isQuoteByte_lead (c : Char) : isQuoteByte (lead c) = isQuote c := by
  refine test_lead false (by decide +kernel) (by decide +kernel) (fun c hLarge => ?_) c
  simp [isQuote, ne_of_large hLarge]

theorem isBlankByte_lead (c : Char) : isBlankByte (lead c) = isBlank c := by
  refine test_lead false (by decide +kernel) (by decide +kernel) (fun c hLarge => ?_) c
  simp [isBlank, ne_of_large hLarge]

theorem isLineEndByte_lead (c : Char) : isLineEndByte (lead c) = isLineEnd c := by
  refine test_lead false (by decide +kernel) (by decide +kernel) (fun c hLarge => ?_) c
  simp [isLineEnd, ne_of_large hLarge]

theorem isDigitByte_lead (c : Char) : isDigitByte (lead c) = c.isDigit := by
  refine test_lead false (by decide +kernel) (by decide +kernel) (fun c hLarge => ?_) c
  have hVal : ¬c.val ≤ 57 := fun h => by
    have hSmall := UInt32.le_iff_toNat_le.mp h
    exact absurd (Nat.le_trans hLarge hSmall) (by decide)
  simp [Char.isDigit, hVal]

theorem isWordStartByte_lead (c : Char) : isWordStartByte (lead c) = isWordStart c := by
  refine test_lead true (by decide +kernel) (by decide +kernel) (fun c hLarge => ?_) c
  have hVal : 0x80 ≤ c.val := UInt32.le_iff_toNat_le.mpr hLarge
  simp [isWordStart, hVal]

theorem isWordPartByte_lead (c : Char) : isWordPartByte (lead c) = isWordPart c := by
  rw [isWordPartByte, isWordPart, isWordStartByte_lead, isDigitByte_lead]

theorem isWordPartByte_large {b : UInt8} (h : 0x80 ≤ b) : isWordPartByte b = true := by
  simp [isWordPartByte, isWordStartByte, h]

theorem ascii_of_isQuote (h : isQuote c = true) : c.toNat < 0x80 := by
  rcases (by simpa [isQuote] using h : c = '\'' ∨ c = '"') with rfl | rfl <;> decide

theorem ascii_of_isBlank (h : isBlank c = true) : c.toNat < 0x80 := by
  simp only [isBlank, Bool.or_eq_true, decide_eq_true_eq] at h
  rcases h with (((rfl | rfl) | rfl) | rfl) | rfl <;> decide

/-- A byte beyond ASCII is that of no character of ASCII. -/
theorem ne_ascii_of_large (hLarge : 0x80 ≤ b) (hAscii : d.toNat < 0x80) : b ≠ ascii d := by
  rintro rfl
  have hNat := UInt8.le_iff_toNat_le.mp hLarge
  rw [toNat_ascii hAscii] at hNat
  exact absurd hAscii (Nat.not_lt.mpr hNat)

theorem isLineEndByte_large (hLarge : 0x80 ≤ b) : isLineEndByte b = false := by
  simp [isLineEndByte, ne_ascii_of_large hLarge]

/-! ### Runs of bytes that pass a test -/

section Skip

variable {test : UInt8 → Bool} {p : Char → Bool}

theorem skip_here (h : (bytes source)[i]? = some b) :
    skip test source i = if test b then skip test source (i + 1) else i := by
  obtain ⟨hInside, rfl⟩ := List.getElem?_eq_some_iff.mp h
  rw [skip, dif_pos hInside]

theorem skip_end (h : (bytes source)[i]? = none) : skip test source i = i := by
  rw [skip, dif_neg (Nat.not_lt.mpr (List.getElem?_eq_none_iff.mp h))]

/-- A run of bytes ends where the run of characters ends, if the test goes on to the end of each character
that passes it. -/
theorem skip_eq (hTest : ∀ c, test (lead c) = p c)
    (hWhole : ∀ {front rest : List Char} {c : Char}, source = front ++ c :: rest → p c = true →
      skip test source (utf8Length front + 1) = skip test source (utf8Length (front ++ [c])))
    (hText : source = front ++ text) :
    skip test source (utf8Length front) = utf8Length (front ++ text.takeWhile p) := by
  induction text generalizing front with
  | nil =>
      rw [skip_end (getElem?_end (by rw [hText, List.append_nil])), List.takeWhile_nil, List.append_nil]
  | cons c rest ih =>
      have hNext : source = (front ++ [c]) ++ rest := by simp [hText]
      rw [skip_here (getElem?_lead hText), hTest]
      by_cases hHere : p c = true
      · rw [if_pos hHere, hWhole hText hHere, ih hNext, List.takeWhile_cons_of_pos hHere]
        simp
      · rw [if_neg hHere, List.takeWhile_cons_of_neg hHere, List.append_nil]

/-- A test that all bytes beyond ASCII pass goes on to the end of each character. -/
theorem skip_eq_of_large (hTest : ∀ c, test (lead c) = p c) (hLarge : ∀ b, 0x80 ≤ b → test b = true)
    (hText : source = front ++ text) :
    skip test source (utf8Length front) = utf8Length (front ++ text.takeWhile p) := by
  have hPasses : PassesOver source (skip test source) := fun i b hByte hBeyond => by
    rw [skip_here hByte, if_pos (hLarge b hBeyond)]
  exact skip_eq hTest (fun hHere _ => hPasses.tail hHere) hText

theorem skip_word (hText : source = front ++ text) :
    skip isWordPartByte source (utf8Length front) = utf8Length (front ++ text.takeWhile isWordPart) :=
  skip_eq_of_large isWordPartByte_lead (fun _ => isWordPartByte_large) hText

theorem skip_number (hText : source = front ++ text) :
    skip (fun d => isWordPartByte d || d = ascii '.') source (utf8Length front) =
      utf8Length (front ++ text.takeWhile fun d => isWordPart d || d = '.') := by
  refine skip_eq_of_large (fun c => ?_) (fun b hLarge => ?_) hText
  · rw [isWordPartByte_lead]
    simp [lead_eq_iff (c := c) (d := '.') (by decide)]
  · rw [isWordPartByte_large hLarge, Bool.true_or]

theorem skip_line (hText : source = front ++ text) :
    skip (· ≠ ascii '\n') source (utf8Length front) =
      utf8Length (front ++ text.takeWhile (· ≠ '\n')) := by
  refine skip_eq_of_large (fun c => ?_) (fun b hLarge => ?_) hText
  · simp [lead_eq_iff (c := c) (d := '\n') (by decide)]
  · simpa using ne_ascii_of_large hLarge (by decide)

/-- All blanks are of ASCII. -/
theorem skip_blanks (hText : source = front ++ text) :
    skip isBlankByte source (utf8Length front) = utf8Length (front ++ text.takeWhile isBlank) := by
  refine skip_eq isBlankByte_lead (fun {front rest c} _ hBlank => ?_) hText
  rw [utf8Length_concat (ascii_of_isBlank hBlank)]

end Skip

/-! ### String literals -/

theorem closingQuote?_here {quote : UInt8} (h : (bytes source)[i]? = some b) :
    closingQuote? quote source i =
      if b = ascii '\\' then closingQuote? quote source (i + 2)
      else if isLineEndByte b then none
      else if b = quote then some i
      else closingQuote? quote source (i + 1) := by
  obtain ⟨hInside, rfl⟩ := List.getElem?_eq_some_iff.mp h
  rw [closingQuote?, dif_pos hInside]

theorem closingQuote?_end {quote : UInt8} (h : (bytes source).length ≤ i) :
    closingQuote? quote source i = none := by
  rw [closingQuote?, dif_neg (Nat.not_lt.mpr h)]

theorem closingQuote?_passes {quote : Char} (hQuote : quote.toNat < 0x80) :
    PassesOver source (closingQuote? (ascii quote) source) := fun i b hByte hLarge => by
  rw [closingQuote?_here hByte, if_neg (ne_ascii_of_large hLarge (by decide)),
    isLineEndByte_large hLarge, if_neg Bool.false_ne_true, if_neg (ne_ascii_of_large hLarge hQuote)]

/-- The closing quote stands behind the inside of the literal. -/
theorem closingQuote?_eq {quote : Char} (hQuote : isQuote quote = true) (hText : source = front ++ text) :
    closingQuote? (ascii quote) source (utf8Length front) =
      (stringBody quote text).map fun body => utf8Length (front ++ body) := by
  have hPasses : PassesOver source (closingQuote? (ascii quote) source) :=
    closingQuote?_passes (ascii_of_isQuote hQuote)
  fun_induction stringBody quote text generalizing front with
  | case1 => exact closingQuote?_end (Nat.le_of_eq (by rw [hText, List.append_nil, length_bytes]))
  | case2 c rest ih =>
      rw [closingQuote?_here (getElem?_lead hText), if_pos (lead_of_ascii (by decide)),
        behind_escape hPasses hText, ih (by simp [hText]), Option.map_map]
      simp [Function.comp_def]
  | case3 =>
      rw [closingQuote?_here (getElem?_lead hText), if_pos (lead_of_ascii (by decide))]
      exact closingQuote?_end (length_le_of_escape hText)
  | case4 c rest hSingle hPair hLine =>
      have hOther : lead c ≠ ascii '\\' := by
        rw [ne_eq, lead_eq_iff (by decide)]
        rintro rfl
        cases hLine
      rw [closingQuote?_here (getElem?_lead hText), if_neg hOther, isLineEndByte_lead, if_pos hLine]
      rfl
  | case5 rest hSingle hPair hLine =>
      have hOther : lead quote ≠ ascii '\\' := by
        rw [ne_eq, lead_eq_iff (by decide)]
        rintro rfl
        cases hQuote
      rw [closingQuote?_here (getElem?_lead hText), if_neg hOther, isLineEndByte_lead, if_neg hLine,
        if_pos (lead_of_ascii (ascii_of_isQuote hQuote))]
      simp
  | case6 c rest hSingle hPair hLine hQuoteOther ih =>
      have hOther : lead c ≠ ascii '\\' :=
        (lead_eq_iff (by decide)).not.mpr (not_escape hSingle hPair)
      have hOpen : lead c ≠ ascii quote := (lead_eq_iff (ascii_of_isQuote hQuote)).not.mpr hQuoteOther
      rw [closingQuote?_here (getElem?_lead hText), if_neg hOther, isLineEndByte_lead, if_neg hLine,
        if_neg hOpen, hPasses.tail hText, ih (by simp [hText]), Option.map_map]
      simp [Function.comp_def]

/-! ### Template text -/

theorem chunkEnd?_here (h : (bytes source)[i]? = some b) :
    chunkEnd? source i =
      if b = ascii '\\' then chunkEnd? source (i + 2)
      else if b = ascii '\x60' then some (i + 1, .closed)
      else if b = ascii '$' && (bytes source)[i + 1]? = some (ascii '\x7b') then some (i + 2, .substitution)
      else chunkEnd? source (i + 1) := by
  obtain ⟨hInside, rfl⟩ := List.getElem?_eq_some_iff.mp h
  rw [chunkEnd?, dif_pos hInside]

theorem chunkEnd?_end (h : (bytes source).length ≤ i) : chunkEnd? source i = none := by
  rw [chunkEnd?, dif_neg (Nat.not_lt.mpr h)]

theorem chunkEnd?_passes : PassesOver source (chunkEnd? source) := fun i b hByte hLarge => by
  have hOther {d : Char} (hAscii : d.toNat < 0x80) : b ≠ ascii d := ne_ascii_of_large hLarge hAscii
  rw [chunkEnd?_here hByte, if_neg (hOther (by decide)), if_neg (hOther (by decide)),
    if_neg (by simp [hOther (d := '$') (by decide)])]

/-- A stretch of template text ends at the same place. -/
theorem chunkEnd?_eq (hText : source = front ++ text) :
    chunkEnd? source (utf8Length front) =
      (templateChunk text).map fun found => (utf8Length (front ++ text.take found.1), found.2) := by
  fun_induction templateChunk text generalizing front with
  | case1 => exact chunkEnd?_end (Nat.le_of_eq (by rw [hText, List.append_nil, length_bytes]))
  | case2 c rest ih =>
      rw [chunkEnd?_here (getElem?_lead hText), if_pos (lead_of_ascii (by decide)),
        behind_escape chunkEnd?_passes hText, ih (by simp [hText]), Option.map_map]
      simp [Function.comp_def]
  | case3 =>
      rw [chunkEnd?_here (getElem?_lead hText), if_pos (lead_of_ascii (by decide))]
      exact chunkEnd?_end (length_le_of_escape hText)
  | case4 rest =>
      rw [chunkEnd?_here (getElem?_lead hText), if_neg (by decide), if_pos (lead_of_ascii (by decide))]
      have hTick : utf8Length (front ++ ['\x60']) = utf8Length front + 1 := utf8Length_concat (by decide)
      simp [hTick]
  | case5 rest =>
      have hBrace : (bytes source)[utf8Length front + 1]? = some (ascii '\x7b') :=
        getElem?_next hText (by decide)
      have hBoth : utf8Length (front ++ ['$', '\x7b']) = utf8Length front + 2 := by
        rw [utf8Length_append]
        rfl
      rw [chunkEnd?_here (getElem?_lead hText), if_neg (by decide), if_neg (by decide),
        if_pos (by rw [hBrace]; decide)]
      simp [hBoth]
  | case6 c rest hEscape hEscapeEnd hTick hDollar ih =>
      have hBackslash : lead c ≠ ascii '\\' :=
        (lead_eq_iff (by decide)).not.mpr (not_escape hEscape hEscapeEnd)
      have hBacktick : lead c ≠ ascii '\x60' := (lead_eq_iff (by decide)).not.mpr hTick
      have hPlain : ¬(decide (lead c = ascii '$') &&
          decide ((bytes source)[utf8Length front + 1]? = some (ascii '\x7b'))) = true := by
        rw [Bool.and_eq_true, decide_eq_true_eq, decide_eq_true_eq, lead_eq_iff (by decide)]
        rintro ⟨rfl, hBrace⟩
        rw [getElem?_next hText (by decide)] at hBrace
        obtain ⟨d, hHead, hLead⟩ := Option.map_eq_some_iff.mp hBrace
        obtain rfl := (lead_eq_iff (by decide)).mp hLead
        obtain ⟨tail, rfl⟩ := List.head?_eq_some_iff.mp hHead
        exact hDollar tail rfl rfl
      rw [chunkEnd?_here (getElem?_lead hText), if_neg hBackslash, if_neg hBacktick, if_neg hPlain,
        chunkEnd?_passes.tail hText, ih (by simp [hText]), Option.map_map]
      simp [Function.comp_def]

/-! ### Block comments -/

/-- A block comment ends behind the first star and slash. -/
theorem find?_eq (text : List Char) :
    (find? ['*', '/'] text).map (· + 2) = (blockBody text).map fun n => utf8Length (text.take n) := by
  fun_induction blockBody text with
  | case1 => rfl
  | case2 rest => rfl
  | case3 c rest hEnd ih =>
      have hOther : List.isPrefixOf ['*', '/'] (c :: rest) = false := by
        rw [Bool.eq_false_iff]
        intro hHere
        obtain ⟨tail, hTail⟩ := List.isPrefixOf_iff_prefix.mp hHere
        obtain ⟨rfl, rfl⟩ := List.cons.inj hTail
        exact hEnd tail rfl rfl
      rw [find?, hOther, if_neg Bool.false_ne_true, Option.map_map, Option.map_map]
      have hInner := congrArg (Option.map (c.utf8Size + ·)) ih
      rw [Option.map_map, Option.map_map] at hInner
      simpa [Function.comp_def, utf8Length_cons, Nat.add_assoc] using hInner

/-! ### Regular expressions -/

theorem closingSlash?_here {inClass : Bool} (h : (bytes source)[i]? = some b) :
    closingSlash? inClass source i =
      if b = ascii '\\' then closingSlash? inClass source (i + 2)
      else if isLineEndByte b then none
      else if b = ascii '[' then closingSlash? true source (i + 1)
      else if b = ascii ']' then closingSlash? false source (i + 1)
      else if b = ascii '/' && !inClass then some (i + 1)
      else closingSlash? inClass source (i + 1) := by
  obtain ⟨hInside, rfl⟩ := List.getElem?_eq_some_iff.mp h
  rw [closingSlash?, dif_pos hInside]

theorem closingSlash?_end {inClass : Bool} (h : (bytes source).length ≤ i) :
    closingSlash? inClass source i = none := by
  rw [closingSlash?, dif_neg (Nat.not_lt.mpr h)]

theorem closingSlash?_passes (inClass : Bool) : PassesOver source (closingSlash? inClass source) :=
  fun i b hByte hLarge => by
    have hOther {d : Char} (hAscii : d.toNat < 0x80) : b ≠ ascii d := ne_ascii_of_large hLarge hAscii
    rw [closingSlash?_here hByte, if_neg (hOther (by decide)), isLineEndByte_large hLarge,
      if_neg Bool.false_ne_true, if_neg (hOther (by decide)), if_neg (hOther (by decide)),
      if_neg (by simp [hOther (d := '/') (by decide)])]

/-- A regular expression closes at the same place. -/
theorem closingSlash?_eq (inClass : Bool) (hText : source = front ++ text) :
    closingSlash? inClass source (utf8Length front) =
      (regexBody inClass text).map fun n => utf8Length (front ++ text.take n) := by
  fun_induction regexBody inClass text generalizing front with
  | case1 => exact closingSlash?_end (Nat.le_of_eq (by rw [hText, List.append_nil, length_bytes]))
  | case2 inClass c rest ih =>
      rw [closingSlash?_here (getElem?_lead hText), if_pos (lead_of_ascii (by decide)),
        behind_escape (closingSlash?_passes inClass) hText, ih (by simp [hText]), Option.map_map]
      simp [Function.comp_def]
  | case3 inClass =>
      rw [closingSlash?_here (getElem?_lead hText), if_pos (lead_of_ascii (by decide))]
      exact closingSlash?_end (length_le_of_escape hText)
  | case4 inClass rest ih =>
      rw [closingSlash?_here (getElem?_lead hText), if_neg (by decide), if_neg (by decide),
        if_pos (lead_of_ascii (by decide)), (closingSlash?_passes true).tail hText, ih (by simp [hText]),
        Option.map_map]
      simp [Function.comp_def]
  | case5 inClass rest ih =>
      rw [closingSlash?_here (getElem?_lead hText), if_neg (by decide), if_neg (by decide),
        if_neg (by decide), if_pos (lead_of_ascii (by decide)), (closingSlash?_passes false).tail hText,
        ih (by simp [hText]), Option.map_map]
      simp [Function.comp_def]
  | case6 inClass c rest hEscape hEscapeEnd hOpen hClose hLine =>
      have hBackslash : lead c ≠ ascii '\\' :=
        (lead_eq_iff (by decide)).not.mpr (not_escape hEscape hEscapeEnd)
      rw [closingSlash?_here (getElem?_lead hText), if_neg hBackslash, isLineEndByte_lead, if_pos hLine]
      rfl
  | case7 inClass c rest hEscape hEscapeEnd hOpen hClose hLine hSlash =>
      obtain ⟨rfl, hOutside⟩ : c = '/' ∧ inClass = false := by simpa using hSlash
      rw [closingSlash?_here (getElem?_lead hText), if_neg (by decide), if_neg (by decide),
        if_neg (by decide), if_neg (by decide), hOutside, if_pos (by decide)]
      have hSolidus : utf8Length (front ++ ['/']) = utf8Length front + 1 := utf8Length_concat (by decide)
      simp [hSolidus]
  | case8 inClass c rest hEscape hEscapeEnd hOpen hClose hLine hSlash ih =>
      have hBackslash : lead c ≠ ascii '\\' :=
        (lead_eq_iff (by decide)).not.mpr (not_escape hEscape hEscapeEnd)
      have hOpening : lead c ≠ ascii '[' := (lead_eq_iff (by decide)).not.mpr hOpen
      have hClosing : lead c ≠ ascii ']' := (lead_eq_iff (by decide)).not.mpr hClose
      have hOther : ¬(decide (lead c = ascii '/') && !inClass) = true := by
        simpa [lead_eq_iff (c := c) (d := '/') (by decide)] using hSlash
      rw [closingSlash?_here (getElem?_lead hText), if_neg hBackslash, isLineEndByte_lead, if_neg hLine,
        if_neg hOpening, if_neg hClosing, if_neg hOther, (closingSlash?_passes inClass).tail hText,
        ih (by simp [hText]), Option.map_map]
      simp [Function.comp_def]

end ModuleGateway.Relink.Bytewise
