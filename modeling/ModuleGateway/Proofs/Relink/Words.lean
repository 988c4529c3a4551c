import ModuleGateway.Proofs.Relink.Tokens

/-!
How the scanner reads the words of printed modules, and the literals and comments. A word in a clause does
not end the clause unless it is a `from` in front of a quote, and a word of an expression starts no import.
-/

namespace ModuleGateway.Relink.Concrete

variable {f g : Frame} {c : Char} {text rest : List Char} {s t : Scanner}

/-! ### Words -/

theorem not_start_of_isDigit (hDigit : c.isDigit = true) : isWordStart c = false := by
  simp only [Char.isDigit, Bool.and_eq_true, decide_eq_true_eq, UInt32.le_iff_toNat_le, ge_iff_le]
    at hDigit
  have hLow : '0'.val.toNat ≤ c.val.toNat := hDigit.1
  have hHigh : c.val.toNat ≤ '9'.val.toNat := hDigit.2
  have hOther (d : Char) (hd : '9'.val.toNat < d.val.toNat ∨ d.val.toNat < '0'.val.toNat) : c ≠ d := by
    rintro rfl
    omega
  rw [isWordStart]
  delta Char.isAlpha Char.isUpper Char.isLower
  simp only [Bool.or_eq_false_iff, decide_eq_false_iff_not, Bool.and_eq_false_iff,
    UInt32.le_iff_toNat_le, ge_iff_le]
  have hAbove {n : Nat} (hn : '9'.val.toNat < n) : ¬n ≤ c.val.toNat :=
    Nat.not_le.mpr (Nat.lt_of_le_of_lt hHigh hn)
  exact ⟨⟨⟨⟨fun hUpper => hAbove (by decide) hUpper.1, Or.inl (hAbove (by decide))⟩,
    hOther '_' (.inl (by decide))⟩, hOther '$' (.inr (by decide))⟩, hAbove (by decide)⟩

theorem ne_of_isWordStart (hStart : isWordStart c = true) {d : Char} (hd : isWordStart d = false) :
    c ≠ d := by
  rintro rfl
  rw [hStart] at hd
  cases hd

theorem not_quote_of_isWordStart (hStart : isWordStart c = true) : isQuote c = false := by
  simp [isQuote, ne_of_isWordStart hStart (d := '\'') (by decide),
    ne_of_isWordStart hStart (d := '"') (by decide)]

theorem code_word (hStart : isWordStart c = true) : s.code c rest = s.word := by
  have hOther (d : Char) (hd : isWordStart d = false) : c ≠ d := ne_of_isWordStart hStart hd
  have hQuote := not_quote_of_isWordStart hStart
  have hDigit : c.isDigit = false := by
    by_contra hDigit
    rw [not_start_of_isDigit (by simpa using hDigit)] at hStart
    cases hStart
  simp [Scanner.code, hQuote, hDigit, hStart, hOther '\x60' (by decide), hOther '/' (by decide),
    hOther '\x7b' (by decide), hOther '\x7d' (by decide), hOther ';' (by decide),
    hOther '(' (by decide), hOther ')' (by decide), hOther ']' (by decide), hOther '+' (by decide),
    hOther '-' (by decide)]

/-- No word goes on here. -/
def Ends (rest : List Char) : Prop :=
  ∀ c ∈ rest.head?, isWordPart c = false

theorem Word.isPart (w : Word) : ∀ c ∈ w.text, isWordPart c = true := by
  intro c hc
  rcases List.mem_cons.mp hc with rfl | hc
  · simp [isWordPart, w.start]
  · exact w.parts c hc

theorem Word.letters (w : Word) (hEnd : Ends rest) :
    (w.text ++ rest).takeWhile isWordPart = w.text := by
  rw [takeWhile_append_of_head hEnd]
  exact List.takeWhile_eq_self_iff.mpr w.isPart

theorem Word.no_dot (w : Word) {move : List Char} (hPasses : s.Passes (move ++ w.text) t) :
    t.isMember = false := by
  have hLast := List.dropLast_concat_getLast (l := w.text) (by simp [Word.text])
  rw [← hLast, ← List.append_assoc] at hPasses
  refine isMember_of_passes _ hPasses fun hDot => ?_
  have hPart := w.isPart _ (List.getLast_mem (l := w.text) (by simp [Word.text]))
  rw [hDot] at hPart
  exact absurd hPart (by decide)

/-- A word that is read alone. -/
theorem leads_word (w : Word) (hCode : f.mode = .code)
    (hWord : ∀ s, f.Holds (w.text ++ rest) s → ∃ prior head, s.word =
      { s.token w.text.length prior with statementHead := head, awaitingFrom := g.awaiting })
    (hSame : g = { f.past with awaiting := g.awaiting }) :
    Leads f (w.text ++ rest) (plain w.text) g rest := by
  refine leads_of_skips _ fun s hHere => ?_
  obtain ⟨prior, head, hToken⟩ := hWord s hHere
  have hSkips : s.Skips w.text s.word := by
    refine Scanner.skips_of_step (by simp [hHere.ahead, Word.text]) hHere.ahead
      (by rw [hToken]; exact ⟨rfl, rfl, rfl⟩) fun d tail hAhead => ?_
    obtain ⟨rfl, -⟩ := List.cons.inj (hHere.ahead.symm.trans hAhead)
    simp only [Scanner.step, hHere.mode, hCode, code_word w.start]
  have hMember := w.no_dot (show s.Passes ([] ++ w.text) s.word from hSkips.1)
  refine ⟨s.word, hSkips, ?_⟩
  rw [hToken] at hMember ⊢
  rw [hSame]
  refine ⟨?_, hHere.mode, rfl, fun _ => hMember, hHere.braces, hHere.substitutions⟩
  show s.ahead.drop w.text.length = rest
  rw [hHere.ahead, List.drop_left]

/-- A word that starts no item and ends no clause. -/
theorem leads_name (n : Name) (hCode : f.mode = .code)
    (hAwaiting : f.awaiting = true → String.ofList n.text ≠ "from") (hEnd : Ends rest) :
    Leads f (n.text ++ rest) (plain n.text) f.past rest := by
  refine leads_word n.toWord hCode (fun s hHere => ?_) rfl
  unfold Scanner.word
  dsimp only
  rw [hHere.ahead, n.letters hEnd]
  show ∃ prior head, _ = { s.token n.text.length prior with
    statementHead := head, awaitingFrom := f.awaiting }
  have hFrom : ¬(decide (String.ofList n.text = "from") && s.awaitingFrom) = true := by
    intro hBoth
    obtain ⟨hText, hAwaits⟩ : String.ofList n.text = "from" ∧ s.awaitingFrom = true := by
      simpa using hBoth
    exact hAwaiting (hHere.awaiting.symm.trans hAwaits) hText
  rw [← hHere.awaiting, if_neg n.notImport, if_neg n.notExport, if_neg hFrom]
  split
  · exact ⟨.operand, s.statementHead, rfl⟩
  split
  · exact ⟨.operator, _, rfl⟩
  · exact ⟨if regexWords.contains (String.ofList n.text) then .operator else .operand,
      s.statementHead, rfl⟩

/-- The first character behind the blanks. -/
def Next (rest : List Char) (c : Char) : Prop :=
  (rest.dropWhile isBlank).head? = some c

theorem blanks_gap (gap : Gap) (hBlank : isBlank c = false) :
    Scanner.blanks (gap.text ++ c :: rest) = gap.text.length := by
  rw [Scanner.blanks, takeWhile_append_of_head (by simpa using hBlank),
    List.takeWhile_eq_self_iff.mpr gap.blank]

theorem next_gap (gap : Gap) (hBlank : isBlank c = false) : Next (gap.text ++ c :: rest) c := by
  rw [Next, dropWhile_append_of_head (by simpa using hBlank),
    List.dropWhile_eq_nil_iff.mpr gap.blank]
  rfl

theorem afterBlanks_token (prior : Prior) (hAhead : s.ahead = text ++ rest) (hNext : Next rest c) :
    (s.token text.length prior).afterBlanks 0 = some c := by
  show ((((s.ahead.drop text.length).drop 0)).dropWhile isBlank).head? = some c
  rw [hAhead, List.drop_left]
  exact hNext

/-- A character that lets a clause go on: no specifier follows, and no call. -/
def goesOn (c : Char) : Bool :=
  !isQuote c && c ≠ '('

/-- A word of a clause. Even `from` does not end the clause, nor does `import` start another one. -/
theorem leads_binding (w : Word) (hCode : f.mode = .code) (hAwaiting : f.awaiting = true)
    (hMember : f.member = false) (hEnd : Ends rest) (hNext : Next rest c) (hOn : goesOn c = true) :
    Leads f (w.text ++ rest) (plain w.text) f.past rest := by
  obtain ⟨hQuote, hParen⟩ : isQuote c = false ∧ c ≠ '(' := by simpa [goesOn] using hOn
  refine leads_word w hCode (fun s hHere => ?_) rfl
  have hAfter (prior : Prior) := afterBlanks_token prior hHere.ahead hNext
  have hAwaits : s.awaitingFrom = true := hHere.awaiting.trans hAwaiting
  unfold Scanner.word
  dsimp only
  rw [hHere.ahead, w.letters hEnd, hHere.member hMember]
  show ∃ prior head, _ = { s.token w.text.length prior with
    statementHead := head, awaitingFrom := f.awaiting }
  rw [if_neg (by simp), ← hHere.awaiting]
  split
  · -- Behind `import` the clause goes on, whatever comes next.
    rw [Scanner.importWord_eq, hAfter, if_neg (by simpa using hParen), if_neg (by simpa using hQuote)]
    split
    · exact ⟨.operator, s.statementHead, by rw [hAwaits]; rfl⟩
    · exact ⟨.operator, s.statementHead, rfl⟩
  split
  · rw [Scanner.exportWord_eq, hAfter]
    split
    · exact ⟨.operator, s.statementHead, by rw [hAwaits]; rfl⟩
    · exact ⟨.operator, s.statementHead, rfl⟩
  split
  · rw [Scanner.fromWord_eq, hAfter, if_neg (by simpa using hQuote)]
    exact ⟨.operand, s.statementHead, rfl⟩
  split
  · exact ⟨.operator, _, rfl⟩
  · exact ⟨if regexWords.contains (String.ofList w.text) then .operator else .operand,
      s.statementHead, rfl⟩

/-- The keywords that start items, and the words inside of them that no binding may replace. -/
def importWord : Word where
  first := 'i'
  others := "mport".toList
  start := by decide
  parts := List.all_eq_true.mp rfl

def exportWord : Word where
  first := 'e'
  others := "xport".toList
  start := by decide
  parts := List.all_eq_true.mp rfl

def asWord : Word where
  first := 'a'
  others := ['s']
  start := by decide
  parts := List.all_eq_true.mp rfl

def fromWord : Word where
  first := 'f'
  others := "rom".toList
  start := by decide
  parts := List.all_eq_true.mp rfl

/-- Behind `import` a clause starts. -/
theorem leads_import (hCode : f.mode = .code) (hMember : f.member = false) (hEnd : Ends rest)
    (hNext : Next rest c) (hClause : c = '\x7b' ∨ c = '*' ∨ isWordStart c = true) :
    Leads f (importWord.text ++ rest) (plain importWord.text) { f.past with awaiting := true } rest := by
  have hQuote : isQuote c = false ∧ c ≠ '(' := by
    rcases hClause with rfl | rfl | hStart
    · decide
    · decide
    · exact ⟨not_quote_of_isWordStart hStart, ne_of_isWordStart hStart (by decide)⟩
  refine leads_word importWord hCode (fun s hHere => ?_) rfl
  have hAfter (prior : Prior) := afterBlanks_token prior hHere.ahead hNext
  unfold Scanner.word
  dsimp only
  rw [hHere.ahead, importWord.letters hEnd, hHere.member hMember, if_neg (by simp), if_pos (by decide),
    Scanner.importWord_eq, hAfter, if_neg (by simpa using hQuote.2), if_neg (by simpa using hQuote.1),
    if_pos (by simpa [or_assoc] using hClause)]
  exact ⟨.operator, s.statementHead, rfl⟩

/-- Behind `export` a clause starts. -/
theorem leads_export (hCode : f.mode = .code) (hMember : f.member = false) (hEnd : Ends rest)
    (hNext : Next rest c) (hClause : c = '\x7b' ∨ c = '*') :
    Leads f (exportWord.text ++ rest) (plain exportWord.text) { f.past with awaiting := true } rest := by
  refine leads_word exportWord hCode (fun s hHere => ?_) rfl
  have hAfter (prior : Prior) := afterBlanks_token prior hHere.ahead hNext
  unfold Scanner.word
  dsimp only
  rw [hHere.ahead, exportWord.letters hEnd, hHere.member hMember, if_neg (by simp), if_neg (by decide),
    if_pos (by decide), Scanner.exportWord_eq, hAfter, if_pos (by simpa using hClause)]
  exact ⟨.operator, s.statementHead, rfl⟩

/-! ### Specifiers -/

/-- The specifier holds no line end. -/
def Specifier.OneLine (s : Specifier) : Prop :=
  ∀ c ∈ s.text, isLineEnd c = false

/-- The literal that is a target. -/
def Literal.piece (l : Literal) : Piece :=
  .target l.quote l.body

/-- The literal that a specifier is written as. -/
def Specifier.literal (s : Specifier) (hLine : s.OneLine) : Literal :=
  ⟨s.quote, quoteWithin s.quote s.text, s.isQuote, inside_quoteWithin hLine⟩

@[simp] theorem Specifier.literal_piece (s : Specifier) (hLine : s.OneLine) :
    (s.literal hLine).piece = s.piece := rfl

theorem Literal.piece_text (l : Literal) (rest : List Char) :
    l.piece.text ++ rest = l.quote :: (l.body ++ l.quote :: rest) := by
  simp [Literal.piece, Piece.text]

theorem not_dot_of_isQuote (hQuote : isQuote c = true) : c ≠ '.' := by
  rintro rfl
  exact absurd hQuote (by decide)

/-- In front of a target, a scanner reads the literal. -/
theorem scans_target (l : Literal) (hTarget : t.mode = .target)
    (hAhead : t.ahead = l.piece.text ++ rest) :
    ∃ u, t.Scans [l.piece] u ∧ u.mode = .code ∧ u.ahead = rest ∧ u.isMember = false ∧
      u.awaitingFrom = false ∧ u.braces = t.braces ∧ u.substitutions = t.substitutions := by
  let u : Scanner := { t.token (l.body.length + 2) .operand with
    mode := .code, opened := t.offset, awaitingFrom := false }
  have hBody := stringBody_of_inside l.isQuote l.inside rest
  have hPasses : t.Passes (l.quote :: l.body ++ [l.quote]) u :=
    Scanner.MovesBy.passes (by simp only [List.length_append]; exact ⟨rfl, rfl, rfl⟩) hAhead
  refine ⟨u, .single (hAhead.trans (l.piece_text rest)) ?_, rfl, ?_,
    isMember_of_passes _ hPasses (not_dot_of_isQuote l.isQuote), rfl, rfl, rfl⟩
  · simp only [Scanner.step, hTarget, hBody]
    rfl
  · exact List.append_cancel_left (hPasses.ahead.symm.trans hAhead)

/-- A literal in front of which the scanner announces a target, behind a word and what lies between. -/
theorem leads_specifier (w : Word) (between : List Char) (l : Literal) (hCode : f.mode = .code)
    (hWord : ∀ t, f.Holds (w.text ++ (between ++ (l.piece.text ++ rest))) t → ∃ prior,
      t.word = (t.token w.text.length prior).toTarget between.length) :
    Leads f (w.text ++ (between ++ (l.piece.text ++ rest))) (plain (w.text ++ between) ++ [l.piece])
      { f.past with awaiting := false } rest := by
  intro t hHere
  obtain ⟨prior, hToken⟩ := hWord t hHere
  have hAhead : t.ahead = (w.text ++ between) ++ (l.piece.text ++ rest) := by
    rw [hHere.ahead, List.append_assoc]
  have move : t.MovesBy (w.text ++ between).length t.word := by
    rw [hToken, List.length_append]
    exact Scanner.MovesBy.trans (t := t.token w.text.length prior) ⟨rfl, rfl, rfl⟩ ⟨rfl, rfl, rfl⟩
  have hSkips : t.Skips (w.text ++ between) t.word := by
    refine Scanner.skips_of_step (by simp [hAhead, Word.text]) hAhead move fun d tail hThere => ?_
    obtain ⟨rfl, -⟩ := List.cons.inj (hHere.ahead.symm.trans hThere)
    simp only [Scanner.step, hHere.mode, hCode, code_word w.start]
  obtain ⟨hPasses, texts, hTexts, hScans⟩ := hSkips
  obtain ⟨u, hTarget, hMode, hRest, hMember, hAwaiting, hBraces, hOuter⟩ :=
    scans_target l (by rw [hToken]; rfl)
      (List.append_cancel_left (hPasses.ahead.symm.trans hAhead))
  refine ⟨texts.map .verbatim ++ [l.piece], u, hScans.trans hTarget, ?_, hRest, hMode.trans hCode.symm,
    hAwaiting, fun _ => hMember, ?_, ?_⟩
  · rw [List.flatMap_append, flatMap_marks, hTexts]
    rfl
  · rw [hBraces, hToken]
    exact hHere.braces
  · rw [hOuter, hToken]
    exact hHere.substitutions

theorem not_blank_of_isQuote (hQuote : isQuote c = true) : isBlank c = false :=
  not_blank_of_isOpener c (by simp [isOpener, hQuote])

theorem not_part_of_isQuote (hQuote : isQuote c = true) : isWordPart c = false :=
  not_part_of_isOpener c (by simp [isOpener, hQuote])

theorem not_part_of_isBlank (hBlank : isBlank c = true) : isWordPart c = false := by
  have hCases : c = ' ' ∨ c = '\t' ∨ c = '\n' ∨ c = '\x0c' ∨ c = '\r' := by
    simpa [isBlank, or_assoc] using hBlank
  rcases hCases with rfl | rfl | rfl | rfl | rfl <;> decide

/-- A word ends in front of a gap, and in front of a character that cannot go on with it. -/
theorem ends_gap (gap : Gap) (h : gap.text = [] → Ends rest) : Ends (gap.text ++ rest) := by
  cases hText : gap.text with
  | nil => exact h hText
  | cons d text =>
      intro c hc
      obtain rfl : d = c := Option.some.inj hc
      exact not_part_of_isBlank (gap.blank d (by rw [hText]; exact List.mem_cons_self))

theorem ends_cons (h : isWordPart c = false) : Ends (c :: rest) := by
  intro d hd
  obtain rfl : c = d := Option.some.inj hd
  exact h

/-- An import for its effects. -/
theorem leads_effect (gap : Gap) (l : Literal) (hCode : f.mode = .code)
    (hMember : f.member = false) :
    Leads f (importWord.text ++ (gap.text ++ (l.piece.text ++ rest)))
      (plain (importWord.text ++ gap.text) ++ [l.piece]) { f.past with awaiting := false } rest := by
  refine leads_specifier importWord gap.text l hCode fun t hHere => ⟨.operator, ?_⟩
  have hAhead := hHere.ahead
  rw [l.piece_text] at hAhead
  have hEnd : Ends (gap.text ++ l.quote :: (l.body ++ l.quote :: rest)) :=
    ends_gap gap fun _ => ends_cons (not_part_of_isQuote l.isQuote)
  have hBlank := not_blank_of_isQuote l.isQuote
  have hAfter := afterBlanks_token .operator hAhead (next_gap gap hBlank)
  have hBlanks : Scanner.blanks (t.token importWord.text.length .operator).ahead = gap.text.length := by
    show Scanner.blanks (t.ahead.drop importWord.text.length) = _
    rw [hAhead, List.drop_left, blanks_gap gap hBlank]
  have hParen : l.quote ≠ '(' := by
    intro hSame
    exact absurd (hSame ▸ l.isQuote) (by decide)
  unfold Scanner.word
  dsimp only
  rw [hAhead, importWord.letters hEnd, hHere.member hMember, if_neg (by simp), if_pos (by decide),
    Scanner.importWord_eq, hAfter, if_neg (by simpa using hParen), if_pos (by simpa using l.isQuote),
    hBlanks]

/-- An import inside of an expression. -/
theorem leads_dynamic (gap inner : Gap) (l : Literal) (hCode : f.mode = .code)
    (hMember : f.member = false) :
    Leads f (importWord.text ++ ((gap.text ++ '(' :: inner.text) ++ (l.piece.text ++ rest)))
      (plain (importWord.text ++ (gap.text ++ '(' :: inner.text)) ++ [l.piece])
      { f.past with awaiting := false } rest := by
  refine leads_specifier importWord (gap.text ++ '(' :: inner.text) l hCode
    fun t hHere => ⟨.operator, ?_⟩
  have hAhead := hHere.ahead
  rw [l.piece_text, List.append_assoc, List.cons_append] at hAhead
  let behind := l.quote :: (l.body ++ l.quote :: rest)
  have hEnd : Ends (gap.text ++ '(' :: (inner.text ++ behind)) :=
    ends_gap gap fun _ => ends_cons (by decide)
  have hAfter := afterBlanks_token .operator hAhead (next_gap gap (c := '(') (by decide))
  have hRead : (t.token importWord.text.length .operator).ahead =
      gap.text ++ '(' :: (inner.text ++ behind) := by
    show t.ahead.drop importWord.text.length = _
    rw [hAhead, List.drop_left]
  have hBlanks : Scanner.blanks (t.token importWord.text.length .operator).ahead = gap.text.length := by
    rw [hRead, blanks_gap gap (by decide)]
  have hDrop : (t.token importWord.text.length .operator).ahead.drop (gap.text.length + 1) =
      inner.text ++ behind := by
    rw [hRead, ← List.drop_drop, List.drop_left]
    rfl
  have hInner : (t.token importWord.text.length .operator).afterBlanks (gap.text.length + 1) =
      some l.quote := by
    rw [Scanner.afterBlanks, hDrop]
    exact next_gap inner (not_blank_of_isQuote l.isQuote)
  unfold Scanner.word
  dsimp only
  rw [hAhead, importWord.letters hEnd, hHere.member hMember, if_neg (by simp), if_pos (by decide),
    Scanner.importWord_eq, hAfter, if_pos rfl, hBlanks, hInner, if_pos (by simpa using l.isQuote), hDrop,
    blanks_gap inner (not_blank_of_isQuote l.isQuote), List.length_append, List.length_cons]
  exact congrArg _ (by omega)

/-- The end of a clause. -/
theorem leads_from (gap : Gap) (l : Literal) (hCode : f.mode = .code)
    (hMember : f.member = false) (hAwaiting : f.awaiting = true) :
    Leads f (fromWord.text ++ (gap.text ++ (l.piece.text ++ rest)))
      (plain (fromWord.text ++ gap.text) ++ [l.piece]) { f.past with awaiting := false } rest := by
  refine leads_specifier fromWord gap.text l hCode fun t hHere => ⟨.operand, ?_⟩
  have hAwaits : t.awaitingFrom = true := hHere.awaiting.trans hAwaiting
  have hAhead := hHere.ahead
  rw [l.piece_text] at hAhead
  have hEnd : Ends (gap.text ++ l.quote :: (l.body ++ l.quote :: rest)) :=
    ends_gap gap fun _ => ends_cons (not_part_of_isQuote l.isQuote)
  have hBlank := not_blank_of_isQuote l.isQuote
  have hAfter := afterBlanks_token .operand hAhead (next_gap gap hBlank)
  have hBlanks : Scanner.blanks (t.token fromWord.text.length .operand).ahead = gap.text.length := by
    show Scanner.blanks (t.ahead.drop fromWord.text.length) = _
    rw [hAhead, List.drop_left, blanks_gap gap hBlank]
  unfold Scanner.word
  dsimp only
  rw [hAhead, fromWord.letters hEnd, hHere.member hMember, if_neg (by simp), if_neg (by decide),
    if_neg (by decide), hAwaits, if_pos (by decide), Scanner.fromWord_eq, hAfter,
    if_pos (by simpa using l.isQuote), hBlanks]

/-! ### Literals and comments -/

/-- Inside of a construct, a scanner reads the text that the construct holds and what closes it. -/
theorem skips_held {after : List Char} (hHolds : s.mode.Holds text after)
    (hMore : s.mode = .lineComment → after ≠ []) (hAhead : s.ahead = text ++ after) :
    ∃ t, s.Skips (text ++ s.mode.closer after) t ∧ t.mode = .code ∧
      t.awaitingFrom = s.awaitingFrom ∧ t.braces = s.braces ∧
      t.substitutions = (s.closed (s.mode.closer after)).substitutions := by
  obtain ⟨t, hSkips, hClosed⟩ := hHolds.closes hMore hAhead
  obtain ⟨here, rfl⟩ := hClosed.place
  refine ⟨_, hSkips, ?_⟩
  unfold Scanner.closed Scanner.standing
  cases s.mode <;> try exact ⟨rfl, rfl, rfl, rfl⟩
  dsimp only
  split <;> exact ⟨rfl, rfl, rfl, rfl⟩

theorem leads_held {after closer : List Char} (hHolds : f.mode.Holds text after)
    (hMore : f.mode = .lineComment → after ≠ []) (hAfter : after = closer ++ [c] ++ rest)
    (hCloser : f.mode.closer after = closer ++ [c]) (hDot : c ≠ '.')
    (hOuter : ∀ s, f.Holds (text ++ after) s →
      (s.closed (closer ++ [c])).substitutions = g.substitutions)
    (hSame : g = { f.past with mode := .code, substitutions := g.substitutions }) :
    Leads f (text ++ after) (plain (text ++ (closer ++ [c]))) g rest := by
  rw [hAfter, ← List.append_assoc]
  refine leads_of_skips _ fun s hHere => ?_
  rw [List.append_assoc, ← hAfter] at hHere
  obtain ⟨t, hSkips, hCode, hAwaiting, hBraces, hSubstitutions⟩ :=
    skips_held (hHere.mode ▸ hHolds) (hHere.mode ▸ hMore) hHere.ahead
  rw [hHere.mode, hCloser] at hSkips hSubstitutions
  have hRest : t.ahead = rest := by
    have hBoth := hSkips.1.ahead.symm.trans hHere.ahead
    rw [hAfter, ← List.append_assoc text (closer ++ [c]) rest] at hBoth
    exact List.append_cancel_left hBoth
  rw [← List.append_assoc] at hSkips
  rw [← List.append_assoc, hSame]
  exact ⟨t, hSkips, hRest, hCode, hAwaiting.trans hHere.awaiting,
    fun _ => isMember_of_passes _ hSkips.1 hDot, hBraces.trans hHere.braces,
    hSubstitutions.trans (hOuter s hHere)⟩

theorem leads_opens {opener : List Char} (hCode : f.mode = .code)
    (hOpens : ∀ s, f.Holds (opener ++ rest) s → ∃ t, s.Opens opener t ∧ t.mode = g.mode ∧
      t.awaitingFrom = s.awaitingFrom ∧ t.braces = s.braces ∧ t.substitutions = s.substitutions)
    (hRegex : g.mode ≠ .regex) (hSame : g = { f with mode := g.mode, member := true }) :
    Leads f (opener ++ rest) (plain opener) g rest := by
  refine leads_of_skips _ fun s hHere => ?_
  obtain ⟨t, hOpen, hMode, hAwaiting, hBraces, hOuter⟩ := hOpens s hHere
  have hPasses := hOpen.passes hHere.ahead
  have hScans := hOpen.scans (hHere.mode.trans hCode) hHere.ahead
    fun hNot => absurd (hMode.symm.trans hNot) hRegex
  refine ⟨t, ⟨hPasses, [opener], by simp, hScans⟩, ?_⟩
  rw [hSame]
  exact ⟨List.append_cancel_left (hPasses.ahead.symm.trans hHere.ahead), hMode,
    hAwaiting.trans hHere.awaiting, (fun hNot => by cases hNot), hBraces.trans hHere.braces,
    hOuter.trans hHere.substitutions⟩

theorem leads_literal (l : Literal) (hCode : f.mode = .code) :
    Leads f (l.text ++ rest) (plain l.text) f.past rest := by
  let inside : Frame := { f with mode := .quoted l.quote, member := true }
  have hOpening : Leads f ([l.quote] ++ (l.body ++ l.quote :: rest)) (plain [l.quote]) inside
      (l.body ++ l.quote :: rest) :=
    leads_opens hCode (fun s _ => ⟨_, .quoted l.isQuote, rfl, rfl, rfl, rfl⟩) (by simp [inside]) rfl
  have hClosing : Leads inside (l.body ++ l.quote :: rest) (plain (l.body ++ ([] ++ [l.quote]))) f.past
      rest :=
    leads_held (stringBody_of_inside l.isQuote l.inside rest) (by simp [inside]) rfl rfl
      (not_dot_of_isQuote l.isQuote)
      (fun s hHere => by rw [Scanner.closed, hHere.mode]; exact hHere.substitutions)
      (by rw [Frame.past, ← hCode]; rfl)
  have hWhole := hOpening.trans hClosing
  rw [← plain_append] at hWhole
  simpa [Literal.text] using hWhole

theorem blockBody_of_unclosed (hText : ¬['*', '/'] <:+: text) (rest : List Char) :
    blockBody (text ++ '*' :: '/' :: rest) = some (text.length + 2) := by
  induction text with
  | nil => rfl
  | cons c text ih =>
      have hLater : ¬['*', '/'] <:+: text := fun hInfix =>
        hText (hInfix.trans (List.suffix_cons c text).isInfix)
      rw [List.cons_append, blockBody, ih hLater]
      · rfl
      · intro tail hStar hSlash
        cases text with
        | nil => cases hSlash
        | cons d text =>
            obtain ⟨rfl, -⟩ := List.cons.inj hSlash
            subst hStar
            exact hText (List.prefix_append ['*', '/'] text).isInfix

theorem leads_lineComment (hText : '\n' ∉ text) (hCode : f.mode = .code) :
    Leads f ("//".toList ++ text ++ '\n' :: rest) (plain ("//".toList ++ text ++ ['\n'])) f.past rest := by
  let inside : Frame := { f with mode := .lineComment, member := true }
  have hOpening : Leads f (['/', '/'] ++ (text ++ '\n' :: rest)) (plain ['/', '/']) inside
      (text ++ '\n' :: rest) :=
    leads_opens hCode (fun s _ => ⟨_, .lineComment, rfl, rfl, rfl, rfl⟩) (by simp [inside]) rfl
  have hClosing : Leads inside (text ++ '\n' :: rest) (plain (text ++ ([] ++ ['\n']))) f.past rest :=
    leads_held ⟨hText, by simp⟩ (by simp) rfl rfl (by decide)
      (fun s hHere => by rw [Scanner.closed, hHere.mode]; exact hHere.substitutions)
      (by rw [Frame.past, ← hCode]; rfl)
  have hWhole := hOpening.trans hClosing
  rw [← plain_append] at hWhole
  simpa using hWhole

theorem leads_blockComment (hText : ¬['*', '/'] <:+: text) (hCode : f.mode = .code) :
    Leads f ("/*".toList ++ text ++ '*' :: '/' :: rest) (plain ("/*".toList ++ text ++ "*/".toList)) f.past
      rest := by
  let inside : Frame := { f with mode := .blockComment, member := true }
  have hOpening : Leads f (['/', '*'] ++ (text ++ '*' :: '/' :: rest)) (plain ['/', '*']) inside
      (text ++ '*' :: '/' :: rest) :=
    leads_opens hCode (fun s _ => ⟨_, .blockComment, rfl, rfl, rfl, rfl⟩) (by simp [inside]) rfl
  have hClosing : Leads inside (text ++ '*' :: '/' :: rest) (plain (text ++ (['*'] ++ ['/']))) f.past rest :=
    leads_held (blockBody_of_unclosed hText rest) (by simp [inside]) rfl rfl (by decide)
      (fun s hHere => by rw [Scanner.closed, hHere.mode]; exact hHere.substitutions)
      (by rw [Frame.past, ← hCode]; rfl)
  have hWhole := hOpening.trans hClosing
  rw [← plain_append] at hWhole
  simpa using hWhole

/-! ### Chunks of templates -/

theorem templateChunk_of_clear (hClear : Clear text) (e : ChunkEnd) (rest : List Char) :
    templateChunk (text ++ (e.text ++ rest)) = some (text.length + e.text.length, e) := by
  induction hClear with
  | nil => cases e <;> rfl
  | escaped later ih =>
      rw [List.cons_append, List.cons_append, templateChunk, ih]
      simp only [Option.map_some, List.length_cons]
      congr 2
      omega
  | @plain c text hEscape hTick hOpen later ih =>
      have hLater : c = '$' → (text ++ (e.text ++ rest)).head? ≠ some '\x7b' := by
        intro hDollar
        cases text with
        | nil => cases e <;> simp [ChunkEnd.text]
        | cons d text => exact hOpen hDollar
      rw [List.cons_append, templateChunk, ih]
      · simp only [Option.map_some, List.length_cons]
        congr 2
        omega
      · exact fun _ _ hSlash => absurd hSlash hEscape
      · exact fun hSlash => absurd hSlash hEscape
      · exact hTick
      · intro tail hDollar hBrace
        exact hLater hDollar (by rw [hBrace]; rfl)

theorem leads_lastChunk (chunk : Chunk) (hTemplate : f.mode = .template) :
    Leads f (chunk.text ++ '\x60' :: rest) (plain (chunk.text ++ ['\x60']))
      { f.past with mode := .code } rest := by
  refine leads_held ?_ (by simp [hTemplate]) (show _ = [] ++ ['\x60'] ++ rest from rfl)
    (by rw [hTemplate]; rfl) (by decide) (fun s hHere => ?_) rfl
  · rw [hTemplate]
    exact ⟨.closed, templateChunk_of_clear chunk.clear .closed rest⟩
  · rw [Scanner.closed, hHere.mode, hTemplate]
    exact hHere.substitutions

theorem leads_chunk (chunk : Chunk) (hTemplate : f.mode = .template) :
    Leads f (chunk.text ++ '$' :: '\x7b' :: rest) (plain (chunk.text ++ ['$', '\x7b']))
      { f.past with mode := .code, substitutions := f.braces :: f.substitutions } rest := by
  refine leads_held ?_ (by simp [hTemplate]) (show _ = ['$'] ++ ['\x7b'] ++ rest from rfl)
    (by rw [hTemplate]; rfl) (by decide) (fun s hHere => ?_) rfl
  · rw [hTemplate]
    exact ⟨.substitution, templateChunk_of_clear chunk.clear .substitution rest⟩
  · rw [Scanner.closed, hHere.mode, hTemplate, ← hHere.braces, ← hHere.substitutions]
    rfl

end ModuleGateway.Relink.Concrete
