import ModuleGateway.Proofs.Relink.Nesting
import ModuleGateway.Proofs.Relink.Words

/-!
Regular expressions where an expression starts. Behind an operator, behind a word that an expression
follows and behind the head of a statement, the scanner reads a regular expression from slash to flags in
one go, whatever stands in it. To know the end of a head it counts parentheses, so that the statements are
about heads in which every parenthesis that is read is matched.
-/

namespace ModuleGateway.Relink

open Text

/-! ### Literals -/

/-- The text of a regular expression on one line up to its closing slash, inside or outside of a class. A
slash in a class does not close it. -/
inductive Pattern : Bool → List Char → Prop where
  | nil : Pattern false []
  | escaped {inClass : Bool} {c : Char} {text : List Char} (hLine : isLineEnd c = false)
      (later : Pattern inClass text) : Pattern inClass ('\\' :: c :: text)
  | openClass {inClass : Bool} {text : List Char} (later : Pattern true text) :
      Pattern inClass ('[' :: text)
  | closeClass {inClass : Bool} {text : List Char} (later : Pattern false text) :
      Pattern inClass (']' :: text)
  | plain {inClass : Bool} {c : Char} {text : List Char} (hEscape : c ≠ '\\') (hOpen : c ≠ '[')
      (hClose : c ≠ ']') (hLine : isLineEnd c = false) (hSlash : c = '/' → inClass = true)
      (later : Pattern inClass text) : Pattern inClass (c :: text)

/-- A regular expression literal on one line. -/
structure RegexLiteral where
  body : List Char
  flags : List Char
  pattern : Pattern false body
  nonempty : body ≠ []
  /-- A star behind the opening slash would start a comment. -/
  noStar : body.head? ≠ some '*'
  parts : ∀ c ∈ flags, isWordPart c = true

def RegexLiteral.text (r : RegexLiteral) : List Char :=
  '/' :: r.body ++ '/' :: r.flags

theorem regexBody_of_pattern {inClass : Bool} {text : List Char} (h : Pattern inClass text)
    (rest : List Char) : regexBody inClass (text ++ '/' :: rest) = some (text.length + 1) := by
  induction h with
  | nil => rfl
  | escaped _ later ih => rw [List.cons_append, List.cons_append, regexBody, ih]; rfl
  | openClass later ih => rw [List.cons_append, regexBody, ih]; rfl
  | closeClass later ih => rw [List.cons_append, regexBody, ih]; rfl
  | @plain inClass c text hEscape hOpen hClose hLine hSlash later ih =>
      have hStays : (decide (c = '/') && !inClass) = false := by
        by_cases hc : c = '/'
        · simp [hSlash hc]
        · simp [hc]
      rw [List.cons_append, regexBody, hLine, hStays, ih]
      · rfl
      · exact fun _ _ hSame => absurd hSame hEscape
      · exact fun hSame => absurd hSame hEscape
      · exact hOpen
      · exact hClose

namespace Scanner

variable {s t k o i j z : Scanner} {c : Char} {rest text after : List Char} {piece : Piece}
  {pieces back : List Piece}

theorem step_of_scans (h : s.Scans [piece] t) :
    ∃ c rest, s.ahead = c :: rest ∧ s.step c rest = .ok (piece, t) := by
  cases h with
  | step hAhead hStep later =>
      cases later
      exact ⟨_, _, hAhead, hStep⟩

/-- A step from code is known by what it reads. -/
theorem code_of_scans (hCode : s.mode = .code) (h : s.Scans [.verbatim (c :: text)] t) :
    ∃ rest, s.ahead = c :: rest ∧ t = s.code c rest := by
  obtain ⟨d, rest, hAhead, hStep⟩ := step_of_scans h
  have hPasses := (step_passes hAhead (atQuote_of_mode (by simp [hCode])) hStep).1.ahead
  obtain ⟨rfl, -⟩ := List.cons.inj (hAhead.symm.trans hPasses)
  simp only [step, hCode] at hStep
  exact ⟨rest, hAhead, (Prod.mk.inj (Except.ok.inj hStep)).2.symm⟩

/-- Behind the opening slash a scanner reads the literal to its end, with all that goes on with its
flags. -/
theorem scans_pattern (r : RegexLiteral) (hRegex : s.mode = .regex)
    (hAhead : s.ahead = r.body ++ '/' :: (r.flags ++ after)) :
    s.Scans [.verbatim (r.body ++ '/' :: r.flags ++ after.takeWhile isWordPart)]
      { s.token (r.body.length + 1 + (r.flags ++ after.takeWhile isWordPart).length) .operand with
        mode := .code } := by
  have hBody : regexBody false s.ahead = some (r.body.length + 1) :=
    hAhead ▸ regexBody_of_pattern r.pattern (r.flags ++ after)
  have hFlags : (s.ahead.drop (r.body.length + 1)).takeWhile isWordPart =
      r.flags ++ after.takeWhile isWordPart := by
    rw [hAhead, ← List.drop_drop, List.drop_left, List.drop_one, List.tail_cons,
      List.takeWhile_append_of_pos r.parts]
  have hLength : (r.body ++ '/' :: r.flags ++ after.takeWhile isWordPart).length =
      r.body.length + 1 + (r.flags ++ after.takeWhile isWordPart).length := by
    simp only [List.length_append, List.length_cons]
    omega
  have hSplit : s.ahead =
      (r.body ++ '/' :: r.flags ++ after.takeWhile isWordPart) ++ after.dropWhile isWordPart := by
    simp [hAhead]
  have hPasses : s.Passes (r.body ++ '/' :: r.flags ++ after.takeWhile isWordPart)
      { s.token (r.body.length + 1 + (r.flags ++ after.takeWhile isWordPart).length) .operand with
        mode := .code } := MovesBy.passes (hLength ▸ ⟨rfl, rfl, rfl⟩) hSplit
  obtain ⟨d, tail, hSome⟩ := List.exists_cons_of_ne_nil (show s.ahead ≠ [] by simp [hAhead])
  refine .single hSome ?_
  rw [← hPasses.readTo]
  simp only [step, hRegex, hBody, hFlags]

/-- In code that no operand ends, a scanner reads a regular expression from slash to flags. -/
theorem scans_regex (r : RegexLiteral) (hCode : s.mode = .code) (hPrior : s.prior ≠ .operand)
    (hAhead : s.ahead = r.text ++ after) :
    ∃ z, s.Scans [.verbatim ['/'], .verbatim (r.body ++ '/' :: r.flags ++ after.takeWhile isWordPart)] z ∧
      z.mode = .code ∧ z.opened = s.offset ∧ z.substitutions = s.substitutions := by
  have hHere : s.ahead = ['/'] ++ (r.body ++ '/' :: (r.flags ++ after)) := by
    simp [hAhead, RegexLiteral.text]
  have hBody := regexBody_of_pattern r.pattern (r.flags ++ after)
  have hOpens : s.Scans [.verbatim ['/']] (s.openWith 1 .regex) :=
    (Opens.regex hPrior).scans hCode hHere fun _ => regex_head hBody r.nonempty r.noStar
  have hInside : (s.openWith 1 .regex).ahead = r.body ++ '/' :: (r.flags ++ after) := by
    show s.ahead.drop 1 = _
    rw [hHere]
    rfl
  exact ⟨_, hOpens.trans (scans_pattern r rfl hInside), rfl, rfl, rfl⟩

/-! ### Where expressions start -/

/-- The characters behind which an expression starts. -/
def expressionMarks : List Char :=
  ['(', '[', '\x7b', ',', ';', '=', ':', '?', '!', '&', '|', '^', '~', '<', '>', '%', '*']

/-- The words behind which an expression starts. -/
def expressionWords : List String :=
  ["return", "typeof", "instanceof", "in", "of", "new", "delete", "void", "throw", "case", "do", "else",
    "yield", "await"]

/-- The words whose head in parentheses is followed by a statement. -/
def statementWords : List String :=
  ["if", "while", "for", "with"]

/-- This word of code stands in front of the scanner, and it is no member name. -/
structure AtWord (s : Scanner) (word : String) : Prop where
  code : s.mode = .code
  member : s.isMember = false
  letters : s.ahead.takeWhile isWordPart = word.toList

/-- The pieces between two states hold no parenthesis of code that is not matched in them. -/
inductive Balanced : Scanner → List Piece → Scanner → Prop where
  | refl (s : Scanner) : Balanced s [] s
  | step {s next t : Scanner} {piece : Piece} {pieces : List Piece} (hStep : s.Scans [piece] next)
      (hPlain : s.mode = .code → '(' ∉ piece.text ∧ ')' ∉ piece.text) (later : Balanced next pieces t) :
      Balanced s (piece :: pieces) t
  | parens {s inside last next t : Scanner} {inner pieces : List Piece} (hFirst : s.mode = .code)
      (hOpen : s.Scans [.verbatim ['(']] inside) (between : Balanced inside inner last)
      (hLast : last.mode = .code) (hClose : last.Scans [.verbatim [')']] next)
      (later : Balanced next pieces t) :
      Balanced s (.verbatim ['('] :: inner ++ .verbatim [')'] :: pieces) t

/-- The scan of the source has come to code at a point where an expression starts. -/
inductive ExpressionStart (source : List Char) : List Piece → Scanner → Prop where
  | start : ExpressionStart source [] (initial source)
  | mark {c : Char} {pieces : List Piece} {s t : Scanner} (hScan : (initial source).Scans pieces s)
      (hCode : s.mode = .code) (hMark : c ∈ expressionMarks) (hRead : s.Scans [.verbatim [c]] t) :
      ExpressionStart source (pieces ++ [.verbatim [c]]) t
  /-- Behind what opens a substitution of a template. -/
  | substitution {text : List Char} {pieces : List Piece} {s t : Scanner}
      (hScan : (initial source).Scans pieces s) (hTemplate : s.mode = .template)
      (hChunk : templateChunk s.ahead = some (text.length, .substitution))
      (hRead : s.Scans [.verbatim text] t) : ExpressionStart source (pieces ++ [.verbatim text]) t
  | word {word : String} {pieces : List Piece} {s t : Scanner} (hScan : (initial source).Scans pieces s)
      (hWord : s.AtWord word) (hMem : word ∈ expressionWords) (hRead : s.Scans [.verbatim word.toList] t) :
      ExpressionStart source (pieces ++ [.verbatim word.toList]) t
  /-- Behind the head of a statement, which follows its word over blanks alone. -/
  | head {word : String} {pieces inner : List Piece} {s k o i j t : Scanner} (gap : Concrete.Gap)
      (hScan : (initial source).Scans pieces s) (hWord : s.AtWord word) (hMem : word ∈ statementWords)
      (hRead : s.Scans [.verbatim word.toList] k) (hGap : k.Scans (Concrete.plain gap.text) o)
      (hOpen : o.Scans [.verbatim ['(']] i) (hInside : Balanced i inner j) (hLast : j.mode = .code)
      (hClose : j.Scans [.verbatim [')']] t) :
      ExpressionStart source (pieces ++ .verbatim word.toList :: Concrete.plain gap.text ++
        .verbatim ['('] :: inner ++ [.verbatim [')']]) t
  | blank {c : Char} {pieces : List Piece} {s t : Scanner} (h : ExpressionStart source pieces s)
      (hBlank : isBlank c = true) (hRead : s.Scans [.verbatim [c]] t) :
      ExpressionStart source (pieces ++ [.verbatim [c]]) t
  | comment {opener text : List Char} {pieces : List Piece} {s t : Scanner}
      (h : ExpressionStart source pieces s) (hOpener : opener = ['/', '/'] ∨ opener = ['/', '*'])
      (hRead : s.Scans [.verbatim opener, .verbatim text] t) :
      ExpressionStart source (pieces ++ [.verbatim opener, .verbatim text]) t

variable {word : String} {source : List Char}

theorem code_mark (hMark : c ∈ expressionMarks) :
    (s.code c rest).mode = s.mode ∧ (s.code c rest).prior = .operator := by
  simp only [expressionMarks, List.mem_cons, List.not_mem_nil, or_false] at hMark
  rcases hMark with rfl | rfl | rfl | rfl | rfl | rfl | rfl | rfl | rfl | rfl | rfl | rfl | rfl | rfl |
    rfl | rfl | rfl <;> exact ⟨rfl, rfl⟩

theorem AtWord.read (h : s.AtWord word) (hMem : word ∈ expressionWords ++ statementWords)
    (hRead : s.Scans [piece] t) : t = s.word := by
  obtain ⟨c, rest, hAhead, hStep⟩ := step_of_scans hRead
  have hEvery : ∀ w ∈ expressionWords ++ statementWords, w.toList.head?.any isWordStart = true := by
    decide
  have hFirst : isWordStart c = true := by
    have hLetter := hEvery word hMem
    have hLetters := h.letters
    cases hText : word.toList with
    | nil =>
        rw [hText] at hLetter
        cases hLetter
    | cons d tail =>
        rw [hText] at hLetter
        rw [hAhead, hText, List.takeWhile_cons] at hLetters
        split at hLetters
        · obtain ⟨rfl, -⟩ := List.cons.inj hLetters
          exact hLetter
        · cases hLetters
  simp only [step, h.code] at hStep
  rw [← (Prod.mk.inj (Except.ok.inj hStep)).2, Concrete.code_word hFirst]

theorem word_of_expressionWord (h : s.AtWord word) (hMem : word ∈ expressionWords) :
    s.word = s.token word.toList.length .operator := by
  have hEvery : ∀ w ∈ expressionWords, w ≠ "import" ∧ w ≠ "export" ∧ w ≠ "from" ∧
      w ∉ headWords ∧ w ∈ regexWords := by decide
  obtain ⟨hImport, hExport, hFrom, hHead, hRegex⟩ := hEvery word hMem
  unfold Scanner.word
  dsimp only
  rw [h.letters, h.member, String.ofList_toList]
  simp [hImport, hExport, hFrom, hHead, hRegex]

theorem word_of_statementWord (h : s.AtWord word) (hMem : word ∈ statementWords) :
    s.word = { s.token word.toList.length .operator with
      statementHead := s.afterBlanks word.toList.length = some '(' } := by
  have hEvery : ∀ w ∈ statementWords, w ≠ "import" ∧ w ≠ "export" ∧ w ≠ "from" ∧
      w ∈ headWords := by decide
  obtain ⟨hImport, hExport, hFrom, hHead⟩ := hEvery word hMem
  unfold Scanner.word
  dsimp only
  rw [h.letters, h.member, String.ofList_toList]
  simp [hImport, hExport, hFrom, hHead]

theorem Balanced.scans (h : Balanced s pieces t) : s.Scans pieces t := by
  induction h with
  | refl s => exact .refl s
  | step hStep _ _ ih => exact hStep.trans ih
  | parens _ hOpen _ _ hClose _ ihInner ihLater =>
      exact (hOpen.trans ihInner).trans (hClose.trans ihLater)

/-- A step that reads no parenthesis of code leaves the open parentheses as they are. -/
theorem parens_of_step (hStep : s.Scans [piece] t)
    (hPlain : s.mode = .code → '(' ∉ piece.text ∧ ')' ∉ piece.text) : t.parens = s.parens := by
  obtain ⟨c, rest, hAhead, hStep⟩ := step_of_scans hStep
  by_cases hCode : s.mode = .code
  · obtain ⟨hNoOpen, hNoClose⟩ := hPlain hCode
    have hFirst : c ∈ piece.text := by
      obtain ⟨text, hText, hPasses, -⟩ := code_reads hAhead hCode
      simp only [step, hCode] at hStep
      obtain ⟨rfl, -⟩ := Prod.mk.inj (Except.ok.inj hStep)
      rw [hPasses.readTo]
      obtain ⟨d, text, rfl⟩ := List.exists_cons_of_ne_nil hText
      obtain ⟨rfl, -⟩ := List.cons.inj (hAhead.symm.trans hPasses.ahead)
      exact List.mem_cons_self
    cases turn_of_step hCode hAhead hStep with
    | continues h => exact h.parens
    | opens h => cases h <;> rfl
    | openParen hParen => exact absurd (hParen ▸ hFirst) hNoOpen
    | closeParen hParen => exact absurd (hParen ▸ hFirst) hNoClose
  · cases step_eq_ok_iff.mp hStep with
    | code hMode => exact absurd hMode hCode
    | quoted | template | substitution | lineComment | blockComment | regex | target => rfl

theorem Balanced.keeps (h : Balanced s pieces t) : t.parens = s.parens := by
  induction h with
  | refl => rfl
  | step hStep hPlain _ ih => exact ih.trans (parens_of_step hStep hPlain)
  | @parens s inside last next t inner pieces hFirst hOpen _ hLast hClose _ ihInner ihLater =>
      obtain ⟨rest, -, rfl⟩ := code_of_scans hFirst hOpen
      obtain ⟨rest', -, rfl⟩ := code_of_scans hLast hClose
      rw [ihLater]
      show last.parens.tail = s.parens
      rw [ihInner]
      rfl

theorem scans_blanks (hBlank : ∀ c ∈ text, isBlank c = true) (hCode : s.mode = .code)
    (h : s.Scans (Concrete.plain text) t) :
    t.mode = .code ∧ t.statementHead = s.statementHead ∧ s.ahead = text ++ t.ahead := by
  induction text generalizing s with
  | nil =>
      cases h
      exact ⟨hCode, rfl, rfl⟩
  | cons c text ih =>
      obtain ⟨hFirst, hOthers⟩ := List.forall_mem_cons.mp hBlank
      cases h with
      | step hAhead hStep later =>
          obtain ⟨rest, hHere, rfl⟩ := code_of_scans hCode (.single hAhead hStep)
          rw [Concrete.code_blank hFirst] at later
          obtain ⟨hMode, hHead, hRest⟩ := ih hOthers (s := s.advance 1) hCode later
          refine ⟨hMode, hHead, ?_⟩
          rw [List.cons_append, ← hRest, hHere]
          show _ = c :: s.ahead.drop 1
          rw [hHere]
          rfl

/-- Behind the head of a statement no operand stands. -/
theorem prior_behind_head (gap : Concrete.Gap) (hWord : s.AtWord word) (hMem : word ∈ statementWords)
    (hRead : s.Scans [.verbatim word.toList] k) (hGap : k.Scans (Concrete.plain gap.text) o)
    (hOpen : o.Scans [.verbatim ['(']] i) (hInside : Balanced i pieces j) (hLast : j.mode = .code)
    (hClose : j.Scans [.verbatim [')']] t) : t.mode = .code ∧ t.prior = .operator := by
  have hKeyword := hWord.read (List.mem_append_right _ hMem) hRead
  obtain ⟨c, rest, hFirst, hStep⟩ := step_of_scans hRead
  have hPasses := (step_passes hFirst (atQuote_of_mode (by simp [hWord.code])) hStep).1.ahead
  have hMode : k.mode = .code := by
    rw [hKeyword, word_of_statementWord hWord hMem]
    exact hWord.code
  obtain ⟨hModeO, hHead, hAhead⟩ := scans_blanks gap.blank hMode hGap
  obtain ⟨rest, hParen, rfl⟩ := code_of_scans hModeO hOpen
  obtain ⟨rest', -, rfl⟩ := code_of_scans hLast hClose
  have hAfter : s.afterBlanks word.toList.length = some '(' := by
    rw [afterBlanks, hPasses, Piece.text, List.drop_left, hAhead, hParen]
    exact Concrete.next_gap gap (by decide)
  have hStatement : o.statementHead = true := by
    rw [hHead, hKeyword, word_of_statementWord hWord hMem]
    simpa using hAfter
  refine ⟨hLast, ?_⟩
  have hParens : j.parens = o.statementHead :: o.parens := hInside.keeps
  show (if j.parens.head? = some true then Prior.operator else .operand) = .operator
  rw [hParens, hStatement]
  rfl

/-- A comment leaves open whether an operand stands in front of it. -/
theorem scans_comment {opener : List Char} (hCode : s.mode = .code)
    (hOpener : opener = ['/', '/'] ∨ opener = ['/', '*'])
    (hRead : s.Scans [.verbatim opener, .verbatim text] t) : t.mode = .code ∧ t.prior = s.prior := by
  cases hRead with
  | @step _ inside _ c rest _ _ hAhead hStep later =>
      have hPasses := (step_passes hAhead (atQuote_of_mode (by simp [hCode])) hStep).1.ahead
      obtain ⟨d, tail, -, hLater⟩ := step_of_scans later
      simp only [step, hCode] at hStep
      obtain ⟨-, hInside⟩ := Prod.mk.inj (Except.ok.inj hStep)
      rcases hOpener with rfl | rfl
      · obtain ⟨rfl, rfl⟩ := List.cons.inj (hAhead.symm.trans hPasses)
        have hOpens : inside = { s.advance 2 with mode := .lineComment } := hInside.symm
        rw [hOpens] at hLater
        obtain ⟨-, rfl⟩ := Prod.mk.inj (Except.ok.inj hLater)
        exact ⟨rfl, rfl⟩
      · obtain ⟨rfl, rfl⟩ := List.cons.inj (hAhead.symm.trans hPasses)
        have hOpens : inside = s.openWith 2 .blockComment := hInside.symm
        simp only [step, hOpens, openWith] at hLater
        split at hLater
        · obtain ⟨-, rfl⟩ := Prod.mk.inj (Except.ok.inj hLater)
          exact ⟨rfl, rfl⟩
        · cases hLater

theorem ExpressionStart.scans (h : ExpressionStart source pieces s) :
    (initial source).Scans pieces s := by
  induction h with
  | start => exact .refl _
  | mark hScan _ _ hRead | substitution hScan _ _ hRead | word hScan _ _ hRead => exact hScan.trans hRead
  | head gap hScan _ _ hRead hGap hOpen hInside _ hClose =>
      simpa using hScan.trans (hRead.trans (hGap.trans (hOpen.trans (hInside.scans.trans hClose))))
  | blank _ _ hRead ih | comment _ _ hRead ih => exact ih.trans hRead

/-- Where an expression starts, the scanner stands in code, and the last token is no operand. -/
theorem ExpressionStart.ready (h : ExpressionStart source pieces s) :
    s.mode = .code ∧ s.prior ≠ .operand := by
  induction h with
  | start => exact ⟨rfl, by simp [initial]⟩
  | mark _ hCode hMark hRead =>
      obtain ⟨rest, -, rfl⟩ := code_of_scans hCode hRead
      exact ⟨(code_mark hMark).1.trans hCode, by rw [(code_mark hMark).2]; decide⟩
  | substitution _ hTemplate hChunk hRead =>
      obtain ⟨c, rest, -, hStep⟩ := step_of_scans hRead
      simp only [step, hTemplate, hChunk] at hStep
      obtain ⟨-, rfl⟩ := Prod.mk.inj (Except.ok.inj hStep)
      exact ⟨rfl, by simp [token]⟩
  | word _ hWord hMem hRead =>
      rw [hWord.read (List.mem_append_left _ hMem) hRead, word_of_expressionWord hWord hMem]
      exact ⟨hWord.code, by simp [token]⟩
  | head gap _ hWord hMem hRead hGap hOpen hInside hLast hClose =>
      obtain ⟨hMode, hPrior⟩ := prior_behind_head gap hWord hMem hRead hGap hOpen hInside hLast hClose
      exact ⟨hMode, by rw [hPrior]; decide⟩
  | blank _ hBlank hRead ih =>
      obtain ⟨rest, -, rfl⟩ := code_of_scans ih.1 hRead
      rw [Concrete.code_blank hBlank]
      exact ih
  | comment _ hOpener hRead ih =>
      obtain ⟨hMode, hPrior⟩ := scans_comment ih.1 hOpener hRead
      exact ⟨hMode, hPrior ▸ ih.2⟩

end Scanner

open Scanner

/-- Regular expressions are opaque where an expression starts: at the start of the source, behind an
operator or an opening bracket, behind a word like `return`, and behind the head of a statement, whatever
blanks and comments lie between. Whatever follows the literal, the scanner reads it from slash to flags,
together with word characters that follow at once. Whatever a map answers, and whatever effects it has, the
literal stands in the output as it is, and the map is asked only for targets in front of it and behind it.
No error lies inside of the literal, but that an open template may be named by the slash, if the literal
stands in a substitution. -/
theorem regex_opaque {source after : List Char} {pieces : List Piece} {s : Scanner} (r : RegexLiteral)
    (hStart : ExpressionStart source pieces s) (hAhead : s.ahead = r.text ++ after) :
    let before := pieces.flatMap Piece.text
    source = before ++ r.text ++ after ∧
    ∃ (more : List Char) (back : List Piece), more <+: after ∧
      (survey source).pieces =
        pieces ++ [.verbatim ['/'], .verbatim (r.body ++ '/' :: r.flags ++ more)] ++ back ∧
      (∀ (m : Type → Type) [Monad m] [LawfulMonad m] (map : String → m (Option String)),
        relink map (String.ofList source) = (do
          let a ← relinkAll map pieces
          let b ← relinkAll map back
          pure (match failure? (String.ofList source) with
            | some e => .error e
            | none => .ok (String.ofList (a ++ (r.text ++ more) ++ b))))) ∧
      ∀ e, failure? (String.ofList source) = some e → utf8Length before ≤ e.offset →
        e.offset < utf8Length (before ++ r.text) →
        e = ⟨.template, utf8Length before⟩ ∧ s.substitutions ≠ [] := by
  obtain ⟨hCode, hPrior⟩ := hStart.ready
  have hScan := hStart.scans
  obtain ⟨hSource, hOffset⟩ := offset_of_scans hScan
  obtain ⟨z, hRegex, hBehind, hOpened, hOuter⟩ := scans_regex r hCode hPrior hAhead
  have hAll := hScan.trans hRegex
  obtain ⟨back, hPieces, hRelink⟩ := relink_through hAll
  refine ⟨?_, _, back, List.takeWhile_prefix _, hPieces, ?_, ?_⟩
  · rw [List.append_assoc, ← hAhead]
    exact hSource
  · intro m _ _ map
    have hLiteral : relinkAll map [.verbatim ['/'], .verbatim (r.body ++ '/' :: r.flags ++
        after.takeWhile isWordPart)] = pure (r.text ++ after.takeWhile isWordPart) := by
      simp [relinkAll, Piece.relink, RegexLiteral.text]
    rw [hRelink, relinkAll_append, hLiteral, bind_assoc]
    refine bind_congr fun a => ?_
    rw [pure_bind]
    exact pure_bind _ _
  · intro e hFailure hFrom hTo
    have hText : [Piece.verbatim ['/'], .verbatim (r.body ++ '/' :: r.flags ++
        after.takeWhile isWordPart)].flatMap Piece.text = r.text ++ after.takeWhile isWordPart := by
      simp [Piece.text, RegexLiteral.text]
    rcases failure_behind hAll hBehind hFailure with hLater | ⟨rfl, hOpen⟩
    · rw [List.flatMap_append, hText, ← List.append_assoc, utf8Length_append] at hLater
      omega
    · exact ⟨by rw [hOpened, hOffset], hOuter ▸ hOpen⟩

/-- A quote in a regular expression behind the head of a statement opens no string. -/
theorem regex_opaque_behind_head :
    ∃ more back, more <+: [';'] ∧
      (survey ['i', 'f', ' ', '(', 'a', ')', '/', '\'', '/', ';']).pieces =
        [['i', 'f'], [' '], ['('], ['a'], [')']].map .verbatim ++
          [.verbatim ['/'], .verbatim (['\'', '/'] ++ more)] ++ back := by
  let r : RegexLiteral :=
    ⟨['\''], [], .plain (by decide) (by decide) (by decide) (by decide) (by decide) .nil, by decide,
      by decide, List.all_eq_true.mp rfl⟩
  let s := initial ['i', 'f', ' ', '(', 'a', ')', '/', '\'', '/', ';']
  let k : Scanner := { s.token 2 .operator with statementHead := true }
  let o := k.advance 1
  let i : Scanner := { o.token 1 .operator with parens := [true], statementHead := false }
  let j := i.token 1 .operand
  have hInside : Balanced i [.verbatim ['a']] j :=
    .step (.single rfl rfl) (fun _ => by decide) (.refl j)
  have hHead := @ExpressionStart.head s.ahead "if" [] _ s k o i j j.closeParen
    ⟨[' '], List.all_eq_true.mp rfl⟩ (.refl s) ⟨rfl, rfl, rfl⟩ (by decide) (.single rfl rfl)
    (.single rfl rfl) (.single rfl rfl) hInside rfl (.single rfl rfl)
  obtain ⟨-, more, back, hMore, hPieces, -⟩ := regex_opaque r hHead rfl
  exact ⟨more, back, hMore, hPieces⟩

/-- Behind `export default`, and behind some heads of statements, a quote in a regular expression opens a
string. Such a head does not follow its word over blanks alone, or it holds an import whose parenthesis is
read with the word. A regular expression in an open substitution is what an open template is named by. -/
theorem regex_behind_default :
    (∃ r : RegexLiteral, r.text = "/'/".toList ∧
      ∀ before ∈ ["export default ", "if /**/ (a) ", "for await (a of b) ", "if (import('m')) "],
        failure? (before ++ String.ofList r.text ++ ".test(c);") =
          some ⟨.string, utf8Length before.toList + 1⟩) ∧
    ∃ r : RegexLiteral, r.text = "/x/".toList ∧
      failure? ("\x60$\x7b(" ++ String.ofList r.text) = some ⟨.template, 4⟩ := by
  refine ⟨⟨⟨['\''], [], .plain (by decide) (by decide) (by decide) (by decide) (by decide) .nil,
    by decide, by decide, List.all_eq_true.mp rfl⟩, rfl, by decide⟩,
    ⟨['x'], [], .plain (by decide) (by decide) (by decide) (by decide) (by decide) .nil, by decide,
      by decide, List.all_eq_true.mp rfl⟩, rfl, by decide⟩

end ModuleGateway.Relink
