import ModuleGateway.Proofs.Relink.Construct
import ModuleGateway.Proofs.Text.Utf8

/-!
What is open while the scanner reads. A step of code opens a literal or a comment, opens or closes a
parenthesis, or leaves everything open that is open. The bytes in front of the scanner are those of the
text that it has read, and from one state there is one scan, so that a scan that fails is the end of all.
-/

namespace ModuleGateway.Relink

open Text

namespace Scanner

/-- A step of code that reads on and leaves open what is open. -/
structure Continues (s t : Scanner) : Prop where
  offset : ∃ n, t.ahead = s.ahead.drop n ∧ t.offset = s.offset + utf8Length (s.ahead.take n)
  mode : t.mode = s.mode ∨ t.mode = .target
  opened : t.opened = s.opened
  substitutions : t.substitutions = s.substitutions
  parens : t.parens = s.parens

/-- What a step of code does that reads `c` first. -/
inductive Turn (s : Scanner) (c : Char) : Scanner → Prop where
  | continues {t : Scanner} (h : s.Continues t) : Turn s c t
  | opens {t : Scanner} {opener : List Char} (h : s.Opens opener t)
      (hAhead : s.ahead = opener ++ t.ahead) : Turn s c t
  | openParen (hParen : c = '(') : Turn s c { s.token 1 .operator with
      parens := s.statementHead :: s.parens, statementHead := false }
  | closeParen (hParen : c = ')') : Turn s c s.closeParen

variable {s t u r : Scanner} {c : Char} {rest : List Char} {piece : Piece} {p q : List Piece}

/-! ### Steps of code -/

theorem continues_advance (n : Nat) (h : t.ahead = (s.advance n).ahead ∧ t.offset = (s.advance n).offset ∧
    t.mode = s.mode ∧ t.opened = s.opened ∧ t.substitutions = s.substitutions ∧ t.parens = s.parens) :
    s.Continues t where
  offset := ⟨n, h.1, h.2.1⟩
  mode := .inl h.2.2.1
  opened := h.2.2.2.1
  substitutions := h.2.2.2.2.1
  parens := h.2.2.2.2.2

theorem Continues.trans (left : s.Continues t) (right : t.Continues u) (hMode : t.mode = s.mode) :
    s.Continues u where
  offset := by
    obtain ⟨m, hAhead, hOffset⟩ := left.offset
    obtain ⟨n, hAhead', hOffset'⟩ := right.offset
    refine ⟨m + n, by rw [hAhead', hAhead, List.drop_drop], ?_⟩
    rw [hOffset', hOffset, hAhead, List.take_add, utf8Length_append, Nat.add_assoc]
  mode := by rw [← hMode]; exact right.mode
  opened := right.opened.trans left.opened
  substitutions := right.substitutions.trans left.substitutions
  parens := right.parens.trans left.parens

theorem continues_toTarget (s : Scanner) (n : Nat) : s.Continues (s.toTarget n) :=
  ⟨⟨n, rfl, rfl⟩, .inr rfl, rfl, rfl, rfl⟩

theorem continues_awaiting (s : Scanner) : s.Continues { s with awaitingFrom := true } :=
  ⟨⟨0, rfl, rfl⟩, .inl rfl, rfl, rfl, rfl⟩

theorem continues_here (s : Scanner) : s.Continues s :=
  ⟨⟨0, rfl, rfl⟩, .inl rfl, rfl, rfl, rfl⟩

theorem importWord_continues (read : Scanner) : read.Continues read.importWord := by
  rw [importWord_eq]
  split
  · split
    · exact continues_toTarget read _
    · exact continues_here read
  split
  · exact continues_toTarget read _
  split
  · exact continues_awaiting read
  · exact continues_here read

theorem exportWord_continues (read : Scanner) : read.Continues read.exportWord := by
  rw [exportWord_eq]
  split
  · exact continues_awaiting read
  · exact continues_here read

theorem fromWord_continues (read : Scanner) : read.Continues read.fromWord := by
  rw [fromWord_eq]
  split
  · exact continues_toTarget read _
  · exact continues_here read

theorem word_continues (s : Scanner) : s.Continues s.word := by
  have hToken (n : Nat) (prior : Prior) : s.Continues (s.token n prior) :=
    continues_advance n ⟨rfl, rfl, rfl, rfl, rfl, rfl⟩
  unfold word
  dsimp only
  split
  · exact hToken _ _
  split
  · exact (hToken _ _).trans (importWord_continues _) rfl
  split
  · exact (hToken _ _).trans (exportWord_continues _) rfl
  split
  · exact (hToken _ _).trans (fromWord_continues _) rfl
  split
  · exact continues_advance _ ⟨rfl, rfl, rfl, rfl, rfl, rfl⟩
  · exact hToken _ _

theorem turn_of_opens {opener text : List Char} (h : s.Opens opener t) (hAhead : s.ahead = opener ++ text) :
    s.Turn c t :=
  .opens h (h.passes hAhead).ahead

theorem slash_turn (hAhead : s.ahead = '/' :: rest) : s.Turn c (s.slash rest.head?) := by
  unfold slash
  split
  · rename_i hNext
    obtain ⟨tail, rfl⟩ := List.head?_eq_some_iff.mp hNext
    exact turn_of_opens .lineComment hAhead
  split
  · rename_i hNext
    obtain ⟨tail, rfl⟩ := List.head?_eq_some_iff.mp hNext
    exact turn_of_opens .blockComment hAhead
  split
  · rename_i hPrior
    exact turn_of_opens (.regex hPrior) hAhead
  · exact .continues (continues_advance 1 ⟨rfl, rfl, rfl, rfl, rfl, rfl⟩)

theorem closeBrace_turn (hAhead : s.ahead = '\x7d' :: rest) : s.Turn c s.closeBrace := by
  unfold closeBrace
  split
  · rename_i depth outer hDepth
    split
    · rename_i hSame
      subst hSame
      exact turn_of_opens (.resumed hDepth) hAhead
    · exact .continues (continues_advance 1 ⟨rfl, rfl, rfl, rfl, rfl, rfl⟩)
  · exact .continues (continues_advance 1 ⟨rfl, rfl, rfl, rfl, rfl, rfl⟩)

theorem code_turn (hAhead : s.ahead = c :: rest) : s.Turn c (s.code c rest) := by
  have hOne {t : Scanner} (hOpens : s.Opens [c] t) : s.Turn c t := turn_of_opens hOpens hAhead
  have hMove {t : Scanner} (n : Nat) (h : t.ahead = (s.advance n).ahead ∧
      t.offset = (s.advance n).offset ∧ t.mode = s.mode ∧ t.opened = s.opened ∧
      t.substitutions = s.substitutions ∧ t.parens = s.parens) : s.Turn c t :=
    .continues (continues_advance n h)
  apply code_cases
  case quoted => exact fun hQuote => hOne (.quoted hQuote)
  case template => exact fun hTick => hOne (hTick ▸ .template)
  case slash => exact fun hSlash => slash_turn (hSlash ▸ hAhead)
  case closeBrace => exact fun hBrace => closeBrace_turn (hBrace ▸ hAhead)
  case openParen => exact .openParen
  case closeParen => exact .closeParen
  case twice => exact fun _ _ => hMove 2 ⟨rfl, rfl, rfl, rfl, rfl, rfl⟩
  case word => exact fun _ => .continues (word_continues s)
  case openBrace | semicolon | closeBracket | number | blank =>
    exact fun _ => hMove _ ⟨rfl, rfl, rfl, rfl, rfl, rfl⟩
  case operator => exact hMove 1 ⟨rfl, rfl, rfl, rfl, rfl, rfl⟩

/-- A step from code is a turn. -/
theorem turn_of_step (hMode : s.mode = .code) (hAhead : s.ahead = c :: rest)
    (hStep : s.step c rest = .ok (piece, t)) : s.Turn c t := by
  simp only [step, hMode] at hStep
  obtain ⟨-, rfl⟩ := Prod.mk.inj (Except.ok.inj hStep)
  exact code_turn hAhead

/-! ### Bytes -/

theorem Turn.offset (h : s.Turn c t) :
    ∃ n, t.ahead = s.ahead.drop n ∧ t.offset = s.offset + utf8Length (s.ahead.take n) := by
  cases h with
  | continues h => exact h.offset
  | opens h => cases h <;> exact ⟨_, rfl, rfl⟩
  | openParen | closeParen => exact ⟨1, rfl, rfl⟩

theorem step_offset (hAhead : s.ahead = c :: rest) (hQuote : s.AtQuote)
    (hStep : s.step c rest = .ok (piece, t)) : t.offset = s.offset + utf8Length piece.text := by
  have hMoved : ∃ n, t.ahead = s.ahead.drop n ∧ t.offset = s.offset + utf8Length (s.ahead.take n) := by
    by_cases hMode : s.mode = .code
    · exact (turn_of_step hMode hAhead hStep).offset
    · cases step_eq_ok_iff.mp hStep with
      | code hCode => exact absurd hCode hMode
      | quoted | template | substitution | lineComment | blockComment | regex | target =>
          exact ⟨_, rfl, rfl⟩
  obtain ⟨n, hDrop, hOffset⟩ := hMoved
  have hText : s.ahead.take n = piece.text := by
    have hPasses := (step_passes hAhead hQuote hStep).1.ahead
    rw [hDrop] at hPasses
    exact List.append_cancel_right ((List.take_append_drop n s.ahead).trans hPasses)
  rw [hOffset, hText]

theorem Scans.atQuote (h : s.Scans p t) (hQuote : s.AtQuote) : t.AtQuote := by
  induction h with
  | refl => exact hQuote
  | step hAhead hStep later ih => exact ih (step_passes hAhead hQuote hStep).2.1

theorem Scans.offset (h : s.Scans p t) (hQuote : s.AtQuote) :
    t.offset = s.offset + utf8Length (p.flatMap Piece.text) := by
  induction h with
  | refl => rfl
  | step hAhead hStep later ih =>
      obtain ⟨-, hNext, -⟩ := step_passes hAhead hQuote hStep
      rw [ih hNext, step_offset hAhead hQuote hStep, List.flatMap_cons, utf8Length_append, Nat.add_assoc]

/-! ### One scan -/

/-- Of two scans from one state, one goes on with the other. -/
theorem Scans.meet (left : s.Scans p t) (right : s.Scans q u) :
    (∃ back, t.Scans back u) ∨ ∃ back, u.Scans back t := by
  induction left generalizing q with
  | refl => exact .inl ⟨q, right⟩
  | step hAhead hStep later ih =>
      cases right with
      | refl => exact .inr ⟨_, .step hAhead hStep later⟩
      | step hAhead' hStep' later' =>
          obtain ⟨rfl, rfl⟩ := List.cons.inj (hAhead.symm.trans hAhead')
          obtain ⟨-, rfl⟩ := Prod.mk.inj (Except.ok.inj (hStep.symm.trans hStep'))
          exact ih later'

/-- The scan ends here, with this error. -/
inductive Fails (t : Scanner) (e : Unterminated) : Prop where
  | atEnd (hEnd : t.ahead = []) (hPending : t.pending = some e)
  | inside {c : Char} {rest : List Char} (hAhead : t.ahead = c :: rest) (hStep : t.step c rest = .error e)

variable {e : Unterminated}

theorem Fails.last (h : t.Fails e) (hScan : t.Scans p u) : u = t := by
  cases hScan with
  | refl => rfl
  | step hAhead hStep =>
      cases h with
      | atEnd hEnd => rw [hEnd] at hAhead; cases hAhead
      | inside hAhead' hStep' =>
          obtain ⟨rfl, rfl⟩ := List.cons.inj (hAhead.symm.trans hAhead')
          rw [hStep'] at hStep
          cases hStep

/-- Wherever a failing scan comes, it goes on to the failure. -/
theorem Scans.toFailure (h : s.Scans p t) (hFails : t.Fails e) (hScan : s.Scans q u) :
    ∃ back, u.Scans back t := by
  rcases h.meet hScan with ⟨back, hBack⟩ | hBack
  · rw [hFails.last hBack]
    exact ⟨[], .refl t⟩
  · exact hBack

theorem fails_surveyFor (fuel : Nat) (hQuote : s.AtQuote) (hFuel : s.stepsLeft < fuel)
    (hFailure : (s.surveyFor fuel).failure = some e) :
    ∃ t, s.Scans (s.surveyFor fuel).pieces t ∧ t.Fails e := by
  induction fuel generalizing s with
  | zero => exact absurd hFuel (Nat.not_lt_zero _)
  | succ fuel ih =>
      unfold surveyFor at hFailure ⊢
      split at hFailure
      · rename_i hAhead
        exact ⟨s, .refl s, .atEnd hAhead hFailure⟩
      · rename_i c rest hAhead
        split at hFailure
        · rename_i hStep
          obtain rfl := Option.some.inj hFailure
          exact ⟨s, .refl s, .inside hAhead hStep⟩
        · rename_i piece next hStep
          obtain ⟨-, hNext, -⟩ := step_passes hAhead hQuote hStep
          have hLess := step_stepsLeft hAhead hStep
          obtain ⟨t, hScans, hFails⟩ := ih hNext (by omega) hFailure
          exact ⟨t, .step hAhead hStep hScans, hFails⟩

/-- How a scan fails: in front of a literal or inside of a construct that is not closed, or at the end of
the source with a substitution open. -/
inductive Breaks (t : Scanner) : Unterminated → Prop where
  | quoted {quote : Char} (hMode : t.mode = .quoted quote) (hOpen : stringBody quote t.ahead = none) :
      Breaks t ⟨.string, t.opened⟩
  | target {quote : Char} {rest : List Char} (hMode : t.mode = .target) (hAhead : t.ahead = quote :: rest)
      (hQuote : isQuote quote = true) (hOpen : stringBody quote rest = none) :
      Breaks t ⟨.string, t.offset⟩
  | blockComment (hMode : t.mode = .blockComment) (hOpen : blockBody t.ahead = none) :
      Breaks t ⟨.blockComment, t.opened⟩
  | regex (hMode : t.mode = .regex) (hOpen : regexBody false t.ahead = none) :
      Breaks t ⟨.regex, t.opened⟩
  | template (hMode : t.mode = .template) : Breaks t ⟨.template, t.opened⟩
  | substitution (hMode : t.mode = .code ∨ t.mode = .lineComment) (hEnd : t.ahead = [])
      (hOpen : t.substitutions ≠ []) : Breaks t ⟨.template, t.opened⟩

theorem Fails.breaks (h : t.Fails e) (hQuote : t.AtQuote) : t.Breaks e := by
  cases h with
  | atEnd hEnd hPending =>
      have hSubstitution (hMode : t.mode = .code ∨ t.mode = .lineComment)
          (hOpen : (if t.substitutions = [] then none else some ⟨.template, t.opened⟩) = some e) :
          t.Breaks e := by
        split at hOpen
        · cases hOpen
        · cases hOpen
          exact .substitution hMode hEnd ‹_›
      unfold pending at hPending
      cases hMode : t.mode <;> rw [hMode] at hPending
      case code => exact hSubstitution (.inl hMode) hPending
      case lineComment => exact hSubstitution (.inr hMode) hPending
      case target =>
        obtain ⟨quote, rest, hAhead, -⟩ := hQuote hMode
        rw [hEnd] at hAhead
        cases hAhead
      case quoted =>
        cases hPending
        exact .quoted hMode (by rw [hEnd]; rfl)
      case template =>
        cases hPending
        exact .template hMode
      case blockComment =>
        cases hPending
        exact .blockComment hMode (by rw [hEnd]; rfl)
      case regex =>
        cases hPending
        exact .regex hMode (by rw [hEnd]; rfl)
  | @inside c rest hAhead hStep =>
      unfold step at hStep
      dsimp only at hStep
      split at hStep
      case h_1 => cases hStep
      case h_4 => cases hStep
      case h_2 quote hMode =>
        split at hStep
        · cases hStep
        · cases hStep
          exact .quoted hMode ‹_›
      case h_3 hMode =>
        split at hStep
        · cases hStep
        · cases hStep
        · cases hStep
          exact .template hMode
      case h_5 hMode =>
        split at hStep
        · cases hStep
        · cases hStep
          exact .blockComment hMode ‹_›
      case h_6 hMode =>
        split at hStep
        · cases hStep
        · cases hStep
          exact .regex hMode ‹_›
      case h_7 hMode =>
        split at hStep
        · cases hStep
        · cases hStep
          obtain ⟨quote, tail, hHead, hIs⟩ := hQuote hMode
          obtain ⟨rfl, rfl⟩ := List.cons.inj (hAhead.symm.trans hHead)
          exact .target hMode hAhead hIs ‹_›

/-! ### What opened last -/

/-- A step opens something here, or what opened last stays so. -/
theorem step_opened (hAhead : s.ahead = c :: rest) (hStep : s.step c rest = .ok (piece, t)) :
    t.opened = s.opened ∨ t.opened = s.offset := by
  by_cases hMode : s.mode = .code
  · cases turn_of_step hMode hAhead hStep with
    | continues h => exact .inl h.opened
    | opens h => cases h <;> first | exact .inl rfl | exact .inr rfl
    | openParen | closeParen => exact .inl rfl
  · cases step_eq_ok_iff.mp hStep with
    | code hCode => exact absurd hCode hMode
    | quoted | template | substitution | lineComment | blockComment | regex => exact .inl rfl
    | target => exact .inr rfl

/-- What opened last opened in front of the scan, or on the way. -/
theorem Scans.opened (h : s.Scans p t) (hQuote : s.AtQuote) :
    t.opened = s.opened ∨ s.offset ≤ t.opened := by
  induction h with
  | refl => exact .inl rfl
  | step hAhead hStep later ih =>
      obtain ⟨-, hNext, -⟩ := step_passes hAhead hQuote hStep
      have hOffset := step_offset hAhead hQuote hStep
      rcases ih hNext with hSame | hLater
      · rw [hSame]
        exact (step_opened hAhead hStep).imp_right fun hHere => hHere.ge
      · exact .inr (by omega)

/-- Inside of a construct that is read in one step, this is the construct that opened last. -/
theorem opened_of_step (hAhead : s.ahead = c :: rest) (hStep : s.step c rest = .ok (piece, t))
    (hCode : t.mode ≠ .code) (hTarget : t.mode ≠ .target) (hLine : t.mode ≠ .lineComment)
    (hTemplate : t.mode ≠ .template) : t.opened = s.offset := by
  have hMode : s.mode = .code := by
    by_contra hOther
    exact hCode ((step_eq_ok_iff.mp hStep).mode hOther)
  cases turn_of_step hMode hAhead hStep with
  | continues h => exact (h.mode.elim (fun hSame => hCode (hSame.trans hMode)) hTarget).elim
  | opens h =>
      cases h with
      | quoted | blockComment | regex => rfl
      | template | resumed => exact absurd rfl hTemplate
      | lineComment => exact absurd rfl hLine
  | openParen | closeParen => exact absurd hMode hCode

/-- Since `z`, nothing has opened but what a substitution of `z` goes on with. -/
structure Idle (z t : Scanner) : Prop where
  opened : t.opened = z.opened
  mode : t.mode = .code ∨ t.mode = .target ∨ t.mode = .lineComment ∨
    t.mode = .template ∧ z.substitutions ≠ []
  outer : t.substitutions ≠ [] → z.substitutions ≠ []

variable {z : Scanner}

theorem Idle.step (h : z.Idle s) (hAhead : s.ahead = c :: rest) (hStep : s.step c rest = .ok (piece, t)) :
    t.opened = s.offset ∨ z.Idle t := by
  rcases h.mode with hMode | hMode | hMode | ⟨hMode, hOuter⟩
  · cases turn_of_step hMode hAhead hStep with
    | continues hOn =>
        have hNext : t.mode = .code ∨ t.mode = .target := hMode ▸ hOn.mode
        exact .inr ⟨hOn.opened.trans h.opened, hNext.imp_right .inl, hOn.substitutions ▸ h.outer⟩
    | opens hOpens =>
        cases hOpens with
        | quoted | template | blockComment | regex => exact .inl rfl
        | lineComment => exact .inr ⟨h.opened, .inr (.inr (.inl rfl)), h.outer⟩
        | resumed hDepth =>
            have hOuter : z.substitutions ≠ [] := h.outer (by simp [hDepth])
            exact .inr ⟨h.opened, .inr (.inr (.inr ⟨rfl, hOuter⟩)), fun _ => hOuter⟩
    | openParen | closeParen => exact .inr ⟨h.opened, .inl hMode, h.outer⟩
  · simp only [Scanner.step, hMode] at hStep
    split at hStep
    · cases hStep
      exact .inl rfl
    · cases hStep
  · simp only [Scanner.step, hMode] at hStep
    cases hStep
    exact .inr ⟨h.opened, .inl rfl, h.outer⟩
  · simp only [Scanner.step, hMode] at hStep
    split at hStep
    · cases hStep
      exact .inr ⟨h.opened, .inl rfl, h.outer⟩
    · cases hStep
      exact .inr ⟨h.opened, .inl rfl, fun _ => hOuter⟩
    · cases hStep

theorem Idle.scans (h : z.Idle s) (hFrom : z.offset ≤ s.offset) (hQuote : s.AtQuote)
    (hScan : s.Scans p t) : z.offset ≤ t.opened ∨ z.Idle t := by
  induction hScan with
  | refl => exact .inr h
  | step hAhead hStep later ih =>
      obtain ⟨-, hNext, -⟩ := step_passes hAhead hQuote hStep
      have hOffset := step_offset hAhead hQuote hStep
      rcases h.step hAhead hStep with hHere | hIdle
      · rcases later.opened hNext with hSame | hLater
        · exact .inl (by omega)
        · exact .inl (by omega)
      · exact ih hIdle (by omega) hNext

/-- A scan that goes on from code fails behind where it started, or it names what opened last in front of
there, because a substitution that is open there stays open. -/
theorem Scans.fails_behind (h : z.Scans p t) (hCode : z.mode = .code) (hFails : t.Fails e) :
    z.offset ≤ e.offset ∨ e = ⟨.template, z.opened⟩ ∧ z.substitutions ≠ [] := by
  have hQuote : z.AtQuote := atQuote_of_mode (by simp [hCode])
  have hStart : z.Idle z := ⟨rfl, .inl hCode, id⟩
  have hIdle := hStart.scans (Nat.le_refl _) hQuote h
  cases hFails.breaks (h.atQuote hQuote) with
  | quoted hMode | blockComment hMode | regex hMode =>
      exact hIdle.imp_right fun hIdle => by simpa [hMode] using hIdle.mode
  | target => exact .inl ((h.offset hQuote).symm ▸ Nat.le_add_right _ _)
  | template hMode =>
      refine hIdle.imp_right fun hIdle => ⟨by rw [hIdle.opened], ?_⟩
      simpa [hMode] using hIdle.mode
  | substitution _ _ hOpen => exact hIdle.imp_right fun hIdle => ⟨by rw [hIdle.opened], hIdle.outer hOpen⟩

end Scanner

/-- The scan of a refused source comes to where it fails. -/
theorem fails_of_refused {source : List Char} {e : Unterminated}
    (h : failure? (String.ofList source) = some e) :
    ∃ t, (Scanner.initial source).Scans (survey source).pieces t ∧ t.Fails e := by
  rw [failure?, String.toList_ofList] at h
  exact Scanner.fails_surveyFor _ (within_initial source).atQuote (Scanner.stepsLeft_initial source) h

/-- The offset of the scanner is that of what it has not read yet. -/
theorem offset_of_scans {source : List Char} {pieces : List Piece} {t : Scanner}
    (h : (Scanner.initial source).Scans pieces t) :
    source = pieces.flatMap Piece.text ++ t.ahead ∧ t.offset = utf8Length (pieces.flatMap Piece.text) :=
  ⟨(h.within (within_initial source)).2.ahead,
    (h.offset (within_initial source).atQuote).trans (Nat.zero_add _)⟩

/-- Once the scan of a refused source has come to code, the error lies behind what has been read, or it
names what opened last in there, because a substitution is open. -/
theorem failure_behind {source : List Char} {pieces : List Piece} {z : Scanner} {e : Unterminated}
    (hScan : (Scanner.initial source).Scans pieces z) (hCode : z.mode = .code)
    (hFailure : failure? (String.ofList source) = some e) :
    utf8Length (pieces.flatMap Piece.text) ≤ e.offset ∨
      e = ⟨.template, z.opened⟩ ∧ z.substitutions ≠ [] := by
  obtain ⟨t, hFailing, hFails⟩ := fails_of_refused hFailure
  obtain ⟨back, hBack⟩ := hFailing.toFailure hFails hScan
  rw [← (offset_of_scans hScan).2]
  exact hBack.fails_behind hCode hFails

/-- Relinking goes along every scan of the source, and on behind it. -/
theorem relink_through {source : List Char} {pieces : List Piece} {t : Scanner}
    (hScan : (Scanner.initial source).Scans pieces t) :
    ∃ back, (survey source).pieces = pieces ++ back ∧
      ∀ (m : Type → Type) [Monad m] [LawfulMonad m] (map : String → m (Option String)),
        relink map (String.ofList source) = (do
          let a ← relinkAll map pieces
          let b ← relinkAll map back
          pure (match failure? (String.ofList source) with
            | some e => .error e
            | none => .ok (String.ofList (a ++ b)))) := by
  obtain ⟨left, -, -, hSurvey⟩ :=
    hScan.surveyFor (within_initial source).atQuote (Scanner.stepsLeft_initial source)
  refine ⟨(t.surveyFor left).pieces, congrArg Survey.pieces hSurvey, ?_⟩
  intro m _ _ map
  rw [relink_eq_relinkAll, String.toList_ofList, survey, hSurvey, relinkAll_append, bind_assoc]
  refine bind_congr fun a => ?_
  rw [bind_assoc]
  exact bind_congr fun b => pure_bind _ _

end ModuleGateway.Relink
