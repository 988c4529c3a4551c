import ModuleGateway.Proofs.Relink.Lookahead
import Mathlib.Data.List.TakeWhile

/-!
Literals and comments as the scanner sees them. A step of code opens a construct; in front of a text that
the construct holds, the scanner reads the text and what closes it, without coming to a target, and what
it is then does not depend on the text. The scan of an accepted source always stands in front of a text
that its construct holds.
-/

namespace ModuleGateway.Relink

open Text

/-- What ends a chunk of a template. -/
def ChunkEnd.text : ChunkEnd → List Char
  | .closed => ['\x60']
  | .substitution => ['$', '\x7b']

/-- In this mode, a scanner in front of `text` and `after` takes `text` as what is inside, and `after`
starts with what closes it. A line comment may also end with the source. -/
def Mode.Holds (mode : Mode) (text after : List Char) : Prop :=
  match mode with
  | .quoted quote => stringBody quote (text ++ after) = some text
  | .template => ∃ e : ChunkEnd, templateChunk (text ++ after) = some (text.length + e.text.length, e)
  | .regex => regexBody false (text ++ after) = some (text.length + 1)
  | .blockComment => blockBody (text ++ after) = some (text.length + 2)
  | .lineComment => '\n' ∉ text ∧ ∀ c ∈ after.head?, c = '\n'
  | .code | .target => False

/-! ### Where constructs open -/

namespace Scanner

/-- The scanner opens a construct with this delimiter, or goes on in a template behind a substitution. -/
inductive Opens (r : Scanner) : List Char → Scanner → Prop where
  | quoted {quote : Char} (hQuote : isQuote quote = true) :
      Opens r [quote] (r.openWith 1 (.quoted quote))
  | template : Opens r ['\x60'] (r.openWith 1 .template)
  | resumed {outer : List Nat} (hDepth : r.substitutions = r.braces :: outer) :
      Opens r ['\x7d'] { r.advance 1 with substitutions := outer, mode := .template }
  | lineComment : Opens r ['/', '/'] { r.advance 2 with mode := .lineComment }
  | blockComment : Opens r ['/', '*'] (r.openWith 2 .blockComment)
  | regex (hPrior : r.prior ≠ .operand) : Opens r ['/'] (r.openWith 1 .regex)

variable {r s t : Scanner} {opener text : List Char}

theorem MovesBy.passes (move : s.MovesBy text.length t) {rest : List Char}
    (hAhead : s.ahead = text ++ rest) : s.Passes text t where
  ahead := by rw [move.ahead, hAhead, List.drop_left]
  behind := by rw [move.behind, hAhead, List.take_left]
  count := move.count

theorem Opens.passes (h : r.Opens opener s) (hAhead : r.ahead = opener ++ text) :
    r.Passes opener s := by
  cases h <;> exact MovesBy.passes ⟨rfl, rfl, rfl⟩ hAhead

/-- Constructs open in the same way wherever the scanner stands. -/
theorem Opens.twin (h : r.Opens opener s) (hTwins : r.Twins t) :
    ∃ s', t.Opens opener s' ∧ s.Twins s' := by
  obtain ⟨here, rfl⟩ := hTwins.place
  cases h with
  | quoted hQuote => exact ⟨_, .quoted hQuote, rfl⟩
  | template => exact ⟨_, .template, rfl⟩
  | resumed hDepth => exact ⟨_, .resumed hDepth, rfl⟩
  | lineComment => exact ⟨_, .lineComment, rfl⟩
  | blockComment => exact ⟨_, .blockComment, rfl⟩
  | regex hPrior => exact ⟨_, .regex hPrior, rfl⟩

theorem Opens.quote {quote : Char}
    (h : r.Opens opener s) (hMode : s.mode = .quoted quote) : isQuote quote = true := by
  cases h with
  | quoted hQuote => cases hMode; exact hQuote
  | resumed | template | lineComment | blockComment | regex => cases hMode

theorem Opens.isOpener (h : r.Opens opener s) :
    ∃ c rest, opener = c :: rest ∧ isOpener c = true := by
  cases h with
  | quoted hQuote => exact ⟨_, [], rfl, by simp [Relink.isOpener, hQuote]⟩
  | template | resumed | lineComment | blockComment | regex => exact ⟨_, _, rfl, by decide⟩

/-- The step that opens a construct. A slash opens a regular expression only when no comment starts
there. -/
theorem Opens.scans (h : r.Opens opener s) (hMode : r.mode = .code) (hAhead : r.ahead = opener ++ text)
    (hRegex : s.mode = .regex → text.head? ≠ some '/' ∧ text.head? ≠ some '*') :
    r.Scans [.verbatim opener] s := by
  have hPiece := (h.passes hAhead).readTo
  cases h with
  | quoted hQuote =>
      refine .single hAhead ?_
      simp only [step, hMode, code, hQuote, if_true, hPiece]
  | template =>
      refine .single hAhead ?_
      simp [step, hMode, code, isQuote, hPiece]
  | resumed hDepth =>
      refine .single hAhead ?_
      simp [step, hMode, code, isQuote, closeBrace, hDepth, hPiece]
  | lineComment =>
      refine .single hAhead ?_
      simp [step, hMode, code, isQuote, slash, hPiece]
  | blockComment =>
      refine .single hAhead ?_
      simp [step, hMode, code, isQuote, slash, hPiece]
  | regex hPrior =>
      obtain ⟨hNoLine, hNoBlock⟩ := hRegex rfl
      refine .single hAhead ?_
      simp [step, hMode, code, isQuote, slash, hPrior, hNoLine, hNoBlock, hPiece]

/-- The step from `r` to `t` stays in code, announces a target, or opens a construct. -/
def GoesOn (r t : Scanner) : Prop :=
  t.mode = .code ∨ t.mode = .target ∨ ∃ opener, r.Opens opener t ∧ r.ahead = opener ++ t.ahead

theorem importWord_mode (read : Scanner) :
    read.importWord.mode = read.mode ∨ read.importWord.mode = .target := by
  rw [importWord_eq]
  split
  · split
    · exact .inr rfl
    · exact .inl rfl
  · split
    · exact .inr rfl
    · split <;> exact .inl rfl

theorem exportWord_mode (read : Scanner) : read.exportWord.mode = read.mode := by
  rw [exportWord_eq]
  split <;> rfl

theorem fromWord_mode (read : Scanner) :
    read.fromWord.mode = read.mode ∨ read.fromWord.mode = .target := by
  rw [fromWord_eq]
  split
  · exact .inr rfl
  · exact .inl rfl

theorem word_goesOn (hMode : r.mode = .code) : r.GoesOn r.word := by
  unfold word
  dsimp only
  refine iteInduction (fun _ => .inl hMode) fun _ => ?_
  refine iteInduction (fun _ => ?_) fun _ => ?_
  · exact (importWord_mode _).imp (fun h => h.trans hMode) .inl
  refine iteInduction (fun _ => .inl ((exportWord_mode _).trans hMode)) fun _ => ?_
  refine iteInduction (fun _ => ?_) fun _ => ?_
  · exact (fromWord_mode _).imp (fun h => h.trans hMode) .inl
  exact iteInduction (fun _ => .inl hMode) fun _ => .inl hMode

theorem slash_goesOn {rest : List Char} (hMode : r.mode = .code) (hAhead : r.ahead = '/' :: rest) :
    r.GoesOn (r.slash rest.head?) := by
  unfold slash
  refine iteInduction (fun hNext => ?_) fun _ => ?_
  · obtain ⟨tail, rfl⟩ := List.head?_eq_some_iff.mp hNext
    exact .inr (.inr ⟨_, .lineComment, hAhead.trans (congrArg (['/', '/'] ++ ·)
      (congrArg (List.drop 2) hAhead).symm)⟩)
  refine iteInduction (fun hNext => ?_) fun _ => ?_
  · obtain ⟨tail, rfl⟩ := List.head?_eq_some_iff.mp hNext
    exact .inr (.inr ⟨_, .blockComment, hAhead.trans (congrArg (['/', '*'] ++ ·)
      (congrArg (List.drop 2) hAhead).symm)⟩)
  refine iteInduction (fun hPrior => ?_) fun _ => .inl hMode
  exact .inr (.inr ⟨_, .regex hPrior, hAhead.trans (congrArg ('/' :: ·)
    (congrArg (List.drop 1) hAhead).symm)⟩)

theorem closeBrace_goesOn {rest : List Char} (hMode : r.mode = .code)
    (hAhead : r.ahead = '\x7d' :: rest) : r.GoesOn r.closeBrace := by
  unfold closeBrace
  split
  · rename_i depth outer hDepth
    refine iteInduction (fun hSame => ?_) fun _ => .inl hMode
    subst hSame
    exact .inr (.inr ⟨_, .resumed hDepth, hAhead.trans (congrArg ('\x7d' :: ·)
      (congrArg (List.drop 1) hAhead).symm)⟩)
  · exact .inl hMode

theorem code_goesOn {c : Char} {rest : List Char} (hMode : r.mode = .code)
    (hAhead : r.ahead = c :: rest) : r.GoesOn (r.code c rest) := by
  have hCode {t : Scanner} (h : t.mode = r.mode) : r.GoesOn t := .inl (h.trans hMode)
  have hOne {t : Scanner} (hOpens : r.Opens [c] t) (hDrop : t.ahead = r.ahead.drop 1) : r.GoesOn t :=
    .inr (.inr ⟨_, hOpens, by rw [hDrop, hAhead]; rfl⟩)
  apply code_cases
  case quoted => exact fun hQuote => hOne (.quoted hQuote) rfl
  case template => exact fun hTick => hOne (hTick ▸ .template) rfl
  case slash => exact fun hSlash => slash_goesOn hMode (hSlash ▸ hAhead)
  case closeBrace => exact fun hBrace => closeBrace_goesOn hMode (hBrace ▸ hAhead)
  case twice => exact fun _ _ => hCode rfl
  case word => exact fun _ => word_goesOn hMode
  case openBrace | semicolon | openParen | closeParen | closeBracket | number | blank =>
    exact fun _ => hCode rfl
  case operator => exact hCode rfl

/-- A scan has read nothing, or has a last step. -/
theorem Scans.last {pieces : List Piece} (h : s.Scans pieces t) (hQuote : s.AtQuote) :
    (pieces = [] ∧ s = t) ∨ ∃ front r c rest piece, pieces = front ++ [piece] ∧ s.Scans front r ∧
      r.AtQuote ∧ r.ahead = c :: rest ∧ r.step c rest = .ok (piece, t) := by
  induction h with
  | refl => exact .inl ⟨rfl, rfl⟩
  | @step s next t c rest piece pieces hAhead hStep later ih =>
      obtain ⟨-, hNext, -⟩ := step_passes hAhead hQuote hStep
      rcases ih hNext with ⟨rfl, rfl⟩ | ⟨front, r, d, tail, last, rfl, hScans, hLast⟩
      · exact .inr ⟨[], s, c, rest, piece, rfl, .refl s, hQuote, hAhead, hStep⟩
      · exact .inr ⟨piece :: front, r, d, tail, last, rfl, .step hAhead hStep hScans, hLast⟩

/-- A scan from code to the inside of a construct ends with the step that opens it. -/
theorem Scans.opening {pieces : List Piece} (h : s.Scans pieces t) (hQuote : s.AtQuote)
    (hFrom : s.mode = .code) (hCode : t.mode ≠ .code) (hTarget : t.mode ≠ .target) :
    ∃ front r opener, pieces = front ++ [.verbatim opener] ∧ s.Scans front r ∧ r.mode = .code ∧
      r.Opens opener t ∧ r.ahead = opener ++ t.ahead := by
  rcases h.last hQuote with ⟨-, rfl⟩ | ⟨front, r, c, rest, piece, rfl, hScans, hAt, hAhead, hStep⟩
  · exact absurd hFrom hCode
  · have hMode : r.mode = .code := by
      by_contra hOther
      exact hCode ((step_eq_ok_iff.mp hStep).mode hOther)
    simp only [Scanner.step, hMode] at hStep
    obtain ⟨rfl, rfl⟩ := Prod.mk.inj (Except.ok.inj hStep)
    obtain ⟨opener, hOpens, hOpened⟩ :=
      ((code_goesOn hMode hAhead).resolve_left hCode).resolve_left hTarget
    rw [(hOpens.passes hOpened).readTo]
    exact ⟨front, r, opener, rfl, hScans, hMode, hOpens, hOpened⟩

end Scanner

/-! ### Where constructs close -/

/-- What closes the inside of a construct, when `after` follows it. -/
def Mode.closer : Mode → List Char → List Char
  | .quoted quote, _ => [quote]
  | .template, after => if after.head? = some '\x60' then ['\x60'] else ['$', '\x7b']
  | .regex, after => '/' :: after.tail.takeWhile isWordPart
  | .blockComment, _ => ['*', '/']
  | .lineComment, _ => ['\n']
  | .code, _ | .target, _ => []

/-- What a scanner is behind what closes the construct that it stood in. -/
def Scanner.closed (s : Scanner) (closer : List Char) : Scanner :=
  match s.mode with
  | .template =>
    if closer = ['\x60'] then { s with mode := .code, prior := .operand }
    else { s with mode := .code, prior := .start, substitutions := s.braces :: s.substitutions }
  | .lineComment | .blockComment => { s with mode := .code }
  | _ => { s with mode := .code, prior := .operand }

theorem templateChunk_split {text : List Char} {n : Nat} {e : ChunkEnd}
    (h : templateChunk text = some (n, e)) :
    ∃ front rest, text = front ++ (e.text ++ rest) ∧ n = front.length + e.text.length := by
  fun_induction templateChunk text generalizing n with
  | case1 => cases h
  | case2 c rest ih =>
      obtain ⟨⟨m, e'⟩, hInner, hFound⟩ := Option.map_eq_some_iff.mp h
      cases hFound
      obtain ⟨front, tail, rfl, rfl⟩ := ih hInner
      exact ⟨'\\' :: c :: front, tail, rfl, by simp only [List.length_cons]; omega⟩
  | case3 => cases h
  | case4 rest => cases h; exact ⟨[], rest, rfl, rfl⟩
  | case5 rest => cases h; exact ⟨[], rest, rfl, rfl⟩
  | case6 c rest _ _ _ _ ih =>
      obtain ⟨⟨m, e'⟩, hInner, hFound⟩ := Option.map_eq_some_iff.mp h
      cases hFound
      obtain ⟨front, tail, rfl, rfl⟩ := ih hInner
      exact ⟨c :: front, tail, rfl, by simp only [List.length_cons]; omega⟩

theorem blockBody_split {text : List Char} {n : Nat} (h : blockBody text = some n) :
    ∃ front rest, text = front ++ '*' :: '/' :: rest ∧ n = front.length + 2 := by
  fun_induction blockBody text generalizing n with
  | case1 => cases h
  | case2 rest => cases h; exact ⟨[], rest, rfl, rfl⟩
  | case3 c rest _ ih =>
      obtain ⟨m, hInner, rfl⟩ := Option.map_eq_some_iff.mp h
      obtain ⟨front, tail, rfl, rfl⟩ := ih hInner
      exact ⟨c :: front, tail, rfl, rfl⟩

theorem regexBody_split {inClass : Bool} {text : List Char} {n : Nat}
    (h : regexBody inClass text = some n) :
    ∃ front rest, text = front ++ '/' :: rest ∧ n = front.length + 1 := by
  fun_induction regexBody inClass text generalizing n with
  | case1 => cases h
  | case2 inClass c rest ih =>
      obtain ⟨m, hInner, rfl⟩ := Option.map_eq_some_iff.mp h
      obtain ⟨front, tail, rfl, rfl⟩ := ih hInner
      exact ⟨'\\' :: c :: front, tail, rfl, rfl⟩
  | case3 => cases h
  | case4 inClass rest ih =>
      obtain ⟨m, hInner, rfl⟩ := Option.map_eq_some_iff.mp h
      obtain ⟨front, tail, rfl, rfl⟩ := ih hInner
      exact ⟨'[' :: front, tail, rfl, rfl⟩
  | case5 inClass rest ih =>
      obtain ⟨m, hInner, rfl⟩ := Option.map_eq_some_iff.mp h
      obtain ⟨front, tail, rfl, rfl⟩ := ih hInner
      exact ⟨']' :: front, tail, rfl, rfl⟩
  | case6 => cases h
  | case7 inClass c rest _ _ _ _ _ hEnd =>
      cases h
      obtain ⟨rfl, -⟩ : c = '/' ∧ inClass = false := by simpa using hEnd
      exact ⟨[], rest, rfl, rfl⟩
  | case8 inClass c rest _ _ _ _ _ _ ih =>
      obtain ⟨m, hInner, rfl⟩ := Option.map_eq_some_iff.mp h
      obtain ⟨front, tail, rfl, rfl⟩ := ih hInner
      exact ⟨c :: front, tail, rfl, rfl⟩

section Closing

variable {mode : Mode} {text after : List Char}

/-- What is held is followed by what closes it. -/
theorem Mode.Holds.split (h : mode.Holds text after) (hMore : mode = .lineComment → after ≠ []) :
    ∃ rest, after = mode.closer after ++ rest := by
  cases mode with
  | code => exact h.elim
  | target => exact h.elim
  | quoted quote =>
      obtain ⟨-, rest, hRest⟩ := inside_of_stringBody h
      exact ⟨rest, List.append_cancel_left hRest⟩
  | template =>
      obtain ⟨e, hChunk⟩ := h
      obtain ⟨front, rest, hText, hLength⟩ := templateChunk_split hChunk
      obtain ⟨-, rfl⟩ := List.append_inj hText (by omega)
      cases e <;> exact ⟨rest, rfl⟩
  | lineComment =>
      obtain ⟨c, rest, rfl⟩ := List.exists_cons_of_ne_nil (hMore rfl)
      obtain rfl : c = '\n' := h.2 c rfl
      exact ⟨rest, rfl⟩
  | blockComment =>
      obtain ⟨front, rest, hText, hLength⟩ := blockBody_split h
      obtain ⟨-, rfl⟩ := List.append_inj hText (by omega)
      exact ⟨rest, rfl⟩
  | regex =>
      obtain ⟨front, rest, hText, hLength⟩ := regexBody_split h
      obtain ⟨-, rfl⟩ := List.append_inj hText (by omega)
      exact ⟨rest.dropWhile isWordPart, congrArg ('/' :: ·) List.takeWhile_append_dropWhile.symm⟩

/-- The scanner reads this text, in one or more pieces, and comes to no target in it. -/
def Scanner.Skips (s : Scanner) (text : List Char) (t : Scanner) : Prop :=
  s.Passes text t ∧ ∃ texts : List (List Char), texts.flatten = text ∧ s.Scans (texts.map .verbatim) t

theorem Scanner.Skips.trans {s t u : Scanner} {first second : List Char} (left : s.Skips first t)
    (right : t.Skips second u) : s.Skips (first ++ second) u := by
  obtain ⟨hPasses, texts, rfl, hScans⟩ := left
  obtain ⟨hPasses', texts', rfl, hScans'⟩ := right
  refine ⟨hPasses.trans hPasses', texts ++ texts', List.flatten_append, ?_⟩
  rw [List.map_append]
  exact hScans.trans hScans'

theorem Scanner.skips_of_step {s t : Scanner} {text rest : List Char} (hSome : s.ahead ≠ [])
    (hAhead : s.ahead = text ++ rest) (move : s.MovesBy text.length t)
    (hStep : ∀ c tail, s.ahead = c :: tail → s.step c tail = .ok (s.readTo t, t)) :
    s.Skips text t := by
  have hPasses := move.passes hAhead
  obtain ⟨c, tail, hHere⟩ := List.exists_cons_of_ne_nil hSome
  refine ⟨hPasses, [text], by simp, .single hHere ?_⟩
  rw [hStep c tail hHere, hPasses.readTo]

theorem takeWhile_line (h : mode = .lineComment) (hHolds : mode.Holds text after) :
    (text ++ after).takeWhile (· ≠ '\n') = text := by
  subst h
  rw [takeWhile_append_of_head (fun c hc => by simp [hHolds.2 c hc])]
  exact List.takeWhile_eq_self_iff.mpr fun c hc => by
    simpa using fun hEnd : c = '\n' => hHolds.1 (hEnd ▸ hc)

/-- The line end behind a line comment is read as a blank of code. -/
theorem Scanner.skips_line {s : Scanner} {rest : List Char} (hMode : s.mode = .lineComment)
    (h : s.mode.Holds text ('\n' :: rest)) (hAhead : s.ahead = text ++ '\n' :: rest) :
    s.Skips (text ++ ['\n']) ((s.pastComment text.length).advance 1) := by
  have hLine : s.ahead.takeWhile (· ≠ '\n') = text := hAhead ▸ takeWhile_line hMode h
  have hThere : (s.pastComment text.length).ahead = ['\n'] ++ rest := by
    show s.ahead.drop text.length = _
    rw [hAhead, List.drop_left]
    rfl
  have hFirst : s.Skips text (s.pastComment text.length) :=
    Scanner.skips_of_step (by simp [hAhead]) hAhead ⟨rfl, rfl, rfl⟩
      fun c tail _ => Scanner.step_eq_ok_iff.mpr (.lineComment hMode (by rw [hLine]))
  refine hFirst.trans
    (Scanner.skips_of_step (by simp [hThere]) hThere ⟨rfl, rfl, rfl⟩ fun c tail hHere => ?_)
  obtain ⟨rfl, -⟩ := List.cons.inj (hHere.symm.trans hThere)
  simp [Scanner.step, Scanner.code, Scanner.pastComment, isQuote, isWordStart, isBlank]

/-- A scanner in front of a text that it holds skips the text and what closes it, and then goes on in a
way that does not depend on the text. -/
theorem Mode.Holds.closes {s : Scanner} (h : s.mode.Holds text after)
    (hMore : s.mode = .lineComment → after ≠ []) (hAhead : s.ahead = text ++ after) :
    ∃ z, s.Skips (text ++ s.mode.closer after) z ∧ (s.closed (s.mode.closer after)).Twins z := by
  obtain ⟨rest, hRest⟩ := h.split hMore
  have hSplit : s.ahead = (text ++ s.mode.closer after) ++ rest := by
    rw [hAhead, List.append_assoc, ← hRest]
  -- But for a line comment, the inside of a construct is read in one step with what closes it.
  have hOne {n : Nat} {z : Scanner} (hSome : s.mode.closer after ≠ [])
      (hLength : (s.mode.closer after).length = n) (move : s.MovesBy (text.length + n) z)
      (hStep : ∀ c tail, s.Step c tail (s.readTo z) z) : s.Skips (text ++ s.mode.closer after) z := by
    refine Scanner.skips_of_step (by simp [hSplit, hSome]) hSplit ?_
      fun c tail _ => Scanner.step_eq_ok_iff.mpr (hStep c tail)
    rw [List.length_append, hLength]
    exact move
  cases hMode : s.mode with
  | code => exact (hMode ▸ h : Mode.code.Holds text after).elim
  | target => exact (hMode ▸ h : Mode.target.Holds text after).elim
  | quoted quote =>
      rw [hMode] at h hOne
      have hBody : stringBody quote s.ahead = some text := hAhead ▸ h
      refine ⟨s.pastLiteral (text.length + 1), ?_, ?_⟩
      · exact hOne (List.cons_ne_nil _ _) rfl ⟨rfl, rfl, rfl⟩ fun _ _ => .quoted hMode hBody
      · simp only [Scanner.closed, hMode]
        rfl
  | template =>
      rw [hMode] at h hOne
      obtain ⟨e, hChunk⟩ := h
      have hBody : templateChunk s.ahead = some (text.length + e.text.length, e) := hAhead ▸ hChunk
      obtain ⟨front, tail, hText, hFront⟩ := templateChunk_split hChunk
      obtain ⟨-, rfl⟩ := List.append_inj hText (by omega)
      cases e with
      | closed =>
          refine ⟨s.pastLiteral (text.length + 1), ?_, ?_⟩
          · exact hOne (List.cons_ne_nil _ _) rfl ⟨rfl, rfl, rfl⟩ fun _ _ => .template hMode hBody
          · simp only [Scanner.closed, hMode]
            rfl
      | substitution =>
          refine ⟨s.pastChunk (text.length + 2), ?_, ?_⟩
          · exact hOne (List.cons_ne_nil _ _) rfl ⟨rfl, rfl, rfl⟩ fun _ _ => .substitution hMode hBody
          · simp only [Scanner.closed, hMode]
            rfl
  | regex =>
      rw [hMode] at h hOne
      have hBody : regexBody false s.ahead = some (text.length + 1) := hAhead ▸ h
      obtain ⟨front, tail, hText, hFront⟩ := regexBody_split h
      obtain ⟨-, rfl⟩ := List.append_inj hText (by omega)
      have hFlags : (s.ahead.drop (text.length + 1)).takeWhile isWordPart =
          tail.takeWhile isWordPart := by
        rw [hAhead, ← List.drop_drop, List.drop_left]
        rfl
      refine ⟨s.pastLiteral (text.length + 1 + (tail.takeWhile isWordPart).length), ?_, ?_⟩
      · refine hOne (List.cons_ne_nil _ _) (Nat.add_comm _ 1) ?_
          fun _ _ => .regex hMode hBody (by rw [hFlags])
        rw [← Nat.add_assoc]
        exact ⟨rfl, rfl, rfl⟩
      · simp only [Scanner.closed, hMode]
        rfl
  | blockComment =>
      rw [hMode] at h hOne
      have hBody : blockBody s.ahead = some (text.length + 2) := hAhead ▸ h
      refine ⟨s.pastComment (text.length + 2), ?_, ?_⟩
      · exact hOne (List.cons_ne_nil _ _) rfl ⟨rfl, rfl, rfl⟩ fun _ _ => .blockComment hMode hBody
      · simp only [Scanner.closed, hMode]
        rfl
  | lineComment =>
      have hBreak : after = '\n' :: rest := by rw [hRest, hMode]; rfl
      subst hBreak
      refine ⟨_, Scanner.skips_line hMode h hAhead, ?_⟩
      simp only [Scanner.closed, hMode]
      rfl

/-- A line comment may also end with the source, where nothing closes it. -/
theorem Mode.Holds.ends {s : Scanner} (h : s.mode.Holds text []) (hMode : s.mode = .lineComment)
    (hAhead : s.ahead = text) : ∃ z, s.Skips text z ∧ z.ahead = [] ∧ z.pending = s.pending := by
  by_cases hEmpty : text = []
  · subst hEmpty
    exact ⟨s, ⟨⟨rfl, rfl, rfl⟩, [], rfl, .refl s⟩, hAhead, rfl⟩
  · have hLine : s.ahead.takeWhile (· ≠ '\n') = text := by
      have hAll := takeWhile_line hMode h
      rw [List.append_nil] at hAll
      rw [hAhead, hAll]
    refine ⟨s.pastComment text.length, ?_, ?_, ?_⟩
    · exact Scanner.skips_of_step (by rwa [hAhead])
        (show s.ahead = text ++ [] by rw [hAhead, List.append_nil]) ⟨rfl, rfl, rfl⟩
        fun c tail _ => Scanner.step_eq_ok_iff.mpr (.lineComment hMode (by rw [hLine]))
    · show s.ahead.drop text.length = []
      rw [hAhead, List.drop_length]
    · simp only [Scanner.pending, hMode]
      rfl

end Closing

theorem Scanner.Twins.closed {s t : Scanner} (h : s.Twins t) (closer : List Char) :
    (s.closed closer).Twins (t.closed closer) := by
  obtain ⟨here, rfl⟩ := h.place
  unfold Scanner.closed
  rw [show (s.standing here).mode = s.mode from rfl]
  cases s.mode <;> try rfl
  by_cases hTick : closer = ['\x60']
  · simp only [hTick, if_true]
    rfl
  · simp only [hTick, if_false]
    rfl

/-- What closes a construct hides the dots in front of it. -/
theorem dots_closer {mode : Mode} {text after : List Char} (h : mode.Holds text after)
    (hQuote : ∀ quote, mode = .quoted quote → isQuote quote = true) (x y : List Char) :
    Scanner.dots ((mode.closer after).reverse ++ x) = Scanner.dots ((mode.closer after).reverse ++ y) := by
  have hOther : ∃ c ∈ mode.closer after, c ≠ '.' := by
    cases mode with
    | code => exact h.elim
    | target => exact h.elim
    | quoted quote =>
        refine ⟨quote, by simp [Mode.closer], ?_⟩
        rintro rfl
        exact absurd (hQuote _ rfl) (by decide)
    | template =>
        by_cases hTick : after.head? = some '\x60'
        · exact ⟨'\x60', by simp [Mode.closer, hTick], by decide⟩
        · exact ⟨'$', by simp [Mode.closer, hTick], by decide⟩
    | regex => exact ⟨'/', by simp [Mode.closer], by decide⟩
    | blockComment => exact ⟨'*', by simp [Mode.closer], by decide⟩
    | lineComment => exact ⟨'\n', by simp [Mode.closer], by decide⟩
  obtain ⟨c, hMem, hDot⟩ := hOther
  unfold Scanner.dots
  rw [List.takeWhile_append, List.takeWhile_append]
  split
  · rename_i hAll
    have hEvery := List.takeWhile_eq_self_iff.mp ((List.takeWhile_prefix _).eq_of_length hAll)
    exact absurd (of_decide_eq_true (hEvery c (List.mem_reverse.mpr hMem))) hDot
  · rfl

/-- A regular expression does not start like a comment. -/
theorem regex_head {text after : List Char} (h : Mode.regex.Holds text after) (hSome : text ≠ [])
    (hStar : text.head? ≠ some '*') :
    (text ++ after).head? ≠ some '/' ∧ (text ++ after).head? ≠ some '*' := by
  obtain ⟨c, text, rfl⟩ := List.exists_cons_of_ne_nil hSome
  refine ⟨?_, hStar⟩
  rintro hSlash
  obtain rfl : c = '/' := Option.some.inj hSlash
  simp [Mode.Holds, regexBody, isLineEnd] at h

/-- The scan of an accepted source never comes to a construct without holding some text in it. -/
theorem holds_of_accepted {source : List Char} {pieces : List Piece} {s : Scanner}
    (hScan : (Scanner.initial source).Scans pieces s)
    (hAccepted : failure? (String.ofList source) = none) (hCode : s.mode ≠ .code)
    (hTarget : s.mode ≠ .target) :
    ∃ text after, s.ahead = text ++ after ∧ s.mode.Holds text after := by
  by_cases hComment : s.mode = .lineComment
  · refine ⟨s.ahead.takeWhile (· ≠ '\n'), s.ahead.dropWhile (· ≠ '\n'),
      List.takeWhile_append_dropWhile.symm, ?_⟩
    rw [hComment]
    refine ⟨fun hEnd => ?_, fun c hc => ?_⟩
    · simpa using List.mem_takeWhile_imp hEnd
    · have hStop := List.head?_dropWhile_not (· ≠ '\n') s.ahead
      rw [hc] at hStop
      simpa using hStop
  obtain ⟨back, z, hBack, hEnd, hClosed⟩ := scans_of_accepted hScan hAccepted
  cases hBack with
  | refl =>
      unfold Scanner.pending at hClosed
      cases hMode : s.mode <;> simp_all
  | @step _ next _ c rest piece _ hAhead hStep later =>
      cases hMode : s.mode with
      | code => exact absurd hMode hCode
      | target => exact absurd hMode hTarget
      | lineComment => exact absurd hMode hComment
      | quoted quote =>
          simp only [Scanner.step, hMode] at hStep
          split at hStep
          · rename_i body hBody
            obtain ⟨-, tail, hTail⟩ := inside_of_stringBody hBody
            rw [hTail] at hBody
            exact ⟨body, quote :: tail, hTail, hBody⟩
          · cases hStep
      | template =>
          have hChunk : ∃ n e, templateChunk s.ahead = some (n, e) := by
            cases hRead : templateChunk s.ahead with
            | none =>
                simp only [Scanner.step, hMode, hRead] at hStep
                cases hStep
            | some found => exact ⟨found.1, found.2, rfl⟩
          obtain ⟨n, e, hRead⟩ := hChunk
          obtain ⟨front, tail, hTail, rfl⟩ := templateChunk_split hRead
          exact ⟨front, e.text ++ tail, hTail, e, hTail ▸ hRead⟩
      | blockComment =>
          simp only [Scanner.step, hMode] at hStep
          split at hStep
          · rename_i n hBody
            obtain ⟨front, tail, hTail, rfl⟩ := blockBody_split hBody
            rw [hTail] at hBody
            exact ⟨front, '*' :: '/' :: tail, hTail, hBody⟩
          · cases hStep
      | regex =>
          simp only [Scanner.step, hMode] at hStep
          split at hStep
          · rename_i n hBody
            obtain ⟨front, tail, hTail, rfl⟩ := regexBody_split hBody
            rw [hTail] at hBody
            exact ⟨front, '/' :: tail, hTail, hBody⟩
          · cases hStep

end ModuleGateway.Relink
