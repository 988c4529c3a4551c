import ModuleGateway.Proofs.Relink.ByteTokens

/-!
No fault on the bytes. The relinker of bytes goes through the states of the relinker of characters, one step
for one step, and each of them stands between two characters. So every index lies inside the source, every
cut lies between characters, every step moves on, and it ends with what the relinker of characters ends with.
-/

namespace ModuleGateway.Relink

open Text Bytewise

namespace Scanner

/-- The scanner stands in the source, and a string literal opened right in front of it. -/
structure Fits (source : List Char) (t : Scanner) : Prop where
  within : t.Within source
  placed : t.Placed source
  quoted : ∀ quote, t.mode = .quoted quote → isQuote quote = true ∧
    ∃ front, t.behind = quote :: front ∧ t.opened = utf8Length front.reverse

variable {source rest : List Char} {t next : Scanner} {c : Char} {piece : Piece}

theorem fits_initial (source : List Char) : (Scanner.initial source).Fits source where
  within := within_initial source
  placed := ⟨rfl, rfl⟩
  quoted := fun _ hMode => by cases hMode

theorem Fits.step (h : t.Fits source) (hAhead : t.ahead = c :: rest)
    (hStep : t.step c rest = .ok (piece, next)) : next.Fits source := by
  obtain ⟨hPasses, hQuote, -⟩ := step_passes hAhead h.within.atQuote hStep
  have hWithin := within_of_passes h.within hPasses hQuote
  refine ⟨hWithin, ⟨hWithin.text, ?_⟩, fun quote hMode => ?_⟩
  · rw [step_offset hAhead h.within.atQuote hStep, h.placed.offset, hPasses.behind, List.reverse_append,
      List.reverse_reverse, utf8Length_append]
  · by_cases hCode : t.mode = .code
    · cases turn_of_step hCode hAhead hStep with
      | continues hOn => rcases hOn.mode with hSame | hSame <;> simp [hSame, hCode] at hMode
      | opens hOpens hOpener =>
          cases hOpens with
          | quoted hIs =>
              cases hMode
              obtain ⟨rfl, -⟩ := List.cons.inj (hAhead.symm.trans hOpener)
              exact ⟨hIs, t.behind, by simp [openWith, advance, hAhead], h.placed.offset⟩
          | template | resumed | lineComment | blockComment | regex => cases hMode
      | openParen | closeParen => simp [closeParen, token, advance, hCode] at hMode
    · rw [(step_eq_ok_iff.mp hStep).mode hCode] at hMode
      cases hMode

end Scanner

/-- A literal that opens at a place ends behind its inside. -/
theorem closing_eq {source front text : List Char} {quote : Char} (hQuote : isQuote quote = true)
    (hText : source = front ++ quote :: text) :
    closing source (utf8Length front) =
      match stringBody quote text with
      | some body => .ok (utf8Length (front ++ quote :: body))
      | none => .error (.unterminated ⟨.string, utf8Length front⟩) := by
  have hAscii := ascii_of_isQuote hQuote
  have hBehind : source = (front ++ [quote]) ++ text := by simp [hText]
  have hInside := closingQuote?_eq hQuote hBehind
  rw [utf8Length_concat hAscii] at hInside
  rw [closing, byteAt_of_getElem? (getElem?_lead hText), lead_of_ascii hAscii]
  simp only [bind, Except.bind, hInside]
  cases stringBody quote text with
  | none => rfl
  | some body => simp

namespace Relinker

/-- The relinker of bytes in the state of a relinker of characters. -/
def writer (source : List Char) (r : Relinker) : Writer where
  cursor := r.scanner.cursor
  out := r.written
  copied := utf8Length (source.take r.copied)

/-- What the relinker of bytes makes of a piece that was read. -/
def turned (source : List Char) (r : Relinker) : Piece × Scanner → Turned
  | (.verbatim _, next) => .moved ({ r with scanner := next }.writer source)
  | (.target quote raw, next) =>
    if raw.contains '\\' then .moved ({ r with scanner := next }.writer source)
    else .asks (String.ofList raw) fun answer =>
      .ok ({ r.settle source quote raw answer with scanner := next }.writer source)

/-- The next step of the relinker of bytes is that of the relinker of characters. -/
def Agrees (source : List Char) (r : Relinker) (c : Char) (rest : List Char) : Prop :=
  Bytewise.step source (r.writer source) =
    match r.scanner.step c rest with
    | .error e => .error (.unterminated e)
    | .ok result => .ok (r.turned source result)

variable {source rest : List Char} {r : Relinker} {c : Char}

/-- What the relinker of bytes does when the scanner stands in a mode. -/
theorem writer_phase (r : Relinker) : (r.writer source).cursor.phase = r.scanner.mode.phase :=
  rfl

theorem agrees_code (h : r.scanner.Fits source) (hAhead : r.scanner.ahead = c :: rest)
    (hMode : r.scanner.mode = .code) : r.Agrees source c rest := by
  unfold Agrees Bytewise.step Scanner.step
  simp only [writer_phase, hMode, Mode.phase]
  rw [show (r.writer source).cursor = r.scanner.cursor from rfl, h.placed.code hAhead]
  rfl

theorem agrees_quoted {quote : Char} (h : r.scanner.Fits source) (hMode : r.scanner.mode = .quoted quote) :
    r.Agrees source c rest := by
  obtain ⟨hQuote, front, hBehind, hOpened⟩ := h.quoted quote hMode
  have hText : source = front.reverse ++ quote :: r.scanner.ahead := by
    rw [h.placed.text, hBehind, List.reverse_cons, List.append_assoc]
    rfl
  have hClosing := closing_eq hQuote hText
  rw [← hOpened] at hClosing
  unfold Agrees Bytewise.step Scanner.step
  simp only [writer_phase, hMode, Mode.phase,
    show (r.writer source).cursor.start = r.scanner.opened from rfl, hClosing]
  cases hBody : stringBody quote r.scanner.ahead with
  | none => rfl
  | some body =>
      obtain ⟨-, tail, hTail⟩ := inside_of_stringBody hBody
      have hEnd : (r.scanner.advance (body.length + 1)).offset =
          utf8Length (front.reverse ++ quote :: body) + 1 := by
        rw [h.placed.offset_advance, hTail, hBehind,
          ← utf8Length_concat (c := quote) (ascii_of_isQuote hQuote)]
        simp [List.take_append, List.take_of_length_le]
      simp only [Except.bind, ← hEnd]
      rfl

theorem agrees_template (h : r.scanner.Fits source) (hMode : r.scanner.mode = .template) :
    r.Agrees source c rest := by
  have hChunk := chunkEnd?_eq h.placed.text
  rw [← h.placed.offset] at hChunk
  unfold Agrees Bytewise.step Scanner.step
  simp only [writer_phase, hMode, Mode.phase,
    show (r.writer source).cursor.pos = r.scanner.offset from rfl, hChunk]
  cases templateChunk r.scanner.ahead with
  | none => rfl
  | some found =>
      obtain ⟨n, chunkEnd⟩ := found
      simp only [Option.map_some, ← h.placed.offset_advance]
      cases chunkEnd <;> rfl

theorem agrees_lineComment (h : r.scanner.Fits source) (hMode : r.scanner.mode = .lineComment) :
    r.Agrees source c rest := by
  have hLine : skip (· ≠ ascii '\n') source r.scanner.offset =
      (r.scanner.advance (r.scanner.ahead.takeWhile (· ≠ '\n')).length).offset := by
    rw [h.placed.offset_takeWhile, h.placed.offset, skip_line h.placed.text]
  unfold Agrees Bytewise.step Scanner.step
  simp only [writer_phase, hMode, Mode.phase,
    show (r.writer source).cursor.pos = r.scanner.offset from rfl, hLine]
  rfl

theorem agrees_blockComment (h : r.scanner.Fits source) (hMode : r.scanner.mode = .blockComment) :
    r.Agrees source c rest := by
  have hBack : slice source r.scanner.offset (bytes source).length = .ok r.scanner.ahead := by
    rw [length_bytes, h.placed.offset]
    conv_lhs => arg 3; rw [h.placed.text]
    exact slice_of_append [] (by rw [List.append_nil]; exact h.placed.text)
  unfold Agrees Bytewise.step Scanner.step
  simp only [writer_phase, hMode, Mode.phase,
    show (r.writer source).cursor.pos = r.scanner.offset from rfl, hBack, Except.bind]
  have hFound := find?_eq r.scanner.ahead
  cases hFind : find? ['*', '/'] r.scanner.ahead with
  | none =>
      rw [hFind] at hFound
      rw [Option.map_eq_none_iff.mp hFound.symm]
      rfl
  | some k =>
      rw [hFind] at hFound
      obtain ⟨n, hBody, hLength⟩ := Option.map_eq_some_iff.mp hFound.symm
      have hEnd : r.scanner.offset + k + 2 = (r.scanner.advance n).offset :=
        (Nat.add_assoc _ k 2).trans (congrArg (r.scanner.offset + ·) hLength.symm)
      rw [hBody]
      simp only [hEnd]
      rfl

theorem agrees_regex (h : r.scanner.Fits source) (hMode : r.scanner.mode = .regex) :
    r.Agrees source c rest := by
  have hSlash := closingSlash?_eq false h.placed.text
  rw [← h.placed.offset] at hSlash
  unfold Agrees Bytewise.step Scanner.step
  simp only [writer_phase, hMode, Mode.phase,
    show (r.writer source).cursor.pos = r.scanner.offset from rfl, hSlash]
  cases regexBody false r.scanner.ahead with
  | none => rfl
  | some n =>
      have hAfter := h.placed.advance n
      have hFlags : skip isWordPartByte source (r.scanner.advance n).offset =
          (r.scanner.advance (n + ((r.scanner.ahead.drop n).takeWhile isWordPart).length)).offset := by
        rw [← Scanner.advance_advance, show r.scanner.ahead.drop n = (r.scanner.advance n).ahead from rfl,
          hAfter.offset_takeWhile, hAfter.offset, skip_word hAfter.text]
      simp only [Option.map_some, ← h.placed.offset_advance, hFlags]
      rfl

/-- The stretch between two numbers of characters, cut out by the bytes in front of them. -/
theorem slice_take {m n : Nat} (hOrder : m ≤ n) :
    slice source (utf8Length (source.take m)) (utf8Length (source.take n)) =
      .ok ((source.take n).drop m) := by
  have hFront : source.take m ++ (source.take n).drop m = source.take n := by
    have hBoth := List.take_append_drop m (source.take n)
    rwa [List.take_take, Nat.min_eq_left hOrder] at hBoth
  have hText : source = source.take m ++ (source.take n).drop m ++ source.drop n := by
    rw [hFront, List.take_append_drop]
  have hSlice := slice_of_append _ hText
  rwa [hFront] at hSlice

/-- The answer for a target is written alike: the stretch in front of it is cut out between characters. -/
theorem settle_writer {body tail : List Char} (next : Scanner) (h : r.scanner.Fits source)
    (hCopied : r.copied ≤ r.scanner.count) (hQuote : isQuote c = true)
    (hAhead : r.scanner.ahead = c :: (body ++ tail)) (answer : Option String) :
    Bytewise.settle source (r.writer source) r.scanner.offset
        (utf8Length (r.scanner.behind.reverse ++ c :: body)) body next.cursor answer =
      .ok ({ r.settle source c body answer with scanner := next }.writer source) := by
  have hAscii := ascii_of_isQuote hQuote
  have hText : source = r.scanner.behind.reverse ++ c :: (body ++ tail) := by rw [h.placed.text, hAhead]
  have hCount : r.scanner.count = r.scanner.behind.reverse.length := by
    rw [h.within.count, List.length_reverse]
  have hOpened : source.take (r.scanner.count + 1) = r.scanner.behind.reverse ++ [c] := by
    rw [hText, hCount, List.take_length_add_append]
    rfl
  have hClosed : source.take (r.scanner.count + 1 + body.length) = r.scanner.behind.reverse ++ c :: body := by
    rw [hText, hCount, Nat.add_assoc, List.take_length_add_append, Nat.add_comm 1, List.take_succ_cons,
      List.take_left]
  cases answer with
  | none => rfl
  | some replacement =>
      unfold Bytewise.settle Relinker.settle
      dsimp only
      by_cases hSame : replacement.toList = body
      · rw [if_pos hSame, if_pos hSame]
        rfl
      · have hByte := h.placed.byteAt hAhead
        have hFront : slice source (utf8Length (source.take r.copied)) (r.scanner.offset + 1) =
            .ok ((source.take (r.scanner.count + 1)).drop r.copied) := by
          rw [h.placed.offset, ← utf8Length_concat hAscii, ← hOpened]
          exact slice_take (Nat.le_succ_of_le hCopied)
        rw [if_neg hSame, if_neg hSame, hByte, lead_of_ascii hAscii]
        simp only [bind, Except.bind, hFront, toNat_ascii hAscii, Char.ofNat_toNat, writer, hClosed]

theorem agrees_target (h : r.scanner.Fits source) (hCopied : r.copied ≤ r.scanner.count)
    (hAhead : r.scanner.ahead = c :: rest) (hMode : r.scanner.mode = .target) : r.Agrees source c rest := by
  obtain ⟨quote, tail, hHead, hQuote⟩ := h.within.atQuote hMode
  obtain ⟨rfl, rfl⟩ := List.cons.inj (hAhead.symm.trans hHead)
  have hText : source = r.scanner.behind.reverse ++ c :: rest := by rw [h.placed.text, hAhead]
  have hClosing := closing_eq hQuote hText
  rw [← h.placed.offset] at hClosing
  unfold Agrees Bytewise.step Scanner.step
  simp only [writer_phase, hMode, Mode.phase, Bytewise.target,
    show (r.writer source).cursor.pos = r.scanner.offset from rfl, hClosing]
  cases hBody : stringBody c rest with
  | none => rfl
  | some body =>
      obtain ⟨-, tail, rfl⟩ := inside_of_stringBody hBody
      have hRaw : slice source (r.scanner.offset + 1) (utf8Length (r.scanner.behind.reverse ++ c :: body)) =
          .ok body := by
        have hInside : source = (r.scanner.behind.reverse ++ [c]) ++ body ++ c :: tail := by simp [hText]
        have hSlice := slice_of_append _ hInside
        rw [utf8Length_concat (ascii_of_isQuote hQuote), ← h.placed.offset, List.append_assoc] at hSlice
        exact hSlice
      have hEnd : utf8Length (r.scanner.behind.reverse ++ c :: body) + 1 =
          (r.scanner.advance (body.length + 2)).offset := by
        rw [h.placed.offset_advance, hAhead, ← utf8Length_concat (c := c) (ascii_of_isQuote hQuote)]
        simp [List.take_append, List.take_of_length_le]
      have hSettle := settle_writer { r.scanner.token (body.length + 2) .operand with
        mode := .code, opened := r.scanner.offset, awaitingFrom := false } h hCopied hQuote hAhead
      simp only [bind, Except.bind, hRaw, hEnd, turned]
      split
      · rfl
      · refine congrArg (fun answered => Except.ok (Turned.asks (String.ofList body) answered)) ?_
        exact funext hSettle

theorem agrees (h : r.scanner.Fits source) (hCopied : r.copied ≤ r.scanner.count)
    (hAhead : r.scanner.ahead = c :: rest) : r.Agrees source c rest := by
  cases hMode : r.scanner.mode with
  | code => exact agrees_code h hAhead hMode
  | quoted quote => exact agrees_quoted h hMode
  | template => exact agrees_template h hMode
  | lineComment => exact agrees_lineComment h hMode
  | blockComment => exact agrees_blockComment h hMode
  | regex => exact agrees_regex h hMode
  | target => exact agrees_target h hCopied hAhead hMode

/-! ### Runs -/

/-- What has been written stands for text in front of the scanner. -/
theorem copied_settle (source : List Char) (c : Char) (raw : List Char)
    (hCopied : r.copied ≤ r.scanner.count) (answer : Option String) :
    (r.settle source c raw answer).copied ≤ r.scanner.count + (raw.length + 2) := by
  unfold settle
  split
  · omega
  split
  · omega
  · dsimp only
    omega

theorem finish_writer (h : r.scanner.Fits source) (hCopied : r.copied ≤ r.scanner.count)
    (hEnd : r.scanner.ahead = []) :
    Bytewise.finish source (r.writer source) = (r.finish source).mapError .unterminated := by
  have hPending : Bytewise.pending (r.writer source).cursor = r.scanner.pending := by
    unfold Bytewise.pending Scanner.pending
    rw [writer_phase]
    cases r.scanner.mode <;> rfl
  have hLength : r.copied ≤ source.length := by
    rw [h.within.text, hEnd, List.append_nil, List.length_reverse, ← h.within.count]
    exact hCopied
  have hBack : slice source (utf8Length (source.take r.copied)) (bytes source).length =
      .ok (source.drop r.copied) := by
    have hSlice : slice source _ _ = _ := slice_take hLength
    rwa [List.take_length, ← length_bytes source] at hSlice
  unfold Bytewise.finish Relinker.finish
  rw [hPending]
  cases r.scanner.pending with
  | some e => rfl
  | none =>
      simp only [writer, hBack]
      rfl

theorem inside_iff (h : r.scanner.Fits source) :
    (r.writer source).cursor.pos < (bytes source).length ↔ r.scanner.ahead ≠ [] := by
  show r.scanner.offset < _ ↔ _
  rw [length_bytes, h.placed.offset]
  conv_lhs => arg 2; rw [h.placed.text, utf8Length_append]
  refine ⟨fun hLess hNone => ?_, fun hSome => Nat.lt_add_of_pos_right (utf8Length_pos hSome)⟩
  rw [hNone] at hLess
  exact Nat.lt_irrefl _ hLess

/-- With as many steps as it takes, the relinker of bytes ends with what the relinker of characters ends
with. -/
theorem runFor_writer {m : Type → Type} [Monad m] [LawfulMonad m] (map : String → m (Option String))
    {limit fuel : Nat} (h : r.scanner.Fits source) (hCopied : r.copied ≤ r.scanner.count)
    (hLimit : r.scanner.stepsLeft < limit) (hFuel : r.scanner.stepsLeft < fuel) :
    Bytewise.runFor map source limit (r.writer source) =
      Except.mapError Stop.unterminated <$> r.runFor map source fuel := by
  induction limit generalizing r fuel with
  | zero => exact absurd hLimit (Nat.not_lt_zero _)
  | succ limit ih =>
      obtain ⟨fuel, rfl⟩ : ∃ n, fuel = n + 1 := ⟨fuel - 1, by omega⟩
      cases hAhead : r.scanner.ahead with
      | nil =>
          rw [Bytewise.runFor, if_neg ((inside_iff h).not.mpr (not_not_intro hAhead)), Relinker.runFor,
            hAhead, map_pure, finish_writer h hCopied hAhead]
      | cons c rest =>
          have hInside := (inside_iff h).mpr (hAhead ▸ List.cons_ne_nil c rest)
          rw [Bytewise.runFor, if_pos hInside, agrees h hCopied hAhead, Relinker.runFor, hAhead]
          cases hStep : r.scanner.step c rest with
          | error e => simp [hStep, Except.mapError]
          | ok result =>
              obtain ⟨piece, next⟩ := result
              have hNext := h.step hAhead hStep
              have hLess := Scanner.step_stepsLeft hAhead hStep
              obtain ⟨hPasses, -, -⟩ := Scanner.step_passes hAhead h.within.atQuote hStep
              have hCount : next.count = r.scanner.count + piece.text.length := hPasses.count
              simp only [hStep]
              cases piece with
              | verbatim text =>
                  exact ih (r := { r with scanner := next }) hNext (by dsimp only; omega)
                    (by dsimp only; omega) (by dsimp only; omega)
              | target quote raw =>
                  rw [length_target] at hCount
                  have hRest (answer : Option String) :=
                    @ih { r.settle source quote raw answer with scanner := next } fuel hNext
                      (by
                        have hSettled :=
                          copied_settle source quote raw hCopied answer
                        dsimp only
                        omega)
                      (by dsimp only; omega) (by dsimp only; omega)
                  by_cases hEscape : raw.contains '\\' = true
                  · simp only [turned, ask, if_pos hEscape, pure_bind]
                    exact hRest none
                  · simp only [turned, ask, if_neg hEscape, map_bind]
                    exact bind_congr hRest

end Relinker

/-! ### Steps that a run can come to -/

namespace Bytewise

variable {source : List Char} {w next : Writer}

/-- A step leads from one state to the next, with some answer if the map is asked. -/
def Leads (source : List Char) (w next : Writer) : Prop :=
  step source w = .ok (.moved next) ∨
    ∃ raw answered answer, step source w = .ok (.asks raw answered) ∧ answered answer = .ok next

/-- A state that the relinker comes to, whatever the map answers. -/
inductive Reachable (source : List Char) : Writer → Prop where
  | start : Reachable source {}
  | step {w next : Writer} (reached : Reachable source w)
      (hInside : w.cursor.pos < (bytes source).length) (hLeads : Leads source w next) :
      Reachable source next

/-- Every step from here keeps inside the source and between characters, and moves on. -/
structure Safe (source : List Char) (w : Writer) : Prop where
  boundary : IsBoundary source w.cursor.pos
  /-- Inside the source a step can only fail because something is never closed. -/
  fails : w.cursor.pos < (bytes source).length → ∀ stop, step source w = .error stop →
    ∃ e, stop = .unterminated e
  answers : w.cursor.pos < (bytes source).length → ∀ raw answered,
    step source w = .ok (.asks raw answered) → ∀ answer, ∃ next, answered answer = .ok next
  /-- The rest of an empty line comment is nothing. -/
  moves : w.cursor.pos < (bytes source).length → ∀ next, Leads source w next →
    w.cursor.pos < next.cursor.pos ∨
      (w.cursor.phase = .lineComment ∧ (bytes source)[w.cursor.pos]? = some (ascii '\n') ∧
        next.cursor.pos = w.cursor.pos ∧ next.cursor.phase = .code ∧
        ∃ after, step source next = .ok (.moved after) ∧ next.cursor.pos < after.cursor.pos)
  finishes : ¬w.cursor.pos < (bytes source).length → ∀ stop, finish source w = .error stop →
    ∃ e, stop = .unterminated e

end Bytewise

namespace Scanner

variable {source rest : List Char} {t next : Scanner} {c : Char} {piece : Piece}

/-- A step moves on, but for that of an empty line comment, which ends where it stands. -/
theorem step_moves (hAhead : t.ahead = c :: rest) (hQuote : t.AtQuote)
    (hStep : t.step c rest = .ok (piece, next)) :
    t.offset < next.offset ∨
      t.mode = .lineComment ∧ c = '\n' ∧ next.offset = t.offset ∧ next.mode = .code := by
  have hOffset := step_offset hAhead hQuote hStep
  by_cases hSome : piece.text = []
  · right
    have hLess := step_stepsLeft hAhead hStep
    have hStay : next.ahead = t.ahead := by
      rw [(step_passes hAhead hQuote hStep).1.ahead, hSome, List.nil_append]
    have hMode : t.mode = .lineComment := by
      unfold stepsLeft at hLess
      rw [hStay] at hLess
      by_contra hOther
      rw [if_neg hOther] at hLess
      omega
    have hCode := (step_eq_ok_iff.mp hStep).mode (by rw [hMode]; exact nofun)
    refine ⟨hMode, ?_, by rw [hOffset, hSome]; rfl, hCode⟩
    simp only [step, hMode] at hStep
    obtain ⟨-, rfl⟩ := Prod.mk.inj (Except.ok.inj hStep)
    by_contra hOther
    have hNext : rest.drop (rest.takeWhile (· ≠ '\n')).length = c :: rest := by
      rw [← hAhead, ← hStay]
      simp [advance, hAhead, hOther]
    have hLength := congrArg List.length hNext
    rw [List.length_drop, List.length_cons] at hLength
    omega
  · left
    have hPos := utf8Length_pos hSome
    omega

end Scanner

namespace Relinker

variable {source rest : List Char} {r : Relinker} {c : Char} {w next : Writer}

/-- Where a step of the relinker of bytes leads, one of the relinker of characters leads. -/
theorem writer_of_leads (h : r.scanner.Fits source) (hCopied : r.copied ≤ r.scanner.count)
    (hAhead : r.scanner.ahead = c :: rest) (hLeads : Leads source (r.writer source) next) :
    ∃ piece, ∃ r' : Relinker, r.scanner.step c rest = .ok (piece, r'.scanner) ∧
      next = r'.writer source ∧ r'.scanner.Fits source ∧ r'.copied ≤ r'.scanner.count := by
  unfold Leads at hLeads
  rw [agrees h hCopied hAhead] at hLeads
  cases hStep : r.scanner.step c rest with
  | error e =>
      simp only [hStep] at hLeads
      rcases hLeads with hMoved | ⟨_, _, _, hAsks, -⟩
      · cases hMoved
      · cases hAsks
  | ok result =>
      obtain ⟨piece, t⟩ := result
      have hNext := h.step hAhead hStep
      have hCount : t.count = r.scanner.count + piece.text.length :=
        (Scanner.step_passes hAhead h.within.atQuote hStep).1.count
      simp only [hStep, Except.ok.injEq] at hLeads
      have hStays : r.copied ≤ t.count := by omega
      cases piece with
      | verbatim text =>
          rcases hLeads with hMoved | ⟨_, _, _, hAsks, -⟩
          · cases hMoved
            exact ⟨_, { r with scanner := t }, rfl, rfl, hNext, hStays⟩
          · cases hAsks
      | target quote raw =>
          rw [length_target] at hCount
          unfold turned at hLeads
          by_cases hEscape : raw.contains '\\' = true
          · simp only [if_pos hEscape] at hLeads
            rcases hLeads with hMoved | ⟨_, _, _, hAsks, -⟩
            · cases hMoved
              exact ⟨_, { r with scanner := t }, rfl, rfl, hNext, hStays⟩
            · cases hAsks
          · simp only [if_neg hEscape] at hLeads
            rcases hLeads with hMoved | ⟨_, _, answer, hAsks, hAnswered⟩
            · cases hMoved
            · cases hAsks
              cases hAnswered
              refine ⟨_, { r.settle source quote raw answer with scanner := t }, rfl, rfl, hNext, ?_⟩
              have hSettled := copied_settle source quote raw hCopied answer
              show (r.settle source quote raw answer).copied ≤ t.count
              omega

/-- A step of code moves on, and asks for nothing. -/
theorem step_code (h : r.scanner.Fits source) (hAhead : r.scanner.ahead = c :: rest)
    (hMode : r.scanner.mode = .code) :
    ∃ after, Bytewise.step source (r.writer source) = .ok (.moved after) ∧
      (r.writer source).cursor.pos < after.cursor.pos := by
  have hStep : r.scanner.step c rest =
      .ok (r.scanner.readTo (r.scanner.code c rest), r.scanner.code c rest) := by
    simp only [Scanner.step, hMode]
  have hAgrees : Bytewise.step source (r.writer source) = _ := agrees_code h hAhead hMode
  rw [hStep] at hAgrees
  refine ⟨_, hAgrees, ?_⟩
  rcases Scanner.step_moves hAhead h.within.atQuote hStep with hMoves | ⟨hComment, -⟩
  · exact hMoves
  · rw [hMode] at hComment
    cases hComment

/-- The relinker of bytes is safe in every state of the relinker of characters. -/
theorem safe_writer (h : r.scanner.Fits source) (hCopied : r.copied ≤ r.scanner.count) :
    Safe source (r.writer source) where
  boundary := ⟨_, _, h.placed.text, h.placed.offset.symm⟩
  fails hInside stop hStop := by
    obtain ⟨c, rest, hAhead⟩ := List.exists_cons_of_ne_nil ((inside_iff h).mp hInside)
    rw [agrees h hCopied hAhead] at hStop
    cases hStep : r.scanner.step c rest with
    | error e =>
        simp only [hStep] at hStop
        exact ⟨e, (Except.error.inj hStop).symm⟩
    | ok result =>
        simp only [hStep] at hStop
        cases hStop
  answers hInside raw answered hAsks answer := by
    obtain ⟨c, rest, hAhead⟩ := List.exists_cons_of_ne_nil ((inside_iff h).mp hInside)
    rw [agrees h hCopied hAhead] at hAsks
    cases hStep : r.scanner.step c rest with
    | error e =>
        simp only [hStep] at hAsks
        cases hAsks
    | ok result =>
        obtain ⟨piece, t⟩ := result
        simp only [hStep, turned, Except.ok.injEq] at hAsks
        split at hAsks
        · cases hAsks
        split at hAsks
        · cases hAsks
        · cases hAsks
          exact ⟨_, rfl⟩
  moves hInside next hLeads := by
    obtain ⟨c, rest, hAhead⟩ := List.exists_cons_of_ne_nil ((inside_iff h).mp hInside)
    obtain ⟨piece, r', hStep, rfl, hNext, -⟩ := writer_of_leads h hCopied hAhead hLeads
    rcases Scanner.step_moves hAhead h.within.atQuote hStep with hMoves | ⟨hMode, rfl, hStays, hCode⟩
    · exact .inl hMoves
    · right
      have hText : source = r.scanner.behind.reverse ++ '\n' :: rest := by rw [h.placed.text, hAhead]
      have hByte : (bytes source)[r.scanner.offset]? = some (ascii '\n') := by
        rw [h.placed.offset]
        exact getElem?_lead hText
      have hSame : (r'.writer source).cursor.pos = (r.writer source).cursor.pos := hStays
      obtain ⟨d, tail, hTail⟩ := List.exists_cons_of_ne_nil ((inside_iff hNext).mp (hSame ▸ hInside))
      refine ⟨?_, hByte, hSame, ?_, step_code hNext hTail hCode⟩
      · rw [writer_phase, hMode]
        rfl
      · rw [writer_phase, hCode]
        rfl
  finishes hOutside stop hStop := by
    rw [finish_writer h hCopied (by_contra fun hSome => hOutside ((inside_iff h).mpr hSome))] at hStop
    cases hFinish : r.finish source with
    | error e =>
        rw [hFinish] at hStop
        exact ⟨e, (Except.error.inj hStop).symm⟩
    | ok output =>
        rw [hFinish] at hStop
        cases hStop

theorem fits_of_reachable (h : Reachable source w) :
    ∃ r : Relinker, w = r.writer source ∧ r.scanner.Fits source ∧ r.copied ≤ r.scanner.count := by
  induction h with
  | start => exact ⟨{ scanner := .initial source }, rfl, Scanner.fits_initial source, Nat.le_refl 0⟩
  | step reached hInside hLeads ih =>
      obtain ⟨r, rfl, hFits, hCopied⟩ := ih
      obtain ⟨c, rest, hAhead⟩ := List.exists_cons_of_ne_nil ((inside_iff hFits).mp hInside)
      obtain ⟨-, r', -, rfl, hNext, hNextCopied⟩ := writer_of_leads hFits hCopied hAhead hLeads
      exact ⟨r', rfl, hNext, hNextCopied⟩

end Relinker

/-- The relinker of bytes never looks outside of the source and never cuts a character, whatever the map
answers, and each of its steps moves on. So it ends, with what the relinker of characters ends with. -/
theorem bytewise_total (source : String) :
    (∀ w, Reachable source.toList w → Safe source.toList w) ∧
    ∀ (m : Type → Type) [Monad m] [LawfulMonad m] (map : String → m (Option String)) (limit : Nat),
      2 * (bytes source.toList).length + 1 ≤ limit →
        Bytewise.runFor map source.toList limit {} =
          Except.mapError Stop.unterminated <$> relink map source := by
  refine ⟨fun w hReached => ?_, fun m _ _ map limit hLimit => ?_⟩
  · obtain ⟨r, rfl, hFits, hCopied⟩ := Relinker.fits_of_reachable hReached
    exact Relinker.safe_writer hFits hCopied
  · have hEnough := Scanner.stepsLeft_initial source.toList
    have hBytes : (Scanner.initial source.toList).stepsLeft < limit := by
      have hLength := length_le_utf8Length source.toList
      rw [length_bytes] at hLimit
      rw [Scanner.enoughSteps] at hEnough
      omega
    exact Relinker.runFor_writer (r := { scanner := .initial source.toList }) map
      (Scanner.fits_initial source.toList) (Nat.le_refl 0) hBytes hEnough

/-- A source in which an escape leads into the middle of a character. -/
def accentedSource : String :=
  "'\\é'; import 'ü';"

theorem bytewise_total_accented :
    Safe accentedSource.toList {} ∧ 2 * (bytes accentedSource.toList).length + 1 ≤ 50 ∧
      Bytewise.runFor (m := Id) (fun raw => some ("/v/" ++ raw)) accentedSource.toList 50 {} =
        .ok "'\\é'; import '/v/ü';" := by
  have hRoom : 2 * (bytes accentedSource.toList).length + 1 ≤ 50 := by decide +kernel
  have hRelinked : Id.run (relink (fun raw => pure (some ("/v/" ++ raw))) accentedSource) =
      .ok "'\\é'; import '/v/ü';" := by decide +kernel
  refine ⟨(bytewise_total accentedSource).1 {} .start, hRoom, ?_⟩
  rw [(bytewise_total accentedSource).2 Id _ 50 hRoom]
  exact congrArg (Except.mapError Stop.unterminated) hRelinked

end ModuleGateway.Relink
