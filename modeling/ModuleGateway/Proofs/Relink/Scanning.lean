import ModuleGateway.Proofs.Relink.Splicing

/-!
Scans put together from parts. A scan is a run of steps with the pieces that they read, and a survey is
the scan that goes on to the end of the text: it always has enough steps. Relinking rewrites a source
piece by piece, and only pieces that are targets are asked about.
-/

namespace ModuleGateway.Relink

namespace Scanner

/-- The scanner comes from one state to another and reads these pieces on its way. -/
inductive Scans : Scanner → List Piece → Scanner → Prop where
  | refl (s : Scanner) : Scans s [] s
  | step {s next t : Scanner} {c : Char} {rest : List Char} {piece : Piece} {pieces : List Piece}
      (hAhead : s.ahead = c :: rest) (hStep : s.step c rest = .ok (piece, next))
      (later : Scans next pieces t) : Scans s (piece :: pieces) t

variable {s t u next : Scanner} {c : Char} {rest : List Char} {piece : Piece}
  {pieces first second : List Piece} {source : List Char}

theorem Scans.single (hAhead : s.ahead = c :: rest) (hStep : s.step c rest = .ok (piece, t)) :
    s.Scans [piece] t :=
  .step hAhead hStep (.refl t)

theorem Scans.trans (left : s.Scans first t) (right : t.Scans second u) :
    s.Scans (first ++ second) u := by
  induction left with
  | refl => exact right
  | step hAhead hStep later ih => exact .step hAhead hStep (ih right)

/-- A scan stands in the source behind the pieces that it has read. -/
theorem Scans.within (h : s.Scans pieces t) (hWithin : s.Within source) :
    t.Within source ∧ s.Passes (pieces.flatMap Piece.text) t := by
  induction h with
  | refl s => exact ⟨hWithin, rfl, rfl, rfl⟩
  | step hAhead hStep later ih =>
      obtain ⟨move, hQuote, -⟩ := step_passes hAhead hWithin.atQuote hStep
      obtain ⟨hEnd, hRest⟩ := ih (within_of_passes hWithin move hQuote)
      exact ⟨hEnd, move.trans hRest⟩

/-! ### Enough steps -/

/-- A bound on the steps that are left. An empty line comment is read without moving, but behind a line
comment comes code. -/
def stepsLeft (s : Scanner) : Nat :=
  2 * s.ahead.length + if s.mode = .lineComment then 1 else 0

/-- Outside of a line comment every step reads something. -/
theorem stepsLeft_drop {n : Nat} (hAhead : s.ahead = c :: rest) (hPos : 0 < n)
    (hDrop : t.ahead = s.ahead.drop n) : t.stepsLeft < s.stepsLeft := by
  have hSome : 0 < s.ahead.length := by simp [hAhead]
  have hLess : t.ahead.length < s.ahead.length := by
    rw [hDrop, List.length_drop]
    omega
  unfold stepsLeft
  split <;> split <;> omega

theorem step_stepsLeft (hAhead : s.ahead = c :: rest) (hStep : s.step c rest = .ok (piece, next)) :
    next.stepsLeft < s.stepsLeft := by
  cases step_eq_ok_iff.mp hStep with
  | code hMode =>
      obtain ⟨text, hText, hPasses, -⟩ := code_reads hAhead hMode
      refine stepsLeft_drop hAhead (List.length_pos_of_ne_nil hText) ?_
      rw [hPasses.ahead, List.drop_left]
  | quoted | target => exact stepsLeft_drop hAhead (Nat.succ_pos _) rfl
  | template _ hChunk | substitution _ hChunk =>
      exact stepsLeft_drop hAhead (templateChunk_bounded (congrArg (Option.map Prod.fst) hChunk)).1 rfl
  | lineComment hMode =>
      simp only [stepsLeft, hMode, if_true, pastComment, advance, List.length_drop, reduceCtorEq, if_false]
      omega
  | blockComment _ hBody => exact stepsLeft_drop hAhead (blockBody_bounded hBody).1 rfl
  | regex _ hBody hFlags => exact stepsLeft_drop hAhead (regex_bounded hBody hFlags).1 rfl

theorem stepsLeft_initial (text : List Char) :
    (Scanner.initial text).stepsLeft < enoughSteps text := by
  simp [stepsLeft, Scanner.initial, enoughSteps]

/-! ### Surveys -/

/-- A survey goes on behind a scan. -/
theorem Scans.surveyFor {fuel : Nat} (h : s.Scans pieces t) (hQuote : s.AtQuote)
    (hFuel : s.stepsLeft < fuel) :
    ∃ left, t.stepsLeft < left ∧ t.AtQuote ∧
      s.surveyFor fuel = ⟨pieces ++ (t.surveyFor left).pieces, (t.surveyFor left).failure⟩ := by
  induction h generalizing fuel with
  | refl s => exact ⟨fuel, hFuel, hQuote, rfl⟩
  | step hAhead hStep later ih =>
      obtain ⟨-, hNext, -⟩ := step_passes hAhead hQuote hStep
      have hLess := step_stepsLeft hAhead hStep
      cases fuel with
      | zero => omega
      | succ fuel =>
          obtain ⟨left, hLeft, hEnd, hRest⟩ := ih hNext (show _ < fuel by omega)
          refine ⟨left, hLeft, hEnd, ?_⟩
          rw [Scanner.surveyFor, hAhead]
          simp only [hStep, hRest, List.cons_append]

/-- A survey is a scan. When it has enough steps and ends without a failure, it comes to the end of the
text, where nothing is open. -/
theorem scans_surveyFor (fuel : Nat) (hQuote : s.AtQuote) :
    ∃ t, s.Scans (s.surveyFor fuel).pieces t ∧
      (s.stepsLeft < fuel → (s.surveyFor fuel).failure = none → t.ahead = [] ∧ t.pending = none) := by
  induction fuel generalizing s with
  | zero => exact ⟨s, .refl s, fun hNone => absurd hNone (Nat.not_lt_zero _)⟩
  | succ fuel ih =>
      unfold Scanner.surveyFor
      split
      · rename_i hAhead
        exact ⟨s, .refl s, fun _ hClosed => ⟨hAhead, hClosed⟩⟩
      · rename_i c rest hAhead
        split
        · exact ⟨s, .refl s, fun _ hFailed => by cases hFailed⟩
        · rename_i piece next hStep
          obtain ⟨-, hNext, -⟩ := step_passes hAhead hQuote hStep
          have hLess := step_stepsLeft hAhead hStep
          obtain ⟨t, hScans, hEnd⟩ := ih hNext
          exact ⟨t, .step hAhead hStep hScans, fun hFuel => hEnd (by omega)⟩

/-- A scan that comes to the end of the text, where nothing is open, is the survey. -/
theorem Scans.surveyFor_eq {fuel : Nat} (h : s.Scans pieces t) (hQuote : s.AtQuote)
    (hFuel : s.stepsLeft < fuel) (hEnd : t.ahead = []) (hClosed : t.pending = none) :
    s.surveyFor fuel = ⟨pieces, none⟩ := by
  obtain ⟨left, -, -, hSurvey⟩ := h.surveyFor hQuote hFuel
  have hNone : t.surveyFor left = ⟨[], none⟩ := by
    cases left <;> simp [Scanner.surveyFor, hEnd, hClosed]
  rw [hSurvey, hNone, List.append_nil]

end Scanner

theorem survey_eq {text : List Char} {pieces : List Piece} {t : Scanner}
    (h : (Scanner.initial text).Scans pieces t) (hEnd : t.ahead = []) (hClosed : t.pending = none) :
    survey text = ⟨pieces, none⟩ :=
  h.surveyFor_eq (within_initial text).atQuote (Scanner.stepsLeft_initial text) hEnd hClosed

theorem scans_survey (text : List Char) :
    ∃ t, (Scanner.initial text).Scans (survey text).pieces t ∧
      ((survey text).failure = none → t.ahead = [] ∧ t.pending = none) := by
  obtain ⟨t, hScans, hEnd⟩ := Scanner.scans_surveyFor (Scanner.enoughSteps text)
    (within_initial text).atQuote
  exact ⟨t, hScans, hEnd (Scanner.stepsLeft_initial text)⟩

/-- From wherever the scan of an accepted source comes, it goes on to the end. -/
theorem scans_of_accepted {source : List Char} {pieces : List Piece} {s : Scanner}
    (hScan : (Scanner.initial source).Scans pieces s)
    (hAccepted : failure? (String.ofList source) = none) :
    ∃ back z, s.Scans back z ∧ z.ahead = [] ∧ z.pending = none := by
  obtain ⟨left, hLeft, hQuote, hSurvey⟩ :=
    hScan.surveyFor (within_initial source).atQuote (Scanner.stepsLeft_initial source)
  obtain ⟨z, hBack, hEnd⟩ := Scanner.scans_surveyFor left hQuote
  rw [failure?, String.toList_ofList, survey, hSurvey] at hAccepted
  exact ⟨_, z, hBack, hEnd hLeft hAccepted⟩

/-- The pieces of a text are what it starts with, and all of it when its scan does not fail. -/
theorem survey_text (text : List Char) :
    ∃ rest, text = (survey text).pieces.flatMap Piece.text ++ rest ∧
      ((survey text).failure = none → rest = []) := by
  obtain ⟨t, hScans, hEnd⟩ := scans_survey text
  exact ⟨t.ahead, (hScans.within (within_initial text)).2.ahead, fun hAccepted => (hEnd hAccepted).1⟩

/-! ### Relinking piece by piece -/

/-- What is written between the quotes of a target that has been answered. -/
def edited (quote : Char) (raw : List Char) (answer : Option String) : List Char :=
  match answer with
  | none => raw
  | some replacement =>
    if replacement.toList = raw then raw else quoteWithin quote replacement.toList

/-- What is written between quotes stays inside of them. -/
theorem inside_quoteWithin {quote : Char} {text : List Char}
    (hLine : ∀ c ∈ text, isLineEnd c = false) : Inside quote (quoteWithin quote text) := by
  induction text with
  | nil => exact .nil
  | cons c text ih =>
      obtain ⟨hFirst, hOthers⟩ := List.forall_mem_cons.mp hLine
      rw [quoteWithin, List.flatMap_cons]
      split
      · exact .escaped (ih hOthers)
      · rename_i hPlain
        obtain ⟨hOther, hEscape⟩ : c ≠ quote ∧ c ≠ '\\' := by simpa using hPlain
        exact .plain hOther hEscape hFirst (ih hOthers)

/-- The text of a target. -/
def Piece.raw? : Piece → Option (List Char)
  | .verbatim _ => none
  | .target _ raw => some raw

/-- The texts of the targets among pieces. -/
def raws (pieces : List Piece) : List (List Char) :=
  pieces.filterMap Piece.raw?

/-- Pieces into which the answers for their targets are written, from left to right. -/
def answered : List Piece → List (Option String) → List Piece
  | [], _ => []
  | .verbatim text :: pieces, answers => .verbatim text :: answered pieces answers
  | .target quote raw :: pieces, answer :: answers =>
    .target quote (edited quote raw answer) :: answered pieces answers
  | .target quote raw :: pieces, [] => .target quote raw :: pieces

/-- What a piece becomes. Verbatim text is not asked about. -/
def Piece.relink {m : Type → Type} [Monad m] (map : String → m (Option String)) :
    Piece → m (List Char)
  | .verbatim text => pure text
  | .target quote raw => do
    let answer ← ask map raw
    pure (quote :: edited quote raw answer ++ [quote])

/-- What pieces become together, from left to right. -/
def relinkAll {m : Type → Type} [Monad m] (map : String → m (Option String)) :
    List Piece → m (List Char)
  | [] => pure []
  | piece :: pieces => do
    let first ← piece.relink map
    let rest ← relinkAll map pieces
    pure (first ++ rest)

variable {m : Type → Type} [Monad m] [LawfulMonad m] {map : String → m (Option String)}

theorem relinkAll_append (first second : List Piece) :
    relinkAll map (first ++ second) = (do
      let a ← relinkAll map first
      let b ← relinkAll map second
      pure (a ++ b)) := by
  induction first with
  | nil => simp [relinkAll]
  | cons piece pieces ih =>
      simp only [relinkAll, List.cons_append, ih, bind_assoc, pure_bind, List.append_assoc]

/-- The stretch from `copied` to the end of a chunk that starts at `position`. -/
theorem drop_take_chunk {source chunk rest : List Char} {position copied : Nat}
    (hText : source.drop position = chunk ++ rest) (hCopied : copied ≤ position) :
    (source.take (position + chunk.length)).drop copied =
      (source.take position).drop copied ++ chunk := by
  rw [List.take_add, hText, List.take_left]
  by_cases hWithin : position ≤ source.length
  · exact List.drop_append_of_le_length (by rw [List.length_take]; omega)
  · have hNone : chunk ++ rest = [] := hText.symm.trans (List.drop_eq_nil_of_le (by omega))
    rw [(List.append_eq_nil_iff.mp hNone).1, List.append_nil, List.append_nil]

theorem drop_take_end {source : List Char} {position copied : Nat} (hCopied : copied ≤ position) :
    (source.take position).drop copied ++ source.drop position = source.drop copied := by
  rw [← drop_take_chunk (List.append_nil _).symm hCopied, List.take_of_length_le]
  rw [List.length_drop]
  omega

/-- The text of the first target among pieces. -/
theorem spanFrom_text {source raw rest : List Char} {quote : Char} {position : Nat}
    (hText : source.drop position = Piece.text (.target quote raw) ++ rest) :
    Span.text source ⟨quote, position + 1, position + 1 + raw.length⟩ = raw := by
  have hInside : source.drop (position + 1) = raw ++ (quote :: rest) := by
    rw [← List.drop_drop, hText]
    simp [Piece.text]
  rw [Span.text, drop_take_chunk hInside (Nat.le_refl _), List.drop_take_self, List.nil_append]

theorem edited_eq {source raw : List Char} {span : Span} (hText : span.text source = raw)
    (answer : Option String) :
    edited span.quote raw answer = (span.edit? source answer).getD raw := by
  unfold edited Span.edit?
  rw [hText]
  cases answer with
  | none => rfl
  | some replacement =>
      dsimp only
      split <;> rfl

/-- The text behind the first of the pieces. -/
theorem drop_piece {source rest : List Char} {piece : Piece} {pieces : List Piece} {position : Nat}
    (hText : source.drop position = (piece :: pieces).flatMap Piece.text ++ rest) :
    source.drop position = piece.text ++ (pieces.flatMap Piece.text ++ rest) ∧
      source.drop (position + piece.text.length) = pieces.flatMap Piece.text ++ rest := by
  rw [List.flatMap_cons, List.append_assoc] at hText
  exact ⟨hText, by rw [← List.drop_drop, hText, List.drop_left]⟩

theorem length_target (quote : Char) (raw : List Char) :
    (Piece.text (.target quote raw)).length = raw.length + 2 := by
  simp [Piece.text]

/-- The texts of the spans are the texts of the targets. -/
theorem spansFrom_text {source rest : List Char} {pieces : List Piece} (position : Nat)
    (hText : source.drop position = pieces.flatMap Piece.text ++ rest) :
    (spansFrom position pieces).map (Span.text source) = raws pieces := by
  induction pieces generalizing position with
  | nil => rfl
  | cons piece pieces ih =>
      obtain ⟨hFirst, hAfter⟩ := drop_piece hText
      cases piece with
      | verbatim text => exact ih _ hAfter
      | target quote raw =>
          rw [length_target] at hAfter
          rw [spansFrom, List.map_cons, spanFrom_text hFirst, ih _ hAfter]
          rfl

/-- A splice writes what lies in front of the pieces as it is, then the pieces with their answers, and
then the text behind them. -/
theorem splice_eq_answered {source rest : List Char} {pieces : List Piece}
    (answers : List (Option String)) (position copied : Nat)
    (hText : source.drop position = pieces.flatMap Piece.text ++ rest) (hCopied : copied ≤ position) :
    splice source copied ((spansFrom position pieces).zip answers) =
      (source.take position).drop copied ++ (answered pieces answers).flatMap Piece.text ++ rest := by
  induction pieces generalizing position copied answers with
  | nil =>
      have hEnd : source.drop position = rest := hText
      rw [← hEnd, answered, List.flatMap_nil, List.append_nil, drop_take_end hCopied]
      rfl
  | cons piece pieces ih =>
      obtain ⟨hFirst, hAfter⟩ := drop_piece hText
      have hStretch := drop_take_chunk hFirst hCopied
      cases piece with
      | verbatim text =>
          have hRest := ih answers (position + text.length) copied hAfter (by omega)
          rw [show (source.take (position + text.length)).drop copied = _ from hStretch] at hRest
          rw [spansFrom, hRest, answered]
          simp [Piece.text]
      | target quote raw =>
          rw [length_target] at hAfter hStretch
          cases answers with
          | nil =>
              rw [List.zip_nil_right, answered, List.append_assoc, ← hText, drop_take_end hCopied]
              rfl
          | cons answer answers =>
              have hOpened : (source.take (position + 1)).drop copied =
                  (source.take position).drop copied ++ [quote] :=
                drop_take_chunk (show source.drop position = [quote] ++ (raw ++ [quote] ++ _) from hFirst)
                  hCopied
              have hClosed :
                  (source.take (position + (raw.length + 2))).drop (position + 1 + raw.length) =
                    [quote] := by
                have hLast : source.drop (position + 1 + raw.length) =
                    [quote] ++ (pieces.flatMap Piece.text ++ rest) := by
                  rw [← List.drop_drop, ← List.drop_drop, hFirst]
                  simp [Piece.text]
                have hEnd := drop_take_chunk hLast (Nat.le_refl _)
                rwa [List.drop_take_self, List.nil_append,
                  show position + 1 + raw.length + [quote].length = position + (raw.length + 2) by
                    rw [List.length_singleton]; omega] at hEnd
              rw [spansFrom, List.zip_cons_cons, splice, answered, edited_eq (spanFrom_text hFirst)]
              -- A target that stays is copied with what comes next; a new one ends what is copied.
              cases Span.edit? source ⟨quote, position + 1, position + 1 + raw.length⟩ answer with
              | none =>
                  dsimp only
                  rw [ih answers _ copied hAfter (by omega), hStretch]
                  simp [Piece.text]
              | some text =>
                  dsimp only
                  rw [ih answers _ (position + 1 + raw.length) hAfter (by omega), hClosed, hOpened]
                  simp [Piece.text]

/-- Rewriting pieces asks for the texts of all targets and then writes the answers in. -/
theorem relinkAll_eq_answered (map : String → m (Option String)) (pieces : List Piece) :
    relinkAll map pieces = (do
      let answers ← (raws pieces).mapM (ask map)
      pure ((answered pieces answers).flatMap Piece.text)) := by
  induction pieces with
  | nil => simp [relinkAll, raws, answered]
  | cons piece pieces ih =>
      cases piece with
      | verbatim text =>
          have hRaws : raws (.verbatim text :: pieces) = raws pieces := rfl
          simp [relinkAll, Piece.relink, ih, hRaws, answered, Piece.text]
      | target quote raw =>
          have hRaws : raws (.target quote raw :: pieces) = raw :: raws pieces := rfl
          simp [relinkAll, Piece.relink, ih, hRaws, answered, Piece.text]

/-- The answers for the targets of a source. -/
theorem mapM_spans (map : String → m (Option String)) (source : String) :
    (spans source).mapM (fun span => ask map (span.text source.toList)) =
      (raws (survey source.toList).pieces).mapM (ask map) := by
  obtain ⟨rest, hRest, -⟩ := survey_text source.toList
  rw [← spansFrom_text 0 hRest, List.mapM_map]
  rfl

/-- Relinking a source rewrites its pieces from left to right and puts them together, unless the scan of
the source fails in the end. -/
theorem relink_eq_relinkAll (map : String → m (Option String)) (source : String) :
    relink map source = (do
      let texts ← relinkAll map (survey source.toList).pieces
      pure (match failure? source with
        | some e => .error e
        | none => .ok (String.ofList texts))) := by
  obtain ⟨rest, hRest, hWhole⟩ := survey_text source.toList
  rw [relink_run, mapM_spans, relinkAll_eq_answered, bind_assoc]
  refine bind_congr fun answers => ?_
  rw [pure_bind]
  cases hFailure : failure? source with
  | some e => rfl
  | none =>
      have hSplice := splice_eq_answered answers 0 0 hRest (Nat.le_refl 0)
      rw [hWhole hFailure, List.append_nil] at hSplice
      exact congrArg (fun text => pure (Except.ok (String.ofList text))) hSplice

end ModuleGateway.Relink
