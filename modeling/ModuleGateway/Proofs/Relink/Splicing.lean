import ModuleGateway.Proofs.Relink.Reading
import ModuleGateway.Relink.Splice
import Mathlib.Data.List.Pairwise

/-!
Relinking is a splice. Where the targets of a source lie, and how its scan ends, is found without the
map; whatever the map answers, and whatever effects it has, the output is the source with new text in
some of these places. The map is asked once for each place without a backslash, from left to right.
-/

namespace ModuleGateway.Relink

/-- The inside of a quoted literal: the numbers of characters in front of it and up to its end. -/
structure Span where
  quote : Char
  start : Nat
  stop : Nat
  deriving DecidableEq, Repr

/-- The text between two places of a source. -/
def Span.text (source : List Char) (span : Span) : List Char :=
  (source.take span.stop).drop span.start

/-- The span is the inside of a string literal: its quote stands on both sides of it, and neither
closes nor breaks off the literal in between. -/
structure Span.IsLiteral (source : List Char) (span : Span) : Prop where
  isQuote : isQuote span.quote = true
  opened : ∃ before, source.take span.start = before ++ [span.quote]
  ordered : span.start ≤ span.stop
  inside : Inside span.quote (span.text source)
  closed : source[span.stop]? = some span.quote

/-- The places of the targets among pieces, the first of which starts at `position`. -/
def spansFrom : Nat → List Piece → List Span
  | _, [] => []
  | position, .verbatim text :: pieces => spansFrom (position + text.length) pieces
  | position, .target quote raw :: pieces =>
    ⟨quote, position + 1, position + 1 + raw.length⟩ ::
      spansFrom (position + (raw.length + 2)) pieces

/-- Where the targets of a source lie, as far as its scan comes. -/
def spans (source : String) : List Span :=
  spansFrom 0 (survey source.toList).pieces

/-- How the scan of a source fails, if it does. -/
def failure? (source : String) : Option Unterminated :=
  (survey source.toList).failure

/-- What a span is replaced by; nothing when it stays. -/
def Span.edit? (source : List Char) (span : Span) (answer : Option String) : Option (List Char) :=
  match answer with
  | none => none
  | some replacement =>
    if replacement.toList = span.text source then none
    else some (quoteWithin span.quote replacement.toList)

/-- The source from a place on, with every span edited as its answer says. -/
def splice (source : List Char) : Nat → List (Span × Option String) → List Char
  | position, [] => source.drop position
  | position, (span, answer) :: rest =>
    match span.edit? source answer with
    | none => splice source position rest
    | some text =>
      (source.take span.start).drop position ++ text ++ splice source span.stop rest

/-- The output for a scan that ended in this way, when `written` stands for the source in front of
`position`. -/
def conclude (source written : List Char) (position : Nat) (answered : List (Span × Option String))
    (failure : Option Unterminated) : Except Unterminated String :=
  match failure with
  | some e => .error e
  | none => .ok (String.ofList (written ++ splice source position answered))

/-! ### Where the spans lie -/

/-- The scanner stands in the source behind all it has read. -/
structure Scanner.Within (source : List Char) (s : Scanner) : Prop where
  text : source = s.behind.reverse ++ s.ahead
  count : s.count = s.behind.length
  atQuote : s.AtQuote

theorem within_initial (source : List Char) : (Scanner.initial source).Within source where
  text := rfl
  count := rfl
  atQuote := Scanner.atQuote_of_mode (by simp [Scanner.initial])

theorem within_of_passes {source text : List Char} {s t : Scanner} (h : s.Within source)
    (move : s.Passes text t) (hQuote : t.AtQuote) : t.Within source where
  text := by rw [h.text, move.ahead, move.behind]; simp
  count := by rw [move.count, move.behind, h.count]; simp [Nat.add_comm]
  atQuote := hQuote

/-- The span of a target that the scanner has come to. -/
def Scanner.spanHere (s : Scanner) (quote : Char) (raw : List Char) : Span :=
  ⟨quote, s.count + 1, s.count + 1 + raw.length⟩

theorem spansFrom_target (s : Scanner) (quote : Char) (raw : List Char) (pieces : List Piece) :
    spansFrom s.count (.target quote raw :: pieces) =
      s.spanHere quote raw :: spansFrom (s.count + (raw.length + 2)) pieces :=
  rfl

theorem spanHere_split {source raw rest : List Char} {s : Scanner} {quote : Char}
    (h : s.Within source) (hAhead : s.ahead = Piece.text (.target quote raw) ++ rest) :
    source = (s.behind.reverse ++ [quote]) ++ (raw ++ quote :: rest) := by
  rw [h.text, hAhead]
  simp [Piece.text]

theorem spanHere_text {source raw rest : List Char} {s : Scanner} {quote : Char}
    (h : s.Within source) (hAhead : s.ahead = Piece.text (.target quote raw) ++ rest) :
    (s.spanHere quote raw).text source = raw := by
  have hLength : s.count + 1 = (s.behind.reverse ++ [quote]).length := by simp [h.count]
  rw [spanHere_split h hAhead, Span.text, Scanner.spanHere, hLength, ← List.length_append,
    ← List.append_assoc, List.take_left, List.drop_left]

theorem spanHere_isLiteral {source raw rest : List Char} {s : Scanner} {quote : Char}
    (h : s.Within source) (hAhead : s.ahead = Piece.text (.target quote raw) ++ rest)
    (hSound : (Piece.target quote raw).Sound) : (s.spanHere quote raw).IsLiteral source := by
  have hLength : s.count + 1 = (s.behind.reverse ++ [quote]).length := by simp [h.count]
  have hSplit := spanHere_split h hAhead
  refine ⟨hSound.1, ⟨s.behind.reverse, ?_⟩, Nat.le_add_right _ _, ?_, ?_⟩
  · rw [hSplit, Scanner.spanHere, hLength, List.take_left]
  · rw [spanHere_text h hAhead]
    exact hSound.2
  · rw [hSplit, ← List.append_assoc, Scanner.spanHere, hLength, ← List.length_append]
    simp

/-- Every span lies behind the place its pieces start from. -/
theorem lt_start_of_mem_spansFrom {position : Nat} {pieces : List Piece} {span : Span}
    (h : span ∈ spansFrom position pieces) : position < span.start := by
  induction pieces generalizing position with
  | nil => cases h
  | cons piece pieces ih =>
      cases piece with
      | verbatim text =>
          have hLater := ih h
          omega
      | target quote raw =>
          rcases List.mem_cons.mp h with rfl | hLater
          · exact Nat.lt_succ_self position
          · have hBound := ih hLater
            omega

/-- Between two spans there are at least the two quotes. -/
theorem spansFrom_pairwise (position : Nat) (pieces : List Piece) :
    (spansFrom position pieces).Pairwise fun a b => a.stop < b.start := by
  induction pieces generalizing position with
  | nil => exact List.Pairwise.nil
  | cons piece pieces ih =>
      cases piece with
      | verbatim text => exact ih _
      | target quote raw =>
          refine List.pairwise_cons.mpr ⟨fun span hSpan => ?_, ih _⟩
          have hBound := lt_start_of_mem_spansFrom hSpan
          dsimp only
          omega

/-- Every target of a scan is the inside of a literal of the source. -/
theorem isLiteral_of_mem_survey {source : List Char} (fuel : Nat) {s : Scanner}
    (h : s.Within source) :
    ∀ span ∈ spansFrom s.count (s.surveyFor fuel).pieces, span.IsLiteral source := by
  induction fuel generalizing s with
  | zero => intro span hSpan; cases hSpan
  | succ fuel ih =>
      intro span hSpan
      unfold Scanner.surveyFor at hSpan
      split at hSpan
      · cases hSpan
      · rename_i c rest hAhead
        split at hSpan
        · cases hSpan
        · rename_i piece next hStep
          obtain ⟨move, hQuote, hSound⟩ := Scanner.step_passes hAhead h.atQuote hStep
          have hNext := ih (within_of_passes h move hQuote)
          rw [move.count] at hNext
          cases piece with
          | verbatim text => exact hNext span hSpan
          | target quote raw =>
              rcases List.mem_cons.mp hSpan with rfl | hLater
              · exact spanHere_isLiteral h move.ahead hSound
              · refine hNext span ?_
                simpa [Piece.text] using hLater

/-! ### The relinker -/

/-- Settling an answer edits the span in front of which the scanner stands, and nothing else. -/
theorem conclude_settle {source raw : List Char} {quote : Char} {r : Relinker}
    (hText : (r.scanner.spanHere quote raw).text source = raw) (answer : Option String)
    (rest : List (Span × Option String)) (failure : Option Unterminated) :
    conclude source (r.settle source quote raw answer).written
        (r.settle source quote raw answer).copied rest failure =
      conclude source r.written r.copied ((r.scanner.spanHere quote raw, answer) :: rest)
        failure := by
  cases failure with
  | some e => rfl
  | none =>
      cases answer with
      | none => rfl
      | some replacement =>
          have hEdit : (r.scanner.spanHere quote raw).edit? source (some replacement) =
              if replacement.toList = raw then none
              else some (quoteWithin quote replacement.toList) := by
            rw [Span.edit?, hText, Scanner.spanHere]
          by_cases hSame : replacement.toList = raw
          · simp [conclude, Relinker.settle, splice, hEdit, hSame]
          · simp [conclude, Relinker.settle, splice, hEdit, hSame]
            simp [Scanner.spanHere]

theorem conclude_finish (r : Relinker) (source : List Char) :
    r.finish source = conclude source r.written r.copied [] r.scanner.pending := by
  unfold Relinker.finish conclude
  cases r.scanner.pending <;> rfl

/-- The relinker from any of its states: what it goes on to ask, and what it makes of the answers,
is what the scan from there says, whatever has been written already. -/
theorem runFor_eq {m : Type → Type} [Monad m] [LawfulMonad m] (map : String → m (Option String))
    (source : List Char) (fuel : Nat) (r : Relinker) (h : r.scanner.Within source) :
    let found := r.scanner.surveyFor fuel
    let places := spansFrom r.scanner.count found.pieces
    r.runFor map source fuel = (do
      let answers ← places.mapM fun span => ask map (span.text source)
      pure (conclude source r.written r.copied (places.zip answers) found.failure)) := by
  induction fuel generalizing r with
  | zero => simp [Relinker.runFor, Scanner.surveyFor, spansFrom, conclude_finish]
  | succ fuel ih =>
      cases hAhead : r.scanner.ahead with
      | nil =>
          simp [Relinker.runFor, Scanner.surveyFor, hAhead, spansFrom, conclude_finish]
      | cons c rest =>
          cases hStep : r.scanner.step c rest with
          | error e =>
              simp [Relinker.runFor, Scanner.surveyFor, hAhead, hStep, spansFrom, conclude]
          | ok result =>
              obtain ⟨piece, next⟩ := result
              obtain ⟨move, hQuote, -⟩ := Scanner.step_passes hAhead h.atQuote hStep
              have hWithin := within_of_passes h move hQuote
              cases piece with
              | verbatim text =>
                  simp only [Relinker.runFor, Scanner.surveyFor, hAhead, hStep, spansFrom,
                    ih { r with scanner := next } hWithin, move.count, Piece.text]
              | target quote raw =>
                  -- A target is asked for before the rest of the source is scanned.
                  have hText := spanHere_text h move.ahead
                  have hCount : next.count = r.scanner.count + (raw.length + 2) := by
                    rw [move.count]
                    simp [Piece.text]
                  have hRest (answer : Option String) :=
                    ih { r.settle source quote raw answer with scanner := next } hWithin
                  simp only [Relinker.runFor, Scanner.surveyFor, hAhead, hStep, hRest, hCount,
                    spansFrom_target, List.mapM_cons, bind_assoc, pure_bind, List.zip_cons_cons,
                    hText, conclude_settle hText]

/-- Relinking asks for all places of the source and then splices the answers in. -/
theorem relink_run {m : Type → Type} [Monad m] [LawfulMonad m] (map : String → m (Option String))
    (source : String) :
    relink map source = (do
      let answers ← (spans source).mapM fun span => ask map (span.text source.toList)
      pure (conclude source.toList [] 0 ((spans source).zip answers) (failure? source))) :=
  runFor_eq map source.toList _ { scanner := .initial source.toList } (within_initial _)

/-- Relinking a source is a splice at places that depend on the source alone. The places are
disjoint, in ascending order, and each is the inside of a quoted literal. For every map, with
whatever effects, the map is asked for the text of each place without a backslash, once and from
left to right; the result is the error of the scan, or the source in which a place with a new text
holds that text, its quotes and backslashes escaped, and all else is as it was. -/
theorem relink_eq_splice (source : String) :
    (spans source).Pairwise (fun a b => a.stop < b.start) ∧
    (∀ span ∈ spans source, span.IsLiteral source.toList) ∧
    ∀ (m : Type → Type) [Monad m] [LawfulMonad m] (map : String → m (Option String)),
      relink map source = (do
        let answers ← (spans source).mapM fun span =>
          let raw := span.text source.toList
          if raw.contains '\\' then pure none else map (String.ofList raw)
        pure (match failure? source with
          | some e => .error e
          | none => .ok (String.ofList
              (splice source.toList 0 ((spans source).zip answers))))) := by
  refine ⟨spansFrom_pairwise _ _, ?_, fun m _ _ map => ?_⟩
  · exact isLiteral_of_mem_survey _ (within_initial source.toList)
  · exact relink_run map source

end ModuleGateway.Relink
