import ModuleGateway.Proofs.Relink.Lookahead
import Mathlib.Data.List.Forall2

/-!
Scanning what relinking has written. As long as no replacement holds a line end, the scanner comes to
the same targets in the output as in the source, in the same order and with the same quotes: up to the
opening quote of a target both texts agree, and behind its closing quote the scanner stands as it stood
in the source, whatever has been written in between. A literal that was replaced reads back as its
replacement, and every other one holds what it held.
-/

namespace ModuleGateway.Relink

/-! ### Reading a literal back -/

/-- A literal up to its first quote that is not escaped, with the escapes removed. -/
def readBack (quote : Char) : List Char → Option (List Char)
  | [] => none
  | '\\' :: c :: rest => (readBack quote rest).map (c :: ·)
  | ['\\'] => none
  | c :: rest => if c = quote then some [] else (readBack quote rest).map (c :: ·)

variable {quote : Char} {raw text rest : List Char}

theorem readBack_plain {c : Char} (hEscape : c ≠ '\\') :
    readBack quote (c :: rest) = if c = quote then some [] else (readBack quote rest).map (c :: ·) := by
  rw [readBack]
  all_goals simp_all

theorem not_escape_of_isQuote (hQuote : isQuote quote = true) : quote ≠ '\\' := by
  rintro rfl
  exact absurd hQuote (by decide)

/-- What is written between quotes reads back. -/
theorem readBack_quoteWithin (hQuote : isQuote quote = true) :
    readBack quote (quoteWithin quote text ++ quote :: rest) = some text := by
  induction text with
  | nil => exact (readBack_plain (not_escape_of_isQuote hQuote)).trans (if_pos rfl)
  | cons c text ih =>
      rw [quoteWithin, List.flatMap_cons, List.append_assoc, ← quoteWithin]
      split
      · rw [List.cons_append, List.cons_append, List.nil_append, readBack, ih]
        rfl
      · rename_i hPlain
        obtain ⟨hOther, hEscape⟩ : c ≠ quote ∧ c ≠ '\\' := by simpa using hPlain
        rw [List.singleton_append, readBack_plain hEscape, if_neg hOther, ih]
        rfl

/-- Text without escapes reads back as it stands. -/
theorem readBack_of_inside (hQuote : isQuote quote = true) (hInside : Inside quote raw)
    (hEscape : '\\' ∉ raw) : readBack quote (raw ++ quote :: rest) = some raw := by
  induction hInside with
  | nil => exact (readBack_plain (not_escape_of_isQuote hQuote)).trans (if_pos rfl)
  | plain hOther hPlain hLine inner ih =>
      rw [List.cons_append, readBack_plain hPlain, if_neg hOther,
        ih fun hMem => hEscape (List.mem_cons_of_mem _ hMem)]
      rfl
  | escaped inner ih => exact absurd List.mem_cons_self hEscape

/-! ### Answers -/

/-- An answer that a target with this text may be given: a text with a backslash is not asked for, and a
replacement holds no line end. -/
def Fits (raw : List Char) (answer : Option String) : Prop :=
  ∀ replacement, answer = some replacement →
    '\\' ∉ raw ∧ ∀ c ∈ replacement.toList, isLineEnd c = false

theorem inside_edited {answer : Option String} (hInside : Inside quote raw) (h : Fits raw answer) :
    Inside quote (edited quote raw answer) := by
  cases answer with
  | none => exact hInside
  | some replacement =>
      unfold edited
      dsimp only
      split
      · exact hInside
      · exact inside_quoteWithin (h replacement rfl).2

theorem readBack_edited {replacement : String} (hQuote : isQuote quote = true)
    (hInside : Inside quote raw) (h : Fits raw (some replacement)) :
    readBack quote (edited quote raw (some replacement) ++ quote :: rest) =
      some replacement.toList := by
  unfold edited
  dsimp only
  split
  · rename_i hSame
    rw [readBack_of_inside hQuote hInside (h replacement rfl).1, hSame]
  · exact readBack_quoteWithin hQuote

/-- Every answer is what the map says when it is asked for the target, in some state. -/
theorem mapM_ask {σ : Type} (map : String → StateM σ (Option String)) (raws : List (List Char)) (s : σ) :
    List.Forall₂ (fun raw answer => ∃ s, ((ask map raw).run s).1 = answer) raws
      ((raws.mapM (ask map)).run s).1 := by
  induction raws generalizing s with
  | nil => exact .nil
  | cons raw raws ih =>
      have hRun : (((raw :: raws).mapM (ask map)).run s).1 =
          ((ask map raw).run s).1 :: ((raws.mapM (ask map)).run ((ask map raw).run s).2).1 := by
        rw [List.mapM_cons]
        rfl
      rw [hRun]
      exact .cons ⟨s, rfl⟩ (ih _)

theorem fits_ask {σ : Type} {map : String → StateM σ (Option String)} {s : σ}
    (hLines : '\\' ∉ raw → ∀ replacement, ((map (String.ofList raw)).run s).1 = some replacement →
      ∀ c ∈ replacement.toList, isLineEnd c = false) : Fits raw ((ask map raw).run s).1 := by
  intro replacement hAnswer
  unfold ask at hAnswer
  split at hAnswer
  · cases hAnswer
  · rename_i hEscape
    have hPlain : '\\' ∉ raw := by simpa using hEscape
    exact ⟨hPlain, hLines hPlain replacement hAnswer⟩

/-! ### Scanning the output -/

namespace Scanner

variable {s t next z : Scanner} {pieces : List Piece} {answers : List (Option String)}

/-- Everything that a scan reads is sound. -/
theorem Scans.sound (h : s.Scans pieces z) (hQuote : s.AtQuote) : ∀ piece ∈ pieces, piece.Sound := by
  induction h with
  | refl => simp
  | step hAhead hStep later ih =>
      obtain ⟨-, hNext, hSound⟩ := step_passes hAhead hQuote hStep
      exact List.forall_mem_cons.mpr ⟨hSound, ih hNext⟩

end Scanner

open Scanner

variable {pieces : List Piece} {answers : List (Option String)}

/-- Before and after the answers are written in, the texts agree up to the first target. -/
theorem answered_parting (hSound : ∀ piece ∈ pieces, piece.Sound)
    (hFits : List.Forall₂ Fits (raws pieces) answers) :
    ∃ u v w, pieces.flatMap Piece.text = u ++ v ∧
      (answered pieces answers).flatMap Piece.text = u ++ w ∧ Parting v w := by
  induction pieces with
  | nil => exact ⟨[], [], [], rfl, rfl, parting_nil⟩
  | cons piece pieces ih =>
      obtain ⟨hPiece, hOthers⟩ := List.forall_mem_cons.mp hSound
      cases piece with
      | verbatim text =>
          obtain ⟨u, v, w, hOld, hNew, hParting⟩ := ih hOthers hFits
          refine ⟨text ++ u, v, w, ?_, ?_, hParting⟩
          · rw [List.flatMap_cons, hOld, List.append_assoc]
            rfl
          · rw [answered, List.flatMap_cons, hNew, List.append_assoc]
            rfl
      | target quote raw =>
          cases hFits with
          | cons hAnswer hFits =>
              exact ⟨[], _, _, rfl, rfl, parting_cons (by simp [isOpener, hPiece.1]) _ _⟩

/-- A target is read in front of its quote only. -/
theorem target_of_step {s next : Scanner} {c quote : Char} {raw rest : List Char}
    (hStep : s.step c rest = .ok (.target quote raw, next)) :
    s.mode = .target ∧ next = s.pastTarget raw := by
  cases step_eq_ok_iff.mp hStep with
  | target hMode => exact ⟨hMode, rfl⟩

/-- No dots stand right behind a quote. -/
theorem dots_pastTarget {s : Scanner} {quote : Char} {raw rest : List Char}
    (hQuote : isQuote quote = true) (hAhead : s.ahead = quote :: (raw ++ quote :: rest)) :
    dots (s.pastTarget raw).behind = [] := by
  have hText : s.ahead.take (raw.length + 2) = Piece.text (.target quote raw) := by
    simp [hAhead, Piece.text, List.take_append, List.take_of_length_le]
  have hBehind : (s.pastTarget raw).behind = (Piece.text (.target quote raw)).reverse ++ s.behind := by
    rw [← hText]
    rfl
  have hDot : quote ≠ '.' := by
    rintro rfl
    exact absurd hQuote (by decide)
  simp [hBehind, Piece.text, dots, hDot]

/-- In front of a target, a scanner reads whatever stands between the quotes, and goes on in the same way
behind it. -/
theorem step_target {s t next : Scanner} {c quote : Char} {raw new rest tail : List Char}
    (hHere : s.ahead = c :: rest) (hStep : s.step c rest = .ok (.target quote raw, next))
    (hAtQuote : s.AtQuote) (hTwins : s.Twins t) (hNew : Inside quote new)
    (hThere : t.ahead = quote :: (new ++ quote :: tail)) :
    ∃ other, t.step quote (new ++ quote :: tail) = .ok (.target quote new, other) ∧
      next.Twins other ∧ dots other.behind = dots next.behind ∧ other.ahead = tail := by
  obtain ⟨move, -, hQuote, -⟩ := step_passes hHere hAtQuote hStep
  obtain ⟨hMode, rfl⟩ := target_of_step hStep
  have hAhead : s.ahead = quote :: (raw ++ quote :: (s.pastTarget raw).ahead) := by
    rw [move.ahead]
    simp [Piece.text]
  refine ⟨t.pastTarget new, ?_, hTwins.pastTarget raw new, ?_, ?_⟩
  · exact step_eq_ok_iff.mpr
      (.target (hTwins.mode.trans hMode) (stringBody_of_inside hQuote hNew tail))
  · rw [dots_pastTarget hQuote hThere, dots_pastTarget hQuote hAhead]
  · show t.ahead.drop (new.length + 2) = tail
    simp [hThere, List.drop_append]

/-- The scan of pieces goes through again after the answers have been written into them. The induction is
on the scan: both scanners differ only in where they stand. -/
theorem Scanner.Scans.answered {s t z : Scanner} (h : s.Scans pieces z) (hQuote : s.AtQuote)
    (hFits : List.Forall₂ Fits (raws pieces) answers) (hAhead : s.ahead = pieces.flatMap Piece.text)
    (hTwins : s.Twins t) (hDots : dots t.behind = dots s.behind)
    (hOther : t.ahead = (answered pieces answers).flatMap Piece.text) :
    ∃ z', t.Scans (answered pieces answers) z' ∧ z.Twins z' ∧ z'.ahead = [] := by
  induction h generalizing t answers with
  | refl s => exact ⟨t, .refl t, hTwins, hOther⟩
  | @step s next z c rest piece pieces hHere hStep later ih =>
      obtain ⟨move, hNext, hSound⟩ := step_passes hHere hQuote hStep
      have hLater : next.ahead = pieces.flatMap Piece.text :=
        List.append_cancel_left (move.ahead.symm.trans hAhead)
      cases piece with
      | verbatim text =>
          obtain ⟨u, v, w, hOld, hNew, hParting⟩ := answered_parting (later.sound hNext) hFits
          have hAbreast : Abreast v w s t := by
            refine ⟨hTwins, hDots, text ++ u, ?_, ?_⟩
            · rw [hAhead, List.flatMap_cons, hOld, List.append_assoc]
              rfl
            · rw [hOther, Relink.answered, List.flatMap_cons, hNew, List.append_assoc]
              rfl
          have hHead : t.ahead.head? = some c := by
            obtain ⟨front, hLeft, hRight⟩ := hAbreast.ahead
            rw [hRight, hParting.head_append, ← hLeft, hHere, List.head?_cons]
          obtain ⟨rest', hThere⟩ := List.head?_eq_some_iff.mp hHead
          have hRoom : v.length ≤ next.ahead.length := by
            rw [hLater, hOld, List.length_append]
            exact Nat.le_add_left _ _
          obtain ⟨other, hOtherStep, hBeside⟩ :=
            step_abreast hAbreast hParting hHere hThere hStep hRoom
          have hOtherAhead : other.ahead = (Relink.answered pieces answers).flatMap Piece.text := by
            obtain ⟨front, hLeft, hRight⟩ := hBeside.ahead
            rw [hLater, hOld] at hLeft
            rw [hRight, hNew, List.append_cancel_right hLeft]
          obtain ⟨z', hScans, hEnd⟩ :=
            ih hNext hFits hLater hBeside.twins hBeside.dots hOtherAhead
          exact ⟨z', .step hThere hOtherStep hScans, hEnd⟩
      | target quote raw =>
          cases hFits with
          | @cons _ answer _ answers hAnswer hFits =>
              have hInside := inside_edited hSound.2 hAnswer
              have hThere : t.ahead = quote :: (edited quote raw answer ++ quote ::
                  (Relink.answered pieces answers).flatMap Piece.text) := by
                rw [hOther, Relink.answered]
                simp [Piece.text]
              obtain ⟨other, hOtherStep, hSame, hSameDots, hOtherAhead⟩ :=
                step_target hHere hStep hQuote hTwins hInside hThere
              obtain ⟨z', hScans, hEnd⟩ := ih hNext hFits hLater hSame hSameDots hOtherAhead
              exact ⟨z', .step hThere hOtherStep hScans, hEnd⟩

/-- The survey of a source into whose pieces the answers have been written. -/
theorem survey_answered {source : List Char} (hAccepted : failure? (String.ofList source) = none)
    (hFits : List.Forall₂ Fits (raws (survey source).pieces) answers) :
    survey ((answered (survey source).pieces answers).flatMap Piece.text) =
      ⟨answered (survey source).pieces answers, none⟩ := by
  rw [failure?, String.toList_ofList] at hAccepted
  obtain ⟨z, hScans, hEnd⟩ := scans_survey source
  obtain ⟨-, hClosed⟩ := hEnd hAccepted
  obtain ⟨rest, hText, hWhole⟩ := survey_text source
  rw [hWhole hAccepted, List.append_nil] at hText
  obtain ⟨z', hScans', hTwins, hDone⟩ :=
    hScans.answered (within_initial source).atQuote hFits hText
      (t := .initial ((answered (survey source).pieces answers).flatMap Piece.text)) rfl rfl rfl
  exact survey_eq hScans' hDone (hTwins.pending hClosed)

/-! ### The output -/

/-- How a literal of the output reads when the literal of the source in its place was answered in this
way: with the same quote, with the same text where no replacement was made, and as the replacement
where one was. -/
structure Span.ReadsBack (source out : List Char) (span : Span) (answer : Option String)
    (found : Span) : Prop where
  quote : found.quote = span.quote
  kept : span.edit? source answer = none → found.text out = span.text source
  replaced : ∀ replacement, answer = some replacement →
    readBack found.quote (out.drop found.start) = some replacement.toList

theorem spansFrom_readsBack {source out rest tail : List Char} {position there : Nat}
    (hText : source.drop position = pieces.flatMap Piece.text ++ rest)
    (hOut : out.drop there = (answered pieces answers).flatMap Piece.text ++ tail)
    (hSound : ∀ piece ∈ pieces, piece.Sound) (hFits : List.Forall₂ Fits (raws pieces) answers) :
    List.Forall₂ (fun asked found => Span.ReadsBack source out asked.1 asked.2 found)
      ((spansFrom position pieces).zip answers) (spansFrom there (answered pieces answers)) := by
  induction pieces generalizing position there answers with
  | nil => exact .nil
  | cons piece pieces ih =>
      obtain ⟨hFirst, hAfter⟩ := drop_piece hText
      obtain ⟨hPiece, hOthers⟩ := List.forall_mem_cons.mp hSound
      cases piece with
      | verbatim text => exact ih hAfter (drop_piece hOut).2 hOthers hFits
      | target quote raw =>
          cases hFits with
          | @cons _ answer _ answers hAnswer hFits =>
              obtain ⟨hOutFirst, hOutAfter⟩ := drop_piece hOut
              rw [length_target] at hAfter hOutAfter
              refine .cons ⟨rfl, fun hKept => ?_, ?_⟩ (ih hAfter hOutAfter hOthers hFits)
              · rw [spanFrom_text hOutFirst, edited_eq (spanFrom_text hFirst), hKept,
                  spanFrom_text hFirst]
                rfl
              · rintro replacement rfl
                have hInside : out.drop (there + 1) =
                    edited quote raw (some replacement) ++ quote ::
                      ((answered pieces answers).flatMap Piece.text ++ tail) := by
                  rw [← List.drop_drop, hOutFirst]
                  simp [Piece.text]
                dsimp only
                rw [hInside]
                exact readBack_edited hPiece.1 hPiece.2 hAnswer

/-- An output is the text of the source's pieces with the answers written in. -/
theorem toList_of_relink {σ : Type} {map : String → StateM σ (Option String)} {source out : String}
    {s : σ} (hOut : ((relink map source).run s).1 = .ok out) :
    failure? source = none ∧ out.toList = (answered (survey source.toList).pieces
      (((raws (survey source.toList).pieces).mapM (ask map)).run s).1).flatMap Piece.text := by
  rw [relink_eq_relinkAll, relinkAll_eq_answered] at hOut
  cases hFailure : failure? source with
  | some e => rw [hFailure] at hOut; cases hOut
  | none =>
      rw [hFailure] at hOut
      refine ⟨rfl, ?_⟩
      rw [← Except.ok.inj hOut, String.toList_ofList]
      rfl

/-- Replaced specifiers read back. For every map, with whatever effects, whose replacements hold no line
end: when relinking a source gives an output, the scan of the output does not fail; it finds as many
targets as the source has, in the same order and with the same quotes. Where a replacement was made, the
literal of the output, read up to its first quote that is not escaped and with the escapes removed, is the
replacement; where none was made, it is the text of the literal of the source, with its escapes. -/
theorem relink_reads_back {σ : Type} {map : String → StateM σ (Option String)} {source out : String}
    {s : σ} (hLines : ∀ specifier s replacement, ((map specifier).run s).1 = some replacement →
      ∀ c ∈ replacement.toList, isLineEnd c = false)
    (hOut : ((relink map source).run s).1 = .ok out) :
    let answers := (((spans source).mapM fun span => ask map (span.text source.toList)).run s).1
    failure? out = none ∧ answers.length = (spans source).length ∧
      List.Forall₂ (fun asked found => asked.1.ReadsBack source.toList out.toList asked.2 found)
        ((spans source).zip answers) (spans out) := by
  intro answers
  obtain ⟨rest, hText, -⟩ := survey_text source.toList
  obtain ⟨hAccepted, hWritten⟩ := toList_of_relink hOut
  obtain ⟨z, hScans, -⟩ := scans_survey source.toList
  have hSound := hScans.sound (within_initial source.toList).atQuote
  have hFits : List.Forall₂ Fits (raws (survey source.toList).pieces) _ :=
    (mapM_ask map _ s).imp fun raw answer ⟨_, hAnswer⟩ => hAnswer ▸ fits_ask fun _ => hLines _ _
  rw [← mapM_spans] at hFits hWritten
  have hSurvey := survey_answered (String.ofList_toList ▸ hAccepted) hFits
  rw [← hWritten] at hSurvey
  refine ⟨congrArg Survey.failure hSurvey, ?_, ?_⟩
  · rw [← hFits.length_eq, ← spansFrom_text 0 hText, List.length_map]
    rfl
  · rw [show spans out = _ from congrArg (spansFrom 0) (congrArg Survey.pieces hSurvey)]
    exact spansFrom_readsBack hText (hWritten.trans (List.append_nil _).symm) hSound hFits

/-- A map that counts its questions and has one replacement, with a quote and a backslash in it. -/
def counting (_ : String) : StateM Nat (Option String) := do
  modify (· + 1)
  pure (some "it's\\")

/-- A replacement with a quote and a backslash reads back, and a target with an escape stays. -/
theorem relink_reads_back_escaped :
    ((relink counting "import 'a'; import 'b\\n';").run 0).1 =
        .ok "import 'it\\'s\\\\'; import 'b\\n';" ∧
      List.Forall₂ (fun (asked : Span × Option String) found =>
          asked.1.ReadsBack "import 'a'; import 'b\\n';".toList
            "import 'it\\'s\\\\'; import 'b\\n';".toList asked.2 found)
        [(⟨'\'', 8, 9⟩, some "it's\\"), (⟨'\'', 20, 23⟩, none)]
        [⟨'\'', 8, 15⟩, ⟨'\'', 26, 29⟩] :=
  have hOut : ((relink counting "import 'a'; import 'b\\n';").run 0).1 =
      .ok "import 'it\\'s\\\\'; import 'b\\n';" := by decide
  have hLines : ∀ specifier s replacement, ((counting specifier).run s).1 = some replacement →
      ∀ c ∈ replacement.toList, isLineEnd c = false := by
    intro specifier s replacement hAnswer c hMem
    have hPlain : "it's\\".toList.all (isLineEnd · = false) = true := by decide
    obtain rfl := Option.some.inj hAnswer
    simpa using List.all_eq_true.mp hPlain c hMem
  ⟨hOut, (relink_reads_back hLines hOut).2.2⟩

end ModuleGateway.Relink
