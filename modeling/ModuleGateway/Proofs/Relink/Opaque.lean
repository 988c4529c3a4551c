import ModuleGateway.Proofs.Relink.Construct
import ModuleGateway.Proofs.Relink.Linking

/-!
The inside of literals and comments does not count. When the scanner of a source has come to the inside
of a string literal that is no target, of a template, of a regular expression or of a comment, any other
text that is closed at the same place may stand there: the source is still accepted, the map is asked for
the same targets in the same order, and the output differs in this text alone.
-/

namespace ModuleGateway.Relink

namespace Scanner

variable {s t u : Scanner}

/-- From here to its end, the source is scanned without a failure, and it becomes this text and what
these pieces become. -/
def ReadsOut (s : Scanner) (text : List Char) (back : List Piece) : Prop :=
  ∃ later z, s.Scans later z ∧ z.ahead = [] ∧ z.pending = none ∧
    ∀ (m : Type → Type) [Monad m] [LawfulMonad m] (map : String → m (Option String)),
      relinkAll map later = (text ++ ·) <$> relinkAll map back

theorem Skips.readsOut {text closer : List Char} {back : List Piece} (h : s.Skips (text ++ closer) t)
    (later : t.Scans back u) (hEnd : u.ahead = []) (hClosed : u.pending = none) :
    s.ReadsOut text (.verbatim closer :: back) := by
  obtain ⟨-, texts, hTexts, hScans⟩ := h
  refine ⟨texts.map .verbatim ++ back, u, hScans.trans later, hEnd, hClosed, fun m _ _ map => ?_⟩
  have hVerbatim (texts : List (List Char)) :
      relinkAll map (texts.map .verbatim) = pure texts.flatten := by
    induction texts with
    | nil => rfl
    | cons text texts ih => simp [relinkAll, Piece.relink, ih]
  rw [relinkAll_append, hVerbatim, hTexts]
  simp only [relinkAll, Piece.relink, pure_bind, bind_pure_comp, Functor.map_map]
  exact congrArg (· <$> relinkAll map back) (funext fun b => List.append_assoc text closer b)

end Scanner

open Scanner

theorem relink_of_readsOut {source text : List Char} {pieces back : List Piece} {s : Scanner}
    (hScan : (Scanner.initial source).Scans pieces s) (hOut : s.ReadsOut text back) :
    failure? (String.ofList source) = none ∧
      ∀ (m : Type → Type) [Monad m] [LawfulMonad m] (map : String → m (Option String)),
        relink map (String.ofList source) = (do
          let a ← relinkAll map pieces
          let b ← relinkAll map back
          pure (.ok (String.ofList (a ++ text ++ b)))) := by
  obtain ⟨later, z, hLater, hEnd, hClosed, hBack⟩ := hOut
  have hSurvey := survey_eq (hScan.trans hLater) hEnd hClosed
  have hAccepted : failure? (String.ofList source) = none := by
    rw [failure?, String.toList_ofList, hSurvey]
  refine ⟨hAccepted, fun m _ _ map => ?_⟩
  rw [relink_eq_relinkAll, hAccepted, String.toList_ofList, hSurvey, relinkAll_append, hBack m map]
  simp

/-- Two scanners that differ only in where they stand, each inside of a construct that `after` closes,
go on in the same way behind the construct. -/
theorem readsOut_twins {source old new after : List Char} {pieces : List Piece} {s t : Scanner}
    (hScan : (Scanner.initial source).Scans pieces s)
    (hAccepted : failure? (String.ofList source) = none) (hTwins : s.Twins t)
    (hQuote : ∀ quote, s.mode = .quoted quote → isQuote quote = true)
    (hHere : s.ahead = old ++ after) (hThere : t.ahead = new ++ after)
    (hOld : s.mode.Holds old after) (hNew : s.mode.Holds new after) :
    ∃ back, back.flatMap Piece.text = after ∧ s.ReadsOut old back ∧ t.ReadsOut new back := by
  have hMode := hTwins.mode
  by_cases hEnds : s.mode = .lineComment ∧ after = []
  · obtain ⟨hComment, rfl⟩ := hEnds
    rw [List.append_nil] at hHere hThere
    obtain ⟨z, hSkips, hEnd, hPending⟩ := hOld.ends hComment hHere
    obtain ⟨z', hSkips', hEnd', hPending'⟩ :=
      (hMode ▸ hNew : t.mode.Holds new []).ends (hMode ▸ hComment) hThere
    -- At the end of the source nothing is left to scan.
    have hClosed : z.pending = none := by
      obtain ⟨texts, -, hTexts⟩ := hSkips.2
      obtain ⟨back, e, hBack, -, hClosed⟩ := scans_of_accepted (hScan.trans hTexts) hAccepted
      cases hBack with
      | refl => exact hClosed
      | step hAhead => rw [hEnd] at hAhead; cases hAhead
    have hClosed' : z'.pending = none := hPending'.trans (hTwins.pending (hPending.symm.trans hClosed))
    rw [← List.append_nil old] at hSkips
    rw [← List.append_nil new] at hSkips'
    exact ⟨[.verbatim []], rfl, hSkips.readsOut (.refl z) hEnd hClosed,
      hSkips'.readsOut (.refl z') hEnd' hClosed'⟩
  · have hMore (hComment : s.mode = .lineComment) : after ≠ [] := fun hNil => hEnds ⟨hComment, hNil⟩
    obtain ⟨rest, hRest⟩ := hOld.split hMore
    obtain ⟨z, hSkips, hClosed⟩ := hOld.closes hMore hHere
    obtain ⟨z', hSkips', hClosed'⟩ :=
      (hMode ▸ hNew : t.mode.Holds new after).closes (hMode ▸ hMore) hThere
    rw [hMode] at hSkips' hClosed'
    have hAhead : z.ahead = rest := by
      have hSame := hSkips.1.ahead.symm.trans (hHere.trans (congrArg (old ++ ·) hRest))
      rw [List.append_assoc] at hSame
      exact List.append_cancel_left (List.append_cancel_left hSame)
    have hAhead' : z'.ahead = rest := by
      have hSame := hSkips'.1.ahead.symm.trans (hThere.trans (congrArg (new ++ ·) hRest))
      rw [List.append_assoc] at hSame
      exact List.append_cancel_left (List.append_cancel_left hSame)
    have hAbreast : Abreast [] [] z z' := by
      refine ⟨hClosed.symm.trans ((hTwins.closed _).trans hClosed'), ?_, rest, ?_, ?_⟩
      · rw [hSkips.1.behind, hSkips'.1.behind, List.reverse_append, List.reverse_append,
          List.append_assoc, List.append_assoc]
        exact dots_closer hOld hQuote _ _
      · rw [hAhead, List.append_nil]
      · rw [hAhead', List.append_nil]
    obtain ⟨texts, -, hTexts⟩ := hSkips.2
    have hToZ := hScan.trans hTexts
    have hWithin := (hToZ.within (within_initial source)).1
    obtain ⟨back, e, hBack, hEnd, hDone⟩ := scans_of_accepted hToZ hAccepted
    obtain ⟨e', hBack', hEndAbreast⟩ :=
      hBack.abreast hWithin.atQuote hAbreast parting_nil (Nat.zero_le _)
    have hEnd' : e'.ahead = [] := by
      obtain ⟨u, hLeft, hRight⟩ := hEndAbreast.ahead
      rw [hRight, ← hLeft, hEnd]
    refine ⟨.verbatim (s.mode.closer after) :: back, ?_, hSkips.readsOut hBack hEnd hDone,
      hSkips'.readsOut hBack' hEnd' (hEndAbreast.twins.pending hDone)⟩
    have hText := (hBack.within hWithin).2.ahead
    rw [hEnd, List.append_nil, hAhead] at hText
    rw [List.flatMap_cons, ← hText]
    exact hRest.symm

/-- What stands inside of a literal or a comment does not count. The scan of an accepted source has come
to the inside of a string literal that is no target, of a chunk of a template, of a regular expression or
of a comment. When another text is held there in the same way, so that what closed the old text closes the
new one, then the source with the new text is accepted too, the same targets are asked for, in the same
order, and the output holds the new text where it held the old one: for every map, with whatever effects,
what becomes of the text before and of the text behind is the same. A regular expression may neither be
empty nor start with a star, for then it would be a comment. -/
theorem relink_inside {before old new after : List Char} {pieces : List Piece} {s : Scanner}
    (hScan : (Scanner.initial (before ++ old ++ after)).Scans pieces s)
    (hHere : s.ahead = old ++ after) (hOld : s.mode.Holds old after) (hNew : s.mode.Holds new after)
    (hRegex : s.mode = .regex → new ≠ [] ∧ new.head? ≠ some '*')
    (hAccepted : failure? (String.ofList (before ++ old ++ after)) = none) :
    failure? (String.ofList (before ++ new ++ after)) = none ∧
    asked (String.ofList (before ++ new ++ after)) = asked (String.ofList (before ++ old ++ after)) ∧
    ∃ back : List Piece,
      pieces.flatMap Piece.text = before ∧ back.flatMap Piece.text = after ∧
      ∀ text ∈ [old, new], ∀ (m : Type → Type) [Monad m] [LawfulMonad m]
        (map : String → m (Option String)),
        relink map (String.ofList (before ++ text ++ after)) = (do
          let a ← relinkAll map pieces
          let b ← relinkAll map back
          pure (.ok (String.ofList (a ++ text ++ b)))) := by
  have hInitial := within_initial (before ++ old ++ after)
  have hText := (hScan.within hInitial).2.ahead
  have hBefore : pieces.flatMap Piece.text = before := by
    rw [hHere] at hText
    exact List.append_cancel_right (hText.symm.trans (List.append_assoc before old after))
  -- The scanner has come here by a step that opens a construct. Up to this step both scans agree.
  obtain ⟨front, r, opener, rfl, hFront, hCode, hOpens, hOpened⟩ :=
    hScan.opening hInitial.atQuote rfl (fun hMode => by rw [hMode] at hOld; exact hOld)
      (fun hMode => by rw [hMode] at hOld; exact hOld)
  rw [hHere] at hOpened
  obtain ⟨c, tail, rfl, hOpener⟩ := hOpens.isOpener
  have hSource (text : List Char) :
      before ++ text ++ after = front.flatMap Piece.text ++ (c :: (tail ++ (text ++ after))) := by
    rw [← hBefore, List.flatMap_append]
    simp [Piece.text]
  have hParting := parting_cons hOpener (tail ++ (old ++ after)) (tail ++ (new ++ after))
  have hStart : Abreast (c :: (tail ++ (old ++ after))) (c :: (tail ++ (new ++ after)))
      (Scanner.initial (before ++ old ++ after)) (Scanner.initial (before ++ new ++ after)) :=
    ⟨rfl, rfl, _, hSource old, hSource new⟩
  obtain ⟨r', hFront', hAbreast⟩ :=
    hFront.abreast hInitial.atQuote hStart hParting (Nat.le_of_eq (congrArg List.length hOpened).symm)
  have hOpened' : r'.ahead = (c :: tail) ++ (new ++ after) := by
    obtain ⟨u, hLeft, hRight⟩ := hAbreast.ahead
    have hNone : u = [] := List.append_left_eq_self.mp (hLeft.symm.trans hOpened)
    rw [hRight, hNone]
    rfl
  obtain ⟨s', hOpens', hTwins⟩ := hOpens.twin hAbreast.twins
  have hThere : s'.ahead = new ++ after :=
    List.append_cancel_left ((hOpens'.passes hOpened').ahead.symm.trans hOpened')
  have hScan' : (Scanner.initial (before ++ new ++ after)).Scans
      (front ++ [.verbatim (c :: tail)]) s' := by
    refine hFront'.trans (hOpens'.scans (hAbreast.twins.mode.trans hCode) hOpened' fun hMode => ?_)
    rw [hTwins.mode] at hMode
    obtain ⟨hSome, hStar⟩ := hRegex hMode
    exact regex_head (hMode ▸ hNew) hSome hStar
  obtain ⟨back, hBack, hOut, hOut'⟩ := readsOut_twins hScan hAccepted hTwins
    (fun quote hMode => hOpens.quote hMode) hHere hThere hOld hNew
  obtain ⟨-, hRelink⟩ := relink_of_readsOut hScan hOut
  obtain ⟨hAccepted', hRelink'⟩ := relink_of_readsOut hScan' hOut'
  refine ⟨hAccepted', ?_, back, hBefore, hBack, ?_⟩
  · rw [← relink_recording (fun _ => none), ← relink_recording (fun _ => none), hRelink, hRelink']
    rfl
  · intro text hMem m _ _ map
    rcases List.mem_cons.mp hMem with rfl | hMem
    · exact hRelink m map
    · obtain rfl := List.mem_singleton.mp hMem
      exact hRelink' m map

/-- A template may hold what looks like an import. -/
theorem asked_beside_template :
    asked (String.ofList (['\x60'] ++ "import 'b'".toList ++ "\x60; import 'c'".toList)) = ["c"] :=
  (relink_inside (.single rfl rfl :
      (Scanner.initial (['\x60'] ++ ['a'] ++ "\x60; import 'c'".toList)).Scans
        [.verbatim ['\x60']] ((Scanner.initial _).openWith 1 .template))
    rfl ⟨.closed, by decide⟩ ⟨.closed, by decide⟩ (by decide) (by decide)).2.1.trans (by decide)

end ModuleGateway.Relink
