import ModuleGateway.Proofs.Relink.Members
import ModuleGateway.Proofs.Relink.Remarks

/-!
Scripts without imports. Quiet code is made of blanks, signs, string literals on one line, and words other
than the two that a target may follow. The scanner reads all of it verbatim and is back in code behind it,
so no map is asked and relinking gives the script back as it is. A text is checked to be quiet in front of
what follows it, so that fixed stretches of code and literals of any text can be put one behind the other.
-/

namespace ModuleGateway.Relink.Concrete

variable {c : Char} {text rest : List Char} {s : Scanner} {f g : Frame}

/-- Code in which nothing is a target. -/
inductive Quiet : List Char → Prop where
  | nil : Quiet []
  | blank {c : Char} {rest : List Char} (hBlank : isBlank c = true) (later : Quiet rest) : Quiet (c :: rest)
  | sign {c : Char} {rest : List Char} (hSign : c = '.' ∨ c ∈ signs) (later : Quiet rest) :
      Quiet (c :: rest)
  /-- Two pluses without a gap would be one token. -/
  | plus {rest : List Char} (hOnce : rest.head? ≠ some '+') (later : Quiet rest) : Quiet ('+' :: rest)
  | word {rest : List Char} (w : Word) (hImport : w.text ≠ importWord.text)
      (hFrom : w.text ≠ fromWord.text) (hEnds : Ends rest) (later : Quiet rest) : Quiet (w.text ++ rest)
  | string {rest : List Char} (l : Literal) (later : Quiet rest) : Quiet (l.text ++ rest)

/-! ### Reading -/

/-- The scanner stands in code, outside of all substitutions. -/
structure InCode (s : Scanner) : Prop where
  mode : s.mode = .code
  substitutions : s.substitutions = []

/-- Wherever the scanner stands in code in front of the text, it reads it verbatim and is back in code. -/
def Verbatim (text rest : List Char) : Prop :=
  ∀ s, InCode s → s.ahead = text ++ rest →
    ∃ read t, s.Scans read t ∧ read.flatMap Piece.marks = plain text ∧ InCode t ∧ t.ahead = rest

theorem verbatim_of_leads (h : ∀ f : Frame, f.mode = .code → f.substitutions = [] →
      ∃ g : Frame, Leads f (text ++ rest) (plain text) g rest ∧ g.mode = .code ∧ g.substitutions = []) :
    Verbatim text rest := by
  intro s hCode hAhead
  obtain ⟨g, hLeads, hMode, hOuter⟩ := h s.frame hCode.mode hCode.substitutions
  obtain ⟨read, t, hScans, hRead, hThere⟩ := hLeads s (hAhead ▸ s.frame_holds)
  exact ⟨read, t, hScans, hRead, ⟨hThere.mode.trans hMode, hThere.substitutions.trans hOuter⟩,
    hThere.ahead⟩

/-- Behind a word that announces no target, the scanner is in code. -/
theorem inCode_word {letters : List Char} (hLetters : s.ahead.takeWhile isWordPart = letters)
    (hImport : letters ≠ importWord.text) (hFrom : letters ≠ fromWord.text) (hCode : InCode s) :
    s.MovesBy letters.length s.word ∧ InCode s.word := by
  have hOther (text : List Char) (h : letters ≠ text) : String.ofList letters ≠ String.ofList text :=
    fun hSame => h (String.ofList_injective hSame)
  have hNoImport : String.ofList letters ≠ "import" := hOther importWord.text hImport
  have hNoFrom : String.ofList letters ≠ "from" := hOther fromWord.text hFrom
  unfold Scanner.word
  simp only [hLetters, hNoImport, hNoFrom, if_false, decide_false, Bool.false_and, Bool.false_eq_true]
  split_ifs
  · exact ⟨⟨rfl, rfl, rfl⟩, hCode.mode, hCode.substitutions⟩
  · rw [Scanner.exportWord_eq]
    split_ifs <;> exact ⟨⟨rfl, rfl, rfl⟩, hCode.mode, hCode.substitutions⟩
  all_goals exact ⟨⟨rfl, rfl, rfl⟩, hCode.mode, hCode.substitutions⟩

theorem verbatim_word (w : Word) (hImport : w.text ≠ importWord.text) (hFrom : w.text ≠ fromWord.text)
    (hEnds : Ends rest) : Verbatim w.text rest := by
  intro s hCode hAhead
  obtain ⟨move, hThere⟩ :=
    inCode_word (by rw [hAhead, w.letters hEnds]) hImport hFrom hCode
  obtain ⟨hPasses, texts, hTexts, hScans⟩ : s.Skips w.text s.word := by
    refine Scanner.skips_of_step (by simp [hAhead, Word.text]) hAhead move fun d tail hHere => ?_
    obtain ⟨rfl, -⟩ := List.cons.inj (hAhead.symm.trans hHere)
    simp only [Scanner.step, hCode.mode, code_word w.start]
  exact ⟨texts.map .verbatim, s.word, hScans, by rw [flatMap_marks, hTexts], hThere,
    List.append_cancel_left (hPasses.ahead.symm.trans hAhead)⟩

/-- The scanner reads quiet code verbatim up to its end. -/
theorem Quiet.verbatim (h : Quiet text) : Verbatim text [] := by
  -- One token, and then the rest by what is known of it.
  have hToken (first : List Char) {later : List Char} (left : Verbatim first later)
      (right : Verbatim later []) : Verbatim (first ++ later) [] := by
    intro s hCode hAhead
    obtain ⟨read, t, hScans, hRead, hThere, hLater⟩ := left s hCode (by simpa using hAhead)
    obtain ⟨read', u, hScans', hRead', hEnd, hNone⟩ := right t hThere (by simpa using hLater)
    exact ⟨read ++ read', u, hScans.trans hScans',
      by rw [List.flatMap_append, hRead, hRead', plain_append], hEnd, hNone⟩
  induction h with
  | nil => exact verbatim_of_leads fun f hCode hOuter => ⟨f, .refl f [], hCode, hOuter⟩
  | blank hBlank later ih =>
      exact hToken [_] (verbatim_of_leads fun f hCode hOuter =>
        ⟨f, leads_gap ⟨[_], by simpa using hBlank⟩ hCode, hCode, hOuter⟩) ih
  | sign hSign later ih =>
      refine hToken [_] (verbatim_of_leads fun f hCode hOuter => ?_) ih
      rcases hSign with rfl | hSign
      · exact ⟨_, leads_dot hCode, hCode, hOuter⟩
      · obtain ⟨braces, hLeads⟩ := leads_sign hSign hCode hOuter
        exact ⟨_, hLeads, hCode, hOuter⟩
  | plus hOnce later ih =>
      exact hToken ['+'] (verbatim_of_leads fun f hCode hOuter =>
        ⟨_, leads_pluses hCode hOnce 1, hCode, hOuter⟩) ih
  | word w hImport hFrom hEnds later ih => exact hToken _ (verbatim_word w hImport hFrom hEnds) ih
  | string l later ih =>
      exact hToken _ (verbatim_of_leads fun f hCode hOuter =>
        ⟨_, leads_literal l hCode, hCode, hOuter⟩) ih

/-- Relinking quiet code asks no map and changes nothing. -/
theorem relink_of_quiet {source : String} (h : Quiet source.toList) {m : Type → Type} [Monad m]
    [LawfulMonad m] (map : String → m (Option String)) : relink map source = pure (.ok source) := by
  obtain ⟨read, t, hScans, hRead, hEnd, hNone⟩ :=
    h.verbatim (Scanner.initial source.toList) ⟨rfl, rfl⟩ (List.append_nil _).symm
  have hClosed : t.pending = none := by
    rw [Scanner.pending, hEnd.mode, hEnd.substitutions]
    rfl
  have hSurvey := survey_eq hScans hNone hClosed
  rw [relink_eq_relinkAll, failure?, hSurvey]
  dsimp only
  rw [← relinkAll_marks, hRead, relinkAll_plain, pure_bind, String.ofList_toList]

/-! ### Checking -/

/-- Whether a text is quiet code in front of whatever is quiet. Every token has at least one character. -/
def isQuietFor : Nat → List Char → Bool
  | _, [] => true
  | 0, _ :: _ => false
  | fuel + 1, c :: rest =>
    if isBlank c || c = '.' || signs.contains c then isQuietFor fuel rest
    else if c = '+' then rest.head?.any (· ≠ '+') && isQuietFor fuel rest
    else if c = '"' then
      match stringBody '"' rest with
      | some body => isQuietFor fuel (rest.drop (body.length + 1))
      | none => false
    else
      let letters := c :: rest.takeWhile isWordPart
      isWordStart c && letters ≠ importWord.text && letters ≠ fromWord.text &&
        isQuietFor fuel (rest.dropWhile isWordPart)

/-- A checked text may stand in front of quiet code that no word of the text goes on with. -/
theorem quiet_append (fuel : Nat) (text : List Char) (h : isQuietFor fuel text = true)
    (hEnds : Ends rest) (later : Quiet rest) : Quiet (text ++ rest) := by
  fun_induction isQuietFor fuel text with
  | case1 => exact later
  | case2 => cases h
  | case3 fuel c text hSingle ih =>
      simp only [Bool.or_eq_true, decide_eq_true_eq, List.contains_iff_mem] at hSingle
      rcases hSingle with (hBlank | hDot) | hSign
      · exact .blank hBlank (ih h)
      · exact .sign (.inl hDot) (ih h)
      · exact .sign (.inr hSign) (ih h)
  | case4 fuel text hSingle ih =>
      obtain ⟨hOnce, hText⟩ := Bool.and_eq_true_iff.mp h
      refine .plus ?_ (ih hText)
      cases text with
      | nil => cases hOnce
      | cons d text => simpa using hOnce
  | case5 fuel text body hBody hSingle hPlus ih =>
      obtain ⟨hInside, behind, rfl⟩ := inside_of_stringBody hBody
      have hDrop : (body ++ '"' :: behind).drop (body.length + 1) = behind := by
        rw [← List.drop_drop, List.drop_left]
        rfl
      rw [hDrop] at h ih
      simpa [Literal.text] using Quiet.string ⟨'"', body, rfl, hInside⟩ (ih h)
  | case6 => cases h
  | case7 fuel c text hSingle hPlus hQuote letters ih =>
      simp only [Bool.and_eq_true, decide_eq_true_eq] at h
      obtain ⟨⟨⟨hStart, hImport⟩, hFrom⟩, hText⟩ := h
      let w : Word := ⟨c, text.takeWhile isWordPart, hStart, fun d hd => List.mem_takeWhile_imp hd⟩
      have hBehind : Ends (text.dropWhile isWordPart ++ rest) := by
        cases hDrop : text.dropWhile isWordPart with
        | nil => exact hEnds
        | cons d behind =>
            have hFirst := List.head?_dropWhile_not isWordPart text
            rw [hDrop] at hFirst
            exact ends_cons (by simpa using hFirst)
      have hQuiet : Quiet (w.text ++ (text.dropWhile isWordPart ++ rest)) :=
        .word w hImport hFrom hBehind (ih hText)
      rwa [← List.append_assoc, show w.text ++ text.dropWhile isWordPart = c :: text from
        congrArg (c :: ·) List.takeWhile_append_dropWhile] at hQuiet

end ModuleGateway.Relink.Concrete
