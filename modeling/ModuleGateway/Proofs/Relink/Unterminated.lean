import ModuleGateway.Proofs.Relink.Regexes

/-!
Where an error points. A refused source has a construct that is never closed, and the error of a string
literal, a block comment or a regular expression points to where it opens. A template may go on behind
other literals: its error points to what opened last, which is its backtick only if nothing has opened
since.
-/

namespace ModuleGateway.Relink

open Text

theorem not_infix_of_blockBody {text : List Char} (h : blockBody text = none) :
    ¬['*', '/'] <:+: text := by
  fun_induction blockBody text with
  | case1 => simp
  | case2 => cases h
  | case3 c rest hEnd ih =>
      rw [List.infix_cons_iff]
      rintro (hHere | hLater)
      · obtain ⟨tail, hTail⟩ := hHere
        obtain ⟨rfl, rfl⟩ := List.cons.inj hTail
        exact hEnd tail rfl rfl
      · exact ih (Option.map_eq_none_iff.mp h) hLater

theorem never_of_stringBody {quote : Char} {rest body tail : List Char} (hQuote : isQuote quote = true)
    (hOpen : stringBody quote rest = none) (hInside : Inside quote body) : rest ≠ body ++ quote :: tail := by
  rintro rfl
  rw [stringBody_of_inside hQuote hInside] at hOpen
  cases hOpen

theorem never_of_regexBody {rest body tail : List Char} (hOpen : regexBody false rest = none)
    (hPattern : Pattern false body) : rest ≠ body ++ '/' :: tail := by
  rintro rfl
  rw [regexBody_of_pattern hPattern] at hOpen
  cases hOpen

namespace Scanner

/-- A construct of this kind opens right in front of the scanner, and the source never closes it. A
template closes when the scanner comes back to code with the same substitutions open. -/
inductive LeavesOpen (r : Scanner) : Construct → Prop where
  | string {quote : Char} {rest : List Char} (hHere : r.mode = .code ∨ r.mode = .target)
      (hAhead : r.ahead = quote :: rest) (hQuote : isQuote quote = true)
      (hNever : ∀ body tail, Inside quote body → rest ≠ body ++ quote :: tail) : LeavesOpen r .string
  | template {rest : List Char} (hCode : r.mode = .code) (hAhead : r.ahead = '\x60' :: rest)
      (hNever : ∀ inner t, (r.openWith 1 .template).Scans inner t → t.mode = .code →
        t.substitutions ≠ r.substitutions) : LeavesOpen r .template
  | blockComment {rest : List Char} (hCode : r.mode = .code) (hAhead : r.ahead = '/' :: '*' :: rest)
      (hNever : ¬['*', '/'] <:+: rest) : LeavesOpen r .blockComment
  | regex {rest : List Char} (hCode : r.mode = .code) (hPrior : r.prior ≠ .operand)
      (hAhead : r.ahead = '/' :: rest)
      (hNever : ∀ body tail, Pattern false body → rest ≠ body ++ '/' :: tail) : LeavesOpen r .regex

/-- Neither inside of a literal or a block comment, nor in front of a template. -/
def Quiet (u : Scanner) : Prop :=
  u.mode = .template ∨ u.mode = .lineComment ∨ u.mode = .code ∧ u.ahead.head? ≠ some '\x60'

/-- Behind the backtick in front of `r`, no other literal and no block comment opens. -/
def Undisturbed (r : Scanner) : Prop :=
  ∀ inner u, (r.openWith 1 .template).Scans inner u → u.Quiet

variable {r s t u : Scanner} {c : Char} {rest : List Char} {piece : Piece} {p : List Piece}
  {e : Unterminated} {outer : List Nat} {source : List Char}

theorem LeavesOpen.ahead {construct : Construct} (h : r.LeavesOpen construct) : r.ahead ≠ [] := by
  cases h <;> simp_all

/-! ### Constructs that are read in one step -/

/-- A scan that fails in or in front of a string literal, a block comment or a regular expression has come
to where it opens. -/
theorem Breaks.leavesOpen (h : t.Breaks e) (hTemplate : e.construct ≠ .template)
    (hScan : (initial source).Scans p t) :
    ∃ front r, (initial source).Scans front r ∧ r.offset = e.offset ∧ r.LeavesOpen e.construct := by
  have hOpening (hCode : t.mode ≠ .code) (hTarget : t.mode ≠ .target) :=
    hScan.opening (within_initial source).atQuote rfl hCode hTarget
  cases h with
  | @quoted quote hMode hOpen =>
      obtain ⟨front, r, opener, -, hFront, hCode, hOpens, hAhead⟩ :=
        hOpening (by simp [hMode]) (by simp [hMode])
      have hQuote := hOpens.quote hMode
      cases hOpens with
      | quoted =>
          obtain rfl := Mode.quoted.inj hMode
          exact ⟨front, r, hFront, rfl,
            .string (.inl hCode) hAhead hQuote fun _ _ => never_of_stringBody hQuote hOpen⟩
      | template | resumed | lineComment | blockComment | regex => cases hMode
  | @target quote rest hMode hAhead hQuote hOpen =>
      exact ⟨p, t, hScan, rfl,
        .string (.inr hMode) hAhead hQuote fun _ _ => never_of_stringBody hQuote hOpen⟩
  | blockComment hMode hOpen =>
      obtain ⟨front, r, opener, -, hFront, hCode, hOpens, hAhead⟩ :=
        hOpening (by simp [hMode]) (by simp [hMode])
      cases hOpens with
      | blockComment =>
          exact ⟨front, r, hFront, rfl, .blockComment hCode hAhead (not_infix_of_blockBody hOpen)⟩
      | quoted | template | resumed | lineComment | regex => cases hMode
  | regex hMode hOpen =>
      obtain ⟨front, r, opener, -, hFront, hCode, hOpens, hAhead⟩ :=
        hOpening (by simp [hMode]) (by simp [hMode])
      cases hOpens with
      | regex hPrior =>
          exact ⟨front, r, hFront, rfl, .regex hCode hPrior hAhead fun _ _ => never_of_regexBody hOpen⟩
      | quoted | template | resumed | lineComment | blockComment => cases hMode
  | template | substitution => exact absurd rfl hTemplate

/-! ### Templates -/

/-- The scanner stands inside of a template that opened when these substitutions were open. -/
def Under (outer : List Nat) (t : Scanner) : Prop :=
  ∃ inner, t.substitutions = inner ++ outer ∧ (inner = [] → t.mode = .template)

theorem Under.of_same (h : t.Under outer) (hSame : t.substitutions = s.substitutions)
    (hMode : t.mode ≠ .template) : s.Under outer := by
  obtain ⟨inner, hInner, hEmpty⟩ := h
  exact ⟨inner, hSame ▸ hInner, fun hNone => absurd (hEmpty hNone) hMode⟩

/-- A step comes to the inside of a template from its inside or from its backtick. -/
theorem Under.before (h : t.Under outer) (hAhead : s.ahead = c :: rest)
    (hStep : s.step c rest = .ok (piece, t)) :
    s.Under outer ∨ s.mode = .code ∧ c = '\x60' ∧ s.substitutions = outer ∧ t = s.openWith 1 .template := by
  by_cases hCode : s.mode = .code
  · cases turn_of_step hCode hAhead hStep with
    | continues hOn =>
        have hMode : t.mode ≠ .template := by
          rcases hOn.mode with hMode | hMode <;> simp [hMode, hCode]
        exact .inl (h.of_same hOn.substitutions hMode)
    | opens hOpens hOpener =>
        obtain ⟨inner, hInner, hEmpty⟩ := h
        cases hOpens with
        | quoted | lineComment | blockComment | regex =>
            exact .inl ⟨inner, hInner, fun hNone => by cases hEmpty hNone⟩
        | resumed hDepth =>
            refine .inl ⟨s.braces :: inner, ?_, fun hNone => by cases hNone⟩
            rw [hDepth, List.cons_append]
            exact congrArg _ hInner
        | template =>
            obtain ⟨rfl, -⟩ := List.cons.inj (hAhead.symm.trans hOpener)
            by_cases hNone : inner = []
            · subst hNone
              exact .inr ⟨hCode, rfl, hInner, rfl⟩
            · exact .inl ⟨inner, hInner, fun hNil => absurd hNil hNone⟩
    | openParen | closeParen => exact .inl (h.of_same rfl (by simp [token, closeParen, advance, hCode]))
  · have hNext := (step_eq_ok_iff.mp hStep).mode hCode
    obtain ⟨inner, hInner, hEmpty⟩ := h
    have hSome : inner ≠ [] := fun hNone => by simp [hEmpty hNone] at hNext
    left
    cases step_eq_ok_iff.mp hStep with
    | code hMode => exact absurd hMode hCode
    | substitution hTemplate =>
        obtain ⟨depth, inner, rfl⟩ := List.exists_cons_of_ne_nil hSome
        exact ⟨inner, (List.cons.inj hInner).2, fun _ => hTemplate⟩
    | quoted | template | lineComment | blockComment | regex | target =>
        exact ⟨inner, hInner, fun hNone => absurd hNone hSome⟩

/-- Where a scan ends inside of a template, it has stayed there since it started, or since it has come to
the backtick. -/
theorem Under.since (h : t.Under outer) (hFails : t.Fails e) (hScan : s.Scans p t) :
    (∀ q u, s.Scans q u → u.Under outer) ∨
      ∃ front r rest, s.Scans front r ∧ r.mode = .code ∧ r.ahead = '\x60' :: rest ∧
        r.substitutions = outer ∧ ∀ q u, (r.openWith 1 .template).Scans q u → u.Under outer := by
  induction hScan with
  | refl s =>
      refine .inl fun q u hOn => ?_
      rw [hFails.last hOn]
      exact h
  | @step s next t c rest piece p hAhead hStep later ih =>
      rcases ih h hFails with hStays | ⟨front, r, tail, hFront, hOpens⟩
      · rcases (hStays [] next (.refl next)).before hAhead hStep with hUnder | ⟨hCode, rfl, hOuter, rfl⟩
        · refine .inl fun q u hOn => ?_
          cases hOn with
          | refl => exact hUnder
          | step hAhead' hStep' later' =>
              obtain ⟨rfl, rfl⟩ := List.cons.inj (hAhead.symm.trans hAhead')
              obtain ⟨-, rfl⟩ := Prod.mk.inj (Except.ok.inj (hStep.symm.trans hStep'))
              exact hStays _ u later'
        · exact .inr ⟨[], s, rest, .refl s, hCode, hAhead, hOuter, hStays⟩
      · exact .inr ⟨piece :: front, r, tail, .step hAhead hStep hFront, hOpens⟩

/-- When the scan of a source fails inside of a template, a template is never closed. -/
theorem Under.leavesOpen (h : t.Under outer) (hFails : t.Fails e) (hScan : (initial source).Scans p t) :
    ∃ front r, (initial source).Scans front r ∧ r.LeavesOpen .template := by
  rcases h.since hFails hScan with hStays | ⟨front, r, rest, hFront, hCode, hAhead, rfl, hStays⟩
  · obtain ⟨inner, hInner, hEmpty⟩ := hStays [] _ (.refl _)
    have hNone := List.append_eq_nil_iff.mp (show inner ++ outer = [] from hInner.symm)
    cases hEmpty hNone.1
  · refine ⟨front, r, hFront, .template hCode hAhead fun q u hOn hMode hSame => ?_⟩
    obtain ⟨inner, hInner, hEmpty⟩ := hStays q u hOn
    have hNone : inner = [] := List.append_left_eq_self.mp (hInner.symm.trans hSame)
    rw [hEmpty hNone] at hMode
    cases hMode

theorem Breaks.under (h : t.Breaks e) (hTemplate : e.construct = .template) : ∃ outer, t.Under outer := by
  cases h with
  | template hMode => exact ⟨t.substitutions, [], rfl, fun _ => hMode⟩
  | substitution _ _ hOpen =>
      obtain ⟨depth, outer, hSubstitutions⟩ := List.exists_cons_of_ne_nil hOpen
      exact ⟨outer, [depth], hSubstitutions, fun hNone => by cases hNone⟩
  | quoted | target | blockComment | regex => cases hTemplate

/-! ### What opens behind a backtick -/

theorem LeavesOpen.opens (h : r.LeavesOpen .template) :
    r.Scans [.verbatim ['\x60']] (r.openWith 1 .template) ∧
      r.offset < (r.openWith 1 .template).offset := by
  cases h with
  | template hCode hAhead =>
      refine ⟨Opens.template.scans hCode hAhead (fun hMode => by cases hMode), ?_⟩
      show r.offset < r.offset + utf8Length (r.ahead.take 1)
      exact Nat.lt_add_of_pos_right (utf8Length_pos (by simp [hAhead]))

theorem Breaks.named (h : t.Breaks e) (hTemplate : e.construct = .template) : e.offset = t.opened := by
  cases h with
  | template | substitution => rfl
  | quoted | target | blockComment | regex => cases hTemplate

/-- What opened last opened in front of the scan, or where the scan has been. -/
theorem Scans.openedAt (h : s.Scans p t) :
    t.opened = s.opened ∨ ∃ front r, s.Scans front r ∧ t.opened = r.offset ∧ r.ahead ≠ [] := by
  induction h with
  | refl => exact .inl rfl
  | @step s next t c rest piece p hAhead hStep later ih =>
      rcases ih with hSame | ⟨front, r, hFront, hHere⟩
      · rcases step_opened hAhead hStep with hBefore | hNow
        · exact .inl (hSame.trans hBefore)
        · exact .inr ⟨[], s, .refl s, hSame.trans hNow, by simp [hAhead]⟩
      · exact .inr ⟨piece :: front, r, .step hAhead hStep hFront, hHere⟩

/-- Between quiet states nothing opens. -/
theorem Quiet.step (h : s.Quiet) (hNext : t.Quiet) (hAhead : s.ahead = c :: rest)
    (hStep : s.step c rest = .ok (piece, t)) : t.opened = s.opened := by
  rcases h with hMode | hMode | ⟨hCode, hTick⟩
  · simp only [Scanner.step, hMode] at hStep
    split at hStep
    · cases hStep; rfl
    · cases hStep; rfl
    · cases hStep
  · simp only [Scanner.step, hMode] at hStep
    cases hStep
    rfl
  · cases turn_of_step hCode hAhead hStep with
    | continues hOn => exact hOn.opened
    | opens hOpens hOpener =>
        cases hOpens with
        | resumed | lineComment => rfl
        | template => exact absurd (by rw [hOpener]; rfl) hTick
        | quoted | blockComment | regex => simp [Quiet, openWith] at hNext
    | openParen | closeParen => rfl

theorem Scans.quiet (h : s.Scans p t) (hQuiet : ∀ q u, s.Scans q u → u.Quiet) : t.opened = s.opened := by
  induction h with
  | refl => rfl
  | @step s next t c rest piece p hAhead hStep later ih =>
      have hLater (q : List Piece) (u : Scanner) (hOn : next.Scans q u) : u.Quiet :=
        hQuiet _ u (.step hAhead hStep hOn)
      rw [ih hLater]
      exact (hQuiet [] s (.refl s)).step (hLater [] next (.refl next)) hAhead hStep

theorem Scans.opened_ge {n : Nat} (h : s.Scans p t) (hQuote : s.AtQuote) (hOffset : n ≤ s.offset)
    (hOpened : n ≤ s.opened) : n ≤ t.opened := by
  rcases h.opened hQuote with hSame | hLater <;> omega

/-- When the scan has been somewhere that is not quiet and then fails inside of a template, what opened
last opened on the way. -/
theorem opened_of_loud {q : List Piece} (hHere : s.Scans q u) (hQuote : s.AtQuote)
    (hTemplate : s.mode = .template) (hLoud : ¬u.Quiet) (hEnd : u.Scans p t) (hBreaks : t.Breaks e)
    (hNamed : e.construct = .template) : s.offset ≤ t.opened := by
  have hAt := hHere.atQuote hQuote
  have hOffset : s.offset ≤ u.offset := (hHere.offset hQuote).symm ▸ Nat.le_add_right _ _
  by_cases hOpens : u.mode = .code ∨ u.mode = .target
  · -- The next step opens a template, or reads a target.
    have hOther : u ≠ t := by
      rintro rfl
      cases hBreaks with
      | template hMode => simp [hMode] at hOpens
      | substitution hMode hNone => simp_all [Quiet]
      | quoted | target | blockComment | regex => cases hNamed
    cases hEnd with
    | refl => exact absurd rfl hOther
    | @step _ next _ c rest piece _ hAhead hStep later =>
        have hOpened : next.opened = u.offset := by
          rcases hOpens with hMode | hMode
          · have hTick : c = '\x60' := by
              by_contra hTick
              exact hLoud (.inr (.inr ⟨hMode, by simpa [hAhead] using hTick⟩))
            subst hTick
            simp only [Scanner.step, hMode] at hStep
            obtain ⟨-, rfl⟩ := Prod.mk.inj (Except.ok.inj hStep)
            simp [code, isQuote, openWith]
          · simp only [Scanner.step, hMode] at hStep
            split at hStep
            · cases hStep
              rfl
            · cases hStep
        have hNext := step_offset hAhead hAt hStep
        exact later.opened_ge (step_passes hAhead hAt hStep).2.1 (by omega) (by omega)
  · have hNot (mode : Mode) (hMode : u.mode = mode) (hQuiet : mode = .template ∨ mode = .lineComment) :
        False := hLoud (hQuiet.elim (fun h => .inl (hMode.trans h)) fun h => .inr (.inl (hMode.trans h)))
    rcases hHere.last hQuote with ⟨-, rfl⟩ | ⟨front, v, c, rest, piece, -, hFront, hV, hAhead, hStep⟩
    · exact absurd (.inl hTemplate) hLoud
    · have hOpened := opened_of_step hAhead hStep (fun h => hOpens (.inl h)) (fun h => hOpens (.inr h))
        (fun h => hNot _ h (.inr rfl)) (fun h => hNot _ h (.inl rfl))
      have hV : s.offset ≤ v.offset := (hFront.offset hQuote).symm ▸ Nat.le_add_right _ _
      exact hEnd.opened_ge hAt hOffset (by omega)

end Scanner

open Scanner

/-- The error points to where a construct of its kind opens that the source never closes. -/
def Unterminated.Points (source : List Char) (e : Unterminated) : Prop :=
  ∃ front r, (initial source).Scans front r ∧ utf8Length (front.flatMap Piece.text) = e.offset ∧
    r.LeavesOpen e.construct

theorem relink_error_iff {σ : Type} {map : String → StateM σ (Option String)} {source : String} {state : σ}
    {e : Unterminated} :
    ((relink map source).run state).1 = .error e ↔ failure? source = some e := by
  rw [relink_run]
  show conclude _ _ _ _ _ = _ ↔ _
  unfold conclude
  cases failure? source <;> simp

variable {source : List Char} {e : Unterminated} {t : Scanner} {pieces front : List Piece} {r : Scanner}

/-- The error of a scan that fails inside of a template points to an open template exactly when nothing
opens behind its backtick. -/
theorem points_template_iff (hScan : (initial source).Scans pieces t) (hFails : t.Fails e)
    (hTemplate : e.construct = .template) :
    e.Points source ↔
      ∃ front r, (initial source).Scans front r ∧ r.LeavesOpen .template ∧ r.Undisturbed := by
  have hBreaks := hFails.breaks (hScan.atQuote (within_initial source).atQuote)
  unfold Unterminated.Points
  rw [hTemplate, hBreaks.named hTemplate]
  constructor
  · rintro ⟨front, r, hFront, hOffset, hLeaves⟩
    refine ⟨front, r, hFront, hLeaves, fun inner u hOn => ?_⟩
    by_contra hLoud
    obtain ⟨hOpens, hFurther⟩ := hLeaves.opens
    obtain ⟨back, hBack⟩ := hScan.toFailure hFails ((hFront.trans hOpens).trans hOn)
    have hLater := opened_of_loud hOn (atQuote_of_mode (by simp [openWith])) rfl hLoud hBack hBreaks hTemplate
    have hHere := (offset_of_scans hFront).2
    omega
  · rintro ⟨front, r, hFront, hLeaves, hUndisturbed⟩
    obtain ⟨back, hBack⟩ := hScan.toFailure hFails (hFront.trans hLeaves.opens.1)
    exact ⟨front, r, hFront, (offset_of_scans hFront).2.symm.trans (hBack.quiet hUndisturbed).symm, hLeaves⟩

/-- Whatever a failing scan names last opened in the source. -/
theorem inside_of_fails (hScan : (initial source).Scans pieces t) (hFails : t.Fails e) :
    ∃ before after, source = before ++ after ∧ utf8Length before = e.offset ∧ after ≠ [] := by
  have hBreaks := hFails.breaks (hScan.atQuote (within_initial source).atQuote)
  have hAt {front : List Piece} {r : Scanner} (hFront : (initial source).Scans front r)
      (hHere : e.offset = r.offset) (hSome : r.ahead ≠ []) :
      ∃ before after, source = before ++ after ∧ utf8Length before = e.offset ∧ after ≠ [] :=
    ⟨_, _, (offset_of_scans hFront).1, (offset_of_scans hFront).2.symm.trans hHere.symm, hSome⟩
  by_cases hTemplate : e.construct = .template
  · obtain ⟨outer, hUnder⟩ := hBreaks.under hTemplate
    obtain ⟨front, r, hFront, hLeaves⟩ := hUnder.leavesOpen hFails hScan
    obtain ⟨back, hBack⟩ := hScan.toFailure hFails (hFront.trans hLeaves.opens.1)
    rcases hBack.openedAt with hSame | ⟨inner, u, hInner, hHere, hSome⟩
    · exact hAt hFront ((hBreaks.named hTemplate).trans hSame) hLeaves.ahead
    · exact hAt ((hFront.trans hLeaves.opens.1).trans hInner) ((hBreaks.named hTemplate).trans hHere) hSome
  · obtain ⟨front, r, hFront, hHere, hLeaves⟩ := hBreaks.leavesOpen hTemplate hScan
    exact hAt hFront hHere.symm hLeaves.ahead

/-- An error points into the source, to where the construct opens that it names and that is never closed,
but that an error that names a template may point elsewhere. Some template is open then, and the error
points to the backtick of an open template exactly when no string, template, block comment or regular
expression opens behind that backtick. -/
theorem unterminated_points {σ : Type} {map : String → StateM σ (Option String)} {source : String}
    {state : σ} {e : Unterminated} (hError : ((relink map source).run state).1 = .error e) :
    (∃ before after, source.toList = before ++ after ∧ utf8Length before = e.offset ∧ after ≠ []) ∧
    (e.construct = .template →
      ∃ front r, (initial source.toList).Scans front r ∧ r.LeavesOpen .template) ∧
    (e.Points source.toList ↔ (e.construct = .template →
      ∃ front r, (initial source.toList).Scans front r ∧ r.LeavesOpen .template ∧ r.Undisturbed)) := by
  rw [relink_error_iff, ← String.ofList_toList (s := source)] at hError
  obtain ⟨t, hScan, hFails⟩ := fails_of_refused hError
  have hBreaks := hFails.breaks (hScan.atQuote (within_initial _).atQuote)
  refine ⟨inside_of_fails hScan hFails, fun hTemplate => ?_, ?_⟩
  · obtain ⟨outer, hUnder⟩ := hBreaks.under hTemplate
    exact hUnder.leavesOpen hFails hScan
  · by_cases hTemplate : e.construct = .template
    · rw [points_template_iff hScan hFails hTemplate]
      exact ⟨fun h _ => h, fun h => h hTemplate⟩
    · obtain ⟨front, r, hFront, hHere, hLeaves⟩ := hBreaks.leavesOpen hTemplate hScan
      exact ⟨fun _ hNamed => absurd hNamed hTemplate,
        fun _ => ⟨front, r, hFront, (offset_of_scans hFront).2.symm.trans hHere, hLeaves⟩⟩

/-- A string that is open inside of a template is what the error points to. -/
theorem unterminated_points_string :
    Unterminated.Points "\x60$\x7b'a".toList ⟨.string, 3⟩ := by
  have hError : ((relink (fun _ => (pure none : StateM Unit (Option String))) "\x60$\x7b'a").run ()).1 =
      .error ⟨.string, 3⟩ := relink_error_iff.mpr (by decide)
  exact (unterminated_points hError).2.2.mpr fun hTemplate => by cases hTemplate

/-- A string that is closed inside of an open template is what the error points to instead. -/
theorem unterminated_points_past :
    failure? "\x60$\x7b'a'" = some ⟨.template, 3⟩ ∧
      ¬Unterminated.Points "\x60$\x7b'a'".toList ⟨.template, 3⟩ := by
  refine ⟨by decide, ?_⟩
  rintro ⟨front, r, hFront, hOffset, hLeaves⟩
  have hText := (offset_of_scans hFront).1
  cases hLeaves with
  | template _ hAhead =>
      rw [hAhead] at hText
      -- The only backtick of the source is its first character.
      cases hFlat : front.flatMap Piece.text with
      | nil =>
          rw [hFlat] at hOffset
          cases hOffset
      | cons c before =>
          rw [hFlat, List.cons_append] at hText
          have hTick : '\x60' ∈ "$\x7b'a'".toList := by
            rw [show "$\x7b'a'".toList = before ++ '\x60' :: _ from (List.cons.inj hText).2]
            simp
          exact absurd hTick (by decide)

end ModuleGateway.Relink
