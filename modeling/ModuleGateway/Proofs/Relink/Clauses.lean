import ModuleGateway.Proofs.Relink.Words

/-!
How the scanner reads the clauses of imports and exports. Whatever the bindings are called, a clause ends
only at the word in front of the specifier, and behind the specifier the scanner is back between items.
-/

namespace ModuleGateway.Relink.Concrete

variable {f g : Frame} {c : Char} {text rest tail : List Char}

@[simp] theorem plain_nil : plain [] = [] := rfl

@[simp] theorem plain_cons (c : Char) (text : List Char) :
    plain (c :: text) = .verbatim [c] :: plain text := rfl

@[simp] theorem text_verbatim (text : List Char) : (Piece.verbatim text).text = text := rfl

@[simp] theorem flatMap_text_plain (text : List Char) : (plain text).flatMap Piece.text = text := by
  induction text with
  | nil => rfl
  | cons c text ih => rw [plain_cons, List.flatMap_cons, ih]; rfl

attribute [simp] plain_append

/-! ### Clauses -/

/-- The frame between items. -/
def top : Frame :=
  ⟨.code, false, false, 0, []⟩

/-- The frame inside of a clause. -/
def clause : Frame :=
  { top with awaiting := true }

/-- The frame inside of the braces of a clause. -/
def bindings : Frame :=
  { clause with braces := 1 }

@[simp] theorem top_past : top.past = top := rfl

@[simp] theorem clause_past : clause.past = clause := rfl

@[simp] theorem bindings_past : bindings.past = bindings := rfl

theorem not_blank_of_isWordStart (hStart : isWordStart c = true) : isBlank c = false := by
  by_contra hBlank
  have hPart := not_part_of_isBlank (by simpa using hBlank)
  simp [isWordPart, hStart] at hPart

theorem goesOn_of_isWordStart (hStart : isWordStart c = true) : goesOn c = true := by
  simp [goesOn, not_quote_of_isWordStart hStart, ne_of_isWordStart hStart (d := '(') (by decide)]

theorem next_word (gap : Gap) (w : Word) (rest : List Char) :
    Next (gap.text ++ (w.text ++ rest)) w.first :=
  next_gap gap (not_blank_of_isWordStart w.start)

theorem Binding.leads (b : Binding) (hEnd : Ends rest) (hNext : Next rest c) (hOn : goesOn c = true) :
    Leads bindings (b.text ++ rest) (plain b.text) bindings rest := by
  cases b with
  | kept name => exact leads_binding (f := bindings) name rfl rfl rfl hEnd hNext hOn
  | renamed name before after hBefore hAfter bound =>
      have hName := leads_binding (f := bindings) name rfl rfl rfl
        (ends_gap before fun hNone => absurd hNone hBefore)
        (next_word before asWord (after.text ++ (bound.text ++ rest))) (by decide)
      have hAs := leads_binding (f := bindings) asWord rfl rfl rfl
        (ends_gap after fun hNone => absurd hNone hAfter) (next_word after bound rest)
        (goesOn_of_isWordStart bound.start)
      have hBound := leads_binding (f := bindings) bound rfl rfl rfl hEnd hNext hOn
      have hWhole := hName.trans ((leads_gap before rfl).trans (hAs.trans
        ((leads_gap after rfl).trans hBound)))
      simpa [Binding.text, asWord, Word.text] using hWhole

theorem Names.leads (ns : Names) : Leads bindings (ns.text ++ rest) (plain ns.text) clause rest := by
  have hClose (rest : List Char) : Leads bindings ('\x7d' :: rest) (plain ['\x7d']) clause rest :=
    leads_closeBrace rfl (by simp [bindings, clause, top])
  induction ns with
  | none gap =>
      have hWhole := (leads_gap (f := bindings) gap rfl).trans (hClose rest)
      simpa [Names.text] using hWhole
  | last gap binding after =>
      have hBinding : Leads bindings _ _ bindings (after.text ++ '\x7d' :: rest) :=
        binding.leads (ends_gap after fun _ => ends_cons (by decide)) (next_gap after (by decide))
          (by decide)
      have hWhole := (leads_gap (f := bindings) gap rfl).trans (hBinding.trans
        ((leads_gap after rfl).trans (hClose rest)))
      simpa [Names.text] using hWhole
  | more gap binding after ns ih =>
      have hBinding : Leads bindings _ _ bindings (after.text ++ ',' :: (ns.text ++ rest)) :=
        binding.leads (ends_gap after fun _ => ends_cons (by decide)) (next_gap after (by decide))
          (by decide)
      have hComma : Leads bindings (',' :: (ns.text ++ rest)) _ bindings (ns.text ++ rest) :=
        leads_mark (by decide) (by decide) rfl
      have hWhole := (leads_gap (f := bindings) gap rfl).trans (hBinding.trans
        ((leads_gap after rfl).trans (hComma.trans ih)))
      simpa [Names.text] using hWhole

theorem Star.leads (n : Star) (hEnd : Ends rest) (hNext : Next rest c) (hOn : goesOn c = true) :
    Leads clause (n.text ++ rest) (plain n.text) clause rest := by
  have hStar : Leads clause ('*' :: _) _ clause
      (n.before.text ++ (asWord.text ++ (n.after.text ++ (n.name.text ++ rest)))) :=
    leads_mark (by decide) (by decide) rfl
  have hAs := leads_binding (f := clause) asWord rfl rfl rfl
    (ends_gap n.after fun hNone => absurd hNone n.hAfter) (next_word n.after n.name rest)
    (goesOn_of_isWordStart n.name.start)
  have hName := leads_binding (f := clause) n.name rfl rfl rfl hEnd hNext hOn
  have hWhole := hStar.trans ((leads_gap n.before rfl).trans (hAs.trans
    ((leads_gap n.after rfl).trans hName)))
  simpa [Star.text, asWord, Word.text] using hWhole

theorem leads_names (ns : Names) :
    Leads clause ('\x7b' :: (ns.text ++ rest)) (plain ('\x7b' :: ns.text)) clause rest :=
  (leads_openBrace (f := clause) rfl).trans ns.leads

/-- A default binding, the comma behind it, and the gaps around the comma. -/
theorem leads_default (name : Word) (before after : Gap) :
    Leads clause (name.text ++ (before.text ++ ',' :: (after.text ++ rest)))
      (plain (name.text ++ (before.text ++ ',' :: after.text))) clause rest := by
  have hName : Leads clause _ _ clause (before.text ++ ',' :: (after.text ++ rest)) :=
    leads_binding name rfl rfl rfl (ends_gap before fun _ => ends_cons (by decide))
      (next_gap before (by decide)) (by decide)
  have hComma : Leads clause (',' :: (after.text ++ rest)) _ clause (after.text ++ rest) :=
    leads_mark (by decide) (by decide) rfl
  have hWhole := hName.trans ((leads_gap before rfl).trans (hComma.trans (leads_gap after rfl)))
  simpa using hWhole

theorem Clause.leads (b : Clause) (hEnd : b.endsWithWord = true → Ends rest) (hNext : Next rest c)
    (hOn : goesOn c = true) : Leads clause (b.text ++ rest) (plain b.text) clause rest := by
  cases b with
  | default name => exact leads_binding (f := clause) name rfl rfl rfl (hEnd rfl) hNext hOn
  | star s => exact s.leads (hEnd rfl) hNext hOn
  | names ns => exact leads_names ns
  | defaultAndStar name before after s =>
      have hWhole := (leads_default name before after).trans (s.leads (hEnd rfl) hNext hOn)
      simpa [Clause.text] using hWhole
  | defaultAndNames name before after ns =>
      have hNames : Leads clause _ _ clause rest := leads_names ns
      have hWhole := (leads_default name before after).trans hNames
      simpa [Clause.text] using hWhole

theorem Reexport.leads (b : Reexport) (hEnd : b.endsWithWord = true → Ends rest) (hNext : Next rest c)
    (hOn : goesOn c = true) : Leads clause (b.text ++ rest) (plain b.text) clause rest := by
  cases b with
  | all => exact leads_mark (f := clause) (by decide) (by decide) rfl
  | star s => exact s.leads (hEnd rfl) hNext hOn
  | names ns => exact leads_names ns

/-! ### Origins -/

/-- The end of an item behind its specifier. -/
theorem leads_end (after : Gap) :
    Leads top (after.text ++ ';' :: rest) (plain (after.text ++ [';'])) top rest := by
  have hSemicolon : Leads top (';' :: rest) (plain [';']) top rest := leads_semicolon rfl
  have hWhole := (leads_gap after rfl).trans hSemicolon
  simpa using hWhole

theorem Origin.leads (o : Origin) (hLine : o.specifier.OneLine) :
    Leads clause (o.pieces.flatMap Piece.text ++ rest) o.pieces top rest := by
  have hFrom : Leads clause _ _ top (o.after.text ++ ';' :: rest) :=
    leads_from o.gap (o.specifier.literal hLine) rfl rfl rfl
  have hWhole := (leads_gap (f := clause) o.before rfl).trans (hFrom.trans (leads_end o.after))
  simpa [Origin.pieces, fromWord, Word.text] using hWhole

/-- What follows a clause. -/
theorem Origin.follows (o : Origin) (rest : List Char) :
    Next (o.pieces.flatMap Piece.text ++ rest) 'f' ∧
      (o.before.text ≠ [] → Ends (o.pieces.flatMap Piece.text ++ rest)) := by
  have hText : ∃ more, o.pieces.flatMap Piece.text ++ rest = o.before.text ++ 'f' :: more :=
    ⟨_, by simp only [Origin.pieces, List.flatMap_append, flatMap_text_plain, List.append_assoc]; rfl⟩
  obtain ⟨more, hText⟩ := hText
  rw [hText]
  exact ⟨next_gap o.before (by decide), fun hSome => ends_gap o.before fun hNone => absurd hNone hSome⟩

/-- What a clause starts with ends the word in front of it. -/
theorem Clause.starts (b : Clause) (rest : List Char) :
    ∃ c, (c = '\x7b' ∨ c = '*' ∨ isWordStart c = true) ∧
      ∀ before : Gap, (b.startsWithWord = true → before.text ≠ []) →
        Ends (before.text ++ (b.text ++ rest)) ∧ Next (before.text ++ (b.text ++ rest)) c := by
  have hMark {c : Char} {more : List Char} (hText : b.text ++ rest = c :: more)
      (hc : isWordPart c = false ∧ isBlank c = false) (before : Gap) :
      Ends (before.text ++ (b.text ++ rest)) ∧ Next (before.text ++ (b.text ++ rest)) c := by
    rw [hText]
    exact ⟨ends_gap before fun _ => ends_cons hc.1, next_gap before hc.2⟩
  cases b with
  | default name | defaultAndStar name _ _ _ | defaultAndNames name _ _ _ =>
      exact ⟨name.first, .inr (.inr name.start), fun before hBefore =>
        ⟨ends_gap before fun hNone => absurd hNone (hBefore rfl),
          next_gap before (not_blank_of_isWordStart name.start)⟩⟩
  | star s => exact ⟨'*', .inr (.inl rfl), fun before _ => hMark rfl (by decide) before⟩
  | names ns => exact ⟨'\x7b', .inl rfl, fun before _ => hMark rfl (by decide) before⟩

theorem Reexport.starts (b : Reexport) (before : Gap) (rest : List Char) :
    ∃ c, (c = '\x7b' ∨ c = '*') ∧
      Ends (before.text ++ (b.text ++ rest)) ∧ Next (before.text ++ (b.text ++ rest)) c := by
  cases b with
  | all | star =>
      exact ⟨'*', .inr rfl, ends_gap before fun _ => ends_cons (by decide),
        next_gap before (by decide)⟩
  | names ns =>
      exact ⟨'\x7b', .inl rfl, ends_gap before fun _ => ends_cons (by decide),
        next_gap before (by decide)⟩

end ModuleGateway.Relink.Concrete
