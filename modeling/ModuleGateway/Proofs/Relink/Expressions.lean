import ModuleGateway.Proofs.Relink.Clauses

/-!
How the scanner reads expressions. Brackets and substitutions nest: inside of them the scanner has other
braces and other substitutions open, and behind them it has those that it had in front of them.
-/

namespace ModuleGateway.Relink.Concrete

variable {f : Frame} {rest tail : List Char}

/-- The text of an expression. -/
def Code.print {e : Edge} (code : Code e) : List Char :=
  code.pieces.flatMap Piece.text

def Template.print (t : Template) : List Char :=
  t.pieces.flatMap Piece.text

/-- What may follow an expression: the end of its statement, or of what it stands in. -/
def Closes (tail : List Char) : Prop :=
  ∃ c rest, tail = c :: rest ∧ (c = ';' ∨ c = ')' ∨ c = ']' ∨ c = '\x7d')

theorem Closes.ends (h : Closes tail) : Ends tail := by
  obtain ⟨c, rest, rfl, rfl | rfl | rfl | rfl⟩ := h <;> exact ends_cons (by decide)

theorem Closes.no_plus (h : Closes tail) : tail.head? ≠ some '+' := by
  obtain ⟨c, rest, rfl, rfl | rfl | rfl | rfl⟩ := h <;> simp

/-- Behind a word, an expression does not go on with a letter. -/
theorem Code.ends (code : Code .word) (hTail : Closes tail) : Ends (code.print ++ tail) := by
  unfold Code.print
  cases code with
  | done gap =>
      simp only [Code.pieces, flatMap_text_plain]
      exact ends_gap gap fun _ => hTail.ends
  | word gap hGap name rest =>
      simp only [Code.pieces, List.flatMap_append, flatMap_text_plain, List.append_assoc]
      exact ends_gap gap fun hNone => absurd hNone (hGap rfl)
  | dynamic gap hGap hDot first second specifier third rest =>
      simp only [Code.pieces, List.flatMap_append, flatMap_text_plain, List.append_assoc]
      exact ends_gap gap fun hNone => absurd hNone (hGap rfl)
  | string gap literal rest =>
      simp only [Code.pieces, List.flatMap_append, flatMap_text_plain, List.append_assoc]
      exact ends_gap gap fun _ => ends_cons (not_part_of_isQuote literal.isQuote)
  | operator gap o rest =>
      simp only [Code.pieces, List.flatMap_append, flatMap_text_plain, List.append_assoc]
      exact ends_gap gap fun _ => by cases o <;> exact ends_cons (by decide)
  | bracket gap b inner rest =>
      simp only [Code.pieces, List.flatMap_append, flatMap_text_plain, List.append_assoc]
      exact ends_gap gap fun _ => by cases b <;> exact ends_cons (by decide)
  | template gap t rest =>
      simp only [Code.pieces, List.flatMap_append, flatMap_text_plain, List.append_assoc]
      exact ends_gap gap fun _ => ends_cons (by decide)

/-- The frame behind `k` plus signs. -/
def Frame.behind (f : Frame) (k : Nat) : Frame :=
  { f with member := f.member && k == 0 }

/-- Plus signs that are still to be read, and a gap behind them. -/
theorem leads_pending (hCode : f.mode = .code) (k : Nat) (gap : Gap)
    (hPlus : gap.text = [] → rest.head? ≠ some '+') :
    Leads f (List.replicate k '+' ++ (gap.text ++ rest)) (plain (List.replicate k '+' ++ gap.text))
      (f.behind k) rest := by
  have hStop : (gap.text ++ rest).head? ≠ some '+' := by
    cases hText : gap.text with
    | nil => exact hPlus hText
    | cons c text =>
        intro hSame
        obtain rfl : c = '+' := Option.some.inj hSame
        exact absurd (gap.blank '+' (by rw [hText]; exact List.mem_cons_self)) (by decide)
  rw [plain_append]
  exact (leads_pluses hCode hStop k).trans (leads_gap gap hCode)

/-- An operator other than the plus sign. -/
theorem leads_operator (o : Operator) (hPlus : o ≠ .plus) (hCode : f.mode = .code) :
    Leads f (o.text ++ rest) (plain o.text) { f with member := o.edge == .dot } rest := by
  cases o with
  | assign | comma => exact leads_mark (by decide) (by decide) hCode
  | dot => exact leads_dot hCode
  | spread => exact leads_spread hCode
  | plus => exact absurd rfl hPlus

/-- The frame inside of a bracket. -/
def Frame.inside (f : Frame) (b : Bracket) : Frame :=
  { f.past with braces := if b = .curly then f.braces + 1 else f.braces }

theorem leads_opening (b : Bracket) (hCode : f.mode = .code) :
    Leads f (b.opening :: rest) (plain [b.opening]) (f.inside b) rest := by
  cases b with
  | round | square => exact leads_mark (by decide) (by decide) hCode
  | curly => exact leads_openBrace hCode

theorem leads_closing (b : Bracket) (hCode : f.mode = .code)
    (hOuter : ∀ depth ∈ f.substitutions.head?, depth ≤ f.braces) :
    Leads { f.inside b with member := true } (b.closing :: rest) (plain [b.closing]) f.past rest := by
  cases b with
  | round | square => exact leads_mark (by decide) (by decide) hCode
  | curly =>
      exact leads_closeBrace hCode fun depth hDepth =>
        Nat.ne_of_lt (Nat.lt_succ_of_le (hOuter depth hDepth))

mutual

/-- An expression behind an edge leads to what follows it. Plus signs that stand right in front of it are
read with it, for the scanner may take the last of them and its first one for one token. -/
theorem Code.leads {e : Edge} (code : Code e) (f : Frame) (tail : List Char) (k : Nat)
    (hLine : ∀ s ∈ code.specifiers, s.OneLine) (hCode : f.mode = .code) (hAwaiting : f.awaiting = false)
    (hOuter : ∀ depth ∈ f.substitutions.head?, depth ≤ f.braces)
    (hEdge : e ≠ .dot → (f.behind k).member = false) (hTail : Closes tail) :
    Leads f (List.replicate k '+' ++ (code.print ++ tail)) (plain (List.replicate k '+') ++ code.pieces)
      { f with member := true } tail := by
  match code with
  | .done gap =>
      have hGap := (leads_pending hCode k gap fun _ => hTail.no_plus).weaken
        (h := { f with member := true }) (fun hNot => by cases hNot) rfl
      simpa [Code.print, Code.pieces] using hGap
  | .word gap _ name rest =>
      have hGap : Leads f _ _ (f.behind k) (name.text ++ (rest.print ++ tail)) :=
        leads_pending hCode k gap fun _ hPlus =>
          ne_of_isWordStart name.start (by decide) (Option.some.inj hPlus)
      have hName := leads_name (f := f.behind k) name hCode
        (fun hAwaits => absurd (hAwaits.symm.trans hAwaiting) (by decide)) (rest.ends hTail)
      have hRest := rest.leads f.past tail 0 hLine hCode hAwaiting hOuter (fun _ => rfl) hTail
      have hWhole : Leads f _ _ { f with member := true } tail := hGap.trans (hName.trans hRest)
      simpa [Code.print, Code.pieces] using hWhole
  | .string gap literal rest =>
      have hGap : Leads f _ _ (f.behind k) (literal.text ++ (rest.print ++ tail)) :=
        leads_pending hCode k gap fun _ hPlus => by
          have hQuote := literal.isQuote
          rw [Option.some.inj hPlus] at hQuote
          exact absurd hQuote (by decide)
      have hLiteral : Leads (f.behind k) _ _ f.past (rest.print ++ tail) := leads_literal literal hCode
      have hRest := rest.leads f.past tail 0 hLine hCode hAwaiting hOuter (fun _ => rfl) hTail
      have hWhole : Leads f _ _ { f with member := true } tail := hGap.trans (hLiteral.trans hRest)
      simpa [Code.print, Code.pieces] using hWhole
  | .operator gap o rest =>
      by_cases hPlus : o = .plus
      · have hText : o.text = ['+'] := by rw [hPlus]; rfl
        by_cases hGap : gap.text = []
        · -- With no gap in front of it, the sign joins those that are still to be read.
          have hRest := rest.leads f tail (k + 1) hLine hCode hAwaiting hOuter
            (fun _ => by simp [Frame.behind]) hTail
          simpa [Code.print, Code.pieces, hText, hGap, List.replicate_succ'] using hRest
        · have hBefore : Leads f _ _ (f.behind k) ('+' :: (rest.print ++ tail)) :=
            leads_pending hCode k gap fun hNone => absurd hNone hGap
          have hRest := rest.leads (f.behind k) tail 1 hLine hCode hAwaiting hOuter
            (fun _ => by simp [Frame.behind]) hTail
          have hWhole : Leads f _ _ { f with member := true } tail := hBefore.trans hRest
          simpa [Code.print, Code.pieces, hText] using hWhole
      · have hGap : Leads f _ _ (f.behind k) (o.text ++ (rest.print ++ tail)) :=
          leads_pending hCode k gap fun _ => by cases o <;> simp_all [Operator.text]
        have hOperator : Leads (f.behind k) _ _ { f with member := o.edge == .dot } (rest.print ++ tail) :=
          leads_operator o hPlus hCode
        have hRest := rest.leads { f with member := o.edge == .dot } tail 0 hLine hCode hAwaiting hOuter
          (fun hDot => by simpa [Frame.behind] using hDot) hTail
        have hWhole : Leads f _ _ { f with member := true } tail := hGap.trans (hOperator.trans hRest)
        simpa [Code.print, Code.pieces] using hWhole
  | .dynamic gap _ hDot first second specifier third rest =>
      obtain ⟨hSpecifier, hOthers⟩ := List.forall_mem_cons.mp hLine
      let after : Frame := { f.past with awaiting := false }
      have hGap : Leads f _ _ (f.behind k) (importWord.text ++ ((first.text ++ '(' :: second.text) ++
          (specifier.piece.text ++ (third.text ++ ')' :: (rest.print ++ tail))))) :=
        leads_pending hCode k gap fun _ hPlus => by cases Option.some.inj hPlus
      have hImport : Leads (f.behind k) _ _ after (third.text ++ ')' :: (rest.print ++ tail)) :=
        leads_dynamic first second (specifier.literal hSpecifier) hCode (hEdge hDot)
      have hThird : Leads after _ _ after (')' :: (rest.print ++ tail)) := leads_gap third hCode
      have hClose : Leads after (')' :: (rest.print ++ tail)) _ after (rest.print ++ tail) :=
        leads_mark (by decide) (by decide) hCode
      have hRest := rest.leads after tail 0 hOthers hCode rfl hOuter (fun _ => rfl) hTail
      have hSame : { f with awaiting := false, member := true } = { f with member := true } := by
        rw [← hAwaiting]
      have hWhole : Leads f _ _ { f with awaiting := false, member := true } tail :=
        hGap.trans (hImport.trans (hThird.trans (hClose.trans hRest)))
      rw [hSame] at hWhole
      simpa [Code.print, Code.pieces, importWord, Word.text] using hWhole
  | .bracket gap b inner rest =>
      obtain ⟨hInner, hOthers⟩ := List.forall_mem_append.mp hLine
      have hGap : Leads f _ _ (f.behind k)
          (b.opening :: (inner.print ++ b.closing :: (rest.print ++ tail))) :=
        leads_pending hCode k gap fun _ => by cases b <;> simp [Bracket.opening]
      have hOpen : Leads (f.behind k) _ _ (f.inside b)
          (inner.print ++ b.closing :: (rest.print ++ tail)) := leads_opening b hCode
      have hDeeper : ∀ depth ∈ f.substitutions.head?, depth ≤ (f.inside b).braces := by
        intro depth hDepth
        refine Nat.le_trans (hOuter depth hDepth) ?_
        cases b <;> simp [Frame.inside]
      have hWithin := inner.leads (f.inside b) (b.closing :: (rest.print ++ tail)) 0 hInner hCode
        hAwaiting hDeeper (fun _ => rfl) ⟨b.closing, _, rfl, by cases b <;> simp [Bracket.closing]⟩
      have hClose : Leads _ _ _ f.past (rest.print ++ tail) := leads_closing b hCode hOuter
      have hRest := rest.leads f.past tail 0 hOthers hCode hAwaiting hOuter (fun _ => rfl) hTail
      have hWhole : Leads f _ _ { f with member := true } tail :=
        hGap.trans (hOpen.trans (hWithin.trans (hClose.trans hRest)))
      simpa [Code.print, Code.pieces] using hWhole
  | .template gap t rest =>
      obtain ⟨hInner, hOthers⟩ := List.forall_mem_append.mp hLine
      let within : Frame := { f.past with mode := .template }
      have hGap : Leads f _ _ (f.behind k) ('\x60' :: (t.print ++ (rest.print ++ tail))) :=
        leads_pending hCode k gap (by simp)
      have hOpen : Leads (f.behind k) _ _ within (t.print ++ (rest.print ++ tail)) :=
        leads_backtick hCode
      have hText := t.leads within (rest.print ++ tail) hInner rfl hAwaiting
      have hSame : ({ f.past with mode := .code } : Frame) = f.past := by rw [← hCode]; rfl
      have hRest := rest.leads f.past tail 0 hOthers hCode hAwaiting hOuter (fun _ => rfl) hTail
      rw [← hSame] at hRest
      have hWhole : Leads f _ _ { f with mode := .code, member := true } tail :=
        hGap.trans (hOpen.trans (hText.trans hRest))
      rw [← hCode] at hWhole
      simpa [Code.print, Code.pieces, Template.print] using hWhole

theorem Template.leads (t : Template) (f : Frame) (tail : List Char)
    (hLine : ∀ s ∈ t.specifiers, s.OneLine) (hTemplate : f.mode = .template)
    (hAwaiting : f.awaiting = false) :
    Leads f (t.print ++ tail) t.pieces { f.past with mode := .code } tail := by
  match t with
  | .last chunk => simpa [Template.print, Template.pieces] using leads_lastChunk chunk hTemplate
  | .more chunk inner rest =>
      obtain ⟨hInner, hOthers⟩ := List.forall_mem_append.mp hLine
      let within : Frame :=
        { f.past with mode := .code, substitutions := f.braces :: f.substitutions }
      have hChunk : Leads f _ _ within (inner.print ++ '\x7d' :: (rest.print ++ tail)) :=
        leads_chunk chunk hTemplate
      have hCode := inner.leads within ('\x7d' :: (rest.print ++ tail)) 0 hInner rfl hAwaiting
        (by simp [within, Frame.past]) (fun _ => rfl) ⟨'\x7d', _, rfl, by simp⟩
      have hResume : Leads { within with member := true } ('\x7d' :: (rest.print ++ tail)) (plain ['\x7d'])
          { f.past with mode := .template } (rest.print ++ tail) := leads_resume rfl rfl
      have hSame : ({ f.past with mode := .template } : Frame) = f.past := by rw [← hTemplate]; rfl
      have hRest := rest.leads f.past tail hOthers hTemplate hAwaiting
      rw [← hSame] at hRest
      have hWhole : Leads f _ _ { f.past with mode := .code } tail :=
        hChunk.trans (hCode.trans (hResume.trans hRest))
      simpa [Template.print, Template.pieces, Code.print] using hWhole

end

end ModuleGateway.Relink.Concrete
