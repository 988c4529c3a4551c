import ModuleGateway.Proofs.Relink.Nesting
import ModuleGateway.Proofs.Relink.Printing

/-!
Calls of what is named `import`. Whether the word is a member name is decided by the character right in
front of it: a dot makes it one, but for the last dot of a spread. The argument of a call is a target
exactly when the word is no member name in this sense.
-/

namespace ModuleGateway.Relink

open Concrete

/-- A dot stands at the end of the text, and no spread. -/
def BehindDot (before : List Char) : Prop :=
  ['.'] <:+ before ∧ ¬['.', '.', '.'] <:+ before

instance (before : List Char) : Decidable (BehindDot before) :=
  inferInstanceAs (Decidable (_ ∧ _))

namespace Scanner

variable {s : Scanner} {rest : List Char}

/-- What counts of a scanner. -/
def frame (s : Scanner) : Frame :=
  ⟨s.mode, s.awaitingFrom, s.isMember, s.braces, s.substitutions⟩

theorem frame_holds (s : Scanner) : s.frame.Holds s.ahead s :=
  ⟨rfl, rfl, rfl, id, rfl, rfl⟩

theorem isMember_iff {before : List Char} (hBehind : s.behind = before.reverse) :
    s.isMember = true ↔ BehindDot before := by
  have hSuffix (dots : List Char) (hSame : dots.reverse = dots) : dots <:+ before ↔ dots <+: s.behind := by
    rw [hBehind, ← List.reverse_prefix, hSame]
  rw [BehindDot, hSuffix ['.'] rfl, hSuffix ['.', '.', '.'] rfl]
  unfold isMember
  split
  · rename_i hSpread
    simp [hSpread]
  · rename_i rest hOther hDot
    rw [hDot]
    simp only [List.cons_prefix_cons, List.nil_prefix, and_self, true_and, true_iff]
    rintro ⟨tail, hTail⟩
    exact hOther tail hTail.symm
  · rename_i hOther
    constructor
    · intro hNot
      cases hNot
    · rintro ⟨⟨tail, hTail⟩, -⟩
      exact absurd hTail.symm (hOther tail)

end Scanner

namespace Concrete

variable {s : Scanner} {rest : List Char}

/-- A member name is read alone, and its argument is a string like any other. -/
theorem scans_member (gap inner : Gap) (l : Literal) (hCode : s.mode = .code) (hMember : s.isMember = true)
    (hAhead : s.ahead = importWord.text ++ (gap.text ++ '(' :: (inner.text ++ (l.text ++ rest)))) :
    ∃ read t, s.Scans read t ∧
      read.flatMap Piece.marks = plain (importWord.text ++ gap.text ++ '(' :: inner.text ++ l.text) := by
  have hEnd : Ends (gap.text ++ '(' :: (inner.text ++ (l.text ++ rest))) :=
    ends_gap gap fun _ => ends_cons (by decide)
  have hWord : s.word = s.token importWord.text.length .operand := by
    unfold Scanner.word
    dsimp only
    rw [hAhead, importWord.letters hEnd, if_pos hMember]
  let k := s.token importWord.text.length .operand
  have hName : s.Scans [.verbatim importWord.text] k := by
    have hPasses : s.Passes importWord.text k := Scanner.MovesBy.passes ⟨rfl, rfl, rfl⟩ hAhead
    refine .single hAhead ?_
    simp only [Scanner.step, hCode, code_word importWord.start, hWord]
    rw [← hPasses.readTo]
  have hRest : k.ahead = gap.text ++ '(' :: (inner.text ++ (l.text ++ rest)) := by
    show s.ahead.drop importWord.text.length = _
    rw [hAhead, List.drop_left]
  have hParen : Leads k.frame ('(' :: (inner.text ++ (l.text ++ rest))) (plain ['(']) k.frame.past
      (inner.text ++ (l.text ++ rest)) := leads_mark (by decide) (by decide) hCode
  have hLiteral : Leads k.frame.past (l.text ++ rest) (plain l.text) k.frame.past rest :=
    leads_literal l hCode
  have hCall := (leads_gap gap hCode).trans (hParen.trans ((leads_gap inner hCode).trans hLiteral))
  obtain ⟨read, t, hScans, hRead, -⟩ := hCall k (hRest ▸ k.frame_holds)
  refine ⟨.verbatim importWord.text :: read, t, hName.trans hScans, ?_⟩
  rw [List.flatMap_cons, hRead]
  simp [Piece.marks]

/-- Any other call of `import` asks for its argument. -/
theorem scans_call (gap inner : Gap) (l : Literal) (hCode : s.mode = .code) (hMember : s.isMember = false)
    (hAhead : s.ahead = importWord.text ++ (gap.text ++ '(' :: (inner.text ++ (l.text ++ rest)))) :
    ∃ read t, s.Scans read t ∧
      read.flatMap Piece.marks = plain (importWord.text ++ gap.text ++ '(' :: inner.text) ++ [l.piece] := by
  have hHere : s.frame.Holds
      (importWord.text ++ ((gap.text ++ '(' :: inner.text) ++ (l.piece.text ++ rest))) s := by
    have hAll := s.frame_holds
    rw [hAhead] at hAll
    simpa [Literal.piece, Piece.text, Literal.text] using hAll
  obtain ⟨read, t, hScans, hRead, -⟩ := leads_dynamic gap inner l hCode hMember s hHere
  exact ⟨read, t, hScans, by simpa using hRead⟩

end Concrete

open Scanner

/-- The scan of a source has come to the word `import` in code, in front of an argument list that starts
with a string literal. When a dot stands right in front of the word, and no spread, the literal is text like
any other: it stays as it is, and no map is asked for it. Otherwise it is a target. What becomes of the text
in front of the word and of the text behind the literal is the same, whatever a map answers. -/
theorem import_call {source rest : List Char} {pieces : List Piece} {s : Scanner} (gap inner : Gap)
    (l : Literal) (hScan : (initial source).Scans pieces s) (hCode : s.mode = .code)
    (hAhead : s.ahead = "import".toList ++ (gap.text ++ '(' :: (inner.text ++ (l.text ++ rest)))) :
    let before := pieces.flatMap Piece.text
    let head := "import".toList ++ gap.text ++ '(' :: inner.text
    let argument : Piece := if BehindDot before then .verbatim l.text else .target l.quote l.body
    source = before ++ head ++ l.text ++ rest ∧
    ∃ back : List Piece, ∀ (m : Type → Type) [Monad m] [LawfulMonad m] (map : String → m (Option String)),
      relink map (String.ofList source) = (do
        let a ← relinkAll map pieces
        let literal ← argument.relink map
        let b ← relinkAll map back
        pure (match failure? (String.ofList source) with
          | some e => .error e
          | none => .ok (String.ofList (a ++ head ++ literal ++ b)))) := by
  intro before head argument
  obtain ⟨hText, hBehind, -⟩ := (hScan.within (within_initial source)).2
  have hMember : s.isMember = true ↔ BehindDot before := isMember_iff (hBehind.trans (List.append_nil _))
  refine ⟨by rw [show source = _ from hText, hAhead]; simp [before, head], ?_⟩
  have hCall : ∃ read t, s.Scans read t ∧ read.flatMap Piece.marks = plain head ++ argument.marks := by
    by_cases hDot : BehindDot before
    · obtain ⟨read, t, hScans, hRead⟩ := scans_member gap inner l hCode (hMember.mpr hDot) hAhead
      refine ⟨read, t, hScans, ?_⟩
      rw [hRead, plain_append, show argument = .verbatim l.text from if_pos hDot]
      rfl
    · have hNone : s.isMember = false := by
        rwa [← hMember, Bool.not_eq_true] at hDot
      obtain ⟨read, t, hScans, hRead⟩ := scans_call gap inner l hCode hNone hAhead
      refine ⟨read, t, hScans, ?_⟩
      rw [hRead, show argument = .target l.quote l.body from if_neg hDot]
      rfl
  obtain ⟨read, t, hScans, hRead⟩ := hCall
  obtain ⟨back, -, hRelink⟩ := relink_through (hScan.trans hScans)
  refine ⟨back, ?_⟩
  intro m _ _ map
  have hArgument : relinkAll map read = (head ++ ·) <$> argument.relink map := by
    have hOne := relinkAll_marks map [argument]
    rw [List.flatMap_singleton] at hOne
    rw [← relinkAll_marks map read, hRead, relinkAll_plain_append, hOne]
    simp [relinkAll]
  rw [hRelink, relinkAll_append, hArgument, bind_assoc]
  refine bind_congr fun a => ?_
  rw [map_eq_pure_bind, bind_assoc, bind_assoc]
  refine bind_congr fun literal => ?_
  rw [pure_bind, ← List.append_assoc]
  exact pure_bind _ _

/-- The argument of a member stays as it is. -/
theorem import_call_member :
    ∃ back : List Piece, ∀ map : String → Id (Option String),
      relink map (String.ofList ['a', '.', 'i', 'm', 'p', 'o', 'r', 't', '(', '"', 'b', '"', ')']) = (do
        let b ← relinkAll map back
        pure (match failure? (String.ofList
            ['a', '.', 'i', 'm', 'p', 'o', 'r', 't', '(', '"', 'b', '"', ')']) with
          | some e => .error e
          | none => .ok (String.ofList
            (['a', '.', 'i', 'm', 'p', 'o', 'r', 't', '(', '"', 'b', '"'] ++ b)))) := by
  let start := initial ['a', '.', 'i', 'm', 'p', 'o', 'r', 't', '(', '"', 'b', '"', ')']
  let name := start.token 1 .operand
  let dot := name.token 1 .operator
  let l : Literal := ⟨'"', ['b'], rfl, .plain (by decide) (by decide) rfl .nil⟩
  have hScan : start.Scans [.verbatim ['a'], .verbatim ['.']] dot :=
    (.step rfl (show start.step _ _ = .ok (_, name) from rfl) (.single rfl rfl))
  have hAhead : dot.ahead = "import".toList ++ ([] ++ '(' :: ([] ++ (l.text ++ [')']))) := rfl
  obtain ⟨-, back, hRelink⟩ :=
    import_call ⟨[], List.all_eq_true.mp rfl⟩ ⟨[], List.all_eq_true.mp rfl⟩ l hScan rfl hAhead
  exact ⟨back, fun map => hRelink Id map⟩

/-- A blank behind the dot of a member, and the sign of a private name, hide that the word is a member. -/
theorem import_call_apart :
    asked "a. import('x')" = ["x"] ∧ asked "a?. import('x')" = ["x"] ∧
      asked "this.#import('x')" = ["x"] := by
  decide

end ModuleGateway.Relink
