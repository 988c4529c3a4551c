import ModuleGateway.Proofs.Relink.Printing
import Mathlib.Data.Bool.AllAny

/-!
Comments between the tokens of imports. The text of a module is told as segments, some of which are comments
that are put in. Between most tokens the scanner reads a comment as it reads a blank. Only what follows
`import`, `import(`, `export` and the `from` in front of a specifier is looked for behind blanks alone.
-/

namespace ModuleGateway.Relink.Concrete

/-! ### Modules with comments -/

/-- A comment with what closes it. -/
inductive Comment where
  | line (text : List Char) (hText : '\n' ∉ text)
  | block (text : List Char) (hText : ¬['*', '/'] <:+: text)

def Comment.text : Comment → List Char
  | .line text _ => "//".toList ++ text ++ ['\n']
  | .block text _ => "/*".toList ++ text ++ "*/".toList

/-- A part of a text: a piece that is there in any case, or a comment that is put in. -/
inductive Segment where
  | piece (p : Piece)
  | inserted (c : Comment)

/-- Text that is there in any case, character by character. -/
def solid (text : List Char) : List Segment :=
  (plain text).map .piece

def Segment.pieces (full : Bool) : Segment → List Piece
  | .piece p => [p]
  | .inserted c => if full then plain c.text else []

/-- The pieces of a text with the comments that are put in, or without them. -/
def visible (full : Bool) (segments : List Segment) : List Piece :=
  segments.flatMap (Segment.pieces full)

/-- The text with the comments that are put in, or without them. -/
def render (full : Bool) (segments : List Segment) : List Char :=
  (visible full segments).flatMap Piece.text

/-- What stands between two tokens: blanks and comments. Some of the comments are put in. -/
inductive Filler where
  | blanks (gap : Gap)
  | comment (gap : Gap) (c : Comment) (inserted : Bool) (rest : Filler)

def Filler.segments : Filler → List Segment
  | .blanks gap => solid gap.text
  | .comment gap c inserted rest =>
    solid gap.text ++ (if inserted then [.inserted c] else solid c.text) ++ rest.segments

/-- What stands around the filler stays apart without the comments that are put in. -/
def Filler.Parts (filler : Filler) : Prop :=
  render false filler.segments ≠ []

/-- What the clause of an import or export starts with. -/
inductive Head where
  | word (w : Word)
  | star
  | brace

def Head.first : Head → Char
  | .word w => w.first
  | .star => '*'
  | .brace => '\x7b'

def Head.text : Head → List Char
  | .word w => w.text
  | .star => ['*']
  | .brace => ['\x7b']

def Head.edge : Head → Edge
  | .word _ => .word
  | .star | .brace => .other

/-- The marks of a clause. -/
def clauseMarks : List Char :=
  ['*', ',', '\x7b', '\x7d']

/-- The rest of a clause up to its specifier, behind an edge: its tokens, each with the filler in front of
it. Behind the `from` in front of the specifier stand blanks alone. -/
inductive Bindings : Edge → Type where
  | word {e : Edge} (filler : Filler) (hApart : e = .word → filler.Parts) (w : Word)
      (rest : Bindings .word) : Bindings e
  | mark {e : Edge} (filler : Filler) (c : Char) (hMark : c ∈ clauseMarks)
      (rest : Bindings .other) : Bindings e
  /-- The name of an export that is no word. -/
  | quoted (filler : Filler) (l : Literal) (rest : Bindings .other) : Bindings .other
  /-- A name that is no word behind an `as`. -/
  | renamed {e : Edge} (filler : Filler) (hApart : e = .word → filler.Parts) (between : Filler)
      (l : Literal) (rest : Bindings .other) : Bindings e
  | origin {e : Edge} (filler : Filler) (hApart : e = .word → filler.Parts) (gap : Gap)
      (l : Literal) : Bindings e

def Bindings.segments {e : Edge} : Bindings e → List Segment
  | .word filler _ w rest => filler.segments ++ solid w.text ++ rest.segments
  | .mark filler c _ rest => filler.segments ++ solid [c] ++ rest.segments
  | .quoted filler l rest => filler.segments ++ solid l.text ++ rest.segments
  | .renamed filler _ between l rest =>
    filler.segments ++ solid asWord.text ++ between.segments ++ solid l.text ++ rest.segments
  | .origin filler _ gap l => filler.segments ++ solid (fromWord.text ++ gap.text) ++ [.piece l.piece]

/-- An import or a reexport up to its specifier. Behind `import`, `import(` and `export` stand blanks
alone. -/
inductive Link where
  | effect (gap : Gap) (l : Literal)
  | dynamic (first second : Gap) (l : Literal)
  | imports (gap : Gap) (head : Head) (hGap : head.edge = .word → gap.text ≠ [])
      (rest : Bindings head.edge)
  | reexports (gap : Gap) (head : Head) (hHead : head.edge ≠ .word) (rest : Bindings head.edge)

def Link.segments : Link → List Segment
  | .effect gap l => solid (importWord.text ++ gap.text) ++ [.piece l.piece]
  | .dynamic first second l =>
    solid (importWord.text ++ (first.text ++ '(' :: second.text)) ++ [.piece l.piece]
  | .imports gap head _ rest =>
    solid importWord.text ++ solid gap.text ++ solid head.text ++ rest.segments
  | .reexports gap head _ rest =>
    solid exportWord.text ++ solid gap.text ++ solid head.text ++ rest.segments

/-- Operators that no other character joins. -/
def operators : List Char :=
  [':', '?', '!', '&', '|', '^', '~', '<', '>', '%']

/-- The characters other than dots that are tokens of their own between imports. -/
def signs : List Char :=
  [';', '=', '(', ')', '[', ']'] ++ clauseMarks ++ operators

/-- The rest of a module behind an edge: its tokens and imports, each with the filler in front of it. -/
inductive Tokens : Edge → Type where
  | done {e : Edge} (filler : Filler) : Tokens e
  | link {e : Edge} (filler : Filler) (hApart : e = .word → filler.Parts) (hDot : e ≠ .dot)
      (item : Link) (rest : Tokens .other) : Tokens e
  | name {e : Edge} (filler : Filler) (hApart : e = .word → filler.Parts) (n : Name)
      (rest : Tokens .word) : Tokens e
  | string {e : Edge} (filler : Filler) (l : Literal) (rest : Tokens .other) : Tokens e
  | sign {e : Edge} (filler : Filler) (c : Char) (hSign : c ∈ signs)
      (rest : Tokens .other) : Tokens e
  | dot {e : Edge} (filler : Filler) (rest : Tokens .dot) : Tokens e
  | spread {e : Edge} (filler : Filler) (rest : Tokens .other) : Tokens e

def Tokens.segments {e : Edge} : Tokens e → List Segment
  | .done filler => filler.segments
  | .link filler _ _ item rest => filler.segments ++ item.segments ++ rest.segments
  | .name filler _ n rest => filler.segments ++ solid n.text ++ rest.segments
  | .string filler l rest => filler.segments ++ solid l.text ++ rest.segments
  | .sign filler c _ rest => filler.segments ++ solid [c] ++ rest.segments
  | .dot filler rest => filler.segments ++ solid ['.'] ++ rest.segments
  | .spread filler rest => filler.segments ++ solid ['.', '.', '.'] ++ rest.segments

/-! ### Rendering -/

variable {f : Frame} {c : Char} {rest : List Char} {full : Bool}

@[simp] theorem visible_append (first second : List Segment) :
    visible full (first ++ second) = visible full first ++ visible full second :=
  List.flatMap_append

@[simp] theorem visible_solid (text : List Char) : visible full (solid text) = plain text := by
  simp [visible, solid, List.flatMap_map, Segment.pieces]

@[simp] theorem visible_piece (p : Piece) : visible full [.piece p] = [p] := rfl

@[simp] theorem render_append (first second : List Segment) :
    render full (first ++ second) = render full first ++ render full second := by
  simp [render]

@[simp] theorem render_solid (text : List Char) : render full (solid text) = text := by
  simp [render]

@[simp] theorem render_piece (p : Piece) : render full [.piece p] = p.text := by
  simp [render]

/-- A comment is shown unless it is put in and such comments are left out. -/
theorem visible_comment (full inserted : Bool) (c : Comment) :
    visible full (if inserted then [.inserted c] else solid c.text) =
      plain (if inserted && !full then [] else c.text) := by
  cases inserted with
  | false => simp
  | true => cases full <;> simp [visible, Segment.pieces]

theorem render_comment (full inserted : Bool) (c : Comment) :
    render full (if inserted then [.inserted c] else solid c.text) =
      if inserted && !full then [] else c.text := by
  rw [render, visible_comment, flatMap_text_plain]

theorem Comment.text_cons (c : Comment) : ∃ more, c.text = '/' :: more := by
  cases c with
  | line text hText => exact ⟨'/' :: (text ++ ['\n']), rfl⟩
  | block text hText => exact ⟨'*' :: (text ++ ['*', '/']), rfl⟩

/-! ### What follows a token -/

theorem Next.behind (gap : Gap) (hNext : Next rest c) : Next (gap.text ++ rest) c := by
  unfold Next at hNext ⊢
  rwa [List.dropWhile_append, List.dropWhile_eq_nil_iff.mpr gap.blank]

/-- A word ends in front of a filler, unless the filler holds nothing and the word would go on behind it. -/
theorem Filler.ends (filler : Filler) (h : filler.Parts ∨ Ends rest) :
    Ends (render full filler.segments ++ rest) := by
  induction filler with
  | blanks gap =>
      simp only [Filler.segments, Filler.Parts, render_solid] at h ⊢
      exact ends_gap gap fun hNone => h.resolve_left fun hSome => hSome hNone
  | comment gap c inserted later ih =>
      obtain ⟨more, hText⟩ := c.text_cons
      simp only [Filler.segments, Filler.Parts, render_append, render_solid, render_comment,
        List.append_assoc] at h ih ⊢
      refine ends_gap gap fun hNone => ?_
      cases hHidden : inserted && !full with
      | false =>
          rw [if_neg Bool.false_ne_true, hText]
          exact ends_cons (by decide)
      | true =>
          obtain ⟨rfl, hFull⟩ : inserted = true ∧ full = false := by simpa using hHidden
          refine ih (h.imp_left fun hParts => ?_)
          simpa [hNone] using hParts

/-- Behind the blanks of a filler comes a comment or what stands behind the filler. -/
theorem Filler.follows (filler : Filler) (hBlank : isBlank c = false) (hOn : goesOn c = true) :
    ∃ d, goesOn d = true ∧ Next (render full filler.segments ++ c :: rest) d := by
  induction filler with
  | blanks gap =>
      refine ⟨c, hOn, ?_⟩
      rw [Filler.segments, render_solid]
      exact next_gap gap hBlank
  | comment gap remark inserted later ih =>
      obtain ⟨more, hText⟩ := remark.text_cons
      simp only [Filler.segments, render_append, render_solid, render_comment, List.append_assoc]
      cases inserted && !full with
      | false =>
          refine ⟨'/', by decide, ?_⟩
          rw [if_neg Bool.false_ne_true, hText]
          exact next_gap gap (by decide)
      | true =>
          obtain ⟨d, hGoes, hNext⟩ := ih
          exact ⟨d, hGoes, hNext.behind gap⟩

theorem goesOn_of_mem (hMark : c ∈ clauseMarks) :
    isWordPart c = false ∧ isBlank c = false ∧ goesOn c = true := by
  simp only [clauseMarks, List.mem_cons, List.not_mem_nil, or_false] at hMark
  rcases hMark with rfl | rfl | rfl | rfl <;> decide

theorem not_part_of_mem (hSign : c ∈ signs) : isWordPart c = false := by
  have hEvery : signs.all (fun c => !isWordPart c) = true := by decide
  simpa using List.all_eq_true.mp hEvery c hSign

/-- Behind a word, a clause goes on apart from it, and not with a specifier. -/
theorem Bindings.follows (b : Bindings .word) (rest : List Char) :
    Ends (render full b.segments ++ rest) ∧
      ∃ d, goesOn d = true ∧ Next (render full b.segments ++ rest) d := by
  cases b with
  | word filler hApart w later =>
      simp only [Bindings.segments, render_append, render_solid, List.append_assoc]
      exact ⟨filler.ends (.inl (hApart rfl)), filler.follows (not_blank_of_isWordStart w.start)
        (goesOn_of_isWordStart w.start)⟩
  | mark filler c hMark later =>
      obtain ⟨hPart, hBlank, hOn⟩ := goesOn_of_mem hMark
      simp only [Bindings.segments, render_append, render_solid, List.append_assoc]
      exact ⟨filler.ends (.inr (ends_cons hPart)), filler.follows hBlank hOn⟩
  | renamed filler hApart between l later =>
      simp only [Bindings.segments, render_append, render_solid, List.append_assoc]
      exact ⟨filler.ends (.inl (hApart rfl)), filler.follows (c := 'a') (by decide) (by decide)⟩
  | origin filler hApart gap l =>
      simp only [Bindings.segments, render_append, render_solid, List.append_assoc]
      exact ⟨filler.ends (.inl (hApart rfl)), filler.follows (c := 'f') (by decide) (by decide)⟩

/-- Behind a word, a module does not go on with a letter. -/
theorem Tokens.ends (t : Tokens .word) : Ends (render full t.segments) := by
  cases t with
  | done filler =>
      have hEnd : Ends (render full filler.segments ++ []) := filler.ends (.inr (by simp [Ends]))
      simpa [Tokens.segments] using hEnd
  | link filler hApart hDot item later =>
      simp only [Tokens.segments, render_append, List.append_assoc]
      exact filler.ends (.inl (hApart rfl))
  | name filler hApart n later =>
      simp only [Tokens.segments, render_append, List.append_assoc]
      exact filler.ends (.inl (hApart rfl))
  | string filler l later =>
      simp only [Tokens.segments, render_append, render_solid, List.append_assoc]
      exact filler.ends (.inr (ends_cons (not_part_of_isQuote l.isQuote)))
  | sign filler c hSign later =>
      simp only [Tokens.segments, render_append, render_solid, List.append_assoc]
      exact filler.ends (.inr (ends_cons (not_part_of_mem hSign)))
  | dot filler later | spread filler later =>
      simp only [Tokens.segments, render_append, render_solid, List.append_assoc]
      exact filler.ends (.inr (ends_cons (by decide)))

/-- What a clause starts with ends the word in front of it. -/
theorem Head.follows (head : Head) (gap : Gap) (rest : List Char)
    (hGap : head.edge = .word → gap.text ≠ []) :
    Ends (gap.text ++ (head.text ++ rest)) ∧ Next (gap.text ++ (head.text ++ rest)) head.first := by
  cases head with
  | word w =>
      exact ⟨ends_gap gap fun hNone => absurd hNone (hGap rfl),
        next_gap gap (not_blank_of_isWordStart w.start)⟩
  | star | brace =>
      exact ⟨ends_gap gap fun _ => ends_cons (by decide), next_gap gap (by decide)⟩

/-! ### Reading -/

/-- A place between two tokens: whether a `from` may end a clause, and what stands in front. -/
structure Spot where
  awaiting : Bool
  edge : Edge

/-- The frame at a place between two tokens. -/
structure Frame.At (f : Frame) (p : Spot) : Prop where
  mode : f.mode = .code
  awaiting : f.awaiting = p.awaiting
  member : p.edge ≠ .dot → f.member = false
  substitutions : f.substitutions = []

/-- The scanner reads the segments from one place to another one, in front of `rest`. -/
def Reads (full : Bool) (p : Spot) (segments : List Segment) (q : Spot) (rest : List Char) : Prop :=
  ∀ f : Frame, f.At p → ∃ g : Frame, g.At q ∧
    Leads f (render full segments ++ rest) (visible full segments) g rest

variable {p q r : Spot} {first second : List Segment}

theorem Reads.append (left : Reads full p first q (render full second ++ rest))
    (right : Reads full q second r rest) : Reads full p (first ++ second) r rest := by
  intro f hHere
  obtain ⟨g, hThere, hFirst⟩ := left f hHere
  obtain ⟨h, hEnd, hSecond⟩ := right g hThere
  exact ⟨h, hEnd, by simpa using hFirst.trans hSecond⟩

theorem reads_solid (text : List Char)
    (h : ∀ f : Frame, f.At p → ∃ g : Frame, g.At q ∧ Leads f (text ++ rest) (plain text) g rest) :
    Reads full p (solid text) q rest := by
  simpa [Reads] using h

/-- A token that leaves the clause open or closed as it is. -/
theorem reads_token (text : List Char) (e : Edge)
    (h : ∀ f : Frame, f.At p → Leads f (text ++ rest) (plain text) f.past rest) :
    Reads full p (solid text) ⟨p.awaiting, e⟩ rest :=
  reads_solid text fun f hHere =>
    ⟨f.past, ⟨hHere.mode, hHere.awaiting, fun _ => rfl, hHere.substitutions⟩, h f hHere⟩

/-- A target behind its word ends a clause. -/
theorem reads_target (text : List Char) (l : Literal)
    (h : ∀ f : Frame, f.At p → Leads f (text ++ (l.piece.text ++ rest)) (plain text ++ [l.piece])
      { f.past with awaiting := false } rest) :
    Reads full p (solid text ++ [.piece l.piece]) ⟨false, .other⟩ rest := by
  intro f hHere
  exact ⟨{ f.past with awaiting := false }, ⟨hHere.mode, rfl, fun _ => rfl, hHere.substitutions⟩,
    by simpa using h f hHere⟩

theorem reads_gap (gap : Gap) : Reads full p (solid gap.text) p rest :=
  reads_solid gap.text fun f hHere => ⟨f, hHere, leads_gap gap hHere.mode⟩

theorem leads_comment (c : Comment) (hCode : f.mode = .code) :
    Leads f (c.text ++ rest) (plain c.text) f.past rest := by
  cases c with
  | line text hText =>
      have hLine : Leads f _ _ f.past rest := leads_lineComment hText hCode
      simpa [Comment.text] using hLine
  | block text hText =>
      have hBlock : Leads f _ _ f.past rest := leads_blockComment hText hCode
      simpa [Comment.text] using hBlock

/-- Fillers do not count, with or without the comments that are put in. -/
theorem reads_filler (filler : Filler) : Reads full p filler.segments p rest := by
  induction filler with
  | blanks gap => exact reads_gap gap
  | comment gap c inserted later ih =>
      refine (Reads.append (reads_gap gap) ?_).append ih
      intro f hHere
      rw [render_comment, visible_comment]
      cases inserted && !full with
      | false =>
          exact ⟨f.past, ⟨hHere.mode, hHere.awaiting, fun _ => rfl, hHere.substitutions⟩,
            leads_comment c hHere.mode⟩
      | true => exact ⟨f, hHere, .refl f _⟩

/-- A token with the filler in front of it, and what follows it. -/
theorem Reads.behind (filler : Filler) (token : Reads full p first q (render full second ++ rest))
    (later : Reads full q second r rest) : Reads full p (filler.segments ++ first ++ second) r rest :=
  ((reads_filler filler).append token).append later

theorem keeps_operator {s : Scanner} (hOperator : c ∈ operators) : Keeps s (s.code c rest) := by
  simp only [operators, List.mem_cons, List.not_mem_nil, or_false] at hOperator
  rcases hOperator with rfl | rfl | rfl | rfl | rfl | rfl | rfl | rfl | rfl | rfl <;>
    simp only [Scanner.code, isQuote, isWordStart, isBlank] <;>
    exact ⟨⟨rfl, rfl, rfl⟩, rfl, rfl, rfl, rfl⟩

/-- A sign is a token of its own. A semicolon ends a clause, and the braces are counted. -/
theorem leads_sign (hSign : c ∈ signs) (hCode : f.mode = .code) (hOuter : f.substitutions = []) :
    ∃ braces, Leads f (c :: rest) (plain [c])
      { f.past with awaiting := f.awaiting && c ≠ ';', braces := braces } rest := by
  have hKinds : ∀ d ∈ signs, d = ';' ∨ d = '\x7b' ∨ d = '\x7d' ∨
      d ≠ ';' ∧ d ≠ '.' ∧ (isMark d = true ∨ d ∈ operators) :=
    List.all_iff_forall_prop.mp (by decide)
  rcases hKinds c hSign with rfl | rfl | rfl | ⟨hOther, hDot, hKind⟩
  · exact ⟨f.braces, by simpa [Frame.past] using leads_semicolon hCode⟩
  · exact ⟨f.braces + 1, by simpa [Frame.past] using leads_openBrace hCode⟩
  · exact ⟨f.braces - 1, by simpa [Frame.past] using leads_closeBrace hCode (by simp [hOuter])⟩
  · have hKeeps (s : Scanner) : Keeps s (s.code c rest) := hKind.elim keeps_mark keeps_operator
    exact ⟨f.braces, by simpa [hOther, Frame.past] using leads_keeps hCode hKeeps hDot⟩

theorem reads_sign (hSign : c ∈ signs) :
    Reads full p (solid [c]) ⟨p.awaiting && c ≠ ';', .other⟩ rest := by
  refine reads_solid [c] fun f hHere => ?_
  obtain ⟨braces, hLeads⟩ : ∃ braces, Leads f (c :: rest) (plain [c])
      { f.past with awaiting := f.awaiting && c ≠ ';', braces := braces } rest :=
    leads_sign hSign hHere.mode hHere.substitutions
  exact ⟨{ f.past with awaiting := f.awaiting && c ≠ ';', braces := braces },
    ⟨hHere.mode, by rw [hHere.awaiting], fun _ => rfl, hHere.substitutions⟩, hLeads⟩

theorem reads_clauseMark (hMark : c ∈ clauseMarks) :
    Reads full p (solid [c]) ⟨p.awaiting, .other⟩ rest := by
  have hOther : c ≠ ';' := by
    rintro rfl
    exact absurd hMark (by decide)
  have hReads : Reads full p (solid [c]) ⟨p.awaiting && c ≠ ';', .other⟩ rest :=
    reads_sign (List.mem_append_left _ (List.mem_append_right _ hMark))
  simpa [hOther] using hReads

/-- The word in front of a name that is no word. -/
def asName : Name where
  toWord := asWord
  notImport := by decide
  notExport := by decide

theorem reads_as (hEnd : Ends rest) : Reads full p (solid asWord.text) ⟨p.awaiting, .other⟩ rest :=
  reads_token asWord.text .other fun _ hHere => leads_name asName hHere.mode (fun _ => by decide) hEnd

theorem reads_string (l : Literal) : Reads full p (solid l.text) ⟨p.awaiting, .other⟩ rest :=
  reads_token l.text .other fun _ hHere => leads_literal l hHere.mode

theorem reads_name {e : Edge} (n : Name) (hEnd : Ends rest) :
    Reads full ⟨false, e⟩ (solid n.text) ⟨false, .word⟩ rest := by
  refine reads_token n.text .word fun f hHere => leads_name n hHere.mode (fun hAwaits => ?_) hEnd
  exact absurd (hHere.awaiting.symm.trans hAwaits) Bool.false_ne_true

theorem reads_dot : Reads full p (solid ['.']) ⟨p.awaiting, .dot⟩ rest :=
  reads_solid ['.'] fun f hHere => ⟨{ f with member := true },
    ⟨hHere.mode, hHere.awaiting, fun hDot => absurd rfl hDot, hHere.substitutions⟩, leads_dot hHere.mode⟩

theorem reads_spread : Reads full p (solid ['.', '.', '.']) ⟨p.awaiting, .other⟩ rest :=
  reads_token ['.', '.', '.'] .other fun _ hHere => leads_spread hHere.mode

/-- A name of a clause, in front of what the clause goes on with. -/
theorem reads_binding {e : Edge} (w : Word) (b : Bindings .word) (he : e ≠ .dot) :
    Reads full ⟨true, e⟩ (solid w.text) ⟨true, .word⟩ (render full b.segments ++ rest) := by
  obtain ⟨hEnds, c, hOn, hNext⟩ := b.follows rest
  exact reads_token w.text .word fun f hHere =>
    leads_binding w hHere.mode hHere.awaiting (hHere.member he) hEnds hNext hOn

/-- From the edge of a clause, the scanner reads on behind its specifier. -/
theorem Bindings.reads {e : Edge} (b : Bindings e) (he : e ≠ .dot) :
    Reads full ⟨true, e⟩ b.segments ⟨false, .other⟩ rest := by
  induction b generalizing rest with
  | word filler hApart w later ih =>
      exact Reads.behind filler (reads_binding w later he) (ih (by decide))
  | mark filler c hMark later ih => exact Reads.behind filler (reads_clauseMark hMark) (ih (by decide))
  | quoted filler l later ih => exact Reads.behind filler (reads_string l) (ih he)
  | renamed filler hApart between l later ih =>
      refine Reads.append (Reads.append (Reads.behind filler (reads_as ?_) (reads_filler between))
        (reads_string l)) (ih (by decide))
      rw [render_solid]
      exact between.ends (.inr (ends_cons (not_part_of_isQuote l.isQuote)))
  | origin filler hApart gap l =>
      rw [Bindings.segments, List.append_assoc]
      refine Reads.append (reads_filler filler) (reads_target _ l fun f hHere => ?_)
      have hFrom : Leads f _ _ _ rest := leads_from gap l hHere.mode (hHere.member he) hHere.awaiting
      simpa using hFrom

theorem Head.reads (head : Head) (b : Bindings head.edge) :
    Reads full ⟨true, .other⟩ (solid head.text) ⟨true, head.edge⟩ (render full b.segments ++ rest) := by
  cases head with
  | word w => exact reads_binding w b (by decide)
  | star | brace => exact reads_clauseMark (by decide)

theorem Head.edge_ne_dot (head : Head) : head.edge ≠ .dot := by
  cases head <;> simp [Head.edge]

/-- A keyword in front of a clause. -/
theorem reads_keyword {e : Edge} (text : List Char)
    (h : ∀ f : Frame, f.At ⟨false, e⟩ →
      Leads f (text ++ rest) (plain text) { f.past with awaiting := true } rest) :
    Reads full ⟨false, e⟩ (solid text) ⟨true, .other⟩ rest :=
  reads_solid text fun f hHere => ⟨{ f.past with awaiting := true },
    ⟨hHere.mode, rfl, fun _ => rfl, hHere.substitutions⟩, h f hHere⟩

/-- The scanner comes to the specifier of an import or reexport. -/
theorem Link.reads {e : Edge} (item : Link) (he : e ≠ .dot) :
    Reads full ⟨false, e⟩ item.segments ⟨false, .other⟩ rest := by
  cases item with
  | effect gap l =>
      refine reads_target _ l fun f hHere => ?_
      have hEffect : Leads f _ _ _ rest := leads_effect gap l hHere.mode (hHere.member he)
      simpa using hEffect
  | dynamic first second l =>
      refine reads_target _ l fun f hHere => ?_
      have hDynamic : Leads f _ _ _ rest := leads_dynamic first second l hHere.mode (hHere.member he)
      simpa using hDynamic
  | imports gap head hGap b =>
      refine Reads.append (Reads.append (Reads.append ?_ (reads_gap gap)) (head.reads b))
        (b.reads head.edge_ne_dot)
      obtain ⟨hEnds, hNext⟩ := head.follows gap (render full b.segments ++ rest) hGap
      have hClause : head.first = '\x7b' ∨ head.first = '*' ∨ isWordStart head.first = true := by
        cases head with
        | word w => exact .inr (.inr w.start)
        | star => exact .inr (.inl rfl)
        | brace => exact .inl rfl
      simp only [render_solid]
      exact reads_keyword importWord.text fun f hHere =>
        leads_import hHere.mode (hHere.member he) hEnds hNext hClause
  | reexports gap head hHead b =>
      refine Reads.append (Reads.append (Reads.append ?_ (reads_gap gap)) (head.reads b))
        (b.reads head.edge_ne_dot)
      obtain ⟨hEnds, hNext⟩ := head.follows gap (render full b.segments ++ rest)
        fun hWord => absurd hWord hHead
      have hClause : head.first = '\x7b' ∨ head.first = '*' := by
        cases head with
        | word w => exact absurd rfl hHead
        | star => exact .inr rfl
        | brace => exact .inl rfl
      simp only [render_solid]
      exact reads_keyword exportWord.text fun f hHere =>
        leads_export hHere.mode (hHere.member he) hEnds hNext hClause

/-- The scanner reads a module to its end. -/
theorem Tokens.reads {e : Edge} (t : Tokens e) (full : Bool) :
    ∃ q, Reads full ⟨false, e⟩ t.segments q [] := by
  induction t with
  | done filler => exact ⟨_, reads_filler filler⟩
  | link filler hApart hDot item later ih =>
      obtain ⟨q, hLater⟩ := ih
      exact ⟨q, .behind filler (item.reads hDot) hLater⟩
  | name filler hApart n later ih =>
      obtain ⟨q, hLater⟩ := ih
      exact ⟨q, .behind filler (reads_name n (by simpa using later.ends)) hLater⟩
  | string filler l later ih =>
      obtain ⟨q, hLater⟩ := ih
      exact ⟨q, .behind filler (reads_string l) hLater⟩
  | sign filler c hSign later ih =>
      obtain ⟨q, hLater⟩ := ih
      exact ⟨q, .behind filler (reads_sign hSign) hLater⟩
  | dot filler later ih =>
      obtain ⟨q, hLater⟩ := ih
      exact ⟨q, .behind filler reads_dot hLater⟩
  | spread filler later ih =>
      obtain ⟨q, hLater⟩ := ih
      exact ⟨q, .behind filler reads_spread hLater⟩

/-! ### Relinking -/

section Relinking

variable {m : Type → Type} [Monad m] (map : String → m (Option String))

/-- Asks a map for a target. Everything else stays. -/
def Segment.relink : Segment → m Segment
  | .piece (.target quote raw) => return .piece (.target quote (edited quote raw (← ask map raw)))
  | segment => pure segment

variable [LawfulMonad m]

/-- Whether or not the comments are put in, the map is asked for the same targets. -/
theorem relinkAll_visible (full : Bool) (segments : List Segment) :
    relinkAll map (visible full segments) = render full <$> segments.mapM (Segment.relink map) := by
  have hCons (segment : Segment) (others : List Segment) :
      visible full (segment :: others) = segment.pieces full ++ visible full others := rfl
  have hText (segment : Segment) (others : List Segment) :
      render full (segment :: others) = (segment.pieces full).flatMap Piece.text ++ render full others := by
    rw [render, hCons, List.flatMap_append]
    rfl
  induction segments with
  | nil => simp [visible, render]
  | cons segment segments ih =>
      rw [hCons, relinkAll_append, ih, List.mapM_cons]
      cases segment with
      | piece p =>
          cases p <;> simp [Segment.pieces, Segment.relink, relinkAll, Piece.relink, hText, Piece.text]
      | inserted c => cases full <;> simp [Segment.pieces, Segment.relink, hText]

end Relinking

/-- The text of a module with the comments that are put in, or without them. -/
def Tokens.print (module : Tokens .other) (full : Bool) : List Char :=
  render full module.segments

/-- The scanner accepts the text of a module, and what it reads are the pieces of the module. -/
theorem Tokens.survey_print (module : Tokens .other) (full : Bool) :
    ∃ read, survey (module.print full) = ⟨read, none⟩ ∧
      read.flatMap Piece.marks = visible full module.segments := by
  obtain ⟨q, hReads⟩ := module.reads full
  obtain ⟨g, hEnd, hLeads⟩ := hReads top ⟨rfl, rfl, fun _ => rfl, rfl⟩
  rw [List.append_nil] at hLeads
  obtain ⟨read, t, hScans, hRead, hThere⟩ :=
    hLeads (Scanner.initial (module.print full)) ⟨rfl, rfl, rfl, fun _ => rfl, rfl, rfl⟩
  refine ⟨read, survey_eq hScans hThere.ahead ?_, hRead⟩
  rw [Scanner.pending, hThere.mode, hEnd.mode, hThere.substitutions, hEnd.substitutions]
  rfl

/-- Comments between the tokens of imports and reexports do not count, as long as none stands right behind
`import`, `import(`, `export` or the `from` in front of a specifier. Whether or not they are put in, the text
is accepted, the map is asked for the same specifiers in the same order, and what comes out is the same text
with other specifiers, with the comments in their places or without them. -/
theorem relink_remarks (module : Tokens .other) :
    asked (String.ofList (module.print true)) = asked (String.ofList (module.print false)) ∧
    ∀ full : Bool, failure? (String.ofList (module.print full)) = none ∧
      ∀ (m : Type → Type) [Monad m] [LawfulMonad m] (map : String → m (Option String)),
        relink map (String.ofList (module.print full)) =
          (fun segments => .ok (String.ofList (render full segments))) <$>
            module.segments.mapM (Segment.relink map) := by
  have hBoth (full : Bool) : failure? (String.ofList (module.print full)) = none ∧
      ∀ (m : Type → Type) [Monad m] [LawfulMonad m] (map : String → m (Option String)),
        relink map (String.ofList (module.print full)) =
          (fun segments => .ok (String.ofList (render full segments))) <$>
            module.segments.mapM (Segment.relink map) := by
    obtain ⟨read, hSurvey, hRead⟩ := module.survey_print full
    have hAccepted : failure? (String.ofList (module.print full)) = none := by
      rw [failure?, String.toList_ofList, hSurvey]
    refine ⟨hAccepted, ?_⟩
    intro m _ _ map
    rw [relink_eq_relinkAll, hAccepted, String.toList_ofList, hSurvey]
    dsimp only
    rw [← relinkAll_marks, hRead, relinkAll_visible]
    simp
  refine ⟨?_, hBoth⟩
  have hAsked (full : Bool) : asked (String.ofList (module.print full)) =
      ((module.segments.mapM (Segment.relink (recording fun _ => none))).run []).2 := by
    rw [← relink_recording (fun _ => none), (hBoth full).2]
    rfl
  rw [hAsked true, hAsked false]

example :
    let none : Filler := .blanks ⟨[], List.all_eq_true.mp rfl⟩
    let space : Gap := ⟨[' '], List.all_eq_true.mp rfl⟩
    let before : Filler := .comment space (.block [' ', 'b', ' '] (by decide)) true none
    let clause : Bindings .word := .origin before
      (fun _ => by simp [before, space, Filler.Parts, Filler.segments]) ⟨[], List.all_eq_true.mp rfl⟩
      ⟨'"', ['c'], rfl, .plain (by decide) (by decide) rfl .nil⟩
    let module : Tokens .other := .link none (by simp) (by decide)
      (.imports space (.word ⟨'a', [], rfl, List.all_eq_true.mp rfl⟩) (by decide) clause) (.done none)
    module.print true = "import a /* b */from\"c\"".toList ∧
      module.print false = "import a from\"c\"".toList := by
  decide

/-- A comment in front of what the scanner looks for behind blanks alone hides the import. -/
theorem asked_behind_remark :
    asked "import 'a'" = ["a"] ∧ asked "import/**/'a'" = [] ∧
    asked "import('a')" = ["a"] ∧ asked "import(/**/'a')" = [] ∧ asked "import/**/('a')" = [] ∧
    asked "import b from 'a'" = ["a"] ∧ asked "import/**/b from 'a'" = [] ∧
      asked "import b from/**/'a'" = [] ∧
    asked "export*from'a'" = ["a"] ∧ asked "export/**/*from'a'" = [] := by
  decide

end ModuleGateway.Relink.Concrete
