import ModuleGateway.Proofs.Relink.Construct
import ModuleGateway.Proofs.Relink.Grammar

/-!
How the scanner reads the tokens of printed modules. A frame says what counts of a scanner: what it stands
in, whether a `from` may end a clause, whether the next word may be a member name, and the open braces.
Each token leads from the frame in front of it to the frame behind it, whatever else the scanner holds.
-/

namespace ModuleGateway.Relink

/-- The characters of a piece. A target counts as one. -/
def Piece.marks : Piece → List Piece
  | .verbatim text => Concrete.plain text
  | .target quote raw => [.target quote raw]

namespace Concrete

/-- What counts of a scanner. -/
structure Frame where
  mode : Mode
  /-- A `from` in front of a quote ends a clause. -/
  awaiting : Bool
  /-- The next word may be a member name. -/
  member : Bool
  braces : Nat
  substitutions : List Nat

/-- The scanner stands in front of the text in this way. -/
structure Frame.Holds (f : Frame) (text : List Char) (s : Scanner) : Prop where
  ahead : s.ahead = text
  mode : s.mode = f.mode
  awaiting : s.awaitingFrom = f.awaiting
  member : f.member = false → s.isMember = false
  braces : s.braces = f.braces
  substitutions : s.substitutions = f.substitutions

/-- The frame behind a token that is no member dot. -/
def Frame.past (f : Frame) : Frame :=
  { f with member := false }

/-- From every scanner that stands in front of `text` in the first way the scan comes to one that stands
in front of `rest` in the second way, and reads these pieces, taken character by character. -/
def Leads (f : Frame) (text : List Char) (pieces : List Piece) (g : Frame) (rest : List Char) : Prop :=
  ∀ s, f.Holds text s → ∃ read t, s.Scans read t ∧ read.flatMap Piece.marks = pieces ∧ g.Holds rest t

variable {f g h : Frame} {first second : List Piece} {c : Char} {text rest tail : List Char}
  {s t : Scanner}

theorem Leads.refl (f : Frame) (text : List Char) : Leads f text [] f text :=
  fun s hHere => ⟨[], s, .refl s, rfl, hHere⟩

theorem Leads.trans (left : Leads f text first g rest) (right : Leads g rest second h tail) :
    Leads f text (first ++ second) h tail := by
  intro s hHere
  obtain ⟨read, t, hScans, hRead, hThere⟩ := left s hHere
  obtain ⟨read', u, hScans', hRead', hEnd⟩ := right t hThere
  exact ⟨read ++ read', u, hScans.trans hScans', by rw [List.flatMap_append, hRead, hRead'], hEnd⟩

theorem plain_append (x y : List Char) : plain (x ++ y) = plain x ++ plain y :=
  List.map_append

theorem flatMap_marks (texts : List (List Char)) :
    (texts.map Piece.verbatim).flatMap Piece.marks = plain texts.flatten := by
  induction texts with
  | nil => rfl
  | cons text texts ih =>
      rw [List.map_cons, List.flatMap_cons, ih, List.flatten_cons, plain_append]
      rfl

theorem leads_of_skips (text : List Char)
    (hSkips : ∀ s, f.Holds (text ++ rest) s → ∃ t, s.Skips text t ∧ g.Holds rest t) :
    Leads f (text ++ rest) (plain text) g rest := by
  intro s hHere
  obtain ⟨t, ⟨-, texts, hTexts, hScans⟩, hThere⟩ := hSkips s hHere
  exact ⟨texts.map .verbatim, t, hScans, by rw [flatMap_marks, hTexts], hThere⟩

/-- Less may be known of the next word. -/
theorem Leads.weaken (hLeads : Leads f text first g rest) (hMember : h.member = false → g.member = false)
    (hSame : h = { g with member := h.member }) : Leads f text first h rest := by
  intro s hHere
  obtain ⟨read, t, hScans, hRead, hThere⟩ := hLeads s hHere
  rw [hSame]
  exact ⟨read, t, hScans, hRead, { hThere with member := fun hNot => hThere.member (hMember hNot) }⟩

theorem isMember_of_behind {behind : List Char} (hBehind : s.behind = c :: behind) (hDot : c ≠ '.') :
    s.isMember = false := by
  unfold Scanner.isMember
  rw [hBehind]
  split
  · rename_i hTriple
    exact absurd (List.cons.inj hTriple).1 hDot
  · rename_i hSingle
    exact absurd (List.cons.inj hSingle).1 hDot
  · rfl

/-- Behind a text whose last character is no dot, the next word is no member name. -/
theorem isMember_of_passes (text : List Char) (move : s.Passes (text ++ [c]) t) (hDot : c ≠ '.') :
    t.isMember = false :=
  isMember_of_behind (by rw [move.behind, List.reverse_append]; rfl) hDot

/-! ### Single characters -/

/-- What a step of code over one character has to leave alone. -/
structure Keeps (s t : Scanner) : Prop where
  move : s.MovesBy 1 t
  mode : t.mode = s.mode
  awaiting : t.awaitingFrom = s.awaitingFrom
  braces : t.braces = s.braces
  substitutions : t.substitutions = s.substitutions

theorem skips_char (hMode : s.mode = .code) (hAhead : s.ahead = c :: rest)
    (move : s.MovesBy 1 (s.code c rest)) : s.Skips [c] (s.code c rest) := by
  refine Scanner.skips_of_step (by simp [hAhead]) (show s.ahead = [c] ++ rest from hAhead) move
    fun d tail hHere => ?_
  obtain ⟨rfl, rfl⟩ := List.cons.inj (hAhead.symm.trans hHere)
  simp only [Scanner.step, hMode]

theorem code_blank (hBlank : isBlank c = true) : s.code c rest = s.advance 1 := by
  have hCases : c = ' ' ∨ c = '\t' ∨ c = '\n' ∨ c = '\x0c' ∨ c = '\r' := by
    simpa [isBlank, or_assoc] using hBlank
  rcases hCases with rfl | rfl | rfl | rfl | rfl <;>
    simp [Scanner.code, isQuote, isWordStart, isBlank]

/-- The characters that are tokens of their own and leave the braces alone. -/
def isMark (c : Char) : Bool :=
  c = '=' || c = ',' || c = '*' || c = '.' || c = '(' || c = ')' || c = '[' || c = ']'

theorem keeps_blank (hBlank : isBlank c = true) : Keeps s (s.code c rest) := by
  rw [code_blank hBlank]
  exact ⟨⟨rfl, rfl, rfl⟩, rfl, rfl, rfl, rfl⟩

theorem keeps_mark (hMark : isMark c = true) : Keeps s (s.code c rest) := by
  have hCases : c = '=' ∨ c = ',' ∨ c = '*' ∨ c = '.' ∨ c = '(' ∨ c = ')' ∨ c = '[' ∨ c = ']' := by
    simpa [isMark, or_assoc] using hMark
  rcases hCases with rfl | rfl | rfl | rfl | rfl | rfl | rfl | rfl <;>
    simp only [Scanner.code, isQuote, isWordStart, isBlank, Scanner.closeParen] <;>
    exact ⟨⟨rfl, rfl, rfl⟩, rfl, rfl, rfl, rfl⟩

theorem holds_keeps (hHere : f.Holds (c :: rest) s) (hKeeps : Keeps s t)
    (hMember : g.member = false → t.isMember = false)
    (hSame : g = { f with member := g.member }) : g.Holds rest t := by
  rw [hSame]
  refine ⟨?_, hKeeps.mode.trans hHere.mode, hKeeps.awaiting.trans hHere.awaiting, hMember,
    hKeeps.braces.trans hHere.braces, hKeeps.substitutions.trans hHere.substitutions⟩
  rw [hKeeps.move.ahead, hHere.ahead]
  rfl

theorem behind_keeps (hHere : f.Holds (c :: rest) s) (hKeeps : Keeps s t) :
    t.behind = c :: s.behind := by
  rw [hKeeps.move.behind, hHere.ahead]
  rfl

/-- A character that is a token of its own, and no dot. -/
theorem leads_char (hCode : f.mode = .code) (hDot : c ≠ '.')
    (hMove : ∀ s, f.Holds (c :: rest) s → s.MovesBy 1 (s.code c rest))
    (hMode : ∀ s, f.Holds (c :: rest) s → (s.code c rest).mode = g.mode)
    (hAwaiting : ∀ s, f.Holds (c :: rest) s → (s.code c rest).awaitingFrom = g.awaiting)
    (hBraces : ∀ s, f.Holds (c :: rest) s → (s.code c rest).braces = g.braces)
    (hOuter : ∀ s, f.Holds (c :: rest) s → (s.code c rest).substitutions = g.substitutions) :
    Leads f (c :: rest) (plain [c]) g rest := by
  refine leads_of_skips [c] fun s hHere => ?_
  have hSkips := skips_char (hHere.mode.trans hCode) hHere.ahead (hMove s hHere)
  refine ⟨s.code c rest, hSkips, ?_, hMode s hHere, hAwaiting s hHere,
    fun _ => isMember_of_passes [] hSkips.1 hDot, hBraces s hHere, hOuter s hHere⟩
  rw [(hMove s hHere).ahead, hHere.ahead]
  rfl

theorem leads_keeps (hCode : f.mode = .code) (hKeeps : ∀ s, Keeps s (s.code c rest)) (hDot : c ≠ '.') :
    Leads f (c :: rest) (plain [c]) f.past rest :=
  leads_char hCode hDot (fun s _ => (hKeeps s).move)
    (fun s hHere => (hKeeps s).mode.trans hHere.mode)
    (fun s hHere => (hKeeps s).awaiting.trans hHere.awaiting)
    (fun s hHere => (hKeeps s).braces.trans hHere.braces)
    fun s hHere => (hKeeps s).substitutions.trans hHere.substitutions

theorem leads_gap (gap : Gap) (hCode : f.mode = .code) :
    Leads f (gap.text ++ rest) (plain gap.text) f rest := by
  obtain ⟨text, hBlank⟩ := gap
  dsimp only
  induction text with
  | nil => exact .refl f rest
  | cons c text ih =>
      obtain ⟨hFirst, hOthers⟩ := List.forall_mem_cons.mp hBlank
      have hDot : c ≠ '.' := by
        rintro rfl
        exact absurd hFirst (by decide)
      have hBlankStep : Leads f (c :: (text ++ rest)) (plain [c]) f.past (text ++ rest) :=
        leads_keeps hCode (fun s => keeps_blank hFirst) hDot
      exact (hBlankStep.weaken (fun _ => rfl) rfl).trans (ih hOthers)

theorem leads_mark (hMark : isMark c = true) (hDot : c ≠ '.') (hCode : f.mode = .code) :
    Leads f (c :: rest) (plain [c]) f.past rest :=
  leads_keeps hCode (fun _ => keeps_mark hMark) hDot

theorem leads_dot (hCode : f.mode = .code) :
    Leads f ('.' :: rest) (plain ['.']) { f with member := true } rest := by
  refine leads_of_skips ['.'] fun s hHere => ?_
  have hKeeps : Keeps s (s.code '.' rest) := keeps_mark (by decide)
  exact ⟨s.code '.' rest, skips_char (hHere.mode.trans hCode) hHere.ahead hKeeps.move,
    holds_keeps hHere hKeeps (fun hNot => by cases hNot) rfl⟩

/-- Behind the three dots of a spread comes no member name. -/
theorem leads_spread (hCode : f.mode = .code) :
    Leads f ('.' :: '.' :: '.' :: rest) (plain ['.', '.', '.']) f.past rest := by
  refine leads_of_skips ['.', '.', '.'] fun s hHere => ?_
  have hDot (s : Scanner) (text : List Char) (hHere : { f with member := true }.Holds ('.' :: text) s) :
      ∃ t, s.Skips ['.'] t ∧ { f with member := true }.Holds text t ∧ t.behind = '.' :: s.behind := by
    have hKeeps : Keeps s (s.code '.' text) := keeps_mark (by decide)
    exact ⟨s.code '.' text, skips_char (hHere.mode.trans hCode) hHere.ahead hKeeps.move,
      holds_keeps hHere hKeeps (fun hNot => by cases hNot) rfl, behind_keeps hHere hKeeps⟩
  obtain ⟨t, hFirst, hT, hBehindT⟩ := hDot s _ { hHere with member := fun hNot => by cases hNot }
  obtain ⟨u, hSecond, hU, hBehindU⟩ := hDot t _ hT
  obtain ⟨v, hThird, hV, hBehindV⟩ := hDot u _ hU
  refine ⟨v, hFirst.trans (hSecond.trans hThird), { hV with member := fun _ => ?_ }⟩
  rw [Scanner.isMember, hBehindV, hBehindU, hBehindT]
  rfl

/-- Plus signs without a gap between them are read in pairs. -/
theorem leads_pluses (hCode : f.mode = .code) (hRest : rest.head? ≠ some '+') (k : Nat) :
    Leads f (List.replicate k '+' ++ rest) (plain (List.replicate k '+'))
      { f with member := f.member && k == 0 } rest := by
  induction k using Nat.strong_induction_on generalizing f with
  | _ k ih =>
      match k with
      | 0 => exact (Leads.refl f rest).weaken (fun hNot => by simpa using hNot) rfl
      | 1 =>
          have hKeeps (s : Scanner) : Keeps s (s.code '+' rest) := by
            have hToken : s.code '+' rest = s.token 1 .operator := by
              simp [Scanner.code, isQuote, isWordStart, isBlank, hRest]
            rw [hToken]
            exact ⟨⟨rfl, rfl, rfl⟩, rfl, rfl, rfl, rfl⟩
          exact (leads_keeps hCode hKeeps (by decide)).weaken (fun _ => rfl) rfl
      | k + 2 =>
          have hPair : Leads f ('+' :: '+' :: (List.replicate k '+' ++ rest)) (plain ['+', '+']) f.past
              (List.replicate k '+' ++ rest) := by
            refine leads_of_skips ['+', '+'] fun s hHere => ?_
            have hToken : ∃ prior, s.code '+' ('+' :: (List.replicate k '+' ++ rest)) = s.token 2 prior :=
              ⟨_, by simp [Scanner.code, isQuote]; rfl⟩
            obtain ⟨prior, hToken⟩ := hToken
            have hSkips : s.Skips ['+', '+'] (s.token 2 prior) := by
              refine Scanner.skips_of_step (by simp [hHere.ahead]) hHere.ahead ⟨rfl, rfl, rfl⟩
                fun d tail hAhead => ?_
              obtain ⟨rfl, rfl⟩ := List.cons.inj (hHere.ahead.symm.trans hAhead)
              simp only [Scanner.step, hHere.mode, hCode]
              rw [← hToken]
              rfl
            refine ⟨s.token 2 prior, hSkips, congrArg (List.drop 2) hHere.ahead, hHere.mode,
              hHere.awaiting, fun _ => isMember_of_passes ['+'] hSkips.1 (by decide),
              hHere.braces, hHere.substitutions⟩
          have hLater := ih k (by omega) (f := f.past) hCode
          exact (hPair.trans hLater).weaken (fun _ => rfl) rfl

theorem leads_semicolon (hCode : f.mode = .code) :
    Leads f (';' :: rest) (plain [';']) { f.past with awaiting := false } rest := by
  have hToken (s : Scanner) :
      s.code ';' rest = { s.token 1 .operator with awaitingFrom := false } := by
    simp [Scanner.code, isQuote]
  refine leads_char hCode (by decide) ?_ ?_ ?_ ?_ ?_ <;> intro s hHere <;> rw [hToken]
  · exact ⟨rfl, rfl, rfl⟩
  · exact hHere.mode
  · exact hHere.braces
  · exact hHere.substitutions

/-! ### Braces -/

theorem leads_openBrace (hCode : f.mode = .code) :
    Leads f ('\x7b' :: rest) (plain ['\x7b']) { f.past with braces := f.braces + 1 } rest := by
  refine leads_char hCode (by decide) ?_ ?_ ?_ ?_ ?_ <;> intro s hHere <;> rw [s.code_openBrace]
  · exact ⟨rfl, rfl, rfl⟩
  · exact hHere.mode
  · exact hHere.awaiting
  · exact congrArg (· + 1) hHere.braces
  · exact hHere.substitutions

/-- A brace closes when the innermost substitution did not start with as many braces open. -/
theorem leads_closeBrace (hCode : f.mode = .code)
    (hOuter : ∀ depth ∈ f.substitutions.head?, depth ≠ f.braces) :
    Leads f ('\x7d' :: rest) (plain ['\x7d']) { f.past with braces := f.braces - 1 } rest := by
  have hToken (s : Scanner) (hHere : f.Holds ('\x7d' :: rest) s) :
      s.code '\x7d' rest = { s.token 1 .operator with braces := s.braces - 1 } := by
    rw [Scanner.code_closeBrace, Scanner.closeBrace, hHere.substitutions, hHere.braces]
    cases hDepth : f.substitutions with
    | nil => rfl
    | cons depth outer => exact if_neg (hOuter depth (by rw [hDepth]; rfl))
  refine leads_char hCode (by decide) ?_ ?_ ?_ ?_ ?_ <;> intro s hHere <;> rw [hToken s hHere]
  · exact ⟨rfl, rfl, rfl⟩
  · exact hHere.mode
  · exact hHere.awaiting
  · exact congrArg (· - 1) hHere.braces
  · exact hHere.substitutions

/-- A brace ends a substitution when as many braces are open as at its start. -/
theorem leads_resume {outer : List Nat} (hCode : f.mode = .code)
    (hOuter : f.substitutions = f.braces :: outer) :
    Leads f ('\x7d' :: rest) (plain ['\x7d'])
      { f.past with mode := .template, substitutions := outer } rest := by
  have hToken (s : Scanner) (hHere : f.Holds ('\x7d' :: rest) s) :
      s.code '\x7d' rest = { s.advance 1 with substitutions := outer, mode := .template } := by
    rw [Scanner.code_closeBrace, Scanner.closeBrace, hHere.substitutions, hOuter, hHere.braces]
    exact if_pos rfl
  refine leads_char hCode (by decide) ?_ ?_ ?_ ?_ ?_ <;> intro s hHere <;> rw [hToken s hHere]
  · exact ⟨rfl, rfl, rfl⟩
  · exact hHere.awaiting
  · exact hHere.braces

theorem leads_backtick (hCode : f.mode = .code) :
    Leads f ('\x60' :: rest) (plain ['\x60']) { f.past with mode := .template } rest := by
  have hToken (s : Scanner) : s.code '\x60' rest = s.openWith 1 .template := by
    simp [Scanner.code, isQuote]
  refine leads_char hCode (by decide) ?_ ?_ ?_ ?_ ?_ <;> intro s hHere <;> rw [hToken]
  · exact ⟨rfl, rfl, rfl⟩
  · rfl
  · exact hHere.awaiting
  · exact hHere.braces
  · exact hHere.substitutions

end Concrete

end ModuleGateway.Relink
