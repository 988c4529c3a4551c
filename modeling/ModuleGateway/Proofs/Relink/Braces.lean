import ModuleGateway.Proofs.Relink.Nesting
import Mathlib.Combinatorics.Enumerative.DyckWord

/-!
Which brace ends a substitution. The scanner has one count of open braces and keeps, for each open
substitution, how many were open when it started. A closing brace in code ends the innermost substitution
when the count is what it was then. The main statement says that this is the brace that matches the start
of the substitution, whatever has been counted in front of it: behind a text whose braces are balanced,
the next closing brace ends the substitution that the text stands in.

The braces of a text are those that the scanner reads in code and the starts of substitutions. Braces in
comments and in the rest of a literal are text.
-/

namespace ModuleGateway.Relink

namespace Scanner

/-- The brace that the next step reads, in code or as the start of a substitution. A substitution is
closed by a brace in code like any other. -/
def brace? (s : Scanner) : Option DyckStep :=
  match s.mode with
  | .code =>
    if s.ahead.head? = some '\x7b' then some .U
    else if s.ahead.head? = some '\x7d' then some .D
    else none
  | .template =>
    match templateChunk s.ahead with
    | some (_, .substitution) => some .U
    | _ => none
  | _ => none

/-- The scanner comes from one state to another and reads these braces on its way. -/
inductive Nests : Scanner → List DyckStep → Scanner → Prop where
  | refl (s : Scanner) : Nests s [] s
  | step {s next t : Scanner} {c : Char} {rest : List Char} {piece : Piece} {braces : List DyckStep}
      (hAhead : s.ahead = c :: rest) (hStep : s.step c rest = .ok (piece, next))
      (later : Nests next braces t) : Nests s (s.brace?.toList ++ braces) t

/-- In the text of a template, the next step reads the start of a substitution and comes to `t`. -/
structure Enters (s t : Scanner) : Prop where
  mode : s.mode = .template
  chunk : ∃ n, templateChunk s.ahead = some (n, .substitution)
  step : ∃ c rest piece, s.ahead = c :: rest ∧ s.step c rest = .ok (piece, t)

/-- A substitution starts with no fewer braces open than those around it, and of the braces that were open
at the start of the innermost one all are open. -/
structure Stacked (s : Scanner) : Prop where
  sorted : s.substitutions.Pairwise (· ≥ ·)
  top : ∀ depth ∈ s.substitutions.head?, depth ≤ s.braces

/-- What a step from `s` to `t` that reads this brace does to the count and to the open substitutions. -/
inductive Counts (s t : Scanner) : Option DyckStep → Prop where
  | same (hCount : t.braces = s.braces) (hOpen : t.substitutions = s.substitutions) : Counts s t none
  | openBrace (hCount : t.braces = s.braces + 1) (hOpen : t.substitutions = s.substitutions) :
      Counts s t (some .U)
  | openSubstitution (hCount : t.braces = s.braces) (hOpen : t.substitutions = s.braces :: s.substitutions) :
      Counts s t (some .U)
  | closeBrace (hOther : ∀ depth ∈ s.substitutions.head?, depth ≠ s.braces)
      (hCount : t.braces = s.braces - 1) (hOpen : t.substitutions = s.substitutions) :
      Counts s t (some .D)
  | closeSubstitution (hCount : t.braces = s.braces) (hOpen : s.substitutions = s.braces :: t.substitutions) :
      Counts s t (some .D)

variable {s t u base : Scanner} {c : Char} {rest : List Char} {piece : Piece} {pieces : List Piece}
  {brace : Option DyckStep} {braces : List DyckStep} {n : Nat} {outer : List Nat}

/-! ### What a step counts -/

/-- The same braces and the same substitutions are open. -/
def Level (s t : Scanner) : Prop :=
  t.braces = s.braces ∧ t.substitutions = s.substitutions

theorem importWord_braces (read : Scanner) : read.importWord.braces = read.braces := by
  rw [importWord_eq]
  split_ifs <;> rfl

theorem exportWord_braces (read : Scanner) : read.exportWord.braces = read.braces := by
  rw [exportWord_eq]
  split_ifs <;> rfl

theorem fromWord_braces (read : Scanner) : read.fromWord.braces = read.braces := by
  rw [fromWord_eq]
  split_ifs <;> rfl

theorem word_level (s : Scanner) : s.Level s.word := by
  refine ⟨?_, (word_continues s).substitutions⟩
  unfold word
  dsimp only
  split
  · rfl
  split
  · exact importWord_braces _
  split
  · exact exportWord_braces _
  split
  · exact fromWord_braces _
  split <;> rfl

theorem slash_level (s : Scanner) (next : Option Char) : s.Level (s.slash next) := by
  unfold slash
  split_ifs <;> exact ⟨rfl, rfl⟩

theorem code_level (hOpen : c ≠ '\x7b') (hClose : c ≠ '\x7d') : s.Level (s.code c rest) := by
  apply code_cases
  case openBrace => exact fun hBrace => absurd hBrace hOpen
  case closeBrace => exact fun hBrace => absurd hBrace hClose
  case slash => exact fun _ => slash_level s _
  case word => exact fun _ => word_level s
  case twice => exact fun _ _ => ⟨rfl, rfl⟩
  case quoted | template | semicolon | openParen | closeParen | closeBracket | number | blank =>
    exact fun _ => ⟨rfl, rfl⟩
  case operator => exact ⟨rfl, rfl⟩

theorem closeBrace_counts (s : Scanner) : s.Counts s.closeBrace (some .D) := by
  unfold closeBrace
  cases hOpen : s.substitutions with
  | nil => exact .closeBrace (by simp [hOpen]) rfl rfl
  | cons depth outer =>
      by_cases hDepth : depth = s.braces
      · simp only [hDepth, if_true]
        exact .closeSubstitution rfl (hDepth ▸ hOpen)
      · simp only [hDepth, if_false]
        exact .closeBrace (by simpa [hOpen] using hDepth) rfl rfl

theorem code_counts (hCode : s.mode = .code) (hAhead : s.ahead = c :: rest) :
    s.Counts (s.code c rest) s.brace? := by
  by_cases hOpen : c = '\x7b'
  · subst hOpen
    have hBrace : s.brace? = some .U := by simp [brace?, hCode, hAhead]
    rw [hBrace, code_openBrace]
    exact .openBrace rfl rfl
  by_cases hClose : c = '\x7d'
  · subst hClose
    have hBrace : s.brace? = some .D := by simp [brace?, hCode, hAhead]
    rw [hBrace, code_closeBrace]
    exact closeBrace_counts s
  · have hBrace : s.brace? = none := by simp [brace?, hCode, hAhead, hOpen, hClose]
    obtain ⟨hCount, hSame⟩ : s.Level (s.code c rest) := code_level hOpen hClose
    rw [hBrace]
    exact .same hCount hSame

/-- Outside of code, only the start of a substitution counts. -/
theorem step_counts (hAhead : s.ahead = c :: rest) (hStep : s.step c rest = .ok (piece, t)) :
    s.Counts t s.brace? := by
  cases step_eq_ok_iff.mp hStep with
  | code hMode => exact code_counts hMode hAhead
  | template hMode hChunk =>
      simp only [brace?, hMode, hChunk]
      exact .same rfl rfl
  | substitution hMode hChunk =>
      simp only [brace?, hMode, hChunk]
      exact .openSubstitution rfl rfl
  | quoted hMode | lineComment hMode | blockComment hMode | regex hMode | target hMode =>
      simp only [brace?, hMode]
      exact .same rfl rfl

/-! ### The stack -/

theorem stacked_initial (source : List Char) : (initial source).Stacked :=
  ⟨.nil, by simp [initial]⟩

/-- Since the stack is sorted, its top bounds all of it. -/
theorem Stacked.le (h : s.Stacked) : ∀ depth ∈ s.substitutions, depth ≤ s.braces := by
  obtain ⟨hSorted, hTop⟩ := h
  cases hInner : s.substitutions with
  | nil => simp
  | cons top outer =>
      rw [hInner] at hSorted hTop
      have hInnermost : top ≤ s.braces := hTop top rfl
      intro depth hMem
      rcases List.mem_cons.mp hMem with rfl | hOuter
      · exact hInnermost
      · exact (List.rel_of_pairwise_cons hSorted hOuter).trans hInnermost

theorem Stacked.step (h : s.Stacked) (hCounts : s.Counts t brace) : t.Stacked := by
  have hSorted := h.sorted
  cases hCounts with
  | same hCount hOpen => exact ⟨hOpen ▸ hSorted, hCount ▸ hOpen ▸ h.top⟩
  | openBrace hCount hOpen =>
      refine ⟨hOpen ▸ hSorted, fun depth hTop => ?_⟩
      rw [hCount]
      exact Nat.le_succ_of_le (h.top depth (hOpen ▸ hTop))
  | openSubstitution hCount hOpen =>
      refine ⟨?_, ?_⟩
      · rw [hOpen]
        exact .cons h.le hSorted
      · simp [hOpen, hCount]
  | closeBrace hOther hCount hOpen =>
      -- The innermost substitution does not end here, so a brace has opened in it.
      refine ⟨hOpen ▸ hSorted, fun depth hTop => ?_⟩
      rw [hOpen] at hTop
      have hLess : depth < s.braces := (h.top depth hTop).lt_of_ne (hOther depth hTop)
      rw [hCount]
      exact Nat.le_sub_one_of_lt hLess
  | closeSubstitution hCount hOpen =>
      rw [hOpen] at hSorted
      refine ⟨hSorted.of_cons, fun depth hTop => ?_⟩
      rw [hCount]
      exact List.rel_of_pairwise_cons hSorted (List.mem_of_mem_head? hTop)

theorem Scans.stacked (h : s.Scans pieces t) (hStart : s.Stacked) : t.Stacked := by
  induction h with
  | refl => exact hStart
  | step hAhead hStep later ih => exact ih (hStart.step (step_counts hAhead hStep))

/-! ### Inside of a substitution -/

/-- The substitutions of `base` are still open, and `n` more braces than there. Each of them is in the
count or has started a substitution. -/
def Deeper (base : Scanner) (n : Nat) (s : Scanner) : Prop :=
  ∃ inner, s.substitutions = inner ++ base.substitutions ∧ s.braces + inner.length = base.braces + n

theorem Deeper.suffix (h : base.Deeper n s) : base.substitutions <:+ s.substitutions := by
  obtain ⟨inner, hInner, -⟩ := h
  exact ⟨inner, hInner.symm⟩

theorem Deeper.passed (h : base.Deeper n s) (hCounts : s.Counts t none) : base.Deeper n t := by
  obtain ⟨inner, hInner, hDepth⟩ := h
  cases hCounts with
  | same hCount hOpen => exact ⟨inner, hOpen.trans hInner, hCount ▸ hDepth⟩

theorem Deeper.opened (h : base.Deeper n s) (hCounts : s.Counts t (some .U)) :
    base.Deeper (n + 1) t := by
  obtain ⟨inner, hInner, hDepth⟩ := h
  cases hCounts with
  | openBrace hCount hOpen => exact ⟨inner, hOpen.trans hInner, by omega⟩
  | openSubstitution hCount hOpen =>
      refine ⟨s.braces :: inner, ?_, ?_⟩
      · rw [hOpen, hInner, List.cons_append]
      · rw [List.length_cons]
        omega

/-- While a brace is open that `base` has not opened, a closing brace ends no substitution that `base`
stands in. -/
theorem Deeper.closed (h : base.Deeper (n + 1) s) (hBase : base.substitutions = base.braces :: outer)
    (hStacked : s.Stacked) (hCounts : s.Counts t (some .D)) : base.Deeper n t := by
  obtain ⟨inner, hInner, hDepth⟩ := h
  cases hCounts with
  | closeBrace hOther hCount hOpen =>
      have hSome : 0 < s.braces := by
        cases hTop : s.substitutions with
        | nil => simp [hTop, hBase] at hInner
        | cons depth _ =>
            have hHead : depth ∈ s.substitutions.head? := by rw [hTop]; rfl
            exact Nat.zero_lt_of_lt ((hStacked.top depth hHead).lt_of_ne (hOther depth hHead))
      exact ⟨inner, hOpen.trans hInner, by omega⟩
  | closeSubstitution hCount hOpen =>
      cases inner with
      | nil =>
          -- The count would be what it is at `base`, and it is larger.
          rw [hOpen, hBase] at hInner
          have hBack : s.braces = base.braces := (List.cons.inj hInner).1
          rw [List.length_nil] at hDepth
          omega
      | cons depth inner =>
          refine ⟨inner, (List.cons.inj (hOpen.symm.trans hInner)).2, ?_⟩
          rw [List.length_cons] at hDepth
          omega

/-- Once as many braces have closed as have opened, the count and the substitutions are those of `base`. -/
theorem Deeper.back (h : base.Deeper 0 s) (hBase : base.substitutions = base.braces :: outer)
    (hStacked : s.Stacked) : s.Level base := by
  obtain ⟨inner, hInner, hDepth⟩ := h
  have hLe : base.braces ≤ s.braces := hStacked.le _ (by simp [hInner, hBase])
  have hNone : inner = [] := List.eq_nil_of_length_eq_zero (by omega)
  subst hNone
  exact ⟨by simpa using hDepth.symm, hInner.symm⟩

/-- With `n` braces open in front of them, these braces never close more than are open. -/
def Enclosed (n : Nat) (braces : List DyckStep) : Prop :=
  ∀ i, (braces.take i).count .D ≤ n + (braces.take i).count .U

theorem Enclosed.up (h : Enclosed n (.U :: braces)) : Enclosed (n + 1) braces := by
  intro i
  have hLater := h (i + 1)
  rw [List.take_succ_cons, List.count_cons_self, List.count_cons_of_ne (by decide)] at hLater
  omega

theorem Enclosed.down (h : Enclosed n (.D :: braces)) : ∃ k, n = k + 1 ∧ Enclosed k braces := by
  have hSome : 1 ≤ n := h 1
  obtain ⟨k, rfl⟩ := Nat.exists_eq_add_of_le' hSome
  refine ⟨k, rfl, fun i => ?_⟩
  have hLater := h (i + 1)
  rw [List.take_succ_cons, List.count_cons_self, List.count_cons_of_ne (by decide)] at hLater
  omega

/-- Along a scan that never closes more than is open, the depth is what the braces add up to. -/
theorem Nests.deeper (h : s.Nests braces t) (hBase : base.substitutions = base.braces :: outer)
    (hStacked : s.Stacked) (hHere : base.Deeper n s) (hEnclosed : Enclosed n braces) :
    t.Stacked ∧ ∃ m, base.Deeper m t ∧ m + braces.count .D = n + braces.count .U := by
  induction h generalizing n with
  | refl => exact ⟨hStacked, n, hHere, rfl⟩
  | @step s next t c rest piece braces hAhead hStep later ih =>
      have hCounts := step_counts hAhead hStep
      have hNext := hStacked.step hCounts
      cases hBrace : s.brace? with
      | none =>
          rw [hBrace] at hCounts hEnclosed
          exact ih hNext (hHere.passed hCounts) hEnclosed
      | some brace =>
          rw [hBrace] at hCounts hEnclosed
          rw [Option.toList_some, List.singleton_append]
          cases brace with
          | U =>
              obtain ⟨hEnd, m, hThere, hSum⟩ := ih hNext (hHere.opened hCounts) hEnclosed.up
              refine ⟨hEnd, m, hThere, ?_⟩
              rw [List.count_cons_self, List.count_cons_of_ne (by decide)]
              omega
          | D =>
              obtain ⟨k, rfl, hLater⟩ := hEnclosed.down
              obtain ⟨hEnd, m, hThere, hSum⟩ := ih hNext (hHere.closed hBase hStacked hCounts) hLater
              refine ⟨hEnd, m, hThere, ?_⟩
              rw [List.count_cons_self, List.count_cons_of_ne (by decide)]
              omega

theorem Enters.behind (h : s.Enters t) :
    t.mode = .code ∧ t.braces = s.braces ∧ t.substitutions = s.braces :: s.substitutions := by
  obtain ⟨hMode, ⟨n, hChunk⟩, c, rest, piece, -, hStep⟩ := h
  simp only [Scanner.step, hMode, hChunk] at hStep
  cases hStep
  exact ⟨rfl, rfl, rfl⟩

theorem Enters.stacked (h : s.Enters t) (hStacked : s.Stacked) : t.Stacked := by
  obtain ⟨-, -, c, rest, piece, hAhead, hStep⟩ := h
  exact hStacked.step (step_counts hAhead hStep)

theorem Enters.deeper (h : s.Enters t) (hStacked : s.Stacked) (hNests : t.Nests braces u)
    (hEnclosed : Enclosed 0 braces) :
    u.Stacked ∧ ∃ m, t.Deeper m u ∧ m + braces.count .D = braces.count .U := by
  obtain ⟨-, hCount, hOpen⟩ := h.behind
  have hBase : t.substitutions = t.braces :: s.substitutions := by rw [hOpen, hCount]
  have hHere : t.Deeper 0 t := ⟨[], rfl, rfl⟩
  simpa using hNests.deeper hBase (h.stacked hStacked) hHere hEnclosed

theorem step_resumes (hCode : u.mode = .code) (hAhead : u.ahead = '\x7d' :: rest)
    (hOpen : u.substitutions = u.braces :: outer) :
    u.step '\x7d' rest =
      .ok (.verbatim ['\x7d'], { u.advance 1 with substitutions := outer, mode := .template }) := by
  have hPiece := ((Opens.resumed hOpen).passes hAhead).readTo
  simp [step, hCode, code_closeBrace, closeBrace, hOpen, hPiece]

end Scanner

open Scanner

/-- In every state of a scan the open substitutions are sorted, and the innermost one started with no more
braces open than there are. Behind the start of a substitution, it stays open as long as the text does not
close more braces than it opens. Behind a text that closes what it opens, the next closing brace in code
ends this substitution and goes on in its template, with as many braces open and the same substitutions
around it as in front of its start. -/
theorem substitution_closes {source : List Char} {pieces : List Piece} {s : Scanner}
    (hScan : (initial source).Scans pieces s) :
    s.Stacked ∧ ∀ t, s.Enters t →
      (∀ braces u, t.Nests braces u → Enclosed 0 braces → t.substitutions <:+ u.substitutions) ∧
      ∀ (word : DyckWord) (u : Scanner) (rest : List Char), t.Nests word.toList u → u.mode = .code →
        u.ahead = '\x7d' :: rest →
        u.substitutions = t.substitutions ∧ ∃ v, u.step '\x7d' rest = .ok (.verbatim ['\x7d'], v) ∧
          v.mode = .template ∧ v.ahead = rest ∧ v.braces = s.braces ∧
          v.substitutions = s.substitutions := by
  have hStacked := hScan.stacked (stacked_initial source)
  refine ⟨hStacked, fun t hEnters => ⟨?_, ?_⟩⟩
  · intro braces u hNests hEnclosed
    obtain ⟨-, m, hThere, -⟩ := hEnters.deeper hStacked hNests hEnclosed
    exact hThere.suffix
  · intro word u rest hNests hCode hAhead
    obtain ⟨-, hCount, hOpen⟩ := hEnters.behind
    have hEnclosed : Enclosed 0 word.toList := fun i => by
      rw [Nat.zero_add]
      exact word.count_D_le_count_U i
    obtain ⟨hEnd, m, hThere, hSum⟩ := hEnters.deeper hStacked hNests hEnclosed
    obtain rfl : m = 0 := by
      have hBalanced := word.count_U_eq_count_D
      omega
    obtain ⟨hBack, hSame⟩ := hThere.back (by rw [hOpen, hCount]) hEnd
    have hInnermost : u.substitutions = u.braces :: s.substitutions := by
      rw [← hSame, hOpen, ← hBack, hCount]
    exact ⟨hSame.symm, _, step_resumes hCode hAhead hInnermost, rfl, congrArg (List.drop 1) hAhead,
      hBack.symm.trans hCount, rfl⟩

/-- Behind a brace too many, a block with a template of its own closes before the substitution does. -/
theorem substitution_closes_around_block :
    ∃ s t u v : Scanner,
      (initial "\x7d\x60$\x7b\x7b\x60$\x7b1\x7d\x60\x7d\x7d\x60".toList).Scans
        [.verbatim ['\x7d'], .verbatim ['\x60']] s ∧
      s.Enters t ∧ t.Nests [.U, .U, .D, .D] u ∧ u.mode = .code ∧ u.ahead = ['\x7d', '\x60'] ∧
      u.substitutions = t.substitutions ∧ u.step '\x7d' ['\x60'] = .ok (.verbatim ['\x7d'], v) ∧
      v.mode = .template ∧ v.braces = s.braces ∧ v.substitutions = s.substitutions := by
  let start := initial "\x7d\x60$\x7b\x7b\x60$\x7b1\x7d\x60\x7d\x7d\x60".toList
  let s : Scanner := ({ start.token 1 .operator with braces := 0 }).openWith 1 .template
  let t : Scanner := { s.token 2 .start with mode := .code, substitutions := [0] }
  have hScan : start.Scans [.verbatim ['\x7d'], .verbatim ['\x60']] s :=
    .step rfl rfl (.step rfl rfl (.refl s))
  have hEnters : s.Enters t := ⟨rfl, ⟨2, rfl⟩, _, _, _, rfl, rfl⟩
  let word : DyckWord := DyckWord.nest (DyckWord.nest 0)
  obtain ⟨u, hNests, hCode, hAhead⟩ :
      ∃ u, t.Nests word.toList u ∧ u.mode = .code ∧ u.ahead = ['\x7d', '\x60'] :=
    ⟨_, .step rfl rfl (.step rfl rfl (.step rfl rfl (.step rfl rfl (.step rfl rfl (.step rfl rfl
      (.step rfl rfl (.refl _))))))), rfl, rfl⟩
  obtain ⟨hOpen, v, hStep, hMode, -, hCount, hOuter⟩ :=
    ((substitution_closes hScan).2 t hEnters).2 word u ['\x60'] hNests hCode hAhead
  exact ⟨s, t, u, v, hScan, hEnters, hNests, hCode, hAhead, hOpen, hStep, hMode, hCount, hOuter⟩

end ModuleGateway.Relink
