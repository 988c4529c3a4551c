import ModuleGateway.Relink.Scanner
import Mathlib.Data.List.Basic

/-!
What a step of the scanner reads. Every step moves over a prefix of the text ahead, and the piece it
gives holds exactly that prefix. A target is the inside of a string literal: the scanner comes to one
only in front of a quote.
-/

namespace ModuleGateway.Relink

open Text

/-! ### Literals -/

/-- The inside of a string literal: no line end and no closing quote outside an escape. -/
inductive Inside (quote : Char) : List Char → Prop where
  | nil : Inside quote []
  | plain {c : Char} {body : List Char} (hQuote : c ≠ quote) (hEscape : c ≠ '\\')
      (hLine : isLineEnd c = false) (inner : Inside quote body) : Inside quote (c :: body)
  | escaped {c : Char} {body : List Char} (inner : Inside quote body) :
      Inside quote ('\\' :: c :: body)

/-- What is read behind an opening quote is the inside of a literal, and its closing quote follows. -/
theorem inside_of_stringBody {quote : Char} {text body : List Char}
    (h : stringBody quote text = some body) :
    Inside quote body ∧ ∃ rest, text = body ++ quote :: rest := by
  fun_induction stringBody quote text generalizing body with
  | case1 => cases h
  | case2 c rest ih =>
      obtain ⟨inner, hInner, rfl⟩ := Option.map_eq_some_iff.mp h
      obtain ⟨hInside, tail, rfl⟩ := ih hInner
      exact ⟨.escaped hInside, tail, rfl⟩
  | case3 => cases h
  | case4 => cases h
  | case5 rest hLine =>
      cases h
      exact ⟨.nil, rest, rfl⟩
  | case6 c rest hSingle hPair hLine hQuote ih =>
      obtain ⟨inner, hInner, rfl⟩ := Option.map_eq_some_iff.mp h
      obtain ⟨hInside, tail, rfl⟩ := ih hInner
      refine ⟨.plain hQuote ?_ (by simpa using hLine) hInside, tail, rfl⟩
      rintro rfl
      cases inner <;> simp_all

/-- The inside of a literal is read up to the quote behind it. -/
theorem stringBody_of_inside {quote : Char} {body : List Char} (hQuote : isQuote quote = true)
    (h : Inside quote body) (rest : List Char) :
    stringBody quote (body ++ quote :: rest) = some body := by
  have hPlain : quote ≠ '\\' ∧ isLineEnd quote = false := by
    have hCases : quote = '\'' ∨ quote = '"' := by simpa [isQuote] using hQuote
    rcases hCases with rfl | rfl <;> decide
  induction h with
  | nil => simp [stringBody, hPlain]
  | plain hOther hEscape hLine inner ih => simp [stringBody, hEscape, hLine, hOther, ih]
  | escaped inner ih => simp [stringBody, ih]

/-- A target holds the inside of a literal between its quotes; a verbatim piece holds any text. -/
def Piece.Sound : Piece → Prop
  | .verbatim _ => True
  | .target quote raw => isQuote quote = true ∧ Inside quote raw

/-! ### Moving over text -/

namespace Scanner

/-- `t` stands where `s` stands after `text` has been read. The other fields may differ. -/
structure Passes (s : Scanner) (text : List Char) (t : Scanner) : Prop where
  ahead : s.ahead = text ++ t.ahead
  behind : t.behind = text.reverse ++ s.behind
  count : t.count = s.count + text.length

theorem Passes.trans {s t u : Scanner} {first second : List Char}
    (left : s.Passes first t) (right : t.Passes second u) : s.Passes (first ++ second) u where
  ahead := by rw [left.ahead, right.ahead, List.append_assoc]
  behind := by rw [right.behind, left.behind, List.reverse_append, List.append_assoc]
  count := by rw [right.count, left.count, List.length_append, Nat.add_assoc]

/-- What a step from `s` to `t` is said to have read is what lies between them. -/
theorem Passes.readTo {s t : Scanner} {text : List Char} (h : s.Passes text t) :
    s.readTo t = .verbatim text := by
  have hLength : t.count - s.count = text.length := by rw [h.count]; omega
  rw [Scanner.readTo, hLength, h.ahead, List.take_left]

theorem passes_advance {s : Scanner} {n : Nat} (h : n ≤ s.ahead.length) :
    s.Passes (s.ahead.take n) (s.advance n) where
  ahead := (List.take_append_drop n s.ahead).symm
  behind := rfl
  count := by simp [advance, Nat.min_eq_left h]

/-- Whenever a target comes next, the scanner stands in front of a quote. -/
def AtQuote (s : Scanner) : Prop :=
  s.mode = .target → ∃ quote rest, s.ahead = quote :: rest ∧ isQuote quote = true

theorem atQuote_of_mode {s : Scanner} (h : s.mode ≠ .target) : s.AtQuote :=
  fun hTarget => absurd hTarget h

/-- A step of code reads something, and ends in front of a quote if a target comes next. -/
def Reads (s t : Scanner) : Prop :=
  ∃ text, text ≠ [] ∧ s.Passes text t ∧ t.AtQuote

/-- A step that moves over a fixed number of characters and does not announce a target. -/
theorem reads_of_advance {s t : Scanner} {n : Nat} (hPos : 0 < n) (hLength : n ≤ s.ahead.length)
    (hMode : t.mode ≠ .target) (hAhead : t.ahead = (s.advance n).ahead)
    (hBehind : t.behind = (s.advance n).behind) (hCount : t.count = (s.advance n).count) :
    s.Reads t := by
  have move := passes_advance hLength
  refine ⟨s.ahead.take n, ?_, ⟨?_, ?_, ?_⟩, atQuote_of_mode hMode⟩
  · intro h
    have hZero : (s.ahead.take n).length = 0 := by rw [h]; rfl
    rw [List.length_take] at hZero
    omega
  · rw [hAhead]; exact move.ahead
  · rw [hBehind]; exact move.behind
  · rw [hCount]; exact move.count

/-! ### Words -/

theorem drop_blanks (text : List Char) : text.drop (blanks text) = text.dropWhile isBlank := by
  induction text with
  | nil => rfl
  | cons c rest ih =>
      by_cases hBlank : isBlank c = true
      · simpa [blanks, hBlank] using ih
      · simp [blanks, hBlank]

/-- Moving over blanks to a quote ends in front of a target. -/
theorem toTarget_atQuote {s : Scanner} {n : Nat} {quote : Char} {rest : List Char}
    (hDrop : s.ahead.drop n = quote :: rest) (hQuote : isQuote quote = true) :
    ∃ text, s.Passes text (s.toTarget n) ∧ (s.toTarget n).AtQuote := by
  have hLength : n ≤ s.ahead.length := by
    have hLess : n < s.ahead.length := by
      rw [← List.drop_eq_nil_iff.not.trans Nat.not_le, hDrop]
      exact List.cons_ne_nil _ _
    omega
  have move := passes_advance hLength
  exact ⟨s.ahead.take n, ⟨move.ahead, move.behind, move.count⟩, fun _ => ⟨quote, rest, hDrop, hQuote⟩⟩

/-- The scanner stays where it is, in front of no target. -/
theorem stays {s t : Scanner} (hMode : t.mode ≠ .target) (hAhead : t.ahead = s.ahead)
    (hBehind : t.behind = s.behind) (hCount : t.count = s.count) :
    ∃ text, s.Passes text t ∧ t.AtQuote :=
  ⟨[], ⟨hAhead.symm, hBehind, by simp [hCount]⟩, atQuote_of_mode hMode⟩

theorem importWord_passes {read : Scanner} (hMode : read.mode = .code) :
    ∃ text, read.Passes text read.importWord ∧ read.importWord.AtQuote := by
  have hStay : ∃ text, read.Passes text read ∧ read.AtQuote :=
    stays (by simp [hMode]) rfl rfl rfl
  unfold importWord
  dsimp only
  split
  · rename_i rest hOpen
    split
    · rename_i quote tail hInner
      split
      · rename_i hQuote
        have hDrop : read.ahead.drop (blanks read.ahead + 1 + blanks rest) = quote :: tail := by
          rw [← List.drop_drop, ← List.drop_drop, hOpen]
          exact hInner
        exact toTarget_atQuote hDrop hQuote
      · exact hStay
    · exact hStay
  · rename_i c rest _ hNext
    split
    · rename_i hQuote
      exact toTarget_atQuote hNext hQuote
    · split
      · exact stays (by simp [hMode]) rfl rfl rfl
      · exact hStay
  · exact hStay

theorem exportWord_passes {read : Scanner} (hMode : read.mode = .code) :
    ∃ text, read.Passes text read.exportWord ∧ read.exportWord.AtQuote := by
  have hSame : read.exportWord.mode = read.mode ∧ read.exportWord.ahead = read.ahead ∧
      read.exportWord.behind = read.behind ∧ read.exportWord.count = read.count := by
    unfold exportWord
    split
    · split <;> exact ⟨rfl, rfl, rfl, rfl⟩
    · exact ⟨rfl, rfl, rfl, rfl⟩
  exact stays (by simp [hSame.1, hMode]) hSame.2.1 hSame.2.2.1 hSame.2.2.2

theorem fromWord_passes {read : Scanner} (hMode : read.mode = .code) :
    ∃ text, read.Passes text read.fromWord ∧ read.fromWord.AtQuote := by
  have hStay : ∃ text, read.Passes text read ∧ read.AtQuote :=
    stays (by simp [hMode]) rfl rfl rfl
  unfold fromWord
  split
  · rename_i c hNext
    split
    · rename_i hQuote
      have hDrop : read.ahead.dropWhile isBlank = c :: (read.ahead.dropWhile isBlank).tail := by
        rw [afterBlanks, List.drop_zero] at hNext
        exact List.eq_cons_of_mem_head? hNext
      exact toTarget_atQuote ((drop_blanks _).trans hDrop) hQuote
    · exact hStay
  · exact hStay

/-- A step over the letters of a word, after which the word's own rule may move on. -/
theorem reads_of_word {s read t : Scanner} {n : Nat} (hPos : 0 < n) (hLength : n ≤ s.ahead.length)
    (hRead : s.Passes (s.ahead.take n) read)
    (hWord : ∃ text, read.Passes text t ∧ t.AtQuote) : s.Reads t := by
  obtain ⟨text, move, hQuote⟩ := hWord
  refine ⟨s.ahead.take n ++ text, ?_, hRead.trans move, hQuote⟩
  intro h
  have hZero : (s.ahead.take n).length = 0 := by rw [(List.append_eq_nil_iff.mp h).1]; rfl
  rw [List.length_take] at hZero
  omega

theorem word_reads {s : Scanner} {c : Char} {rest : List Char} (hAhead : s.ahead = c :: rest)
    (hMode : s.mode = .code) (hLetter : isWordPart c = true) : s.Reads s.word := by
  let n := (s.ahead.takeWhile isWordPart).length
  have hPos : 0 < n := by simp [n, hAhead, hLetter]
  have hLength : n ≤ s.ahead.length := (List.takeWhile_sublist _).length_le
  have hToken (prior : Prior) : s.Passes (s.ahead.take n) (s.token n prior) :=
    let move := passes_advance hLength
    ⟨move.ahead, move.behind, move.count⟩
  have hPlain {t : Scanner} (hSame : t.mode ≠ .target) (hA : t.ahead = (s.advance n).ahead)
      (hB : t.behind = (s.advance n).behind) (hC : t.count = (s.advance n).count) : s.Reads t :=
    reads_of_advance hPos hLength hSame hA hB hC
  have hCode : s.mode ≠ .target := by simp [hMode]
  unfold word
  dsimp only
  split
  · exact hPlain hCode rfl rfl rfl
  · split
    · exact reads_of_word hPos hLength (hToken .operator) (importWord_passes hMode)
    · split
      · exact reads_of_word hPos hLength (hToken .operator) (exportWord_passes hMode)
      · split
        · exact reads_of_word hPos hLength (hToken .operand) (fromWord_passes hMode)
        · split <;> exact hPlain hCode rfl rfl rfl

/-! ### Steps -/

/-- What a token of code may be. -/
@[elab_as_elim]
theorem code_cases {s : Scanner} {c : Char} {rest : List Char} {motive : Scanner → Prop}
    (quoted : isQuote c = true → motive (s.openWith 1 (.quoted c)))
    (template : c = '\x60' → motive (s.openWith 1 .template))
    (slash : c = '/' → motive (s.slash rest.head?))
    (openBrace : c = '\x7b' → motive { s.token 1 .operator with braces := s.braces + 1 })
    (closeBrace : c = '\x7d' → motive s.closeBrace)
    (semicolon : c = ';' → motive { s.token 1 .operator with awaitingFrom := false })
    (openParen : c = '(' → motive { s.token 1 .operator with
      parens := s.statementHead :: s.parens, statementHead := false })
    (closeParen : c = ')' → motive s.closeParen)
    (closeBracket : c = ']' → motive (s.token 1 .operand))
    (twice : ∀ prior, rest.head? = some c → motive (s.token 2 prior))
    (number : c.isDigit = true → motive
      (s.token (s.ahead.takeWhile fun d => isWordPart d || d = '.').length .operand))
    (word : isWordStart c = true → motive s.word)
    (blank : isBlank c = true → motive (s.advance 1))
    (operator : motive (s.token 1 .operator)) : motive (s.code c rest) := by
  unfold code
  refine iteInduction quoted fun _ => ?_
  refine iteInduction template fun _ => ?_
  refine iteInduction slash fun _ => ?_
  refine iteInduction openBrace fun _ => ?_
  refine iteInduction closeBrace fun _ => ?_
  refine iteInduction semicolon fun _ => ?_
  refine iteInduction openParen fun _ => ?_
  refine iteInduction closeParen fun _ => ?_
  refine iteInduction closeBracket fun _ => ?_
  refine iteInduction (fun hTwice => twice _ (by simp at hTwice; exact hTwice.2)) fun _ => ?_
  refine iteInduction number fun _ => ?_
  refine iteInduction word fun _ => ?_
  exact iteInduction blank fun _ => operator

theorem code_openBrace (s : Scanner) (rest : List Char) :
    s.code '\x7b' rest = { s.token 1 .operator with braces := s.braces + 1 } := by
  simp [code, isQuote]

theorem code_closeBrace (s : Scanner) (rest : List Char) : s.code '\x7d' rest = s.closeBrace := by
  simp [code, isQuote]

theorem slash_reads {s : Scanner} {next : Option Char} (hMode : s.mode ≠ .target)
    (hOne : 1 ≤ s.ahead.length) (hTwo : next.isSome → 2 ≤ s.ahead.length) :
    s.Reads (s.slash next) := by
  unfold slash
  split
  · rename_i hNext
    exact reads_of_advance Nat.two_pos (hTwo (by simp [hNext])) (by simp) rfl rfl rfl
  split
  · rename_i hNext
    exact reads_of_advance Nat.two_pos (hTwo (by simp [hNext])) (by simp [openWith]) rfl rfl rfl
  split
  · exact reads_of_advance Nat.one_pos hOne (by simp [openWith]) rfl rfl rfl
  · exact reads_of_advance Nat.one_pos hOne hMode rfl rfl rfl

theorem closeBrace_reads {s : Scanner} (hMode : s.mode ≠ .target) (hOne : 1 ≤ s.ahead.length) :
    s.Reads s.closeBrace := by
  unfold closeBrace
  split
  · split
    · exact reads_of_advance Nat.one_pos hOne (by simp) rfl rfl rfl
    · exact reads_of_advance Nat.one_pos hOne hMode rfl rfl rfl
  · exact reads_of_advance Nat.one_pos hOne hMode rfl rfl rfl

/-- One token of code reads at least its first character. -/
theorem code_reads {s : Scanner} {c : Char} {rest : List Char} (hAhead : s.ahead = c :: rest)
    (hMode : s.mode = .code) : s.Reads (s.code c rest) := by
  have hCode : s.mode ≠ .target := by simp [hMode]
  have hOne : 1 ≤ s.ahead.length := by simp [hAhead]
  have hTwo : rest.head?.isSome → 2 ≤ s.ahead.length := by
    intro hNext
    cases rest with
    | nil => cases hNext
    | cons d tail => simp [hAhead]
  have one {t : Scanner} (hSame : t.mode ≠ .target) (hA : t.ahead = (s.advance 1).ahead)
      (hB : t.behind = (s.advance 1).behind) (hC : t.count = (s.advance 1).count) : s.Reads t :=
    reads_of_advance Nat.one_pos hOne hSame hA hB hC
  apply code_cases
  case quoted | template => exact fun _ => one (by simp [openWith]) rfl rfl rfl
  case slash => exact fun _ => slash_reads hCode hOne hTwo
  case closeBrace => exact fun _ => closeBrace_reads hCode hOne
  case twice =>
    intro prior hNext
    exact reads_of_advance Nat.two_pos (hTwo (by simp [hNext])) hCode rfl rfl rfl
  case number =>
    intro hDigit
    have hPos : 0 < (s.ahead.takeWhile fun d => isWordPart d || d = '.').length := by
      simp [hAhead, isWordPart, hDigit]
    exact reads_of_advance hPos (List.takeWhile_sublist _).length_le hCode rfl rfl rfl
  case word => exact fun hLetter => word_reads hAhead hMode (by simp [isWordPart, hLetter])
  case openBrace | semicolon | openParen | closeParen | closeBracket | blank =>
    exact fun _ => one hCode rfl rfl rfl
  case operator => exact one hCode rfl rfl rfl

/-! ### Constructs -/

/-- A reader that goes on behind `k` characters reads at least one and no more than there are. -/
theorem bounded_of_map (length : Nat) {reader : Option Nat} {k n : Nat}
    (hReader : ∀ m, reader = some m → 0 < m ∧ m ≤ length) (h : reader.map (· + k) = some n) :
    0 < n ∧ n ≤ length + k := by
  obtain ⟨m, hInner, rfl⟩ := Option.map_eq_some_iff.mp h
  have hBound := hReader m hInner
  omega

theorem templateChunk_bounded {text : List Char} {n : Nat}
    (h : (templateChunk text).map Prod.fst = some n) : 0 < n ∧ n ≤ text.length := by
  have hMap (reader : Option (Nat × ChunkEnd)) (k : Nat) :
      (reader.map fun found => (found.1 + k, found.2)).map Prod.fst = (reader.map Prod.fst).map (· + k) := by
    cases reader <;> rfl
  fun_induction templateChunk text generalizing n with
  | case1 => cases h
  | case2 c rest ih => exact bounded_of_map rest.length (fun m hm => ih hm) ((hMap _ 2).symm.trans h)
  | case3 => cases h
  | case4 => cases h; simp
  | case5 => cases h; simp
  | case6 c rest _ _ _ _ ih =>
      exact bounded_of_map rest.length (fun m hm => ih hm) ((hMap _ 1).symm.trans h)

theorem blockBody_bounded {text : List Char} {n : Nat} (h : blockBody text = some n) :
    0 < n ∧ n ≤ text.length := by
  fun_induction blockBody text generalizing n with
  | case1 => cases h
  | case2 => cases h; simp
  | case3 c rest _ ih => exact bounded_of_map rest.length (fun m hm => ih hm) h

theorem regexBody_bounded {inClass : Bool} {text : List Char} {n : Nat}
    (h : regexBody inClass text = some n) : 0 < n ∧ n ≤ text.length := by
  fun_induction regexBody inClass text generalizing n with
  | case1 => cases h
  | case2 inClass c rest ih => exact bounded_of_map rest.length (fun m hm => ih hm) h
  | case3 => cases h
  | case4 inClass rest ih => exact bounded_of_map rest.length (fun m hm => ih hm) h
  | case5 inClass rest ih => exact bounded_of_map rest.length (fun m hm => ih hm) h
  | case6 => cases h
  | case7 => cases h; simp
  | case8 inClass c rest _ _ _ _ _ _ ih =>
      exact bounded_of_map rest.length (fun m hm => ih hm) h

/-- A regular expression ends with its flags, at the end of the text at the latest. -/
theorem regex_bounded {text : List Char} {n k : Nat} (hBody : regexBody false text = some n)
    (hFlags : ((text.drop n).takeWhile isWordPart).length = k) : 0 < n + k ∧ n + k ≤ text.length := by
  obtain ⟨hPos, hBound⟩ := regexBody_bounded hBody
  have hWithin := (List.takeWhile_sublist isWordPart (l := text.drop n)).length_le
  rw [hFlags, List.length_drop] at hWithin
  omega

/-! ### Steps -/

/-- Behind `n` characters that end a literal. -/
def pastLiteral (s : Scanner) (n : Nat) : Scanner :=
  { s.token n .operand with mode := .code }

/-- Behind `n` characters of a template, the last of which open a substitution. -/
def pastChunk (s : Scanner) (n : Nat) : Scanner :=
  { s.token n .start with mode := .code, substitutions := s.braces :: s.substitutions }

/-- Behind `n` characters that end a comment. -/
def pastComment (s : Scanner) (n : Nat) : Scanner :=
  { s.advance n with mode := .code }

/-- Behind a target with this text. -/
def pastTarget (s : Scanner) (raw : List Char) : Scanner :=
  { s.token (raw.length + 2) .operand with mode := .code, opened := s.offset, awaitingFrom := false }

/-- What a step does that does not fail: it reads a token of code, or the rest of the construct that the
scanner stands in, and is in code behind it. -/
inductive Step (s : Scanner) (c : Char) (rest : List Char) : Piece → Scanner → Prop where
  | code (hMode : s.mode = .code) : Step s c rest (s.readTo (s.code c rest)) (s.code c rest)
  | quoted {quote : Char} {body : List Char} (hMode : s.mode = .quoted quote)
      (hBody : stringBody quote s.ahead = some body) :
      Step s c rest (s.readTo (s.pastLiteral (body.length + 1))) (s.pastLiteral (body.length + 1))
  | template {n : Nat} (hMode : s.mode = .template)
      (hChunk : templateChunk s.ahead = some (n, .closed)) :
      Step s c rest (s.readTo (s.pastLiteral n)) (s.pastLiteral n)
  | substitution {n : Nat} (hMode : s.mode = .template)
      (hChunk : templateChunk s.ahead = some (n, .substitution)) :
      Step s c rest (s.readTo (s.pastChunk n)) (s.pastChunk n)
  | lineComment {n : Nat} (hMode : s.mode = .lineComment)
      (hLine : (s.ahead.takeWhile (· ≠ '\n')).length = n) :
      Step s c rest (s.readTo (s.pastComment n)) (s.pastComment n)
  | blockComment {n : Nat} (hMode : s.mode = .blockComment) (hBody : blockBody s.ahead = some n) :
      Step s c rest (s.readTo (s.pastComment n)) (s.pastComment n)
  | regex {n k : Nat} (hMode : s.mode = .regex) (hBody : regexBody false s.ahead = some n)
      (hFlags : ((s.ahead.drop n).takeWhile isWordPart).length = k) :
      Step s c rest (s.readTo (s.pastLiteral (n + k))) (s.pastLiteral (n + k))
  | target {body : List Char} (hMode : s.mode = .target) (hBody : stringBody c rest = some body) :
      Step s c rest (.target c body) (s.pastTarget body)

theorem step_eq_ok_iff {s next : Scanner} {c : Char} {rest : List Char} {piece : Piece} :
    s.step c rest = .ok (piece, next) ↔ s.Step c rest piece next := by
  constructor
  · intro h
    unfold step at h
    dsimp only at h
    split at h
    case h_1 hMode =>
      cases h
      exact .code hMode
    case h_2 quote hMode =>
      split at h
      · cases h
        exact .quoted hMode ‹_›
      · cases h
    case h_3 hMode =>
      split at h
      · cases h
        exact .template hMode ‹_›
      · cases h
        exact .substitution hMode ‹_›
      · cases h
    case h_4 hMode =>
      cases h
      exact .lineComment hMode rfl
    case h_5 hMode =>
      split at h
      · cases h
        exact .blockComment hMode ‹_›
      · cases h
    case h_6 hMode =>
      split at h
      · cases h
        exact .regex hMode ‹_› rfl
      · cases h
    case h_7 hMode =>
      split at h
      · cases h
        exact .target hMode ‹_›
      · cases h
  · intro h
    cases h with
    | code hMode => simp only [step, hMode]
    | quoted hMode hBody | blockComment hMode hBody | target hMode hBody =>
        simp only [step, hMode, hBody]
        rfl
    | template hMode hChunk | substitution hMode hChunk =>
        simp only [step, hMode, hChunk]
        rfl
    | lineComment hMode hLine =>
        simp only [step, hMode, hLine]
        rfl
    | regex hMode hBody hFlags =>
        simp only [step, hMode, hBody, hFlags]
        rfl

/-- Behind a construct or a target comes code. -/
theorem Step.mode {s next : Scanner} {c : Char} {rest : List Char} {piece : Piece}
    (h : s.Step c rest piece next) (hMode : s.mode ≠ .code) : next.mode = .code := by
  cases h with
  | code hCode => exact absurd hCode hMode
  | quoted | template | substitution | lineComment | blockComment | regex | target => rfl

/-- A step that moves over `n` characters and goes on in code gives them as its piece. -/
theorem passes_readTo {s t : Scanner} {n : Nat} (hLength : n ≤ s.ahead.length)
    (hAhead : t.ahead = (s.advance n).ahead) (hBehind : t.behind = (s.advance n).behind)
    (hCount : t.count = (s.advance n).count) (hMode : t.mode = .code) :
    s.Passes (s.readTo t).text t ∧ t.AtQuote ∧ (s.readTo t).Sound := by
  have move := passes_advance hLength
  have hPasses : s.Passes (s.ahead.take n) t :=
    ⟨hAhead ▸ move.ahead, hBehind ▸ move.behind, hCount ▸ move.count⟩
  rw [hPasses.readTo]
  exact ⟨hPasses, atQuote_of_mode (by simp [hMode]), trivial⟩

/-- A step moves over exactly the text of the piece it gives, whatever construct it stands in. -/
theorem step_passes {s next : Scanner} {c : Char} {rest : List Char} {piece : Piece}
    (hAhead : s.ahead = c :: rest) (hQuote : s.AtQuote)
    (h : s.step c rest = .ok (piece, next)) :
    s.Passes piece.text next ∧ next.AtQuote ∧ piece.Sound := by
  cases step_eq_ok_iff.mp h with
  | code hMode =>
      obtain ⟨text, -, move, hNext⟩ := code_reads hAhead hMode
      rw [move.readTo]
      exact ⟨move, hNext, trivial⟩
  | quoted hMode hBody =>
      obtain ⟨-, tail, hTail⟩ := inside_of_stringBody hBody
      exact passes_readTo (by simp [hTail]) rfl rfl rfl rfl
  | template hMode hChunk | substitution hMode hChunk =>
      exact passes_readTo (templateChunk_bounded (by rw [hChunk]; rfl)).2 rfl rfl rfl rfl
  | lineComment hMode hLine =>
      exact passes_readTo (hLine ▸ (List.takeWhile_sublist _).length_le) rfl rfl rfl rfl
  | blockComment hMode hBody => exact passes_readTo (blockBody_bounded hBody).2 rfl rfl rfl rfl
  | regex hMode hBody hFlags => exact passes_readTo (regex_bounded hBody hFlags).2 rfl rfl rfl rfl
  | @target body hMode hBody =>
      obtain ⟨hInside, tail, rfl⟩ := inside_of_stringBody hBody
      obtain ⟨quote, tail', hHead, hIs⟩ := hQuote hMode
      obtain ⟨rfl, -⟩ := List.cons.inj (hAhead.symm.trans hHead)
      have move := passes_advance (s := s) (n := body.length + 2) (by simp [hAhead])
      have hText : s.ahead.take (body.length + 2) = Piece.text (.target c body) := by
        simp [hAhead, Piece.text, List.take_append, List.take_of_length_le]
      rw [hText] at move
      exact ⟨⟨move.ahead, move.behind, move.count⟩, atQuote_of_mode (by simp [pastTarget]), hIs, hInside⟩

end Scanner

end ModuleGateway.Relink
