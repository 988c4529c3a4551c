import ModuleGateway.Proofs.Relink.ByteReaders
import ModuleGateway.Proofs.Relink.Members

/-!
Tokens of code on the bytes. From the place between two characters at which the scanner of characters stands,
the scanner of bytes reads the same token and comes to the same place, without a fault.
-/

namespace ModuleGateway.Relink

open Text Bytewise

/-- What the scanner of bytes knows of a mode. -/
def Mode.phase : Mode → Phase
  | .code => .code
  | .quoted _ => .quoted
  | .template => .template
  | .lineComment => .lineComment
  | .blockComment => .blockComment
  | .regex => .regex
  | .target => .target

namespace Scanner

/-- The scanner of bytes in the state of a scanner of characters. -/
def cursor (t : Scanner) : Cursor where
  pos := t.offset
  start := t.opened
  phase := t.mode.phase
  prior := t.prior
  braces := t.braces
  substitutions := t.substitutions
  parens := t.parens
  statementHead := t.statementHead
  awaitingFrom := t.awaitingFrom

/-- The scanner stands in the source behind the text that it has read, and counts its bytes. -/
structure Placed (source : List Char) (t : Scanner) : Prop where
  text : source = t.behind.reverse ++ t.ahead
  offset : t.offset = utf8Length t.behind.reverse

variable {source rest : List Char} {s t read : Scanner} {c : Char} {n : Nat}

theorem advance_advance (t : Scanner) (m n : Nat) : (t.advance m).advance n = t.advance (m + n) := by
  have hTake : t.ahead.take (m + n) = t.ahead.take m ++ (t.ahead.drop m).take n := List.take_add
  simp only [advance, hTake, List.drop_drop, List.reverse_append, List.append_assoc, utf8Length_append,
    Nat.add_assoc]

theorem Placed.advance (h : t.Placed source) (n : Nat) : (t.advance n).Placed source where
  text := by simp [Scanner.advance, h.text]
  offset := by
    rw [Scanner.advance, List.reverse_append, List.reverse_reverse, utf8Length_append, h.offset]

/-- The place behind the next characters, by the text that is read then. -/
theorem Placed.offset_advance (h : t.Placed source) (n : Nat) :
    (t.advance n).offset = utf8Length (t.behind.reverse ++ t.ahead.take n) := by
  rw [utf8Length_append, ← h.offset]
  rfl

theorem offset_ascii (hAhead : t.ahead = c :: rest) (hAscii : c.toNat < 0x80) :
    (t.advance 1).offset = t.offset + 1 := by
  show t.offset + utf8Length (t.ahead.take 1) = t.offset + 1
  rw [hAhead, List.take_succ_cons, List.take_zero, utf8Length_cons, utf8Size_of_ascii hAscii]
  rfl

theorem Placed.byteAt (h : t.Placed source) (hAhead : t.ahead = c :: rest) :
    byteAt source t.offset = .ok (lead c) := by
  rw [h.offset]
  exact byteAt_of_getElem? (getElem?_lead (by rw [h.text, hAhead]))

theorem Placed.next (h : t.Placed source) (hAhead : t.ahead = c :: rest) (hAscii : c.toNat < 0x80) :
    (bytes source)[t.offset + 1]? = rest.head?.map lead := by
  rw [h.offset]
  exact getElem?_next (by rw [h.text, hAhead]) hAscii

/-! ### Words -/

theorem take_length_takeWhile (p : Char → Bool) (text : List Char) :
    text.take (text.takeWhile p).length = text.takeWhile p :=
  (List.prefix_iff_eq_take.mp (List.takeWhile_prefix p)).symm

theorem Placed.offset_takeWhile (h : t.Placed source) (p : Char → Bool) :
    (t.advance (t.ahead.takeWhile p).length).offset =
      utf8Length (t.behind.reverse ++ t.ahead.takeWhile p) := by
  rw [h.offset_advance, take_length_takeWhile]

/-- What stands behind the blanks, with its place. -/
theorem Placed.behindBlanks (h : t.Placed source) :
    behindBlanks source t.offset =
      .ok ((t.afterBlanks 0).map fun c => ((t.advance (blanks t.ahead)).offset, lead c)) := by
  rw [Bytewise.behindBlanks, blanks, h.offset_takeWhile, h.offset, skip_blanks h.text, afterBlanks,
    List.drop_zero]
  have hText : source = (t.behind.reverse ++ t.ahead.takeWhile isBlank) ++ t.ahead.dropWhile isBlank := by
    rw [List.append_assoc, List.takeWhile_append_dropWhile, h.text]
  have hHere := getElem?_head hText
  cases hNext : t.ahead.dropWhile isBlank with
  | nil =>
      rw [hNext] at hHere
      exact if_neg (Nat.not_lt.mpr (List.getElem?_eq_none_iff.mp hHere))
  | cons c rest =>
      rw [hNext] at hHere
      rw [if_pos (List.getElem?_eq_some_iff.mp hHere).1, byteAt_of_getElem? hHere]
      rfl

/-- A text whose bytes end with one of ASCII ends with its character. -/
theorem bytes_eq_concat {front : List Char} {before : List UInt8} {d : Char} (hAscii : d.toNat < 0x80)
    (h : bytes front = before ++ [ascii d]) :
    ∃ shorter, front = shorter ++ [d] ∧ before = bytes shorter := by
  obtain rfl | ⟨shorter, c, rfl⟩ := List.eq_nil_or_concat' front
  · exact absurd h.symm (List.append_ne_nil_of_right_ne_nil _ (List.cons_ne_nil _ _))
  · have hLast : bytes (shorter ++ [c]) = bytes shorter ++ String.utf8EncodeChar c := by simp [bytes]
    rw [hLast] at h
    by_cases hSmall : c.toNat < 0x80
    · rw [encode_of_ascii hSmall] at h
      obtain ⟨hBefore, hByte⟩ := List.append_inj' h rfl
      have hSame := (lead_of_ascii hSmall).trans (List.cons.inj hByte).1
      obtain rfl := (lead_eq_iff hAscii).mp hSame
      exact ⟨shorter, rfl, hBefore.symm⟩
    · have hByte : ascii d ∈ String.utf8EncodeChar c := by
        have hEnd := congrArg List.getLast? h
        rw [List.getLast?_append_of_ne_nil _ String.utf8EncodeChar_ne_nil, List.getLast?_concat] at hEnd
        exact List.mem_of_getLast? hEnd
      exact absurd rfl (ne_ascii_of_large (not_ascii_of_mem (Nat.not_lt.mp hSmall) hByte) hAscii)

/-- A text ends with several dots if its bytes do. -/
theorem dots_suffix_iff {front : List Char} {n : Nat} :
    List.replicate n (ascii '.') <:+ bytes front ↔ List.replicate n '.' <:+ front := by
  induction n generalizing front with
  | zero => simp
  | succ n ih =>
      rw [List.replicate_succ', List.replicate_succ']
      constructor
      · rintro ⟨before, hBefore⟩
        rw [← List.append_assoc] at hBefore
        obtain ⟨shorter, rfl, hShorter⟩ := bytes_eq_concat (by decide) hBefore.symm
        obtain ⟨rest, rfl⟩ := ih.mp ⟨before, hShorter⟩
        exact ⟨rest, by simp⟩
      · rintro ⟨rest, rfl⟩
        obtain ⟨before, hBefore⟩ := ih.mpr ⟨rest, rfl⟩
        refine ⟨before, ?_⟩
        rw [← List.append_assoc, hBefore, ← List.append_assoc, bytes_append _ ['.']]
        rfl

/-- The bytes in front of a place tell of the characters in front of it whether they end with a dot, and
whether they end with three. -/
theorem Placed.isMember (h : t.Placed source) : Bytewise.isMember source t.offset = .ok t.isMember := by
  have hFront : (bytes source).take t.offset = bytes t.behind.reverse := by
    rw [h.offset, h.text, bytes_append, ← length_bytes, List.take_left]
  have hLength : (bytes t.behind.reverse).length = t.offset := by rw [length_bytes, h.offset]
  have hInside : t.offset ≤ (bytes source).length := by
    rw [length_bytes, h.text, utf8Length_append, h.offset]
    exact Nat.le_add_right _ _
  have hMember : t.isMember = decide ([ascii '.'] <:+ bytes t.behind.reverse ∧
      ¬[ascii '.', ascii '.', ascii '.'] <:+ bytes t.behind.reverse) := by
    rw [Bool.eq_iff_iff, decide_eq_true_eq, isMember_iff (List.reverse_reverse _).symm]
    exact and_congr (dots_suffix_iff (n := 1)).symm (dots_suffix_iff (n := 3)).not.symm
  rw [hMember, Bytewise.isMember]
  generalize bytes t.behind.reverse = front at hFront hLength
  by_cases hStart : 0 < t.offset
  · obtain rfl | ⟨before, b, rfl⟩ := List.eq_nil_or_concat' front
    · exact absurd hLength (Nat.ne_of_lt hStart)
    · have hByte : (bytes source)[t.offset - 1]? = some b := by
        rw [← List.getElem?_take_of_lt (Nat.sub_lt hStart Nat.one_pos), hFront, ← hLength]
        simp
      have hDot : [ascii '.'] <:+ before ++ [b] ↔ b = ascii '.' := by
        rw [List.suffix_iff_eq_drop]
        simp [eq_comm]
      rw [if_pos hStart, byteAt_of_getElem? hByte]
      by_cases hHere : b = ascii '.'
      · subst hHere
        by_cases hThree : 3 ≤ t.offset
        · have hRead : bytesBetween source (t.offset - 3) t.offset =
              .ok ((before ++ [ascii '.']).drop (t.offset - 3)) := by
            rw [bytesBetween, if_pos ⟨Nat.sub_le _ _, hInside⟩, hFront]
          have hSpread : [ascii '.', ascii '.', ascii '.'] <:+ before ++ [ascii '.'] ↔
              (before ++ [ascii '.']).drop (t.offset - 3) = [ascii '.', ascii '.', ascii '.'] := by
            rw [List.suffix_iff_eq_drop, hLength, eq_comm]
            rfl
          simp [hSpread, hThree, hRead, bind, Except.bind]
        · have hShort : ¬[ascii '.', ascii '.', ascii '.'] <:+ before ++ [ascii '.'] := fun hSuffix =>
            hThree (hLength ▸ hSuffix.length_le)
          simp [hShort, hThree, bind, Except.bind]
      · simp [hHere, hDot, bind, Except.bind]
  · obtain rfl : front = [] := List.eq_nil_of_length_eq_zero (by omega)
    rw [if_neg hStart]
    simp

theorem map_lead_eq_some_iff {next : Option Char} {d : Char} (hAscii : d.toNat < 0x80) :
    next.map lead = some (ascii d) ↔ next = some d := by
  cases next with
  | none => simp
  | some c => simp [lead_eq_iff hAscii]

/-- The next byte behind the blanks, with its place. -/
def nextByte (t : Scanner) : Option (Nat × UInt8) :=
  (t.afterBlanks 0).map fun c => ((t.advance (blanks t.ahead)).offset, lead c)

theorem Placed.importWord (h : read.Placed source) :
    Bytewise.importWord source read.cursor read.nextByte = .ok read.importWord.cursor := by
  rw [importWord_eq, nextByte]
  cases hNext : read.afterBlanks 0 with
  | none => rfl
  | some c =>
      simp only [Option.map_some, Bytewise.importWord, isQuoteByte_lead, isWordStartByte_lead,
        Option.any_some, Option.some_inj, lead_eq_iff (c := c) (d := '(') (by decide),
        lead_eq_iff (c := c) (d := '\x7b') (by decide), lead_eq_iff (c := c) (d := '*') (by decide)]
      by_cases hParen : c = '('
      · subst hParen
        have hAhead : (read.advance (blanks read.ahead)).ahead =
            '(' :: (read.ahead.dropWhile isBlank).tail := by
          rw [afterBlanks, List.drop_zero] at hNext
          exact (drop_blanks _).trans (List.eq_cons_of_mem_head? hNext)
        have hInner := (h.advance (blanks read.ahead + 1)).behindBlanks
        have hSame : (read.advance (blanks read.ahead + 1)).afterBlanks 0 =
            read.afterBlanks (blanks read.ahead + 1) := rfl
        rw [if_pos rfl, if_pos rfl, ← offset_ascii hAhead (by decide), advance_advance, hInner, hSame]
        cases hQuote : read.afterBlanks (blanks read.ahead + 1) with
        | none => rfl
        | some q =>
            simp only [Option.map_some, Option.any_some, advance_advance]
            by_cases hIs : isQuote q = true
            · simp [hIs, isQuoteByte_lead, bind, Except.bind]
              rfl
            · simp [hIs, isQuoteByte_lead, bind, Except.bind]
      · rw [if_neg hParen, if_neg hParen]
        by_cases hIs : isQuote c = true
        · rw [if_pos hIs, if_pos hIs]
          rfl
        · rw [if_neg hIs, if_neg hIs]
          by_cases hClause : (decide (c = '\x7b') || decide (c = '*') || isWordStart c) = true
          · rw [if_pos hClause, if_pos hClause]
            rfl
          · rw [if_neg hClause, if_neg hClause]

theorem exportWord_cursor (read : Scanner) :
    Bytewise.exportWord read.cursor read.nextByte = read.exportWord.cursor := by
  rw [exportWord_eq, nextByte]
  cases read.afterBlanks 0 with
  | none => rfl
  | some c =>
      simp only [Option.map_some, Bytewise.exportWord, Option.any_some,
        lead_eq_iff (c := c) (d := '\x7b') (by decide), lead_eq_iff (c := c) (d := '*') (by decide)]
      split <;> rfl

theorem fromWord_cursor (read : Scanner) :
    Bytewise.fromWord read.cursor read.nextByte = read.fromWord.cursor := by
  rw [fromWord_eq, nextByte]
  cases read.afterBlanks 0 with
  | none => rfl
  | some c =>
      simp only [Option.map_some, Bytewise.fromWord, Option.any_some, isQuoteByte_lead]
      split <;> rfl

theorem cursor_ite {p : Prop} [Decidable p] {x y : Except Stop Cursor} {t u : Scanner}
    (hThen : p → x = .ok t.cursor) (hElse : ¬p → y = .ok u.cursor) :
    (if p then x else y) = .ok (if p then t else u).cursor := by
  split
  · exact hThen ‹p›
  · exact hElse ‹¬p›

theorem Placed.word (h : t.Placed source) : Bytewise.word source t.cursor = .ok t.word.cursor := by
  have hEnd : skip isWordPartByte source t.offset =
      (t.advance (t.ahead.takeWhile isWordPart).length).offset := by
    rw [h.offset_takeWhile, h.offset, skip_word h.text]
  have hLetters : slice source t.offset (t.advance (t.ahead.takeWhile isWordPart).length).offset =
      .ok (t.ahead.takeWhile isWordPart) := by
    rw [h.offset_takeWhile, h.offset]
    exact slice_of_append (t.ahead.dropWhile isWordPart)
      (by rw [List.append_assoc, List.takeWhile_append_dropWhile, h.text])
  have hRead := h.advance (t.ahead.takeWhile isWordPart).length
  have hToken (prior : Prior) : (t.token (t.ahead.takeWhile isWordPart).length prior).Placed source :=
    ⟨hRead.text, hRead.offset⟩
  unfold Bytewise.word Scanner.word
  simp only [show t.cursor.pos = t.offset from rfl, hEnd, hLetters, h.isMember, hRead.behindBlanks, bind,
    Except.bind]
  refine cursor_ite (fun _ => rfl) fun _ => ?_
  refine cursor_ite (fun _ => (hToken .operator).importWord) fun _ => ?_
  refine cursor_ite (fun _ => congrArg _ (exportWord_cursor (t.token _ .operator))) fun _ => ?_
  refine cursor_ite (fun _ => congrArg _ (fromWord_cursor (t.token _ .operand))) fun _ => ?_
  refine cursor_ite (fun _ => ?_) fun _ => rfl
  have hHead : ((t.advance (t.ahead.takeWhile isWordPart).length).afterBlanks 0).map lead = some (ascii '(') ↔
      t.afterBlanks (t.ahead.takeWhile isWordPart).length = some '(' := map_lead_eq_some_iff (by decide)
  simp only [Option.map_map, Function.comp_def, hHead]
  rfl

/-! ### Code -/

/-- Behind two characters of ASCII. -/
theorem offset_ascii_two {d : Char} (hAhead : t.ahead = c :: d :: rest) (hAscii : c.toNat < 0x80)
    (hNext : d.toNat < 0x80) : (t.advance 2).offset = t.offset + 2 := by
  have hAfter : (t.advance 1).ahead = d :: rest := by
    show t.ahead.drop 1 = d :: rest
    rw [hAhead]
    rfl
  rw [← advance_advance t 1 1, offset_ascii hAfter hNext, offset_ascii hAhead hAscii]

theorem slash_cursor (h : t.Placed source) (hAhead : t.ahead = '/' :: rest) :
    Bytewise.slash source t.cursor = (t.slash rest.head?).cursor := by
  have hOne := offset_ascii hAhead (by decide)
  have hTwo {d : Char} (hNext : rest.head? = some d) (hAscii : d.toNat < 0x80) :
      (t.advance 2).offset = t.offset + 2 := by
    obtain ⟨tail, rfl⟩ := List.head?_eq_some_iff.mp hNext
    exact offset_ascii_two hAhead (by decide) hAscii
  have hByte : (bytes source)[t.cursor.pos + 1]? = rest.head?.map lead := h.next hAhead (by decide)
  unfold Bytewise.slash Scanner.slash
  simp only [hByte, map_lead_eq_some_iff (d := '/') (by decide), map_lead_eq_some_iff (d := '*') (by decide)]
  split
  · rename_i hNext
    rw [show t.cursor.pos + 2 = (t.advance 2).offset from (hTwo hNext (by decide)).symm]
    rfl
  split
  · rename_i hNext
    rw [show t.cursor.pos + 2 = (t.advance 2).offset from (hTwo hNext (by decide)).symm]
    rfl
  rw [show t.cursor.pos + 1 = (t.advance 1).offset from hOne.symm, apply_ite cursor]
  rfl

theorem closeBrace_cursor (hAhead : t.ahead = '\x7d' :: rest) :
    Bytewise.closeBrace t.cursor = t.closeBrace.cursor := by
  unfold Bytewise.closeBrace Scanner.closeBrace
  rw [show t.cursor.pos + 1 = (t.advance 1).offset from (offset_ascii hAhead (by decide)).symm]
  cases hOpen : t.substitutions with
  | nil => simp [cursor, hOpen, token, advance]
  | cons depth outer =>
      by_cases hDepth : depth = t.braces
      · simp [cursor, hOpen, hDepth, advance, Mode.phase]
      · simp [cursor, hOpen, hDepth, token, advance]

theorem ascii_of_sign (h : (decide (c = '+') || decide (c = '-')) = true) : c.toNat < 0x80 := by
  rcases (by simpa using h : c = '+' ∨ c = '-') with rfl | rfl <;> decide

/-- One token of code is read alike. -/
theorem Placed.code (h : t.Placed source) (hAhead : t.ahead = c :: rest) :
    Bytewise.code source t.cursor = .ok (t.code c rest).cursor := by
  have hByte : Bytewise.byteAt source t.cursor.pos = .ok (lead c) := h.byteAt hAhead
  have hOne {next : Cursor} {u : Scanner} (hAscii : c.toNat < 0x80) (hPos : next.pos = t.offset + 1)
      (hSame : { next with pos := (t.advance 1).offset } = u.cursor) :
      (.ok next : Except Stop Cursor) = .ok u.cursor := by
    rw [← hSame, offset_ascii hAhead hAscii, ← hPos]
  have hTwice : ((lead c = ascii '+' || lead c = ascii '-') &&
      (bytes source)[t.cursor.pos + 1]? = some (lead c)) = ((c = '+' || c = '-') && rest.head? = some c) := by
    have hSign : (decide (lead c = ascii '+') || decide (lead c = ascii '-')) =
        (decide (c = '+') || decide (c = '-')) := by
      simp only [lead_eq_iff (c := c) (d := '+') (by decide), lead_eq_iff (c := c) (d := '-') (by decide)]
    rw [hSign, Bool.eq_iff_iff, Bool.and_eq_true, Bool.and_eq_true]
    refine and_congr_right fun hIs => ?_
    have hAscii := ascii_of_sign hIs
    rw [show (bytes source)[t.cursor.pos + 1]? = rest.head?.map lead from h.next hAhead hAscii,
      lead_of_ascii hAscii, decide_eq_true_eq, decide_eq_true_eq, map_lead_eq_some_iff hAscii]
  unfold Bytewise.code Scanner.code
  simp only [hByte, bind, Except.bind, isQuoteByte_lead, isDigitByte_lead, isWordStartByte_lead,
    isBlankByte_lead, lead_eq_iff (c := c) (d := '\x60') (by decide),
    lead_eq_iff (c := c) (d := '/') (by decide), lead_eq_iff (c := c) (d := '\x7b') (by decide),
    lead_eq_iff (c := c) (d := '\x7d') (by decide), lead_eq_iff (c := c) (d := ';') (by decide),
    lead_eq_iff (c := c) (d := '(') (by decide), lead_eq_iff (c := c) (d := ')') (by decide),
    lead_eq_iff (c := c) (d := ']') (by decide)]
  refine cursor_ite (fun hQuote => hOne (ascii_of_isQuote hQuote) rfl rfl) fun _ => ?_
  refine cursor_ite (fun hTick => hOne (hTick ▸ by decide) rfl rfl) fun _ => ?_
  refine cursor_ite (fun hSlash => congrArg _ (slash_cursor h (hSlash ▸ hAhead))) fun _ => ?_
  refine cursor_ite (fun hBrace => hOne (hBrace ▸ by decide) rfl rfl) fun _ => ?_
  refine cursor_ite (fun hBrace => congrArg _ (closeBrace_cursor (hBrace ▸ hAhead))) fun _ => ?_
  refine cursor_ite (fun hEnd => hOne (hEnd ▸ by decide) rfl rfl) fun _ => ?_
  refine cursor_ite (fun hParen => hOne (hParen ▸ by decide) rfl rfl) fun _ => ?_
  refine cursor_ite (fun hParen => hOne (hParen ▸ by decide) rfl rfl) fun _ => ?_
  refine cursor_ite (fun hBracket => hOne (hBracket ▸ by decide) rfl rfl) fun _ => ?_
  rw [hTwice]
  refine cursor_ite (fun hSame => ?_) fun _ => ?_
  · obtain ⟨hIs, hHead⟩ := Bool.and_eq_true_iff.mp hSame
    obtain ⟨tail, rfl⟩ := List.head?_eq_some_iff.mp (of_decide_eq_true hHead)
    have hAscii := ascii_of_sign hIs
    rw [show t.cursor.pos + 2 = (t.advance 2).offset from (offset_ascii_two hAhead hAscii hAscii).symm]
    rfl
  refine cursor_ite (fun _ => ?_) fun _ => ?_
  · have hNumber : skip (fun d => isWordPartByte d || d = ascii '.') source t.cursor.pos =
        (t.advance (t.ahead.takeWhile fun d => isWordPart d || d = '.').length).offset := by
      rw [h.offset_takeWhile, show t.cursor.pos = t.offset from rfl, h.offset, skip_number h.text]
    rw [hNumber]
    rfl
  refine cursor_ite (fun _ => h.word) fun hLetter => ?_
  have hAscii : c.toNat < 0x80 := Nat.not_le.mp fun hLarge => hLetter (by
    have hVal : 0x80 ≤ c.val := UInt32.le_iff_toNat_le.mpr hLarge
    simp [isWordStart, hVal])
  exact cursor_ite (fun _ => hOne hAscii rfl rfl) fun _ => hOne hAscii rfl rfl

end Scanner

end ModuleGateway.Relink
