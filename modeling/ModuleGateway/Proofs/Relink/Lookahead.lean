import ModuleGateway.Proofs.Relink.Scanning

/-!
How far a step looks. Two scanners that differ only in where they stand read the same piece, as long as
the texts ahead of them agree up to the end of the piece and in the character behind it, and as many dots
stand right behind both of them. A scan of one is then a scan of the other. What lies further ahead, and
what lies behind the dots, does not count.
-/

namespace ModuleGateway.Relink

open Text

/-! ### Readers -/

/-- A reader that has found something finds the same when the text behind it changes. -/
def Settled {α : Type} (reader : List Char → Option α) (length : α → Nat) : Prop :=
  ∀ text found, reader text = some found →
    ∀ more, reader (text.take (length found) ++ more) = some found

theorem Settled.swap {α : Type} {reader : List Char → Option α} {length : α → Nat} {found : α}
    {u v : List Char} (h : Settled reader length) (hFound : reader (u ++ v) = some found)
    (hRoom : length found ≤ u.length) (w : List Char) : reader (u ++ w) = some found := by
  have hAgain := h _ _ hFound (u.drop (length found) ++ w)
  rwa [List.take_append_of_le_length hRoom, ← List.append_assoc, List.take_append_drop] at hAgain

theorem stringBody_settled (quote : Char) :
    Settled (stringBody quote) fun body => body.length + 1 := by
  intro text body h more
  fun_induction stringBody quote text generalizing body with
  | case1 => cases h
  | case2 c rest ih =>
      obtain ⟨inner, hInner, rfl⟩ := Option.map_eq_some_iff.mp h
      simp [stringBody, ih _ hInner]
  | case3 => cases h
  | case4 => cases h
  | case5 rest hPair hSingle hLine =>
      cases h
      have hEscape : quote ≠ '\\' := by
        rintro rfl
        cases rest <;> simp_all
      simp [stringBody, hEscape, hLine]
  | case6 c rest hPair hSingle hLine hQuote ih =>
      obtain ⟨inner, hInner, rfl⟩ := Option.map_eq_some_iff.mp h
      have hEscape : c ≠ '\\' := by
        rintro rfl
        cases rest <;> simp_all
      simp [stringBody, hEscape, hLine, hQuote, ih _ hInner]

/-- A reader that reads some of a text sees the first character of it. -/
theorem cons_take_append {text : List Char} {n : Nat} (hPos : 0 < n) (hLength : n ≤ text.length) :
    ∃ d tail k, text = d :: tail ∧ n = k + 1 ∧
      ∀ more, text.take n ++ more = d :: (tail.take k ++ more) := by
  obtain ⟨k, rfl⟩ := Nat.exists_eq_succ_of_ne_zero (Nat.ne_of_gt hPos)
  cases text with
  | nil => simp at hLength
  | cons d tail => exact ⟨d, tail, k, rfl, rfl, fun more => rfl⟩

theorem templateChunk_settled : Settled templateChunk Prod.fst := by
  intro text found h more
  fun_induction templateChunk text generalizing found with
  | case1 => cases h
  | case2 c rest ih =>
      obtain ⟨inner, hInner, rfl⟩ := Option.map_eq_some_iff.mp h
      simp [templateChunk, ih _ hInner]
  | case3 => cases h
  | case4 => cases h; simp [templateChunk]
  | case5 => cases h; simp [templateChunk]
  | case6 c rest hPair hSingle hClose hOpen ih =>
      obtain ⟨⟨n, close⟩, hInner, rfl⟩ := Option.map_eq_some_iff.mp h
      have hEscape : c ≠ '\\' := by
        rintro rfl
        cases rest <;> simp_all
      have hBound := Scanner.templateChunk_bounded (congrArg (Option.map Prod.fst) hInner)
      obtain ⟨d, tail, k, rfl, rfl, hTake⟩ := cons_take_append hBound.1 hBound.2
      have hAgain := ih _ hInner
      rw [hTake] at hAgain
      simp only [List.take_succ_cons, List.cons_append]
      rw [templateChunk, hAgain]
      · rfl
      all_goals simp_all

theorem blockBody_settled : Settled blockBody fun n => n := by
  intro text n h more
  fun_induction blockBody text generalizing n with
  | case1 => cases h
  | case2 => cases h; simp [blockBody]
  | case3 c rest hEnd ih =>
      obtain ⟨n, hInner, rfl⟩ := Option.map_eq_some_iff.mp h
      have hBound := Scanner.blockBody_bounded hInner
      obtain ⟨d, tail, k, rfl, rfl, hTake⟩ := cons_take_append hBound.1 hBound.2
      have hAgain := ih _ hInner
      rw [hTake] at hAgain
      simp only [List.take_succ_cons, List.cons_append]
      rw [blockBody, hAgain]
      · rfl
      · simpa using hEnd

theorem regexBody_settled (inClass : Bool) : Settled (regexBody inClass) fun n => n := by
  intro text n h more
  fun_induction regexBody inClass text generalizing n with
  | case1 => cases h
  | case2 inClass c rest ih =>
      obtain ⟨inner, hInner, rfl⟩ := Option.map_eq_some_iff.mp h
      simp [regexBody, ih _ hInner]
  | case3 => cases h
  | case4 inClass rest ih =>
      obtain ⟨inner, hInner, rfl⟩ := Option.map_eq_some_iff.mp h
      simp [regexBody, ih _ hInner]
  | case5 inClass rest ih =>
      obtain ⟨inner, hInner, rfl⟩ := Option.map_eq_some_iff.mp h
      simp [regexBody, ih _ hInner]
  | case6 => cases h
  | case7 inClass c rest hPair hSingle hOpen hClose hLine hEnd =>
      cases h
      obtain ⟨rfl, hOut⟩ : c = '/' ∧ inClass = false := by simpa using hEnd
      simp [regexBody, hOut, isLineEnd]
  | case8 inClass c rest hPair hSingle hOpen hClose hLine hEnd ih =>
      obtain ⟨inner, hInner, rfl⟩ := Option.map_eq_some_iff.mp h
      have hEscape : c ≠ '\\' := by
        rintro rfl
        cases rest <;> simp_all
      simp_all [regexBody]

/-! ### Two texts that part -/

/-- A character that may open a literal or a comment, or a chunk of a template behind a substitution. -/
def isOpener (c : Char) : Bool :=
  isQuote c || c = '\x60' || c = '/' || c = '\x7d'

/-- The first characters of two texts agree, and may open a literal or a comment. -/
structure Parting (v w : List Char) : Prop where
  head : w.head? = v.head?
  opener : ∀ c ∈ v.head?, isOpener c = true

theorem parting_nil : Parting [] [] where
  head := rfl
  opener := by simp

theorem parting_cons {c : Char} (h : isOpener c = true) (v w : List Char) :
    Parting (c :: v) (c :: w) where
  head := rfl
  opener := by simpa using h

theorem isOpener_cases {c : Char} (h : isOpener c = true) :
    c = '\'' ∨ c = '"' ∨ c = '\x60' ∨ c = '/' ∨ c = '\x7d' := by
  simpa [isOpener, isQuote, or_assoc] using h

variable {u v w : List Char} {p : Char → Bool}

theorem takeWhile_append_of_head (h : ∀ c ∈ v.head?, p c = false) :
    (u ++ v).takeWhile p = u.takeWhile p := by
  have hNone : v.takeWhile p = [] := by
    cases v with
    | nil => rfl
    | cons c v => simp [h c rfl]
  rw [List.takeWhile_append, hNone]
  split
  · rename_i hAll
    rw [List.append_nil]
    exact ((List.takeWhile_prefix p).eq_of_length hAll).symm
  · rfl

theorem dropWhile_append_of_head (h : ∀ c ∈ v.head?, p c = false) :
    (u ++ v).dropWhile p = u.dropWhile p ++ v := by
  have hAll : v.dropWhile p = v := by
    cases v with
    | nil => rfl
    | cons c v => simp [h c rfl]
  rw [List.dropWhile_append, hAll]
  split
  · rename_i hEmpty
    rw [List.isEmpty_iff.mp hEmpty, List.nil_append]
  · rfl

namespace Parting

theorem stops (h : Parting v w) (hp : ∀ c, isOpener c = true → p c = false) :
    (∀ c ∈ v.head?, p c = false) ∧ ∀ c ∈ w.head?, p c = false :=
  ⟨fun c hc => hp c (h.opener c hc), fun c hc => hp c (h.opener c (h.head ▸ hc))⟩

theorem takeWhile (h : Parting v w) (hp : ∀ c, isOpener c = true → p c = false) (u : List Char) :
    (u ++ w).takeWhile p = (u ++ v).takeWhile p := by
  rw [takeWhile_append_of_head (h.stops hp).1, takeWhile_append_of_head (h.stops hp).2]

/-- A run that ends in front of where the texts part is the same in both of them. -/
theorem takeWhile_of_room (h : Parting v w)
    (hRoom : ((u ++ v).takeWhile p).length ≤ u.length) :
    (u ++ w).takeWhile p = (u ++ v).takeWhile p := by
  rw [List.takeWhile_append] at hRoom ⊢
  rw [List.takeWhile_append]
  split
  · rename_i hAll
    rw [if_pos hAll, List.length_append] at hRoom
    have hNone : v.takeWhile p = [] := List.eq_nil_of_length_eq_zero (by omega)
    have hHead := h.head
    rw [hNone]
    cases w with
    | nil => rfl
    | cons c w =>
        cases v with
        | nil => cases hHead
        | cons d v =>
            obtain rfl : c = d := Option.some.inj hHead
            by_cases hc : p c = true
            · simp [hc] at hNone
            · simp [hc]
  · rfl

theorem head_append (h : Parting v w) (u : List Char) : (u ++ w).head? = (u ++ v).head? := by
  rw [List.head?_append, List.head?_append, h.head]

theorem head_dropWhile (h : Parting v w) (hp : ∀ c, isOpener c = true → p c = false)
    (u : List Char) : ((u ++ w).dropWhile p).head? = ((u ++ v).dropWhile p).head? := by
  rw [dropWhile_append_of_head (h.stops hp).1, dropWhile_append_of_head (h.stops hp).2,
    h.head_append]

end Parting

theorem not_blank_of_isOpener (c : Char) (h : isOpener c = true) : isBlank c = false := by
  rcases isOpener_cases h with rfl | rfl | rfl | rfl | rfl <;> decide

theorem not_part_of_isOpener (c : Char) (h : isOpener c = true) : isWordPart c = false := by
  rcases isOpener_cases h with rfl | rfl | rfl | rfl | rfl <;> decide

theorem not_digits_of_isOpener (c : Char) (h : isOpener c = true) :
    (isWordPart c || decide (c = '.')) = false := by
  rcases isOpener_cases h with rfl | rfl | rfl | rfl | rfl <;> decide

/-! ### Places -/

/-- Where a scanner stands: the text on both sides of it, and the counts. -/
structure Place where
  behind : List Char
  ahead : List Char
  count : Nat
  offset : Nat
  opened : Nat

namespace Scanner

/-- The same scanner at another place. -/
def standing (s : Scanner) (here : Place) : Scanner :=
  { s with
    behind := here.behind
    ahead := here.ahead
    count := here.count
    offset := here.offset
    opened := here.opened }

/-- Where the scanner stands. -/
def place (s : Scanner) : Place :=
  ⟨s.behind, s.ahead, s.count, s.offset, s.opened⟩

/-- The dots right behind a place. -/
def dots (behind : List Char) : List Char :=
  behind.takeWhile (· = '.')

/-- `t` stands `n` characters further than `s`. -/
structure MovesBy (s : Scanner) (n : Nat) (t : Scanner) : Prop where
  ahead : t.ahead = s.ahead.drop n
  behind : t.behind = (s.ahead.take n).reverse ++ s.behind
  count : t.count = s.count + n

theorem MovesBy.trans {s t r : Scanner} {m n : Nat} (left : s.MovesBy m t) (right : t.MovesBy n r) :
    s.MovesBy (m + n) r where
  ahead := by rw [right.ahead, left.ahead, List.drop_drop]
  behind := by
    rw [right.behind, left.behind, left.ahead, List.take_add, List.reverse_append,
      List.append_assoc]
  count := by rw [right.count, left.count, Nat.add_assoc]

/-- Two scanners that differ only in where they stand. -/
def Twins (s t : Scanner) : Prop :=
  t = s.standing t.place

variable {s t u a b a' b' : Scanner}

theorem Twins.place (h : s.Twins t) : ∃ here, t = s.standing here :=
  ⟨t.place, h⟩

theorem Twins.symm (h : s.Twins t) : t.Twins s := by
  obtain ⟨here, rfl⟩ := h.place
  rfl

theorem Twins.trans (left : s.Twins t) (right : t.Twins u) : s.Twins u := by
  obtain ⟨here, rfl⟩ := left.place
  obtain ⟨there, rfl⟩ := right.place
  rfl

theorem Twins.mode (h : s.Twins t) : t.mode = s.mode := by
  obtain ⟨here, rfl⟩ := h.place
  rfl

theorem Twins.pastLiteral (h : s.Twins t) (n : Nat) : (s.pastLiteral n).Twins (t.pastLiteral n) := by
  obtain ⟨here, rfl⟩ := h.place
  rfl

theorem Twins.pastChunk (h : s.Twins t) (n : Nat) : (s.pastChunk n).Twins (t.pastChunk n) := by
  obtain ⟨here, rfl⟩ := h.place
  rfl

theorem Twins.pastComment (h : s.Twins t) (n : Nat) : (s.pastComment n).Twins (t.pastComment n) := by
  obtain ⟨here, rfl⟩ := h.place
  rfl

theorem Twins.pastTarget (h : s.Twins t) (raw new : List Char) :
    (s.pastTarget raw).Twins (t.pastTarget new) := by
  obtain ⟨here, rfl⟩ := h.place
  rfl

/-- Whether the source may end here does not depend on where the scanner stands. -/
theorem Twins.pending (h : s.Twins t) (hNone : s.pending = none) : t.pending = none := by
  obtain ⟨here, rfl⟩ := h.place
  unfold Scanner.pending at hNone ⊢
  rw [show (s.standing here).mode = s.mode from rfl]
  cases hMode : s.mode <;> rw [hMode] at hNone
  case code | lineComment =>
    refine if_pos (?_ : s.substitutions = [])
    by_contra hOpen
    rw [if_neg hOpen] at hNone
    cases hNone
  all_goals cases hNone

/-- Two scanners move equally far, from `s` to `a` and from `t` to `b`, and then differ only in where
they stand. -/
def Beside (s t a b : Scanner) : Prop :=
  ∃ n, s.MovesBy n a ∧ t.MovesBy n b ∧ a.Twins b

theorem Twins.beside (h : s.Twins t) : s.Beside t s t :=
  ⟨0, ⟨rfl, rfl, rfl⟩, ⟨rfl, rfl, rfl⟩, h⟩

theorem beside_ite {q : Prop} [Decidable q] (hThen : q → s.Beside t a b)
    (hElse : ¬q → s.Beside t a' b') :
    s.Beside t (if q then a else a') (if q then b else b') := by
  split
  · exact hThen ‹q›
  · exact hElse ‹¬q›

/-- Behind a common move, two scanners go on beside each other. -/
theorem Beside.after {n : Nat} (h : a.Beside b a' b') (hLeft : s.MovesBy n a)
    (hRight : t.MovesBy n b) : s.Beside t a' b' := by
  obtain ⟨m, hA, hB, hSame⟩ := h
  exact ⟨n + m, hLeft.trans hA, hRight.trans hB, hSame⟩

/-- Whether a word is a member name depends on the dots right behind the scanner alone. -/
theorem isMember_eq_dots (s : Scanner) :
    s.isMember = decide ((dots s.behind).length = 1 ∨ (dots s.behind).length = 2) := by
  unfold isMember dots
  split
  · rename_i rest hBehind
    simp [hBehind]
  · rename_i rest hSpread hBehind
    rw [hBehind]
    cases rest with
    | nil => simp
    | cons c rest =>
        by_cases hSecond : c = '.'
        · cases rest with
          | nil => simp [hSecond]
          | cons d rest =>
              have hThird : d ≠ '.' := by
                rintro rfl
                exact hSpread rest (by rw [hSecond])
              simp [hSecond, hThird]
        · simp [hSecond]
  · rename_i hNone
    cases hBehind : s.behind with
    | nil => simp
    | cons c rest =>
        have hFirst : c ≠ '.' := fun hDot => hNone rest (by rw [hDot] at hBehind; exact hBehind)
        simp [hFirst]

/-! ### The words that look ahead -/

/-- The rule of the word `import` in terms of the next two tokens. -/
theorem importWord_eq (read : Scanner) :
    read.importWord =
      if read.afterBlanks 0 = some '(' then
        if (read.afterBlanks (blanks read.ahead + 1)).any isQuote then
          read.toTarget (blanks read.ahead + 1 +
            blanks (read.ahead.drop (blanks read.ahead + 1)))
        else read
      else if (read.afterBlanks 0).any isQuote then read.toTarget (blanks read.ahead)
      else if (read.afterBlanks 0).any fun c => c = '\x7b' || c = '*' || isWordStart c then
        { read with awaitingFrom := true }
      else read := by
  unfold importWord afterBlanks
  dsimp only
  rw [List.drop_zero, ← drop_blanks read.ahead, ← List.drop_drop, ← drop_blanks]
  split
  · rename_i rest hOpen
    rw [hOpen]
    simp only [List.head?_cons, if_true, List.drop_succ_cons, List.drop_zero]
    split
    · rename_i q tail hInner
      simp [hInner]
    · rename_i hInner
      simp [hInner]
  · rename_i c rest hNot hNext
    have hOther : c ≠ '(' := hNot
    simp [hNext, hOther]
  · rename_i hNone
    simp [hNone]

/-- The rule of the word `from` in terms of the next token. -/
theorem fromWord_eq (read : Scanner) :
    read.fromWord =
      if (read.afterBlanks 0).any isQuote then read.toTarget (blanks read.ahead) else read := by
  unfold fromWord
  cases read.afterBlanks 0 <;> rfl

/-- The rule of the word `export` in terms of the next token. -/
theorem exportWord_eq (read : Scanner) :
    read.exportWord =
      if (read.afterBlanks 0).any fun c => c = '\x7b' || c = '*' then
        { read with awaitingFrom := true }
      else read := by
  unfold exportWord
  cases read.afterBlanks 0 <;> rfl

section TwoTexts

variable {u v w : List Char}

theorem afterBlanks_parting {n : Nat} (hParting : Parting v w) (hAhead : s.ahead = u ++ v)
    (hOther : t.ahead = u ++ w) (hRoom : n ≤ u.length) : t.afterBlanks n = s.afterBlanks n := by
  rw [afterBlanks, afterBlanks, hAhead, hOther, List.drop_append_of_le_length hRoom,
    List.drop_append_of_le_length hRoom, hParting.head_dropWhile not_blank_of_isOpener]

theorem blanks_parting (hParting : Parting v w) (u : List Char) :
    blanks (u ++ w) = blanks (u ++ v) := by
  rw [blanks, blanks, hParting.takeWhile not_blank_of_isOpener]

/-- The opening parenthesis behind a word lies in front of where the texts part. -/
theorem room_of_afterBlanks (hParting : Parting v w) (hAhead : s.ahead = u ++ v)
    (hParen : s.afterBlanks 0 = some '(') : blanks s.ahead + 1 ≤ u.length := by
  have hStops := (hParting.stops not_blank_of_isOpener).1
  rw [afterBlanks, List.drop_zero, hAhead, dropWhile_append_of_head hStops] at hParen
  rw [hAhead, blanks, takeWhile_append_of_head hStops]
  have hSplit := congrArg List.length (List.takeWhile_append_dropWhile (p := isBlank) (l := u))
  rw [List.length_append] at hSplit
  cases hRest : u.dropWhile isBlank with
  | nil =>
      rw [hRest, List.nil_append] at hParen
      have hOpener := hParting.opener _ hParen
      exact absurd hOpener (by decide)
  | cons c rest =>
      rw [hRest, List.length_cons] at hSplit
      omega

theorem importWord_beside (hTwins : s.Twins t) (hParting : Parting v w) (hAhead : s.ahead = u ++ v)
    (hOther : t.ahead = u ++ w) : s.Beside t s.importWord t.importWord := by
  have hBlanks : blanks t.ahead = blanks s.ahead := by
    rw [hOther, hAhead, blanks_parting hParting]
  rw [importWord_eq, importWord_eq, hBlanks,
    afterBlanks_parting hParting hAhead hOther (Nat.zero_le _)]
  refine beside_ite (fun hParen => ?_) fun _ => ?_
  · have hRoom := room_of_afterBlanks hParting hAhead hParen
    have hInner : blanks (t.ahead.drop (blanks s.ahead + 1)) =
        blanks (s.ahead.drop (blanks s.ahead + 1)) := by
      generalize blanks s.ahead = gap at hRoom
      rw [hOther, hAhead, List.drop_append_of_le_length hRoom, List.drop_append_of_le_length hRoom,
        blanks_parting hParting]
    rw [afterBlanks_parting hParting hAhead hOther hRoom, hInner]
    obtain ⟨here, rfl⟩ := hTwins.place
    exact beside_ite (fun _ => ⟨_, ⟨rfl, rfl, rfl⟩, ⟨rfl, rfl, rfl⟩, rfl⟩) fun _ => hTwins.beside
  · obtain ⟨here, rfl⟩ := hTwins.place
    refine beside_ite (fun _ => ⟨_, ⟨rfl, rfl, rfl⟩, ⟨rfl, rfl, rfl⟩, rfl⟩) fun _ => ?_
    exact beside_ite (fun _ => ⟨0, ⟨rfl, rfl, rfl⟩, ⟨rfl, rfl, rfl⟩, rfl⟩) fun _ => hTwins.beside

theorem exportWord_beside (hTwins : s.Twins t) (hParting : Parting v w) (hAhead : s.ahead = u ++ v)
    (hOther : t.ahead = u ++ w) : s.Beside t s.exportWord t.exportWord := by
  rw [exportWord_eq, exportWord_eq, afterBlanks_parting hParting hAhead hOther (Nat.zero_le _)]
  obtain ⟨here, rfl⟩ := hTwins.place
  exact beside_ite (fun _ => ⟨0, ⟨rfl, rfl, rfl⟩, ⟨rfl, rfl, rfl⟩, rfl⟩) fun _ => hTwins.beside

theorem fromWord_beside (hTwins : s.Twins t) (hParting : Parting v w) (hAhead : s.ahead = u ++ v)
    (hOther : t.ahead = u ++ w) : s.Beside t s.fromWord t.fromWord := by
  have hBlanks : blanks t.ahead = blanks s.ahead := by
    rw [hOther, hAhead, blanks_parting hParting]
  rw [fromWord_eq, fromWord_eq, hBlanks,
    afterBlanks_parting hParting hAhead hOther (Nat.zero_le _)]
  obtain ⟨here, rfl⟩ := hTwins.place
  exact beside_ite (fun _ => ⟨_, ⟨rfl, rfl, rfl⟩, ⟨rfl, rfl, rfl⟩, rfl⟩) fun _ => hTwins.beside

theorem word_beside (hTwins : s.Twins t) (hParting : Parting v w) (hAhead : s.ahead = u ++ v)
    (hOther : t.ahead = u ++ w) (hDots : dots t.behind = dots s.behind) :
    s.Beside t s.word t.word := by
  have hLetters : t.ahead.takeWhile isWordPart = s.ahead.takeWhile isWordPart := by
    rw [hOther, hAhead, hParting.takeWhile not_part_of_isOpener]
  have hMember : t.isMember = s.isMember := by
    rw [isMember_eq_dots, isMember_eq_dots, hDots]
  have hRoom : (s.ahead.takeWhile isWordPart).length ≤ u.length := by
    rw [hAhead, takeWhile_append_of_head (hParting.stops not_part_of_isOpener).1]
    exact (List.takeWhile_prefix _).length_le
  unfold word
  dsimp only
  rw [hLetters, hMember, afterBlanks_parting hParting hAhead hOther hRoom]
  generalize s.ahead.takeWhile isWordPart = letters at hRoom
  have hLeft (prior : Prior) : s.MovesBy letters.length (s.token letters.length prior) :=
    ⟨rfl, rfl, rfl⟩
  have hRight (prior : Prior) : t.MovesBy letters.length (t.token letters.length prior) :=
    ⟨rfl, rfl, rfl⟩
  have hAfter (prior : Prior) :
      (s.token letters.length prior).ahead = u.drop letters.length ++ v := by
    rw [(hLeft prior).ahead, hAhead, List.drop_append_of_le_length hRoom]
  have hAfterOther (prior : Prior) :
      (t.token letters.length prior).ahead = u.drop letters.length ++ w := by
    rw [(hRight prior).ahead, hOther, List.drop_append_of_le_length hRoom]
  have hToken (prior : Prior) : (s.token letters.length prior).Twins (t.token letters.length prior) := by
    obtain ⟨here, rfl⟩ := hTwins.place
    rfl
  have hRead (prior : Prior) :
      s.Beside t (s.token letters.length prior) (t.token letters.length prior) :=
    ⟨_, hLeft prior, hRight prior, hToken prior⟩
  refine beside_ite (fun _ => hRead .operand) fun _ => ?_
  refine beside_ite (fun _ => ?_) fun _ => ?_
  · exact (importWord_beside (hToken _) hParting (hAfter _) (hAfterOther _)).after (hLeft _) (hRight _)
  refine beside_ite (fun _ => ?_) fun _ => ?_
  · exact (exportWord_beside (hToken _) hParting (hAfter _) (hAfterOther _)).after (hLeft _) (hRight _)
  have hAwaits : t.awaitingFrom = s.awaitingFrom := by
    obtain ⟨here, rfl⟩ := hTwins.place
    rfl
  rw [hAwaits]
  refine beside_ite (fun _ => ?_) fun _ => ?_
  · exact (fromWord_beside (hToken _) hParting (hAfter _) (hAfterOther _)).after (hLeft _) (hRight _)
  refine beside_ite (fun _ => ⟨_, ⟨rfl, rfl, rfl⟩, ⟨rfl, rfl, rfl⟩, ?_⟩) fun _ => hRead _
  obtain ⟨here, rfl⟩ := hTwins.place
  rfl

/-! ### Steps -/

theorem slash_beside (hTwins : s.Twins t) (next : Option Char) :
    s.Beside t (s.slash next) (t.slash next) := by
  obtain ⟨here, rfl⟩ := hTwins.place
  unfold slash
  refine beside_ite (fun _ => ⟨_, ⟨rfl, rfl, rfl⟩, ⟨rfl, rfl, rfl⟩, rfl⟩) fun _ => ?_
  refine beside_ite (fun _ => ⟨_, ⟨rfl, rfl, rfl⟩, ⟨rfl, rfl, rfl⟩, rfl⟩) fun _ => ?_
  exact beside_ite (fun _ => ⟨_, ⟨rfl, rfl, rfl⟩, ⟨rfl, rfl, rfl⟩, rfl⟩)
    fun _ => ⟨_, ⟨rfl, rfl, rfl⟩, ⟨rfl, rfl, rfl⟩, rfl⟩

theorem closeBrace_beside (hTwins : s.Twins t) : s.Beside t s.closeBrace t.closeBrace := by
  obtain ⟨here, rfl⟩ := hTwins.place
  unfold closeBrace
  rw [show (s.standing here).substitutions = s.substitutions from rfl]
  cases s.substitutions with
  | nil => exact ⟨_, ⟨rfl, rfl, rfl⟩, ⟨rfl, rfl, rfl⟩, rfl⟩
  | cons depth outer =>
      exact beside_ite (fun _ => ⟨_, ⟨rfl, rfl, rfl⟩, ⟨rfl, rfl, rfl⟩, rfl⟩)
        fun _ => ⟨_, ⟨rfl, rfl, rfl⟩, ⟨rfl, rfl, rfl⟩, rfl⟩

/-- A token of code looks one character behind where the texts part, and no further. -/
theorem code_beside {c : Char} (hTwins : s.Twins t) (hParting : Parting v w)
    (hAhead : s.ahead = c :: (u ++ v)) (hOther : t.ahead = c :: (u ++ w))
    (hDots : dots t.behind = dots s.behind) :
    s.Beside t (s.code c (u ++ v)) (t.code c (u ++ w)) := by
  have hDigits : t.ahead.takeWhile (fun d => isWordPart d || d = '.') =
      s.ahead.takeWhile (fun d => isWordPart d || d = '.') := by
    rw [hAhead, hOther]
    exact hParting.takeWhile not_digits_of_isOpener (c :: u)
  have hWord := word_beside hTwins hParting (u := c :: u) hAhead hOther hDots
  have hSlash := slash_beside hTwins (u ++ v).head?
  have hBrace := closeBrace_beside hTwins
  unfold code
  rw [hDigits, hParting.head_append]
  obtain ⟨here, rfl⟩ := hTwins.place
  refine beside_ite (fun _ => ⟨_, ⟨rfl, rfl, rfl⟩, ⟨rfl, rfl, rfl⟩, rfl⟩) fun _ => ?_
  refine beside_ite (fun _ => ⟨_, ⟨rfl, rfl, rfl⟩, ⟨rfl, rfl, rfl⟩, rfl⟩) fun _ => ?_
  refine beside_ite (fun _ => hSlash) fun _ => ?_
  refine beside_ite (fun _ => ⟨_, ⟨rfl, rfl, rfl⟩, ⟨rfl, rfl, rfl⟩, rfl⟩) fun _ => ?_
  refine beside_ite (fun _ => hBrace) fun _ => ?_
  refine beside_ite (fun _ => ⟨_, ⟨rfl, rfl, rfl⟩, ⟨rfl, rfl, rfl⟩, rfl⟩) fun _ => ?_
  refine beside_ite (fun _ => ⟨_, ⟨rfl, rfl, rfl⟩, ⟨rfl, rfl, rfl⟩, rfl⟩) fun _ => ?_
  refine beside_ite (fun _ => ⟨_, ⟨rfl, rfl, rfl⟩, ⟨rfl, rfl, rfl⟩, rfl⟩) fun _ => ?_
  refine beside_ite (fun _ => ⟨_, ⟨rfl, rfl, rfl⟩, ⟨rfl, rfl, rfl⟩, rfl⟩) fun _ => ?_
  refine beside_ite (fun _ => ⟨_, ⟨rfl, rfl, rfl⟩, ⟨rfl, rfl, rfl⟩, rfl⟩) fun _ => ?_
  refine beside_ite (fun _ => ⟨_, ⟨rfl, rfl, rfl⟩, ⟨rfl, rfl, rfl⟩, rfl⟩) fun _ => ?_
  refine beside_ite (fun _ => hWord) fun _ => ?_
  exact beside_ite (fun _ => ⟨_, ⟨rfl, rfl, rfl⟩, ⟨rfl, rfl, rfl⟩, rfl⟩)
    fun _ => ⟨_, ⟨rfl, rfl, rfl⟩, ⟨rfl, rfl, rfl⟩, rfl⟩

/-- Two scanners in front of texts that agree up to where `v` and `w` are left, with as many dots behind
them. -/
structure Abreast (v w : List Char) (s t : Scanner) : Prop where
  twins : s.Twins t
  dots : dots t.behind = dots s.behind
  ahead : ∃ u, s.ahead = u ++ v ∧ t.ahead = u ++ w

theorem dots_append {x y : List Char} (h : Scanner.dots y = Scanner.dots x) (text : List Char) :
    Scanner.dots (text ++ y) = Scanner.dots (text ++ x) := by
  unfold Scanner.dots at h ⊢
  rw [List.takeWhile_append, List.takeWhile_append, h]

/-- A move that stops in front of where the texts part reads the same text in both of them. -/
theorem Abreast.move (h : Abreast v w s t) (hParting : Parting v w) (hMove : s.Beside t a b)
    (hRoom : v.length ≤ a.ahead.length) : Abreast v w a b ∧ t.readTo b = s.readTo a := by
  obtain ⟨n, hLeft, hRight, hTwins⟩ := hMove
  obtain ⟨u, hAhead, hOther⟩ := h.ahead
  have hShort : n ≤ u.length ∨ v = [] ∧ w = [] := by
    by_cases hEmpty : v = []
    · have hHead := hParting.head
      rw [hEmpty, List.head?_nil, List.head?_eq_none_iff] at hHead
      exact .inr ⟨hEmpty, hHead⟩
    · have hLess := List.length_pos_of_ne_nil hEmpty
      rw [hLeft.ahead, hAhead, List.length_drop, List.length_append] at hRoom
      exact .inl (by omega)
  have hTake : s.ahead.take n = u.take n ∧ t.ahead.take n = u.take n := by
    rw [hAhead, hOther]
    rcases hShort with hShort | ⟨rfl, rfl⟩
    · exact ⟨List.take_append_of_le_length hShort, List.take_append_of_le_length hShort⟩
    · simp
  refine ⟨⟨hTwins, ?_, u.drop n, ?_⟩, ?_⟩
  · rw [hLeft.behind, hRight.behind, hTake.1, hTake.2]
    exact dots_append h.dots _
  · rw [hLeft.ahead, hRight.ahead, hAhead, hOther]
    rcases hShort with hShort | ⟨rfl, rfl⟩
    · exact ⟨List.drop_append_of_le_length hShort, List.drop_append_of_le_length hShort⟩
    · simp
  · rw [readTo, readTo, hLeft.count, hRight.count, Nat.add_sub_cancel_left, Nat.add_sub_cancel_left,
      hTake.1, hTake.2]

/-- What is read within a text and leaves all of `v` lies in front of `v`. -/
theorem room_of_drop {n : Nat} (hBound : n ≤ (u ++ v).length)
    (hRoom : v.length ≤ ((u ++ v).drop n).length) : n ≤ u.length := by
  rw [List.length_append] at hBound
  rw [List.length_drop, List.length_append] at hRoom
  omega

/-- What a reader finds in front of where the texts part, it finds in both of them. -/
theorem Abreast.found {α : Type} {reader : List Char → Option α} {length : α → Nat} {found : α}
    (h : Abreast v w s t) (hSettled : Settled reader length) (hFound : reader s.ahead = some found)
    (hBound : length found ≤ s.ahead.length) (hRoom : v.length ≤ (s.ahead.drop (length found)).length) :
    reader t.ahead = some found := by
  obtain ⟨u, hAhead, hOther⟩ := h.ahead
  rw [hAhead] at hFound hBound hRoom
  rw [hOther]
  exact hSettled.swap hFound (room_of_drop hBound hRoom) w

/-- The flags of a regular expression that ends in front of where the texts part are the same in both of
them. -/
theorem Abreast.flags {n : Nat} (h : Abreast v w s t) (hParting : Parting v w)
    (hBound : n ≤ s.ahead.length) (hRoom : v.length ≤ (s.ahead.drop n).length) :
    (t.ahead.drop n).takeWhile isWordPart = (s.ahead.drop n).takeWhile isWordPart := by
  obtain ⟨u, hAhead, hOther⟩ := h.ahead
  rw [hAhead] at hBound hRoom
  have hWithin := room_of_drop hBound hRoom
  rw [hOther, hAhead, List.drop_append_of_le_length hWithin, List.drop_append_of_le_length hWithin,
    hParting.takeWhile not_part_of_isOpener]

/-- A line comment that ends in front of where the texts part is the same in both of them. -/
theorem Abreast.line (h : Abreast v w s t) (hParting : Parting v w)
    (hRoom : v.length ≤ (s.ahead.drop (s.ahead.takeWhile (· ≠ '\n')).length).length) :
    t.ahead.takeWhile (· ≠ '\n') = s.ahead.takeWhile (· ≠ '\n') := by
  obtain ⟨u, hAhead, hOther⟩ := h.ahead
  have hBound := (List.takeWhile_prefix (l := s.ahead) (· ≠ '\n')).length_le
  rw [hAhead] at hBound hRoom ⊢
  rw [hOther]
  exact hParting.takeWhile_of_room (room_of_drop hBound hRoom)

/-- A token of code that ends in front of where the texts part is read by both scanners. -/
theorem Abreast.code {c : Char} {rest rest' : List Char} (h : Abreast v w s t) (hParting : Parting v w)
    (hMode : s.mode = .code) (hHere : s.ahead = c :: rest) (hThere : t.ahead = c :: rest')
    (hRoom : v.length ≤ (s.code c rest).ahead.length) : s.Beside t (s.code c rest) (t.code c rest') := by
  obtain ⟨u, hAhead, hOther⟩ := h.ahead
  obtain ⟨text, hText, hPasses, -⟩ := code_reads hHere hMode
  have hSome : u ≠ [] := by
    rintro rfl
    have hLength := congrArg List.length (hAhead.symm.trans hPasses.ahead)
    have hPos := List.length_pos_of_ne_nil hText
    rw [List.nil_append, List.length_append] at hLength
    omega
  obtain ⟨d, u, rfl⟩ := List.exists_cons_of_ne_nil hSome
  obtain ⟨rfl, rfl⟩ := List.cons.inj (hHere.symm.trans hAhead)
  obtain ⟨-, rfl⟩ := List.cons.inj (hThere.symm.trans hOther)
  exact code_beside h.twins hParting hAhead hOther h.dots

/-- A target that ends in front of where the texts part is the same in both of them. -/
theorem Abreast.target {c : Char} {rest rest' body : List Char} (h : Abreast v w s t)
    (hHere : s.ahead = c :: rest) (hThere : t.ahead = c :: rest') (hBody : stringBody c rest = some body)
    (hRoom : v.length ≤ (s.pastTarget body).ahead.length) : stringBody c rest' = some body := by
  obtain ⟨u, hAhead, hOther⟩ := h.ahead
  obtain ⟨-, tail, hTail⟩ := inside_of_stringBody hBody
  have hBound : body.length + 2 ≤ s.ahead.length := by simp [hHere, hTail]
  have hEnd : body.length + 2 ≤ u.length :=
    room_of_drop (hAhead ▸ hBound) (hAhead ▸ (show v.length ≤ (s.ahead.drop _).length from hRoom))
  obtain ⟨d, u, rfl⟩ := List.exists_cons_of_length_pos (Nat.lt_of_lt_of_le (by omega) hEnd)
  obtain ⟨rfl, rfl⟩ := List.cons.inj (hHere.symm.trans hAhead)
  obtain ⟨-, rfl⟩ := List.cons.inj (hThere.symm.trans hOther)
  exact (stringBody_settled c).swap hBody (Nat.le_of_succ_le_succ hEnd) w

/-- A step that stops in front of where the texts part is made by both scanners. -/
theorem step_abreast {c : Char} {rest rest' : List Char} {piece : Piece} {next : Scanner}
    (h : Abreast v w s t) (hParting : Parting v w) (hHere : s.ahead = c :: rest)
    (hThere : t.ahead = c :: rest') (hStep : s.step c rest = .ok (piece, next))
    (hRoom : v.length ≤ next.ahead.length) :
    ∃ other, t.step c rest' = .ok (piece, other) ∧ Abreast v w next other := by
  -- It is enough that the other scanner makes the same move and calls what it reads its piece.
  have hMade {a b : Scanner} (hMove : s.Beside t a b) (hLeft : v.length ≤ a.ahead.length)
      (hOther : t.Step c rest' (t.readTo b) b) :
      ∃ other, t.step c rest' = .ok (s.readTo a, other) ∧ Abreast v w a other := by
    obtain ⟨hNext, hSame⟩ := h.move hParting hMove hLeft
    exact ⟨b, step_eq_ok_iff.mpr (hSame ▸ hOther), hNext⟩
  have hLiteral (n : Nat) : s.Beside t (s.pastLiteral n) (t.pastLiteral n) :=
    ⟨n, ⟨rfl, rfl, rfl⟩, ⟨rfl, rfl, rfl⟩, h.twins.pastLiteral n⟩
  have hComment (n : Nat) : s.Beside t (s.pastComment n) (t.pastComment n) :=
    ⟨n, ⟨rfl, rfl, rfl⟩, ⟨rfl, rfl, rfl⟩, h.twins.pastComment n⟩
  have hModes := h.twins.mode
  cases step_eq_ok_iff.mp hStep with
  | code hMode => exact hMade (h.code hParting hMode hHere hThere hRoom) hRoom (.code (hModes.trans hMode))
  | quoted hMode hBody =>
      obtain ⟨-, tail, hTail⟩ := inside_of_stringBody hBody
      have hSame := h.found (stringBody_settled _) hBody (by simp [hTail]) hRoom
      exact hMade (hLiteral _) hRoom (.quoted (hModes.trans hMode) hSame)
  | template hMode hChunk =>
      have hBound := (templateChunk_bounded (congrArg (Option.map Prod.fst) hChunk)).2
      have hSame := h.found templateChunk_settled hChunk hBound hRoom
      exact hMade (hLiteral _) hRoom (.template (hModes.trans hMode) hSame)
  | @substitution n hMode hChunk =>
      have hBound := (templateChunk_bounded (congrArg (Option.map Prod.fst) hChunk)).2
      have hSame := h.found templateChunk_settled hChunk hBound hRoom
      exact hMade ⟨n, ⟨rfl, rfl, rfl⟩, ⟨rfl, rfl, rfl⟩, h.twins.pastChunk n⟩ hRoom
        (.substitution (hModes.trans hMode) hSame)
  | lineComment hMode hLine =>
      subst hLine
      exact hMade (hComment _) hRoom (.lineComment (hModes.trans hMode) (by rw [h.line hParting hRoom]))
  | blockComment hMode hBody =>
      have hSame := h.found blockBody_settled hBody (blockBody_bounded hBody).2 hRoom
      exact hMade (hComment _) hRoom (.blockComment (hModes.trans hMode) hSame)
  | @regex n k hMode hBody hFlags =>
      have hBound := (regexBody_bounded hBody).2
      have hBefore : v.length ≤ (s.ahead.drop n).length := by
        refine Nat.le_trans (show v.length ≤ (s.ahead.drop (n + k)).length from hRoom) ?_
        simp only [List.length_drop]
        omega
      have hSame := h.found (regexBody_settled false) hBody hBound hBefore
      exact hMade (hLiteral _) hRoom (.regex (hModes.trans hMode) hSame
        (by rw [h.flags hParting hBound hBefore, hFlags]))
  | @target body hMode hBody =>
      have hSame := h.target hHere hThere hBody hRoom
      have hMove : s.Beside t (s.pastTarget body) (t.pastTarget body) :=
        ⟨_, ⟨rfl, rfl, rfl⟩, ⟨rfl, rfl, rfl⟩, h.twins.pastTarget body body⟩
      exact ⟨_, step_eq_ok_iff.mpr (.target (hModes.trans hMode) hSame),
        (h.move hParting hMove hRoom).1⟩

theorem Scans.shortens {pieces : List Piece} (h : s.Scans pieces t) (hQuote : s.AtQuote) :
    t.ahead.length ≤ s.ahead.length := by
  induction h with
  | refl => exact Nat.le_refl _
  | step hAhead hStep later ih =>
      obtain ⟨move, hNext, -⟩ := step_passes hAhead hQuote hStep
      refine Nat.le_trans (ih hNext) ?_
      rw [move.ahead, List.length_append]
      exact Nat.le_add_left _ _

/-- A scan that stops in front of where the texts part is a scan of both of them. -/
theorem Scans.abreast {pieces : List Piece} {r : Scanner} (hScan : s.Scans pieces r)
    (hQuote : s.AtQuote) (h : Abreast v w s t) (hParting : Parting v w)
    (hRoom : v.length ≤ r.ahead.length) : ∃ r', t.Scans pieces r' ∧ Abreast v w r r' := by
  induction hScan generalizing t with
  | refl => exact ⟨t, .refl t, h⟩
  | @step s next r c rest piece pieces hAhead hStep later ih =>
      obtain ⟨-, hNext, -⟩ := step_passes hAhead hQuote hStep
      have hNextRoom := Nat.le_trans hRoom (later.shortens hNext)
      have hHead : t.ahead.head? = some c := by
        obtain ⟨u, hHere, hOther⟩ := h.ahead
        rw [hOther, hParting.head_append, ← hHere, hAhead, List.head?_cons]
      obtain ⟨rest', hThere⟩ := List.head?_eq_some_iff.mp hHead
      obtain ⟨other, hOther, hBeside⟩ := step_abreast h hParting hAhead hThere hStep hNextRoom
      obtain ⟨r', hLater, hEnd⟩ := ih hNext hBeside hRoom
      exact ⟨r', .step hThere hOther hLater, hEnd⟩

end TwoTexts

end Scanner

end ModuleGateway.Relink
