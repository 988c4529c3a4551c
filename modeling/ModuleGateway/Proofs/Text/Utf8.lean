import ModuleGateway.Text.Split
import Mathlib.Data.List.Basic

/-!
Texts and their bytes in UTF-8. A character of ASCII is one byte; of any other character no byte is one of
ASCII. So what a reader does at bytes of ASCII tells what it does with the characters, provided that it
passes over all other bytes.
-/

namespace ModuleGateway.Text

/-! ### Lengths -/

theorem utf8Length_append (first second : List Char) :
    utf8Length (first ++ second) = utf8Length first + utf8Length second := by
  have hFrom (text : List Char) (n : Nat) :
      text.foldl (fun length c => length + c.utf8Size) n = n + utf8Length text := by
    induction text generalizing n with
    | nil => rfl
    | cons c text ih =>
        rw [utf8Length, List.foldl_cons, List.foldl_cons, ih, ih (0 + c.utf8Size)]
        omega
  rw [utf8Length, List.foldl_append, hFrom]
  rfl

theorem utf8Length_cons (c : Char) (text : List Char) :
    utf8Length (c :: text) = c.utf8Size + utf8Length text := by
  rw [← List.singleton_append, utf8Length_append]
  simp [utf8Length]

theorem utf8Length_pos {text : List Char} (hSome : text ≠ []) : 0 < utf8Length text := by
  obtain ⟨c, text, rfl⟩ := List.exists_cons_of_ne_nil hSome
  rw [utf8Length_cons]
  exact Nat.add_pos_left c.utf8Size_pos _

/-- Every character is a byte at least. -/
theorem length_le_utf8Length (text : List Char) : text.length ≤ utf8Length text := by
  induction text with
  | nil => exact Nat.zero_le _
  | cons c text ih =>
      have hPos := c.utf8Size_pos
      rw [utf8Length_cons, List.length_cons]
      omega

/-! ### Bytes -/

/-- The bytes of a text in UTF-8. -/
def bytes (text : List Char) : List UInt8 :=
  text.flatMap String.utf8EncodeChar

theorem bytes_append (first second : List Char) : bytes (first ++ second) = bytes first ++ bytes second :=
  List.flatMap_append

theorem length_bytes (text : List Char) : (bytes text).length = utf8Length text := by
  induction text with
  | nil => rfl
  | cons c text ih =>
      rw [utf8Length_cons, ← ih, ← String.length_utf8EncodeChar, ← List.length_append]
      rfl

/-- The bytes are those that the text's string has. -/
theorem bytes_toByteArray (text : List Char) : (String.ofList text).toByteArray = (bytes text).toByteArray :=
  rfl

/-- The first byte of a character. -/
def lead (c : Char) : UInt8 :=
  (String.utf8EncodeChar c).head String.utf8EncodeChar_ne_nil

/-- The byte of a character of ASCII. -/
def ascii (c : Char) : UInt8 :=
  UInt8.ofNat c.toNat

variable {α : Type} {source front back rest text : List Char} {c d : Char} {b : UInt8} {f : Nat → α}

theorem utf8Size_of_ascii (h : c.toNat < 0x80) : c.utf8Size = 1 :=
  Char.utf8Size_eq_one_iff.mpr (UInt32.le_iff_toNat_le.mpr (Nat.le_of_lt_succ h))

theorem encode_of_ascii (h : c.toNat < 0x80) : String.utf8EncodeChar c = [ascii c] := by
  have hFew : c.val.toNat ≤ 127 := Nat.le_of_lt_succ h
  rw [String.utf8EncodeChar, if_pos hFew]
  rfl

theorem lead_of_ascii (h : c.toNat < 0x80) : lead c = ascii c := by
  simp only [lead, encode_of_ascii h, List.head_cons]

/-- No byte of a character beyond ASCII is one of ASCII. -/
theorem not_ascii_of_mem (h : 0x80 ≤ c.toNat) (hByte : b ∈ String.utf8EncodeChar c) : 0x80 ≤ b := by
  have hHigh {n k : Nat} (hLow : 0x80 ≤ k) (hSmall : n + k < 0x100) : 0x80 ≤ UInt8.ofNat (n + k) := by
    rw [UInt8.le_iff_toNat_le, UInt8.toNat_ofNat_of_lt' hSmall]
    exact Nat.le_add_left_of_le hLow
  have hMany : ¬c.val.toNat ≤ 127 := Nat.not_le.mpr h
  rw [String.utf8EncodeChar, if_neg hMany] at hByte
  split at hByte
  · simp only [List.mem_cons, List.not_mem_nil, or_false] at hByte
    rcases hByte with rfl | rfl <;> exact hHigh (by decide) (by omega)
  split at hByte
  · simp only [List.mem_cons, List.not_mem_nil, or_false] at hByte
    rcases hByte with rfl | rfl | rfl <;> exact hHigh (by decide) (by omega)
  · simp only [List.mem_cons, List.not_mem_nil, or_false] at hByte
    rcases hByte with rfl | rfl | rfl | rfl <;> exact hHigh (by decide) (by omega)

theorem lead_not_ascii (h : 0x80 ≤ c.toNat) : 0x80 ≤ lead c :=
  not_ascii_of_mem h (List.head_mem _)

/-- The bytes behind a character's first one are not of ASCII. -/
theorem not_ascii_of_tail {k : Nat} (hBehind : 0 < k) (hByte : (String.utf8EncodeChar c)[k]? = some b) :
    0x80 ≤ b := by
  by_cases hAscii : c.toNat < 0x80
  · obtain ⟨hShort, -⟩ := List.getElem?_eq_some_iff.mp hByte
    rw [String.length_utf8EncodeChar, utf8Size_of_ascii hAscii] at hShort
    omega
  · exact not_ascii_of_mem (Nat.not_lt.mp hAscii) (List.mem_of_getElem? hByte)

/-- A byte of a character that stands in a text. -/
theorem getElem?_bytes (hText : source = front ++ c :: rest) {k : Nat} (hInside : k < c.utf8Size) :
    (bytes source)[utf8Length front + k]? = (String.utf8EncodeChar c)[k]? := by
  have hRest : bytes (c :: rest) = String.utf8EncodeChar c ++ bytes rest := List.flatMap_cons
  rw [hText, bytes_append, hRest, ← length_bytes, List.getElem?_append_right (Nat.le_add_right _ _),
    Nat.add_sub_cancel_left, List.getElem?_append_left (by rwa [String.length_utf8EncodeChar])]

theorem getElem?_lead (hText : source = front ++ c :: rest) :
    (bytes source)[utf8Length front]? = some (lead c) := by
  have hFirst := getElem?_bytes hText c.utf8Size_pos
  rw [Nat.add_zero] at hFirst
  rw [hFirst, lead, ← List.head?_eq_getElem?, List.head?_eq_some_head]

theorem getElem?_end (hText : source = front) : (bytes source)[utf8Length front]? = none := by
  rw [hText, ← length_bytes]
  exact List.getElem?_eq_none (Nat.le_refl _)

/-! ### Tests of bytes -/

theorem toNat_ascii (hAscii : c.toNat < 0x80) : (ascii c).toNat = c.toNat :=
  UInt8.toNat_ofNat_of_lt' (Nat.lt_trans hAscii (by decide))

theorem lead_eq_iff (hAscii : d.toNat < 0x80) : lead c = ascii d ↔ c = d := by
  refine ⟨fun h => ?_, fun h => h ▸ lead_of_ascii (h ▸ hAscii)⟩
  by_cases hSmall : c.toNat < 0x80
  · have hSame := congrArg UInt8.toNat ((lead_of_ascii hSmall).symm.trans h)
    rw [toNat_ascii hSmall, toNat_ascii hAscii] at hSame
    exact Char.toNat_inj.mp hSame
  · have hLarge := UInt8.le_iff_toNat_le.mp (lead_not_ascii (Nat.not_lt.mp hSmall))
    rw [h, toNat_ascii hAscii] at hLarge
    exact absurd hAscii (Nat.not_lt.mpr hLarge)

/-- A test of bytes that takes all that are not of ASCII alike tells of a first byte what another test tells
of its character. -/
theorem test_lead {p : UInt8 → Bool} {q : Char → Bool} (beyond : Bool)
    (hAscii : ∀ n < 0x80, p (UInt8.ofNat n) = q (Char.ofNat n))
    (hByte : ∀ n < 0x100, 0x80 ≤ n → p (UInt8.ofNat n) = beyond)
    (hChar : ∀ c : Char, 0x80 ≤ c.toNat → q c = beyond) (c : Char) : p (lead c) = q c := by
  by_cases hSmall : c.toNat < 0x80
  · rw [lead_of_ascii hSmall, ascii, hAscii _ hSmall, Char.ofNat_toNat]
  · have hLarge := Nat.not_lt.mp hSmall
    have hLead := hByte _ (lead c).toNat_lt (UInt8.le_iff_toNat_le.mp (lead_not_ascii hLarge))
    rw [UInt8.ofNat_toNat] at hLead
    rw [hLead, hChar c hLarge]

/-! ### Readers that pass over all other bytes -/

/-- The reader goes on behind each byte that is not of ASCII as if it were not there. -/
def PassesOver (source : List Char) (f : Nat → α) : Prop :=
  ∀ i b, (bytes source)[i]? = some b → 0x80 ≤ b → f i = f (i + 1)

/-- Between the first byte of a character and the next character nothing happens. -/
theorem PassesOver.tail (h : PassesOver source f) (hText : source = front ++ c :: rest) :
    f (utf8Length front + 1) = f (utf8Length (front ++ [c])) := by
  have hFrom (k : Nat) (hInside : k < c.utf8Size) :
      f (utf8Length front + 1) = f (utf8Length front + (k + 1)) := by
    induction k with
    | zero => rfl
    | succ k ih =>
        have hByte := getElem?_bytes hText hInside
        obtain ⟨b, hHere⟩ : ∃ b, (String.utf8EncodeChar c)[k + 1]? = some b :=
          ⟨_, List.getElem?_eq_getElem (by rwa [String.length_utf8EncodeChar])⟩
        rw [ih (Nat.lt_of_succ_lt hInside)]
        exact h _ b (hByte.trans hHere) (not_ascii_of_tail (Nat.succ_pos k) hHere)
  have hLast := hFrom (c.utf8Size - 1) (Nat.sub_lt c.utf8Size_pos Nat.one_pos)
  rw [hLast, Nat.sub_add_cancel c.utf8Size_pos, utf8Length_append, utf8Length_cons]
  rfl

/-! ### Cutting at a byte -/

/-- The text in front of a byte and the text from it on. There is nothing when a character has bytes on both
sides, or when there are too few bytes. -/
def cutAtByte? : Nat → List Char → Option (List Char × List Char)
  | 0, text => some ([], text)
  | _ + 1, [] => none
  | n + 1, c :: rest =>
    if c.utf8Size ≤ n + 1 then
      (cutAtByte? (n + 1 - c.utf8Size) rest).map fun (front, back) => (c :: front, back)
    else none

theorem cutAtByte?_append (front back : List Char) :
    cutAtByte? (utf8Length front) (front ++ back) = some (front, back) := by
  induction front with
  | nil =>
      show cutAtByte? 0 back = some ([], back)
      rw [cutAtByte?]
  | cons c front ih =>
      have hPos := c.utf8Size_pos
      obtain ⟨n, hn⟩ : ∃ n, c.utf8Size + utf8Length front = n + 1 :=
        ⟨c.utf8Size + utf8Length front - 1, by omega⟩
      have hLeft : n + 1 - c.utf8Size = utf8Length front := by omega
      rw [utf8Length_cons, hn, List.cons_append, cutAtByte?, if_pos (by omega), hLeft, ih]
      rfl

theorem cutAtByte?_eq_some_iff {n : Nat} :
    cutAtByte? n text = some (front, back) ↔ text = front ++ back ∧ utf8Length front = n := by
  refine ⟨fun h => ?_, fun ⟨hText, hLength⟩ => ?_⟩
  · fun_induction cutAtByte? n text generalizing front with
    | case1 =>
        cases h
        exact ⟨rfl, rfl⟩
    | case2 => cases h
    | case3 n c rest hFits ih =>
        obtain ⟨⟨inner, tail⟩, hInner, hPair⟩ := Option.map_eq_some_iff.mp h
        cases hPair
        obtain ⟨rfl, hLength⟩ := ih hInner
        refine ⟨rfl, ?_⟩
        rw [utf8Length_cons, hLength]
        omega
    | case4 => cases h
  · rw [hText, ← hLength]
    exact cutAtByte?_append front back

/-- A byte with which a character begins, or the end of the text. -/
def IsBoundary (text : List Char) (n : Nat) : Prop :=
  ∃ front back, text = front ++ back ∧ utf8Length front = n

end ModuleGateway.Text
