import ModuleGateway.Package.Manifest
import ModuleGateway.Proofs.Text.Split
import Mathlib.Data.List.MinMax
import Mathlib.Data.List.Pairwise
import Mathlib.Data.Prod.Lex
import Mathlib.Data.String.Basic

/-!
Which pattern of an `exports` object a key is resolved by. The patterns are tried in the order of the
object's keys, so of two patterns that a key matches the one with the shorter text before its star comes
first, unless the key goes on behind that text with a character below the star. An exact key is found
before any pattern.
-/

namespace ModuleGateway

namespace Json

/-! ### Objects -/

/-- Fields in ascending order of their keys, with one value for each key. -/
def Ordered (fields : List (String × Value)) : Prop :=
  fields.Pairwise fun a b => a.1 < b.1

variable {key : String} {value : Value} {fields : List (String × Value)}

theorem mem_insertField {field : String × Value} (h : field ∈ insertField key value fields) :
    field = (key, value) ∨ field ∈ fields := by
  induction fields with
  | nil => exact .inl (List.mem_singleton.mp h)
  | cons first rest ih =>
      rw [insertField] at h
      split at h
      · exact List.mem_cons.mp h
      · split at h
        · exact (List.mem_cons.mp h).imp_right (List.mem_cons_of_mem _)
        · rcases List.mem_cons.mp h with rfl | hRest
          · exact .inr List.mem_cons_self
          · exact (ih hRest).imp_right (List.mem_cons_of_mem _)

theorem Ordered.insertField (h : Ordered fields) : Ordered (insertField key value fields) := by
  induction fields with
  | nil => exact List.pairwise_singleton _ _
  | cons first rest ih =>
      obtain ⟨hFirst, hRest⟩ := List.pairwise_cons.mp h
      rw [Json.insertField]
      split
      · rename_i hBelow
        refine List.pairwise_cons.mpr ⟨fun field hField => ?_, h⟩
        rcases List.mem_cons.mp hField with rfl | hLater
        · exact hBelow
        · exact lt_trans hBelow (hFirst field hLater)
      · rename_i hNotBelow
        split
        · rename_i hSame
          exact List.pairwise_cons.mpr ⟨fun field hField => hSame ▸ hFirst field hField, hRest⟩
        · rename_i hOther
          refine List.pairwise_cons.mpr ⟨fun field hField => ?_, ih hRest⟩
          rcases mem_insertField hField with rfl | hLater
          · exact lt_of_le_of_ne (not_lt.mp hNotBelow) (Ne.symm hOther)
          · exact hFirst field hLater

/-- However the fields of an object are written, they are read in ascending order. -/
theorem ordered_ofFields {written : List (String × Value)}
    (h : Value.ofFields written = .object fields) : Ordered fields := by
  obtain rfl := Value.object.inj h
  suffices hFold : ∀ (written done : List (String × Value)), Ordered done →
      Ordered (written.foldl (fun done field => Json.insertField field.1 field.2 done) done) from
    hFold written [] List.Pairwise.nil
  intro written
  induction written with
  | nil => exact fun _ hDone => hDone
  | cons first rest ih => exact fun done hDone => ih _ hDone.insertField

end Json

namespace Package

open Json (Value)

/-! ### Patterns -/

/-- The text of a pattern before its star. -/
def lead (pattern : String) : List Char :=
  pattern.toList.takeWhile (· ≠ '*')

/-- The text of a pattern behind its star. -/
def trail (pattern : String) : List Char :=
  (pattern.toList.dropWhile (· ≠ '*')).tail

/-- How specific a pattern is: by the length of the text before its star, then by its own length. -/
def rank (pattern : String) : ℕ ×ₗ ℕ :=
  toLex ((lead pattern).length, pattern.length)

variable {pattern key a b : String} {text : List Char}

theorem star_not_mem_lead (pattern : String) : '*' ∉ lead pattern := by
  intro hStar
  simpa using List.mem_takeWhile_imp hStar

theorem lead_trail {before after : List Char} (hText : pattern.toList = before ++ '*' :: after)
    (hFree : '*' ∉ before) : lead pattern = before ∧ trail pattern = after := by
  have hAll : ∀ c ∈ before, decide (c ≠ '*') = true := by
    intro c hMem
    rw [decide_eq_true_eq]
    rintro rfl
    exact hFree hMem
  rw [lead, trail, hText, List.takeWhile_append_of_pos hAll, List.dropWhile_append_of_pos hAll]
  simp

/-- A key matches a pattern when it has the same beginning and the same end, and what stands between
them is the star's text. -/
theorem starText?_eq_some_iff :
    starText? pattern key = some text ↔
      pattern.toList = lead pattern ++ '*' :: trail pattern ∧
        key.toList = lead pattern ++ (text ++ trail pattern) := by
  unfold starText?
  constructor
  · intro h
    obtain ⟨⟨before, after⟩, hCut, hRest⟩ := Option.bind_eq_some_iff.mp h
    obtain ⟨rest, hAfter, hBefore⟩ := Option.bind_eq_some_iff.mp hRest
    obtain ⟨hText, hFree⟩ := Text.cut?_eq_some_iff.mp hCut
    obtain ⟨hLead, hTrail⟩ := lead_trail hText hFree
    rw [hLead, hTrail]
    refine ⟨hText, ?_⟩
    rw [← List.isPrefixOf?_eq_some_iff_append_eq.mp hAfter,
      ← List.isSuffixOf?_eq_some_iff_append_eq.mp hBefore]
  · rintro ⟨hText, hKey⟩
    have hCut : Text.cut? '*' pattern.toList = some (lead pattern, trail pattern) :=
      Text.cut?_eq_some_iff.mpr ⟨hText, star_not_mem_lead pattern⟩
    have hAfter : Text.after? (lead pattern) key.toList = some (text ++ trail pattern) := by
      rw [hKey]
      exact Text.after?_append _ _
    have hBefore : Text.before? (trail pattern) (text ++ trail pattern) = some text :=
      List.isSuffixOf?_eq_some_iff_append_eq.mpr rfl
    rw [hCut]
    simp [hAfter, hBefore]

/-- A star stands for the same text wherever the target has one. -/
theorem fillStars_eq (target : String) (text : List Char) :
    fillStars target text =
      String.ofList (target.toList.flatMap fun c => if c = '*' then text else [c]) := by
  have hGo (chars : List Char) : Text.replaceAll.go ['*'] text 0 chars =
      chars.flatMap fun c => if c = '*' then text else [c] := by
    induction chars with
    | nil => rfl
    | cons c rest ih =>
        by_cases hStar : c = '*'
        · simp [Text.replaceAll.go, hStar, ih]
        · simp [Text.replaceAll.go, hStar, ih, Ne.symm hStar]
  rw [fillStars, Text.replaceAll, if_neg (by simp), hGo]

/-! ### The order of patterns -/

/-- The character of a key that stands where the star of a pattern does. -/
def atStar? (key pattern : String) : Option Char :=
  key.toList[(lead pattern).length]?

/-- When the first of two patterns that a key matches is tried before the second. -/
inductive StandsFirst (key a b : String) : Prop where
  | shorter {c : Char} (hLead : (lead a).length < (lead b).length)
      (hKey : atStar? key a = some c) (hStar : '*' < c)
  | longer {c : Char} (hLead : (lead b).length < (lead a).length)
      (hKey : atStar? key b = some c) (hStar : c < '*')
  | even (hLead : (lead a).length = (lead b).length) (hTrail : trail a < trail b)

theorem append_lt_append_iff (front left right : List Char) :
    front ++ left < front ++ right ↔ left < right := by
  induction front with
  | nil => rfl
  | cons c rest ih => simp [ih]

/-- Of two texts that a key starts with, the longer one goes on behind the shorter one as the key
does, and holds no star there when it stands before a star. -/
theorem lead_append {textA textB : List Char} (hA : starText? a key = some textA)
    (hB : starText? b key = some textB) (hLead : (lead a).length < (lead b).length) :
    ∃ c more, lead b = lead a ++ c :: more ∧ atStar? key a = some c ∧ c ≠ '*' := by
  obtain ⟨-, hKeyA⟩ := starText?_eq_some_iff.mp hA
  obtain ⟨-, hKeyB⟩ := starText?_eq_some_iff.mp hB
  have hStartA : lead a <+: key.toList := by
    rw [hKeyA]
    exact List.prefix_append _ _
  have hStartB : lead b <+: key.toList := by
    rw [hKeyB]
    exact List.prefix_append _ _
  obtain ⟨behind, hBehind⟩ := List.prefix_of_prefix_length_le hStartA hStartB hLead.le
  cases behind with
  | nil => simp [← hBehind] at hLead
  | cons c more =>
      refine ⟨c, more, hBehind.symm, ?_, ?_⟩
      · simp [atStar?, hKeyB, ← hBehind]
      · rintro rfl
        apply star_not_mem_lead b
        rw [← hBehind]
        simp

/-- The keys of an object stand in the order of their characters. -/
theorem lt_iff_standsFirst {textA textB : List Char} (hA : starText? a key = some textA)
    (hB : starText? b key = some textB) : a < b ↔ StandsFirst key a b := by
  obtain ⟨hTextA, hKeyA⟩ := starText?_eq_some_iff.mp hA
  obtain ⟨hTextB, hKeyB⟩ := starText?_eq_some_iff.mp hB
  rw [String.lt_iff_toList_lt, hTextA, hTextB]
  rcases lt_trichotomy (lead a).length (lead b).length with hShorter | hEven | hLonger
  · obtain ⟨c, more, hMore, hChar, hNoStar⟩ := lead_append hA hB hShorter
    rw [hMore, List.append_assoc, append_lt_append_iff, List.cons_append, List.cons_lt_cons_iff]
    constructor
    · rintro (hStar | ⟨rfl, -⟩)
      · exact .shorter hShorter hChar hStar
      · exact absurd rfl hNoStar
    · rintro (⟨-, hOther, hStar⟩ | ⟨hLead, -, -⟩ | ⟨hLead, -⟩)
      · rw [hChar] at hOther
        cases hOther
        exact .inl hStar
      · omega
      · omega
  · have hSame : lead a = lead b := by
      rw [hKeyA] at hKeyB
      exact (List.append_inj hKeyB hEven).1
    rw [hSame, append_lt_append_iff, List.cons_lt_cons_iff]
    constructor
    · rintro (hStar | ⟨-, hTrail⟩)
      · exact absurd hStar (lt_irrefl _)
      · exact .even hEven hTrail
    · rintro (⟨hLead, -, -⟩ | ⟨hLead, -, -⟩ | ⟨-, hTrail⟩)
      · omega
      · omega
      · exact .inr ⟨rfl, hTrail⟩
  · obtain ⟨c, more, hMore, hChar, hNoStar⟩ := lead_append hB hA hLonger
    rw [hMore, List.append_assoc, append_lt_append_iff, List.cons_append, List.cons_lt_cons_iff]
    constructor
    · rintro (hStar | ⟨rfl, -⟩)
      · exact .longer hLonger hChar hStar
      · exact absurd rfl hNoStar
    · rintro (⟨hLead, -, -⟩ | ⟨-, hOther, hStar⟩ | ⟨hLead, -⟩)
      · omega
      · rw [hChar] at hOther
        cases hOther
        exact .inl hStar
      · omega

/-! ### The pattern that is applied -/

/-- A pattern that is applied to a key. -/
structure Applied where
  pattern : String
  /-- What its star stands for. -/
  text : List Char
  target : String
  deriving DecidableEq

/-- The target with the star's text in place of every star. -/
def Applied.filled (m : Applied) : String :=
  String.ofList (m.target.toList.flatMap fun c => if c = '*' then m.text else [c])

/-- A field as a pattern for a key, when the key matches it and its value has a target. -/
def appliedAt? (key : String) (field : String × Value) : Option Applied := do
  let text ← starText? field.1 key
  let target ← target? field.2
  some ⟨field.1, text, target⟩

/-- The pattern that a key is resolved by. -/
def applied? (key : String) (fields : List (String × Value)) : Option Applied :=
  fields.findSome? (appliedAt? key)

/-- The key matches the pattern, and a condition of the pattern's value has a target. -/
structure Applies (key : String) (fields : List (String × Value)) (m : Applied) : Prop where
  star : starText? m.pattern key = some m.text
  target : ∃ value, (m.pattern, value) ∈ fields ∧ target? value = some m.target

variable {fields : List (String × Value)} {m best other : Applied}

theorem appliedAt?_eq_some_iff {field : String × Value} :
    appliedAt? key field = some m ↔
      m.pattern = field.1 ∧ starText? m.pattern key = some m.text ∧
        target? field.2 = some m.target := by
  obtain ⟨pattern, text, target⟩ := m
  simp only [appliedAt?, Option.bind_eq_bind, Option.bind_eq_some_iff, Option.some.injEq,
    Applied.mk.injEq]
  constructor
  · rintro ⟨text, hText, target, hTarget, rfl, rfl, rfl⟩
    exact ⟨rfl, hText, hTarget⟩
  · rintro ⟨rfl, hText, hTarget⟩
    exact ⟨text, hText, target, hTarget, rfl, rfl, rfl⟩

theorem applies_iff : Applies key fields m ↔ ∃ field ∈ fields, appliedAt? key field = some m := by
  constructor
  · rintro ⟨hStar, value, hMem, hTarget⟩
    exact ⟨(m.pattern, value), hMem, appliedAt?_eq_some_iff.mpr ⟨rfl, hStar, hTarget⟩⟩
  · rintro ⟨⟨pattern, value⟩, hMem, hApply⟩
    obtain ⟨hPattern, hStar, hTarget⟩ := appliedAt?_eq_some_iff.mp hApply
    exact ⟨hStar, value, hPattern ▸ hMem, hTarget⟩

theorem patternTarget?_eq (key : String) (fields : List (String × Value)) :
    patternTarget? key fields = (applied? key fields).map Applied.filled := by
  induction fields with
  | nil => rfl
  | cons field rest ih =>
      rw [patternTarget?, applied?] at ih ⊢
      rw [List.findSome?_cons, List.findSome?_cons, ih]
      cases hText : starText? field.1 key with
      | none => simp [appliedAt?, hText]
      | some text =>
          cases hTarget : target? field.2 with
          | none => simp [appliedAt?, hText, hTarget]
          | some target => simp [appliedAt?, hText, hTarget, fillStars_eq, Applied.filled]

theorem applied?_eq_none_iff : applied? key fields = none ↔ ∀ m, ¬ Applies key fields m := by
  simp only [applied?, List.findSome?_eq_none_iff, applies_iff, not_exists, not_and]
  constructor
  · intro h m field hMem hApply
    rw [h field hMem] at hApply
    cases hApply
  · intro h field hMem
    exact Option.eq_none_iff_forall_ne_some.mpr fun m => h m field hMem

/-- The first pattern in the order of the keys is applied. -/
theorem applied?_spec (hOrder : Json.Ordered fields) (h : applied? key fields = some best) :
    Applies key fields best ∧
      ∀ other, Applies key fields other → other ≠ best → best.pattern < other.pattern := by
  obtain ⟨front, field, behind, rfl, hApply, hFront⟩ := List.findSome?_eq_some_iff.mp h
  refine ⟨applies_iff.mpr ⟨field, by simp, hApply⟩, fun other hOther hNe => ?_⟩
  obtain ⟨later, hMem, hLater⟩ := applies_iff.mp hOther
  have hPattern := (appliedAt?_eq_some_iff.mp hApply).1
  have hLaterPattern := (appliedAt?_eq_some_iff.mp hLater).1
  rcases List.mem_append.mp hMem with hBefore | hHere
  · rw [hFront later hBefore] at hLater
    cases hLater
  · rcases List.mem_cons.mp hHere with rfl | hBehind
    · rw [hApply] at hLater
      exact absurd (Option.some.inj hLater).symm hNe
    · rw [hPattern, hLaterPattern]
      exact List.rel_of_pairwise_cons (List.pairwise_append.mp hOrder).2.1 hBehind

theorem applied?_eq_some_iff (hOrder : Json.Ordered fields) (hBest : Applies key fields best) :
    applied? key fields = some best ↔
      ∀ other, Applies key fields other → other ≠ best →
        StandsFirst key best.pattern other.pattern := by
  constructor
  · intro h other hOther hNe
    exact (lt_iff_standsFirst hBest.star hOther.star).mp ((applied?_spec hOrder h).2 other hOther hNe)
  · intro h
    cases hFirst : applied? key fields with
    | none => exact absurd hBest (applied?_eq_none_iff.mp hFirst best)
    | some first =>
        obtain ⟨hApplies, hBefore⟩ := applied?_spec hOrder hFirst
        by_contra hNe
        have hOther : first ≠ best := fun hSame => hNe (congrArg some hSame)
        have hBehind := (lt_iff_standsFirst hBest.star hApplies.star).mpr (h first hApplies hOther)
        exact lt_asymm hBehind (hBefore best hBest hOther.symm)

/-! ### The most specific pattern -/

/-- The pattern has one star. -/
def Applied.IsSingle (m : Applied) : Prop :=
  m.pattern.toList.count '*' = 1

/-- Of the patterns with one star that apply to a key, the one with the longest text before the star,
and of those the longest one. -/
structure IsMostSpecific (key : String) (fields : List (String × Value)) (best : Applied) : Prop where
  applies : Applies key fields best
  single : best.IsSingle
  above : ∀ other, Applies key fields other → other.IsSingle → other ≠ best →
    rank other.pattern < rank best.pattern

/-- Patterns for one key are the same when they are equally specific. -/
theorem pattern_eq_of_rank {textA textB : List Char} (hA : starText? a key = some textA)
    (hB : starText? b key = some textB) (hRank : rank a = rank b) : a = b := by
  obtain ⟨hTextA, hKeyA⟩ := starText?_eq_some_iff.mp hA
  obtain ⟨hTextB, hKeyB⟩ := starText?_eq_some_iff.mp hB
  obtain ⟨hLead, hLength⟩ := Prod.mk.inj (toLex_inj.mp hRank)
  rw [hKeyA] at hKeyB
  obtain ⟨hSame, hRest⟩ := List.append_inj hKeyB hLead
  have hTrailLength : (trail a).length = (trail b).length := by
    have hA := congrArg List.length hTextA
    have hB := congrArg List.length hTextB
    rw [String.length_toList, List.length_append, List.length_cons] at hA hB
    omega
  have hTrail : trail a = trail b := (List.append_inj' hRest hTrailLength).2
  rw [← String.toList_inj, hTextA, hTextB, hSame, hTrail]

/-- A key has one value, so a pattern is applied in one way. -/
theorem Applies.eq_of_pattern (hOrder : Json.Ordered fields) (hFirst : Applies key fields m)
    (hSecond : Applies key fields other) (hPattern : m.pattern = other.pattern) : m = other := by
  obtain ⟨first, hMem, hApply⟩ := applies_iff.mp hFirst
  obtain ⟨second, hMemOther, hApplyOther⟩ := applies_iff.mp hSecond
  have hApart : fields.Pairwise fun a b => a.1 ≠ b.1 := hOrder.imp ne_of_lt
  have : Std.Symm fun a b : String × Value => a.1 ≠ b.1 := ⟨fun _ _ h => h.symm⟩
  have hField : first = second := by
    by_contra hNe
    apply hApart.forall hMem hMemOther hNe
    rw [← (appliedAt?_eq_some_iff.mp hApply).1, ← (appliedAt?_eq_some_iff.mp hApplyOther).1, hPattern]
  rw [hField, hApplyOther] at hApply
  exact (Option.some.inj hApply).symm

/-- As soon as a pattern with one star applies to a key, one of them is the most specific. -/
theorem existsUnique_isMostSpecific (hOrder : Json.Ordered fields)
    (hSome : ∃ m, Applies key fields m ∧ m.IsSingle) : ∃! best, IsMostSpecific key fields best := by
  let single := (fields.filterMap (appliedAt? key)).filter fun m => m.pattern.toList.count '*' = 1
  have hMem (m : Applied) : m ∈ single ↔ Applies key fields m ∧ m.IsSingle := by
    simp [single, applies_iff, Applied.IsSingle]
  obtain ⟨m, hApplies⟩ := hSome
  cases hBest : single.argmax fun m => rank m.pattern with
  | none =>
      have hNever := (hMem m).mpr hApplies
      rw [List.argmax_eq_none.mp hBest] at hNever
      cases hNever
  | some best =>
      obtain ⟨hHere, hSingle⟩ := (hMem best).mp (List.argmax_mem hBest)
      refine ⟨best, ⟨hHere, hSingle, fun other hOther hOne hNe => ?_⟩, fun rival hRival => ?_⟩
      · have hLe : rank other.pattern ≤ rank best.pattern :=
          List.le_of_mem_argmax (f := fun m : Applied => rank m.pattern)
            ((hMem other).mpr ⟨hOther, hOne⟩) hBest
        apply lt_of_le_of_ne hLe
        intro hRank
        exact hNe (hOther.eq_of_pattern hOrder hHere (pattern_eq_of_rank hOther.star hHere.star hRank))
      · by_contra hNe
        have hLe : rank rival.pattern ≤ rank best.pattern :=
          List.le_of_mem_argmax (f := fun m : Applied => rank m.pattern)
            ((hMem rival).mpr ⟨hRival.applies, hRival.single⟩) hBest
        exact absurd (hRival.above best hHere hSingle (Ne.symm hNe)) (not_lt.mpr hLe)

/-! ### Keys of a map of subpaths -/

/-- What a map of subpaths has for a key, in whatever order its fields are written. The value of an exact
key counts alone. Without one, the key is resolved by a pattern as soon as one applies; and of the
patterns with one star the most specific is the one, exactly when it stands first among all that apply. -/
theorem most_specific_applied_iff {written : List (String × Value)} {key : String}
    (hRead : Json.Value.ofFields written = .object fields) (hMap : areSubpaths fields = true) :
    (∀ value, fields.lookup key = some value → exported? key (.object fields) = target? value) ∧
    (fields.lookup key = none →
      exported? key (.object fields) = (applied? key fields).map Applied.filled ∧
      (applied? key fields = none ↔ ∀ m, ¬ Applies key fields m) ∧
      ((∃ m, Applies key fields m ∧ m.IsSingle) → ∃! best, IsMostSpecific key fields best) ∧
      ∀ best, IsMostSpecific key fields best →
        (applied? key fields = some best ↔
          ∀ other, Applies key fields other → other ≠ best →
            StandsFirst key best.pattern other.pattern)) := by
  have hOrder := Json.ordered_ofFields hRead
  constructor
  · intro value hValue
    rw [exported?, if_pos hMap, hValue]
  · intro hMissing
    refine ⟨?_, applied?_eq_none_iff, existsUnique_isMostSpecific hOrder, fun best hBest => ?_⟩
    · rw [exported?, if_pos hMap, hMissing]
      exact patternTarget?_eq key fields
    · exact applied?_eq_some_iff hOrder hBest.applies

/-- A map with a narrow pattern and a catch-all of some value, which stands first. -/
def utilsExports (rest : Value) : List (String × Value) :=
  [("./*", rest), ("./utils/*", .text "./u/*.js")]

/-- The narrow pattern, applied to a key. -/
def utilsApplied : Applied where
  pattern := "./utils/*"
  text := "format".toList
  target := "./u/*.js"

theorem appliedAt?_utils :
    appliedAt? "./utils/format" ("./utils/*", .text "./u/*.js") = some utilsApplied := by
  decide +kernel

theorem utilsApplied_isMostSpecific (rest : Value) :
    IsMostSpecific "./utils/format" (utilsExports rest) utilsApplied where
  applies := applies_iff.mpr ⟨("./utils/*", .text "./u/*.js"), by simp [utilsExports], appliedAt?_utils⟩
  single := by
    unfold Applied.IsSingle
    decide +kernel
  above := by
    intro other hOther _ hNe
    obtain ⟨field, hField, hApply⟩ := applies_iff.mp hOther
    rcases List.mem_cons.mp hField with rfl | hField
    · have hRank : rank "./*" < rank utilsApplied.pattern := by decide +kernel
      rw [(appliedAt?_eq_some_iff.mp hApply).1]
      exact hRank
    · rw [List.mem_singleton.mp hField, appliedAt?_utils] at hApply
      exact absurd (Option.some.inj hApply).symm hNe

/-- A catch-all without a target leaves the key to the narrow pattern. -/
theorem most_specific_applied_closed :
    Json.Value.ofFields (utilsExports .null).reverse = .object (utilsExports .null) ∧
      areSubpaths (utilsExports .null) = true ∧
      (utilsExports .null).lookup "./utils/format" = none ∧
      IsMostSpecific "./utils/format" (utilsExports .null) utilsApplied ∧
      exported? "./utils/format" (.object (utilsExports .null)) = some "./u/format.js" := by
  have hFirst : "./*" < "./utils/*" := by decide +kernel
  have hRead : Json.Value.ofFields (utilsExports .null).reverse = .object (utilsExports .null) := by
    simp only [Json.Value.ofFields, utilsExports, List.reverse_cons, List.reverse_nil, List.nil_append,
      List.cons_append, List.foldl_cons, List.foldl_nil, Json.insertField, if_pos hFirst]
  have hMap : areSubpaths (utilsExports .null) = true := by decide +kernel
  have hMissing : (utilsExports .null).lookup "./utils/format" = none :=
    Option.isNone_iff_eq_none.mp (by decide +kernel)
  have hBest := utilsApplied_isMostSpecific .null
  obtain ⟨hTarget, -, -, hApplied⟩ := (most_specific_applied_iff hRead hMap).2 hMissing
  refine ⟨hRead, hMap, hMissing, hBest, ?_⟩
  rw [hTarget, (hApplied utilsApplied hBest).mpr]
  · decide +kernel
  · intro other hOther hNe
    obtain ⟨field, hField, hApply⟩ := applies_iff.mp hOther
    rcases List.mem_cons.mp hField with rfl | hField
    · cases (appliedAt?_eq_some_iff.mp hApply).2.2
    · rw [List.mem_singleton.mp hField, appliedAt?_utils] at hApply
      exact absurd (Option.some.inj hApply).symm hNe

/-- A catch-all with a target takes the key, because a star stands before all letters. -/
theorem catch_all_applied :
    IsMostSpecific "./utils/format" (utilsExports (.text "./lib/*.js")) utilsApplied ∧
      utilsApplied.filled = "./u/format.js" ∧
      exported? "./utils/format" (.object (utilsExports (.text "./lib/*.js"))) =
        some "./lib/utils/format.js" :=
  ⟨utilsApplied_isMostSpecific _, by decide +kernel, by decide +kernel⟩

end Package

end ModuleGateway
