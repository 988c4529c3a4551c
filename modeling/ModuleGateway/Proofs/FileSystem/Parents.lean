import ModuleGateway.Proofs.FileSystem.Access
import Mathlib.Data.List.DropRight

/-!
What is made last when a directory is made with those above it. A path without two dots leads through
each directory above it once, so a directory that was made there is empty, and the next one is made in
it.
-/

namespace ModuleGateway

namespace Path

variable {p q : Path} {parts : List String}

theorem component?_eq_none_iff {part : String} :
    component? part = none ↔ part = "" ∨ part = "." := by
  unfold component?
  split
  · rename_i hIdle
    simpa using hIdle
  · rename_i hStep
    have hNot : ¬ (part = "" ∨ part = ".") := by simpa using hStep
    simp only [hNot, iff_false]
    split <;> simp

/-- Only idle segments are dropped from the end, and what is kept ends in a step. -/
theorem dropIdle_spec (parts : List String) :
    (∃ idle, parts = dropIdle parts ++ idle ∧ ∀ part ∈ idle, part = "" ∨ part = ".") ∧
      ∀ last ∈ (dropIdle parts).getLast?, ¬ (last = "" ∨ last = ".") := by
  constructor
  · refine ⟨(parts.reverse.takeWhile fun s => (component? s).isNone).reverse, ?_, ?_⟩
    · rw [dropIdle, ← List.reverse_append, List.takeWhile_append_dropWhile, List.reverse_reverse]
    · intro part hMem
      have hNone := List.mem_takeWhile_imp (List.mem_reverse.mp hMem)
      exact component?_eq_none_iff.mp (by simpa using hNone)
  · intro last hLast
    have hKept := List.head?_dropWhile_not (fun s => (component? s).isNone) parts.reverse
    rw [dropIdle, List.getLast?_reverse, Option.mem_def] at hLast
    rw [hLast] at hKept
    intro hIdle
    simp [component?_eq_none_iff.mpr hIdle] at hKept

/-- The segments of a path that are not empty. -/
def stops (p : Path) : List String :=
  p.segments.filter (· ≠ "")

theorem stops_intercalate (hFree : ∀ part ∈ parts, '/' ∉ part.toList) :
    stops ⟨String.intercalate "/" parts⟩ = parts.filter (· ≠ "") := by
  by_cases hNone : parts = []
  · rw [hNone]
    decide
  · rw [stops, segments_intercalate hNone hFree]

/-- What stands in front of a slash does not change what stands behind it. -/
theorem stops_behind_slash (front : List Char) (behind : String) (hFree : '/' ∉ front) :
    stops ⟨String.ofList front ++ "/" ++ behind⟩ =
      [String.ofList front].filter (· ≠ "") ++ stops ⟨behind⟩ := by
  have hText : (String.ofList front ++ "/" ++ behind).toList = front ++ '/' :: behind.toList := by
    simp
  rw [stops, segments, hText, Text.split_append_cons, Text.split_of_not_mem hFree, List.map_append,
    List.filter_append]
  rfl

/-- What a path starts with, by its first segment. -/
theorem head_cases (p : Path) :
    (p.head = [.root] ∧ p.isAbsolute = true ∧ ∃ tail, p.segments = "" :: tail) ∨
    (p.head = [.here] ∧ p.isAbsolute = false ∧ ∃ tail, p.segments = "." :: tail) ∨
    (p.head = [] ∧ p.isAbsolute = false) := by
  unfold head
  by_cases hAbsolute : p.isAbsolute = true
  · obtain ⟨rest, hText⟩ := List.head?_eq_some_iff.mp (by simpa [isAbsolute] using hAbsolute)
    have hSplit := Text.split_append_cons '/' [] rest
    rw [List.nil_append] at hSplit
    refine .inl ⟨if_pos hAbsolute, hAbsolute, (Text.split '/' rest).map String.ofList, ?_⟩
    rw [segments, hText, hSplit]
    rfl
  · rw [if_neg hAbsolute]
    have hRelative : p.isAbsolute = false := by simpa using hAbsolute
    by_cases hHere : p.segments.head? = some "."
    · exact .inr (.inl ⟨if_pos hHere, hRelative, List.head?_eq_some_iff.mp hHere⟩)
    · exact .inr (.inr ⟨if_neg hHere, hRelative⟩)

/-- A text without a slash in front is what a relative path starts with. -/
theorem isAbsolute_intercalate (hFree : ∀ part ∈ parts, '/' ∉ part.toList)
    (hFirst : parts.head? ≠ some "") :
    (⟨String.intercalate "/" parts⟩ : Path).isAbsolute = false := by
  cases parts with
  | nil => decide
  | cons first rest =>
      cases hChars : first.toList with
      | nil =>
          rw [String.toList_eq_nil_iff.mp hChars] at hFirst
          exact absurd rfl hFirst
      | cons c more =>
          have hSlash : c ≠ '/' := by
            rintro rfl
            exact hFree first List.mem_cons_self (by simp [hChars])
          cases rest <;> simp [isAbsolute, String.toList_intercalate, List.intercalate, hChars, hSlash]

/-- A path whose first segment is empty starts with a slash, if it has other segments. -/
theorem isAbsolute_of_segments {tail : List String} (h : p.segments = "" :: tail) (hTail : tail ≠ []) :
    p.isAbsolute = true := by
  unfold segments at h
  cases hText : p.text.toList with
  | nil =>
      rw [hText] at h
      exact absurd (List.cons.inj h).2.symm hTail
  | cons c more =>
      by_cases hSlash : c = '/'
      · simp [isAbsolute, hText, hSlash]
      · rw [hText, Text.split] at h
        cases hParts : Text.split '/' more with
        | nil => exact absurd hParts (Text.split_ne_nil _ _)
        | cons part others =>
            simp [hParts, hSlash] at h

/-- Parts written behind what a path starts with. -/
def under (lead : List Component) (parts : List String) : Path :=
  match lead with
  | .root :: _ => ⟨"/" ++ String.intercalate "/" parts⟩
  | .here :: _ => ⟨if parts = [] then "." else "./" ++ String.intercalate "/" parts⟩
  | _ => ⟨String.intercalate "/" parts⟩

/-- What a path starts with and the segments behind it are what is written of them. -/
theorem under_head {rest : List String}
    (hSegments : p.segments = p.segments.take p.head.length ++ (parts ++ rest)) (hRest : rest ≠ []) :
    (under p.head parts).isAbsolute = p.isAbsolute ∧
      stops (under p.head parts) =
        (p.segments.take p.head.length).filter (· ≠ "") ++ parts.filter (· ≠ "") := by
  have hFree : ∀ part ∈ parts, '/' ∉ part.toList := by
    intro part hPart
    refine slash_not_mem_segments (p := p) ?_
    rw [hSegments]
    simp [hPart]
  rcases p.head_cases with ⟨hHead, hAbsolute, tail, hFirst⟩ | ⟨hHead, hRelative, tail, hFirst⟩ |
    ⟨hHead, hRelative⟩
  · have hStops := stops_behind_slash [] (String.intercalate "/" parts) List.not_mem_nil
    rw [stops_intercalate hFree] at hStops
    refine ⟨?_, by simpa [hHead, hFirst, under] using hStops⟩
    rw [hAbsolute, hHead]
    simp [under, isAbsolute]
  · rw [hHead, hFirst, hRelative]
    by_cases hNone : parts = []
    · have hDot : stops (under [.here] []) = ["."] := by decide
      rw [hNone, hDot]
      exact ⟨by decide, by simp⟩
    · have hStops := stops_behind_slash ['.'] (String.intercalate "/" parts) (by decide)
      rw [stops_intercalate hFree] at hStops
      rw [under, if_neg hNone]
      exact ⟨by simp [isAbsolute], by simpa using hStops⟩
  · have hUnder : under [] parts = ⟨String.intercalate "/" parts⟩ := rfl
    rw [hHead, hRelative, hUnder]
    refine ⟨isAbsolute_intercalate hFree fun hEmpty => ?_, stops_intercalate hFree⟩
    obtain ⟨more, rfl⟩ := List.head?_eq_some_iff.mp hEmpty
    rw [hHead] at hSegments
    have hAbsolute := isAbsolute_of_segments (p := p) hSegments (by simp [hRest])
    rw [hRelative] at hAbsolute
    cases hAbsolute

/-- A parent ends in front of the last segment that is a step. -/
theorem parent?_eq_some (h : p.parent? = some q) (hNamed : q.text ≠ "") :
    ∃ kept between last behind, q = under p.head kept ∧
      p.segments = p.segments.take p.head.length ++ (kept ++ (between ++ last :: behind)) ∧
      ¬ (last = "" ∨ last = ".") ∧ ∀ part ∈ between ++ behind, part = "" ∨ part = "." := by
  have hWhole : p.segments.take p.head.length ++ p.segments.drop p.head.length = p.segments :=
    List.take_append_drop _ _
  unfold parent? at h
  dsimp only at h
  obtain ⟨⟨behind, hBehind, hIdleBehind⟩, hEnd⟩ := dropIdle_spec (p.segments.drop p.head.length)
  generalize dropIdle (p.segments.drop p.head.length) = body at h hBehind hEnd
  cases body with
  | nil =>
      dsimp only at h
      split at h
      · obtain rfl := Option.some.inj h
        exact absurd rfl hNamed
      · cases h
  | cons first others =>
      dsimp only at h
      obtain ⟨⟨between, hBetween, hIdleBetween⟩, -⟩ := dropIdle_spec (first :: others).dropLast
      generalize dropIdle (first :: others).dropLast = kept at h hBetween
      have hLast := List.dropLast_append_getLast (List.cons_ne_nil first others)
      have hStep := hEnd _ (List.getLast?_eq_getLast_of_ne_nil (List.cons_ne_nil first others))
      generalize (first :: others).getLast (List.cons_ne_nil first others) = last at hLast hStep
      refine ⟨kept, between, last, behind, ?_, ?_, hStep, fun part hPart => ?_⟩
      · generalize p.head = lead at h
        cases lead with
        | nil => exact (Option.some.inj h).symm
        | cons c more => cases c <;> exact (Option.some.inj h).symm
      · rw [← hLast, hBetween] at hBehind
        rw [hBehind] at hWhole
        simpa using hWhole.symm
      · exact (List.mem_append.mp hPart).elim (hIdleBetween part) (hIdleBehind part)

/-- The last step of a path stands behind its parent, with nothing but dots around it. -/
theorem stops_parent? (h : p.parent? = some q) (hNamed : q.text ≠ "") :
    q.isAbsolute = p.isAbsolute ∧ ∃ between last behind,
      stops p = stops q ++ between ++ last :: behind ∧ ¬ (last = "" ∨ last = ".") ∧
        ∀ part ∈ between ++ behind, part = "." := by
  obtain ⟨kept, between, last, behind, rfl, hSegments, hStep, hIdle⟩ := parent?_eq_some h hNamed
  obtain ⟨hAbsolute, hKept⟩ := under_head hSegments (by simp)
  have hNonempty : last ≠ "" := fun hEmpty => hStep (.inl hEmpty)
  refine ⟨hAbsolute, between.filter (· ≠ ""), last, behind.filter (· ≠ ""), ?_, hStep, ?_⟩
  · rw [hKept, stops]
    conv_lhs => rw [hSegments]
    simp [List.filter_append, hNonempty]
  · intro part hPart
    rw [← List.filter_append] at hPart
    obtain ⟨hMem, hSome⟩ := List.mem_filter.mp hPart
    exact (hIdle part hMem).resolve_left (by simpa using hSome)

/-- A path without two dots has a parent without them. -/
theorem plain_parent? (h : p.parent? = some q) (hPlain : ".." ∉ p.segments) : ".." ∉ q.segments := by
  intro hUp
  have hNamed : q.text ≠ "" := by
    intro hEmpty
    rw [segments, hEmpty] at hUp
    revert hUp
    decide
  obtain ⟨-, between, last, behind, hStops, -⟩ := stops_parent? h hNamed
  have hMem : ".." ∈ p.stops := by
    rw [hStops, List.append_assoc]
    exact List.mem_append_left _ (List.mem_filter.mpr ⟨hUp, by decide⟩)
  exact hPlain (List.mem_filter.mp hMem).1

end Path

namespace FileSystem

variable {fs : FileSystem} {d q : Path} {l : Location}

/-- Dots do not lead away. -/
theorem stride_idle {root : Node} {followLast : Bool} {here : Location} {idle : List Segment}
    (hIdle : ∀ s ∈ idle, s = .stay) (way : List Segment) :
    stride root followLast here (idle ++ way) = stride root followLast here way := by
  induction idle with
  | nil => rfl
  | cons s rest ih =>
      obtain ⟨rfl, hRest⟩ := List.forall_mem_cons.mp hIdle
      exact ih hRest

/-- Below an empty directory nothing is opened but by going up again. -/
theorem not_opens_below_empty (hParent : d.parent? = some q) (hNamed : q.text ≠ "")
    (hPlain : ".." ∉ d.segments) (hOpens : Opens fs q l []) {place : Location}
    {entries : List (String × Node)} : ¬ Opens fs d place entries := by
  obtain ⟨hAbsolute, between, last, behind, hStops, hStep, hDots⟩ := Path.stops_parent? hParent hNamed
  have hLast : Segment.ofText last = .name last := by
    have hUp : last ≠ ".." := by
      rintro rfl
      have hMem : ".." ∈ d.stops := by
        rw [hStops]
        simp
      exact hPlain (List.mem_filter.mp hMem).1
    simp only [not_or] at hStep
    simp [Segment.ofText, hStep.1, hStep.2, hUp]
  have hStay : ∀ s ∈ between.map Segment.ofText, s = .stay := by
    intro s hMem
    obtain ⟨part, hPart, rfl⟩ := List.mem_map.mp hMem
    rw [hDots part (List.mem_append_left _ hPart)]
    rfl
  have hInside : inside d = inside q ++ (between.map Segment.ofText ++
      (.name last :: behind.map Segment.ofText)) := by
    have hSame : inside d = d.stops.map Segment.ofText := rfl
    rw [hSame, hStops, List.map_append, List.map_append, List.map_cons, hLast, List.append_assoc]
    rfl
  have hOrigin : fs.origin d = fs.origin q := by
    rw [origin, origin, hAbsolute]
  have hMissing : fs.root.get? (l ++ [last]) = none := Node.get?_child hOpens.found last
  -- The way to the parent is gone first, and the next name is missing there.
  obtain ⟨e, hStride⟩ : ∃ e, stride fs.root true l (between.map Segment.ofText ++
      (.name last :: (behind.map Segment.ofText ++ [.stay]))) = .error e := by
    rw [stride_idle hStay, stride_name _ _ _ _ (by simp), hMissing]
    split <;> exact ⟨_, rfl⟩
  intro hBelow
  have hWay := hBelow.way
  rw [hInside, hOrigin, List.append_assoc, List.append_assoc, List.cons_append] at hWay
  rcases travel_append linkLimit (fs.origin q) (inside q) with ⟨found, left, hEnd, hGoOn⟩ | ⟨e', hEnd, -⟩
  · rw [hOpens.way] at hEnd
    cases hEnd
    rw [hGoOn true _ (by simp), travel, hStride] at hWay
    cases hWay
  · rw [hOpens.way] at hEnd
    cases hEnd

/-- What is made last on the way to a directory that was not there is the directory itself. -/
theorem makeDirectory_of_makeDirectoriesFor {depth : Nat} {ready : FileSystem}
    (h : makeDirectoriesFor depth fs d = .ok ready) (hPlain : ".." ∉ d.segments) :
    (ready = fs ∧ fs.isDirectory d = true) ∨
      ∃ above : FileSystem, above.makeDirectory d = .ok ready := by
  fun_induction makeDirectoriesFor depth fs d generalizing ready with
  | case1 depth fs d made hMade =>
      cases h
      exact .inr ⟨fs, hMade⟩
  | case3 fs d hNoEntry depth parent hParent above hAbove made hMade ih =>
      cases h
      exact .inr ⟨above, hMade⟩
  | case4 fs d hNoEntry depth parent hParent above hAbove e hError hThere ih =>
      cases h
      rcases ih hAbove (Path.plain_parent? hParent hPlain) with ⟨rfl, -⟩ | ⟨before, hMade⟩
      · exact .inl ⟨rfl, hThere⟩
      · -- The parent is new, so nothing can be in it.
        obtain ⟨l, hOpens⟩ := opens_of_makeDirectory hMade
        obtain ⟨place, entries, hBelow⟩ := opens_of_isDirectory hThere
        exact absurd hBelow
          (not_opens_below_empty hParent (named_of_makeDirectory hMade) hPlain hOpens)
  | case7 depth fs d e hOther hError hThere =>
      cases h
      exact .inl ⟨rfl, hThere⟩
  | case2 | case5 | case6 | case8 => cases h

/-- A directory is found by its path, or a link to it. -/
theorem locate_of_isDirectory (h : fs.isDirectory d = true) :
    ∃ place, fs.locate d false = .ok place := by
  obtain ⟨entries, hListed⟩ := isDirectory_iff_list.mp h
  obtain ⟨hFits, l, hOpens⟩ := opens_of_list hListed
  obtain ⟨place, hArrive, -⟩ :=
    arrive_of_opens false hOpens rfl rfl hFits (named_of_list hListed)
  exact ⟨place, locate_eq_ok_iff.mpr hArrive⟩

end FileSystem

end ModuleGateway
