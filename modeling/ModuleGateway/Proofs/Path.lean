import ModuleGateway.Path
import ModuleGateway.Proofs.Text.Split

/-!
The steps and the characters of paths. Resolving the dot segments of an absolute path leaves its root and
names. Taking a path apart and putting it together again makes no characters but slashes and dots, so that
a condition on the characters of the paths that were written holds of every path that is made from them.
-/

namespace ModuleGateway.Path

/-- A text that can be a file's name. -/
structure IsName (n : String) : Prop where
  nonempty : n ≠ ""
  noSlash : '/' ∉ n.toList
  noDot : n ≠ "."
  noDots : n ≠ ".."

/-! ### Steps -/

variable {p q : Path} {steps kept : List Component}

theorem slash_not_mem_segments {part : String} (h : part ∈ p.segments) : '/' ∉ part.toList := by
  obtain ⟨chars, hChars, rfl⟩ := List.mem_map.mp h
  rw [String.toList_ofList]
  exact Text.not_mem_of_mem_split hChars

/-- Parts with slashes between them are the segments. -/
theorem segments_intercalate {parts : List String} (hSome : parts ≠ [])
    (hFree : ∀ part ∈ parts, '/' ∉ part.toList) :
    (Path.mk (String.intercalate "/" parts)).segments = parts := by
  have hText : (String.intercalate "/" parts).toList = ['/'].intercalate (parts.map String.toList) :=
    String.toList_intercalate
  rw [segments, hText, Text.split_intercalate (by simpa using hSome) (by simpa using hFree),
    List.map_map]
  simp [Function.comp_def]

/-- The segments of a path stand for its names and for two dots. -/
theorem step_of_segments {step : Component} (h : step ∈ p.segments.filterMap component?) :
    step = .up ∨ ∃ n ∈ p.segments, step = .name n ∧ IsName n := by
  obtain ⟨part, hPart, hComponent⟩ := List.mem_filterMap.mp h
  unfold component? at hComponent
  split at hComponent
  · cases hComponent
  · rename_i hIdle
    simp only [Bool.or_eq_true, decide_eq_true_eq, not_or] at hIdle
    split at hComponent
    · cases hComponent
      exact .inl rfl
    · rename_i hDots
      cases hComponent
      exact .inr ⟨part, hPart, rfl, hIdle.1, slash_not_mem_segments hPart, hIdle.2, hDots⟩

/-- Behind its root, an absolute path has names and dot segments. -/
theorem components_absolute (h : p.isAbsolute = true) :
    ∃ rest, p.components = .root :: rest ∧
      ∀ step ∈ rest, step = .up ∨ ∃ n, step = .name n ∧ IsName n := by
  refine ⟨p.segments.filterMap component?, by rw [components, head, if_pos h]; rfl, ?_⟩
  intro step hStep
  rcases step_of_segments hStep with hUp | ⟨n, -, hName⟩
  · exact .inl hUp
  · exact .inr ⟨n, hName⟩

/-- An absolute path whose segments are not two dots has only its root and names. -/
theorem components_plain (h : p.isAbsolute = true) (hPlain : ".." ∉ p.segments) :
    ∀ step ∈ p.components, step ≠ .here ∧ step ≠ .up := by
  intro step hStep
  rw [components, head, if_pos h] at hStep
  rcases List.mem_append.mp hStep with hRoot | hSteps
  · obtain rfl := List.mem_singleton.mp hRoot
    exact ⟨by simp, by simp⟩
  · obtain ⟨part, hPart, hComponent⟩ := List.mem_filterMap.mp hSteps
    have hDots : part ≠ ".." := by
      rintro rfl
      exact hPlain hPart
    unfold component? at hComponent
    split at hComponent
    · cases hComponent
    · cases hComponent
      exact ⟨by simp, by simp⟩

theorem component?_name {n : String} (hName : IsName n) : component? n = some (.name n) := by
  simp [component?, hName.nonempty, hName.noDot, hName.noDots]

/-- A path of names only is relative, and each name is a step. -/
theorem components_of_names (hNames : ∀ n ∈ p.segments, IsName n) :
    p.isAbsolute = false ∧ p.segments.head? ≠ some "." ∧ p.components = p.segments.map .name := by
  have hRelative : p.isAbsolute = false := by
    rw [isAbsolute, decide_eq_false_iff_not]
    intro hSlash
    obtain ⟨rest, hText⟩ := List.head?_eq_some_iff.mp hSlash
    have hEmpty : "" ∈ p.segments := by
      rw [segments, hText, show '/' :: rest = [] ++ '/' :: rest from rfl, Text.split_append_cons]
      exact List.mem_map.mpr ⟨[], List.mem_append_left _ List.mem_cons_self, rfl⟩
    exact (hNames "" hEmpty).nonempty rfl
  have hFirst : p.segments.head? ≠ some "." := fun hDot =>
    (hNames "." (List.mem_of_mem_head? hDot)).noDot rfl
  refine ⟨hRelative, hFirst, ?_⟩
  rw [components, head, hRelative, if_neg (by simp), if_neg hFirst, List.nil_append,
    ← List.filterMap_eq_map]
  exact List.filterMap_congr fun n hMem => component?_name (hNames n hMem)

/-- Steps without dots are taken as they are. -/
theorem foldlM_normalStep (done : List Component)
    (hPlain : ∀ step ∈ steps, step ≠ .here ∧ step ≠ .up) :
    steps.foldlM normalStep done = some (steps.reverse ++ done) := by
  induction steps generalizing done with
  | nil => rfl
  | cons step rest ih =>
      obtain ⟨⟨hHere, hUp⟩, hRest⟩ := List.forall_mem_cons.mp hPlain
      have hStep : normalStep done step = some (step :: done) := by
        cases step <;> simp_all [normalStep]
      rw [List.foldlM_cons, hStep, Option.bind_eq_bind, Option.bind_some, ih _ hRest]
      simp

theorem normalize?_plain (hPlain : ∀ step ∈ steps, step ≠ .here ∧ step ≠ .up) :
    normalize? steps = some steps := by
  rw [normalize?, foldlM_normalStep [] hPlain]
  simp

/-- Behind a root and names, two dots take the last name away and names are added. -/
theorem normalize?_behind {front : List String} {more : List Component} {ok : String → Prop}
    (hMore : ∀ step ∈ more, step = .up ∨ ∃ n, step = .name n ∧ ok n)
    (hNormal : normalize? (.root :: front.map .name ++ more) = some steps) :
    ∃ above added : List String, above <+: front ∧ steps = .root :: (above ++ added).map .name ∧
      ∀ n ∈ added, ok n := by
  obtain ⟨done, hDone, rfl⟩ := Option.map_eq_some_iff.mp hNormal
  have hStart : (.root :: front.map Component.name).foldlM normalStep [] =
      some ((front.reverse.map .name) ++ [.root]) := by
    rw [foldlM_normalStep [] (by simp)]
    simp
  rw [List.foldlM_append, hStart, Option.bind_eq_bind, Option.bind_some] at hDone
  -- The steps done so far are the added names, nearest first, what is left in front, and the root.
  suffices hFold : ∀ (more : List Component) (added left : List String),
      (∀ step ∈ more, step = .up ∨ ∃ n, step = .name n ∧ ok n) → left <:+ front.reverse →
      (∀ n ∈ added, ok n) →
      more.foldlM normalStep ((added ++ left).map .name ++ [.root]) = some done →
      ∃ added left : List String, left <:+ front.reverse ∧ (∀ n ∈ added, ok n) ∧
        done = (added ++ left).map .name ++ [.root] by
    obtain ⟨added, left, hLeft, hAdded, rfl⟩ :=
      hFold more [] front.reverse hMore List.suffix_rfl (by simp) hDone
    refine ⟨left.reverse, added.reverse, ?_, by simp, fun n hMem => hAdded n (List.mem_reverse.mp hMem)⟩
    rw [← List.reverse_suffix, List.reverse_reverse]
    exact hLeft
  intro more
  induction more with
  | nil =>
      intro added left _ hLeft hAdded hDone
      exact ⟨added, left, hLeft, hAdded, (Option.some.inj hDone).symm⟩
  | cons step rest ih =>
      intro added left hMore hLeft hAdded hDone
      obtain ⟨hStep, hRest⟩ := List.forall_mem_cons.mp hMore
      rw [List.foldlM_cons] at hDone
      obtain ⟨after, hAfter, hGoOn⟩ := Option.bind_eq_some_iff.mp hDone
      obtain rfl | ⟨n, rfl, hName⟩ := hStep
      · cases added with
        | cons last others =>
            obtain rfl := Option.some.inj hAfter
            exact ih others left hRest hLeft (List.forall_mem_cons.mp hAdded).2 hGoOn
        | nil =>
            cases left with
            | nil => cases hAfter
            | cons last others =>
                obtain rfl := Option.some.inj hAfter
                exact ih [] others hRest ((List.suffix_cons last others).trans hLeft) hAdded hGoOn
      · obtain rfl := Option.some.inj hAfter
        exact ih (n :: added) left hRest hLeft (List.forall_mem_cons.mpr ⟨hName, hAdded⟩) hGoOn

/-- An absolute path without dot segments is left: its root and names. -/
theorem normalize?_absolute (h : p.isAbsolute = true) (hNormal : normalize? p.components = some steps) :
    ∃ names : List String, steps = .root :: names.map .name ∧ ∀ n ∈ names, IsName n := by
  obtain ⟨rest, hRest, hSteps⟩ := components_absolute h
  have hBehind : normalize? (.root :: ([] : List String).map .name ++ rest) = some steps := by
    rw [← hNormal, hRest]
    rfl
  obtain ⟨above, added, hAbove, rfl, hAdded⟩ := normalize?_behind hSteps hBehind
  obtain rfl := List.prefix_nil.mp hAbove
  exact ⟨added, rfl, hAdded⟩

/-- Names are resolved already. -/
theorem normalize?_names (names : List String) :
    normalize? (.root :: names.map .name) = some (.root :: names.map .name) :=
  normalize?_plain (by simp)

theorem Component.map_text_name (names : List String) :
    (names.map Component.name).map Component.text = names := by
  rw [List.map_map]
  exact List.map_id' names

theorem text_ofComponents_names (names : List String) :
    (ofComponents (names.map .name)).text = String.intercalate "/" names := by
  have hText := Component.map_text_name names
  cases names with
  | nil => rfl
  | cons n others =>
      rw [List.map_cons] at hText ⊢
      rw [ofComponents, hText]
      simp

/-! ### Characters -/

/-- Every character of the text meets a condition. -/
def Only (ok : Char → Prop) (text : String) : Prop :=
  ∀ c ∈ text.toList, ok c

variable {ok : Char → Prop} {first second : String} {parts : List String}

theorem Only.append (left : Only ok first) (right : Only ok second) : Only ok (first ++ second) := by
  intro c hMem
  rw [String.toList_append, List.mem_append] at hMem
  exact hMem.elim (left c) (right c)

theorem only_intercalate (hSlash : ok '/') (h : ∀ part ∈ parts, Only ok part) :
    Only ok (String.intercalate "/" parts) := by
  intro c hMem
  rw [String.toList_intercalate] at hMem
  induction parts with
  | nil => cases hMem
  | cons part others ih =>
      obtain ⟨hPart, hOthers⟩ := List.forall_mem_cons.mp h
      cases others with
      | nil => exact hPart c (by simpa [List.intercalate] using hMem)
      | cons next later =>
          rw [List.map_cons, List.map_cons, List.intercalate_cons_cons, ← List.map_cons,
            List.append_assoc, List.mem_append, List.mem_append] at hMem
          rcases hMem with hHere | hSep | hLater
          · exact hPart c hHere
          · obtain rfl := List.mem_singleton.mp hSep
            exact hSlash
          · exact ih hOthers hLater

theorem only_segments (h : Only ok p.text) : ∀ part ∈ p.segments, Only ok part := by
  intro part hPart c hMem
  obtain ⟨chars, hChars, rfl⟩ := List.mem_map.mp hPart
  rw [String.toList_ofList] at hMem
  exact h c (Text.subset_of_mem_split hChars hMem)

theorem only_components (hSlash : ok '/') (hDot : ok '.') (h : Only ok p.text) :
    ∀ step ∈ p.components, Only ok step.text := by
  intro step hStep
  rcases List.mem_append.mp hStep with hHead | hRest
  · have hCases : step = .root ∨ step = .here := by
      unfold head at hHead
      split at hHead
      · exact .inl (List.mem_singleton.mp hHead)
      · split at hHead
        · exact .inr (List.mem_singleton.mp hHead)
        · cases hHead
    rcases hCases with rfl | rfl
    · simpa [Only, Component.text] using hSlash
    · simpa [Only, Component.text] using hDot
  · obtain ⟨part, hPart, hComponent⟩ := List.mem_filterMap.mp hRest
    unfold component? at hComponent
    split at hComponent
    · cases hComponent
    · split at hComponent
      · cases hComponent
        simpa [Only, Component.text] using hDot
      · cases hComponent
        exact only_segments h part hPart

theorem only_ofComponents (hSlash : ok '/') (h : ∀ step ∈ steps, Only ok step.text) :
    Only ok (ofComponents steps).text := by
  have hWritten {steps : List Component} (h : ∀ step ∈ steps, Only ok step.text) :
      Only ok (String.intercalate "/" (steps.map Component.text)) :=
    only_intercalate hSlash (by simpa using h)
  unfold ofComponents
  split
  · exact Only.append (by simpa [Only] using hSlash) (hWritten (List.forall_mem_cons.mp h).2)
  · exact hWritten h

theorem only_join (hSlash : ok '/') (hFirst : Only ok p.text) (hSecond : Only ok q.text) :
    Only ok (p.join q).text := by
  unfold join
  split
  · exact hSecond
  · split
    · exact hFirst.append hSecond
    · exact (hFirst.append (by simpa [Only] using hSlash)).append hSecond

theorem dropIdle_subset (parts : List String) : dropIdle parts ⊆ parts := by
  intro part hMem
  exact List.mem_reverse.mp
    ((List.dropWhile_suffix _).subset (List.mem_reverse.mp hMem))

theorem only_parent? (hSlash : ok '/') (hDot : ok '.') (h : Only ok p.text) (hParent : p.parent? = some q) :
    Only ok q.text := by
  have hWritten : Only ok (String.intercalate "/"
      (dropIdle (dropIdle (p.segments.drop p.head.length)).dropLast)) := by
    refine only_intercalate hSlash fun part hPart => only_segments h part ?_
    exact List.drop_subset _ _ (dropIdle_subset _ (List.dropLast_subset _ (dropIdle_subset _ hPart)))
  unfold parent? at hParent
  dsimp only at hParent
  split at hParent
  · split at hParent
    · rw [← Option.some.inj hParent]
      simp [Only]
    · cases hParent
  · split at hParent
    · rw [← Option.some.inj hParent]
      dsimp only
      exact Only.append (by simpa [Only] using hSlash) hWritten
    · rw [← Option.some.inj hParent]
      dsimp only
      split
      · simpa [Only] using hDot
      · exact Only.append (by simp [Only, hSlash, hDot]) hWritten
    · rw [← Option.some.inj hParent]
      dsimp only
      exact hWritten

/-- Resolving dot segments makes no new steps. -/
theorem mem_of_normalize? (h : normalize? steps = some kept) : ∀ step ∈ kept, step ∈ steps := by
  obtain ⟨done, hDone, rfl⟩ := Option.map_eq_some_iff.mp h
  suffices hSub : ∀ (steps before : List Component), steps.foldlM normalStep before = some done →
      ∀ step ∈ done, step ∈ before ∨ step ∈ steps by
    intro step hMem
    exact (hSub steps [] hDone step (List.mem_reverse.mp hMem)).resolve_left List.not_mem_nil
  intro steps
  induction steps with
  | nil =>
      intro before hBefore step hMem
      cases hBefore
      exact .inl hMem
  | cons first rest ih =>
      intro before hBefore step hMem
      rw [List.foldlM_cons] at hBefore
      obtain ⟨after, hAfter, hRest⟩ := Option.bind_eq_some_iff.mp hBefore
      rcases ih after hRest step hMem with hOld | hLater
      · have hStep : step ∈ before ∨ step = first := by
          unfold normalStep at hAfter
          split at hAfter
          · cases hAfter
            exact .inl hOld
          · split at hAfter
            · cases hAfter
              exact .inl (List.mem_cons_of_mem _ hOld)
            · cases hAfter
          · cases hAfter
            exact (List.mem_cons.mp hOld).symm
        rcases hStep with hOld | rfl
        · exact .inl hOld
        · exact .inr List.mem_cons_self
      · exact .inr (List.mem_cons_of_mem _ hLater)

end ModuleGateway.Path
