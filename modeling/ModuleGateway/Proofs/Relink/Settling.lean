import ModuleGateway.Proofs.Path
import ModuleGateway.Proofs.Relink.Linking
import ModuleGateway.Proofs.Relink.Rescanning

/-!
Linking what has been linked. Whatever linking writes, it keeps when it meets it again: an address, an
absolute path, a relative path with an extension, or a text with an escape in it, which is not asked for.
When nothing that it writes breaks a line, the output is therefore its own output, and linking it looks up
no package and trusts none.
-/

namespace ModuleGateway.Relink

open Package (Sources Located)

/-! ### Addresses -/

/-- The specifier is an address or an absolute path, so that linking keeps it. -/
def Anchored (specifier : String) : Prop :=
  Specifier.kind specifier = .url ∨ Specifier.kind specifier = .rootAbsolute

theorem anchored_of_slash {specifier : String} (h : specifier.toList.head? = some '/') :
    Anchored specifier := by
  obtain ⟨rest, hText⟩ := List.head?_eq_some_iff.mp h
  exact .inr (by simp [Specifier.kind, hText, Specifier.isRelative])

/-- A text behind a scheme is an address, whatever follows. -/
theorem anchored_of_scheme {base rest : String} (h : Specifier.hasScheme base.toList = true) :
    Anchored (base ++ rest) := by
  unfold Specifier.hasScheme at h
  split at h
  · rename_i scheme tail hCut
    obtain ⟨hText, hColon⟩ := Text.cut?_eq_some_iff.mp hCut
    have hWhole : (base ++ rest).toList = scheme ++ ':' :: (tail ++ rest.toList) := by
      simp [String.toList_append, hText]
    cases scheme with
    | nil => cases h
    | cons c others =>
        have hAlpha : c.isAlpha = true := by
          simp only [Specifier.isScheme, Bool.and_eq_true] at h
          exact h.1
        have hDot : c ≠ '.' := by
          rintro rfl
          exact absurd hAlpha (by decide)
        have hSlash : c ≠ '/' := by
          rintro rfl
          exact absurd hAlpha (by decide)
        have hScheme : Specifier.hasScheme (base ++ rest).toList = true := by
          rw [Specifier.hasScheme, hWhole, Text.cut?_append hColon]
          exact h
        have hRelative : Specifier.isRelative (base ++ rest).toList = false := by
          rw [hWhole]
          unfold Specifier.isRelative
          split <;> simp_all
        have hHead : (base ++ rest).toList.head? ≠ some '/' := by
          rw [hWhole]
          simpa using hSlash
        refine .inl ?_
        unfold Specifier.kind
        dsimp only
        rw [hRelative, if_neg (by simp), if_neg hHead, if_pos hScheme]
  · cases h

/-! ### Lines -/

/-- The text holds no line end. -/
def SingleLine (text : String) : Prop :=
  Path.Only (isLineEnd · = false) text

instance : DecidablePred SingleLine := fun text =>
  decidable_of_iff (text.toList.all (!isLineEnd ·) = true) (by simp [SingleLine, Path.Only])

/-- Without an escape, the inside of a literal is on one line. -/
theorem singleLine_of_inside {quote : Char} {raw : List Char} (h : Inside quote raw)
    (hEscape : '\\' ∉ raw) : SingleLine (String.ofList raw) := by
  intro c hMem
  rw [String.toList_ofList] at hMem
  induction h with
  | nil => cases hMem
  | plain hQuote hPlain hLine inner ih =>
      rcases List.mem_cons.mp hMem with rfl | hInner
      · exact hLine
      · exact ih (fun hEnd => hEscape (List.mem_cons_of_mem _ hEnd)) hInner
  | escaped inner ih => exact absurd List.mem_cons_self hEscape

/-- The settings put no line end into a script, and what they put in front of a specifier, if the CDN is
used, is an address or an absolute path. -/
structure Linkable (settings : Settings) : Prop where
  publicPrefix : SingleLine settings.publicPrefix
  vendorSegment : SingleLine settings.vendorSegment
  cdnAddress : SingleLine settings.cdnAddress
  anchored : settings.cdnEnabled = true →
    (settings.cdnAddress ++ "/").toList.head? = some '/' ∨
      Specifier.hasScheme settings.cdnAddress.toList = true

/-- The name and the file of an importing package hold no line end. -/
def Importer.SingleLine : Importer → Prop
  | .source => True
  | .package m => Relink.SingleLine m.package ∧ Relink.SingleLine m.file.text

instance : DecidablePred Importer.SingleLine
  | .source => .isTrue trivial
  | .package m => inferInstanceAs (Decidable (Relink.SingleLine m.package ∧ Relink.SingleLine m.file.text))

variable {written settings : Settings} {fs : FileSystem} {importer : Importer}
  {specifier replacement : String} {m : Located} {quote : Char} {raw : List Char}
  {trusted : Trust.Registry}

theorem Linkable.publicPath (h : Linkable settings) (hLine : SingleLine specifier) :
    SingleLine ((Sources.ofSettings settings).publicPath specifier) := by
  have hSlash : SingleLine "/" := by decide
  have hPrefix : SingleLine settings.vendorPrefix := by
    unfold Settings.vendorPrefix
    split
    · exact hSlash.append h.vendorSegment
    · exact (h.publicPrefix.append hSlash).append h.vendorSegment
  exact (hPrefix.append hSlash).append hLine

/-- A public path is absolute. -/
theorem anchored_publicPath (hNormal : written.normalize = .ok settings) (specifier : String) :
    Anchored ((Sources.ofSettings settings).publicPath specifier) := by
  have hHead : settings.publicPrefix.toList.head? = some '/' := by
    unfold Settings.normalize at hNormal
    dsimp only at hNormal
    split at hNormal
    · cases hNormal
    · split at hNormal
      · cases hNormal
      · split at hNormal
        · cases hNormal
        · cases hNormal
          simp
  refine anchored_of_slash ?_
  unfold Sources.publicPath Sources.ofSettings Settings.vendorPrefix
  dsimp only
  split
  · simp [String.toList_append]
  · simp only [String.toList_append, List.append_assoc, List.head?_append, hHead]
    rfl

/-- What a bare target becomes is kept. -/
theorem rendered_kept (hNormal : written.normalize = .ok settings) (h : Linkable settings)
    (fs : FileSystem) (specifier : String) :
    let sources := Sources.ofSettings settings
    let text := sources.rendered specifier (sources.resolve fs specifier)
    Anchored text ∧ (SingleLine specifier → SingleLine text) := by
  intro sources text
  have hPath : Anchored (sources.publicPath specifier) ∧
      (SingleLine specifier → SingleLine (sources.publicPath specifier)) :=
    ⟨anchored_publicPath hNormal specifier, h.publicPath⟩
  unfold text
  unfold Sources.resolve
  split
  · exact hPath
  · split
    · exact hPath
    · split
      · rename_i url hUrl
        obtain ⟨base, hBase, rfl⟩ := Option.map_eq_some_iff.mp hUrl
        obtain ⟨hEnabled, rfl⟩ : settings.cdnEnabled = true ∧ settings.cdnAddress = base := by
          simpa [sources, Sources.ofSettings] using hBase
        have hSlash : SingleLine "/" := by decide
        refine ⟨?_, fun hLine => (h.cdnAddress.append hSlash).append hLine⟩
        rcases h.anchored hEnabled with hHead | hScheme
        · refine anchored_of_slash ?_
          simp only [Sources.rendered]
          rw [String.toList_append, List.head?_append, hHead]
          rfl
        · simp only [Sources.rendered]
          rw [String.append_assoc]
          exact anchored_of_scheme hScheme
      · exact hPath

/-! ### Relative paths -/

theorem kind_eq_relative_iff :
    Specifier.kind specifier = .relative ↔ Specifier.isRelative specifier.toList = true := by
  unfold Specifier.kind
  dsimp only
  split
  · rename_i hStart
    simp [hStart]
  · rename_i hStart
    split
    · simp [hStart]
    · split <;> simp [hStart]

/-- Text behind a last segment without dots leaves a path relative. -/
theorem isRelative_append {text last tail : List Char}
    (hLast : (Text.split '/' text).getLast? = some last) (hNoDots : '.' ∉ last)
    (h : Specifier.isRelative text = true) : Specifier.isRelative (text ++ tail) = true := by
  have hSole (hFree : '/' ∉ text) : last = text := by
    rw [Text.split_of_not_mem hFree] at hLast
    exact (Option.some.inj hLast).symm
  unfold Specifier.isRelative at h
  split at h
  · exact absurd (hSole (by decide) ▸ List.mem_cons_self) hNoDots
  · exact absurd (hSole (by decide) ▸ List.mem_cons_self) hNoDots
  · rfl
  · rfl
  · cases h

/-- A path that was given its extension is still relative and on one line, and gets none again. -/
theorem withExtension?_again (hRelative : Specifier.kind specifier = .relative)
    (h : withExtension? specifier = some replacement) :
    Specifier.kind replacement = .relative ∧ withExtension? replacement = none ∧
      (SingleLine specifier → SingleLine replacement) := by
  obtain ⟨front, last, hSplit⟩ := Text.split_append_free '/' specifier.toList
  have hLast (tail : List Char) (hFree : '/' ∉ tail) :
      (Text.split '/' (specifier.toList ++ tail)).getLast? = some (last ++ tail) := by
    simp [hSplit tail hFree]
  have hHere : (Text.split '/' specifier.toList).getLast? = some last := by
    simpa using hLast [] (by simp)
  unfold withExtension? at h
  rw [hHere] at h
  dsimp only at h
  split at h
  · cases h
  · rename_i hPlain
    obtain rfl := Option.some.inj h
    have hText : (specifier ++ ".js").toList = specifier.toList ++ ".js".toList :=
      String.toList_append
    refine ⟨kind_eq_relative_iff.mpr ?_, ?_, fun hLine => hLine.append (by decide : SingleLine ".js")⟩
    · have hNoDots : '.' ∉ last := by
        simp only [Bool.or_eq_true, decide_eq_true_eq, not_or] at hPlain
        simpa using hPlain.2
      rw [hText]
      exact isRelative_append hHere hNoDots (kind_eq_relative_iff.mp hRelative)
    · unfold withExtension?
      rw [hText, hLast _ (by decide)]
      simp

/-- The public path of a file inside the package is absolute. -/
theorem insidePath?_kept (hNormal : written.normalize = .ok settings) (h : Linkable settings)
    (hFound : insidePath? (Sources.ofSettings settings) m specifier = some replacement) :
    Anchored replacement ∧ (SingleLine m.package → SingleLine m.file.text → SingleLine specifier →
      SingleLine replacement) := by
  have hSlash : isLineEnd '/' = false := by decide
  have hDot : isLineEnd '.' = false := by decide
  unfold insidePath? at hFound
  obtain ⟨directory, hParent, hFound⟩ := Option.bind_eq_some_iff.mp hFound
  obtain ⟨steps, hNormalize, hFound⟩ := Option.bind_eq_some_iff.mp hFound
  obtain ⟨inner, hInner, hFound⟩ := Option.bind_eq_some_iff.mp hFound
  obtain rfl := Option.some.inj hFound
  refine ⟨anchored_publicPath hNormal inner, fun hPackage hFile hLine => h.publicPath ?_⟩
  have hSteps : ∀ step ∈ steps, Path.Only (isLineEnd · = false) step.text := fun step hStep =>
    Path.only_components hSlash hDot
      (Path.only_join hSlash (Path.only_parent? hSlash hDot hFile hParent) hLine) step (Path.mem_of_normalize? hNormalize step hStep)
  unfold Located.specifierFor? at hInner
  obtain ⟨below, hBelow, hInner⟩ := Option.bind_eq_some_iff.mp hInner
  dsimp only at hInner
  split at hInner
  · cases hInner
  · obtain rfl := Option.some.inj hInner
    have hTarget := Path.only_components hSlash hDot (Path.only_ofComponents hSlash hSteps)
    obtain hWhole := List.isPrefixOf?_eq_some_iff_append_eq.mp hBelow
    have hBelowOnly : ∀ step ∈ below, Path.Only (isLineEnd · = false) step.text := fun step hStep =>
      hTarget step (hWhole ▸ List.mem_append_right _ hStep)
    have hWritten := Path.only_ofComponents hSlash hBelowOnly
    refine Path.Only.append (Path.Only.append hPackage (by decide : SingleLine "/")) ?_
    intro c hMem
    rw [String.toList_ofList, List.mem_map] at hMem
    obtain ⟨d, hThere, rfl⟩ := hMem
    split
    · exact hSlash
    · exact hWritten d hThere

/-! ### Kept targets -/

/-- A target that linking keeps, whatever is installed and whatever is trusted, without looking anything
up. -/
def Kept (sources : Sources) (importer : Importer) (raw : List Char) : Prop :=
  '\\' ∈ raw ∨ (Specifier.kind (String.ofList raw) ≠ .bare ∧
    ∀ (fs : FileSystem) (trusted : Trust.Registry),
      (mapTarget sources fs importer (String.ofList raw)).run trusted = (none, trusted))

variable {sources : Sources}

theorem answer_of_pure {answer : Option String}
    (h : mapTarget sources fs importer specifier = pure answer) :
    ((mapTarget sources fs importer specifier).run trusted).1 = answer := by
  rw [h]
  rfl

theorem mapTarget_anchored (h : Anchored specifier) :
    mapTarget sources fs importer specifier = pure none := by
  unfold mapTarget
  rcases h with hKind | hKind <;> rw [hKind]

theorem kept_of_pure (hKind : Specifier.kind specifier ≠ .bare)
    (h : ∀ fs, mapTarget sources fs importer specifier = pure none) :
    Kept sources importer specifier.toList := by
  refine .inr ⟨by rwa [String.ofList_toList], fun fs trusted => ?_⟩
  rw [String.ofList_toList, h fs]
  rfl

theorem kept_of_anchored (h : Anchored specifier) : Kept sources importer specifier.toList :=
  kept_of_pure (by rcases h with hKind | hKind <;> simp [hKind]) fun _ => mapTarget_anchored h

/-- What a target becomes is kept and on one line; and a target that stays will stay. -/
theorem kept_of_mapTarget (fs : FileSystem) (trusted : Trust.Registry)
    (hNormal : written.normalize = .ok settings) (h : Linkable settings)
    (hImporter : importer.SingleLine) (hLine : SingleLine specifier) :
    let sources := Sources.ofSettings settings
    let answer := ((mapTarget sources fs importer specifier).run trusted).1
    (answer = none → Kept sources importer specifier.toList) ∧
      ∀ replacement, answer = some replacement →
        SingleLine replacement ∧ Kept sources importer replacement.toList := by
  intro sources answer
  have hStays (hKind : Specifier.kind specifier ≠ .bare)
      (hAlways : ∀ fs, mapTarget sources fs importer specifier = pure none) :
      (answer = none → Kept sources importer specifier.toList) ∧
        ∀ replacement, answer = some replacement →
          SingleLine replacement ∧ Kept sources importer replacement.toList := by
    have hNone : answer = none := answer_of_pure (hAlways fs)
    refine ⟨fun _ => kept_of_pure hKind hAlways, fun replacement hSome => ?_⟩
    cases hNone.symm.trans hSome
  have hBecomes {replacement : String} (hSome : answer = some replacement)
      (hText : SingleLine replacement) (hKept : Kept sources importer replacement.toList) :
      (answer = none → Kept sources importer specifier.toList) ∧
        ∀ replacement, answer = some replacement →
          SingleLine replacement ∧ Kept sources importer replacement.toList := by
    refine ⟨fun hNone => (by cases hNone.symm.trans hSome), fun other hOther => ?_⟩
    obtain rfl := Option.some.inj (hSome.symm.trans hOther)
    exact ⟨hText, hKept⟩
  cases hKind : Specifier.kind specifier with
  | url => exact hStays (by simp [hKind]) fun _ => mapTarget_anchored (.inl hKind)
  | rootAbsolute => exact hStays (by simp [hKind]) fun _ => mapTarget_anchored (.inr hKind)
  | bare =>
      obtain ⟨hText, hTextLine⟩ := rendered_kept hNormal h fs specifier
      exact hBecomes (mapTarget_bare hKind) (hTextLine hLine) (kept_of_anchored hText)
  | relative =>
      cases importer with
      | source =>
          cases hExtension : withExtension? specifier with
          | none =>
              exact hStays (by simp [hKind]) fun fs => by rw [mapTarget_source hKind, hExtension]
          | some replacement =>
              obtain ⟨hAgain, hNone, hKeepsLine⟩ := withExtension?_again hKind hExtension
              refine hBecomes ((answer_of_pure (mapTarget_source hKind)).trans hExtension)
                (hKeepsLine hLine) (kept_of_pure (by simp [hAgain]) fun fs => ?_)
              rw [mapTarget_source hAgain, hNone]
      | package m =>
          obtain ⟨hPackage, hFile⟩ := hImporter
          cases hInner : insidePath? sources m specifier with
          | none =>
              exact hStays (by simp [hKind]) fun fs => by rw [mapTarget_package hKind, hInner]
          | some replacement =>
              obtain ⟨hText, hTextLine⟩ := insidePath?_kept hNormal h hInner
              exact hBecomes ((answer_of_pure (mapTarget_package hKind)).trans hInner)
                (hTextLine hPackage hFile hLine) (kept_of_anchored hText)

/-- A replacement is written as it is, or with an escape. -/
theorem edited_cases (quote : Char) (raw : List Char) (replacement : String) :
    edited quote raw (some replacement) = replacement.toList ∨
      '\\' ∈ edited quote raw (some replacement) := by
  have hWritten (text : List Char) :
      quoteWithin quote text = text ∨ '\\' ∈ quoteWithin quote text := by
    induction text with
    | nil => exact .inl rfl
    | cons c text ih =>
        rw [quoteWithin, List.flatMap_cons, ← quoteWithin]
        split
        · exact .inr List.mem_cons_self
        · rcases ih with hSame | hEscape
          · exact .inl (congrArg (c :: ·) hSame)
          · exact .inr (List.mem_cons_of_mem _ hEscape)
  unfold edited
  dsimp only
  split
  · rename_i hSame
    exact .inl hSame.symm
  · exact hWritten _

theorem kept_edited {sources : Sources} (hKept : Kept sources importer replacement.toList) :
    Kept sources importer (edited quote raw (some replacement)) := by
  rcases edited_cases quote raw replacement with hSame | hEscape
  · rwa [hSame]
  · exact .inl hEscape

/-- What is written for a target is kept, and stays on its line. -/
theorem kept_of_answer (hNormal : written.normalize = .ok settings) (h : Linkable settings)
    (hImporter : importer.SingleLine) (hInside : Inside quote raw) :
    let sources := Sources.ofSettings settings
    let answer := ((ask (mapTarget sources fs importer) raw).run trusted).1
    Fits raw answer ∧ Kept sources importer (edited quote raw answer) := by
  intro sources answer
  by_cases hEscape : raw.contains '\\' = true
  · have hNone : answer = none := by
      simp only [answer, ask, if_pos hEscape]
      rfl
    rw [hNone]
    refine ⟨fun _ hSome => (by cases hSome), .inl ?_⟩
    exact List.contains_iff_mem.mp hEscape
  · have hPlain : '\\' ∉ raw := by simpa using hEscape
    obtain ⟨hStays, hBecomes⟩ := kept_of_mapTarget fs trusted hNormal h hImporter
      (singleLine_of_inside hInside hPlain)
    have hAnswer : answer =
        ((mapTarget sources fs importer (String.ofList raw)).run trusted).1 := by
      simp only [answer, ask, if_neg hEscape]
    rw [← hAnswer] at hStays hBecomes
    cases hFound : answer with
    | none =>
        have hKept := hStays hFound
        rw [String.toList_ofList] at hKept
        exact ⟨fun _ hSome => (by cases hSome), hKept⟩
    | some replacement =>
        obtain ⟨hLine, hKept⟩ := hBecomes replacement hFound
        refine ⟨fun other hOther => ?_, kept_edited hKept⟩
        obtain rfl := Option.some.inj hOther
        exact ⟨hPlain, hLine⟩

/-- Pieces whose targets are kept stay as they are. -/
theorem relinkAll_kept {pieces : List Piece}
    (hKept : ∀ raw ∈ raws pieces, Kept sources importer raw) (fs : FileSystem)
    (trusted : Trust.Registry) :
    (relinkAll (mapTarget sources fs importer) pieces).run trusted =
      (pieces.flatMap Piece.text, trusted) := by
  induction pieces with
  | nil => rfl
  | cons piece pieces ih =>
      cases piece with
      | verbatim text =>
          have hRest := ih hKept
          have hRun : (relinkAll (mapTarget sources fs importer) (.verbatim text :: pieces)).run trusted =
              (text ++ ((relinkAll (mapTarget sources fs importer) pieces).run trusted).1,
                ((relinkAll (mapTarget sources fs importer) pieces).run trusted).2) := rfl
          rw [hRun, hRest]
          rfl
      | target quote raw =>
          obtain ⟨hFirst, hOthers⟩ := List.forall_mem_cons.mp hKept
          have hRest := ih hOthers
          have hAsk : (ask (mapTarget sources fs importer) raw).run trusted = (none, trusted) := by
            unfold ask
            rcases hFirst with hEscape | ⟨-, hAlways⟩
            · rw [if_pos (List.contains_iff_mem.mpr hEscape)]
              rfl
            · split
              · rfl
              · exact hAlways fs trusted
          have hRun : (relinkAll (mapTarget sources fs importer) (.target quote raw :: pieces)).run trusted =
              let asked := (ask (mapTarget sources fs importer) raw).run trusted
              let rest := (relinkAll (mapTarget sources fs importer) pieces).run asked.2
              (quote :: edited quote raw asked.1 ++ [quote] ++ rest.1, rest.2) := rfl
          rw [hRun, hAsk]
          dsimp only
          rw [hRest]
          rfl

/-- The answers for the targets of pieces fit, and what is written for the targets is kept. -/
theorem kept_answered {pieces : List Piece} {answers : List (Option String)}
    (hNormal : written.normalize = .ok settings) (h : Linkable settings)
    (hImporter : importer.SingleLine) (hSound : ∀ piece ∈ pieces, piece.Sound)
    (hAnswers : List.Forall₂ (fun raw answer => ∃ trusted,
      ((ask (mapTarget (Sources.ofSettings settings) fs importer) raw).run trusted).1 = answer)
      (raws pieces) answers) :
    List.Forall₂ Fits (raws pieces) answers ∧
      ∀ raw ∈ raws (answered pieces answers), Kept (Sources.ofSettings settings) importer raw := by
  induction pieces generalizing answers with
  | nil =>
      cases hAnswers
      exact ⟨.nil, by simp [answered, raws]⟩
  | cons piece pieces ih =>
      obtain ⟨hPiece, hOthers⟩ := List.forall_mem_cons.mp hSound
      cases piece with
      | verbatim text => exact ih hOthers hAnswers
      | target quote raw =>
          cases hAnswers with
          | @cons _ answer _ answers hAnswer hAnswers =>
              obtain ⟨trusted, rfl⟩ := hAnswer
              obtain ⟨hFits, hKept⟩ := kept_of_answer hNormal h hImporter hPiece.2
              obtain ⟨hFitsLater, hKeptLater⟩ := ih hOthers hAnswers
              exact ⟨.cons hFits hFitsLater, List.forall_mem_cons.mpr ⟨hKept, hKeptLater⟩⟩

/-- The targets that are asked for, among the pieces of a script. -/
theorem asked_eq (script : String) :
    asked script = (raws (survey script.toList).pieces).filterMap fun raw =>
      if raw.contains '\\' then none else some (String.ofList raw) := by
  obtain ⟨rest, hText, -⟩ := survey_text script.toList
  rw [← spansFrom_text 0 hText, List.filterMap_map]
  rfl

/-- Linking settles. Take settings in normal form whose public prefix, vendor segment and address of the
CDN hold no line end, and whose address of the CDN, if it is used, starts with a slash or a scheme; and
take an importer that is a source module, or a module of a package whose file and whose name hold no line
end. When linking a script gives an output, linking the output gives the same output again, whatever is
installed and trusted then; it asks for no bare target, so that it resolves no package, and it leaves the
trusted packages as they are. -/
theorem link_settles {script out : String} (hNormal : written.normalize = .ok settings)
    (h : Linkable settings) (hImporter : importer.SingleLine)
    (hOut : ((link (Sources.ofSettings settings) fs importer script).run trusted).1 = .ok out) :
    (∀ specifier ∈ asked out, Specifier.kind specifier ≠ .bare) ∧
      ∀ (later : FileSystem) (known : Trust.Registry),
        (link (Sources.ofSettings settings) later importer out).run known = (.ok out, known) := by
  obtain ⟨hAccepted, hWritten⟩ := toList_of_relink hOut
  obtain ⟨z, hScans, -⟩ := scans_survey script.toList
  have hSound := hScans.sound (within_initial script.toList).atQuote
  obtain ⟨hFits, hKept⟩ :=
    kept_answered hNormal h hImporter hSound (mapM_ask _ (raws (survey script.toList).pieces) trusted)
  have hSurvey := survey_answered (String.ofList_toList ▸ hAccepted) hFits
  rw [← hWritten] at hSurvey
  refine ⟨fun specifier hAsked => ?_, fun later known => ?_⟩
  · obtain ⟨raw, hRaw, hSpecifier⟩ := List.mem_filterMap.mp (asked_eq out ▸ hAsked)
    rw [hSurvey] at hRaw
    split at hSpecifier
    · cases hSpecifier
    · rename_i hPlain
      obtain rfl := Option.some.inj hSpecifier
      exact ((hKept raw hRaw).resolve_left fun hEscape =>
        hPlain (List.contains_iff_mem.mpr hEscape)).1
  · have hClosed : failure? out = none := congrArg Survey.failure hSurvey
    have hAgain := relinkAll_kept hKept later known
    rw [← hWritten] at hAgain
    rw [link, relink_eq_relinkAll, hClosed, hSurvey, StateT.run_bind, hAgain]
    show (Except.ok (String.ofList out.toList), known) = _
    rw [String.ofList_toList]

/-- A package whose name has a line end. Its directory is a link to where its files lie. -/
def lineFiles : FileSystem where
  root := .directory
    [("node_modules", .directory [("a\nb", .symlink "/real")]),
      ("real", .directory [("m.js", .file ⟨"import './x.js';".toUTF8, 0⟩), ("x.js", .file ⟨"".toUTF8, 0⟩)])]

def lineModule (package : String) : Located :=
  ⟨package, ⟨"/real"⟩, ⟨"/real/m.js"⟩⟩

def mirrorSettings : Settings :=
  { cdnEnabled := true }

theorem mirrorSettings_linkable : Linkable mirrorSettings :=
  ⟨by decide, by decide, by decide, fun _ => .inr (by decide)⟩

theorem link_settles_package :
    mirrorSettings.normalize = .ok mirrorSettings ∧ Linkable mirrorSettings ∧
      Importer.SingleLine (.package (lineModule "ab")) ∧
      ∀ (later : FileSystem) (known : Trust.Registry),
        (link (Sources.ofSettings mirrorSettings) later (.package (lineModule "ab"))
          "import 'https://esm.sh/p'; import '/modules/vendor/ab/x.js';").run known =
            (.ok "import 'https://esm.sh/p'; import '/modules/vendor/ab/x.js';", known) := by
  have hNormal : mirrorSettings.normalize = .ok mirrorSettings := by decide +kernel
  have hImporter : Importer.SingleLine (.package (lineModule "ab")) := by decide
  have hOut : ((link (Sources.ofSettings mirrorSettings) lineFiles (.package (lineModule "ab"))
      "import 'p'; import './x.js';").run {}).1 =
        .ok "import 'https://esm.sh/p'; import '/modules/vendor/ab/x.js';" := by decide +kernel
  exact ⟨hNormal, mirrorSettings_linkable, hImporter,
    (link_settles hNormal mirrorSettings_linkable hImporter hOut).2⟩

/-- The name of the package counts. It is written into the output, and a line end in it breaks the literal
off, so that the output cannot be linked again. -/
theorem link_unsettled :
    mirrorSettings.normalize = .ok mirrorSettings ∧ Linkable mirrorSettings ∧
      (Sources.ofSettings mirrorSettings).locate? lineFiles "a\nb/m.js" = some (lineModule "a\nb") ∧
      SingleLine (lineModule "a\nb").file.text ∧
      ((link (Sources.ofSettings mirrorSettings) lineFiles (.package (lineModule "a\nb"))
        "import './x.js';").run {}).1 = .ok "import '/modules/vendor/a\nb/x.js';" ∧
      ((link (Sources.ofSettings mirrorSettings) lineFiles (.package (lineModule "a\nb"))
        "import '/modules/vendor/a\nb/x.js';").run {}).1 = .error ⟨.string, 7⟩ :=
  ⟨by decide +kernel, mirrorSettings_linkable, by decide +kernel, by decide, by decide +kernel,
    by decide +kernel⟩

end ModuleGateway.Relink
