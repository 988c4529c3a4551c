import ModuleGateway.Proofs.Package.Resolve
import ModuleGateway.Proofs.Relink.Splicing
import ModuleGateway.Relink.Importer

/-!
What linking a script trusts: the packages of the bare specifiers that it asks for and finds installed,
also when it fails at the end.
-/

namespace ModuleGateway.Relink

open Package (Sources)

/-- The targets that linking a script asks for, from left to right. -/
def asked (script : String) : List String :=
  (spans script).filterMap fun span =>
    let raw := span.text script.toList
    if raw.contains '\\' then none else some (String.ofList raw)

/-- A target without a backslash is asked for. -/
theorem mem_asked {script : String} {span : Span} (hSpan : span ∈ spans script)
    (hPlain : ¬(span.text script.toList).contains '\\' = true) :
    String.ofList (span.text script.toList) ∈ asked script :=
  List.mem_filterMap.mpr ⟨span, hSpan, if_neg hPlain⟩

/-- A map that writes down what it is asked for. -/
def recording (answer : String → Option String) (specifier : String) :
    StateM (List String) (Option String) := do
  modify (· ++ [specifier])
  pure (answer specifier)

/-- Whatever a map answers, and whether or not the scan ends in an error, the map is asked for the same
targets. -/
theorem relink_recording (answer : String → Option String) (script : String) :
    ((relink (recording answer) script).run []).2 = asked script := by
  have hFrom (spans : List Span) (before : List String) :
      ((spans.mapM fun span => ask (recording answer) (span.text script.toList)).run before).2 =
        before ++ spans.filterMap fun span =>
          let raw := span.text script.toList
          if raw.contains '\\' then none else some (String.ofList raw) := by
    induction spans generalizing before with
    | nil => exact (List.append_nil before).symm
    | cons span rest ih =>
        have hRun : (((span :: rest).mapM fun span =>
            ask (recording answer) (span.text script.toList)).run before).2 =
              ((rest.mapM fun span => ask (recording answer) (span.text script.toList)).run
                ((ask (recording answer) (span.text script.toList)).run before).2).2 := by
          rw [List.mapM_cons]
          rfl
        rw [hRun, ih]
        unfold ask
        cases hEscape : (span.text script.toList).contains '\\' with
        | true =>
            simp only [List.filterMap_cons, hEscape, if_true]
            rfl
        | false =>
            simp only [List.filterMap_cons, hEscape, Bool.false_eq_true, if_false]
            exact List.append_assoc before [_] _
  have hRelink : ((relink (recording answer) script).run []).2 =
      (((spans script).mapM fun span =>
        ask (recording answer) (span.text script.toList)).run []).2 := by
    rw [relink_run]
    rfl
  rw [hRelink, hFrom, asked, List.nil_append]

/-- The targets that linking a script finds among the installed packages. -/
def resolved (sources : Sources) (fs : FileSystem) (script : String) : List String :=
  (asked script).filter fun s =>
    Specifier.kind s = .bare && (sources.resolve fs s).package?.isSome

theorem trusted_pure {α : Type} (a : α) (trusted : Trust.Registry) :
    ((pure a : StateM Trust.Registry α).run trusted).2 = trusted := rfl

section Targets

variable {sources : Sources} {fs : FileSystem} {importer : Importer} {m : Package.Located}
  {specifier : String} {trusted : Trust.Registry}

theorem mapTarget_source (hKind : Specifier.kind specifier = .relative) :
    mapTarget sources fs .source specifier = pure (withExtension? specifier) := by
  unfold mapTarget
  rw [hKind]

theorem mapTarget_package (hKind : Specifier.kind specifier = .relative) :
    mapTarget sources fs (.package m) specifier = pure (insidePath? sources m specifier) := by
  unfold mapTarget
  rw [hKind]

theorem mapTarget_bare (hKind : Specifier.kind specifier = .bare) :
    ((mapTarget sources fs importer specifier).run trusted).1 =
      some (sources.rendered specifier (sources.resolve fs specifier)) := by
  have hResolution : ((sources.resolveTrusting fs specifier).run trusted).1 =
      sources.resolve fs specifier := by rw [Sources.resolveTrusting_run]
  unfold mapTarget
  rw [hKind, ← hResolution]
  rfl

end Targets

/-- Asking for a target trusts the installed package that provides it, if the target is bare. -/
theorem contains_mapTarget (sources : Sources) (fs : FileSystem) (importer : Importer)
    (specifier name : String) (trusted : Trust.Registry) :
    ((mapTarget sources fs importer specifier).run trusted).2.contains name = true ↔
      trusted.contains name = true ∨
        (Specifier.kind specifier = .bare ∧
          (sources.resolve fs specifier).package? = some name ∧ name ≠ "") := by
  by_cases hKind : Specifier.kind specifier = .bare
  · have hRun : ((mapTarget sources fs importer specifier).run trusted).2 =
        ((sources.resolveTrusting fs specifier).run trusted).2 := by
      unfold mapTarget
      rw [hKind]
      rfl
    rw [hRun, Sources.contains_resolveTrusting]
    simp [hKind]
  · have hRun : ((mapTarget sources fs importer specifier).run trusted).2 = trusted := by
      unfold mapTarget
      cases hOther : Specifier.kind specifier with
      | bare => exact absurd hOther hKind
      | relative => cases importer <;> rfl
      | rootAbsolute => rfl
      | url => rfl
    rw [hRun]
    simp [hKind]

/-- Asking for several targets trusts what asking for each of them trusts. -/
theorem contains_mapM {α β : Type} {grants : α → String → Prop} (query : α → StateM Trust.Registry β)
    (hQuery : ∀ a name (trusted : Trust.Registry),
      ((query a).run trusted).2.contains name = true ↔
        trusted.contains name = true ∨ grants a name)
    (items : List α) (name : String) (trusted : Trust.Registry) :
    ((items.mapM query).run trusted).2.contains name = true ↔
      trusted.contains name = true ∨ ∃ a ∈ items, grants a name := by
  induction items generalizing trusted with
  | nil =>
      rw [List.mapM_nil, trusted_pure]
      simp
  | cons a rest ih =>
      have hRun : (((a :: rest).mapM query).run trusted).2 =
          ((rest.mapM query).run ((query a).run trusted).2).2 := by
        simp only [List.mapM_cons]
        rfl
      rw [hRun, ih, hQuery]
      simp [or_assoc]

theorem package?_eq_some {sources : Sources} {fs : FileSystem} {specifier package : String}
    (h : (sources.resolve fs specifier).package? = some package) :
    package = Specifier.packageName specifier :=
  (Sources.package?_eq_some_iff.mp h).2.2

theorem mem_resolved {sources : Sources} {fs : FileSystem} {script specifier : String} :
    specifier ∈ resolved sources fs script ↔
      specifier ∈ asked script ∧ Specifier.kind specifier = .bare ∧
        (sources.resolve fs specifier).package? = some (Specifier.packageName specifier) := by
  rw [resolved, List.mem_filter, Bool.and_eq_true, decide_eq_true_eq, Option.isSome_iff_exists]
  refine and_congr_right fun _ => and_congr_right fun _ => ⟨?_, fun h => ⟨_, h⟩⟩
  rintro ⟨package, hPackage⟩
  rw [hPackage, package?_eq_some hPackage]

theorem contains_ask (sources : Sources) (fs : FileSystem) (importer : Importer) (raw : List Char)
    (name : String) (trusted : Trust.Registry) :
    ((ask (mapTarget sources fs importer) raw).run trusted).2.contains name = true ↔
      trusted.contains name = true ∨
        (raw.contains '\\' = false ∧ Specifier.kind (String.ofList raw) = .bare ∧
          (sources.resolve fs (String.ofList raw)).package? = some name ∧ name ≠ "") := by
  unfold ask
  cases hEscape : raw.contains '\\' with
  | true =>
      rw [if_pos rfl, trusted_pure]
      simp
  | false =>
      rw [if_neg (by simp), contains_mapTarget]
      simp

/-- Linking asks for all targets of the script and then splices the answers in. -/
theorem link_run (sources : Sources) (fs : FileSystem) (importer : Importer) (script : String)
    (trusted : Trust.Registry) :
    (link sources fs importer script).run trusted =
      let answered := ((spans script).mapM fun span =>
        ask (mapTarget sources fs importer) (span.text script.toList)).run trusted
      (conclude script.toList [] 0 ((spans script).zip answered.1) (failure? script), answered.2) := by
  rw [link, relink_run]
  rfl

/-- Linking trusts the packages of the targets that it finds installed, and no others. -/
theorem contains_link (sources : Sources) (fs : FileSystem) (importer : Importer)
    (script name : String) (trusted : Trust.Registry) :
    ((link sources fs importer script).run trusted).2.contains name = true ↔
      trusted.contains name = true ∨
        (name ≠ "" ∧ ∃ s ∈ resolved sources fs script, Specifier.packageName s = name) := by
  rw [link_run, contains_mapM _ (fun span => contains_ask sources fs importer _)]
  refine or_congr_right ⟨?_, ?_⟩
  · rintro ⟨span, hSpan, hEscape, hBare, hPackage, hName⟩
    obtain rfl := package?_eq_some hPackage
    refine ⟨hName, _, mem_resolved.mpr ⟨?_, hBare, hPackage⟩, rfl⟩
    exact mem_asked hSpan (by simpa using hEscape)
  · rintro ⟨hName, s, hResolved, rfl⟩
    obtain ⟨hAsked, hBare, hPackage⟩ := mem_resolved.mp hResolved
    obtain ⟨span, hSpan, hText⟩ := List.mem_filterMap.mp hAsked
    dsimp only at hText
    split at hText
    · cases hText
    · rename_i hEscape
      cases hText
      exact ⟨span, hSpan, by simpa using hEscape, hBare, hPackage, hName⟩

/-! ### What linking depends on -/

/-- Queries whose answers do not depend on the state give the same answers from any state. -/
theorem mapM_answers {σ α β : Type} {query : α → StateM σ β}
    (hQuery : ∀ a (s t : σ), ((query a).run s).1 = ((query a).run t).1) (items : List α) (s t : σ) :
    ((items.mapM query).run s).1 = ((items.mapM query).run t).1 := by
  have hCons (a : α) (rest : List α) (s : σ) : (((a :: rest).mapM query).run s).1 =
      ((query a).run s).1 :: ((rest.mapM query).run ((query a).run s).2).1 := by
    rw [List.mapM_cons]
    rfl
  induction items generalizing s t with
  | nil => rfl
  | cons a rest ih => rw [hCons, hCons, hQuery a s t, ih ((query a).run s).2 ((query a).run t).2]

/-- Queries that leave a state alone leave it alone together. -/
theorem mapM_state {σ α β : Type} {query : α → StateM σ β} {items : List α} {s : σ}
    (hQuery : ∀ a ∈ items, ((query a).run s).2 = s) : ((items.mapM query).run s).2 = s := by
  induction items with
  | nil => rfl
  | cons a rest ih =>
      obtain ⟨hFirst, hRest⟩ := List.forall_mem_cons.mp hQuery
      have hRun : (((a :: rest).mapM query).run s).2 =
          ((rest.mapM query).run ((query a).run s).2).2 := by
        rw [List.mapM_cons]
        rfl
      rw [hRun, hFirst, ih hRest]

variable {sources : Sources} {fs other : FileSystem} {importer : Importer} {script : String}

theorem mapTarget_answer (specifier : String) (trusted other : Trust.Registry) :
    ((mapTarget sources fs importer specifier).run trusted).1 =
      ((mapTarget sources fs importer specifier).run other).1 := by
  unfold mapTarget
  cases Specifier.kind specifier with
  | bare =>
      have hRun (trusted : Trust.Registry) : ((sources.resolveTrusting fs specifier).run trusted).1 =
          sources.resolve fs specifier := by rw [Sources.resolveTrusting_run]
      show some (sources.rendered specifier ((sources.resolveTrusting fs specifier).run trusted).1) =
        some (sources.rendered specifier ((sources.resolveTrusting fs specifier).run other).1)
      rw [hRun, hRun]
  | relative => cases importer <;> rfl
  | rootAbsolute => rfl
  | url => rfl

/-- What linking makes of a script does not depend on what is trusted. -/
theorem link_output (trusted other : Trust.Registry) :
    ((link sources fs importer script).run trusted).1 =
      ((link sources fs importer script).run other).1 := by
  have hAsk (span : Span) (s t : Trust.Registry) :
      ((ask (mapTarget sources fs importer) (span.text script.toList)).run s).1 =
        ((ask (mapTarget sources fs importer) (span.text script.toList)).run t).1 := by
    unfold ask
    split
    · rfl
    · exact mapTarget_answer _ s t
  simp only [link_run]
  rw [mapM_answers hAsk _ trusted other]

/-- Linking fails exactly when the scan of the script does. -/
theorem link_error_iff {trusted : Trust.Registry} {e : Unterminated} :
    ((link sources fs importer script).run trusted).1 = .error e ↔ failure? script = some e := by
  rw [link_run]
  unfold conclude
  cases failure? script <;> simp

theorem mapM_congr {m : Type → Type} [Monad m] [LawfulMonad m] {α β : Type} {query other : α → m β}
    {items : List α} (hSame : ∀ a ∈ items, query a = other a) : items.mapM query = items.mapM other := by
  induction items with
  | nil => simp only [List.mapM_nil]
  | cons a rest ih =>
      obtain ⟨hFirst, hRest⟩ := List.forall_mem_cons.mp hSame
      rw [List.mapM_cons, List.mapM_cons, hFirst, ih hRest]

/-- Linking looks at the file system only to find the packages of the targets that it asks for. -/
theorem link_congr (hPackages : ∀ s ∈ asked script, Specifier.kind s = .bare →
    sources.locate? other s = sources.locate? fs s) :
    link sources other importer script = link sources fs importer script := by
  rw [link, link, relink_run, relink_run]
  refine congrArg (· >>= _) (mapM_congr fun span hSpan => ?_)
  unfold ask
  split
  · rfl
  · rename_i hPlain
    unfold mapTarget
    split
    · rfl
    · rfl
    · rename_i hBare
      have hResolve : sources.resolve other (String.ofList (span.text script.toList)) =
          sources.resolve fs (String.ofList (span.text script.toList)) := by
        rw [Sources.resolve, Sources.resolve, hPackages _ (mem_asked hSpan hPlain) hBare]
      unfold Sources.resolveTrusting
      rw [hResolve]
    · rfl

/-- Linking a script again trusts nothing new. -/
theorem link_again {before later : Trust.Registry}
    (hTrusted : ∀ name, ((link sources fs importer script).run before).2.contains name = true →
      later.contains name = true) :
    ((link sources fs importer script).run later).2 = later := by
  rw [link_run]
  refine mapM_state fun span hSpan => ?_
  unfold ask
  split
  · rfl
  · rename_i hPlain
    unfold mapTarget
    split
    · rfl
    · rfl
    · rename_i hBare
      show ((sources.resolveTrusting fs _).run later).2 = later
      rw [Sources.resolveTrusting_run]
      dsimp only
      split
      · rename_i package path hInstalled
        refine Trust.Registry.register_known fun hName => hTrusted _ ?_
        obtain ⟨hGlobal, hFound, rfl, -⟩ := Sources.resolve_eq_installed_iff.mp hInstalled
        rw [Specifier.packageName_packageName] at hName ⊢
        refine (contains_link _ _ _ _ _ _).mpr (.inr ⟨hName, _, mem_resolved.mpr ⟨?_, hBare, ?_⟩, rfl⟩)
        · exact mem_asked hSpan hPlain
        · rw [hInstalled]
          rfl
      · rfl
    · cases importer <;> rfl

end ModuleGateway.Relink
