import ModuleGateway.Proofs.Gateway.Following

/-!
The router and the public paths of vendor modules are inverse to each other. Both treat the prefix
`/` apart, and they agree on it: the vendor branch is entered with a specifier exactly on the path
that the specifier is linked to.
-/

namespace ModuleGateway

/-- Neither a query nor a fragment begins in the text. -/
def Request.Unmarked (text : String) : Prop :=
  '?' ∉ text.toList ∧ '#' ∉ text.toList

/-- What stands behind an unmarked text counts only from the first mark on. -/
theorem Request.path_of_append {r : Request} {text suffix : String}
    (hTarget : r.target = text ++ suffix) (hText : Unmarked text)
    (hSuffix : ∀ c ∈ suffix.toList.head?, c = '?' ∨ c = '#') : r.path = text := by
  have hInside : ∀ c ∈ text.toList, (c ≠ '?' && c ≠ '#') = true := by
    intro c hMem
    have hQuery : c ≠ '?' := fun h => hText.1 (h ▸ hMem)
    have hFragment : c ≠ '#' := fun h => hText.2 (h ▸ hMem)
    simp [hQuery, hFragment]
  have hBehind : suffix.toList.takeWhile (fun c => c ≠ '?' && c ≠ '#') = [] := by
    cases hChars : suffix.toList with
    | nil => rfl
    | cons c rest =>
        have hMark := hSuffix c (by simp [hChars])
        refine List.takeWhile_cons_of_neg ?_
        rcases hMark with rfl | rfl <;> decide
  rw [Request.path, hTarget, String.toList_append, List.takeWhile_append_of_pos hInside, hBehind,
    List.append_nil, String.ofList_toList]

namespace Settings

variable {written settings : Settings}

/-- The paths that are the gateway's: something stands below the public prefix. -/
def Owns (settings : Settings) (path : String) : Prop :=
  ∃ rest, rest ≠ "" ∧
    (path = settings.publicPrefix ++ "/" ++ rest ∨ settings.publicPrefix = "/" ∧ path = "/" ++ rest)

theorem subset_of_bare (text : String) : bare text ⊆ text.toList := by
  intro c hMem
  obtain ⟨tail, hStart, -⟩ := Text.trimEnd_append (· = '/') (Text.trimStart (· = '/') text.toList)
  have hInside : c ∈ Text.trimStart (· = '/') text.toList := by
    rw [hStart]
    exact List.mem_append_left _ hMem
  exact (List.dropWhile_sublist _).subset hInside

/-- A target lies below the public prefix when its path does. -/
theorem Owns.target {r : Request} (h : settings.Owns r.path) : settings.Owns r.target := by
  obtain ⟨tail, hTail⟩ := List.takeWhile_prefix (fun c => c ≠ '?' && c ≠ '#') (l := r.target.toList)
  have hTarget : r.target = r.path ++ String.ofList tail := by
    rw [← String.toList_inj, String.toList_append, Request.path, String.toList_ofList,
      String.toList_ofList, hTail]
  obtain ⟨rest, hRest, hPath⟩ := h
  have hMore : rest ++ String.ofList tail ≠ "" := by
    intro h
    refine hRest (String.toList_inj.mp ?_)
    have hEmpty := congrArg String.toList h
    rw [String.toList_append] at hEmpty
    exact (List.append_eq_nil_iff.mp hEmpty).1
  refine ⟨rest ++ String.ofList tail, hMore, ?_⟩
  rw [hTarget]
  rcases hPath with hPath | ⟨hPrefix, hPath⟩
  · exact .inl (by rw [hPath, String.append_assoc])
  · exact .inr ⟨hPrefix, by rw [hPath, String.append_assoc]⟩

/-- The normal form of the public prefix and of the vendor segment has no character but slashes that
was not written. -/
theorem unmarked_of_normalize (hNormal : written.normalize = .ok settings)
    (hPrefix : Request.Unmarked written.publicPrefix)
    (hSegment : Request.Unmarked written.vendorSegment) :
    Request.Unmarked settings.publicPrefix ∧ Request.Unmarked settings.vendorSegment := by
  have hParts : settings.publicPrefix = String.ofList ('/' :: bare written.publicPrefix) ∧
      settings.vendorSegment = String.ofList (bare written.vendorSegment) := by
    unfold normalize at hNormal
    dsimp only at hNormal
    split_ifs at hNormal
    cases hNormal
    exact ⟨rfl, rfl⟩
  have hBare {text : String} (hText : Request.Unmarked text) :
      '?' ∉ bare text ∧ '#' ∉ bare text :=
    ⟨fun h => hText.1 (subset_of_bare text h), fun h => hText.2 (subset_of_bare text h)⟩
  rw [hParts.1, hParts.2]
  refine ⟨?_, ?_⟩
  · simpa [Request.Unmarked] using hBare hPrefix
  · simpa [Request.Unmarked] using hBare hSegment

end Settings

namespace Route

variable {settings : Settings} {path rest : List Char} {text specifier : String}

/-- What a path loses before it is looked at: nothing when the public prefix is a slash. -/
def front (settings : Settings) : List Char :=
  if settings.publicPrefix = "/" then [] else settings.publicPrefix.toList

theorem below?_eq_some_iff :
    below? settings path = some rest ↔
      path = front settings ++ rest ∧ rest.head? = some '/' ∧ rest ≠ ['/'] := by
  have hChecked (whole : List Char) :
      (if whole.head? = some '/' && whole ≠ ['/'] then some whole else none) = some rest ↔
        whole = rest ∧ rest.head? = some '/' ∧ rest ≠ ['/'] := by
    grind
  rw [below?, front]
  split
  · rw [List.nil_append]
    exact hChecked path
  · rw [Option.bind_eq_bind, Option.bind_eq_some_iff]
    simp only [hChecked]
    constructor
    · rintro ⟨whole, hWhole, rfl, hRest⟩
      exact ⟨(List.isPrefixOf?_eq_some_iff_append_eq.mp hWhole).symm, hRest⟩
    · rintro ⟨hWhole, hRest⟩
      exact ⟨rest, List.isPrefixOf?_eq_some_iff_append_eq.mpr hWhole.symm, rfl, hRest⟩

/-- A public path is the prefix, the vendor segment and the specifier, whatever the prefix is. -/
theorem toList_publicPath (settings : Settings) (specifier : String) :
    ((Package.Sources.ofSettings settings).publicPath specifier).toList =
      front settings ++ (vendorMark settings ++ specifier.toList) := by
  by_cases hPrefix : settings.publicPrefix = "/" <;>
    simp [front, hPrefix, Package.Sources.publicPath, Package.Sources.ofSettings,
      Settings.vendorPrefix, vendorMark]

theorem ofPath?_eq_vendor_iff :
    ofPath? settings text = some (.vendor specifier) ↔
      text = (Package.Sources.ofSettings settings).publicPath specifier := by
  constructor
  · intro h
    obtain ⟨rest, hBelow, hBranch⟩ := Option.bind_eq_some_iff.mp h
    obtain ⟨hText, -, -⟩ := below?_eq_some_iff.mp hBelow
    split at hBranch
    · rename_i inner hVendor
      cases hBranch
      have hRest := List.isPrefixOf?_eq_some_iff_append_eq.mp hVendor
      rw [← String.toList_inj, toList_publicPath, String.toList_ofList, hRest, hText]
    · cases hBranch
  · rintro rfl
    exact ofPath?_publicPath settings specifier

/-- Every path that asks for something lies below the public prefix. -/
theorem owns_of_ofPath? {route : Route} (h : ofPath? settings text = some route) :
    settings.Owns text := by
  obtain ⟨rest, hBelow, -⟩ := Option.bind_eq_some_iff.mp h
  obtain ⟨hText, hHead, hMore⟩ := below?_eq_some_iff.mp hBelow
  obtain ⟨inner, rfl⟩ := List.head?_eq_some_iff.mp hHead
  have hSome : inner ≠ [] := fun h => hMore (by rw [h])
  refine ⟨String.ofList inner, fun h => hSome ?_, ?_⟩
  · rw [← String.toList_ofList (l := inner), h]
    rfl
  · by_cases hPrefix : settings.publicPrefix = "/"
    · right
      refine ⟨hPrefix, ?_⟩
      rw [← String.toList_inj, hText, front, if_pos hPrefix]
      simp
    · left
      rw [← String.toList_inj, hText, front, if_neg hPrefix]
      simp

end Route

namespace Gateway

variable (g : Gateway) {r : Request} {specifier : String}

/-- The branch that a request is dispatched to, if any. -/
def dispatch (r : Request) : Option Route :=
  if r.method = .other then none else Route.ofPath? g.settings r.path

/-- Where each branch begins. -/
def enter : Route → Progress
  | .source path => .resolving path (AssetKind.ofPath path)
  | .vendor specifier =>
    if !Specifier.isServable specifier then .answered .pass
    else
      match g.sources.global? specifier with
      | some expression =>
        .answered (transientResponse .script (Diagnostic.globalShim expression))
      | none => .recalling specifier

/-- Answers a request from where it stands. -/
def conclude (w : World) (r : Request) (p : Progress) : Reply × World :=
  match g.looks r w longestLook p with
  | .answered reply => (reply.fit r.method, w)
  | .building b =>
    let (outcome, worked) := g.work (w.join onlyClient b) b
    ((g.replyOf b outcome).fit r.method, worked.wake.2)
  | _ => (.pass, w)

/-- Answers a request in the branch that it was dispatched to. -/
def answer (w : World) (r : Request) : Option Route → Reply × World
  | some route => g.conclude w r (g.enter route)
  | none => (.pass, w)

theorem handle_eq_answer (w : World) (r : Request) :
    g.handle w r = g.answer w r (g.dispatch r) := by
  have hStart : g.handle w r = g.conclude w r (g.start r) := rfl
  by_cases hMethod : r.method = .other
  · rw [hStart, dispatch, start, if_pos hMethod, if_pos hMethod]
    rfl
  · rw [hStart, dispatch, start, if_neg hMethod, if_neg hMethod]
    cases Route.ofPath? g.settings r.path with
    | none => rfl
    | some route => cases route <;> rfl

theorem dispatch_eq_vendor_iff :
    g.dispatch r = some (.vendor specifier) ↔
      r.method ≠ .other ∧ r.path = g.sources.publicPath specifier := by
  rw [dispatch]
  split
  · simp_all
  · rename_i hMethod
    rw [Route.ofPath?_eq_vendor_iff]
    exact ⟨fun h => ⟨hMethod, h⟩, And.right⟩

/-- Nothing is cut from an unmarked specifier behind an unmarked prefix and segment. -/
theorem unmarked_publicPath (hPrefix : Request.Unmarked g.settings.publicPrefix)
    (hSegment : Request.Unmarked g.settings.vendorSegment)
    (hSpecifier : Request.Unmarked specifier) :
    Request.Unmarked (g.sources.publicPath specifier) := by
  have hFront : '?' ∉ Route.front g.settings ∧ '#' ∉ Route.front g.settings := by
    rw [Route.front]
    split
    · exact ⟨List.not_mem_nil, List.not_mem_nil⟩
    · exact hPrefix
  have hChars : (g.sources.publicPath specifier).toList = _ :=
    Route.toList_publicPath g.settings specifier
  rw [Request.Unmarked, hChars]
  simp only [Route.vendorMark, List.mem_append, List.mem_cons, not_or]
  obtain ⟨hPrefixQuery, hPrefixFragment⟩ := hFront
  obtain ⟨hSegmentQuery, hSegmentFragment⟩ := hSegment
  obtain ⟨hQuery, hFragment⟩ := hSpecifier
  simp [*]

/-- A request is answered in the branch that it is dispatched to. The public path of a specifier leads
to the vendor branch with this specifier, whatever query or fragment stands behind it, and no other
path does; what does not lie below the public prefix, with or without its query and fragment, is
passed on. -/
theorem dispatch_inverts_publicPath {written : Settings}
    (hNormal : written.normalize = .ok g.settings)
    (hPrefix : Request.Unmarked written.publicPrefix)
    (hSegment : Request.Unmarked written.vendorSegment) :
    (∀ w r, g.handle w r = g.answer w r (g.dispatch r)) ∧
    (∀ r specifier suffix, r.method = .get → Request.Unmarked specifier →
      (∀ c ∈ suffix.toList.head?, c = '?' ∨ c = '#') →
      r.target = g.sources.publicPath specifier ++ suffix →
      g.dispatch r = some (.vendor specifier)) ∧
    (∀ r specifier, g.dispatch r = some (.vendor specifier) →
      r.path = g.sources.publicPath specifier) ∧
    ∀ w r, ¬ g.settings.Owns r.target ∨ ¬ g.settings.Owns r.path → g.handle w r = (.pass, w) := by
  obtain ⟨hFree, hFreeSegment⟩ := Settings.unmarked_of_normalize hNormal hPrefix hSegment
  refine ⟨g.handle_eq_answer, ?_, fun r specifier h => (g.dispatch_eq_vendor_iff.mp h).2, ?_⟩
  · intro r specifier suffix hMethod hSpecifier hSuffix hTarget
    have hPath := Request.path_of_append hTarget
      (g.unmarked_publicPath hFree hFreeSegment hSpecifier) hSuffix
    refine g.dispatch_eq_vendor_iff.mpr ⟨?_, hPath⟩
    rw [hMethod]
    decide
  · intro w r hEither
    have hForeign : ¬ g.settings.Owns r.path := by
      intro hOwns
      exact hEither.elim (fun h => h hOwns.target) (fun h => h hOwns)
    have hNone : g.dispatch r = none := by
      rw [dispatch]
      split
      · rfl
      · cases hRoute : Route.ofPath? g.settings r.path with
        | none => rfl
        | some route => exact absurd (Route.owns_of_ofPath? hRoute) hForeign
    rw [handle_eq_answer, hNone]
    rfl

/-- A gateway below a prefix of two segments with an empty one between them. -/
def nestedGateway : Gateway where
  settings := { publicPrefix := "/assets//js", vendorSegment := "npm" }
  root := ["src"]
  store := { directory := ⟨".kiln/cache"⟩ }
  compiler := fun unit => .done unit.source

theorem dispatch_inverts_nested :
    nestedGateway.dispatch { target := "/assets//js/npm/preact/hooks?v=3#top" } =
      some (.vendor "preact/hooks") ∧
    ∀ w, nestedGateway.handle w { target := "/assets//jsx/npm/preact" } = (.pass, w) := by
  have hNormal : Settings.normalize { publicPrefix := "//assets//js/", vendorSegment := "/npm/" } =
      .ok nestedGateway.settings := by decide +kernel
  obtain ⟨-, hVendor, -, hForeign⟩ := dispatch_inverts_publicPath nestedGateway hNormal
    ⟨by decide +kernel, by decide +kernel⟩ ⟨by decide +kernel, by decide +kernel⟩
  have hOutside : ¬ nestedGateway.settings.Owns "/assets//jsx/npm/preact" := by
    rintro ⟨rest, -, hBelow | ⟨hRoot, -⟩⟩
    · have hChars := congrArg (fun text => text.toList[11]?) hBelow
      simp [nestedGateway] at hChars
    · exact absurd hRoot (by decide +kernel)
  have hSuffix : ∀ c ∈ "?v=3#top".toList.head?, c = '?' ∨ c = '#' := by simp
  have hTarget : "/assets//js/npm/preact/hooks?v=3#top" =
      nestedGateway.sources.publicPath "preact/hooks" ++ "?v=3#top" := by decide +kernel
  refine ⟨?_, fun w => hForeign w _ (.inl hOutside)⟩
  exact hVendor _ "preact/hooks" "?v=3#top" rfl ⟨by decide +kernel, by decide +kernel⟩ hSuffix
    hTarget

end Gateway

end ModuleGateway
