import ModuleGateway.Proofs.Source.Outside

/-!
Requests without two dots. The way to what such a request may mean goes down to the source root and on
from there. When there is no link in the root it never leaves the root again, so that nothing outside
has a part in the answer. Links above the root do not matter: the root's own location passes none.
-/

namespace ModuleGateway

open FileSystem

/-- No segment is two dots. -/
def Path.Plain (p : Path) : Prop :=
  ".." ∉ p.segments

instance (p : Path) : Decidable p.Plain :=
  inferInstanceAs (Decidable (¬_))

namespace Source

variable {fs other : FileSystem} {root l here : Location} {candidate base tail request : String}
  {kind : AssetKind}

/-! ### What a plain request may mean -/

theorem scriptExtensions_end : ∀ ext ∈ scriptExtensions,
    '/' ∉ ("." ++ ext).toList ∧ ("." ++ ext).toList.getLast? ≠ some '.' := by
  decide

theorem withExtensions_plain (hFree : '/' ∉ tail.toList) (hPlain : Path.Plain ⟨base ++ tail⟩) :
    ∀ c ∈ withExtensions base, Path.Plain ⟨c⟩ := by
  intro c hMem
  obtain ⟨ext, hExt, rfl⟩ := List.mem_map.mp hMem
  obtain ⟨hExtFree, hEnd⟩ := scriptExtensions_end ext hExt
  obtain ⟨front, last, hSplit⟩ := Text.split_append_free '/' base.toList
  intro hDots
  rw [Path.segments, String.append_assoc, String.toList_append, hSplit _ hExtFree, List.map_append,
    List.mem_append] at hDots
  rcases hDots with hFront | hLast
  · refine hPlain ?_
    rw [Path.segments, String.toList_append, hSplit _ hFree, List.map_append]
    exact List.mem_append_left _ hFront
  · have hText : "..".toList = last ++ ("." ++ ext).toList := by
      rw [List.mem_singleton.mp hLast, String.toList_ofList]
    have hDot : (last ++ ("." ++ ext).toList).getLast? = some '.' := by
      rw [← hText]
      rfl
    rw [List.getLast?_append_of_ne_nil _ (by simp)] at hDot
    exact hEnd hDot

theorem withExtensions_relative (hRelative : (⟨base ++ tail⟩ : Path).isAbsolute = false) :
    ∀ c ∈ withExtensions base, (⟨c⟩ : Path).isAbsolute = false := by
  intro c hMem
  obtain ⟨ext, -, rfl⟩ := List.mem_map.mp hMem
  cases hBase : base.toList with
  | nil => simp [Path.isAbsolute, hBase]
  | cons first rest => simpa [Path.isAbsolute, hBase] using hRelative

/-- The extension of a request is its text behind a dot and holds no slash. -/
theorem eq_of_stemAndExtension? {stem ext : String}
    (h : stemAndExtension? request = some (stem, ext)) :
    request = stem ++ ("." ++ ext) ∧ '/' ∉ ("." ++ ext).toList := by
  unfold stemAndExtension? at h
  obtain ⟨⟨before, after⟩, hCut, hRest⟩ := Option.bind_eq_some_iff.mp h
  dsimp only at hRest
  split at hRest
  · cases hRest
  · rename_i hSlash
    cases hRest
    obtain ⟨hText, -⟩ := Text.cutLast?_eq_some_iff.mp hCut
    constructor
    · rw [← String.toList_inj, hText]
      simp
    · simpa using fun hMem => hSlash (by simp [hMem])

/-- A candidate is the request as it is, or its text up to some place with another extension. -/
theorem mem_candidates (h : candidate ∈ candidates kind request) :
    candidate = request ∨
      ∃ base tail, request = base ++ tail ∧ '/' ∉ tail.toList ∧ candidate ∈ withExtensions base := by
  have hWhole (hMem : candidate ∈ withExtensions request) :
      ∃ base tail, request = base ++ tail ∧ '/' ∉ tail.toList ∧ candidate ∈ withExtensions base :=
    ⟨request, "", String.append_empty.symm, by simp, hMem⟩
  cases kind with
  | style => exact .inl (List.mem_singleton.mp h)
  | script =>
      rw [candidates, scriptCandidates] at h
      split at h
      · rename_i stem ext hParts
        obtain ⟨hText, hFree⟩ := eq_of_stemAndExtension? hParts
        split at h
        · exact .inr ⟨stem, "." ++ ext, hText, hFree, h⟩
        · split at h
          · exact .inl (List.mem_singleton.mp h)
          · exact .inr (hWhole h)
      · exact .inr (hWhole h)

theorem candidates_plain (hPlain : Path.Plain ⟨request⟩) :
    ∀ c ∈ candidates kind request, Path.Plain ⟨c⟩ := by
  intro c hMem
  rcases mem_candidates hMem with rfl | ⟨base, tail, rfl, hFree, hExtended⟩
  · exact hPlain
  · exact withExtensions_plain hFree hPlain c hExtended

theorem candidates_relative (hRelative : (⟨request⟩ : Path).isAbsolute = false) :
    ∀ c ∈ candidates kind request, (⟨c⟩ : Path).isAbsolute = false := by
  intro c hMem
  rcases mem_candidates hMem with rfl | ⟨base, tail, rfl, -, hExtended⟩
  · exact hRelative
  · exact withExtensions_relative hRelative c hExtended

theorem requested_relative : ∀ c ∈ requested kind request, (⟨c⟩ : Path).isAbsolute = false := by
  unfold requested
  dsimp only
  split
  · simp
  · refine candidates_relative ?_
    have hHead := List.head?_dropWhile_not (fun c : Char => decide (c = '/')) request.toList
    rw [Path.isAbsolute, String.toList_ofList, Text.trimStart]
    rcases hRest : (request.toList.dropWhile fun c => decide (c = '/')).head? with _ | c
    · rfl
    · rw [hRest] at hHead
      simpa using hHead

theorem requested_plain (hPlain : Path.Plain ⟨request⟩) :
    ∀ c ∈ requested kind request, Path.Plain ⟨c⟩ := by
  unfold requested
  dsimp only
  split
  · simp
  · refine candidates_plain fun hDots => hPlain ?_
    obtain ⟨part, hPart, hText⟩ := List.mem_map.mp hDots
    rw [String.toList_ofList] at hPart
    exact List.mem_map.mpr ⟨part, Text.mem_split_of_trimStart hPart, hText⟩

/-! ### The way down -/

theorem path_segments_candidate (hNamed : root.Named) (hSome : root ≠ [])
    (hRelative : (⟨candidate⟩ : Path).isAbsolute = false) :
    (root.path.join ⟨candidate⟩).segments = "" :: (root ++ (⟨candidate⟩ : Path).segments) := by
  rw [Path.segments, Path.join_of_relative _ hRelative,
    Location.lead_path (fun n hName => (hNamed n hName).1) hSome, String.append_assoc,
    String.toList_append, String.toList_append, show "/".toList = ['/'] from rfl,
    List.singleton_append, Text.split_append_cons, List.map_append]
  exact congrArg (· ++ _) (Location.path_segments hNamed hSome)

theorem eq_of_segment_up {part : String} (h : Segment.ofText part = .up) : part = ".." := by
  unfold Segment.ofText at h
  split at h
  · cases h
  · split at h
    · assumption
    · cases h

/-- The way to a relative candidate goes to the root first. -/
theorem segments_candidate (hNamed : root.Named) (hSome : root ≠ [])
    (hRelative : (⟨candidate⟩ : Path).isAbsolute = false) (hPlain : Path.Plain ⟨candidate⟩) :
    ∃ inner, segments (root.path.join ⟨candidate⟩) = root.map .name ++ inner ∧ .up ∉ inner := by
  let parts := (⟨candidate⟩ : Path).segments
  have hParts : parts ≠ [] := by
    simpa [parts, Path.segments] using Text.split_ne_nil '/' candidate.toList
  have hKept : root.filter (· ≠ "") = root :=
    List.filter_eq_self.mpr fun n hName => by simpa using (hNamed n hName).1.nonempty
  have hNames : root.map Segment.ofText = root.map .name :=
    List.map_congr_left fun n hName => segment_of_name (hNamed n hName).1
  refine ⟨(parts.dropLast.filter (· ≠ "") ++ parts.getLast?.toList).map Segment.ofText, ?_, ?_⟩
  · rw [segments, path_segments_candidate hNamed hSome hRelative]
    dsimp only
    rw [List.getLast?_append_of_ne_nil _ hParts, List.dropLast_append_of_ne_nil hParts,
      List.filter_cons_of_neg (by simp), List.filter_append, hKept, List.append_assoc,
      List.map_append, hNames]
  · intro hUp
    obtain ⟨part, hPart, hSegment⟩ := List.mem_map.mp hUp
    have hMem : part ∈ parts := by
      rcases List.mem_append.mp hPart with hFront | hLast
      · exact List.dropLast_subset _ (List.mem_filter.mp hFront).1
      · exact List.mem_of_getLast? (by simpa using hLast)
    exact hPlain (eq_of_segment_up hSegment ▸ hMem)

/-- A way that starts inside the root and goes down stays inside and meets no link. -/
theorem stride_below {way : List Segment} (hUnlinked : Unlinked fs root) (hHere : root <+: here)
    (hDown : .up ∉ way) :
    (∀ x ∈ strideSeen fs.root here way, root <+: x) ∧
      ∀ dir target rest, stride fs.root true here way ≠ .ok (.link dir target rest) := by
  induction way generalizing here with
  | nil => simp [strideSeen, stride]
  | cons segment rest ih =>
      obtain ⟨hSegment, hRest⟩ := not_or.mp (List.mem_cons.not.mp hDown)
      cases segment with
      | stay => exact ih hHere hRest
      | up => exact absurd rfl hSegment
      | name text =>
          have hThere : root <+: here ++ [text] := hHere.trans (List.prefix_append here [text])
          rw [strideSeen, stride, List.forall_mem_cons, List.forall_mem_cons]
          rcases hFound : fs.root.get? (here ++ [text]) with _ | ⟨data | target | entries⟩
          · refine ⟨⟨hHere, hThere, by simp⟩, fun dir target rest => ?_⟩
            dsimp only
            split
            · simp
            · split <;> simp
          · refine ⟨⟨hHere, hThere, by simp⟩, fun dir target rest => ?_⟩
            dsimp only
            split
            · simp
            · split <;> simp
          · exact absurd hFound (hUnlinked _ target hThere)
          · obtain ⟨hSeen, hNoLink⟩ := ih hThere hRest
            refine ⟨⟨hHere, hThere, hSeen⟩, fun dir target rest => ?_⟩
            split
            · simp
            · exact hNoLink dir target rest

/-- A way that goes down to the root and on from there looks only at what is above it and inside. -/
theorem stride_through {names : List String} {way : List Segment} (hUnlinked : Unlinked fs root)
    (hThere : (fs.get? root).isSome) (hRoot : here ++ names = root) (hDown : .up ∉ way) :
    (∀ x ∈ strideSeen fs.root here (names.map .name ++ way), root <+: x ∨ x <+: root) ∧
      ∀ dir target rest,
        stride fs.root true here (names.map .name ++ way) ≠ .ok (.link dir target rest) := by
  induction names generalizing here with
  | nil =>
      have hAt : root = here := hRoot.symm.trans (List.append_nil here)
      obtain ⟨hSeen, hNoLink⟩ := stride_below hUnlinked (hAt ▸ List.prefix_rfl : root <+: here) hDown
      exact ⟨fun x hMem => .inl (hSeen x hMem), hNoLink⟩
  | cons n rest ih =>
      have hNext : here ++ [n] ++ rest = root := by rw [← hRoot, List.append_assoc]; rfl
      have hAbove : here <+: root := ⟨n :: rest, hRoot⟩
      have hChild : here ++ [n] <+: root := ⟨rest, hNext⟩
      obtain ⟨hSeen, hNoLink⟩ := ih hNext
      rw [List.map_cons, List.cons_append, strideSeen, stride, List.forall_mem_cons,
        List.forall_mem_cons]
      rcases hFound : fs.root.get? (here ++ [n]) with _ | ⟨data | target | entries⟩
      · have hSome := Node.isSome_above hChild hThere
        rw [hFound] at hSome
        cases hSome
      · refine ⟨⟨.inr hAbove, .inr hChild, by simp⟩, fun dir target later => ?_⟩
        dsimp only
        split
        · simp
        · split <;> simp
      · exfalso
        by_cases hEnd : here ++ [n] = root
        · exact hUnlinked _ target (hEnd ▸ List.prefix_rfl) hFound
        · obtain ⟨entries, hDirectory⟩ :=
            Node.outline?_eq_directory.mp (Node.directory_above hChild hEnd hThere)
          cases hDirectory.symm.trans hFound
      · refine ⟨⟨.inr hAbove, .inr hChild, hSeen⟩, fun dir target later => ?_⟩
        split
        · simp
        · exact hNoLink dir target later

/-- The way to a plain candidate looks at nothing outside a root without links. -/
theorem inward_of_plain (hNamed : root.Named) (hThere : (fs.get? root).isSome)
    (hUnlinked : Unlinked fs root) (hRelative : (⟨candidate⟩ : Path).isAbsolute = false)
    (hPlain : Path.Plain ⟨candidate⟩) : Inward fs root candidate := by
  by_cases hSome : root = []
  · exact fun x _ => .inl (hSome ▸ List.nil_prefix)
  · obtain ⟨inner, hWay, hDown⟩ := segments_candidate hNamed hSome hRelative hPlain
    obtain ⟨hSeen, hNoLink⟩ := stride_through hUnlinked hThere (List.nil_append root) hDown
    intro x hMem
    rw [seen, origin_candidate, hWay, travelSeen, List.mem_append] at hMem
    rcases hMem with hStride | hLink
    · exact hSeen x hStride
    · split at hLink
      · rename_i dir target rest hEnd
        exact absurd hEnd (hNoLink dir target rest)
      · cases hLink

/-- What a request without two dots means does not depend on anything outside a root without links. -/
theorem resolve?_plain (hNamed : root.Named) (hThere : (fs.get? root).isSome)
    (hUnlinked : Unlinked fs root) (hPlain : Path.Plain ⟨request⟩)
    (hSame : other.get? root = fs.get? root) :
    resolve? other root kind request = resolve? fs root kind request :=
  resolve?_congr (fun c hMem => inward_of_plain hNamed hThere hUnlinked (requested_relative c hMem)
    (requested_plain hPlain c hMem)) hSame

end Source

end ModuleGateway
