import ModuleGateway.Proofs.Source.Plain

/-!
What a file is compiled as. The path of a request says what it asks for, and the file that it means may
lie under another name, behind links. When every link has the extension `.css` exactly if its target has,
the file's own name says the same as the path.
-/

namespace ModuleGateway

open FileSystem

namespace AssetKind

theorem ofPath_eq_style_iff {path : String} :
    ofPath path = .style ↔ ".css".toList <:+ path.toList := by
  rw [ofPath, ← List.isSuffixOf_iff_suffix]
  split <;> simp_all

theorem ofPath_congr {path other : String}
    (h : ".css".toList <:+ path.toList ↔ ".css".toList <:+ other.toList) :
    ofPath path = ofPath other := by
  rw [← ofPath_eq_style_iff, ← ofPath_eq_style_iff] at h
  cases hPath : ofPath path <;> cases hOther : ofPath other <;> simp_all

/-- What stands in front of a slash does not count. -/
theorem ofPath_behind (front rest : List Char) :
    ofPath (String.ofList (front ++ '/' :: rest)) = ofPath (String.ofList rest) := by
  refine ofPath_congr ?_
  simp only [String.toList_ofList]
  constructor
  · intro hEnd
    rcases List.suffix_or_suffix_of_suffix hEnd (List.suffix_append front ('/' :: rest)) with hIn | hOver
    · rcases List.suffix_cons_iff.mp hIn with hSame | hRest
      · cases hSame
      · exact hRest
    · exact absurd (hOver.subset List.mem_cons_self) (by decide)
  · intro hEnd
    exact hEnd.trans ⟨front ++ ['/'], by simp⟩

theorem ofPath_split {p : Path} {front : List String} {n : String} (h : p.segments = front ++ [n]) :
    ofPath p.text = ofPath n := by
  have hText := String.ofList_toList (s := p.text)
  rcases Text.split_last '/' p.text.toList with ⟨-, hAlone⟩ | ⟨before, after, hWhole, hSplit⟩
  · rw [Path.segments, hAlone, List.map_singleton, hText] at h
    have hEnds : [] ++ [p.text] = front ++ [n] := h
    rw [List.singleton_inj.mp (List.append_inj_right' hEnds rfl)]
  · rw [Path.segments, hSplit, List.map_append, List.map_singleton] at h
    rw [← hText, hWhole, ofPath_behind, List.singleton_inj.mp (List.append_inj_right' h rfl)]

/-- Only the last segment of a path counts. -/
theorem ofPath_segments {p : Path} {way : List Segment} {n : String}
    (h : segments p = way ++ [.name n]) : ofPath p.text = ofPath n := by
  have hSome : p.segments ≠ [] := by simpa [Path.segments] using Text.split_ne_nil '/' p.text.toList
  obtain ⟨front, last, hParts⟩ : ∃ front last, p.segments = front ++ [last] :=
    ⟨_, _, (List.dropLast_append_getLast hSome).symm⟩
  by_cases hLast : last = ""
  · -- A slash at the end asks for a directory.
    subst hLast
    cases front with
    | nil => simp [segments, hParts] at h
    | cons first rest =>
        have hStay : segments p = ((first :: rest).filter (· ≠ "")).map Segment.ofText ++ [.stay] := by
          simp [segments, hParts, Segment.ofText]
        rw [hStay] at h
        cases List.singleton_inj.mp (List.append_inj_right' h rfl)
  · rw [segments_of_last hParts hLast] at h
    have hSame : Segment.ofText last = .name n := List.singleton_inj.mp (List.append_inj_right' h rfl)
    have hName : last = n := by
      unfold Segment.ofText at hSame
      split at hSame
      · cases hSame
      · split at hSame
        · cases hSame
        · exact Segment.name.inj hSame
    rw [ofPath_split hParts, hName]

theorem ofPath_join (d : Path) {candidate : String}
    (hRelative : (⟨candidate⟩ : Path).isAbsolute = false) :
    ofPath (d.join ⟨candidate⟩).text = ofPath candidate := by
  rw [Path.join_of_relative d hRelative]
  have hBehind (base : String) : ofPath (base ++ "/" ++ candidate) = ofPath candidate := by
    have hSlash := ofPath_behind base.toList candidate.toList
    rw [String.ofList_toList] at hSlash
    rw [← hSlash]
    refine congrArg ofPath (String.toList_inj.mp ?_)
    simp
  rcases d.lead_cases with ⟨-, hLead⟩ | ⟨base, -, hLead⟩ | ⟨-, hLead⟩
  · rw [hLead, String.empty_append]
  · rw [hLead, hBehind]
  · rw [hLead, hBehind]

/-- Slashes in front do not count. -/
theorem ofPath_trimStart (text : List Char) :
    ofPath (String.ofList (Text.trimStart (· = '/') text)) = ofPath (String.ofList text) := by
  have hWhole := List.takeWhile_append_dropWhile (p := fun c : Char => decide (c = '/')) (l := text)
  rcases List.eq_nil_or_concat (text.takeWhile fun c => decide (c = '/')) with hNone | ⟨front, c, hFront⟩
  · rw [hNone, List.nil_append] at hWhole
    rw [Text.trimStart, hWhole]
  · have hSlash : c = '/' := by
      have hMem : c ∈ text.takeWhile fun c => decide (c = '/') := by
        rw [hFront]
        simp
      simpa using List.mem_takeWhile_imp hMem
    rw [hFront, List.concat_eq_append, hSlash, List.append_assoc, List.singleton_append] at hWhole
    have hBehind := ofPath_behind front (text.dropWhile fun c => decide (c = '/'))
    rw [hWhole] at hBehind
    exact hBehind.symm

end AssetKind

namespace FileSystem

/-- Links lead to what their names say: style sheets to style sheets, anything else to anything else. -/
def LinksKeepKind (fs : FileSystem) : Prop :=
  ∀ dir name target, fs.get? (dir ++ [name]) = some (.symlink target) →
    AssetKind.ofPath target = AssetKind.ofPath name

variable {root : Node} {here l dir : Location} {way rest : List Segment} {target : String}

theorem outline?_dropLast (hHere : root.outline? here = some .directory) :
    root.outline? here.dropLast = some .directory := by
  by_cases hTop : here = []
  · rwa [hTop] at hHere ⊢
  · refine Node.directory_above (List.dropLast_prefix here) (fun hSame => ?_) ?_
    · have hLength := congrArg List.length hSame
      rw [List.length_dropLast] at hLength
      have hPos := List.length_pos_of_ne_nil hTop
      omega
    · obtain ⟨entries, hFound⟩ := Node.outline?_eq_directory.mp hHere
      rw [hFound]
      rfl

/-- A way that ends at a file, or at a link, comes there by its name. -/
theorem stride_ends {r : Reached} (hHere : root.outline? here = some .directory)
    (h : stride root true here way = .ok r) :
    (∀ l, r = .node l → root.outline? l = some .file →
      ∃ front outer n, way = front ++ [.name n] ∧ l = outer ++ [n]) ∧
    ∀ dir target rest, r = .link dir target rest → root.outline? dir = some .directory ∧
      ∃ front n, way = front ++ .name n :: rest ∧ root.get? (dir ++ [n]) = some (.symlink target) := by
  induction way generalizing here with
  | nil =>
      cases h
      refine ⟨fun l hEnd hFile => ?_, by simp⟩
      cases hEnd
      rw [hHere] at hFile
      cases hFile
  | cons segment later ih =>
      have hLater {there : Location} (hThere : root.outline? there = some .directory)
          (hRest : stride root true there later = .ok r) :
          (∀ l, r = .node l → root.outline? l = some .file →
            ∃ front outer n, segment :: later = front ++ [.name n] ∧ l = outer ++ [n]) ∧
          ∀ dir target rest, r = .link dir target rest → root.outline? dir = some .directory ∧
            ∃ front n, segment :: later = front ++ .name n :: rest ∧
              root.get? (dir ++ [n]) = some (.symlink target) := by
        obtain ⟨hNode, hLink⟩ := ih hThere hRest
        constructor
        · intro l hEnd hFile
          obtain ⟨front, outer, n, rfl, hPlace⟩ := hNode l hEnd hFile
          exact ⟨segment :: front, outer, n, rfl, hPlace⟩
        · intro dir target rest hEnd
          obtain ⟨hDir, front, n, rfl, hFound⟩ := hLink dir target rest hEnd
          exact ⟨hDir, segment :: front, n, rfl, hFound⟩
      cases segment with
      | stay => exact hLater hHere h
      | up => exact hLater (outline?_dropLast hHere) h
      | name text =>
          rw [stride] at h
          split at h
          · cases h
          · rcases hFound : root.get? (here ++ [text]) with _ | ⟨data | target | entries⟩
            · rw [hFound] at h
              dsimp only at h
              split at h
              · cases h
                simp
              · cases h
            · rw [hFound] at h
              dsimp only at h
              split at h
              · rename_i hEnd
                cases h
                refine ⟨fun l hSame _ => ?_, by simp⟩
                cases hSame
                exact ⟨[], here, text, by rw [hEnd]; rfl, rfl⟩
              · cases h
            · rw [hFound] at h
              simp only [Bool.not_true, Bool.and_false, Bool.false_eq_true, if_false,
                Except.ok.injEq] at h
              subst h
              refine ⟨by simp, fun dir aim rest hSame => ?_⟩
              cases hSame
              exact ⟨hHere, [], text, rfl, hFound⟩
            · rw [hFound] at h
              exact hLater (Node.outline?_eq_directory.mpr ⟨entries, hFound⟩) h

/-- A way that ends at a file ends with a name of the same kind as the file's own. -/
theorem travel_ends {links : Nat} (hKeep : ∀ dir name target,
      root.get? (dir ++ [name]) = some (.symlink target) →
        AssetKind.ofPath target = AssetKind.ofPath name)
    (hTop : root.outline? [] = some .directory) (hHere : root.outline? here = some .directory)
    (hFile : root.outline? l = some .file) (h : travel root true links here way = .ok (.node l)) :
    ∃ front outer written n, way = front ++ [.name written] ∧ l = outer ++ [n] ∧
      AssetKind.ofPath n = AssetKind.ofPath written := by
  induction links using Nat.strongRecOn generalizing here way with
  | ind links ih =>
      rcases travel_cases h with ⟨found, hStride, hSame⟩ | ⟨dir, name, -, hSame⟩ |
        ⟨dir, target, rest, left, hStride, rfl, hRest⟩
      · cases hSame
        obtain ⟨front, outer, n, hWay, hPlace⟩ := (stride_ends hHere hStride).1 l rfl hFile
        exact ⟨front, outer, n, n, hWay, hPlace, rfl⟩
      · cases hSame
      · obtain ⟨hDir, front, n, hWay, hLink⟩ := (stride_ends hHere hStride).2 dir target rest rfl
        have hStart : root.outline? (if (⟨target⟩ : Path).isAbsolute then [] else dir) =
            some .directory := by
          split
          · exact hTop
          · exact hDir
        obtain ⟨inner, outer, written, last, hInner, hPlace, hKind⟩ :=
          ih left (Nat.lt_succ_self left) hStart hRest
        rcases List.eq_nil_or_concat rest with rfl | ⟨more, segment, rfl⟩
        · rw [List.append_nil] at hInner
          refine ⟨front, outer, n, last, hWay, hPlace, hKind.trans ?_⟩
          rw [← hKeep dir n target hLink]
          exact (AssetKind.ofPath_segments hInner).symm
        · rw [List.concat_eq_append] at hWay hInner
          rw [← List.append_assoc] at hInner
          obtain rfl := List.singleton_inj.mp (List.append_inj_right' hInner rfl)
          exact ⟨front ++ .name n :: more, outer, written, last, by rw [hWay]; simp, hPlace, hKind⟩

end FileSystem

namespace Source

variable {fs : FileSystem} {root l : Location} {candidate request : String} {kind : AssetKind}

theorem scriptExtensions_kind : ∀ ext ∈ scriptExtensions,
    ¬".css".toList <:+ ("." ++ ext).toList ∧ ¬("." ++ ext).toList <:+ ".css".toList := by
  decide

theorem kind_of_withExtensions {base : String} (h : candidate ∈ withExtensions base) :
    AssetKind.ofPath candidate = .script := by
  obtain ⟨ext, hExt, rfl⟩ := List.mem_map.mp h
  obtain ⟨hLonger, hShorter⟩ := scriptExtensions_kind ext hExt
  cases hKind : AssetKind.ofPath (base ++ "." ++ ext) with
  | script => rfl
  | style =>
      have hStyle := AssetKind.ofPath_eq_style_iff.mp hKind
      rw [String.append_assoc, String.toList_append] at hStyle
      rcases List.suffix_or_suffix_of_suffix hStyle (List.suffix_append _ _) with hEnd | hEnd
      · exact absurd hEnd hLonger
      · exact absurd hEnd hShorter

/-- All files that a request may mean are of the kind that it asks for. -/
theorem kind_of_requested (h : candidate ∈ requested (AssetKind.ofPath request) request) :
    AssetKind.ofPath candidate = AssetKind.ofPath request := by
  unfold requested at h
  dsimp only at h
  split at h
  · cases h
  · have hTrim := AssetKind.ofPath_trimStart request.toList
    rw [String.ofList_toList] at hTrim
    cases hKind : AssetKind.ofPath request with
    | style =>
        rw [hKind] at h hTrim
        rw [List.mem_singleton.mp h]
        exact hTrim
    | script =>
        rw [hKind] at h hTrim
        rcases mem_candidates h with rfl | ⟨base, tail, -, -, hExtended⟩
        · exact hTrim
        · exact kind_of_withExtensions hExtended

/-- The file that a request means has a name of the kind that the request asks for. -/
theorem kind_of_resolve? (hKeep : fs.LinksKeepKind)
    (h : resolve? fs root (AssetKind.ofPath request) request = some l) :
    ∃ outer n, l = outer ++ [n] ∧ AssetKind.ofPath n = AssetKind.ofPath request := by
  obtain ⟨before, candidate, after, hTried, hCanonical, ⟨hInside, hStrict, data, hFile⟩, -⟩ :=
    chosen_of_resolve? h
  have hCandidate : candidate ∈ requested (AssetKind.ofPath request) request := by
    rw [hTried]
    simp
  have hTop : fs.root.outline? [] = some .directory := by
    refine Node.directory_above List.nil_prefix (fun hSame => ?_) (x := l) ?_
    · rw [← hSame] at hInside hStrict
      exact hStrict (List.prefix_nil.mp hInside).symm
    · rw [show fs.root.get? l = some (.file data) from hFile]
      rfl
  have hArrive := locate_eq_ok_iff.mp (locate_of_canonical hCanonical)
  have hSome : (root.path.join ⟨candidate⟩).text ≠ "" := fun hNone => by
    have hAbsolute := Path.isAbsolute_join ⟨candidate⟩ root.path_isAbsolute
    simp [Path.isAbsolute, hNone] at hAbsolute
  rw [arrive_of_fits true (fits_of_arrive hArrive) hSome, origin_candidate] at hArrive
  obtain ⟨front, outer, written, n, hWay, hPlace, hKind⟩ :=
    travel_ends hKeep hTop hTop (Node.outline?_eq_file.mpr ⟨data, hFile⟩) hArrive
  refine ⟨outer, n, hPlace, ?_⟩
  rw [hKind, ← AssetKind.ofPath_segments hWay, AssetKind.ofPath_join _ (requested_relative _ hCandidate),
    kind_of_requested hCandidate]

end Source

end ModuleGateway
