import ModuleGateway.Proofs.FileSystem.Access

/-!
Where the path of a location leads. An absolute path leads to locations that are made of names. The path
that such a location is written as leads back to it when something other than a link is there, and no
other location is written the same way.
-/

namespace ModuleGateway

open FileSystem

namespace Path

theorem isAbsolute_append {p q : Path} {suffix : String} (hText : q.text = p.text ++ suffix)
    (h : p.isAbsolute = true) : q.isAbsolute = true := by
  rw [isAbsolute, decide_eq_true_eq] at h ⊢
  rw [hText, String.toList_append, List.head?_append, h]
  rfl

/-- What is seen from an absolute path is absolute. -/
theorem isAbsolute_join {p : Path} (q : Path) (h : p.isAbsolute = true) :
    (p.join q).isAbsolute = true := by
  unfold join
  split
  · rename_i hWhole
    rcases Bool.or_eq_true _ _ ▸ hWhole with hAbsolute | hEmpty
    · exact hAbsolute
    · rw [decide_eq_true_eq] at hEmpty
      simp [isAbsolute, hEmpty] at h
  · split
    · exact isAbsolute_append rfl h
    · exact isAbsolute_append String.append_assoc h

theorem isAbsolute_parent? {p q : Path} (h : p.isAbsolute = true) (hParent : p.parent? = some q) :
    q.isAbsolute = true := by
  unfold parent? at hParent
  rw [head, if_pos h] at hParent
  dsimp only at hParent
  split at hParent
  · cases hParent
  · cases hParent
    simp [isAbsolute]

end Path

namespace Location

variable {l other : Location}

/-- Every part is a name that the system takes. -/
def Named (l : Location) : Prop :=
  ∀ n ∈ l, Path.IsName n ∧ n.utf8ByteSize ≤ nameLimit

theorem path_isAbsolute (l : Location) : l.path.isAbsolute = true := by
  simp [Path.isAbsolute, path]

theorem path_segments_of_names (hNames : ∀ n ∈ l, Path.IsName n) (hSome : l ≠ []) :
    l.path.segments = "" :: l := by
  have hText : l.path.text.toList = [] ++ '/' :: (String.intercalate "/" l).toList := by
    simp [path]
  rw [Path.segments, hText, Text.split_append_cons, List.map_append]
  exact congrArg ([""] ++ ·) (Path.segments_intercalate hSome fun n hName => (hNames n hName).noSlash)

theorem path_segments (hNamed : l.Named) (hSome : l ≠ []) : l.path.segments = "" :: l :=
  path_segments_of_names (fun n hName => (hNamed n hName).1) hSome

/-- The steps of a location's path are its names. -/
theorem path_components (hNames : ∀ n ∈ l, Path.IsName n) :
    l.path.components = .root :: l.map .name := by
  rw [Path.components, Path.head, if_pos l.path_isAbsolute]
  by_cases hSome : l = []
  · subst hSome
    decide
  · have hKept : l.filterMap Path.component? = l.map .name := by
      rw [← List.filterMap_eq_map]
      exact List.filterMap_congr fun n hName => Path.component?_name (hNames n hName)
    rw [path_segments_of_names hNames hSome, List.filterMap_cons, hKept]
    rfl

theorem ofComponents_names (names : List String) :
    Path.ofComponents (.root :: names.map .name) = path names := by
  rw [Path.ofComponents, Path.Component.map_text_name, path]

/-- The parent of a location's path is the path of the location it is in. -/
theorem parent?_path {front : Location} {n : String} (hNames : ∀ m ∈ front ++ [n], Path.IsName m) :
    (path (front ++ [n])).parent? = some front.path := by
  have hKept (names : List String) (h : ∀ m ∈ names, Path.IsName m) : Path.dropIdle names = names := by
    rw [Path.dropIdle]
    cases hLast : names.reverse with
    | nil => exact (List.reverse_eq_nil_iff.mp hLast).symm
    | cons last others =>
        have hMem : last ∈ names := List.mem_reverse.mp (hLast ▸ List.mem_cons_self)
        rw [List.dropWhile_cons_of_neg (by simp [Path.component?_name (h last hMem)]), ← hLast,
          List.reverse_reverse]
  have hHead : (path (front ++ [n])).head = [.root] := by
    rw [Path.head, if_pos (path_isAbsolute _)]
  have hFront : Path.dropIdle (front ++ [n]).dropLast = front := by
    rw [List.dropLast_concat]
    exact hKept front (List.forall_mem_append.mp hNames).1
  have hBody : Path.dropIdle ((path (front ++ [n])).segments.drop 1) = front ++ [n] := by
    rw [path_segments_of_names hNames (by simp)]
    exact hKept _ hNames
  unfold Path.parent?
  rw [hHead]
  dsimp only [List.length_singleton]
  rw [hBody]
  cases front with
  | nil => rfl
  | cons first rest =>
      rw [List.cons_append] at hFront ⊢
      dsimp only
      rw [hFront, path]

/-- A location's names behind another one's. -/
theorem below?_path {inner : List Path.Component} (hNames : ∀ n ∈ l, Path.IsName n)
    (hOther : ∀ n ∈ other, Path.IsName n) :
    Path.below? l.path.components other.path.components = some inner ↔
      ∃ names, other = l ++ names ∧ inner = names.map .name := by
  rw [path_components hNames, path_components hOther, Path.below?,
    List.isPrefixOf?_eq_some_iff_append_eq]
  constructor
  · intro hWhole
    obtain ⟨-, hRest⟩ := List.cons.inj hWhole
    obtain ⟨front, names, hSplit, hFront, hInner⟩ := List.map_eq_append_iff.mp hRest.symm
    obtain rfl : front = l :=
      List.map_injective_iff.mpr (fun _ _ h => Path.Component.name.inj h) hFront
    exact ⟨names, hSplit, hInner.symm⟩
  · rintro ⟨names, rfl, rfl⟩
    simp

/-- The path of a location other than the top does not end in a slash. -/
theorem lead_path (hNames : ∀ n ∈ l, Path.IsName n) (hSome : l ≠ []) :
    l.path.lead = l.path.text ++ "/" := by
  have hParts := path_segments_of_names hNames hSome
  rcases Path.lead_cases l.path with ⟨hEmpty, -⟩ | ⟨base, hBase, -⟩ | ⟨-, hLead⟩
  · simp [Path.segments, hEmpty, Text.split, Ne.symm hSome] at hParts
  · rw [Path.segments, hBase, String.toList_append, show "/".toList = ['/'] from rfl,
      Text.split_append_cons, List.map_append] at hParts
    have hLast := congrArg List.getLast? hParts
    rw [List.getLast?_append_of_ne_nil _ (by simp [Text.split]),
      List.getLast?_cons_of_ne_nil hSome] at hLast
    have hMem : "" ∈ l := List.mem_of_getLast? (hLast.symm.trans (by rfl))
    exact absurd rfl (hNames "" hMem).nonempty
  · exact hLead

/-- The text of names with slashes in between starts with the first name. -/
theorem head_intercalate {names : List String} (hSome : names ≠ [])
    (hNames : ∀ n ∈ names, Path.IsName n) :
    ∃ c rest, (String.intercalate "/" names).toList = c :: rest ∧ c ≠ '/' ∧
      (c = '.' → rest.head? ≠ some '/') := by
  obtain ⟨n, names, rfl⟩ := List.exists_cons_of_ne_nil hSome
  have hName := (List.forall_mem_cons.mp hNames).1
  have hText : ∃ tail, (String.intercalate "/" (n :: names)).toList = n.toList ++ tail ∧
      (tail = [] ∨ ∃ later, tail = '/' :: later) := by
    cases names with
    | nil => exact ⟨[], by simp, .inl rfl⟩
    | cons next others =>
        refine ⟨'/' :: (String.intercalate "/" (next :: others)).toList, ?_, .inr ⟨_, rfl⟩⟩
        rw [String.intercalate_cons_of_ne_nil (List.cons_ne_nil _ _)]
        simp [String.toList_append]
  obtain ⟨tail, hText, hTail⟩ := hText
  have hSlash := hName.noSlash
  cases hChars : n.toList with
  | nil => exact absurd (String.toList_eq_nil_iff.mp hChars) hName.nonempty
  | cons c others =>
      rw [hChars] at hText hSlash
      obtain ⟨hFirst, hOthers⟩ := not_or.mp (List.mem_cons.not.mp hSlash)
      refine ⟨c, others ++ tail, hText, Ne.symm hFirst, ?_⟩
      rintro rfl hHead
      cases others with
      | nil => exact hName.noDot (String.toList_inj.mp (by rw [hChars]; rfl))
      | cons d more =>
          obtain rfl : d = '/' := Option.some.inj hHead
          exact hOthers List.mem_cons_self

/-- Names joined to a location's path are the path of the location below it. -/
theorem path_join (hNames : ∀ n ∈ l, Path.IsName n) {names : List String} (hSome : names ≠ [])
    (hBelow : ∀ n ∈ names, Path.IsName n) :
    l.path.join ⟨String.intercalate "/" names⟩ = path (l ++ names) := by
  have hRelative : (⟨String.intercalate "/" names⟩ : Path).isAbsolute = false := by
    obtain ⟨c, rest, hText, hSlash, -⟩ := head_intercalate hSome hBelow
    simp [Path.isAbsolute, hText, hSlash]
  rw [Path.mk.injEq, Path.join_of_relative _ hRelative]
  by_cases hTop : l = []
  · subst hTop
    rfl
  · rw [lead_path hNames hTop, path, path, String.intercalate_append_of_ne_nil hTop hSome]
    simp [String.append_assoc]

/-- A location can be read off its path. -/
theorem path_injective (hNamed : l.Named) (hOther : other.Named) (h : l.path = other.path) :
    l = other := by
  have hRoot : Path.segments (path []) = ["", ""] := by decide
  by_cases hSome : l = []
  · by_cases hOtherSome : other = []
    · rw [hSome, hOtherSome]
    · have hParts := path_segments hOther hOtherSome
      rw [← h, hSome, hRoot] at hParts
      obtain ⟨-, rfl⟩ := List.cons.inj hParts
      exact absurd rfl (hOther "" List.mem_cons_self).1.nonempty
  · have hParts := path_segments hNamed hSome
    by_cases hOtherSome : other = []
    · rw [h, hOtherSome, hRoot] at hParts
      obtain ⟨-, rfl⟩ := List.cons.inj hParts
      exact absurd rfl (hNamed "" List.mem_cons_self).1.nonempty
    · rw [h, path_segments hOther hOtherSome] at hParts
      exact (List.cons.inj hParts).2.symm

end Location

namespace FileSystem

variable {fs other : FileSystem} {root : Node} {p : Path} {l here : Location} {node : Node}
  {way : List Segment} {links : Nat}

/-! ### Back to a location -/

theorem segment_of_name {n : String} (hName : Path.IsName n) : Segment.ofText n = .name n := by
  simp [Segment.ofText, hName.nonempty, hName.noDot, hName.noDots]

theorem segments_path (hNames : ∀ n ∈ l, Path.IsName n) (hSome : l ≠ []) :
    segments l.path = l.map .name := by
  have hKept : ("" :: l.dropLast).filter (· ≠ "") = l.dropLast := by
    rw [List.filter_cons_of_neg (by simp)]
    refine List.filter_eq_self.mpr fun n hName => ?_
    simpa using (hNames n (List.dropLast_subset l hName)).nonempty
  have hWay : segments l.path = (l.dropLast ++ l.getLast?.toList).map Segment.ofText := by
    rw [segments, Location.path_segments_of_names hNames hSome]
    dsimp only
    rw [hKept]
  have hWhole : l.dropLast ++ l.getLast?.toList = l := by
    rw [List.getLast?_eq_some_getLast hSome]
    exact List.dropLast_append_getLast hSome
  rw [hWay, hWhole]
  exact List.map_congr_left fun n hName => segment_of_name (hNames n hName)

theorem stride_names {names : List String} (hShort : ∀ n ∈ names, n.utf8ByteSize ≤ nameLimit)
    (hFound : root.get? (here ++ names) = some node) (hPlain : ∀ target, node ≠ .symlink target) :
    stride root true here (names.map .name) = .ok (.node (here ++ names)) := by
  induction names generalizing here with
  | nil => simp [stride]
  | cons n rest ih =>
      obtain ⟨hSize, hLater⟩ := List.forall_mem_cons.mp hShort
      have hWhole : here ++ n :: rest = here ++ [n] ++ rest := by simp
      rw [hWhole] at hFound ⊢
      rw [List.map_cons, stride, if_neg (by omega)]
      cases rest with
      | nil =>
          rw [List.append_nil] at hFound ⊢
          rw [hFound]
          cases node with
          | file data => rfl
          | symlink target => exact absurd rfl (hPlain target)
          | directory entries => rfl
      | cons next others =>
          have hParent : ∃ entries, root.get? (here ++ [n]) = some (.directory entries) := by
            rw [Node.get?_append] at hFound
            obtain ⟨parent, hParent, hBelow⟩ := Option.bind_eq_some_iff.mp hFound
            cases parent with
            | file data => cases hBelow
            | symlink target => cases hBelow
            | directory entries => exact ⟨entries, hParent⟩
          obtain ⟨entries, hDirectory⟩ := hParent
          rw [hDirectory]
          exact ih hLater hFound

/-- The path of a location leads to it, unless a link is there. -/
theorem locate_path (hNamed : l.Named) (hFits : Fits l.path) (hFound : fs.get? l = some node)
    (hPlain : ∀ target, node ≠ .symlink target) : fs.locate l.path = .ok l := by
  have hNonempty : l.path.text ≠ "" := by simp [Location.path]
  have hOrigin : fs.origin l.path = [] := by rw [origin, if_pos l.path_isAbsolute]
  refine locate_eq_ok_iff.mpr ?_
  rw [arrive_of_fits true hFits hNonempty, hOrigin]
  by_cases hSome : l = []
  · subst hSome
    rfl
  · rw [segments_path (fun n hName => (hNamed n hName).1) hSome]
    refine travel_of_node ?_
    exact stride_names (fun n hName => (hNamed n hName).2) hFound hPlain

/-- There is no link in the root. -/
def Unlinked (fs : FileSystem) (root : Location) : Prop :=
  ∀ l target, root <+: l → fs.get? l ≠ some (.symlink target)

theorem unlinked_of_linkFree (h : (fs.get? l).any Node.linkFree = true) : fs.Unlinked l := by
  rintro x target ⟨below, rfl⟩ hLink
  obtain ⟨tree, hTree, hFree⟩ := (Option.any_eq_true _ _).mp h
  rw [get?, Node.get?_append, ← get?, hTree] at hLink
  cases Node.linkFree_of_get? hFree hLink

/-- A way of names that meets no link ends where its names say, or at nothing. -/
theorem stride_plain {names : List String} {r : Reached}
    (hPlain : ∀ x target, here <+: x → x <+: here ++ names → root.get? x ≠ some (.symlink target))
    (h : stride root true here (names.map .name) = .ok r) :
    (r = .node (here ++ names) ∧ ∀ n ∈ names, n.utf8ByteSize ≤ nameLimit) ∨
      ∃ dir n, r = .vacant dir n := by
  induction names generalizing here with
  | nil =>
      cases h
      exact .inl ⟨by rw [List.append_nil], by simp⟩
  | cons n rest ih =>
      have hWhole : here ++ n :: rest = here ++ [n] ++ rest := by simp
      have hHere : here <+: here ++ [n] := List.prefix_append here [n]
      have hThere : here ++ [n] <+: here ++ n :: rest := hWhole ▸ List.prefix_append _ rest
      rw [List.map_cons, stride] at h
      split at h
      · cases h
      · rename_i hShort
        split at h
        · split at h
          · cases h
            exact .inr ⟨here, n, rfl⟩
          · cases h
        · rename_i target hLink
          exact absurd hLink (hPlain _ target hHere hThere)
        · split at h
          · rename_i hLast
            obtain rfl : rest = [] := by simpa using hLast
            cases h
            exact .inl ⟨rfl, by simp; omega⟩
          · cases h
        · rcases ih (fun x target hAbove hBelow =>
              hPlain x target (hHere.trans hAbove) (hWhole ▸ hBelow)) h with ⟨rfl, hOthers⟩ | hVacant
          · exact .inl ⟨by rw [hWhole], List.forall_mem_cons.mpr ⟨by omega, hOthers⟩⟩
          · exact .inr hVacant

/-- Without links on the way, the path of names leads to the location that it is written as. -/
theorem named_of_locate_path (hNames : ∀ n ∈ l, Path.IsName n)
    (hPlain : ∀ x target, x <+: l → fs.get? x ≠ some (.symlink target)) {place : Location}
    (h : fs.locate l.path = .ok place) : place = l ∧ l.Named := by
  have hArrive := locate_eq_ok_iff.mp h
  rw [arrive_of_fits true (fits_of_arrive hArrive) (by simp [Location.path]), origin,
    if_pos l.path_isAbsolute] at hArrive
  by_cases hSome : l = []
  · subst hSome
    cases hArrive
    exact ⟨rfl, by simp [Location.Named]⟩
  · rw [segments_path hNames hSome] at hArrive
    have hEnd {r : Reached} (hStride : stride fs.root true [] (l.map .name) = .ok r) :=
      stride_plain (fun x target _ (hBelow : x <+: [] ++ l) => hPlain x target hBelow) hStride
    rcases travel_cases hArrive with ⟨found, hStride, hSame⟩ | ⟨dir, name, -, hSame⟩ |
      ⟨dir, target, rest, left, hStride, -, -⟩
    · cases hSame
      rcases hEnd hStride with ⟨hNode, hShort⟩ | ⟨dir, n, hVacant⟩
      · cases hNode
        exact ⟨rfl, fun n hName => ⟨hNames n hName, hShort n hName⟩⟩
      · cases hVacant
    · cases hSame
    · rcases hEnd hStride with ⟨hNode, -⟩ | ⟨dir, n, hVacant⟩
      · cases hNode
      · cases hVacant

/-- A path that the system does not take fails for the same reason everywhere. -/
theorem arrive_of_not_fits (hFits : ¬Fits p) :
    ∃ e, ∀ fs : FileSystem, fs.arrive p = .error e := by
  unfold arrive
  split
  · exact ⟨_, fun _ => rfl⟩
  · rename_i hNul
    split
    · exact ⟨_, fun _ => rfl⟩
    · split
      · exact ⟨_, fun _ => rfl⟩
      · rename_i hShort
        exact absurd ⟨by simpa using hNul, by omega⟩ hFits

/-- The path of a location shows the same in all file systems in which the same is there. -/
theorem stat_path_congr (hNamed : l.Named) (hFound : fs.get? l = some node)
    (hOther : other.get? l = some node) (hPlain : ∀ target, node ≠ .symlink target) :
    other.stat l.path = fs.stat l.path := by
  by_cases hFits : Fits l.path
  · rw [stat, stat, locate_path hNamed hFits hFound hPlain, locate_path hNamed hFits hOther hPlain]
    simp only [bind, Except.bind, hFound, hOther]
  · obtain ⟨e, hError⟩ := arrive_of_not_fits hFits
    rw [stat, stat, locate, locate, hError other, hError fs]
    rfl

/-- What the path of a location shows is what is there, if that is no link. -/
theorem get?_of_stat_path {shown : Node} (hNamed : l.Named) (hFound : fs.get? l = some node)
    (hPlain : ∀ target, node ≠ .symlink target) (h : fs.stat l.path = .ok shown) :
    fs.locate l.path = .ok l ∧ shown = node := by
  obtain ⟨place, hArrive, hThere⟩ := stat_eq_ok_iff.mp h
  have hPath := locate_path hNamed (fits_of_arrive hArrive) hFound hPlain
  obtain rfl := Except.ok.inj (hPath.symm.trans (locate_eq_ok_iff.mpr hArrive))
  exact ⟨hPath, Option.some.inj (hThere.symm.trans hFound)⟩

/-- What is read as text is the content of a file. -/
theorem readText_eq_ok_iff {text : String} :
    fs.readText p = .ok text ↔
      ∃ data, fs.stat p = .ok (.file data) ∧ String.fromUTF8? data.content = some text := by
  unfold readText
  cases hRead : fs.read p with
  | error e =>
      have hNever (data : FileData) : fs.stat p ≠ .ok (.file data) := fun hStat => by
        rw [read_eq_ok_iff.mpr ⟨data, hStat, rfl⟩] at hRead
        cases hRead
      simp [bind, Except.bind, hNever]
  | ok content =>
      obtain ⟨data, hStat, rfl⟩ := read_eq_ok_iff.mp hRead
      simp only [bind, Except.bind, hStat]
      cases hText : String.fromUTF8? data.content <;> simp [hText]

theorem readText_path_congr (hNamed : l.Named) (hFound : fs.get? l = some node)
    (hOther : other.get? l = some node) (hPlain : ∀ target, node ≠ .symlink target) :
    other.readText l.path = fs.readText l.path := by
  rw [readText, readText, read, read, stat_path_congr hNamed hFound hOther hPlain]

/-- A path that starts in a missing directory leads nowhere. -/
theorem locate_in_missing {top rest : String} (hTop : Path.IsName top)
    (hMissing : fs.get? (fs.workingDirectory ++ [top]) = none) :
    fs.locate ⟨top ++ "/" ++ rest⟩ ≠ .ok l := by
  intro h
  have hArrive := locate_eq_ok_iff.mp h
  have hText : (top ++ "/" ++ rest).toList = top.toList ++ '/' :: rest.toList := by
    simp [String.toList_append]
  have hRelative : Path.isAbsolute ⟨top ++ "/" ++ rest⟩ = false := by
    have hTopRelative := Path.isAbsolute_of_no_slash hTop.noSlash
    rw [Path.isAbsolute, decide_eq_false_iff_not] at hTopRelative ⊢
    rw [hText]
    cases hChars : top.toList with
    | nil => exact absurd (String.toList_eq_nil_iff.mp hChars) hTop.nonempty
    | cons c others =>
        rw [hChars] at hTopRelative
        exact hTopRelative
  obtain ⟨more, hMore, hWay⟩ : ∃ more, more ≠ [] ∧
      segments ⟨top ++ "/" ++ rest⟩ = .name top :: more := by
    have hParts : Path.segments ⟨top ++ "/" ++ rest⟩ =
        top :: (Text.split '/' rest.toList).map String.ofList := by
      rw [Path.segments, hText, Text.split_append_cons, Text.split_of_not_mem hTop.noSlash]
      simp
    have hSome : (Text.split '/' rest.toList).map String.ofList ≠ [] := by
      simpa using Text.split_ne_nil '/' rest.toList
    rw [segments, hParts]
    dsimp only
    rw [List.filter_cons_of_pos (by simpa using hTop.nonempty), List.getLast?_eq_some_getLast hSome]
    rw [List.cons_append, List.map_cons, segment_of_name hTop]
    exact ⟨_, by simp, rfl⟩
  have hStride : stride fs.root true fs.workingDirectory (.name top :: more) =
      .error (if nameLimit < top.utf8ByteSize then .nameTooLong else .noEntry) := by
    rw [stride_name _ _ _ _ hMore]
    split
    · rfl
    · rw [show fs.root.get? (fs.workingDirectory ++ [top]) = none from hMissing]
  rw [arrive_of_fits true (fits_of_arrive hArrive) (by simp), origin, hRelative, hWay, if_neg (by simp),
    travel, hStride] at hArrive
  cases hArrive

/-! ### Where absolute paths lead -/

/-- A segment that can be written in a path. -/
def Segment.Written : Segment → Prop
  | .name n => Path.IsName n
  | _ => True

theorem segment_written {n : String} (hSlash : '/' ∉ n.toList) : (Segment.ofText n).Written := by
  unfold Segment.ofText
  split
  · trivial
  · split
    · trivial
    · rename_i hOne hTwo
      simp only [Bool.or_eq_true, decide_eq_true_eq, not_or] at hOne
      exact ⟨hOne.1, hSlash, hOne.2, hTwo⟩

theorem segments_written (p : Path) : ∀ s ∈ segments p, s.Written := by
  have hParts : ∀ n ∈ p.segments, '/' ∉ n.toList := by
    intro n hMem
    obtain ⟨part, hPart, rfl⟩ := List.mem_map.mp hMem
    rw [String.toList_ofList]
    exact Text.not_mem_of_mem_split hPart
  intro s hMem
  unfold segments at hMem
  split at hMem
  · rename_i first rest hText
    obtain ⟨n, hName, rfl⟩ := List.mem_map.mp hMem
    refine segment_written (hParts n ?_)
    rw [hText]
    rcases List.mem_append.mp hName with hKept | hLast
    · rcases List.mem_cons.mp (List.mem_filter.mp hKept).1 with rfl | hInner
      · exact List.mem_cons_self
      · exact List.mem_cons_of_mem _ (List.dropLast_subset rest hInner)
    · refine List.mem_cons_of_mem _ (List.mem_of_getLast? ?_)
      simpa using hLast
  · cases hMem

theorem named_of_stride {r : Reached} (hHere : here.Named) (hWay : ∀ s ∈ way, s.Written)
    (h : stride root true here way = .ok r) :
    (∀ l, r = .node l → l.Named) ∧
      ∀ dir target rest, r = .link dir target rest → dir.Named ∧ ∀ s ∈ rest, s.Written := by
  induction way generalizing here with
  | nil =>
      cases h
      exact ⟨fun l hEnd => by cases hEnd; exact hHere, by simp⟩
  | cons segment rest ih =>
      obtain ⟨hSegment, hRest⟩ := List.forall_mem_cons.mp hWay
      cases segment with
      | stay => exact ih hHere hRest h
      | up => exact ih (fun n hName => hHere n (List.dropLast_subset here hName)) hRest h
      | name text =>
          rw [stride] at h
          split at h
          · cases h
          · rename_i hShort
            have hThere : (here ++ [text] : Location).Named := by
              intro n hName
              rcases List.mem_append.mp hName with hOld | hNew
              · exact hHere n hOld
              · obtain rfl := List.mem_singleton.mp hNew
                exact ⟨hSegment, by omega⟩
            split at h
            · split at h
              · cases h
                simp
              · cases h
            · split at h
              · cases h
                exact ⟨fun l hEnd => by cases hEnd; exact hThere, by simp⟩
              · cases h
                exact ⟨by simp, fun dir target later hEnd => by cases hEnd; exact ⟨hHere, hRest⟩⟩
            · split at h
              · cases h
                exact ⟨fun l hEnd => by cases hEnd; exact hThere, by simp⟩
              · cases h
            · exact ih hThere hRest h

theorem named_of_travel (hHere : here.Named) (hWay : ∀ s ∈ way, s.Written)
    (h : travel root true links here way = .ok (.node l)) : l.Named := by
  induction links using Nat.strongRecOn generalizing here way with
  | ind links ih =>
      rcases travel_cases h with ⟨found, hStride, hSame⟩ | ⟨dir, name, -, hSame⟩ |
        ⟨dir, target, rest, left, hStride, rfl, hRest⟩
      · cases hSame
        exact (named_of_stride hHere hWay hStride).1 l rfl
      · cases hSame
      · obtain ⟨hDir, hLater⟩ := (named_of_stride hHere hWay hStride).2 dir target rest rfl
        refine ih left (Nat.lt_succ_self left) ?_ (List.forall_mem_append.mpr ⟨?_, hLater⟩) hRest
        · split
          · exact fun n hName => by cases hName
          · exact hDir
        · exact segments_written ⟨target⟩

/-- A location that an absolute path leads to is made of names. -/
theorem named_of_locate (hAbsolute : p.isAbsolute = true) (h : fs.locate p = .ok l) : l.Named := by
  have hArrive := locate_eq_ok_iff.mp h
  have hNonempty : p.text ≠ "" := by
    intro hEmpty
    simp [Path.isAbsolute, hEmpty] at hAbsolute
  rw [arrive_of_fits true (fits_of_arrive hArrive) hNonempty, origin, if_pos hAbsolute] at hArrive
  exact named_of_travel (fun n hName => by cases hName) (segments_written p) hArrive

end FileSystem

end ModuleGateway
