import ModuleGateway.FileSystem.Access
import ModuleGateway.Proofs.FileSystem.Walk
import ModuleGateway.Proofs.Path

/-!
The children of a directory by the paths that name them. A path that is joined to a directory's path
goes to that directory first. When the child is a file or is missing, the way ends at its place, and
changing it changes that entry of the directory and nothing else.
-/

namespace ModuleGateway

/-! ### Joined paths -/

namespace Path

variable {d : Path} {n : String}

/-- What stands in front of a name that is joined to a path. -/
def lead (d : Path) : String :=
  if d.text = "" then "" else if d.text.toList.getLast? = some '/' then d.text else d.text ++ "/"

/-- A path without slashes is relative. -/
theorem isAbsolute_of_no_slash (hSlash : '/' ∉ n.toList) : (⟨n⟩ : Path).isAbsolute = false := by
  cases hText : n.toList with
  | nil => simp [isAbsolute, hText]
  | cons c rest =>
      have hHead : c ≠ '/' := by
        rintro rfl
        simp [hText] at hSlash
      simp [isAbsolute, hText, hHead]

theorem join_of_relative (d : Path) {q : Path} (hRelative : q.isAbsolute = false) :
    (d.join q).text = d.lead ++ q.text := by
  unfold join lead
  rw [hRelative, Bool.false_or]
  by_cases hEmpty : d.text = ""
  · simp [hEmpty]
  · by_cases hLast : d.text.toList.getLast? = some '/'
    · simp [hEmpty, hLast]
    · simp [hEmpty, hLast]

theorem join_text (d : Path) (hSlash : '/' ∉ n.toList) : (d.join ⟨n⟩).text = d.lead ++ n :=
  join_of_relative d (isAbsolute_of_no_slash hSlash)

theorem lead_cases (d : Path) :
    (d.text = "" ∧ d.lead = "") ∨ (∃ base, d.text = base ++ "/" ∧ d.lead = base ++ "/") ∨
      (d.text ≠ "" ∧ d.lead = d.text ++ "/") := by
  unfold lead
  by_cases hEmpty : d.text = ""
  · exact .inl ⟨hEmpty, if_pos hEmpty⟩
  · rw [if_neg hEmpty]
    by_cases hLast : d.text.toList.getLast? = some '/'
    · obtain ⟨base, hBase⟩ := List.getLast?_eq_some_iff.mp hLast
      have hText : d.text = String.ofList base ++ "/" := by
        rw [← String.toList_inj, hBase, String.toList_append, String.toList_ofList]
        rfl
      exact .inr (.inl ⟨String.ofList base, hText, by rw [if_pos hLast, hText]⟩)
    · exact .inr (.inr ⟨hEmpty, if_neg hLast⟩)

/-- A joined path begins with the path that it is joined to. -/
theorem join_extends (d : Path) {q : Path} (hRelative : q.isAbsolute = false) :
    ∃ tail, (d.join q).text = d.text ++ tail := by
  rw [join_of_relative d hRelative]
  rcases lead_cases d with ⟨hText, hLead⟩ | ⟨base, hText, hLead⟩ | ⟨-, hLead⟩
  · exact ⟨q.text, by rw [hLead, hText]⟩
  · exact ⟨q.text, by rw [hLead, hText]⟩
  · exact ⟨"/" ++ q.text, by rw [hLead, String.append_assoc]⟩

theorem isAbsolute_join_of_relative (d : Path) {q : Path} (hRelative : q.isAbsolute = false)
    (hNamed : d.text ≠ "") : (d.join q).isAbsolute = d.isAbsolute := by
  obtain ⟨tail, hText⟩ := join_extends d hRelative
  cases hChars : d.text.toList with
  | nil => exact absurd (String.toList_eq_nil_iff.mp hChars) hNamed
  | cons c rest => simp [isAbsolute, hText, hChars]

/-- What is joined to the empty path stays as it is. -/
theorem join_of_empty {d : Path} (q : Path) (hEmpty : d.text = "") : d.join q = q := by
  unfold join
  simp [hEmpty]

/-- The segments of a joined path are those of both, without the empty one that a slash at the end
leaves. -/
theorem segments_join (d : Path) {q : Path} (hRelative : q.isAbsolute = false) (hNamed : d.text ≠ "") :
    ∃ front, front ≠ [] ∧ (d.join q).segments = front ++ q.segments ∧
      (d.segments = front ∨ d.segments = front ++ [""]) := by
  have hText := join_of_relative d hRelative
  rcases lead_cases d with ⟨hEmpty, -⟩ | ⟨base, hBase, hLead⟩ | ⟨-, hLead⟩
  · exact absurd hEmpty hNamed
  · refine ⟨(Text.split '/' base.toList).map String.ofList, ?_, ?_, .inr ?_⟩
    · simpa using Text.split_ne_nil '/' base.toList
    · simp [segments, hText, hLead, Text.split_append_cons]
    · simp [segments, hBase, Text.split_append_cons, Text.split]
  · refine ⟨d.segments, ?_, ?_, .inl rfl⟩
    · simpa [segments] using Text.split_ne_nil '/' d.text.toList
    · simp [segments, hText, hLead, Text.split_append_cons]

/-- What is joined to a path gives its segments as steps, without a dot in front. -/
theorem components_join_named {d : Path} (hNamed : d.text ≠ "") {q : Path}
    (hRelative : q.isAbsolute = false) :
    (d.join q).components = d.components ++ q.segments.filterMap component? := by
  obtain ⟨front, hSome, hJoined, hOwn⟩ := segments_join d hRelative hNamed
  have hHead : (d.join q).head = d.head := by
    have hStart : (d.join q).segments.head? = d.segments.head? := by
      rw [hJoined, List.head?_append_of_ne_nil _ hSome]
      rcases hOwn with hOwn | hOwn
      · rw [hOwn]
      · rw [hOwn, List.head?_append_of_ne_nil _ hSome]
    rw [head, head, isAbsolute_join_of_relative d hRelative hNamed, hStart]
  have hSteps : front.filterMap component? = d.segments.filterMap component? := by
    rcases hOwn with hOwn | hOwn
    · rw [hOwn]
    · rw [hOwn, List.filterMap_append, show [""].filterMap component? = [] from by decide,
        List.append_nil]
  rw [components, hHead, hJoined, List.filterMap_append, hSteps, components, List.append_assoc]

/-- The steps of a joined path are those of both. -/
theorem components_join (d : Path) {q : Path} (hRelative : q.isAbsolute = false)
    (hFirst : q.segments.head? ≠ some ".") : (d.join q).components = d.components ++ q.components := by
  have hTail : q.components = q.segments.filterMap component? := by
    rw [components, head, hRelative, if_neg (by simp), if_neg hFirst, List.nil_append]
  by_cases hEmpty : d.text = ""
  · have hNone : d.components = [] := by
      rw [show d = ⟨""⟩ from congrArg Path.mk hEmpty]
      decide
    rw [join_of_empty q hEmpty, hNone, List.nil_append]
  · rw [components_join_named hEmpty hRelative, hTail]

theorem components_join_names (d : Path) {q : Path} (hNames : ∀ n ∈ q.segments, IsName n) :
    (d.join q).components = d.components ++ q.segments.map .name := by
  obtain ⟨hRelative, hFirst, hSteps⟩ := components_of_names hNames
  rw [components_join d hRelative hFirst, hSteps]

end Path

namespace FileSystem

/-- The segments passed on the way into a directory. -/
def inside (d : Path) : List Segment :=
  (d.segments.filter (· ≠ "")).map Segment.ofText

/-- Where the way along a path starts. -/
def origin (fs : FileSystem) (p : Path) : Location :=
  if p.isAbsolute then [] else fs.workingDirectory

theorem segments_of_last {p : Path} {front : List String} {n : String}
    (h : p.segments = front ++ [n]) (hNonempty : n ≠ "") :
    segments p = (front.filter (· ≠ "")).map Segment.ofText ++ [Segment.ofText n] := by
  cases front with
  | nil => simp [segments, h, hNonempty]
  | cons first rest => simp [segments, h]

/-- A slash at the end of a path asks for a directory; apart from that the segments are those passed
on the way in. -/
theorem segments_eq_inside (p : Path) :
    segments p = inside p ∨ segments p = inside p ++ [.stay] := by
  have hSome : p.segments ≠ [] := by simpa [Path.segments] using Text.split_ne_nil '/' p.text.toList
  obtain ⟨front, last, hParts⟩ : ∃ front last, p.segments = front ++ [last] :=
    ⟨_, _, (List.dropLast_append_getLast hSome).symm⟩
  by_cases hLast : last = ""
  · cases front with
    | nil => exact .inl (by simp [segments, inside, hParts, hLast])
    | cons first rest =>
        have hFilter : (first :: rest ++ [last]).filter (· ≠ "") =
            (first :: rest).filter (· ≠ "") := by
          rw [List.filter_append, hLast]
          simp
        refine .inr ?_
        rw [inside, hParts, hFilter]
        simp [segments, hParts, hLast, Segment.ofText]
  · exact .inl (by simp [segments_of_last hParts hLast, inside, hParts, hLast])

theorem segments_join (d : Path) {n : String} (hSlash : '/' ∉ n.toList) (hNonempty : n ≠ "") :
    segments (d.join ⟨n⟩) = inside d ++ [Segment.ofText n] := by
  have hName : (⟨n⟩ : Path).segments = [n] := by
    simp [Path.segments, Text.split_of_not_mem hSlash]
  by_cases hEmpty : d.text = ""
  · have hParts : (⟨n⟩ : Path).segments = [] ++ [n] := hName
    rw [Path.join_of_empty _ hEmpty, segments_of_last hParts hNonempty]
    simp [inside, Path.segments, hEmpty, Text.split]
  · obtain ⟨front, -, hParts, hOwn⟩ :=
      Path.segments_join d (Path.isAbsolute_of_no_slash hSlash) hEmpty
    rw [hName] at hParts
    rw [segments_of_last hParts hNonempty, inside]
    rcases hOwn with hOwn | hOwn <;> simp [hOwn]

theorem origin_join (fs : FileSystem) (d : Path) {n : String} (hSlash : '/' ∉ n.toList) :
    fs.origin (d.join ⟨n⟩) = fs.origin d := by
  have hRelative := Path.isAbsolute_of_no_slash hSlash
  have hAbsolute : (d.join ⟨n⟩).isAbsolute = d.isAbsolute := by
    by_cases hEmpty : d.text = ""
    · rw [Path.join_of_empty _ hEmpty, hRelative]
      simp [Path.isAbsolute, hEmpty]
    · exact Path.isAbsolute_join_of_relative d hRelative hEmpty
  rw [origin, origin, hAbsolute]

theorem join_ne_empty (d : Path) {n : String} (hSlash : '/' ∉ n.toList) (hNonempty : n ≠ "") :
    (d.join ⟨n⟩).text ≠ "" := by
  rw [Path.join_text d hSlash]
  simp [hNonempty]

/-! ### Arriving at a child -/

/-- A path that the system takes: without NUL, and not too long. -/
structure Fits (p : Path) : Prop where
  noNul : '\x00' ∉ p.text.toList
  short : p.text.utf8ByteSize ≤ pathLimit

theorem fits_join {d : Path} {n : String} (hSlash : '/' ∉ n.toList) (hDirectory : '\x00' ∉ d.text.toList)
    (hName : '\x00' ∉ n.toList) (hShort : (d.join ⟨n⟩).text.utf8ByteSize ≤ pathLimit) :
    Fits (d.join ⟨n⟩) := by
  refine ⟨?_, hShort⟩
  rw [Path.join_text d hSlash, String.toList_append, List.mem_append, not_or]
  refine ⟨?_, hName⟩
  rcases Path.lead_cases d with ⟨-, hLead⟩ | ⟨base, hBase, hLead⟩ | ⟨-, hLead⟩
  · simp [hLead]
  · rw [hLead, ← hBase]
    exact hDirectory
  · simp [hLead, hDirectory]

/-- A directory's path is no longer than those of its children. -/
theorem fits_of_join {d : Path} {n : String} (hSlash : '/' ∉ n.toList)
    (hFits : Fits (d.join ⟨n⟩)) : Fits d := by
  obtain ⟨tail, hTail⟩ := Path.join_extends d (Path.isAbsolute_of_no_slash hSlash)
  refine ⟨fun hNul => hFits.noNul ?_, le_trans ?_ hFits.short⟩
  · rw [hTail, String.toList_append]
    exact List.mem_append_left _ hNul
  · rw [hTail, String.utf8ByteSize_append]
    exact Nat.le_add_right _ _

/-- The path of a directory to itself is no longer than those of its children. -/
theorem fits_here {d : Path} {n : String} (hName : Path.IsName n) (hFits : Fits (d.join ⟨n⟩)) :
    Fits (d.join ⟨"."⟩) := by
  have hNul := hFits.noNul
  have hShort := hFits.short
  have hSize : n.utf8ByteSize ≠ 0 := fun h => hName.nonempty (String.utf8ByteSize_eq_zero_iff.mp h)
  rw [Path.join_text d hName.noSlash, String.toList_append, List.mem_append, not_or] at hNul
  rw [Path.join_text d hName.noSlash, String.utf8ByteSize_append] at hShort
  constructor
  · rw [Path.join_text d (by decide), String.toList_append, List.mem_append, not_or]
    exact ⟨hNul.1, by decide⟩
  · rw [Path.join_text d (by decide), String.utf8ByteSize_append]
    have hDot : ".".utf8ByteSize = 1 := by decide
    omega

/-- The directory at a path, with its place and its children. -/
structure Opens (fs : FileSystem) (d : Path) (l : Location) (entries : List (String × Node)) :
    Prop where
  way : travel fs.root true linkLimit (fs.origin d) (inside d ++ [.stay]) = .ok (.node l)
  found : fs.get? l = some (.directory entries)

theorem arrive_of_fits {fs : FileSystem} {p : Path} (followLast : Bool) (hFits : Fits p)
    (hNonempty : p.text ≠ "") :
    fs.arrive p followLast = travel fs.root followLast linkLimit (fs.origin p) (segments p) := by
  have hNul : p.text.toList.contains '\x00' = false := by simpa using hFits.noNul
  rw [arrive, hNul, if_neg (by simp), if_neg hNonempty, if_neg (by have := hFits.short; omega)]
  rfl

theorem fits_of_arrive {fs : FileSystem} {p : Path} {followLast : Bool} {a : Arrival}
    (h : fs.arrive p followLast = .ok a) : Fits p := by
  unfold arrive at h
  split at h
  · cases h
  · rename_i hNul
    split at h
    · cases h
    · split at h
      · cases h
      · rename_i hShort
        exact ⟨by simpa using hNul, by omega⟩

theorem arrive_join {fs : FileSystem} {d : Path} {n : String} (followLast : Bool)
    (hName : Path.IsName n) (hFits : Fits (d.join ⟨n⟩)) :
    fs.arrive (d.join ⟨n⟩) followLast =
      travel fs.root followLast linkLimit (fs.origin d) (inside d ++ [.name n]) := by
  have hSegment : Segment.ofText n = .name n := by
    simp [Segment.ofText, hName.nonempty, hName.noDot, hName.noDots]
  rw [arrive_of_fits followLast hFits (join_ne_empty d hName.noSlash hName.nonempty),
    origin_join fs d hName.noSlash, segments_join d hName.noSlash hName.nonempty, hSegment]

variable {fs : FileSystem} {d : Path} {n : String} {l : Location} {entries : List (String × Node)}

/-- The last step to a child, unless it is a link that is followed. -/
theorem travel_child {root : Node} (followLast : Bool) (links : Nat)
    (hFound : root.get? l = some (.directory entries)) (hShort : n.utf8ByteSize ≤ nameLimit)
    (hStays : followLast = true → ∀ target, entries.lookup n ≠ some (.symlink target)) :
    travel root followLast links l [.name n] =
      .ok (if (entries.lookup n).isSome then .node (l ++ [n]) else .vacant l n) := by
  have hStride : stride root followLast l [.name n] =
      .ok (if (entries.lookup n).isSome then .node (l ++ [n]) else .vacant l n) := by
    rw [stride, if_neg (by omega), Node.get?_child hFound]
    cases hChild : entries.lookup n with
    | none => simp [hFound, Node.isDirectory]
    | some child =>
        cases child with
        | file data => rfl
        | symlink target =>
            have hLast : followLast = false := by
              cases followLast with
              | false => rfl
              | true => exact absurd hChild (hStays rfl target)
            simp [hLast]
        | directory inner => rfl
  rw [travel, hStride]
  cases (entries.lookup n).isSome <;> rfl

/-- A path leads to a child's place, unless the child is a link that is followed. -/
theorem arrive_child (followLast : Bool) (hOpens : Opens fs d l entries) (hName : Path.IsName n)
    (hFits : Fits (d.join ⟨n⟩)) (hShort : n.utf8ByteSize ≤ nameLimit)
    (hStays : followLast = true → ∀ target, entries.lookup n ≠ some (.symlink target)) :
    fs.arrive (d.join ⟨n⟩) followLast =
      .ok (if (entries.lookup n).isSome then .node (l ++ [n]) else .vacant l n) := by
  rw [arrive_join followLast hName hFits]
  rcases travel_append linkLimit (fs.origin d) (inside d) with
    ⟨found, left, hEnd, hGoOn⟩ | ⟨e, hEnd, -⟩
  · rw [hOpens.way] at hEnd
    cases hEnd
    rw [hGoOn followLast [.name n] (by simp)]
    exact travel_child followLast left hOpens.found hShort hStays
  · rw [hOpens.way] at hEnd
    cases hEnd

/-- A path that leads anywhere leads into its directory first. -/
theorem way_of_arrive {followLast : Bool} {a : Arrival} (hName : Path.IsName n)
    (h : fs.arrive (d.join ⟨n⟩) followLast = .ok a) :
    Fits (d.join ⟨n⟩) ∧ n.utf8ByteSize ≤ nameLimit ∧
      ∃ l left, travel fs.root true linkLimit (fs.origin d) (inside d ++ [.stay]) = .ok (.node l) ∧
        travel fs.root followLast left l [.name n] = .ok a := by
  have hFits := fits_of_arrive h
  rw [arrive_join followLast hName hFits] at h
  rcases travel_append linkLimit (fs.origin d) (inside d) with
    ⟨l, left, hEnd, hGoOn⟩ | ⟨e, -, hGoOn⟩
  · rw [hGoOn followLast [.name n] (by simp)] at h
    refine ⟨hFits, ?_, l, left, hEnd, h⟩
    by_contra hLong
    have hStride : stride fs.root followLast l [.name n] = .error .nameTooLong := by
      rw [stride, if_pos (by omega)]
    rw [travel, hStride] at h
    cases h
  · rw [hGoOn followLast [.name n] (by simp)] at h
    cases h

/-- A path that leads anywhere has a directory to stand in. -/
theorem opens_of_arrive {followLast : Bool} {a : Arrival} (hName : Path.IsName n)
    (h : fs.arrive (d.join ⟨n⟩) followLast = .ok a) :
    Fits (d.join ⟨n⟩) ∧ n.utf8ByteSize ≤ nameLimit ∧ ∃ l entries, Opens fs d l entries := by
  obtain ⟨hFits, hShort, l, left, hWay, hStep⟩ := way_of_arrive hName h
  refine ⟨hFits, hShort, l, ?_⟩
  cases hChild : fs.get? (l ++ [n]) with
  | some child =>
      obtain ⟨entries, hDirectory⟩ := Node.directory_of_child hChild
      exact ⟨entries, hWay, hDirectory⟩
  | none =>
      rw [travel_missing followLast left hChild hShort] at hStep
      split at hStep
      · rename_i hAny
        obtain ⟨entries, hDirectory⟩ := Node.directory_of_any hAny
        exact ⟨entries, hWay, hDirectory⟩
      · cases hStep

/-- A child that is missing or a file is put, replaced or taken away in its directory alone. -/
theorem Opens.set (v : Option Node) (hOpens : Opens fs d l entries)
    (hFile : ∀ child, entries.lookup n = some child → child.isFile = true) :
    Opens (fs.set (l ++ [n]) v) d l (Node.setChild n v entries) := by
  have hPass : fs.root.Passable (fs.root.set v (l ++ [n])) := by
    refine Node.passable_set (by simp) fun child hChild => hFile child ?_
    rw [← Node.get?_child hOpens.found]
    exact hChild
  exact ⟨travel_passable hPass hOpens.way, Node.get?_set_parent hOpens.found⟩

/-- A way that leads into a directory after a file was put somewhere led there before, since it does not
lead through the file. -/
theorem travel_before_put {here place : Location} {way : List Segment} {data : FileData}
    (h : travel (fs.set (l ++ [n]) (some (.file data))).root true linkLimit here (way ++ [.stay]) =
      .ok (.node place)) (hFound : fs.get? l = some (.directory entries)) :
    travel fs.root true linkLimit here (way ++ [.stay]) = .ok (.node place) := by
  have hSome : l ++ [n] ≠ [] := by simp
  have hThere : (fs.root.set (some (.file data)) (l ++ [n])).get? (l ++ [n]) =
      some (.file data) := by
    rw [Node.get?_child (Node.get?_set_parent hFound), Node.lookup_setChild, if_pos rfl]
  have hGone : (fs.root.set (some (.file data)) (l ++ [n])).Passable (fs.root.set none (l ++ [n])) := by
    have hSame : (fs.root.set (some (.file data)) (l ++ [n] ++ [])).set none (l ++ [n]) =
        fs.root.set none (l ++ [n]) := Node.set_none_set hSome
    rw [List.append_nil] at hSame
    rw [← hSame]
    refine Node.passable_set hSome fun child hChild => ?_
    cases hThere.symm.trans hChild
    rfl
  exact travel_passable (Node.passable_of_set_none hSome) (travel_passable hGone h)

end FileSystem

end ModuleGateway
