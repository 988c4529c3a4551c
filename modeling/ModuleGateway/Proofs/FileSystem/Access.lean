import ModuleGateway.Proofs.FileSystem.Directory

/-!
Reading and making directories, by the directory that a path opens.
-/

namespace ModuleGateway.FileSystem

variable {fs : FileSystem} {p d : Path} {n : String} {l : Location}
  {entries : List (String × Node)}

theorem locate_eq_ok_iff {followLast : Bool} :
    fs.locate p followLast = .ok l ↔ fs.arrive p followLast = .ok (.node l) := by
  unfold locate
  cases hArrive : fs.arrive p followLast with
  | error e => simp
  | ok a => cases a <;> simp

theorem stat_eq_ok_iff {node : Node} :
    fs.stat p = .ok node ↔ ∃ l, fs.arrive p = .ok (.node l) ∧ fs.get? l = some node := by
  unfold stat
  cases hLocate : fs.locate p with
  | error e =>
      have hNever (l : Location) : fs.arrive p ≠ .ok (.node l) := fun h => by
        rw [locate_eq_ok_iff.mpr h] at hLocate
        cases hLocate
      simp [bind, Except.bind, hNever]
  | ok l =>
      have hArrive := locate_eq_ok_iff.mp hLocate
      simp only [bind, Except.bind, hArrive, Except.ok.injEq, Arrival.node.injEq]
      cases hFound : fs.get? l with
      | none => simp [hFound]
      | some found => simp [hFound]

theorem read_eq_ok_iff {content : ByteArray} :
    fs.read p = .ok content ↔ ∃ data, fs.stat p = .ok (.file data) ∧ data.content = content := by
  unfold read
  cases fs.stat p with
  | error e => simp [bind, Except.bind]
  | ok node => cases node <;> simp [bind, Except.bind]

theorem list_eq_ok_iff : fs.list p = .ok entries ↔ fs.stat p = .ok (.directory entries) := by
  unfold list
  cases fs.stat p with
  | error e => simp [bind, Except.bind]
  | ok node => cases node <;> simp [bind, Except.bind]

/-- A directory is listed by a path to itself. -/
theorem list_here_iff :
    fs.list (d.join ⟨"."⟩) = .ok entries ↔
      Fits (d.join ⟨"."⟩) ∧ ∃ l, Opens fs d l entries := by
  have hSlash : '/' ∉ ".".toList := by decide
  have hArrive (hFits : Fits (d.join ⟨"."⟩)) : fs.arrive (d.join ⟨"."⟩) =
      travel fs.root true linkLimit (fs.origin d) (inside d ++ [.stay]) := by
    rw [arrive_of_fits true hFits (join_ne_empty d hSlash (by decide)), origin_join fs d hSlash,
      segments_join d hSlash (by decide)]
    rfl
  rw [list_eq_ok_iff, stat_eq_ok_iff]
  constructor
  · rintro ⟨l, hWay, hFound⟩
    have hFits := fits_of_arrive hWay
    exact ⟨hFits, l, (hArrive hFits).symm.trans hWay, hFound⟩
  · rintro ⟨hFits, l, hOpens⟩
    exact ⟨l, (hArrive hFits).trans hOpens.way, hOpens.found⟩

/-! ### Children -/

theorem read_child {data : FileData} (hOpens : Opens fs d l entries) (hName : Path.IsName n)
    (hFits : Fits (d.join ⟨n⟩)) (hShort : n.utf8ByteSize ≤ nameLimit)
    (hChild : entries.lookup n = some (.file data)) :
    fs.read (d.join ⟨n⟩) = .ok data.content := by
  have hArrive := arrive_child true hOpens hName hFits hShort (by simp [hChild])
  rw [hChild] at hArrive
  refine read_eq_ok_iff.mpr ⟨data, stat_eq_ok_iff.mpr ⟨l ++ [n], hArrive, ?_⟩, rfl⟩
  exact (Node.get?_child hOpens.found n).trans hChild

/-- A path that leads to a place leads to a child of its directory. -/
theorem child_of_arrive {followLast : Bool} {place : Location} (hName : Path.IsName n)
    (h : fs.arrive (d.join ⟨n⟩) followLast = .ok (.node place)) :
    Fits (d.join ⟨n⟩) ∧ n.utf8ByteSize ≤ nameLimit ∧
      ∃ l entries child, Opens fs d l entries ∧ entries.lookup n = some child := by
  obtain ⟨hFits, hShort, l, entries, hOpens⟩ := opens_of_arrive hName h
  cases hChild : entries.lookup n with
  | none =>
      rw [arrive_child followLast hOpens hName hFits hShort (by simp [hChild]), hChild] at h
      cases h
  | some child => exact ⟨hFits, hShort, l, entries, child, hOpens, hChild⟩

/-- What is read is a child of the directory, and its content when the child is no link. -/
theorem child_of_read {content : ByteArray} (hName : Path.IsName n)
    (h : fs.read (d.join ⟨n⟩) = .ok content) :
    Fits (d.join ⟨n⟩) ∧ n.utf8ByteSize ≤ nameLimit ∧
      ∃ l entries child, Opens fs d l entries ∧ entries.lookup n = some child ∧
        (child.isFile = true → ∃ data, child = .file data ∧ data.content = content) := by
  obtain ⟨data, hStat, hContent⟩ := read_eq_ok_iff.mp h
  obtain ⟨place, hArrive, hFound⟩ := stat_eq_ok_iff.mp hStat
  obtain ⟨hFits, hShort, l, entries, child, hOpens, hChild⟩ := child_of_arrive hName hArrive
  refine ⟨hFits, hShort, l, entries, child, hOpens, hChild, fun hFile => ?_⟩
  have hStays : true = true → ∀ target, entries.lookup n ≠ some (.symlink target) := by
    rintro - target hLink
    cases hChild.symm.trans hLink
    cases hFile
  rw [arrive_child true hOpens hName hFits hShort hStays, hChild] at hArrive
  cases hArrive
  have hSame : fs.get? (l ++ [n]) = some child :=
    (Node.get?_child hOpens.found n).trans hChild
  rw [hSame] at hFound
  cases hFound
  exact ⟨data, rfl, hContent⟩

theorem write_child (data : FileData) (hOpens : Opens fs d l entries) (hName : Path.IsName n)
    (hFits : Fits (d.join ⟨n⟩)) (hShort : n.utf8ByteSize ≤ nameLimit)
    (hFile : ∀ child, entries.lookup n = some child → child.isFile = true) :
    fs.write (d.join ⟨n⟩) data = .ok (fs.set (l ++ [n]) (some (.file data))) := by
  have hStays : true = true → ∀ target, entries.lookup n ≠ some (.symlink target) := by
    rintro - target hLink
    cases hFile _ hLink
  rw [write, arrive_child true hOpens hName hFits hShort hStays]
  cases hChild : entries.lookup n with
  | none => rfl
  | some child =>
      have hFound : fs.get? (l ++ [n]) = some child :=
        (Node.get?_child hOpens.found n).trans hChild
      have hLeaf := hFile child hChild
      cases child with
      | directory inner => cases hLeaf
      | symlink target => cases hLeaf
      | file old => simp [bind, Except.bind, hFound]

/-- A file is moved to another name in its directory, unless a directory is there. -/
theorem rename_child {m : String} {data : FileData} (hOpens : Opens fs d l entries)
    (hName : Path.IsName n) (hFits : Fits (d.join ⟨n⟩)) (hShort : n.utf8ByteSize ≤ nameLimit)
    (hChild : entries.lookup n = some (.file data)) (hOther : m ≠ n) (hTarget : Path.IsName m)
    (hTargetFits : Fits (d.join ⟨m⟩)) (hTargetShort : m.utf8ByteSize ≤ nameLimit) :
    fs.rename (d.join ⟨n⟩) (d.join ⟨m⟩) =
      if (entries.lookup m).any Node.isDirectory then .error .isDirectory
      else .ok ((fs.set (l ++ [n]) none).set (l ++ [m]) (some (.file data))) := by
  have hOrigin : fs.arrive (d.join ⟨n⟩) false = .ok (.node (l ++ [n])) := by
    rw [arrive_child false hOpens hName hFits hShort (by simp), hChild]
    rfl
  have hFound : fs.get? (l ++ [n]) = some (.file data) :=
    (Node.get?_child hOpens.found n).trans hChild
  rw [rename, locate_eq_ok_iff.mpr hOrigin]
  simp only [bind, Except.bind, hFound,
    arrive_child false hOpens hTarget hTargetFits hTargetShort (by simp)]
  cases hThere : entries.lookup m with
  | none => rfl
  | some child =>
      have hTargetFound : fs.get? (l ++ [m]) = some child :=
        (Node.get?_child hOpens.found m).trans hThere
      have hApart : l ++ [m] ≠ l ++ [n] := by simpa using hOther
      cases child <;> simp [hTargetFound, hApart, Node.isDirectory]

/-- Removing a child takes it out of its directory. -/
theorem remove_child {left : FileSystem} (hOpens : Opens fs d l entries) (hName : Path.IsName n)
    (h : fs.remove (d.join ⟨n⟩) = .ok left) : left = fs.set (l ++ [n]) none := by
  rw [remove] at h
  cases hLocate : fs.locate (d.join ⟨n⟩) false with
  | error e =>
      rw [hLocate] at h
      cases h
  | ok place =>
      have hArrive := locate_eq_ok_iff.mp hLocate
      obtain ⟨hFits, hShort, -⟩ := opens_of_arrive hName hArrive
      rw [arrive_child false hOpens hName hFits hShort (by simp)] at hArrive
      split at hArrive
      · cases hArrive
        simp only [hLocate, bind, Except.bind] at h
        split at h
        · cases h
        · cases h
          rfl
      · cases hArrive

/-- A file is taken out of its directory. -/
theorem remove_file {data : FileData} (hOpens : Opens fs d l entries) (hName : Path.IsName n)
    (hFits : Fits (d.join ⟨n⟩)) (hShort : n.utf8ByteSize ≤ nameLimit)
    (hChild : entries.lookup n = some (.file data)) :
    fs.remove (d.join ⟨n⟩) = .ok (fs.set (l ++ [n]) none) := by
  have hArrive := arrive_child false hOpens hName hFits hShort (by simp)
  rw [hChild] at hArrive
  have hFound : fs.get? (l ++ [n]) = some (.file data) :=
    (Node.get?_child hOpens.found n).trans hChild
  rw [remove, locate_eq_ok_iff.mpr hArrive]
  simp only [bind, Except.bind, hFound]

theorem child_of_existsAt (hName : Path.IsName n) (h : fs.existsAt (d.join ⟨n⟩) = true) :
    Fits (d.join ⟨n⟩) ∧ n.utf8ByteSize ≤ nameLimit ∧
      ∃ l entries child, Opens fs d l entries ∧ entries.lookup n = some child := by
  unfold existsAt at h
  split at h
  · rename_i node hStat
    obtain ⟨place, hArrive, -⟩ := stat_eq_ok_iff.mp hStat
    exact child_of_arrive hName hArrive
  · cases h

/-- What is removed was a child of its directory. -/
theorem child_of_remove {left : FileSystem} (hName : Path.IsName n)
    (h : fs.remove (d.join ⟨n⟩) = .ok left) :
    ∃ l entries child, Opens fs d l entries ∧ entries.lookup n = some child := by
  rw [remove] at h
  cases hLocate : fs.locate (d.join ⟨n⟩) false with
  | error e =>
      rw [hLocate] at h
      cases h
  | ok place => exact (child_of_arrive hName (locate_eq_ok_iff.mp hLocate)).2.2

theorem arrive_of_rename {source target : Path} {moved : FileSystem}
    (h : fs.rename source target = .ok moved) : ∃ a, fs.arrive target false = .ok a := by
  rw [rename] at h
  cases hSource : fs.locate source false with
  | error e => simp [hSource, bind, Except.bind] at h
  | ok place =>
      cases hFound : fs.get? place with
      | none => simp [hSource, hFound, bind, Except.bind] at h
      | some node =>
          cases hTarget : fs.arrive target false with
          | error e => simp [hSource, hFound, hTarget, bind, Except.bind] at h
          | ok a => exact ⟨a, rfl⟩

/-- A file is written into a directory. -/
theorem opens_of_write {written : FileSystem} {data : FileData} (hName : Path.IsName n)
    (hWrite : fs.write (d.join ⟨n⟩) data = .ok written) :
    Fits (d.join ⟨n⟩) ∧ n.utf8ByteSize ≤ nameLimit ∧ ∃ l entries, Opens fs d l entries := by
  cases hArrive : fs.arrive (d.join ⟨n⟩) with
  | error e =>
      rw [write, hArrive] at hWrite
      cases hWrite
  | ok a => exact opens_of_arrive hName hArrive

/-- Where a file could be written and no link was, nothing was or a file. -/
theorem isFile_of_write {written : FileSystem} {data : FileData} {child : Node}
    (hOpens : Opens fs d l entries) (hName : Path.IsName n)
    (hNoLink : ∀ target, entries.lookup n ≠ some (.symlink target))
    (hWrite : fs.write (d.join ⟨n⟩) data = .ok written) (hChild : entries.lookup n = some child) :
    child.isFile = true := by
  obtain ⟨hFits, hShort, -⟩ := opens_of_write hName hWrite
  have hFound : fs.get? (l ++ [n]) = some child :=
    (Node.get?_child hOpens.found n).trans hChild
  rw [write, arrive_child true hOpens hName hFits hShort fun _ => hNoLink, hChild] at hWrite
  cases child with
  | file old => rfl
  | symlink target => exact absurd hChild (hNoLink target)
  | directory inner => simp [bind, Except.bind, hFound] at hWrite

/-! ### Making directories -/

/-- A path without the slashes at its end opens the same directory. -/
theorem dropTrailingSlashes_spec (fs : FileSystem) (d : Path) (hNonempty : d.text ≠ "") :
    (dropTrailingSlashes d).text ≠ "" ∧ inside (dropTrailingSlashes d) = inside d ∧
      fs.origin (dropTrailingSlashes d) = fs.origin d ∧ (Fits d → Fits (dropTrailingSlashes d)) := by
  unfold dropTrailingSlashes
  dsimp only
  by_cases hSlashes : Text.trimEnd (· = '/') d.text.toList = []
  · rw [if_pos hSlashes]
    exact ⟨hNonempty, rfl, rfl, id⟩
  · rw [if_neg hSlashes]
    obtain ⟨tail, hText, hTail⟩ := Text.trimEnd_append (· = '/') d.text.toList
    generalize Text.trimEnd (· = '/') d.text.toList = kept at hSlashes hText
    have hWhole : d.text = String.ofList kept ++ String.ofList tail := by
      rw [← String.ofList_append, ← hText, String.ofList_toList]
    refine ⟨by simpa using hSlashes, ?_, ?_, fun hFits => ⟨?_, ?_⟩⟩
    · cases tail with
      | nil => simp [inside, Path.segments, hText]
      | cons c rest =>
          have hSlash : ∀ x ∈ c :: rest, x = '/' := by simpa using hTail
          obtain ⟨rfl, hRest⟩ := List.forall_mem_cons.mp hSlash
          have hIdle : ((Text.split '/' rest).map String.ofList).filter (· ≠ "") = [] := by
            refine List.filter_eq_nil_iff.mpr fun part hPart => ?_
            obtain ⟨chars, hChars, rfl⟩ := List.mem_map.mp hPart
            rw [Text.eq_nil_of_mem_split hRest hChars]
            simp
          simp only [inside, Path.segments, hText, Text.split_append_cons, List.map_append,
            List.filter_append, hIdle, List.append_nil, String.toList_ofList]
    · cases kept with
      | nil => exact absurd rfl hSlashes
      | cons c rest => simp [origin, Path.isAbsolute, hWhole]
    · refine fun hNul => hFits.noNul ?_
      rw [hText]
      exact List.mem_append_left _ (by simpa using hNul)
    · refine le_trans ?_ hFits.short
      rw [hWhole, String.utf8ByteSize_append]
      exact Nat.le_add_right _ _

/-- Only slashes are dropped. -/
theorem noNul_of_dropTrailingSlashes (h : '\x00' ∉ (dropTrailingSlashes d).text.toList) :
    '\x00' ∉ d.text.toList := by
  unfold dropTrailingSlashes at h
  dsimp only at h
  split at h
  · exact h
  · obtain ⟨tail, hText, hTail⟩ := Text.trimEnd_append (· = '/') d.text.toList
    rw [String.toList_ofList] at h
    rw [hText, List.mem_append, not_or]
    exact ⟨h, fun hNul => absurd (hTail _ hNul) (by decide)⟩

/-- A path that passes the same segments as a directory's leads to the directory, or to a link to it
when a link in last place is not followed. -/
theorem arrive_of_opens (followLast : Bool) (hOpens : Opens fs d l entries)
    (hInside : inside p = inside d) (hOrigin : fs.origin p = fs.origin d) (hFits : Fits p)
    (hNonempty : p.text ≠ "") :
    ∃ place, fs.arrive p followLast = .ok (.node place) ∧ (followLast = true → place = l) := by
  rw [arrive_of_fits followLast hFits hNonempty, hOrigin]
  rcases segments_eq_inside p with hWay | hWay
  · rw [hWay, hInside]
    exact travel_of_stay followLast hOpens.way
  · rw [hWay, hInside]
    rcases travel_append linkLimit (fs.origin d) (inside d) with
      ⟨found, left, hEnd, hGoOn⟩ | ⟨e, hEnd, -⟩
    · rw [hOpens.way] at hEnd
      cases hEnd
      exact ⟨l, by rw [hGoOn followLast [.stay] (by simp), travel]; rfl, fun _ => rfl⟩
    · rw [hOpens.way] at hEnd
      cases hEnd

theorem stat_of_opens (hOpens : Opens fs d l entries) (hFits : Fits d) (hNonempty : d.text ≠ "") :
    fs.stat d = .ok (.directory entries) := by
  obtain ⟨place, hArrive, hSame⟩ := arrive_of_opens true hOpens rfl rfl hFits hNonempty
  obtain rfl := hSame rfl
  exact stat_eq_ok_iff.mpr ⟨place, hArrive, hOpens.found⟩

/-- A directory that is there need not be made. -/
theorem makeDirectories_of_opens (hOpens : Opens fs d l entries) (hFits : Fits d) :
    fs.makeDirectories d = .ok fs := by
  unfold makeDirectories
  by_cases hEmpty : d.text = ""
  · rw [if_pos hEmpty]
  · rw [if_neg hEmpty]
    obtain ⟨hKept, hInside, hOrigin, hShort⟩ := dropTrailingSlashes_spec fs d hEmpty
    -- The last step does not follow links, so it may end at a link to the directory.
    obtain ⟨place, hPlace, -⟩ :=
      arrive_of_opens false hOpens hInside hOrigin (hShort hFits) hKept
    have hMade : fs.makeDirectory d = .error .exists := by
      rw [makeDirectory, hPlace]
      rfl
    have hThere : fs.isDirectory d = true := by
      rw [isDirectory, stat_of_opens hOpens hFits hEmpty]
      rfl
    unfold makeDirectoriesFor
    rw [hMade]
    exact if_pos hThere

theorem named_of_list (h : fs.list d = .ok entries) : d.text ≠ "" := by
  intro hEmpty
  obtain ⟨l, hArrive, -⟩ := stat_eq_ok_iff.mp (list_eq_ok_iff.mp h)
  simp [arrive, hEmpty] at hArrive

/-- What is listed is the directory that the path opens. -/
theorem opens_of_list (h : fs.list d = .ok entries) : Fits d ∧ ∃ l, Opens fs d l entries := by
  obtain ⟨l, hArrive, hFound⟩ := stat_eq_ok_iff.mp (list_eq_ok_iff.mp h)
  have hFits := fits_of_arrive hArrive
  refine ⟨hFits, l, ?_, hFound⟩
  rw [arrive_of_fits true hFits (named_of_list h)] at hArrive
  rcases segments_eq_inside d with hWay | hWay
  · rw [hWay] at hArrive
    refine travel_entered (a := .node l) ⟨fun h => ⟨_, h⟩, id⟩ ?_ (by simp) hArrive
    intro place hPlace
    cases hPlace
    exact ⟨entries, hFound⟩
  · rw [hWay] at hArrive
    exact hArrive

theorem isDirectory_iff_list : fs.isDirectory d = true ↔ ∃ entries, fs.list d = .ok entries := by
  simp only [list_eq_ok_iff]
  unfold isDirectory
  cases fs.stat d with
  | error e => simp
  | ok node => cases node <;> simp [Node.isDirectory]

theorem opens_of_isDirectory (h : fs.isDirectory d = true) : ∃ l entries, Opens fs d l entries := by
  obtain ⟨entries, hListed⟩ := isDirectory_iff_list.mp h
  obtain ⟨-, l, hOpens⟩ := opens_of_list hListed
  exact ⟨l, entries, hOpens⟩

theorem fits_of_isDirectory (h : fs.isDirectory d = true) : Fits d := by
  obtain ⟨entries, hListed⟩ := isDirectory_iff_list.mp h
  exact (opens_of_list hListed).1

/-- The empty path names no directory to make. -/
theorem named_of_makeDirectory {made : FileSystem} (h : fs.makeDirectory d = .ok made) :
    d.text ≠ "" := by
  intro hEmpty
  have hSame : dropTrailingSlashes d = d := by
    unfold dropTrailingSlashes
    simp [hEmpty, Text.trimEnd]
  rw [makeDirectory, hSame] at h
  simp [arrive, hEmpty, bind, Except.bind] at h

/-- A directory is made where the way into it ends at a missing name. -/
theorem vacant_of_makeDirectory {made : FileSystem} (h : fs.makeDirectory d = .ok made) :
    segments (dropTrailingSlashes d) = inside d ∧
      ∃ dir name, travel fs.root false linkLimit (fs.origin d) (inside d) = .ok (.vacant dir name) ∧
        made = fs.set (dir ++ [name]) (some (.directory [])) := by
  obtain ⟨hKept, hInside, hOrigin, -⟩ := dropTrailingSlashes_spec fs d (named_of_makeDirectory h)
  rw [makeDirectory] at h
  cases hArrive : fs.arrive (dropTrailingSlashes d) false with
  | error e =>
      rw [hArrive] at h
      cases h
  | ok a =>
      rw [hArrive] at h
      cases a with
      | node l => cases h
      | vacant dir name =>
          cases h
          rw [arrive_of_fits false (fits_of_arrive hArrive) hKept, hOrigin] at hArrive
          rcases segments_eq_inside (dropTrailingSlashes d) with hWay | hWay
          · rw [hWay, hInside] at hArrive ⊢
            exact ⟨rfl, dir, name, hArrive, rfl⟩
          · rw [hWay] at hArrive
            exact absurd hArrive (travel_stay_ne_vacant _)

/-- A directory that was made is there, and empty. -/
theorem opens_of_makeDirectory {made : FileSystem} (h : fs.makeDirectory d = .ok made) :
    ∃ l, Opens made d l [] := by
  obtain ⟨-, dir, name, hVacant, rfl⟩ := vacant_of_makeDirectory h
  obtain ⟨⟨entries, hDirectory⟩, hMissing⟩ := travel_vacant hVacant
  have hPass : fs.root.Passable (fs.root.set (some (.directory [])) (dir ++ [name])) :=
    Node.passable_set (by simp) (by simp [hMissing])
  have hMade : (fs.root.set (some (.directory [])) (dir ++ [name])).get? (dir ++ [name]) =
      some (.directory []) := by
    rw [Node.get?_child (Node.get?_set_parent hDirectory), Node.lookup_setChild, if_pos rfl]
  refine ⟨dir ++ [name], ?_, hMade⟩
  refine travel_entered (a := .vacant dir name) hPass (by simp) ?_ hVacant
  intro place last hPlace
  cases hPlace
  exact ⟨[], hMade⟩

/-- When a directory is made with those above it, it is made last or is there already. -/
theorem makeDirectories_cases {ready : FileSystem} (hNonempty : d.text ≠ "")
    (h : fs.makeDirectories d = .ok ready) :
    (∃ above : FileSystem, above.makeDirectory d = .ok ready) ∨ ready.isDirectory d = true := by
  rw [makeDirectories, if_neg hNonempty] at h
  unfold makeDirectoriesFor at h
  split at h
  · rename_i made hMade
    cases h
    exact .inl ⟨fs, hMade⟩
  · split at h
    · split at h
      · cases h
      · rename_i above hAbove
        split at h
        · rename_i made hMade
          cases h
          exact .inl ⟨above, hMade⟩
        · split at h
          · rename_i hThere
            cases h
            exact .inr hThere
          · cases h
    · cases h
  · split at h
    · rename_i hThere
      cases h
      exact .inr hThere
    · cases h

/-- After a directory was made with those above it, it is there. -/
theorem opens_of_makeDirectories {ready : FileSystem} (hNonempty : d.text ≠ "")
    (h : fs.makeDirectories d = .ok ready) : ∃ l entries, Opens ready d l entries := by
  rcases makeDirectories_cases hNonempty h with ⟨above, hMade⟩ | hThere
  · obtain ⟨l, hOpens⟩ := opens_of_makeDirectory hMade
    exact ⟨l, [], hOpens⟩
  · exact opens_of_isDirectory hThere

/-- There is no NUL in the path of a directory that can be made. -/
theorem noNul_of_makeDirectories {ready : FileSystem} (h : fs.makeDirectories d = .ok ready) :
    '\x00' ∉ d.text.toList := by
  by_cases hEmpty : d.text = ""
  · simp [hEmpty]
  · rcases makeDirectories_cases hEmpty h with ⟨above, hMade⟩ | hThere
    · rw [makeDirectory] at hMade
      cases hArrive : above.arrive (dropTrailingSlashes d) false with
      | error e =>
          rw [hArrive] at hMade
          cases hMade
      | ok a => exact noNul_of_dropTrailingSlashes (fits_of_arrive hArrive).noNul
    · exact (fits_of_isDirectory hThere).noNul

theorem makeDirectories_again {ready : FileSystem} (hFits : Fits d)
    (h : fs.makeDirectories d = .ok ready) : ready.makeDirectories d = .ok ready := by
  by_cases hEmpty : d.text = ""
  · rw [makeDirectories, if_pos hEmpty]
  · obtain ⟨l, entries, hOpens⟩ := opens_of_makeDirectories hEmpty h
    exact makeDirectories_of_opens hOpens hFits

end ModuleGateway.FileSystem
