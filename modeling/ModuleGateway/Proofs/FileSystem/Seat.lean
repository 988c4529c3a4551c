import ModuleGateway.Proofs.FileSystem.Access

/-!
The place where a directory is made. When the way to it does not lead through the directory itself, the
place does not depend on what the directory holds or whether it is there: it can be made, filled, removed
and made again.
-/

namespace ModuleGateway.FileSystem

variable {fs made : FileSystem} {d : Path} {dir : Location} {n : String}
  {entries : List (String × Node)}

/-! ### The last name of a way -/

/-- A way that ends at a missing name, links in last place not followed, has this name in last place,
and what stands in front of it leads to where the name is missing. -/
theorem last_of_vacant {root : Node} {links : Nat} {here : Location} {way : List Segment}
    (h : travel root false links here way = .ok (.vacant dir n)) :
    n.utf8ByteSize ≤ nameLimit ∧ ∃ front, way = front ++ [.name n] ∧
      travel root true links here (front ++ [.stay]) = .ok (.node dir) := by
  rcases List.eq_nil_or_concat way with rfl | ⟨front, last, rfl⟩
  · rw [travel] at h
    cases h
  · rw [List.concat_eq_append] at h ⊢
    rcases travel_append links here front with ⟨l, left, hEnd, hGoOn⟩ | ⟨e, -, hGoOn⟩
    · rw [hGoOn false [last] (by simp)] at h
      cases last with
      | stay => rw [travel] at h; cases h
      | up => rw [travel] at h; cases h
      | name text =>
          rw [travel, stride] at h
          by_cases hLong : nameLimit < text.utf8ByteSize
          · simp [hLong] at h
          · cases hFound : root.get? (l ++ [text]) with
            | none =>
                have hMissing := travel_missing false left hFound (by omega)
                rw [travel, stride] at hMissing
                rw [hMissing] at h
                split at h
                · cases h
                  exact ⟨by omega, front, rfl, hEnd⟩
                · cases h
            | some child =>
                cases child <;> simp [hLong, hFound, stride] at h
    · rw [hGoOn false [last] (by simp)] at h
      cases h

/-- A directory's path leads to the name `n` in the directory `dir`, and does so without what is there. -/
structure Seat (fs : FileSystem) (d : Path) (dir : Location) (n : String) : Prop where
  way : ∃ front, inside d = front ++ [.name n] ∧
    travel (fs.root.set none (dir ++ [n])) true linkLimit (fs.origin d) (front ++ [.stay]) =
      .ok (.node dir)
  /-- Without the slashes at its end the path ends in the name; a path of slashes only does not. -/
  asked : segments (dropTrailingSlashes d) = inside d
  short : n.utf8ByteSize ≤ nameLimit
  parent : ∃ entries, fs.get? dir = some (.directory entries)

/-- A directory can only be made in a place that does not depend on it. -/
theorem seat_of_makeDirectory (h : fs.makeDirectory d = .ok made) :
    ∃ dir n, Seat fs d dir n ∧ fs.get? (dir ++ [n]) = none ∧
      made = fs.set (dir ++ [n]) (some (.directory [])) := by
  obtain ⟨hAsked, dir, n, hVacant, rfl⟩ := vacant_of_makeDirectory h
  obtain ⟨hParent, hMissing⟩ := travel_vacant hVacant
  obtain ⟨hShort, front, hWay, hFront⟩ := last_of_vacant hVacant
  have hPass : fs.root.Passable (fs.root.set none (dir ++ [n])) :=
    Node.passable_set (by simp) (by simp [hMissing])
  exact ⟨dir, n, ⟨⟨front, hWay, travel_passable hPass hFront⟩, hAsked, hShort, hParent⟩, hMissing,
    rfl⟩

namespace Seat

/-- The place stays what it is, whatever is changed in it. -/
theorem set (h : Seat fs d dir n) (below : Location) (v : Option Node) :
    Seat (fs.set (dir ++ [n] ++ below) v) d dir n := by
  obtain ⟨front, hWay, hFront⟩ := h.way
  refine ⟨⟨front, hWay, ?_⟩, h.asked, h.short, ?_⟩
  · have hSame : ((fs.set (dir ++ [n] ++ below) v).root.set none (dir ++ [n])) =
        fs.root.set none (dir ++ [n]) := Node.set_none_set (by simp)
    rw [hSame]
    exact hFront
  · obtain ⟨entries, hParent⟩ := h.parent
    have hNotAbove : ¬ dir ++ [n] ++ below <+: dir := by
      intro hAbove
      have hLength := hAbove.length_le
      simp only [List.length_append, List.length_singleton] at hLength
      omega
    rcases Node.get?_set_of_not_prefix (v := v) (by simp) hNotAbove with
      hSame | ⟨old, new, -, hNew⟩
    · exact ⟨entries, hSame.trans hParent⟩
    · exact ⟨new, hNew⟩

/-- What is asked for at the place or behind it is looked up from the directory it is in. -/
theorem goesOn (h : Seat fs d dir n) :
    ∃ front left, inside d = front ++ [.name n] ∧
      ∀ followLast more, more ≠ [] →
        travel fs.root followLast linkLimit (fs.origin d) (front ++ more) =
          travel fs.root followLast left dir more := by
  obtain ⟨front, hWay, hFront⟩ := h.way
  have hHere := travel_passable (Node.passable_of_set_none (by simp)) hFront
  rcases travel_append linkLimit (fs.origin d) front with ⟨l, left, hEnd, hGoOn⟩ | ⟨e, hEnd, -⟩
  · rw [hHere] at hEnd
    cases hEnd
    exact ⟨front, left, hWay, hGoOn⟩
  · rw [hHere] at hEnd
    cases hEnd

theorem named (h : Seat fs d dir n) : d.text ≠ "" := by
  obtain ⟨front, hWay, -⟩ := h.way
  intro hEmpty
  have hNone : inside d = [] := by simp [inside, Path.segments, hEmpty, Text.split]
  rw [hNone] at hWay
  simp at hWay

theorem locate_missing (h : Seat fs d dir n) (hMissing : fs.get? (dir ++ [n]) = none) (l : Location) :
    fs.locate d false ≠ .ok l := by
  obtain ⟨front, left, hWay, hGoOn⟩ := h.goesOn
  intro hLocate
  have hArrive := locate_eq_ok_iff.mp hLocate
  rw [arrive_of_fits false (fits_of_arrive hArrive) h.named] at hArrive
  rcases segments_eq_inside d with hSegments | hSegments
  · rw [hSegments, hWay, hGoOn false _ (by simp), travel_missing false left hMissing h.short] at hArrive
    split at hArrive <;> cases hArrive
  · have hRoot : fs.root.get? (dir ++ [n]) = none := hMissing
    have hStride : stride fs.root false dir [.name n, .stay] = .error .noEntry := by
      rw [stride_name _ _ _ _ (by simp), if_neg (by have := h.short; omega), hRoot]
    rw [hSegments, hWay, List.append_assoc, hGoOn false _ (by simp)] at hArrive
    rw [List.singleton_append, travel, hStride] at hArrive
    cases hArrive

/-- Where nothing is, the directory can be made. -/
theorem makeDirectory (h : Seat fs d dir n) (hFits : Fits d)
    (hMissing : fs.get? (dir ++ [n]) = none) :
    fs.makeDirectory d = .ok (fs.set (dir ++ [n]) (some (.directory []))) := by
  obtain ⟨front, left, hWay, hGoOn⟩ := h.goesOn
  obtain ⟨hKept, -, hOrigin, hShort⟩ := dropTrailingSlashes_spec fs d h.named
  obtain ⟨entries, hParent⟩ := h.parent
  have hArrive : fs.arrive (dropTrailingSlashes d) false = .ok (.vacant dir n) := by
    rw [arrive_of_fits false (hShort hFits) hKept, hOrigin, h.asked, hWay, hGoOn false _ (by simp),
      travel_missing false left hMissing h.short]
    have hDirectory : fs.root.get? dir = some (.directory entries) := hParent
    rw [hDirectory]
    rfl
  rw [FileSystem.makeDirectory, hArrive]
  rfl

end Seat

/-- A directory in a place of its own, with its children. -/
structure Seated (fs : FileSystem) (d : Path) (l : Location) (entries : List (String × Node)) :
    Prop where
  seat : ∃ dir n, l = dir ++ [n] ∧ Seat fs d dir n
  found : fs.get? l = some (.directory entries)

/-- A directory that was made has a place of its own. -/
theorem seated_of_makeDirectory (h : fs.makeDirectory d = .ok made) : ∃ l, Seated made d l [] := by
  obtain ⟨dir, n, hSeat, -, rfl⟩ := seat_of_makeDirectory h
  obtain ⟨entries, hParent⟩ := hSeat.parent
  refine ⟨dir ++ [n], ⟨dir, n, rfl, ?_⟩, ?_⟩
  · simpa using hSeat.set [] (some (.directory []))
  · refine (Node.get?_child (Node.get?_set_parent hParent) n).trans ?_
    rw [Node.lookup_setChild, if_pos rfl]

namespace Seated

variable {l : Location}

theorem named (h : Seated fs d l entries) : d.text ≠ "" := by
  obtain ⟨dir, n, -, hSeat⟩ := h.seat
  exact hSeat.named

theorem opens (h : Seated fs d l entries) : Opens fs d l entries := by
  obtain ⟨dir, n, rfl, hSeat⟩ := h.seat
  obtain ⟨front, left, hWay, hGoOn⟩ := hSeat.goesOn
  have hFound : fs.root.get? (dir ++ [n]) = some (.directory entries) := h.found
  have hStride : stride fs.root true dir [.name n, .stay] = .ok (.node (dir ++ [n])) := by
    rw [stride, if_neg (by have := hSeat.short; omega), hFound]
    rfl
  refine ⟨?_, h.found⟩
  rw [hWay, List.append_assoc]
  exact (hGoOn true _ (by simp)).trans (travel_of_node hStride)

/-- The path leads to the directory itself, not to a link. -/
theorem locate (h : Seated fs d l entries) (hFits : Fits d) : fs.locate d false = .ok l := by
  obtain ⟨dir, n, rfl, hSeat⟩ := h.seat
  obtain ⟨front, left, hWay, hGoOn⟩ := hSeat.goesOn
  have hFound : fs.root.get? (dir ++ [n]) = some (.directory entries) := h.found
  have hStride (rest : List Segment) (hRest : rest = [] ∨ rest = [.stay]) :
      stride fs.root false dir (.name n :: rest) = .ok (.node (dir ++ [n])) := by
    rw [stride, if_neg (by have := hSeat.short; omega), hFound]
    rcases hRest with rfl | rfl <;> rfl
  refine locate_eq_ok_iff.mpr ?_
  rw [arrive_of_fits false hFits hSeat.named]
  rcases segments_eq_inside d with hSegments | hSegments
  · rw [hSegments, hWay, hGoOn false _ (by simp)]
    exact travel_of_node (hStride [] (.inl rfl))
  · rw [hSegments, hWay, List.append_assoc, hGoOn false _ (by simp)]
    exact travel_of_node (hStride [.stay] (.inr rfl))

/-- A child is set in the directory and nowhere else. -/
theorem set (h : Seated fs d l entries) (name : String) (child : Option Node) :
    Seated (fs.set (l ++ [name]) child) d l (Node.setChild name child entries) := by
  obtain ⟨dir, n, rfl, hSeat⟩ := h.seat
  exact ⟨⟨dir, n, rfl, hSeat.set [name] child⟩, Node.get?_set_parent h.found⟩

/-- A directory that was removed can be made again. -/
theorem makeDirectory_removed (h : Seated fs d l entries) (hFits : Fits d) :
    ∃ made, (fs.set l none).makeDirectory d = .ok made := by
  obtain ⟨dir, n, rfl, hSeat⟩ := h.seat
  have hGone : (fs.set (dir ++ [n]) none).get? (dir ++ [n]) = none := by
    have hNone : (fs.root.set none (dir ++ [n])).get? (dir ++ [n] ++ []) = none :=
      Node.get?_set_none (by simp)
    rw [List.append_nil] at hNone
    exact hNone
  exact ⟨_, Seat.makeDirectory (by simpa using hSeat.set [] none) hFits hGone⟩

end Seated

end ModuleGateway.FileSystem
