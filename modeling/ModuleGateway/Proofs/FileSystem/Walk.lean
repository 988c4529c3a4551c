import ModuleGateway.FileSystem.Walk
import ModuleGateway.Proofs.FileSystem.Tree

/-!
Ways that end in a directory. A way with a dot behind it asks for a directory, so it never ends at a
missing name. Where such a way leads decides what any longer way does, and it leads to the same place
in every tree that has the same directories and links.
-/

namespace ModuleGateway.FileSystem

variable {root after : Node} {followLast : Bool} {links : Nat} {here l : Location}
  {way more : List Segment}

/-! ### Up to the first link -/

/-- One name on a way that goes on. -/
theorem stride_name (root : Node) (followLast : Bool) (here : Location) (text : String)
    {rest : List Segment} (hRest : rest ≠ []) :
    stride root followLast here (.name text :: rest) =
      if nameLimit < text.utf8ByteSize then .error .nameTooLong
      else
        match root.get? (here ++ [text]) with
        | none => .error .noEntry
        | some (.symlink target) => .ok (.link here target rest)
        | some (.file _) => .error .notDirectory
        | some (.directory _) => stride root followLast (here ++ [text]) rest := by
  rw [stride]
  cases root.get? (here ++ [text]) with
  | none => simp [hRest]
  | some child => cases child <;> simp [hRest]

theorem stride_stay {r : Reached} (h : stride root true here (way ++ [.stay]) = .ok r) :
    (∃ l, r = .node l) ∨ ∃ dir target inner, r = .link dir target (inner ++ [.stay]) := by
  induction way generalizing here with
  | nil =>
      cases h
      exact .inl ⟨here, rfl⟩
  | cons segment rest ih =>
      cases segment with
      | stay => exact ih h
      | up => exact ih h
      | name text =>
          rw [List.cons_append, stride_name _ _ _ _ (by simp)] at h
          split at h
          · cases h
          · split at h
            · cases h
            · cases h
              exact .inr ⟨here, _, rest, rfl⟩
            · cases h
            · exact ih h

theorem stride_append (followLast : Bool) (hMore : more ≠ []) :
    stride root followLast here (way ++ more) =
      match stride root true here (way ++ [.stay]) with
      | .ok (.node l) => stride root followLast l more
      | .ok (.link dir target rest) => .ok (.link dir target (rest.dropLast ++ more))
      | .ok (.vacant dir name) => .ok (.vacant dir name)
      | .error e => .error e := by
  induction way generalizing here with
  | nil => rfl
  | cons segment rest ih =>
      cases segment with
      | stay => exact ih
      | up => exact ih
      | name text =>
          rw [List.cons_append, List.cons_append, stride_name _ _ _ _ (by simp [hMore]),
            stride_name _ _ _ _ (by simp)]
          split
          · rfl
          · cases root.get? (here ++ [text]) with
            | none => rfl
            | some node =>
                cases node with
                | file data => rfl
                | symlink target => simp
                | directory entries => exact ih

theorem stride_passable (hPass : root.Passable after) {r : Reached}
    (h : stride root true here (way ++ [.stay]) = .ok r) :
    stride after true here (way ++ [.stay]) = .ok r := by
  induction way generalizing here with
  | nil => exact h
  | cons segment rest ih =>
      cases segment with
      | stay => exact ih h
      | up => exact ih h
      | name text =>
          rw [List.cons_append, stride_name _ _ _ _ (by simp)] at h ⊢
          split at h
          · cases h
          · rename_i hSize
            rw [if_neg hSize]
            cases hFound : root.get? (here ++ [text]) with
            | none => simp [hFound] at h
            | some node =>
                cases node with
                | file data => simp [hFound] at h
                | symlink target =>
                    rw [hPass.symlink hFound]
                    simpa only [hFound] using h
                | directory entries =>
                    obtain ⟨now, hNow⟩ := hPass.directory hFound
                    rw [hNow]
                    exact ih (by simpa only [hFound] using h)

/-! ### Over links -/

theorem travel_of_node (h : stride root followLast here way = .ok (.node l)) :
    travel root followLast links here way = .ok (.node l) := by
  rw [travel, h]

theorem travel_of_link {dir : Location} {target : String} {rest : List Segment}
    (h : stride root followLast here way = .ok (.link dir target rest)) :
    travel root followLast (links + 1) here way =
      travel root followLast links (if (⟨target⟩ : Path).isAbsolute then [] else dir)
        (segments ⟨target⟩ ++ rest) := by
  rw [travel, h]

/-- A way that leads anywhere ends before the first link, or goes on behind it with one link less. -/
theorem travel_cases {a : Arrival} (h : travel root followLast links here way = .ok a) :
    (∃ l, stride root followLast here way = .ok (.node l) ∧ a = .node l) ∨
    (∃ dir name, stride root followLast here way = .ok (.vacant dir name) ∧ a = .vacant dir name) ∨
    (∃ dir target rest left, stride root followLast here way = .ok (.link dir target rest) ∧
      links = left + 1 ∧ travel root followLast left
        (if (⟨target⟩ : Path).isAbsolute then [] else dir) (segments ⟨target⟩ ++ rest) = .ok a) := by
  rw [travel] at h
  cases hStride : stride root followLast here way with
  | error e => simp [hStride] at h
  | ok r =>
      rw [hStride] at h
      cases r with
      | node l =>
          cases h
          exact .inl ⟨l, rfl, rfl⟩
      | vacant dir name =>
          cases h
          exact .inr (.inl ⟨dir, name, rfl, rfl⟩)
      | link dir target rest =>
          cases links with
          | zero => cases h
          | succ left => exact .inr (.inr ⟨dir, target, rest, left, rfl, rfl, h⟩)

/-- A way that ends in a directory is gone to its end before what lies behind it matters. -/
theorem travel_append (links : Nat) (here : Location) (way : List Segment) :
    (∃ l left, travel root true links here (way ++ [.stay]) = .ok (.node l) ∧
      ∀ followLast more, more ≠ [] →
        travel root followLast links here (way ++ more) = travel root followLast left l more) ∨
    (∃ e, travel root true links here (way ++ [.stay]) = .error e ∧
      ∀ followLast more, more ≠ [] →
        travel root followLast links here (way ++ more) = .error e) := by
  induction links generalizing here way with
  | zero =>
      cases hStride : stride root true here (way ++ [.stay]) with
      | error e =>
          refine .inr ⟨e, by rw [travel, hStride], fun followLast more hMore => ?_⟩
          rw [travel, stride_append followLast hMore, hStride]
      | ok r =>
          rcases stride_stay hStride with ⟨l, rfl⟩ | ⟨dir, target, inner, rfl⟩
          · refine .inl ⟨l, 0, by rw [travel, hStride], fun followLast more hMore => ?_⟩
            rw [travel, stride_append followLast hMore, hStride, travel]
          · refine .inr ⟨.tooManyLinks, by rw [travel, hStride], fun followLast more hMore => ?_⟩
            rw [travel, stride_append followLast hMore, hStride]
  | succ links ih =>
      cases hStride : stride root true here (way ++ [.stay]) with
      | error e =>
          refine .inr ⟨e, by rw [travel, hStride], fun followLast more hMore => ?_⟩
          rw [travel, stride_append followLast hMore, hStride]
      | ok r =>
          rcases stride_stay hStride with ⟨l, rfl⟩ | ⟨dir, target, inner, rfl⟩
          · refine .inl ⟨l, links + 1, by rw [travel, hStride], fun followLast more hMore => ?_⟩
            rw [travel, stride_append followLast hMore, hStride, travel]
          · -- The way goes on behind the link's target.
            have hNext (followLast : Bool) (more : List Segment) (hMore : more ≠ []) :
                travel root followLast (links + 1) here (way ++ more) =
                  travel root followLast links (if (⟨target⟩ : Path).isAbsolute then [] else dir)
                    ((segments ⟨target⟩ ++ inner) ++ more) := by
              rw [travel, stride_append followLast hMore, hStride]
              simp
            rw [hNext true [.stay] (by simp)]
            rcases ih _ (segments ⟨target⟩ ++ inner) with
              ⟨l, left, hEnd, hGoOn⟩ | ⟨e, hEnd, hGoOn⟩
            · refine .inl ⟨l, left, hEnd, fun followLast more hMore => ?_⟩
              rw [hNext followLast more hMore, hGoOn followLast more hMore]
            · refine .inr ⟨e, hEnd, fun followLast more hMore => ?_⟩
              rw [hNext followLast more hMore, hGoOn followLast more hMore]

/-- A way with a dot behind it never ends at a missing name. -/
theorem travel_stay_ne_vacant (way : List Segment) {dir : Location} {name : String} :
    travel root followLast links here (way ++ [.stay]) ≠ .ok (.vacant dir name) := by
  intro h
  rcases travel_append links here way with ⟨l, left, -, hGoOn⟩ | ⟨e, -, hGoOn⟩
  · rw [hGoOn followLast [.stay] (by simp), travel] at h
    cases h
  · rw [hGoOn followLast [.stay] (by simp)] at h
    cases h

theorem travel_passable (hPass : root.Passable after)
    (h : travel root true links here (way ++ [.stay]) = .ok (.node l)) :
    travel after true links here (way ++ [.stay]) = .ok (.node l) := by
  induction links using Nat.strongRecOn generalizing here way with
  | ind links ih =>
      rcases travel_cases h with ⟨found, hStride, hSame⟩ | ⟨dir, name, -, hSame⟩ |
        ⟨dir, target, rest, left, hStride, rfl, hRest⟩
      · cases hSame
        exact travel_of_node (stride_passable hPass hStride)
      · cases hSame
      · rw [travel_of_link (stride_passable hPass hStride)]
        rcases stride_stay hStride with ⟨found, hNode⟩ | ⟨place, link, inner, hLink⟩
        · cases hNode
        · cases hLink
          rw [← List.append_assoc] at hRest ⊢
          exact ih left (by omega) hRest

/-- What a way reaches when the segment at its end is taken away, as long as a link comes first. -/
def Reached.shorten : Reached → Reached
  | .link dir target rest => .link dir target rest.dropLast
  | other => other

/-- Without the dot behind it a way leads to the same place, unless a link in last place is the end. -/
theorem stride_of_stay {r : Reached} (followLast : Bool)
    (h : stride root true here (way ++ [.stay]) = .ok r) :
    stride root followLast here way = .ok r.shorten ∨
      followLast = false ∧ ∃ l, stride root followLast here way = .ok (.node l) := by
  induction way generalizing here with
  | nil =>
      cases h
      exact .inl rfl
  | cons segment rest ih =>
      cases segment with
      | stay => exact ih h
      | up => exact ih h
      | name text =>
          rw [List.cons_append, stride_name _ _ _ _ (by simp)] at h
          rw [stride]
          split at h
          · cases h
          · rename_i hSize
            rw [if_neg hSize]
            cases hFound : root.get? (here ++ [text]) with
            | none => simp [hFound] at h
            | some node =>
                cases node with
                | file data => simp [hFound] at h
                | directory entries => exact ih (by simpa only [hFound] using h)
                | symlink target =>
                    have hLink : r = .link here target (rest ++ [.stay]) := by
                      simpa [hFound, eq_comm] using h
                    subst hLink
                    cases followLast with
                    | true => exact .inl (by simp [Reached.shorten])
                    | false =>
                        by_cases hLast : rest = []
                        · exact .inr ⟨rfl, here ++ [text], by simp [hLast]⟩
                        · exact .inl (by simp [hLast, Reached.shorten])

theorem travel_of_stay (followLast : Bool)
    (h : travel root true links here (way ++ [.stay]) = .ok (.node l)) :
    ∃ found, travel root followLast links here way = .ok (.node found) ∧
      (followLast = true → found = l) := by
  induction links using Nat.strongRecOn generalizing here way with
  | ind links ih =>
      rcases travel_cases h with ⟨found, hStride, hSame⟩ | ⟨dir, name, -, hSame⟩ |
        ⟨dir, target, rest, left, hStride, rfl, hRest⟩
      · cases hSame
        rcases stride_of_stay followLast hStride with hKept | ⟨rfl, other, hOther⟩
        · exact ⟨l, travel_of_node hKept, fun _ => rfl⟩
        · exact ⟨other, travel_of_node hOther, by simp⟩
      · cases hSame
      · rcases stride_of_stay followLast hStride with hKept | ⟨rfl, other, hOther⟩
        · rcases stride_stay hStride with ⟨found, hNode⟩ | ⟨place, link, inner, hLink⟩
          · cases hNode
          · cases hLink
            simp only [Reached.shorten, List.dropLast_concat] at hKept
            rw [travel_of_link hKept]
            rw [← List.append_assoc] at hRest
            exact ih left (by omega) hRest
        · exact ⟨other, travel_of_node hOther, by simp⟩

/-- A way whose last name is missing ends in front of it. -/
theorem travel_missing {name : String} (followLast : Bool) (links : Nat)
    (hMissing : root.get? (l ++ [name]) = none) (hShort : name.utf8ByteSize ≤ nameLimit) :
    travel root followLast links l [.name name] =
      if (root.get? l).any Node.isDirectory then .ok (.vacant l name) else .error .noEntry := by
  have hStride : stride root followLast l [.name name] =
      if (root.get? l).any Node.isDirectory then .ok (.vacant l name) else .error .noEntry := by
    rw [stride, if_neg (by omega), hMissing]
    simp
  rw [travel, hStride]
  cases (root.get? l).any Node.isDirectory <;> rfl

/-! ### Into a directory that is there or was made -/

/-- Where a way ends that asks for a directory at its end. -/
def Reached.entered : Reached → Reached
  | .node l => .node l
  | .vacant dir name => .node (dir ++ [name])
  | .link dir target rest => .link dir target (rest ++ [.stay])

/-- The place at the end of a way, whether anything is there or not. -/
def Arrival.place : Arrival → Location
  | .node l => l
  | .vacant dir name => dir ++ [name]

theorem stride_entered {r : Reached} (hPass : root.Passable after)
    (hNode : ∀ l, r = .node l → ∃ entries, root.get? l = some (.directory entries))
    (hMade : ∀ dir name, r = .vacant dir name →
      ∃ entries, after.get? (dir ++ [name]) = some (.directory entries))
    (h : stride root followLast here way = .ok r) :
    stride after true here (way ++ [.stay]) = .ok r.entered := by
  induction way generalizing here with
  | nil =>
      cases h
      rfl
  | cons segment rest ih =>
      cases segment with
      | stay => exact ih h
      | up => exact ih h
      | name text =>
          rw [List.cons_append, stride_name _ _ _ _ (by simp)]
          rw [stride] at h
          split at h
          · cases h
          · rename_i hShort
            rw [if_neg hShort]
            split at h
            · -- The last name was missing and stands for a directory now.
              split at h
              · rename_i hLast
                rw [Bool.and_eq_true, decide_eq_true_eq] at hLast
                obtain ⟨rfl, -⟩ := hLast
                cases h
                obtain ⟨entries, hEntries⟩ := hMade here text rfl
                rw [hEntries]
                rfl
              · cases h
            · rename_i target hLink
              rw [hPass.symlink hLink]
              split at h
              · cases h
                obtain ⟨entries, hEntries⟩ := hNode _ rfl
                rw [hLink] at hEntries
                cases hEntries
              · cases h
                rfl
            · rename_i data hFile
              split at h
              · cases h
                obtain ⟨entries, hEntries⟩ := hNode _ rfl
                rw [hFile] at hEntries
                cases hEntries
              · cases h
            · rename_i entries hDirectory
              obtain ⟨now, hNow⟩ := hPass.directory hDirectory
              rw [hNow]
              exact ih h

/-- A way that ends at a directory, or at a missing name where a directory is put, leads into that
directory. -/
theorem travel_entered {a : Arrival} (hPass : root.Passable after)
    (hNode : ∀ l, a = .node l → ∃ entries, root.get? l = some (.directory entries))
    (hMade : ∀ dir name, a = .vacant dir name →
      ∃ entries, after.get? (dir ++ [name]) = some (.directory entries))
    (h : travel root followLast links here way = .ok a) :
    travel after true links here (way ++ [.stay]) = .ok (.node a.place) := by
  induction links using Nat.strongRecOn generalizing here way with
  | ind links ih =>
      rcases travel_cases h with ⟨found, hStride, rfl⟩ | ⟨dir, name, hStride, rfl⟩ |
        ⟨dir, target, rest, left, hStride, rfl, hRest⟩
      · exact travel_of_node (stride_entered hPass (by simpa using hNode) (by simp) hStride)
      · exact travel_of_node (stride_entered hPass (by simp) (by simpa using hMade) hStride)
      · rw [travel_of_link (stride_entered hPass (by simp) (by simp) hStride), ← List.append_assoc]
        exact ih left (by omega) hRest

/-- A missing name is missing from a directory. -/
theorem stride_vacant {dir : Location} {name : String}
    (h : stride root followLast here way = .ok (.vacant dir name)) :
    (∃ entries, root.get? dir = some (.directory entries)) ∧ root.get? (dir ++ [name]) = none := by
  induction way generalizing here with
  | nil => cases h
  | cons segment rest ih =>
      cases segment with
      | stay => exact ih h
      | up => exact ih h
      | name text =>
          rw [stride] at h
          split at h
          · cases h
          · split at h
            · rename_i hMissing
              split at h
              · rename_i hLast
                cases h
                rw [Bool.and_eq_true] at hLast
                exact ⟨Node.directory_of_any hLast.2, hMissing⟩
              · cases h
            · split at h <;> cases h
            · split at h <;> cases h
            · exact ih h

theorem travel_vacant {dir : Location} {name : String}
    (h : travel root followLast links here way = .ok (.vacant dir name)) :
    (∃ entries, root.get? dir = some (.directory entries)) ∧ root.get? (dir ++ [name]) = none := by
  induction links using Nat.strongRecOn generalizing here way with
  | ind links ih =>
      rcases travel_cases h with ⟨found, -, hSame⟩ | ⟨place, last, hStride, hSame⟩ |
        ⟨place, target, rest, left, -, rfl, hRest⟩
      · cases hSame
      · cases hSame
        exact stride_vacant hStride
      · exact ih left (by omega) hRest

end ModuleGateway.FileSystem
