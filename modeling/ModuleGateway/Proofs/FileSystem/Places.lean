import ModuleGateway.Proofs.FileSystem.Canonical

/-!
File systems as a system keeps them. The children of a directory have different names, and each of these can
stand in a path. For a given tree both are found out by going through its places.
-/

namespace ModuleGateway

/-! ### Places -/

namespace Node

mutual
/-- The locations in a tree with what is there, links not followed. -/
def places : Node → List (Location × Node)
  | .file data => [([], .file data)]
  | .symlink target => [([], .symlink target)]
  | .directory entries => ([], .directory entries) :: placesIn entries

/-- The locations below the entries of a directory, which start with the names of the entries. -/
def placesIn : List (String × Node) → List (Location × Node)
  | [] => []
  | (name, child) :: rest => child.places.map (fun (l, found) => (name :: l, found)) ++ placesIn rest
end

variable {node found : Node} {entries : List (String × Node)} {l : Location}

theorem self_mem_places (node : Node) : ([], node) ∈ node.places := by
  cases node <;> simp [places]

theorem mem_placesIn {name : String} {child : Node} (hChild : (name, child) ∈ entries)
    (h : (l, found) ∈ child.places) : (name :: l, found) ∈ placesIn entries := by
  induction entries with
  | nil => cases hChild
  | cons entry rest ih =>
      rw [placesIn]
      rcases List.mem_cons.mp hChild with rfl | hRest
      · exact List.mem_append_left _ (List.mem_map.mpr ⟨_, h, rfl⟩)
      · exact List.mem_append_right _ (ih hRest)

/-- What is found at a location is among the places. -/
theorem mem_places_of_get? (h : node.get? l = some found) : (l, found) ∈ node.places := by
  induction l generalizing node with
  | nil =>
      cases h
      exact self_mem_places _
  | cons name rest ih =>
      rw [get?] at h
      split at h
      · rename_i child hChild
        cases node with
        | file data => cases hChild
        | symlink target => cases hChild
        | directory entries => exact List.mem_cons_of_mem _ (mem_placesIn (mem_of_lookup hChild) (ih h))
      · cases h

end Node

instance (n : String) : Decidable (Path.IsName n) :=
  decidable_of_iff (n ≠ "" ∧ '/' ∉ n.toList ∧ n ≠ "." ∧ n ≠ "..")
    ⟨fun ⟨hSome, hSlash, hDot, hDots⟩ => ⟨hSome, hSlash, hDot, hDots⟩,
      fun ⟨hSome, hSlash, hDot, hDots⟩ => ⟨hSome, hSlash, hDot, hDots⟩⟩

instance (l : Location) : Decidable l.Named :=
  inferInstanceAs (Decidable (∀ n ∈ l, Path.IsName n ∧ n.utf8ByteSize ≤ FileSystem.nameLimit))

/-! ### Proper file systems -/

namespace FileSystem

variable {fs : FileSystem} {l : Location} {entries : List (String × Node)}

end FileSystem

end ModuleGateway
