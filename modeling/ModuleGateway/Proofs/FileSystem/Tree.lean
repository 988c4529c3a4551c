import ModuleGateway.FileSystem.Tree
import Mathlib.Data.List.Basic

/-!
What is at a location after another location has been set. The change is seen at that location and
below it; a directory above it stays a directory, and nothing else changes.
-/

namespace ModuleGateway

/-- What a list gives for a key stands in the list with the key. -/
theorem mem_of_lookup {α β : Type} [BEq α] [LawfulBEq α] {key : α} {value : β}
    {entries : List (α × β)} (h : entries.lookup key = some value) : (key, value) ∈ entries := by
  obtain ⟨before, later, rfl, -⟩ := List.lookup_eq_some_iff.mp h
  exact List.mem_append_right _ List.mem_cons_self

namespace Node

/-! ### Equality -/

mutual
/-- Whether two trees are the same, with the children of every directory in the same order. -/
def same : Node → Node → Bool
  | .file a, .file b => decide (a = b)
  | .symlink s, .symlink t => decide (s = t)
  | .directory a, .directory b => sameChildren a b
  | _, _ => false

def sameChildren : List (String × Node) → List (String × Node) → Bool
  | [], [] => true
  | (n, x) :: rest, (m, y) :: others => decide (n = m) && same x y && sameChildren rest others
  | _, _ => false
end

mutual
theorem same_iff (x y : Node) : same x y = true ↔ x = y := by
  cases x <;> cases y <;> simp [same, sameChildren_iff]

theorem sameChildren_iff (a b : List (String × Node)) : sameChildren a b = true ↔ a = b := by
  cases a with
  | nil => cases b <;> simp [sameChildren]
  | cons entry rest =>
      cases b with
      | nil => simp [sameChildren]
      | cons other others =>
          simp [sameChildren, same_iff entry.2, sameChildren_iff rest, Prod.ext_iff]
end

/-- Trees can be told apart. -/
instance : DecidableEq Node := fun x y =>
  decidable_of_iff _ (same_iff x y)

variable {node : Node} {v : Option Node} {entries : List (String × Node)} {l x below : Location}

/-! ### Children -/

theorem lookup_cons_eq (key other : String) (child : Node) (rest : List (String × Node)) :
    List.lookup other ((key, child) :: rest) =
      if other = key then some child else rest.lookup other := by
  by_cases h : other = key
  · simp [h]
  · rw [List.lookup_cons, beq_false_of_ne h, if_neg h]

theorem lookup_without (name other : String) (entries : List (String × Node)) :
    (entries.filter fun (n, _) => n ≠ name).lookup other =
      if other = name then none else entries.lookup other := by
  induction entries with
  | nil => simp
  | cons entry rest ih =>
      obtain ⟨key, child⟩ := entry
      by_cases hKey : key = name
      · rw [List.filter_cons_of_neg (by simp [hKey]), ih, lookup_cons_eq, hKey]
        by_cases hOther : other = name <;> simp [hOther]
      · rw [List.filter_cons_of_pos (by simp [hKey]), lookup_cons_eq, lookup_cons_eq, ih]
        by_cases hOther : other = name
        · simp [hOther, Ne.symm hKey]
        · simp [hOther]

theorem lookup_replaced (name other : String) (new : Node) (entries : List (String × Node)) :
    (entries.map fun (n, old) => if n = name then (n, new) else (n, old)).lookup other =
      if other = name then (entries.lookup name).map fun _ => new else entries.lookup other := by
  induction entries with
  | nil => simp
  | cons entry rest ih =>
      obtain ⟨key, child⟩ := entry
      rw [List.map_cons]
      dsimp only
      by_cases hKey : key = name
      · rw [if_pos hKey, lookup_cons_eq, ih, lookup_cons_eq, lookup_cons_eq, hKey]
        by_cases hOther : other = name <;> simp [hOther]
      · rw [if_neg hKey, lookup_cons_eq, ih, lookup_cons_eq, lookup_cons_eq]
        by_cases hOther : other = name
        · simp [hOther, Ne.symm hKey]
        · simp [hOther]

/-- A child that was set is what is found under its name, and the others are found as before. -/
theorem lookup_setChild (name other : String) (child : Option Node)
    (entries : List (String × Node)) :
    (setChild name child entries).lookup other =
      if other = name then child else entries.lookup other := by
  cases child with
  | none => exact lookup_without name other entries
  | some new =>
      rw [setChild]
      by_cases hKnown : (entries.lookup name).isSome
      · obtain ⟨old, hOld⟩ := Option.isSome_iff_exists.mp hKnown
        have hAny : (entries.any fun (n, _) => n = name) = true := by
          obtain ⟨before, after, rfl, -⟩ := List.lookup_eq_some_iff.mp hOld
          simp
        rw [if_pos hAny, lookup_replaced, hOld, Option.map_some]
      · have hNew : entries.lookup name = none := Option.not_isSome_iff_eq_none.mp hKnown
        have hAny : ¬ (entries.any fun (n, _) => n = name) = true := by
          rw [List.any_eq_true]
          rintro ⟨⟨key, old⟩, hMem, hKey⟩
          have hNever := List.lookup_eq_none_iff.mp hNew (key, old) hMem
          simp_all
        rw [if_neg hAny, List.lookup_append, lookup_cons_eq]
        by_cases hOther : other = name
        · simp [hOther, hNew]
        · simp [hOther]

theorem setChild_none_setChild (name : String) (v : Option Node) (entries : List (String × Node)) :
    setChild name none (setChild name v entries) = setChild name none entries := by
  cases v with
  | none => simp [setChild]
  | some child =>
      simp only [setChild]
      split
      · clear * -
        induction entries with
        | nil => rfl
        | cons entry rest ih =>
            obtain ⟨key, old⟩ := entry
            by_cases hKey : key = name
            · simpa [hKey] using ih
            · simpa [hKey] using ih
      · simp

theorem setChild_some_setChild (name : String) (first second : Node)
    (entries : List (String × Node)) :
    setChild name (some second) (setChild name (some first) entries) =
      setChild name (some second) entries := by
  by_cases hKnown : (entries.any fun (n, _) => n = name) = true
  · have hAfter : ((entries.map fun (n, old) => if n = name then (n, first) else (n, old)).any
        fun (n, _) => n = name) = true := by
      obtain ⟨⟨key, old⟩, hMem, hKey⟩ := List.any_eq_true.mp hKnown
      refine List.any_eq_true.mpr ⟨_, List.mem_map_of_mem hMem, ?_⟩
      have hName : key = name := by simpa using hKey
      simp [hName]
    simp only [setChild, hKnown, hAfter, if_true, List.map_map]
    refine List.map_congr_left fun ⟨key, old⟩ _ => ?_
    by_cases hKey : key = name <;> simp [hKey]
  · have hNew : ∀ entry ∈ entries, entry.1 ≠ name := by
      intro entry hMem hKey
      exact hKnown (List.any_eq_true.mpr ⟨entry, hMem, by simpa using hKey⟩)
    have hSame : (entries.map fun (n, old) => if n = name then (n, second) else (n, old)) =
        entries := by
      refine (List.map_congr_left fun ⟨key, old⟩ hMem => ?_).trans (List.map_id _)
      simp [hNew _ hMem]
    simp [setChild, hKnown, hSame]

/-- No two children have one name, and setting a child keeps it so. -/
theorem nodup_setChild (name : String) (child : Option Node)
    (h : (entries.map Prod.fst).Nodup) : ((setChild name child entries).map Prod.fst).Nodup := by
  cases child with
  | none => exact h.sublist (List.filter_sublist.map Prod.fst)
  | some new =>
      rw [setChild]
      split
      · have hKeys : (entries.map fun (n, old) => if n = name then (n, new) else (n, old)).map
            Prod.fst = entries.map Prod.fst := by
          rw [List.map_map]
          refine List.map_congr_left fun ⟨key, old⟩ _ => ?_
          by_cases hKey : key = name <;> simp [hKey]
        rwa [hKeys]
      · rename_i hNew
        have hFresh : name ∉ entries.map Prod.fst := by
          rintro hMem
          obtain ⟨⟨key, old⟩, hEntry, rfl⟩ := List.mem_map.mp hMem
          exact hNew (List.any_eq_true.mpr ⟨_, hEntry, by simp⟩)
        rw [List.map_append]
        exact List.nodup_append.mpr ⟨h, by simp, by grind⟩

/-- Where no two children have one name, each is what is found under its name. -/
theorem mem_iff_lookup (h : (entries.map Prod.fst).Nodup) {name : String} {child : Node} :
    (name, child) ∈ entries ↔ entries.lookup name = some child := by
  induction entries with
  | nil => simp
  | cons entry rest ih =>
      obtain ⟨key, first⟩ := entry
      obtain ⟨hFresh, hRest⟩ := List.nodup_cons.mp h
      rw [List.mem_cons, lookup_cons_eq, Prod.mk.injEq]
      by_cases hName : name = key
      · subst hName
        have hElsewhere : (name, child) ∉ rest := fun hMem => hFresh (List.mem_map.mpr ⟨_, hMem, rfl⟩)
        simp [hElsewhere, eq_comm]
      · simp [hName, ih hRest]

/-! ### Locations -/

theorem get?_append (node : Node) (above below : Location) :
    node.get? (above ++ below) = (node.get? above).bind fun n => n.get? below := by
  induction above generalizing node with
  | nil => rfl
  | cons name rest ih =>
      simp only [List.cons_append, get?]
      cases node.children.lookup name with
      | none => rfl
      | some child => exact ih child

theorem get?_child (h : node.get? l = some (.directory entries)) (name : String) :
    node.get? (l ++ [name]) = entries.lookup name := by
  rw [get?_append, h]
  simp only [Option.bind_some, get?, children]
  cases entries.lookup name <;> rfl

/-- A child's parent is a directory. -/
theorem directory_of_child {name : String} {child : Node}
    (h : node.get? (l ++ [name]) = some child) :
    ∃ entries, node.get? l = some (.directory entries) := by
  rw [get?_append] at h
  cases hParent : node.get? l with
  | none => rw [hParent] at h; cases h
  | some parent =>
      rw [hParent] at h
      cases parent with
      | directory entries => exact ⟨entries, rfl⟩
      | file data => cases h
      | symlink target => cases h

theorem directory_of_any {found : Option Node} (h : found.any isDirectory = true) :
    ∃ entries, found = some (.directory entries) := by
  obtain ⟨parent, rfl, hDirectory⟩ := (Option.any_eq_true _ _).mp h
  cases parent with
  | directory entries => exact ⟨entries, rfl⟩
  | file data => cases hDirectory
  | symlink target => cases hDirectory

theorem get?_set_parent {name : String} (h : node.get? l = some (.directory entries)) :
    (node.set v (l ++ [name])).get? l = some (.directory (setChild name v entries)) := by
  induction l generalizing node with
  | nil =>
      cases h
      rfl
  | cons first rest ih =>
      cases node with
      | directory children =>
          cases hFirst : children.lookup first with
          | none => simp [get?, Node.children, hFirst] at h
          | some child =>
              simp only [get?, Node.children, hFirst] at h
              obtain ⟨second, others, hWay⟩ : ∃ second others, rest ++ [name] = second :: others := by
                cases rest <;> exact ⟨_, _, rfl⟩
              have hSet : (directory children).set v (first :: (rest ++ [name])) =
                  .directory (setChild first (some (child.set v (rest ++ [name]))) children) := by
                rw [hWay]
                simp only [set, hFirst]
              rw [List.cons_append, hSet]
              simp only [get?, Node.children, lookup_setChild, if_true]
              exact ih h
      | file data => cases h
      | symlink target => cases h

/-- What is not at a location that was set or below it is as it was, or is a directory still. -/
theorem get?_set_of_not_prefix (hSet : l ≠ []) (h : ¬ l <+: x) :
    (node.set v l).get? x = node.get? x ∨
      ∃ old new, node.get? x = some (.directory old) ∧
        (node.set v l).get? x = some (.directory new) := by
  induction l generalizing node x with
  | nil => exact absurd rfl hSet
  | cons first rest ih =>
      cases node with
      | file data => exact .inl rfl
      | symlink target => exact .inl rfl
      | directory children =>
          cases x with
          | nil =>
              cases rest with
              | nil => exact .inr ⟨_, _, rfl, rfl⟩
              | cons second others =>
                  cases hFirst : children.lookup first with
                  | none => exact .inl (by simp only [set, hFirst])
                  | some child =>
                      exact .inr ⟨children, _, rfl, by simp only [set, hFirst, get?]; rfl⟩
          | cons other below =>
              have hBelow : other = first → ¬ rest <+: below := by
                rintro rfl hRest
                exact h (List.cons_prefix_cons.mpr ⟨rfl, hRest⟩)
              cases rest with
              | nil =>
                  have hOther : other ≠ first := fun hSame => hBelow hSame List.nil_prefix
                  refine .inl ?_
                  simp only [set, get?, Node.children, lookup_setChild, if_neg hOther]
              | cons second others =>
                  cases hFirst : children.lookup first with
                  | none => exact .inl (by simp only [set, hFirst])
                  | some child =>
                      by_cases hOther : other = first
                      · simp only [set, hFirst, get?, Node.children, lookup_setChild, hOther, if_true]
                        exact ih (by simp) (hBelow hOther)
                      · refine .inl ?_
                        simp only [set, hFirst, get?, Node.children, lookup_setChild, if_neg hOther]

/-- A change below a child changes the child. -/
theorem set_below {first second : String} {others : Location} {children : List (String × Node)}
    {child : Node} (hFirst : children.lookup first = some child) :
    (directory children).set v (first :: second :: others) =
      .directory (setChild first (some (child.set v (second :: others))) children) := by
  conv_lhs => rw [set]
  simp only [hFirst]

theorem set_below_missing {first second : String} {others : Location}
    {children : List (String × Node)} (hFirst : children.lookup first = none) :
    (directory children).set v (first :: second :: others) = .directory children := by
  simp only [set, hFirst]

/-- When a node is taken away, it does not matter what was changed at it or below it. -/
theorem set_none_set (hSet : l ≠ []) : (node.set v (l ++ below)).set none l = node.set none l := by
  induction l generalizing node with
  | nil => exact absurd rfl hSet
  | cons first rest ih =>
      cases node with
      | file data => rfl
      | symlink target => rfl
      | directory children =>
          cases rest with
          | nil =>
              cases below with
              | nil => simp only [List.append_nil, set, setChild_none_setChild]
              | cons second others =>
                  rw [List.cons_append, List.nil_append]
                  cases hFirst : children.lookup first with
                  | none => rw [set_below_missing hFirst]
                  | some child =>
                      rw [set_below hFirst]
                      simp only [set, setChild_none_setChild]
          | cons second others =>
              rw [List.cons_append, List.cons_append]
              cases hFirst : children.lookup first with
              | none => rw [set_below_missing hFirst]
              | some child =>
                  have hInner : (child.set v (second :: others ++ below)).set none (second :: others) =
                      child.set none (second :: others) := ih (by simp)
                  rw [List.cons_append] at hInner
                  rw [set_below hFirst, set_below hFirst,
                    set_below (by rw [lookup_setChild, if_pos rfl]), hInner, setChild_some_setChild]

/-- What was taken away is gone with all that is below it. -/
theorem get?_set_none (hSet : l ≠ []) : (node.set none l).get? (l ++ below) = none := by
  induction l generalizing node with
  | nil => exact absurd rfl hSet
  | cons first rest ih =>
      rw [List.cons_append, get?]
      cases node with
      | file data => rfl
      | symlink target => rfl
      | directory children =>
          cases rest with
          | nil => simp [set, Node.children, lookup_setChild]
          | cons second others =>
              cases hFirst : children.lookup first with
              | none => simp [set_below_missing hFirst, Node.children, hFirst]
              | some child =>
                  rw [set_below hFirst]
                  simp only [Node.children, lookup_setChild, if_true]
                  exact ih (by simp)

/-- A file that was put in place of another is there. -/
theorem get?_set_file {old new : FileData} (hFile : node.get? l = some (.file old)) :
    (node.set (some (.file new)) l).get? l = some (.file new) := by
  by_cases hRoot : l = []
  · rw [hRoot]
    rfl
  · obtain ⟨dir, name, rfl⟩ : ∃ dir name, l = dir ++ [name] :=
      ⟨_, _, (List.dropLast_append_getLast hRoot).symm⟩
    obtain ⟨entries, hParent⟩ := directory_of_child hFile
    rw [get?_child (get?_set_parent hParent), lookup_setChild, if_pos rfl]

theorem get?_set_file_of_ne {old new : FileData} (hFile : node.get? l = some (.file old))
    (hOther : x ≠ l) :
    (node.set (some (.file new)) l).get? x = node.get? x ∨
      ∃ before after, node.get? x = some (.directory before) ∧
        (node.set (some (.file new)) l).get? x = some (.directory after) := by
  by_cases hBelow : l <+: x
  · obtain ⟨below, rfl⟩ := hBelow
    cases below with
    | nil => simp at hOther
    | cons name rest =>
        rw [get?_append, get?_append, hFile, get?_set_file hFile]
        exact .inl rfl
  · refine get?_set_of_not_prefix (fun hRoot => hBelow ?_) hBelow
    rw [hRoot]
    exact List.nil_prefix

/-! ### Passages -/

/-- Every directory and every link of one tree is in the other, at the same place. What the directories
hold may differ. -/
structure Passable (before after : Node) : Prop where
  directory : ∀ {x : Location} {entries : List (String × Node)},
    before.get? x = some (.directory entries) → ∃ now, after.get? x = some (.directory now)
  symlink : ∀ {x : Location} {target : String},
    before.get? x = some (.symlink target) → after.get? x = some (.symlink target)

/-- Nothing leads through a file, so a file may be put, replaced or taken away. -/
theorem passable_set (hSet : l ≠ [])
    (hFile : ∀ child, node.get? l = some child → child.isFile = true) :
    Passable node (node.set v l) := by
  have hKept {x : Location} {found : Node} (hFound : node.get? x = some found)
      (hNoFile : found.isFile = false) : ¬ l <+: x := by
    rintro ⟨below, rfl⟩
    rw [get?_append] at hFound
    obtain ⟨child, hChild, hBelow⟩ := Option.bind_eq_some_iff.mp hFound
    have hLeaf := hFile child hChild
    cases child with
    | directory entries => cases hLeaf
    | symlink target => cases hLeaf
    | file data =>
        cases below with
        | nil =>
            cases hBelow
            cases hNoFile
        | cons name rest => cases hBelow
  constructor
  · intro x entries hFound
    rcases get?_set_of_not_prefix (v := v) hSet (hKept hFound rfl) with
      hSame | ⟨old, new, -, hNew⟩
    · exact ⟨entries, hSame.trans hFound⟩
    · exact ⟨new, hNew⟩
  · intro x target hFound
    rcases get?_set_of_not_prefix (v := v) hSet (hKept hFound rfl) with
      hSame | ⟨old, new, hOld, -⟩
    · exact hSame.trans hFound
    · rw [hFound] at hOld
      cases hOld

/-- Where one can pass after something was taken away, one could before. -/
theorem passable_of_set_none (hSet : l ≠ []) : (node.set none l).Passable node := by
  have hApart {x : Location} {found : Node} (hFound : (node.set none l).get? x = some found) :
      ¬ l <+: x := by
    rintro ⟨below, rfl⟩
    rw [get?_set_none hSet] at hFound
    cases hFound
  constructor
  · intro x entries hFound
    rcases get?_set_of_not_prefix (v := none) hSet (hApart hFound) with
      hSame | ⟨old, new, hOld, -⟩
    · exact ⟨entries, hSame.symm.trans hFound⟩
    · exact ⟨old, hOld⟩
  · intro x target hFound
    rcases get?_set_of_not_prefix (v := none) hSet (hApart hFound) with
      hSame | ⟨old, new, -, hNew⟩
    · exact hSame.symm.trans hFound
    · rw [hFound] at hNew
      cases hNew

/-! ### Links -/

mutual
/-- Whether a tree holds no links. -/
def linkFree : Node → Bool
  | .file _ => true
  | .symlink _ => false
  | .directory entries => childrenLinkFree entries

def childrenLinkFree : List (String × Node) → Bool
  | [] => true
  | (_, child) :: rest => child.linkFree && childrenLinkFree rest
end

theorem linkFree_of_lookup {name : String} {child : Node} (h : childrenLinkFree entries = true)
    (hChild : entries.lookup name = some child) : child.linkFree = true := by
  induction entries with
  | nil => cases hChild
  | cons entry rest ih =>
      obtain ⟨key, first⟩ := entry
      obtain ⟨hFirst, hRest⟩ := Bool.and_eq_true_iff.mp h
      rw [lookup_cons_eq] at hChild
      split at hChild
      · cases hChild
        exact hFirst
      · exact ih hRest hChild

/-- What is in a tree without links has none. -/
theorem linkFree_of_get? {found : Node} (h : node.linkFree = true) (hFound : node.get? l = some found) :
    found.linkFree = true := by
  induction l generalizing node with
  | nil =>
      cases hFound
      exact h
  | cons name rest ih =>
      rw [get?] at hFound
      split at hFound
      · rename_i child hChild
        cases node with
        | file data => cases hChild
        | symlink target => cases hChild
        | directory entries => exact ih (linkFree_of_lookup h hChild) hFound
      · cases hFound

end Node

end ModuleGateway
