import ModuleGateway.Proofs.Store.Refinement

/-!
When a write succeeds, and what it leaves for readers. An entry is first written under a longer name, so
a specifier whose entry could be a file is still lost when the longer name is too long: it can be
persisted exactly when there is room for that name and for its path. What was written is read back, and
it is listed under its specifier.
-/

namespace ModuleGateway

open FileSystem

namespace Specifier

/-- Escaping makes no NUL. -/
theorem nul_not_mem_escape {specifier : String} (hNul : '\x00' ∉ specifier.toList) :
    '\x00' ∉ (escape specifier).toList := by
  rw [escape, String.toList_ofList, List.mem_flatMap]
  rintro ⟨c, hMem, hEscaped⟩
  rcases escapeChar_cases c with ⟨-, h⟩ | ⟨-, h⟩ | ⟨-, -, h⟩
  · simp [h] at hEscaped
  · simp [h] at hEscaped
  · rw [h] at hEscaped
    rw [← List.mem_singleton.mp hEscaped] at hMem
    exact hNul hMem

end Specifier

namespace Store

open Specifier (entryName)

variable {store : Store} {fs ready after : FileSystem} {l : Location}
  {entries : List (String × Node)} {specifier : String} {content : ByteArray}

/-! ### Room for the names -/

/-- The unfinished file's name is longer than the entry's, by three bytes and the number of the process. -/
theorem utf8ByteSize_unfinishedName (store : Store) (specifier : String) :
    (store.unfinishedName specifier).utf8ByteSize =
      (entryName specifier).utf8ByteSize + 3 + (toString store.process).utf8ByteSize := by
  have hDot : ".".utf8ByteSize = 1 := by decide
  have hEnd : ".tmp".utf8ByteSize = 4 := by decide
  have hExtension : Specifier.entryExtension.utf8ByteSize = 3 := by decide
  simp only [unfinishedName, entryName, String.utf8ByteSize_append, hDot, hEnd, hExtension]
  omega

theorem nul_not_mem_unfinishedName (hNul : '\x00' ∉ specifier.toList) :
    '\x00' ∉ (store.unfinishedName specifier).toList := by
  have hDigits : '\x00' ∉ Nat.toDigits 10 store.process := fun h => by
    simpa using Nat.isDigit_of_mem_toDigits (by decide) (by decide) h
  rw [unfinishedName_toList]
  simp [Specifier.nul_not_mem_escape hNul, hDigits]

theorem nul_not_mem_entryName (hNul : '\x00' ∉ specifier.toList) :
    '\x00' ∉ (entryName specifier).toList := by
  rw [entryName, String.toList_append, List.mem_append, not_or]
  exact ⟨Specifier.nul_not_mem_escape hNul, by decide⟩

/-- Where there is room for the unfinished file there is room for the entry. -/
theorem fits_of_room (hDirectory : '\x00' ∉ store.directory.text.toList)
    (hNul : '\x00' ∉ specifier.toList)
    (hRoom : (store.unfinishedPath specifier).text.utf8ByteSize ≤ pathLimit) :
    Fits (store.unfinishedPath specifier) ∧ Fits (store.entryPath specifier) := by
  have hUnfinished := (store.isName_unfinishedName specifier).noSlash
  have hEntry := (Specifier.isName_entryName specifier).noSlash
  refine ⟨fits_join hUnfinished hDirectory (nul_not_mem_unfinishedName hNul) hRoom,
    fits_join hEntry hDirectory (nul_not_mem_entryName hNul) (le_trans ?_ hRoom)⟩
  have hLonger := utf8ByteSize_unfinishedName store specifier
  rw [unfinishedPath, ← unfinishedName, Path.join_text _ hUnfinished, Path.join_text _ hEntry,
    String.utf8ByteSize_append, String.utf8ByteSize_append]
  omega

/-! ### Writing and reading back -/

/-- What may stand where an entry goes: a file, or a link that the directory's own path does not lead
through. -/
def Replaceable (fs : FileSystem) (d : Path) (l : Location) (entries : List (String × Node))
    (name : String) : Prop :=
  ∀ child, entries.lookup name = some child →
    child.isFile = true ∨ (child.isDirectory = false ∧ Seated fs d l entries)

/-- The steps of a write leave a directory with the entry in it. -/
theorem opens_of_replaceable (specifier : String) (content : ByteArray)
    (hOpens : Opens ready store.directory l entries)
    (hEntry : Replaceable ready store.directory l entries (entryName specifier))
    (hUnfinished : ∀ child, entries.lookup (store.unfinishedName specifier) = some child →
      child.isFile = true) :
    Opens (store.placed ready l specifier content) store.directory l
      (store.shelved entries specifier content) := by
  by_cases hSeated : Seated ready store.directory l entries
  · exact (((hSeated.set _ _).set _ _).set _ _).opens
  · refine opens_of_steps specifier content hOpens hUnfinished fun child hChild => ?_
    exact (hEntry child hChild).resolve_right fun hLink => hSeated hLink.2

/-- Where there is room for the unfinished file, a write succeeds and is read back. -/
theorem reads_back_of_room (hMade : fs.makeDirectories store.directory = .ok ready)
    (hOpens : Opens ready store.directory l entries) (hWilling : store.refusal = none)
    (hNul : '\x00' ∉ specifier.toList)
    (hEntry : Replaceable ready store.directory l entries (entryName specifier))
    (hUnfinished : ∀ child, entries.lookup (store.unfinishedName specifier) = some child →
      child.isFile = true)
    (hShort : (store.unfinishedName specifier).utf8ByteSize ≤ nameLimit)
    (hRoom : (store.unfinishedPath specifier).text.utf8ByteSize ≤ pathLimit) :
    ∃ after, store.write fs specifier content = .ok after ∧
      store.read? after specifier = some content := by
  obtain ⟨hFits, hEntryFits⟩ := fits_of_room (noNul_of_makeDirectories hMade) hNul hRoom
  have hEntryShort : (entryName specifier).utf8ByteSize ≤ nameLimit := by
    rw [utf8ByteSize_unfinishedName] at hShort
    omega
  have hFree : (entries.lookup (entryName specifier)).any Node.isDirectory = false := by
    cases hChild : entries.lookup (entryName specifier) with
    | none => rfl
    | some child =>
        rcases hEntry child hChild with hFile | ⟨hLink, -⟩
        · cases child <;> first | rfl | cases hFile
        · exact hLink
  have hWritten := write_child ⟨content, 0⟩ hOpens (store.isName_unfinishedName specifier) hFits
    hShort hUnfinished
  have hMoved := move_unfinished content hOpens hFits hShort hEntryFits hEntryShort hUnfinished
  rw [hFree, if_neg (by simp)] at hMoved
  refine ⟨_, write_of_steps hWilling hMade hWritten hMoved, ?_⟩
  have hAfter := opens_of_replaceable specifier content hOpens hEntry hUnfinished
  exact read?_of_entry hAfter hEntryFits hEntryShort (by rw [lookup_shelved, if_pos rfl])

/-- An entry that was written had room for its unfinished file. -/
theorem room_of_write (h : store.write fs specifier content = .ok after) :
    (store.unfinishedName specifier).utf8ByteSize ≤ nameLimit ∧
      (store.unfinishedPath specifier).text.utf8ByteSize ≤ pathLimit := by
  obtain ⟨made, written, -, hWritten, -⟩ := steps_of_write h
  obtain ⟨hFits, hShort, -⟩ := opens_of_write (store.isName_unfinishedName specifier) hWritten
  exact ⟨hShort, hFits.short⟩

/-- Where nothing but its name could keep an entry from being written, a write succeeds and is read back
exactly when there is room for the unfinished file. -/
theorem write_reads_back_iff (hMade : fs.makeDirectories store.directory = .ok ready)
    (hOpens : Opens ready store.directory l entries) (hWilling : store.refusal = none)
    (hNul : '\x00' ∉ specifier.toList)
    (hEntry : Replaceable ready store.directory l entries (entryName specifier))
    (hUnfinished : ∀ child, entries.lookup (store.unfinishedName specifier) = some child →
      child.isFile = true) :
    (∃ after, store.write fs specifier content = .ok after ∧
        store.read? after specifier = some content) ↔
      (entryName specifier).utf8ByteSize + 3 + (toString store.process).utf8ByteSize ≤ nameLimit ∧
        (store.unfinishedPath specifier).text.utf8ByteSize ≤ pathLimit := by
  rw [← utf8ByteSize_unfinishedName]
  constructor
  · rintro ⟨after, hWrite, -⟩
    exact room_of_write hWrite
  · rintro ⟨hShort, hRoom⟩
    exact reads_back_of_room hMade hOpens hWilling hNul hEntry hUnfinished hShort hRoom

/-- Files among which the unfinished file of an entry is a link to the entry. -/
def knottedFiles : FileSystem where
  root := .directory [(".kiln", .directory [("cache", .directory
    [(".x.1.tmp", .symlink "x.js")])])]

-- Such a link is written through and moved all the same, and then leads to itself.
example : (nestedStore.write knottedFiles "x" blankModule).toOption.map
    (nestedStore.read? · "x") = some none := by decide +kernel

/-! ### Listing -/

/-- A file under the name of an entry is listed as the entry's specifier. -/
theorem mem_specifiers {data : FileData} (hListed : fs.list store.directory = .ok entries)
    (hEntry : (entryName specifier, .file data) ∈ entries)
    (hShown : ¬ (specifier = "" ∨ specifier.toList.head? = some '.')) :
    specifier ∈ store.specifiers fs := by
  unfold specifiers
  rw [hListed]
  dsimp only
  rw [(List.mergeSort_perm _ _).mem_iff, List.mem_filterMap]
  exact ⟨_, hEntry, (entrySpecifier?_entryName specifier data).trans (if_neg hShown)⟩

/-- An entry that was written is a child of the directory, where no link took the unfinished file
elsewhere and the directory is still at the end of its path. -/
theorem entry_of_write (hWrite : store.write fs specifier content = .ok after)
    (hThere : after.isDirectory store.directory = true)
    (hNoLink : ∀ target, (store.shelf fs).lookup (store.unfinishedName specifier) ≠
      some (.symlink target)) :
    ∃ children, after.list store.directory = .ok children ∧
      (entryName specifier, .file ⟨content, 0⟩) ∈ children := by
  have hName := store.isName_unfinishedName specifier
  obtain ⟨ready, written, hReady, hWritten, hMoved⟩ := steps_of_write hWrite
  obtain ⟨hFits, -, l, entries, hOpens⟩ := opens_of_write hName hWritten
  rw [shelf_of_made hReady hOpens (fits_here hName hFits)] at hNoLink
  obtain ⟨-, -, rfl⟩ := moved_of_steps hOpens hNoLink hWritten hMoved
  obtain ⟨children, hListed⟩ := isDirectory_iff_list.mp hThere
  obtain ⟨-, place, hPlace⟩ := opens_of_list hListed
  have hPut : (ready.set (l ++ [store.unfinishedName specifier]) (some (.file ⟨content, 0⟩))).get? l =
      some (.directory _) := Node.get?_set_parent hOpens.found
  have hRemoved : ((ready.set (l ++ [store.unfinishedName specifier])
      (some (.file ⟨content, 0⟩))).set (l ++ [store.unfinishedName specifier]) none).get? l =
        some (.directory _) := Node.get?_set_parent hPut
  have hMade : (store.placed ready l specifier content).get? l =
      some (.directory (store.shelved entries specifier content)) := Node.get?_set_parent hRemoved
  -- The way into the directory is taken back step by step to the one that was written to.
  have hWay := travel_before_put (travel_passable (Node.passable_of_set_none (by simp))
    (travel_before_put hPlace.way hRemoved)) hOpens.found
  obtain rfl : place = l := by
    have hSame := hWay.symm.trans hOpens.way
    cases hSame
    rfl
  obtain rfl : children = store.shelved entries specifier content := by
    have hSame := hPlace.found.symm.trans hMade
    cases hSame
    rfl
  have hLookup := lookup_shelved store entries specifier content (entryName specifier)
  rw [if_pos rfl] at hLookup
  obtain ⟨before, behind, hChildren, -⟩ := List.lookup_eq_some_iff.mp hLookup
  exact ⟨_, hListed, hChildren ▸ List.mem_append_right _ List.mem_cons_self⟩

/-! ### Long specifiers -/

/-- A specifier of as many letters. -/
def letters (count : Nat) : String :=
  String.ofList (List.replicate count 'a')

theorem utf8ByteSize_letters (count : Nat) : (letters count).utf8ByteSize = count := by
  induction count with
  | zero => rfl
  | succ count ih =>
      have hLetter : (String.singleton 'a').utf8ByteSize = 1 := by decide
      rw [letters, List.replicate_succ, String.ofList_cons, String.utf8ByteSize_append, ← letters, ih,
        hLetter]
      omega

theorem nul_not_mem_letters (count : Nat) : '\x00' ∉ (letters count).toList := by
  rw [letters, String.toList_ofList]
  exact fun hNul => absurd (List.eq_of_mem_replicate hNul) (by decide)

/-- Letters are written as they are. -/
theorem utf8ByteSize_entryName_letters (count : Nat) :
    (entryName (letters count)).utf8ByteSize = count + 3 := by
  have hPlain : (List.replicate count 'a').flatMap Specifier.escapeChar =
      List.replicate count 'a' := by
    rw [List.flatMap_replicate, show Specifier.escapeChar 'a' = ['a'] from by decide,
      List.flatten_replicate_singleton]
  have hEscape : Specifier.escape (letters count) = letters count := by
    rw [Specifier.escape, letters, String.toList_ofList, hPlain]
  have hExtension : Specifier.entryExtension.utf8ByteSize = 3 := by decide
  rw [entryName, hEscape, String.utf8ByteSize_append, utf8ByteSize_letters, hExtension]

/-- The longest name that an entry can be given by this process. -/
theorem write_reads_back_longest :
    ∃ after, nestedStore.write .empty (letters 248) blankModule = .ok after ∧
      nestedStore.read? after (letters 248) = some blankModule := by
  have hMissing : FileSystem.empty.locate nestedStore.directory false = .error .noEntry := by
    decide +kernel
  have hAbsent : Absent nestedStore.directory FileSystem.empty :=
    absent_of_missing (by decide) (by decide) fun l => by simp [hMissing]
  have hCreatable : (FileSystem.empty.makeDirectories nestedStore.directory).isOk = true := by
    decide +kernel
  have hDigit : (toString nestedStore.process).utf8ByteSize = 1 := by decide
  have hLead : nestedStore.directory.lead.utf8ByteSize = 12 := by decide
  cases hMade : FileSystem.empty.makeDirectories nestedStore.directory with
  | error e =>
      rw [hMade] at hCreatable
      cases hCreatable
  | ok ready =>
      obtain ⟨above, hLast⟩ := hAbsent.fresh ready hMade
      obtain ⟨l, hOpens⟩ := opens_of_makeDirectory hLast
      have hEntry : Replaceable ready nestedStore.directory l [] (entryName (letters 248)) := by
        rintro child ⟨⟩
      refine (write_reads_back_iff hMade hOpens rfl (nul_not_mem_letters 248) hEntry ?_).mpr ⟨?_, ?_⟩
      · rintro child ⟨⟩
      · rw [utf8ByteSize_entryName_letters, hDigit]
        decide
      · rw [unfinishedPath, ← unfinishedName, Path.join_text _ (isName_unfinishedName _ _).noSlash,
          String.utf8ByteSize_append, hLead, utf8ByteSize_unfinishedName,
          utf8ByteSize_entryName_letters, hDigit]
        decide

/-- With two more letters the entry's name is still short enough, but nothing is written. -/
theorem write_refused_longer :
    (entryName (letters 250)).utf8ByteSize ≤ nameLimit ∧ '\x00' ∉ (letters 250).toList ∧
      (∃ ready, FileSystem.empty.makeDirectories nestedStore.directory = .ok ready ∧
        ready.list nestedStore.directory = .ok []) ∧
      nestedStore.refusal = none ∧
      ∀ after, nestedStore.write .empty (letters 250) blankModule ≠ .ok after := by
  refine ⟨?_, nul_not_mem_letters 250, ?_, rfl, fun after hWrite => ?_⟩
  · rw [utf8ByteSize_entryName_letters]
    decide
  · have hListed : (FileSystem.empty.makeDirectories nestedStore.directory).toOption.map
        (·.list nestedStore.directory) = some (.ok []) := by decide +kernel
    cases hMade : FileSystem.empty.makeDirectories nestedStore.directory with
    | error e =>
        rw [hMade] at hListed
        cases hListed
    | ok ready =>
        rw [hMade] at hListed
        exact ⟨ready, rfl, Option.some.inj hListed⟩
  · have hDigit : (toString nestedStore.process).utf8ByteSize = 1 := by decide
    have hShort := (room_of_write hWrite).1
    rw [utf8ByteSize_unfinishedName, utf8ByteSize_entryName_letters, hDigit] at hShort
    exact absurd hShort (by decide)

end Store

end ModuleGateway
