import ModuleGateway.Proofs.FileSystem.Parents
import ModuleGateway.Proofs.FileSystem.Seat
import ModuleGateway.Proofs.Store.Shelf
import Mathlib.Data.String.Basic
import Mathlib.Logic.Function.Basic

/-!
A store is a map. Whatever writes succeed and fail, in which order and at which step, the directory
holds one file for each specifier that is kept, and nothing else, so that what a store answers depends
only on the history of its writes. This needs a directory whose path does not lead through the directory
itself: making such a directory would put others into it, and one of them may have the name of an entry.
-/

namespace ModuleGateway

open FileSystem

namespace Store

/-! ### Histories -/

/-- What is done to a store. -/
inductive Event where
  | wrote (specifier : String) (content : ByteArray)
  /-- A write that failed, at whichever step. -/
  | failed (specifier : String)
  | cleared

/-- What a store should hold: the content last written since it was last cleared. The latest event
stands first. -/
def kept : List Event → String → Option ByteArray
  | [] => fun _ => none
  | .wrote specifier content :: earlier =>
    Function.update (kept earlier) specifier (some content)
  | .failed _ :: earlier => kept earlier
  | .cleared :: _ => fun _ => none

/-- The file systems that a store can leave with no one else at work. Every write may be made by another
process, and the disk may refuse it at a step of its own. -/
inductive Run (store : Store) (start : FileSystem) : List Event → FileSystem → Prop where
  | start : Run store start [] start
  | wrote {history : List Event} {fs after : FileSystem} {writer : Store} {specifier : String}
      {content : ByteArray} (earlier : Run store start history fs)
      (same : writer.directory = store.directory)
      (write : writer.write fs specifier content = .ok after) :
      Run store start (.wrote specifier content :: history) after
  | failed {history : List Event} {fs : FileSystem} {writer : Store} {specifier : String}
      {content : ByteArray} {failure : Failed} (earlier : Run store start history fs)
      (same : writer.directory = store.directory)
      (write : writer.write fs specifier content = .error failure) :
      Run store start (.failed specifier :: history) failure.left
  | cleared {history : List Event} {fs after : FileSystem} {count : Nat}
      (earlier : Run store start history fs) (clear : store.clear fs = .ok (count, after)) :
      Run store start (.cleared :: history) after

/-! ### Directories of entries -/

/-- The children of a directory are the entries of a map and nothing else. -/
structure Catalog (map : String → Option ByteArray) (entries : List (String × Node)) : Prop where
  nodup : (entries.map Prod.fst).Nodup
  lookup_iff : ∀ name child, entries.lookup name = some child ↔
    ∃ specifier content, map specifier = some content ∧ name = Specifier.entryName specifier ∧
      child = .file ⟨content, 0⟩

variable {store : Store} {fs after : FileSystem} {d : Path} {specifier : String}
  {content : ByteArray} {map : String → Option ByteArray} {entries others : List (String × Node)}

theorem catalog_nil : Catalog (fun _ => none) [] where
  nodup := List.nodup_nil
  lookup_iff := by simp

namespace Catalog

theorem onlyFiles (h : Catalog map entries) : OnlyFiles entries := by
  intro name child hChild
  obtain ⟨specifier, content, -, -, rfl⟩ := (h.lookup_iff name child).mp hChild
  rfl

theorem lookup_entryName (h : Catalog map entries) (specifier : String) :
    entries.lookup (Specifier.entryName specifier) =
      (map specifier).map fun content => .file ⟨content, 0⟩ := by
  refine Option.ext fun child => ?_
  rw [h.lookup_iff, Option.map_eq_some_iff]
  constructor
  · rintro ⟨other, content, hKept, hName, rfl⟩
    obtain rfl := Specifier.entryName_injective hName
    exact ⟨content, hKept, rfl⟩
  · rintro ⟨content, hKept, rfl⟩
    exact ⟨specifier, content, hKept, rfl, rfl⟩

theorem lookup_unfinishedName (h : Catalog map entries) (store : Store) (specifier : String) :
    entries.lookup (store.unfinishedName specifier) = none := by
  cases hChild : entries.lookup (store.unfinishedName specifier) with
  | none => rfl
  | some child =>
      obtain ⟨other, content, -, hName, -⟩ := (h.lookup_iff _ child).mp hChild
      exact absurd hName.symm (store.entryName_ne_unfinishedName other specifier)

theorem of_lookup (h : Catalog map entries) (hNodup : (others.map Prod.fst).Nodup)
    (hSame : ∀ name, others.lookup name = entries.lookup name) : Catalog map others where
  nodup := hNodup
  lookup_iff := fun name child => by rw [hSame, h.lookup_iff]

/-- An unfinished file that comes and goes leaves the entries as they were. -/
theorem discarded (h : Catalog map entries) (store : Store) (specifier : String) (child : Node) :
    Catalog map (Node.setChild (store.unfinishedName specifier) none
      (Node.setChild (store.unfinishedName specifier) (some child) entries)) := by
  refine h.of_lookup (Node.nodup_setChild _ _ (Node.nodup_setChild _ _ h.nodup)) fun name => ?_
  rw [Node.lookup_setChild, Node.lookup_setChild]
  split
  · rename_i hName
    rw [hName, h.lookup_unfinishedName]
  · rfl

/-- A file under the name of an entry is the entry. -/
theorem put (h : Catalog map entries) (specifier : String) (content : ByteArray) :
    Catalog (Function.update map specifier (some content))
      (Node.setChild (Specifier.entryName specifier) (some (.file ⟨content, 0⟩)) entries) := by
  refine ⟨Node.nodup_setChild _ _ h.nodup, fun name child => ?_⟩
  rw [Node.lookup_setChild]
  by_cases hName : name = Specifier.entryName specifier
  · rw [if_pos hName]
    constructor
    · rintro ⟨⟩
      exact ⟨specifier, content, Function.update_self _ _ _, hName, rfl⟩
    · rintro ⟨other, written, hKept, hOther, rfl⟩
      obtain rfl := Specifier.entryName_injective (hName.symm.trans hOther)
      rw [Function.update_self] at hKept
      cases hKept
      rfl
  · rw [if_neg hName, h.lookup_iff]
    have hElsewhere (other : String) (hOther : name = Specifier.entryName other) :
        Function.update map specifier (some content) other = map other := by
      refine Function.update_of_ne ?_ _ _
      rintro rfl
      exact hName hOther
    constructor
    · rintro ⟨other, written, hKept, hOther, hChild⟩
      exact ⟨other, written, (hElsewhere other hOther).trans hKept, hOther, hChild⟩
    · rintro ⟨other, written, hKept, hOther, hChild⟩
      exact ⟨other, written, (hElsewhere other hOther).symm.trans hKept, hOther, hChild⟩

end Catalog

/-! ### What is listed -/

/-- An entry is listed by its specifier, unless its name starts with a dot. -/
theorem entrySpecifier?_entryName (specifier : String) (data : FileData) :
    entrySpecifier? (Specifier.entryName specifier) (.file data) =
      if specifier = "" ∨ specifier.toList.head? = some '.' then none else some specifier := by
  have hStem : Text.before? Specifier.entryExtension.toList
      (Specifier.entryName specifier).toList = some (Specifier.escape specifier).toList := by
    refine List.isSuffixOf?_eq_some_iff_append_eq.mpr ?_
    rw [Specifier.entryName, String.toList_append]
  rw [entrySpecifier?, hStem, Option.map_some, String.ofList_toList, Specifier.unescape_escape,
    Node.isFile, Bool.true_and]
  by_cases hDot : specifier = "" ∨ specifier.toList.head? = some '.'
  · rw [if_pos hDot, (Specifier.head?_entryName specifier).mpr hDot]
    rfl
  · have hHead := (Specifier.head?_entryName specifier).not.mpr hDot
    rw [if_neg hDot, if_pos (by simpa using hHead)]

/-- The specifiers that the children of a directory stand for, in the order of the children. -/
def listed (entries : List (String × Node)) : List String :=
  entries.filterMap fun (name, node) => entrySpecifier? name node

namespace Catalog

/-- What is listed of an entry is its specifier. -/
theorem entrySpecifier?_eq_some (h : Catalog map entries) {entry : String × Node}
    (hMem : entry ∈ entries) {specifier : String}
    (hListed : entrySpecifier? entry.1 entry.2 = some specifier) :
    entry.1 = Specifier.entryName specifier ∧ (map specifier).isSome ∧ specifier ≠ "" ∧
      specifier.toList.head? ≠ some '.' := by
  obtain ⟨name, child⟩ := entry
  obtain ⟨other, content, hKept, rfl, rfl⟩ :=
    (h.lookup_iff name child).mp ((Node.mem_iff_lookup h.nodup).mp hMem)
  rw [entrySpecifier?_entryName] at hListed
  split at hListed
  · cases hListed
  · rename_i hShown
    obtain rfl := Option.some.inj hListed
    obtain ⟨hSome, hHead⟩ := not_or.mp hShown
    exact ⟨rfl, by rw [hKept]; rfl, hSome, hHead⟩

theorem mem_listed_iff (h : Catalog map entries) :
    specifier ∈ listed entries ↔
      (map specifier).isSome ∧ specifier ≠ "" ∧ specifier.toList.head? ≠ some '.' := by
  rw [listed, List.mem_filterMap]
  constructor
  · rintro ⟨entry, hMem, hListed⟩
    exact (h.entrySpecifier?_eq_some hMem hListed).2
  · rintro ⟨hSome, hNonempty, hHead⟩
    obtain ⟨content, hKept⟩ := Option.isSome_iff_exists.mp hSome
    have hEntry := (h.lookup_iff _ _).mpr ⟨specifier, content, hKept, rfl, rfl⟩
    refine ⟨_, (Node.mem_iff_lookup h.nodup).mpr hEntry, ?_⟩
    exact (entrySpecifier?_entryName specifier _).trans (if_neg (not_or.mpr ⟨hNonempty, hHead⟩))

theorem nodup_listed (h : Catalog map entries) : (listed entries).Nodup := by
  rw [listed, List.Nodup, List.pairwise_filterMap]
  refine (List.pairwise_map.mp h.nodup).imp_of_mem fun {a b} hA hB hApart => ?_
  rintro first hFirst second hSecond rfl
  refine hApart ?_
  rw [(h.entrySpecifier?_eq_some hA hFirst).1, (h.entrySpecifier?_eq_some hB hSecond).1]

end Catalog

/-! ### What the disk holds -/

/-- The directory is not there, and what is made last on the way to making it is the directory itself. -/
structure Absent (d : Path) (fs : FileSystem) : Prop where
  missing : ∀ l, fs.locate d false ≠ .ok l
  fresh : ∀ ready, fs.makeDirectories d = .ok ready →
    ∃ above : FileSystem, above.makeDirectory d = .ok ready

/-- The directory is there and holds the entries of a map, each under a path that the system takes. -/
structure Holds (d : Path) (fs : FileSystem) (map : String → Option ByteArray) : Prop where
  fits : Fits d
  seated : ∃ l entries, Seated fs d l entries ∧ Catalog map entries
  reachable : ∀ specifier, (map specifier).isSome →
    Fits (d.join ⟨Specifier.entryName specifier⟩) ∧
      (Specifier.entryName specifier).utf8ByteSize ≤ nameLimit

/-- The ways in which a disk stands for a map. -/
inductive Represents (d : Path) (fs : FileSystem) : (String → Option ByteArray) → Prop where
  /-- The system does not take the path of the directory, so nothing is ever written. -/
  | unreachable (h : ¬ Fits d) : Represents d fs fun _ => none
  | absent (h : Absent d fs) : Represents d fs fun _ => none
  | holds {map : String → Option ByteArray} (h : Holds d fs map) : Represents d fs map

/-- A directory that can be made by itself is absent. -/
theorem absent_of_makeDirectory (h : fs.makeDirectory d = .ok after) : Absent d fs := by
  obtain ⟨dir, n, hSeat, hMissing, -⟩ := seat_of_makeDirectory h
  refine ⟨hSeat.locate_missing hMissing, fun ready hReady => ?_⟩
  rw [makeDirectories, if_neg hSeat.named] at hReady
  unfold makeDirectoriesFor at hReady
  rw [h] at hReady
  obtain rfl := Except.ok.inj hReady
  exact ⟨fs, h⟩

/-- A directory that is missing is absent when its path has no two dots, and so does not lead through
the directory. -/
theorem absent_of_missing (hNamed : d.text ≠ "") (hPlain : ".." ∉ d.segments)
    (hMissing : ∀ l, fs.locate d false ≠ .ok l) : Absent d fs := by
  refine ⟨hMissing, fun ready hReady => ?_⟩
  rw [makeDirectories, if_neg hNamed] at hReady
  rcases makeDirectory_of_makeDirectoriesFor hReady hPlain with ⟨-, hThere⟩ | hMade
  · obtain ⟨place, hPlace⟩ := locate_of_isDirectory hThere
    exact absurd hPlace (hMissing place)
  · exact hMade

/-- A directory that was just made holds nothing. -/
theorem holds_of_makeDirectory (hFits : Fits d) (h : fs.makeDirectory d = .ok after) :
    Holds d after fun _ => none := by
  obtain ⟨l, hSeated⟩ := seated_of_makeDirectory h
  exact ⟨hFits, ⟨l, [], hSeated, catalog_nil⟩, by simp⟩

/-- The path of a directory that is absent opens nothing. -/
theorem Absent.not_opens (h : Absent d fs) (hFits : Fits d) {l : Location} :
    ¬ Opens fs d l entries := by
  intro hOpens
  obtain ⟨above, hMade⟩ := h.fresh fs (makeDirectories_of_opens hOpens hFits)
  obtain ⟨place, hArrive, -⟩ :=
    arrive_of_opens false hOpens rfl rfl hFits (named_of_makeDirectory hMade)
  exact h.missing place (locate_eq_ok_iff.mpr hArrive)

/-- The directory of a map is the one that its path opens. -/
theorem Holds.of_opens (h : Holds d fs map) {l : Location} (hOpens : Opens fs d l entries) :
    Seated fs d l entries ∧ Catalog map entries := by
  obtain ⟨place, children, hSeated, hCatalog⟩ := h.seated
  have hWay := hSeated.opens.way.symm.trans hOpens.way
  cases hWay
  have hFound := hSeated.found.symm.trans hOpens.found
  cases hFound
  exact ⟨hSeated, hCatalog⟩

/-! ### Writing -/

/-- Once the directory is made it holds the entries. -/
theorem Represents.made (h : Represents d fs map) (hFits : Fits d) {ready : FileSystem}
    (hReady : fs.makeDirectories d = .ok ready) : Holds d ready map := by
  cases h with
  | unreachable hLong => exact absurd hFits hLong
  | absent hAbsent =>
      obtain ⟨above, hMade⟩ := hAbsent.fresh ready hReady
      exact holds_of_makeDirectory hFits hMade
  | holds hHolds =>
      obtain ⟨l, entries, hSeated, -⟩ := hHolds.seated
      obtain rfl := Except.ok.inj ((makeDirectories_of_opens hSeated.opens hFits).symm.trans hReady)
      exact hHolds

/-- A write that succeeds puts its content into the map. -/
theorem Represents.wrote (h : Represents store.directory fs map)
    (hWrite : store.write fs specifier content = .ok after) :
    Represents store.directory after (Function.update map specifier (some content)) := by
  obtain ⟨ready, written, hReady, hWritten, hMoved⟩ := steps_of_write hWrite
  obtain ⟨hUnfinished, -, l, entries, hOpens⟩ :=
    opens_of_write (store.isName_unfinishedName specifier) hWritten
  have hFits := fits_of_join (store.isName_unfinishedName specifier).noSlash hUnfinished
  have hHolds := h.made hFits hReady
  obtain ⟨hSeated, hCatalog⟩ := hHolds.of_opens hOpens
  obtain ⟨hEntryFits, hEntryShort, rfl⟩ :=
    moved_of_steps hOpens ((hCatalog.onlyFiles.plain store).no_link _) hWritten hMoved
  refine .holds ⟨hFits, ⟨l, _, ((hSeated.set _ _).set _ _).set _ _,
    (hCatalog.discarded store specifier _).put specifier content⟩, fun other hKept => ?_⟩
  by_cases hOther : other = specifier
  · rw [hOther]
    exact ⟨hEntryFits, hEntryShort⟩
  · rw [Function.update_of_ne hOther] at hKept
    exact hHolds.reachable other hKept

/-- There is no unfinished file to take away. -/
theorem Holds.discard_idle (h : Holds store.directory fs map) (specifier : String) :
    store.discard fs specifier = fs := by
  have hName := store.isName_unfinishedName specifier
  unfold discard
  split
  · rename_i cleaned hRemoved
    obtain ⟨l, entries, child, hOpens, hChild⟩ := child_of_remove hName hRemoved
    rw [(h.of_opens hOpens).2.lookup_unfinishedName store specifier] at hChild
    cases hChild
  · rfl

/-- The unfinished file is taken away again. -/
theorem Holds.discard_written (h : Holds store.directory fs map) {written : FileSystem}
    {data : FileData} (hWritten : fs.write (store.unfinishedPath specifier) data = .ok written) :
    Holds store.directory (store.discard written specifier) map := by
  have hName := store.isName_unfinishedName specifier
  obtain ⟨hFits, hShort, l, entries, hOpens⟩ := opens_of_write hName hWritten
  obtain ⟨hSeated, hCatalog⟩ := h.of_opens hOpens
  have hWrite := write_child data hOpens hName hFits hShort (hCatalog.onlyFiles _)
  obtain rfl := Except.ok.inj (hWritten.symm.trans hWrite)
  have hPut := hSeated.set (store.unfinishedName specifier) (some (.file data))
  have hThere : (Node.setChild (store.unfinishedName specifier) (some (.file data))
      entries).lookup (store.unfinishedName specifier) = some (.file data) := by
    rw [Node.lookup_setChild, if_pos rfl]
  have hRemoved := remove_file hPut.opens hName hFits hShort hThere
  have hDiscard : store.discard (fs.set (l ++ [store.unfinishedName specifier])
      (some (.file data))) specifier =
        (fs.set (l ++ [store.unfinishedName specifier]) (some (.file data))).set
          (l ++ [store.unfinishedName specifier]) none := by
    unfold discard
    split
    · rename_i cleaned hCleaned
      exact Except.ok.inj (hCleaned.symm.trans hRemoved)
    · rename_i e hError
      exact absurd (hError.symm.trans hRemoved) (by simp)
  rw [hDiscard]
  exact ⟨h.fits, ⟨l, _, hPut.set _ _, hCatalog.discarded store specifier _⟩, h.reachable⟩

/-- A write that fails leaves the map as it was, and no unfinished file. -/
theorem Represents.failed (h : Represents store.directory fs map) {failure : Failed}
    (hWrite : store.write fs specifier content = .error failure) :
    Represents store.directory failure.left map := by
  by_cases hFits : Fits store.directory
  · unfold write at hWrite
    split at hWrite
    · cases hWrite
      exact h
    · rename_i ready hReady
      have hHolds := h.made hFits (attempt_eq_ok hReady)
      dsimp only at hWrite
      split at hWrite
      · cases hWrite
        rw [hHolds.discard_idle]
        exact .holds hHolds
      · rename_i written hWritten
        split at hWrite
        · cases hWrite
          exact .holds (hHolds.discard_written (attempt_eq_ok hWritten))
        · cases hWrite
  · cases h with
    | unreachable hLong => exact .unreachable hLong
    | absent hAbsent => exact .unreachable hFits
    | holds hHolds => exact absurd hHolds.fits hFits

/-! ### Clearing -/

/-- What stands for a map holds its entries, or has no directory that could be opened. -/
theorem Represents.closed_or_holds (h : Represents d fs map) :
    ((map = fun _ => none) ∧ ∀ l entries, Fits d → ¬ Opens fs d l entries) ∨ Holds d fs map := by
  cases h with
  | unreachable hLong => exact .inl ⟨rfl, fun l entries hFits => absurd hFits hLong⟩
  | absent hAbsent => exact .inl ⟨rfl, fun l entries hFits => hAbsent.not_opens hFits⟩
  | holds hHolds => exact .inr hHolds

/-- Nothing is listed where nothing can be opened. -/
theorem specifiers_of_closed
    (hClosed : ∀ l entries, Fits store.directory → ¬ Opens fs store.directory l entries) :
    store.specifiers fs = [] := by
  unfold specifiers
  split
  · rfl
  · rename_i entries hListed
    obtain ⟨hFits, l, hOpens⟩ := opens_of_list hListed
    exact absurd hOpens (hClosed l entries hFits)

/-- The specifiers of a directory of entries are those of its children, in ascending order. -/
theorem Holds.specifiers (h : Holds store.directory fs map) :
    ∃ entries, Catalog map entries ∧
      store.specifiers fs = (listed entries).mergeSort (· ≤ ·) := by
  obtain ⟨l, entries, hSeated, hCatalog⟩ := h.seated
  have hStat := stat_of_opens hSeated.opens h.fits hSeated.named
  refine ⟨entries, hCatalog, ?_⟩
  rw [Store.specifiers, list_eq_ok_iff.mpr hStat]
  rfl

/-- A directory of entries is removed as a whole, and can be made again. -/
theorem Holds.clear (h : Holds store.directory fs map) :
    ∃ after, store.clear fs = .ok ((store.specifiers fs).length, after) ∧
      Absent store.directory after := by
  obtain ⟨l, entries, hSeated, -⟩ := h.seated
  have hRemoved : fs.removeTree store.directory = .ok (fs.set l none) := by
    rw [removeTree, hSeated.locate h.fits]
    simp only [bind, Except.bind, hSeated.found]
  obtain ⟨made, hMade⟩ := hSeated.makeDirectory_removed h.fits
  refine ⟨fs.set l none, ?_, absent_of_makeDirectory hMade⟩
  rw [Store.clear, hRemoved]

/-- Where there is no directory there is nothing to clear. -/
theorem clear_of_missing (h : fs.locate store.directory false = .error .noEntry) :
    store.clear fs = .ok (0, fs) := by
  have hRemoved : fs.removeTree store.directory = .error .noEntry := by
    rw [removeTree, h]
    rfl
  rw [Store.clear, hRemoved]

/-- Clearing counts what is listed and leaves nothing. -/
theorem Represents.cleared (h : Represents store.directory fs map) {count : Nat}
    (hClear : store.clear fs = .ok (count, after)) :
    count = (store.specifiers fs).length ∧ Represents store.directory after fun _ => none := by
  rcases h.closed_or_holds with ⟨rfl, hClosed⟩ | hHolds
  · have hKept (l : Location) : fs.locate store.directory false ≠ .ok l := by
      cases h with
      | unreachable hLong =>
          intro hLocate
          exact hLong (fits_of_arrive (locate_eq_ok_iff.mp hLocate))
      | absent hAbsent => exact hAbsent.missing l
      | holds hHolds =>
          obtain ⟨place, entries, hSeated, -⟩ := hHolds.seated
          exact absurd hSeated.opens (hClosed place entries hHolds.fits)
    rw [specifiers_of_closed hClosed]
    unfold Store.clear at hClear
    split at hClear
    · rename_i cleared hRemoved
      rw [removeTree] at hRemoved
      cases hLocate : fs.locate store.directory false with
      | error e =>
          rw [hLocate] at hRemoved
          cases hRemoved
      | ok l => exact absurd hLocate (hKept l)
    · cases hClear
      exact ⟨rfl, h⟩
    · cases hClear
  · obtain ⟨cleared, hCleared, hAbsent⟩ := hHolds.clear
    rw [hCleared] at hClear
    cases hClear
    exact ⟨rfl, .absent hAbsent⟩

/-! ### Runs -/

/-- Everything that a store answers, by the map that it stands for. -/
structure Answers (store : Store) (fs : FileSystem) (map : String → Option ByteArray) : Prop where
  read : ∀ specifier, store.read? fs specifier = map specifier
  contains : ∀ specifier, store.contains fs specifier = (map specifier).isSome
  ascending : (store.specifiers fs).Pairwise (· < ·)
  listed : ∀ specifier, specifier ∈ store.specifiers fs ↔
    (map specifier).isSome ∧ specifier ≠ "" ∧ specifier.toList.head? ≠ some '.'
  /-- No child is anything but an entry, so none is an unfinished file. -/
  children : ∀ entries, fs.list store.directory = .ok entries → ∀ name child,
    (name, child) ∈ entries → ∃ specifier content, map specifier = some content ∧
      name = Specifier.entryName specifier ∧ child = .file ⟨content, 0⟩
  clear : ∀ count after, store.clear fs = .ok (count, after) →
    count = (store.specifiers fs).length ∧ ∀ specifier, store.read? after specifier = none
  /-- What holds an entry can be cleared, and so can a directory that opens and one that is not there. -/
  clearable : (∃ specifier, (map specifier).isSome) ∨
      (∃ entries, fs.list store.directory = .ok entries) ∨
      fs.locate store.directory false = .error .noEntry →
    ∃ after, store.clear fs = .ok ((store.specifiers fs).length, after)

theorem Represents.read (h : Represents store.directory fs map) (specifier : String) :
    store.read? fs specifier = map specifier := by
  have hName := Specifier.isName_entryName specifier
  cases hRead : store.read? fs specifier with
  | some content =>
      obtain ⟨hFits, -, l, entries, child, hOpens, hChild, hData⟩ :=
        child_of_read hName (read?_eq_some_iff.mp hRead)
      rcases h.closed_or_holds with ⟨-, hClosed⟩ | hHolds
      · exact absurd hOpens (hClosed l entries (fits_of_join hName.noSlash hFits))
      · have hEntry := (hHolds.of_opens hOpens).2.lookup_entryName specifier
        rw [hChild] at hEntry
        obtain ⟨written, hKept, rfl⟩ := Option.map_eq_some_iff.mp hEntry.symm
        obtain ⟨data, hSame, rfl⟩ := hData rfl
        cases hSame
        exact hKept.symm
  | none =>
      cases hKept : map specifier with
      | none => rfl
      | some content =>
          rcases h.closed_or_holds with ⟨rfl, -⟩ | hHolds
          · cases hKept
          · obtain ⟨l, entries, hSeated, hCatalog⟩ := hHolds.seated
            obtain ⟨hFits, hShort⟩ := hHolds.reachable specifier (by rw [hKept]; rfl)
            have hEntry := hCatalog.lookup_entryName specifier
            rw [hKept] at hEntry
            rw [read?_of_entry hSeated.opens hFits hShort hEntry] at hRead
            cases hRead

/-- An entry is contained exactly when it can be read. -/
theorem Represents.contains (h : Represents store.directory fs map) (specifier : String) :
    store.contains fs specifier = (map specifier).isSome := by
  have hName := Specifier.isName_entryName specifier
  rw [Bool.eq_iff_iff]
  constructor
  · intro hThere
    obtain ⟨hFits, -, l, entries, child, hOpens, hChild⟩ := child_of_existsAt hName hThere
    rcases h.closed_or_holds with ⟨-, hClosed⟩ | hHolds
    · exact absurd hOpens (hClosed l entries (fits_of_join hName.noSlash hFits))
    · have hEntry := (hHolds.of_opens hOpens).2.lookup_entryName specifier
      rw [hChild] at hEntry
      obtain ⟨content, hKept, -⟩ := Option.map_eq_some_iff.mp hEntry.symm
      rw [hKept]
      rfl
  · intro hSome
    obtain ⟨content, hKept⟩ := Option.isSome_iff_exists.mp hSome
    exact contains_of_read? ((h.read specifier).trans hKept)

/-- The children of the directory are the entries. -/
theorem Represents.children (h : Represents store.directory fs map)
    (hListed : fs.list store.directory = .ok entries) : Catalog map entries := by
  obtain ⟨hFits, l, hOpens⟩ := opens_of_list hListed
  rcases h.closed_or_holds with ⟨-, hClosed⟩ | hHolds
  · exact absurd hOpens (hClosed l entries hFits)
  · exact (hHolds.of_opens hOpens).2

/-- What is listed is in ascending order without repetition. -/
theorem Represents.ascending (h : Represents store.directory fs map) :
    (store.specifiers fs).Pairwise (· < ·) := by
  rcases h.closed_or_holds with ⟨-, hClosed⟩ | hHolds
  · rw [specifiers_of_closed hClosed]
    exact List.Pairwise.nil
  · obtain ⟨entries, hCatalog, hSpecifiers⟩ := hHolds.specifiers
    rw [hSpecifiers]
    have hSorted : ((listed entries).mergeSort (· ≤ ·)).Pairwise (· ≤ ·) := by
      have hTrans (a b c : String) (hAB : decide (a ≤ b) = true) (hBC : decide (b ≤ c) = true) :
          decide (a ≤ c) = true := by
        rw [decide_eq_true_eq] at hAB hBC ⊢
        exact le_trans hAB hBC
      have hTotal (a b : String) : (decide (a ≤ b) || decide (b ≤ a)) = true := by
        simpa using le_total a b
      exact (List.pairwise_mergeSort hTrans hTotal (listed entries)).imp (by simp)
    have hNodup : ((listed entries).mergeSort (· ≤ ·)).Nodup :=
      (List.mergeSort_perm _ _).nodup_iff.mpr hCatalog.nodup_listed
    exact (hSorted.and hNodup).imp fun ⟨hLe, hNe⟩ => lt_of_le_of_ne hLe hNe

theorem Represents.mem_specifiers_iff (h : Represents store.directory fs map) :
    specifier ∈ store.specifiers fs ↔
      (map specifier).isSome ∧ specifier ≠ "" ∧ specifier.toList.head? ≠ some '.' := by
  rcases h.closed_or_holds with ⟨rfl, hClosed⟩ | hHolds
  · rw [specifiers_of_closed hClosed]
    simp
  · obtain ⟨entries, hCatalog, hSpecifiers⟩ := hHolds.specifiers
    rw [hSpecifiers, (List.mergeSort_perm _ _).mem_iff]
    exact hCatalog.mem_listed_iff

/-- What stands for a map answers as the map does. -/
theorem Represents.answers (h : Represents store.directory fs map) : Answers store fs map where
  read := h.read
  contains := h.contains
  ascending := h.ascending
  listed := fun _ => h.mem_specifiers_iff
  children := by
    intro entries hListed name child hMem
    have hCatalog := h.children hListed
    exact (hCatalog.lookup_iff name child).mp ((Node.mem_iff_lookup hCatalog.nodup).mp hMem)
  clear := by
    intro count after hClear
    obtain ⟨hCount, hAfter⟩ := h.cleared hClear
    exact ⟨hCount, hAfter.read⟩
  clearable := by
    intro hPlace
    rcases h.closed_or_holds with ⟨rfl, hClosed⟩ | hHolds
    · obtain ⟨specifier, hSome⟩ | ⟨entries, hList⟩ | hMissing := hPlace
      · cases hSome
      · obtain ⟨hFits, l, hOpens⟩ := opens_of_list hList
        exact absurd hOpens (hClosed l entries hFits)
      · rw [specifiers_of_closed hClosed]
        exact ⟨fs, clear_of_missing hMissing⟩
    · obtain ⟨after, hClear, -⟩ := hHolds.clear
      exact ⟨after, hClear⟩

/-- A store in a directory below one that may have to be made too. -/
def nestedStore : Store where
  directory := ⟨".kiln/cache"⟩

/-- The smallest module. -/
def blankModule : ByteArray :=
  "export {};".toUTF8

end Store

end ModuleGateway
