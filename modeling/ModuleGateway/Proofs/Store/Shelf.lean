import ModuleGateway.Proofs.FileSystem.Access
import ModuleGateway.Proofs.Specifier.EntryName
import ModuleGateway.Store

/-!
What a store holds, as the list of its directory's children. While these are files, an entry that is
written is found from then on, other entries stay as they were, and there are no entries but those that
were written.
-/

namespace ModuleGateway

open FileSystem

namespace Store

/-! ### Names -/

/-- The name of the file that an entry is written to before it is moved. -/
def unfinishedName (store : Store) (specifier : String) : String :=
  "." ++ Specifier.escape specifier ++ "." ++ toString store.process ++ ".tmp"

theorem unfinishedName_toList (store : Store) (specifier : String) :
    (store.unfinishedName specifier).toList =
      '.' :: (Specifier.escape specifier).toList ++ '.' :: Nat.toDigits 10 store.process ++
        ['.', 't', 'm', 'p'] := by
  simp [unfinishedName]

theorem isName_unfinishedName (store : Store) (specifier : String) :
    Path.IsName (store.unfinishedName specifier) := by
  refine Path.isName_of_slash ?_ ?_
  · rw [unfinishedName_toList]
    have hDigits : '/' ∉ Nat.toDigits 10 store.process := fun h => by
      simpa using Nat.isDigit_of_mem_toDigits (by decide) (by decide) h
    simp [Specifier.slash_not_mem_escape, hDigits]
  · rw [unfinishedName_toList]
    simp
    omega

/-- An entry ends in another letter than an unfinished file. -/
theorem entryName_ne_unfinishedName (store : Store) (a b : String) :
    Specifier.entryName a ≠ store.unfinishedName b := by
  intro h
  have hLast := congrArg (fun s => s.toList.getLast?) h
  simp only [unfinishedName_toList, Specifier.entryName, String.toList_append,
    Specifier.entryExtension] at hLast
  rw [List.getLast?_append, List.getLast?_append] at hLast
  have hLetters : (some 's' : Option Char) = some 'p' := hLast
  cases hLetters

/-! ### The shelf -/

/-- The children of the store's directory once it is made. -/
def shelf (store : Store) (fs : FileSystem) : List (String × Node) :=
  match fs.makeDirectories store.directory with
  | .error _ => []
  | .ok ready =>
    match ready.list (store.directory.join ⟨"."⟩) with
    | .ok entries => entries
    | .error _ => []

/-- Only the directory of a store decides what it holds. -/
theorem shelf_congr {a b : Store} (h : a.directory = b.directory) (fs : FileSystem) :
    a.shelf fs = b.shelf fs := by
  rw [shelf, shelf, h]

theorem read?_congr {a b : Store} (h : a.directory = b.directory) (fs : FileSystem)
    (specifier : String) : a.read? fs specifier = b.read? fs specifier := by
  rw [read?, read?, entryPath, entryPath, h]

/-- Neither the directory of the store nor its entries differ between two file systems. -/
structure Untouched (store : Store) (before after : FileSystem) : Prop where
  shelf : store.shelf after = store.shelf before
  entries : ∀ specifier, store.read? after specifier = store.read? before specifier

theorem Untouched.refl (store : Store) (fs : FileSystem) : store.Untouched fs fs where
  shelf := rfl
  entries := fun _ => rfl

/-- Every child is a file. -/
def OnlyFiles (entries : List (String × Node)) : Prop :=
  ∀ name child, entries.lookup name = some child → child.isFile = true

/-- What stands under the name of an entry, or of a file that becomes one, is a file. -/
structure Plain (store : Store) (entries : List (String × Node)) : Prop where
  entry : ∀ specifier child,
    entries.lookup (Specifier.entryName specifier) = some child → child.isFile = true
  unfinished : ∀ specifier child,
    entries.lookup (store.unfinishedName specifier) = some child → child.isFile = true

variable {store : Store} {fs left : FileSystem} {specifier other : String} {content : ByteArray}

theorem onlyFiles_nil : OnlyFiles [] := by
  intro name child h
  cases h

theorem OnlyFiles.plain {entries : List (String × Node)} (h : OnlyFiles entries) (store : Store) :
    store.Plain entries where
  entry := fun specifier => h (Specifier.entryName specifier)
  unfinished := fun specifier => h (store.unfinishedName specifier)

theorem Plain.no_link {entries : List (String × Node)} (h : store.Plain entries)
    (specifier target : String) :
    entries.lookup (store.unfinishedName specifier) ≠ some (.symlink target) := by
  intro hLink
  cases h.unfinished specifier _ hLink

/-- The shelf is what the directory holds once it is made. -/
theorem shelf_of_made {ready : FileSystem} {l : Location} {entries : List (String × Node)}
    (hReady : fs.makeDirectories store.directory = .ok ready)
    (hOpens : Opens ready store.directory l entries) (hFits : Fits (store.directory.join ⟨"."⟩)) :
    store.shelf fs = entries := by
  rw [shelf, hReady]
  simp only [list_here_iff.mpr ⟨hFits, l, hOpens⟩]

theorem shelf_of_opens {l : Location} {entries : List (String × Node)}
    (hOpens : Opens fs store.directory l entries) (hFits : Fits (store.directory.join ⟨"."⟩)) :
    store.shelf fs = entries :=
  shelf_of_made (makeDirectories_of_opens hOpens (fits_of_join (by decide) hFits)) hOpens hFits

theorem read?_eq_some_iff :
    store.read? fs specifier = some content ↔ fs.read (store.entryPath specifier) = .ok content := by
  unfold read?
  cases fs.read (store.entryPath specifier) <;> simp

/-- An entry that can be read is a child of the store's directory. -/
theorem entry_of_read? (hFile : ∀ child,
      (store.shelf fs).lookup (Specifier.entryName specifier) = some child → child.isFile = true)
    (h : store.read? fs specifier = some content) :
    Fits (store.entryPath specifier) ∧ (Specifier.entryName specifier).utf8ByteSize ≤ nameLimit ∧
      (∃ l, Opens fs store.directory l (store.shelf fs)) ∧
      ∃ data, (store.shelf fs).lookup (Specifier.entryName specifier) = some (.file data) ∧
        data.content = content := by
  obtain ⟨hFits, hShort, l, entries, child, hOpens, hChild, hContent⟩ :=
    child_of_read (Specifier.isName_entryName specifier) (read?_eq_some_iff.mp h)
  have hShelf := shelf_of_opens hOpens (fits_here (Specifier.isName_entryName specifier) hFits)
  rw [hShelf] at hFile ⊢
  obtain ⟨data, rfl, hData⟩ := hContent (hFile _ hChild)
  exact ⟨hFits, hShort, ⟨l, hOpens⟩, data, hChild, hData⟩

theorem read?_eq_none
    (hMissing : (store.shelf fs).lookup (Specifier.entryName specifier) = none) :
    store.read? fs specifier = none := by
  cases h : store.read? fs specifier with
  | none => rfl
  | some content =>
      obtain ⟨-, -, -, data, hEntry, -⟩ := entry_of_read? (by simp [hMissing]) h
      rw [hMissing] at hEntry
      cases hEntry

theorem read?_of_entry {l : Location} {entries : List (String × Node)} {data : FileData}
    (hOpens : Opens fs store.directory l entries) (hFits : Fits (store.entryPath specifier))
    (hShort : (Specifier.entryName specifier).utf8ByteSize ≤ nameLimit)
    (hEntry : entries.lookup (Specifier.entryName specifier) = some (.file data)) :
    store.read? fs specifier = some data.content :=
  read?_eq_some_iff.mpr
    (read_child hOpens (Specifier.isName_entryName specifier) hFits hShort hEntry)

theorem contains_of_read? (h : store.read? fs specifier = some content) :
    store.contains fs specifier = true := by
  obtain ⟨data, hStat, -⟩ := read_eq_ok_iff.mp (read?_eq_some_iff.mp h)
  rw [contains, existsAt, hStat]

/-- Reading from a store does not fail: what stands under the name of an entry is a file that can be read,
and what stands under the name of a file that becomes one is a file too. -/
structure Legible (store : Store) (fs : FileSystem) : Prop where
  plain : store.Plain (store.shelf fs)
  readable : ∀ specifier child, (store.shelf fs).lookup (Specifier.entryName specifier) = some child →
    ∃ content, store.read? fs specifier = some content

theorem legible_of_empty (hEmpty : store.shelf fs = []) : store.Legible fs where
  plain := hEmpty ▸ onlyFiles_nil.plain store
  readable := fun specifier child hChild => by
    rw [hEmpty] at hChild
    cases hChild

/-- Such a store contains what stands in its directory. -/
theorem Legible.contains (h : store.Legible fs) (specifier : String) :
    store.contains fs specifier =
      ((store.shelf fs).lookup (Specifier.entryName specifier)).isSome := by
  have hName := Specifier.isName_entryName specifier
  rw [Bool.eq_iff_iff]
  constructor
  · intro hThere
    obtain ⟨hFits, -, l, entries, child, hOpens, hChild⟩ := child_of_existsAt hName hThere
    rw [shelf_of_opens hOpens (fits_here hName hFits), hChild]
    rfl
  · intro hThere
    obtain ⟨child, hChild⟩ := Option.isSome_iff_exists.mp hThere
    obtain ⟨content, hRead⟩ := h.readable specifier child hChild
    exact contains_of_read? hRead

theorem Legible.contains_congr {after : FileSystem} (h : store.Legible fs)
    (hLater : store.Legible after)
    (hLookup : (store.shelf after).lookup (Specifier.entryName specifier) =
      (store.shelf fs).lookup (Specifier.entryName specifier)) :
    store.contains after specifier = store.contains fs specifier := by
  rw [hLater.contains, h.contains, hLookup]

/-- What it contains can be read. -/
theorem Legible.read? (h : store.Legible fs) (hThere : store.contains fs specifier = true) :
    ∃ content, store.read? fs specifier = some content := by
  rw [h.contains, Option.isSome_iff_exists] at hThere
  obtain ⟨child, hChild⟩ := hThere
  exact h.readable specifier child hChild

theorem Untouched.legible {after : FileSystem} (hSame : store.Untouched fs after)
    (h : store.Legible fs) : store.Legible after where
  plain := hSame.shelf ▸ h.plain
  readable := fun specifier child hChild => by
    rw [hSame.shelf] at hChild
    rw [hSame.entries]
    exact h.readable specifier child hChild

/-! ### Writing -/

/-- What a write that succeeds leaves: the entry with its content, no unfinished file, and everything
else as it was. -/
structure Written (store : Store) (fs after : FileSystem) (specifier : String)
    (content : ByteArray) : Prop where
  fits : Fits (store.entryPath specifier)
  short : (Specifier.entryName specifier).utf8ByteSize ≤ nameLimit
  opens : ∃ l, Opens after store.directory l (store.shelf after)
  entry : (store.shelf after).lookup (Specifier.entryName specifier) = some (.file ⟨content, 0⟩)
  finished : (store.shelf after).lookup (store.unfinishedName specifier) = none
  others : ∀ name, name ≠ Specifier.entryName specifier → name ≠ store.unfinishedName specifier →
    (store.shelf after).lookup name = (store.shelf fs).lookup name

theorem attempt_eq_ok {step : WriteStep} {action : Except FileError FileSystem}
    (h : store.attempt step action = .ok left) : action = .ok left := by
  unfold attempt at h
  split at h
  · cases h
  · exact h

/-- The three steps of a write that succeeds. -/
theorem steps_of_write (h : store.write fs specifier content = .ok left) :
    ∃ ready written, fs.makeDirectories store.directory = .ok ready ∧
      ready.write (store.unfinishedPath specifier) ⟨content, 0⟩ = .ok written ∧
      written.rename (store.unfinishedPath specifier) (store.entryPath specifier) = .ok left := by
  unfold write at h
  split at h
  · cases h
  · rename_i ready hReady
    dsimp only at h
    split at h
    · cases h
    · rename_i written hWritten
      split at h
      · cases h
      · rename_i moved hMoved
        cases h
        exact ⟨ready, written, attempt_eq_ok hReady, attempt_eq_ok hWritten, attempt_eq_ok hMoved⟩

/-- A write whose steps succeed, unless the disk refuses one of them. -/
theorem write_of_steps {ready written : FileSystem} (hWilling : store.refusal = none)
    (hMade : fs.makeDirectories store.directory = .ok ready)
    (hWritten : ready.write (store.unfinishedPath specifier) ⟨content, 0⟩ = .ok written)
    (hMoved : written.rename (store.unfinishedPath specifier) (store.entryPath specifier) =
      .ok left) :
    store.write fs specifier content = .ok left := by
  have hAttempt (step : WriteStep) (action : Except FileError FileSystem) :
      store.attempt step action = action := by
    rw [attempt, hWilling, if_neg (by simp)]
  simp only [write, hAttempt, hMade, hWritten, hMoved]

/-- The file system after an entry went through its unfinished file into its place in a directory. -/
def placed (store : Store) (fs : FileSystem) (l : Location) (specifier : String)
    (content : ByteArray) : FileSystem :=
  ((fs.set (l ++ [store.unfinishedName specifier]) (some (.file ⟨content, 0⟩))).set
    (l ++ [store.unfinishedName specifier]) none).set
      (l ++ [Specifier.entryName specifier]) (some (.file ⟨content, 0⟩))

/-- The children of the directory then. -/
def shelved (store : Store) (entries : List (String × Node)) (specifier : String)
    (content : ByteArray) : List (String × Node) :=
  Node.setChild (Specifier.entryName specifier) (some (.file ⟨content, 0⟩))
    (Node.setChild (store.unfinishedName specifier) none
      (Node.setChild (store.unfinishedName specifier) (some (.file ⟨content, 0⟩)) entries))

theorem lookup_shelved (store : Store) (entries : List (String × Node)) (specifier : String)
    (content : ByteArray) (name : String) :
    (store.shelved entries specifier content).lookup name =
      if name = Specifier.entryName specifier then some (.file ⟨content, 0⟩)
      else if name = store.unfinishedName specifier then none else entries.lookup name := by
  rw [shelved, Node.lookup_setChild, Node.lookup_setChild, Node.lookup_setChild]
  split
  · rfl
  · split <;> rfl

/-- The unfinished file is moved to the entry, whatever but a directory is there. -/
theorem move_unfinished {ready : FileSystem} {l : Location} {entries : List (String × Node)}
    (content : ByteArray) (hOpens : Opens ready store.directory l entries)
    (hFits : Fits (store.unfinishedPath specifier))
    (hShort : (store.unfinishedName specifier).utf8ByteSize ≤ nameLimit)
    (hEntryFits : Fits (store.entryPath specifier))
    (hEntryShort : (Specifier.entryName specifier).utf8ByteSize ≤ nameLimit)
    (hFile : ∀ child, entries.lookup (store.unfinishedName specifier) = some child →
      child.isFile = true) :
    (ready.set (l ++ [store.unfinishedName specifier]) (some (.file ⟨content, 0⟩))).rename
        (store.unfinishedPath specifier) (store.entryPath specifier) =
      if (entries.lookup (Specifier.entryName specifier)).any Node.isDirectory then
        .error .isDirectory
      else .ok (store.placed ready l specifier content) := by
  have hApart := store.entryName_ne_unfinishedName specifier specifier
  have hThere : (Node.setChild (store.unfinishedName specifier) (some (.file ⟨content, 0⟩))
      entries).lookup (store.unfinishedName specifier) = some (.file ⟨content, 0⟩) := by
    rw [Node.lookup_setChild, if_pos rfl]
  have hRename := rename_child (hOpens.set (some (.file ⟨content, 0⟩)) hFile)
    (store.isName_unfinishedName specifier) hFits hShort hThere hApart
    (Specifier.isName_entryName specifier) hEntryFits hEntryShort
  rw [Node.lookup_setChild, if_neg hApart] at hRename
  exact hRename

/-- Unless a link takes it elsewhere, the unfinished file is put into the directory and then moved to the
entry. -/
theorem moved_of_steps {ready written : FileSystem} {l : Location} {entries : List (String × Node)}
    (hOpens : Opens ready store.directory l entries)
    (hNoLink : ∀ target, entries.lookup (store.unfinishedName specifier) ≠ some (.symlink target))
    (hWritten : ready.write (store.unfinishedPath specifier) ⟨content, 0⟩ = .ok written)
    (hMoved : written.rename (store.unfinishedPath specifier) (store.entryPath specifier) =
      .ok left) :
    Fits (store.entryPath specifier) ∧ (Specifier.entryName specifier).utf8ByteSize ≤ nameLimit ∧
      left = store.placed ready l specifier content := by
  have hName := store.isName_unfinishedName specifier
  obtain ⟨a, hTarget⟩ := arrive_of_rename hMoved
  obtain ⟨hFits, hShort, -⟩ := opens_of_write hName hWritten
  obtain ⟨hEntryFits, hEntryShort, -⟩ :=
    opens_of_arrive (Specifier.isName_entryName specifier) hTarget
  have hFile : ∀ child, entries.lookup (store.unfinishedName specifier) = some child →
      child.isFile = true := fun child hChild => isFile_of_write hOpens hName hNoLink hWritten hChild
  have hWrite := write_child ⟨content, 0⟩ hOpens hName hFits hShort hFile
  obtain rfl := Except.ok.inj (hWritten.symm.trans hWrite)
  rw [move_unfinished content hOpens hFits hShort hEntryFits hEntryShort hFile] at hMoved
  split at hMoved
  · cases hMoved
  · exact ⟨hEntryFits, hEntryShort, (Except.ok.inj hMoved).symm⟩

/-- The directory that the steps of a write leave. -/
theorem opens_of_steps {ready : FileSystem} {l : Location} {entries : List (String × Node)}
    (specifier : String) (content : ByteArray) (hOpens : Opens ready store.directory l entries)
    (hUnfinished : ∀ child, entries.lookup (store.unfinishedName specifier) = some child →
      child.isFile = true)
    (hEntry : ∀ child, entries.lookup (Specifier.entryName specifier) = some child →
      child.isFile = true) :
    Opens (store.placed ready l specifier content) store.directory l
      (store.shelved entries specifier content) := by
  have hApart := store.entryName_ne_unfinishedName specifier specifier
  have hPut := hOpens.set (some (.file ⟨content, 0⟩)) hUnfinished
  have hRemoved := hPut.set none (n := store.unfinishedName specifier) (fun child h => by
    rw [Node.lookup_setChild, if_pos rfl] at h
    cases h
    rfl)
  refine hRemoved.set _ fun child h => ?_
  rw [Node.lookup_setChild, if_neg hApart, Node.lookup_setChild, if_neg hApart] at h
  exact hEntry child h

theorem written_of_write (hFiles : store.Plain (store.shelf fs))
    (h : store.write fs specifier content = .ok left) :
    Written store fs left specifier content := by
  obtain ⟨ready, written, hReady, hWritten, hMoved⟩ := steps_of_write h
  have hName := store.isName_unfinishedName specifier
  have hApart := store.entryName_ne_unfinishedName specifier specifier
  obtain ⟨hFits, -, l, entries, hOpens⟩ := opens_of_write hName hWritten
  have hHere := fits_here hName hFits
  have hShelf : store.shelf fs = entries := shelf_of_made hReady hOpens hHere
  rw [hShelf] at hFiles
  obtain ⟨hEntryFits, hEntryShort, rfl⟩ :=
    moved_of_steps hOpens (hFiles.no_link specifier) hWritten hMoved
  have hPut := opens_of_steps specifier content hOpens (hFiles.unfinished _) (hFiles.entry _)
  have hLeft := shelf_of_opens hPut hHere
  refine ⟨hEntryFits, hEntryShort, ⟨l, ?_⟩, ?_, ?_, fun name hEntry hUnfinished => ?_⟩
  · rw [hLeft]
    exact hPut
  · rw [hLeft, lookup_shelved, if_pos rfl]
  · rw [hLeft, lookup_shelved, if_neg hApart.symm, if_pos rfl]
  · rw [hLeft, hShelf, lookup_shelved, if_neg hEntry, if_neg hUnfinished]

/-- A store of files stays one. -/
theorem Written.onlyFiles (h : Written store fs left specifier content)
    (hFiles : OnlyFiles (store.shelf fs)) : OnlyFiles (store.shelf left) := by
  intro name child hChild
  by_cases hEntry : name = Specifier.entryName specifier
  · rw [hEntry, h.entry] at hChild
    cases hChild
    rfl
  · by_cases hUnfinished : name = store.unfinishedName specifier
    · rw [hUnfinished, h.finished] at hChild
      cases hChild
    · rw [h.others name hEntry hUnfinished] at hChild
      exact hFiles name child hChild

theorem Written.read? (h : Written store fs left specifier content) :
    store.read? left specifier = some content := by
  obtain ⟨l, hOpens⟩ := h.opens
  exact read?_of_entry hOpens h.fits h.short h.entry

/-- A write touches the entry of its specifier only. -/
theorem Written.lookup_other (h : Written store fs left specifier content)
    (hOther : other ≠ specifier) :
    (store.shelf left).lookup (Specifier.entryName other) =
      (store.shelf fs).lookup (Specifier.entryName other) :=
  h.others _ (fun hSame => hOther (Specifier.entryName_injective hSame))
    (store.entryName_ne_unfinishedName other specifier)

/-- Nothing but files is put under the names that the store uses. -/
theorem Written.plain (h : Written store fs left specifier content)
    (hFiles : store.Plain (store.shelf fs)) : store.Plain (store.shelf left) where
  entry := fun other child hChild => by
    by_cases hSame : other = specifier
    · subst hSame
      rw [h.entry] at hChild
      cases hChild
      rfl
    · rw [h.lookup_other hSame] at hChild
      exact hFiles.entry other child hChild
  unfinished := fun other child hChild => by
    by_cases hSame : store.unfinishedName other = store.unfinishedName specifier
    · rw [hSame, h.finished] at hChild
      cases hChild
    · rw [h.others _ (store.entryName_ne_unfinishedName specifier other).symm hSame] at hChild
      exact hFiles.unfinished other child hChild

/-- What can be read stays as it is when another entry is written. -/
theorem Written.read?_other {kept : ByteArray} (h : Written store fs left specifier content)
    (hFiles : store.Plain (store.shelf fs)) (hOther : other ≠ specifier)
    (hRead : store.read? fs other = some kept) : store.read? left other = some kept := by
  obtain ⟨hFits, hShort, -, data, hEntry, rfl⟩ := entry_of_read? (hFiles.entry _) hRead
  obtain ⟨l, hOpens⟩ := h.opens
  exact read?_of_entry hOpens hFits hShort ((h.lookup_other hOther).trans hEntry)

theorem Written.legible (h : Written store fs left specifier content) (hLegible : store.Legible fs) :
    store.Legible left where
  plain := h.plain hLegible.plain
  readable := fun other child hChild => by
    by_cases hSame : other = specifier
    · subst hSame
      exact ⟨content, h.read?⟩
    · rw [h.lookup_other hSame] at hChild
      obtain ⟨kept, hRead⟩ := hLegible.readable other child hChild
      exact ⟨kept, h.read?_other hLegible.plain hSame hRead⟩

end Store

end ModuleGateway
