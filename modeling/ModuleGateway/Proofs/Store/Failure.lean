import ModuleGateway.Proofs.Store.Shelf

/-!
What a write that fails leaves. The directory may have been made, but every entry is as it was.
-/

namespace ModuleGateway

open FileSystem

namespace Store

/-- After a step of a write, every child of the store's directory but the unfinished file is as it was. -/
structure Spared (store : Store) (specifier : String) (before after : FileSystem) : Prop where
  files : OnlyFiles (store.shelf after)
  others : ∀ name, name ≠ store.unfinishedName specifier →
    (store.shelf after).lookup name = (store.shelf before).lookup name

variable {store : Store} {fs after : FileSystem} {specifier : String}

theorem Spared.trans {last : FileSystem} (first : Spared store specifier fs after)
    (second : Spared store specifier after last) : Spared store specifier fs last where
  files := second.files
  others := fun name hName => (second.others name hName).trans (first.others name hName)

theorem spared_of_eq (hFiles : OnlyFiles (store.shelf fs)) (h : store.shelf after = store.shelf fs) :
    Spared store specifier fs after :=
  ⟨h ▸ hFiles, fun _ _ => by rw [h]⟩

/-- A store whose path is too long holds nothing. -/
theorem shelf_of_long (hLong : ¬ Fits (store.directory.join ⟨"."⟩)) (fs : FileSystem) :
    store.shelf fs = [] := by
  rw [shelf]
  split
  · rfl
  · split
    · rename_i hListed
      exact absurd (list_here_iff.mp hListed).1 hLong
    · rfl

/-- Making the store's directory makes no entries. -/
theorem shelf_made {ready : FileSystem} (h : fs.makeDirectories store.directory = .ok ready) :
    store.shelf ready = store.shelf fs := by
  by_cases hFits : Fits (store.directory.join ⟨"."⟩)
  · have hAgain := makeDirectories_again (fits_of_join (by decide) hFits) h
    rw [shelf, shelf, h, hAgain]
  · rw [shelf_of_long hFits, shelf_of_long hFits]

/-- A change of the unfinished file in the store's directory spares the entries. -/
theorem spared_of_set {l : Location} {entries : List (String × Node)} {v : Option Node}
    (hOpens : Opens fs store.directory l entries) (hFiles : OnlyFiles (store.shelf fs))
    (hFile : ∀ node, v = some node → node.isFile = true) :
    Spared store specifier fs (fs.set (l ++ [store.unfinishedName specifier]) v) := by
  by_cases hFits : Fits (store.directory.join ⟨"."⟩)
  · have hShelf := shelf_of_opens hOpens hFits
    rw [hShelf] at hFiles
    have hAfter := shelf_of_opens (hOpens.set v (hFiles (store.unfinishedName specifier))) hFits
    constructor
    · intro name child hChild
      rw [hAfter, Node.lookup_setChild] at hChild
      split at hChild
      · exact hFile child hChild
      · exact hFiles name child hChild
    · intro name hName
      rw [hAfter, hShelf, Node.lookup_setChild, if_neg hName]
  · exact spared_of_eq hFiles (by rw [shelf_of_long hFits, shelf_of_long hFits])

theorem spared_discard (hFiles : OnlyFiles (store.shelf fs)) :
    Spared store specifier fs (store.discard fs specifier) := by
  have hName := store.isName_unfinishedName specifier
  unfold discard
  split
  · rename_i cleaned hRemoved
    obtain ⟨l, entries, -, hOpens, -⟩ := child_of_remove hName hRemoved
    by_cases hFits : Fits (store.directory.join ⟨"."⟩)
    · have hChildren := shelf_of_opens hOpens hFits ▸ hFiles
      rw [remove_child hOpens hName hRemoved]
      exact spared_of_set hOpens hFiles (by simp)
    · exact spared_of_eq hFiles (by rw [shelf_of_long hFits, shelf_of_long hFits])
  · exact spared_of_eq hFiles rfl

theorem spared_write {data : FileData} (hFiles : OnlyFiles (store.shelf fs))
    (h : fs.write (store.unfinishedPath specifier) data = .ok after) :
    Spared store specifier fs after := by
  have hName := store.isName_unfinishedName specifier
  obtain ⟨hFits, hShort, l, entries, hOpens⟩ := opens_of_write hName h
  have hChildren := shelf_of_opens hOpens (fits_here hName hFits) ▸ hFiles
  have hWrite := write_child data hOpens hName hFits hShort (hChildren _)
  obtain rfl := Except.ok.inj (h.symm.trans hWrite)
  exact spared_of_set hOpens hFiles (by rintro node ⟨⟩; rfl)

/-- A write that fails leaves all entries as they were. -/
theorem spared_of_write_error {content : ByteArray} {failed : Failed}
    (hFiles : OnlyFiles (store.shelf fs)) (h : store.write fs specifier content = .error failed) :
    Spared store specifier fs failed.left := by
  unfold write at h
  split at h
  · cases h
    exact spared_of_eq hFiles rfl
  · rename_i ready hReady
    have hMade := shelf_made (attempt_eq_ok hReady)
    have hFilesReady := hMade.symm ▸ hFiles
    have hSpared : Spared store specifier fs ready := spared_of_eq hFiles hMade
    dsimp only at h
    split at h
    · cases h
      exact hSpared.trans (spared_discard hFilesReady)
    · rename_i written hWritten
      have hPut : Spared store specifier ready written :=
        spared_write hFilesReady (attempt_eq_ok hWritten)
      split at h
      · cases h
        exact (hSpared.trans hPut).trans (spared_discard hPut.files)
      · cases h

end Store

end ModuleGateway
