import ModuleGateway.Proofs.FileSystem.Directory
import ModuleGateway.Proofs.Specifier.Escaping
import ModuleGateway.Store

/-!
Where the entries of a store lie. Each specifier has a file of its own in the directory of the store, and
none of them lies anywhere deeper, whatever slashes the specifier holds.
-/

namespace ModuleGateway.Store

open Specifier (entryName escape unescape IsEscaped)

theorem segments_entryName (specifier : String) :
    (⟨entryName specifier⟩ : Path).segments = [entryName specifier] := by
  have hSlash := (Specifier.isName_entryName specifier).noSlash
  simp [Path.segments, Text.split_of_not_mem hSlash]

/-- An entry lies one name below the directory. -/
theorem components_entryPath (store : Store) (specifier : String) :
    (store.entryPath specifier).components =
      store.directory.components ++ [.name (entryName specifier)] := by
  have hSegments := segments_entryName specifier
  have hNames : ∀ n ∈ (⟨entryName specifier⟩ : Path).segments, Path.IsName n := by
    rw [hSegments]
    simpa using Specifier.isName_entryName specifier
  rw [entryPath, Path.components_join_names _ hNames, hSegments]
  rfl

theorem fileName?_entryPath (store : Store) (specifier : String) :
    (store.entryPath specifier).fileName? = some (entryName specifier) := by
  simp [Path.fileName?, components_entryPath]

/-- Escaping and reading are inverse to each other between all specifiers and the escaped texts, so that
the entries of different specifiers are different children of the store's directory. -/
theorem escaping_bijective :
    (∀ specifier, unescape (escape specifier) = specifier) ∧
      (∀ name, escape (unescape name) = name ↔ IsEscaped name.toList) ∧
      ∀ (store : Store) (a b : String),
        ((store.entryPath a).components = (store.entryPath b).components ↔ a = b) ∧
        (store.entryPath a).components = store.directory.components ++ [.name (entryName a)] ∧
        (store.entryPath a).fileName? = some (entryName a) := by
  refine ⟨Specifier.unescape_escape, Specifier.escape_unescape_iff, fun store a b => ⟨?_, ?_, ?_⟩⟩
  · constructor
    · intro h
      rw [components_entryPath, components_entryPath] at h
      have hName := List.singleton_inj.mp (List.append_cancel_left h)
      exact Specifier.entryName_injective (Path.Component.name.inj hName)
    · rintro rfl
      rfl
  · exact components_entryPath store a
  · exact fileName?_entryPath store a

end ModuleGateway.Store
