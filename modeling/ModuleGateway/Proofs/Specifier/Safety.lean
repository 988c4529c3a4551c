import ModuleGateway.Proofs.Specifier.Servable
import ModuleGateway.Proofs.Store.Writing

/-!
What a specifier that a request may use is good for. The registry of trusted packages, the directory of
packages and the store cut it in different ways. Whatever was accepted, none of them loses a part of it,
leaves its own directory or overlooks its entry.
-/

namespace ModuleGateway.Specifier

variable {specifier : String}

/-- What every lookup of a specifier relies on. -/
structure SafeToLookUp (specifier : String) : Prop where
  /-- The specifier is its package, or its package and a path in it. -/
  lossless : split specifier = (specifier, none) ∨ ∃ package sub, sub ≠ "" ∧
    split specifier = (package, some sub) ∧ specifier = package ++ "/" ++ sub
  /-- Only scoped packages have two segments. -/
  segments : (Path.mk (packageName specifier)).segments.length =
    if specifier.toList.head? = some '@' then 2 else 1
  /-- Trust in the package is trust in its name. -/
  own : packageName (packageName specifier) = packageName specifier
  /-- The package lies below the directory of packages, and the path in it below the package. -/
  below : ∀ packages : Path, packages.isAbsolute = true → ".." ∉ packages.segments →
    ∃ inner, inner ≠ [] ∧ Path.normalize? (packages.join ⟨packageName specifier⟩).components =
        some (packages.components ++ inner) ∧
      ∀ sub, (split specifier).2 = some sub → ∃ more, more ≠ [] ∧
        Path.normalize? ((packages.join ⟨packageName specifier⟩).join ⟨sub⟩).components =
          some (packages.components ++ inner ++ more)
  visible : (entryName specifier).toList.head? ≠ some '.'
  /-- The name of the entry gives the specifier back. -/
  readBack : ∀ data, Store.entrySpecifier? (entryName specifier) (.file data) = some specifier
  listed : ∀ (store : Store) (fs : FileSystem) (children : List (String × Node)) (data : FileData),
    fs.list store.directory = .ok children → (entryName specifier, .file data) ∈ children →
      specifier ∈ store.specifiers fs
  /-- A write leaves such an entry while the path still leads to the directory, unless someone put a link
  where the unfinished file goes. -/
  written : ∀ (store : Store) (fs after : FileSystem) (content : ByteArray),
    store.write fs specifier content = .ok after → after.isDirectory store.directory = true →
      (∀ target, (store.shelf fs).lookup (store.unfinishedName specifier) ≠ some (.symlink target)) →
        specifier ∈ store.specifiers after

namespace Servable

/-- Names put behind a directory without dots stay behind it. -/
theorem below (h : Servable specifier) {packages : Path} (hAbsolute : packages.isAbsolute = true)
    (hPlain : ".." ∉ packages.segments) :
    ∃ inner, inner ≠ [] ∧ Path.normalize? (packages.join ⟨packageName specifier⟩).components =
        some (packages.components ++ inner) ∧
      ∀ sub, (split specifier).2 = some sub → ∃ more, more ≠ [] ∧
        Path.normalize? ((packages.join ⟨packageName specifier⟩).join ⟨sub⟩).components =
          some (packages.components ++ inner ++ more) := by
  have hSome (name : String) : (Path.mk name).segments.map Path.Component.name ≠ [] := by
    simpa [Path.segments] using Text.split_ne_nil '/' name.toList
  have hSteps := Path.components_plain hAbsolute hPlain
  have hPackage := Path.components_join_names packages h.package_names
  refine ⟨_, hSome (packageName specifier), ?_, fun sub hSub => ⟨_, hSome sub, ?_⟩⟩
  · rw [hPackage]
    refine Path.normalize?_plain (List.forall_mem_append.mpr ⟨hSteps, by simp⟩)
  · rw [Path.components_join_names _ (h.sub_names hSub), hPackage]
    refine Path.normalize?_plain (List.forall_mem_append.mpr
      ⟨List.forall_mem_append.mpr ⟨hSteps, by simp⟩, by simp⟩)

/-- The entry of a specifier in a request is no hidden file. -/
theorem shown (h : Servable specifier) :
    ¬ (specifier = "" ∨ specifier.toList.head? = some '.') := by
  rintro (rfl | hDot)
  · exact (h.names "" (by decide)).nonempty rfl
  · exact head_of_isPackageName h.package (h.head_package ▸ hDot)

end Servable

/-- Every specifier that a request may use is safe to look up. -/
theorem safeToLookUp_of_isServable (h : isServable specifier = true) : SafeToLookUp specifier := by
  have hServable := isServable_iff.mp h
  have hShown := hServable.shown
  refine ⟨?_, hServable.package_length, packageName_packageName specifier,
    fun packages => hServable.below, (head?_entryName specifier).not.mpr hShown, fun data => ?_,
    fun store fs children data hListed hEntry => Store.mem_specifiers hListed hEntry hShown,
    fun store fs after content hWrite hThere hNoLink => ?_⟩
  · rcases hServable.lossless with ⟨hSame, hNone⟩ | ⟨sub, hSome, hText, hSub⟩
    · exact .inl (Prod.ext hSame.symm hNone)
    · exact .inr ⟨packageName specifier, sub, hSome, Prod.ext rfl hSub, hText⟩
  · rw [Store.entrySpecifier?_entryName, if_neg hShown]
  · obtain ⟨children, hListed, hEntry⟩ := Store.entry_of_write hWrite hThere hNoLink
    exact Store.mem_specifiers hListed hEntry hShown

theorem safeToLookUp_scoped :
    SafeToLookUp "@scope/pkg/dist/x.js" ∧
      ∃ after, Store.nestedStore.write .empty "@scope/pkg/dist/x.js" Store.blankModule = .ok after ∧
        "@scope/pkg/dist/x.js" ∈ Store.nestedStore.specifiers after := by
  have hSafe := safeToLookUp_of_isServable (by decide : isServable "@scope/pkg/dist/x.js" = true)
  refine ⟨hSafe, ?_⟩
  have hEmpty : Store.nestedStore.shelf .empty = [] := by decide +kernel
  have hThere : (match Store.nestedStore.write .empty "@scope/pkg/dist/x.js" Store.blankModule with
      | .ok after => after.isDirectory Store.nestedStore.directory
      | .error _ => false) = true := by decide +kernel
  cases hWrite : Store.nestedStore.write .empty "@scope/pkg/dist/x.js" Store.blankModule with
  | error failure =>
      rw [hWrite] at hThere
      cases hThere
  | ok after =>
      rw [hWrite] at hThere
      exact ⟨after, rfl, hSafe.written _ _ after _ hWrite hThere (by simp [hEmpty])⟩

end ModuleGateway.Specifier
