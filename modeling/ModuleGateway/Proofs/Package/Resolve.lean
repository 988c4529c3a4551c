import ModuleGateway.Package.Resolve
import ModuleGateway.Proofs.Trust.Registry

/-!
What resolving a specifier says and what it trusts. An installed package provides a specifier only
when no runtime global stands for it, and it is the package that the specifier belongs to.
-/

namespace ModuleGateway.Package

theorem locate?_package {fs : FileSystem} {packages : Path} {specifier : String} {m : Located}
    (h : locate? fs packages specifier = some m) : m.package = Specifier.packageName specifier := by
  unfold locate? at h
  dsimp only at h
  split at h
  · cases h
  · split at h
    · cases h
    · obtain ⟨file, -, rfl⟩ := Option.map_eq_some_iff.mp h
      rfl

namespace Sources

theorem resolve_eq_installed_iff {sources : Sources} {fs : FileSystem}
    {specifier package path : String} :
    sources.resolve fs specifier = .installed package path ↔
      sources.global? specifier = none ∧
        (∃ m, sources.locate? fs specifier = some m) ∧
        package = Specifier.packageName specifier ∧ path = sources.publicPath specifier := by
  cases hGlobal : sources.global? specifier with
  | some expression => simp [resolve, hGlobal]
  | none =>
      cases hLocated : sources.locate? fs specifier with
      | some m =>
          have hPackage : m.package = Specifier.packageName specifier := locate?_package hLocated
          simp [resolve, hGlobal, hLocated, hPackage, eq_comm]
      | none =>
          cases hCdn : sources.cdnUrl? specifier <;> simp [resolve, hGlobal, hLocated, hCdn]

/-- An installed package is that of the specifier, which no runtime global stands for. -/
theorem package?_eq_some_iff {sources : Sources} {fs : FileSystem} {specifier package : String} :
    (sources.resolve fs specifier).package? = some package ↔
      sources.global? specifier = none ∧
        (∃ m, sources.locate? fs specifier = some m) ∧
        package = Specifier.packageName specifier := by
  constructor
  · intro hPackage
    cases hResolved : sources.resolve fs specifier with
    | installed found path =>
        rw [hResolved] at hPackage
        cases hPackage
        obtain ⟨hNoGlobal, hInstalled, hName, -⟩ := resolve_eq_installed_iff.mp hResolved
        exact ⟨hNoGlobal, hInstalled, hName⟩
    | _ =>
        rw [hResolved] at hPackage
        cases hPackage
  · rintro ⟨hNoGlobal, hInstalled, hName⟩
    rw [resolve_eq_installed_iff.mpr ⟨hNoGlobal, hInstalled, hName, rfl⟩]
    rfl

theorem resolveTrusting_run (sources : Sources) (fs : FileSystem) (specifier : String)
    (trusted : Trust.Registry) :
    (sources.resolveTrusting fs specifier).run trusted =
      (sources.resolve fs specifier,
        match sources.resolve fs specifier with
        | .installed package _ => (trusted.register package).2
        | _ => trusted) := by
  unfold resolveTrusting
  cases sources.resolve fs specifier <;> rfl

/-- Resolving trusts the package of an installed specifier, unless its name is empty, and nothing
else. -/
theorem contains_resolveTrusting (sources : Sources) (fs : FileSystem) (specifier name : String)
    (trusted : Trust.Registry) :
    ((sources.resolveTrusting fs specifier).run trusted).2.contains name = true ↔
      trusted.contains name = true ∨
        ((sources.resolve fs specifier).package? = some name ∧ name ≠ "") := by
  rw [resolveTrusting_run]
  cases h : sources.resolve fs specifier with
  | installed package path =>
      obtain ⟨-, -, rfl, -⟩ := resolve_eq_installed_iff.mp h
      rw [Trust.Registry.contains_register, Specifier.packageName_packageName]
      exact or_congr_right (and_congr_left' ⟨fun h => congrArg some h.symm, fun h => by cases h; rfl⟩)
  | _ => simp [Resolution.package?]

end Sources

end ModuleGateway.Package
