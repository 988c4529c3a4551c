import ModuleGateway.Proofs.Specifier.Package
import ModuleGateway.Trust.Registry

/-!
What registering adds: the package name of the specifier, unless it is empty, and nothing else.
-/

namespace ModuleGateway.Trust.Registry

open Specifier

@[simp] theorem contains_empty (name : String) : empty.contains name = false := rfl

theorem trusts_eq (r : Registry) (specifier : String) :
    r.trusts specifier = r.contains (packageName specifier) := rfl

theorem contains_insert (r : Registry) (name other : String) :
    (r.insert name).2.contains other = true ↔ r.contains other = true ∨ other = name := by
  unfold insert
  split
  · rename_i hName
    refine ⟨Or.inl, fun h => h.elim id fun hSame => hSame ▸ hName⟩
  · simp [contains, or_comm]

theorem contains_register (r : Registry) (specifier name : String) :
    (r.register specifier).2.contains name = true ↔
      r.contains name = true ∨ (name = packageName specifier ∧ name ≠ "") := by
  unfold register candidate?
  dsimp only
  rw [trusts_eq, packageName_packageName]
  by_cases hEmpty : packageName specifier = ""
  · simp only [hEmpty, decide_true, Bool.true_or, ↓reduceIte]
    exact ⟨Or.inl, fun h => h.elim id fun ⟨hName, hNot⟩ => absurd hName hNot⟩
  · cases hKnown : r.contains (packageName specifier) with
    | true =>
        simp only [Bool.or_true, ↓reduceIte]
        exact ⟨Or.inl, fun h => h.elim id fun ⟨hName, _⟩ => hName ▸ hKnown⟩
    | false =>
        simp only [hEmpty, decide_false, Bool.or_false, Bool.false_eq_true, ↓reduceIte]
        rw [contains_insert]
        exact or_congr_right ⟨fun h => ⟨h, h ▸ hEmpty⟩, And.left⟩

/-- Registering what is trusted already changes nothing. -/
theorem register_known {r : Registry} {specifier : String}
    (h : packageName specifier ≠ "" → r.contains (packageName specifier) = true) :
    (r.register specifier).2 = r := by
  unfold register candidate?
  dsimp only
  rw [trusts_eq, packageName_packageName]
  by_cases hEmpty : packageName specifier = ""
  · simp [hEmpty]
  · simp [h hEmpty]

theorem contains_extend (r : Registry) (specifiers : List String) (name : String) :
    (r.extend specifiers).contains name = true ↔
      r.contains name = true ∨ (name ≠ "" ∧ name ∈ specifiers.map packageName) := by
  induction specifiers generalizing r with
  | nil => simp [extend]
  | cons specifier rest ih =>
      have hStep : r.extend (specifier :: rest) = (r.register specifier).2.extend rest := rfl
      rw [hStep, ih, contains_register, List.map_cons, List.mem_cons]
      tauto

end ModuleGateway.Trust.Registry
