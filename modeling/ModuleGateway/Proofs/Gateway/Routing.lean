import ModuleGateway.Gateway.Message
import ModuleGateway.Gateway.Routing
import ModuleGateway.Package.Resolve
import ModuleGateway.Proofs.Text.Split
import Mathlib.Data.List.TakeWhile

/-!
The router reads back what a public path says.
-/

namespace ModuleGateway

/-- A target without query and fragment is a path. -/
theorem Request.path_eq {r : Request} (hQuery : '?' ∉ r.target.toList)
    (hFragment : '#' ∉ r.target.toList) : r.path = r.target := by
  have hAll : r.target.toList.takeWhile (fun c => c ≠ '?' && c ≠ '#') = r.target.toList := by
    refine List.takeWhile_eq_self_iff.mpr fun c hMem => ?_
    have hNotQuery : c ≠ '?' := fun h => hQuery (h ▸ hMem)
    have hNotFragment : c ≠ '#' := fun h => hFragment (h ▸ hMem)
    simp [hNotQuery, hNotFragment]
  rw [Request.path, hAll, String.ofList_toList]

namespace Route

/-- A specifier's public path asks for the module of that specifier, whatever the specifier is. -/
theorem ofPath?_publicPath (settings : Settings) (specifier : String) :
    ofPath? settings ((Package.Sources.ofSettings settings).publicPath specifier) =
      some (.vendor specifier) := by
  have hBelow : below? settings
      ((Package.Sources.ofSettings settings).publicPath specifier).toList =
        some (vendorMark settings ++ specifier.toList) := by
    by_cases hPrefix : settings.publicPrefix = "/"
    · simp [below?, hPrefix, Package.Sources.publicPath, Package.Sources.ofSettings,
        Settings.vendorPrefix, vendorMark]
    · have hAfter := Text.after?_append settings.publicPrefix.toList
        (vendorMark settings ++ specifier.toList)
      simp [below?, hPrefix, Package.Sources.publicPath, Package.Sources.ofSettings,
        Settings.vendorPrefix, vendorMark] at hAfter ⊢
      simp [hAfter]
  rw [ofPath?, hBelow]
  simp [Text.after?_append]

end Route

end ModuleGateway
