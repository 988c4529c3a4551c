/-!
Bytes can be told apart. The test walks the two lists of bytes, so that it also evaluates in proofs.
-/

namespace ModuleGateway

theorem toList_data_injective {a b : ByteArray} (h : a.data.toList = b.data.toList) : a = b :=
  ByteArray.ext (Array.ext' h)

/-- Bytes are equal when their lists are. -/
instance (priority := 1100) decidableEqBytes : DecidableEq ByteArray := fun a b =>
  if h : a.data.toList = b.data.toList then .isTrue (toList_data_injective h)
  else .isFalse fun same => h (same ▸ rfl)

end ModuleGateway
