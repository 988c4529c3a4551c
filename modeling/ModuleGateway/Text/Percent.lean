import ModuleGateway.Text.Digits

/-!
Percent escapes: a percent sign with two digits in base sixteen stands for a byte.
-/

namespace ModuleGateway.Text

/-- The bytes that a text with percent escapes stands for. A percent sign without two digits behind it
stands for itself. -/
def percentBytes : List Char → List UInt8
  | '%' :: a :: b :: rest =>
    match hexNumber? [a, b] with
    | some n => UInt8.ofNat n :: percentBytes rest
    | none => '%'.toUInt8 :: percentBytes (a :: b :: rest)
  | c :: rest => (String.singleton c).toUTF8.toList ++ percentBytes rest
  | [] => []

/-- The text that a text with percent escapes stands for, when the bytes are one. -/
def percentDecode? (text : String) : Option String :=
  String.fromUTF8? (percentBytes text.toList).toByteArray

end ModuleGateway.Text
