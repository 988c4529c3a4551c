/-!
Numbers in base sixteen, without leading zeros.
-/

namespace ModuleGateway.Text

/-- The lower-case digits of a number in base sixteen. -/
def hex (n : Nat) : List Char :=
  Nat.toDigits 16 n

/-- The upper-case digits of a number in base sixteen. -/
def upperHex (n : Nat) : List Char :=
  (hex n).map Char.toUpper

/-- The last four lower-case digits of a number in base sixteen, zeros included. -/
def hex4 (n : Nat) : List Char :=
  [n / 4096 % 16, n / 256 % 16, n / 16 % 16, n % 16].map Nat.digitChar

end ModuleGateway.Text
