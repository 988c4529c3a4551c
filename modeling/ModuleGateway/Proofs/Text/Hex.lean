import ModuleGateway.Text.Hex
import Mathlib.Data.List.Basic

/-!
Numbers can be read back from their digits in base sixteen.
-/

namespace ModuleGateway.Text

/-- The number that a digit in base sixteen stands for. -/
def hexDigit (c : Char) : Nat :=
  if c.isDigit then c.toNat - '0'.toNat else c.toNat - 'a'.toNat + 10

/-- The number that digits in base sixteen stand for. -/
def ofHex (digits : List Char) : Nat :=
  digits.foldl (fun n c => 16 * n + hexDigit c) 0

theorem hexDigit_digitChar {d : Nat} (h : d < 16) : hexDigit d.digitChar = d := by
  decide +revert

theorem ofHex_concat (digits : List Char) (c : Char) :
    ofHex (digits ++ [c]) = 16 * ofHex digits + hexDigit c := by
  rw [ofHex, List.foldl_append]
  rfl

theorem ofHex_hex (n : Nat) : ofHex (hex n) = n := by
  induction n using Nat.strongRecOn with
  | ind n ih =>
      have hLast := hexDigit_digitChar (Nat.mod_lt n (by decide : 16 > 0))
      rw [hex, Nat.toDigits_eq_if (by decide)]
      split
      · rename_i hSmall
        rw [Nat.mod_eq_of_lt hSmall] at hLast
        rw [← List.nil_append [n.digitChar], ofHex_concat, hLast]
        exact Nat.zero_add n
      · have hFront := ih (n / 16) (by omega)
        rw [hex] at hFront
        rw [ofHex_concat, hFront, hLast]
        omega

theorem hex_injective {a b : Nat} (h : hex a = hex b) : a = b := by
  rw [← ofHex_hex a, h, ofHex_hex]

theorem digit_of_mem_hex {n : Nat} {c : Char} (h : c ∈ hex n) : c ∈ "0123456789abcdef".toList := by
  have hDigit (d : Nat) (hSmall : d < 16) : d.digitChar ∈ "0123456789abcdef".toList := by
    decide +revert
  induction n using Nat.strongRecOn with
  | ind n ih =>
      rw [hex, Nat.toDigits_eq_if (by decide)] at h
      split at h
      · rename_i hSmall
        rw [List.mem_singleton.mp h]
        exact hDigit n hSmall
      · rcases List.mem_append.mp h with hFront | hLast
        · exact ih (n / 16) (by omega) hFront
        · rw [List.mem_singleton.mp hLast]
          exact hDigit _ (Nat.mod_lt n (by decide))

end ModuleGateway.Text
