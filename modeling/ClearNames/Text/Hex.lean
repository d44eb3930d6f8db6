/-! Hexadecimal digits. -/

set_option autoImplicit false

namespace ClearNames.Text

def hexDigit (value : Nat) : Char :=
  if value < 10 then Char.ofNat (0x30 + value) else Char.ofNat (0x57 + value)

/-- The lowest `width` hexadecimal digits of a number, the highest first. -/
def fixedHex : (width value : Nat) → List Char
  | 0, _ => []
  | width + 1, value => fixedHex width (value / 16) ++ [hexDigit (value % 16)]

def hexValue? (char : Char) : Option Nat :=
  let code := char.toNat
  if 0x30 ≤ code ∧ code ≤ 0x39 then some (code - 0x30)
  else if 0x61 ≤ code ∧ code ≤ 0x66 then some (code - 0x57)
  else if 0x41 ≤ code ∧ code ≤ 0x46 then some (code - 0x37)
  else none

theorem hexValue?_hexDigit : ∀ value < 16, hexValue? (hexDigit value) = some value := by decide

def readHex? (digits : List Char) : Option Nat :=
  digits.foldl (fun total digit => do return 16 * (← total) + (← hexValue? digit)) (some 0)

end ClearNames.Text
