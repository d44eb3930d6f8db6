import ClearNames.Text.Blank

/-! Decimal digits of every script, and the reading and writing of whole numbers.

A decimal digit is a character of the Unicode category Nd; these come in runs
of ten whose first member is a zero. A whole number may carry a sign, single
underscores between its digits, and white space around it. One of more digits
than the limit is neither read nor written.
-/

set_option autoImplicit false

namespace ClearNames.Text

/-- The zeros of the Unicode decimal digits, in ascending order. -/
def digitZeros : List Nat := [
  0x30, 0x660, 0x6F0, 0x7C0, 0x966, 0x9E6, 0xA66, 0xAE6, 0xB66, 0xBE6, 0xC66, 0xCE6, 0xD66, 0xDE6,
  0xE50, 0xED0, 0xF20, 0x1040, 0x1090, 0x17E0, 0x1810, 0x1946, 0x19D0, 0x1A80, 0x1A90, 0x1B50, 0x1BB0,
  0x1C40, 0x1C50, 0xA620, 0xA8D0, 0xA900, 0xA9D0, 0xA9F0, 0xAA50, 0xABF0, 0xFF10, 0x104A0, 0x10D30,
  0x11066, 0x110F0, 0x11136, 0x111D0, 0x112F0, 0x11450, 0x114D0, 0x11650, 0x116C0, 0x11730, 0x118E0,
  0x11950, 0x11C50, 0x11D50, 0x11DA0, 0x16A60, 0x16AC0, 0x16B50, 0x1D7CE, 0x1D7D8, 0x1D7E2, 0x1D7EC,
  0x1D7F6, 0x1E140, 0x1E2F0, 0x1E950, 0x1FBF0]

def digitValue? (char : Char) : Option Nat :=
  (digitZeros.find? fun start => start ≤ char.toNat && char.toNat < start + 10).map (char.toNat - ·)

def isDecimalDigit (char : Char) : Bool := (digitValue? char).isSome

/-- White space that may surround a whole number: the separators U+001C to
U+001F are blanks but not among it. -/
def isNumberSpace (char : Char) : Bool := isBlank char && !(0x1C ≤ char.toNat && char.toNat ≤ 0x1F)

def digitLimit : Nat := 4300

def digitValues? : List Char → Option (List Nat)
  | [] => none
  | [last] => (digitValue? last).map ([·])
  | first :: '_' :: rest => do return (← digitValue? first) :: (← digitValues? rest)
  | first :: rest => do return (← digitValue? first) :: (← digitValues? rest)

def ofDigits (digits : List Nat) : Nat := digits.foldl (10 * · + ·) 0

def readMagnitude? (text : List Char) : Option Nat := do
  let digits ← digitValues? text
  if digits.length ≤ digitLimit then some (ofDigits digits) else none

/-- Read a whole number; `none` where the text is not one or is too long. -/
def readInteger? (text : String) : Option Int :=
  match dropEndWhile isNumberSpace (text.toList.dropWhile isNumberSpace) with
  | '-' :: rest => (readMagnitude? rest).map fun magnitude => -(magnitude : Int)
  | '+' :: rest => (readMagnitude? rest).map Int.ofNat
  | rest => (readMagnitude? rest).map Int.ofNat

def decimal? (number : Int) : Option String :=
  if number.natAbs < Nat.pow 10 digitLimit then some (toString number) else none

end ClearNames.Text
