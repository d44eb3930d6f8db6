import ClearNames.Breakdown
import ClearNames.Json.Basic
import ClearNames.Text.Quoted

/-! Amounts: whole numbers that are given by values of several kinds.

A fraction counts without its part after the point, a truth value as zero or
one, and a text as the whole number that it spells.
-/

set_option autoImplicit false

namespace ClearNames

abbrev Amount := Except Breakdown Int

namespace Amount

def ofBool (value : Bool) : Amount := .ok (if value then 1 else 0)

def ofFloat : Binary64 → Amount
  | .finite negative mantissa exponent =>
    let whole : Int := Binary64.wholePart mantissa exponent
    .ok (if negative then -whole else whole)
  | .infinite _ => .error (.tooLarge "cannot convert float infinity to integer")
  | .notANumber => .error (.badValue "cannot convert float NaN to integer")

def shownLength : Nat := 200

def ofLoose (text : LooseText) : Amount :=
  match text.text?.bind Text.readInteger? with
  | some number => .ok number
  | none =>
    let shown := String.ofList (text.quoted.toList.take shownLength)
    .error (.badValue ("invalid literal for int() with base 10: " ++ shown))

def ofJson : Json → Amount
  | .int value => .ok value
  | .bool value => ofBool value
  | .float value => ofFloat value
  | .string text => ofLoose text
  | .codes list => ofLoose (.ofCodes list)
  | other => .error (.badKind
      ("int() argument must be a string, a bytes-like object or a real number, not '" ++ other.kind ++ "'"))

end Amount

end ClearNames
