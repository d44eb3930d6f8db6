import ClearNames.Json.Binary64

/-! Whole numbers as figures: in a base, and as decimals with a point or a power of ten.

Decimals show the nearest double-precision number. A number of up to 53 bits is
its own nearest one; beyond it, a half goes to the even neighbour. Digits that
are left away round the last one kept, again with halves to even.
-/

set_option autoImplicit false

namespace ClearNames

/-- A number in print: what stands before its digits, and the digits. -/
structure Figure where
  negative : Bool
  mark : List Char := []
  digits : List Char
  deriving DecidableEq, Repr

namespace Figure

def nearest? (number : Int) : Option Nat :=
  match Binary64.ofFraction false number.natAbs 1 with
  | .finite _ mantissa exponent =>
    let (numerator, denominator) := Binary64.fraction mantissa exponent
    some (numerator / denominator)
  | _ => none

def upper (char : Char) : Char := char.toUpper

def inBase (base : Nat) (mark : List Char) (least : Nat) (number : Int) : Figure :=
  let digits := Nat.toDigits base number.natAbs
  ⟨number < 0, mark, List.replicate (least - digits.length) '0' ++ digits⟩

def withPoint (keepPoint : Bool) (whole places : List Char) : List Char :=
  if places.isEmpty && !keepPoint then whole else whole ++ '.' :: places

def fixed (keepPoint : Bool) (places magnitude : Nat) : List Char :=
  withPoint keepPoint (Nat.toDigits 10 magnitude) (List.replicate places '0')

/-- The leading digits of a magnitude, rounded to a count above zero, and the
power of ten of the first. -/
def leading (count magnitude : Nat) : List Char × Nat :=
  let digits := Nat.toDigits 10 magnitude
  if digits.length ≤ count then (digits ++ List.replicate (count - digits.length) '0', digits.length - 1)
  else
    let rounded := Nat.toDigits 10 (Binary64.roundDiv magnitude (Binary64.power10 (digits.length - count)))
    if rounded.length ≤ count then (rounded, digits.length - 1) else (rounded.take count, digits.length)

def exponentText (power : Nat) : List Char :=
  let digits := Nat.toDigits 10 power
  'e' :: '+' :: (if digits.length < 2 then '0' :: digits else digits)

def withoutZeros (digits : List Char) : List Char := (digits.reverse.dropWhile (· == '0')).reverse

def scientific (keepPoint : Bool) (places magnitude : Nat) : List Char :=
  let (digits, power) := leading (places + 1) magnitude
  withPoint keepPoint (digits.take 1) (digits.drop 1) ++ exponentText power

/-- At most a number of digits: without a power of ten if they suffice for the
whole magnitude. Zeros after the point stay only if the point is to stay. -/
def general (keepPoint : Bool) (count magnitude : Nat) : List Char :=
  let count := max 1 count
  let whole := Nat.toDigits 10 magnitude
  if whole.length ≤ count then
    if keepPoint then fixed true (count - whole.length) magnitude else whole
  else
    let (digits, power) := leading count magnitude
    let places := digits.drop 1
    withPoint keepPoint (digits.take 1) (if keepPoint then places else withoutZeros places) ++ exponentText power

end Figure

end ClearNames
