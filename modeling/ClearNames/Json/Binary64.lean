import ClearNames.Text.Digits

/-! Double-precision numbers as exact values.

A finite number is a sign and `mantissa * 2 ^ exponent`, with the exponent at
least -1074 and the mantissa below `2 ^ 53`. Decimal text is rounded to the
nearest such number, a half going to the even mantissa. A number is printed
with the fewest digits that read back.
-/

set_option autoImplicit false

namespace ClearNames

inductive Binary64 where
  | finite (negative : Bool) (mantissa : Nat) (exponent : Int)
  | infinite (negative : Bool)
  | notANumber
  deriving DecidableEq, Repr

namespace Binary64

def leastExponent : Int := -1074

def greatestExponent : Int := 971

/-- A quotient rounded to the nearest whole number, a half to the even one. -/
def roundDiv (numerator denominator : Nat) : Nat :=
  let quotient := numerator / denominator
  let double := 2 * (numerator % denominator)
  if double < denominator then quotient
  else if double > denominator then quotient + 1
  else if quotient % 2 = 0 then quotient else quotient + 1

def power2 (exponent : Nat) : Nat := Nat.pow 2 exponent

def power10 (exponent : Nat) : Nat := Nat.pow 10 exponent

def scale (numerator denominator : Nat) (exponent : Int) : Nat × Nat :=
  if exponent < 0 then (numerator * power2 (-exponent).toNat, denominator)
  else (numerator, denominator * power2 exponent.toNat)

/-- The exponent under which a positive fraction has a mantissa of 53 bits, or
the least one. -/
def exponentOf (numerator denominator : Nat) : Int :=
  let guess : Int := (numerator.log2 : Int) - (denominator.log2 : Int) - 52
  let (scaled, unit) := scale numerator denominator guess
  let exponent := if scaled < unit * power2 52 then guess - 1 else guess
  max leastExponent exponent

def ofFraction (negative : Bool) (numerator denominator : Nat) : Binary64 :=
  if numerator = 0 then .finite negative 0 leastExponent
  else
    let exponent := exponentOf numerator denominator
    let (scaled, unit) := scale numerator denominator exponent
    let mantissa := roundDiv scaled unit
    let (mantissa, exponent) :=
      if mantissa = power2 53 then (power2 52, exponent + 1) else (mantissa, exponent)
    if greatestExponent < exponent then .infinite negative else .finite negative mantissa exponent

def ofDecimal (negative : Bool) (digits : Nat) (power : Int) : Binary64 :=
  if power < 0 then ofFraction negative digits (power10 (-power).toNat)
  else ofFraction negative (digits * power10 power.toNat) 1

def fraction (mantissa : Nat) (exponent : Int) : Nat × Nat :=
  if exponent < 0 then (mantissa, power2 (-exponent).toNat) else (mantissa * power2 exponent.toNat, 1)

def wholePart (mantissa : Nat) (exponent : Int) : Nat :=
  let (numerator, denominator) := fraction mantissa exponent
  numerator / denominator

def decimalPower (numerator denominator : Nat) : Int :=
  if denominator ≤ numerator then ((Nat.toDigits 10 (numerator / denominator)).length : Int) - 1
  else
    let zeros := (Nat.toDigits 10 (denominator / numerator)).length
    if numerator * power10 (zeros - 1) < denominator then -(zeros : Int) else 1 - (zeros : Int)

/-- The decimal with a number of digits that reads back and is nearest, if any
does: the two neighbours on that decimal grid are tried. -/
def decimalOf? (mantissa : Nat) (exponent : Int) (places : Nat) : Option (Nat × Int) :=
  let (numerator, denominator) := fraction mantissa exponent
  let power := decimalPower numerator denominator - ((places : Int) - 1)
  let (scaled, unit) :=
    if power < 0 then (numerator * power10 (-power).toNat, denominator)
    else (numerator, denominator * power10 power.toNat)
  let below := scaled / unit
  let nearest := roundDiv scaled unit
  let farther := if nearest = below then below + 1 else below
  let readsBack := fun digits => ofDecimal false digits power == .finite false mantissa exponent
  if readsBack nearest then some (nearest, power)
  else if readsBack farther then some (farther, power) else none

def shortest (mantissa : Nat) (exponent : Int) : Nat × Int :=
  ((List.range 17).findSome? fun places => decimalOf? mantissa exponent (places + 1)).getD (mantissa, 0)

def dropZeros : (fuel : Nat) → Nat → Int → Nat × Int
  | 0, digits, power => (digits, power)
  | fuel + 1, digits, power =>
    if digits ≠ 0 ∧ digits % 10 = 0 then dropZeros fuel (digits / 10) (power + 1) else (digits, power)

/-- Decimal digits with a point: positional from 0.0001 to below 10^16, else
with a power of ten of at least two digits. -/
def layOut (digits : List Char) (power : Int) : List Char :=
  let point : Int := digits.length + power
  if -4 < point ∧ point ≤ 16 then
    if point ≤ 0 then '0' :: '.' :: List.replicate (-point).toNat '0' ++ digits
    else if point < digits.length then digits.take point.toNat ++ '.' :: digits.drop point.toNat
    else digits ++ List.replicate (point - digits.length).toNat '0' ++ ['.', '0']
  else
    let significand := match digits with
      | [] => []
      | [only] => [only]
      | first :: rest => first :: '.' :: rest
    let magnitude := Nat.toDigits 10 (point - 1).natAbs
    significand ++ 'e' :: (if point < 1 then '-' else '+') ::
      (if magnitude.length < 2 then '0' :: magnitude else magnitude)

def text : Binary64 → String
  | .notANumber => "nan"
  | .infinite false => "inf"
  | .infinite true => "-inf"
  | .finite negative mantissa exponent =>
    let body :=
      if mantissa = 0 then ['0', '.', '0']
      else
        let (digits, power) := shortest mantissa exponent
        let (digits, power) := dropZeros 20 digits power
        layOut (Nat.toDigits 10 digits) power
    String.ofList (if negative then '-' :: body else body)

def isNat (number : Binary64) (value : Nat) : Bool :=
  match number with
  | .finite negative mantissa exponent =>
    let (numerator, denominator) := fraction mantissa exponent
    numerator == value * denominator && (!negative || value == 0)
  | _ => false

end Binary64

end ClearNames
