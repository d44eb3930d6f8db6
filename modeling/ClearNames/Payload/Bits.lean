/-! Bytes as bits, the lowest bit of each byte first, and prefix codes over bits. -/

set_option autoImplicit false

namespace ClearNames

namespace Bits

def ofByte (byte : UInt8) : List Bool := (List.range 8).map byte.toNat.testBit

def ofBytes (bytes : List UInt8) : List Bool := bytes.flatMap ofByte

def take? : (count : Nat) → List Bool → Option (Nat × List Bool)
  | 0, bits => some (0, bits)
  | _ + 1, [] => none
  | count + 1, bit :: bits => do
    let (value, rest) ← take? count bits
    return (2 * value + bit.toNat, rest)

def highFirst (count value : Nat) : List Bool := (List.range count).reverse.map value.testBit

end Bits

inductive PrefixCode where
  | vacant
  | symbol (value : Nat)
  | fork (zero one : PrefixCode)
  deriving DecidableEq, Repr

namespace PrefixCode

def insert (value : Nat) : List Bool → PrefixCode → PrefixCode
  | [], _ => .symbol value
  | false :: path, .fork zero one => .fork (insert value path zero) one
  | true :: path, .fork zero one => .fork zero (insert value path one)
  | false :: path, _ => .fork (insert value path .vacant) .vacant
  | true :: path, _ => .fork .vacant (insert value path .vacant)

def read? : PrefixCode → List Bool → Option (Nat × List Bool)
  | .symbol value, bits => some (value, bits)
  | .fork zero _, false :: bits => zero.read? bits
  | .fork _ one, true :: bits => one.read? bits
  | _, _ => none

/-- The first code word of each length, from length zero on: those of one
length follow each other, and then comes the next length. -/
def firstWords (lengths : List Nat) : List Nat :=
  ((List.range 15).foldl (fun (words, word) index =>
    let used := if index = 0 then 0 else lengths.count index
    let next := 2 * (word + used)
    (words ++ [next], next)) ([0], 0)).1

/-- The code in which symbols of the given lengths are numbered in order; the
symbols of length zero have no word. -/
def ofLengths (lengths : List Nat) : PrefixCode :=
  ((lengths.zip (List.range lengths.length)).foldl
    (fun (state : PrefixCode × List Nat) entry =>
      let (code, words) := state
      let (length, value) := entry
      if length = 0 then state
      else
        let word := words[length]?.getD 0
        (code.insert value (Bits.highFirst length word), words.set length (word + 1)))
    (.vacant, firstWords lengths)).1

def wordCount (length : Nat) : Nat := Nat.pow 2 length

def taken (lengths : List Nat) : Nat :=
  lengths.foldl (fun total length => if length = 0 then total else total + wordCount (15 - length)) 0

/-- Whether lengths make a code: one that takes up all words, or none, or, where
that is allowed, a single word of length one. -/
def fits (single : Bool) (lengths : List Nat) : Bool :=
  let share := taken lengths
  share = wordCount 15 || share = 0 || (single && lengths.all (· ≤ 1) && share < wordCount 15)

end PrefixCode

end ClearNames
