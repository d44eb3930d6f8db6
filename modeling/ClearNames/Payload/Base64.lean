/-! Base64 text.

Reading skips characters outside the alphabet and stops at complete padding;
text that ends within a group of four without padding is refused.
-/

set_option autoImplicit false

namespace ClearNames.Base64

def digit (value : Nat) : Char :=
  if value < 26 then Char.ofNat (0x41 + value)
  else if value < 52 then Char.ofNat (0x61 + (value - 26))
  else if value < 62 then Char.ofNat (0x30 + (value - 52))
  else if value = 62 then '+' else '/'

def value? (char : Char) : Option Nat :=
  let code := char.toNat
  if 0x41 ≤ code ∧ code ≤ 0x5A then some (code - 0x41)
  else if 0x61 ≤ code ∧ code ≤ 0x7A then some (code - 0x61 + 26)
  else if 0x30 ≤ code ∧ code ≤ 0x39 then some (code - 0x30 + 52)
  else if char = '+' then some 62
  else if char = '/' then some 63
  else none

theorem value?_digit : ∀ value < 64, value? (digit value) = some value := by decide

def encode : List UInt8 → List Char
  | first :: second :: third :: rest =>
    let bits := first.toNat * 0x10000 + second.toNat * 0x100 + third.toNat
    digit (bits / 0x40000) :: digit (bits / 0x1000 % 64) :: digit (bits / 64 % 64) :: digit (bits % 64) ::
      encode rest
  | [first, second] =>
    let bits := first.toNat * 0x100 + second.toNat
    [digit (bits / 0x400), digit (bits / 16 % 64), digit (bits % 16 * 4), '=']
  | [first] => [digit (first.toNat / 4), digit (first.toNat % 4 * 16), '=', '=']
  | [] => []

/-- How far a group of four is read: its place, the bits left over from the
character before, the padding seen since, and the bytes, the latest first. -/
structure Group where
  place : Nat
  left : Nat
  pads : Nat
  bytes : List UInt8

namespace Group

def start : Group := ⟨0, 0, 0, []⟩

def add (group : Group) (value : Nat) : Group :=
  match group.place with
  | 0 => ⟨1, value, 0, group.bytes⟩
  | 1 => ⟨2, value % 16, 0, UInt8.ofNat (group.left * 4 + value / 16) :: group.bytes⟩
  | 2 => ⟨3, value % 4, 0, UInt8.ofNat (group.left * 16 + value / 4) :: group.bytes⟩
  | _ => ⟨0, 0, 0, UInt8.ofNat (group.left * 64 + value) :: group.bytes⟩

end Group

def decodeFrom (group : Group) : List Char → Option (List UInt8)
  | [] => if group.place = 0 then some group.bytes.reverse else none
  | char :: rest =>
    if char = '=' then
      if group.place < 2 then decodeFrom group rest
      else if 4 ≤ group.place + group.pads + 1 then some group.bytes.reverse
      else decodeFrom { group with pads := group.pads + 1 } rest
    else
      match value? char with
      | some value => decodeFrom (group.add value) rest
      | none => decodeFrom group rest

def decode? (text : List Char) : Option (List UInt8) := decodeFrom .start text

end ClearNames.Base64
