import ClearNames.Text.Hex

/-! Decoding of UTF-8 with exact faults.

Bytes are read from the front. A fault names the longest beginning of a
character that is still possible at its place, and why it is none.
-/

set_option autoImplicit false

namespace ClearNames.Text

inductive Utf8Reason where
  | badStart
  | badContinuation
  | unfinished
  deriving DecidableEq, Repr

def Utf8Reason.message : Utf8Reason → String
  | .badStart => "invalid start byte"
  | .badContinuation => "invalid continuation byte"
  | .unfinished => "unexpected end of data"

/-- A sequence of bytes that begins no character: where it starts, its first
byte, and how many bytes it has. -/
structure Utf8Fault where
  position : Nat
  byte : UInt8
  length : Nat
  reason : Utf8Reason
  deriving DecidableEq, Repr

def Utf8Fault.message (fault : Utf8Fault) : String :=
  let place :=
    if fault.length ≤ 1 then
      "byte 0x" ++ String.ofList (fixedHex 2 fault.byte.toNat) ++ " in position " ++ toString fault.position
    else
      "bytes in position " ++ toString fault.position ++ "-" ++
        toString (fault.position + fault.length - 1)
  "'utf-8' codec can't decode " ++ place ++ ": " ++ fault.reason.message

/-- What a first byte promises: the bits it carries, the range of the second
byte, and the number of bytes to follow. -/
structure Utf8Lead where
  bits : Nat
  low : UInt8
  high : UInt8
  follow : Nat
  deriving DecidableEq, Repr

def Utf8Lead.ofByte? (byte : UInt8) : Option Utf8Lead :=
  let value := byte.toNat
  if value < 0x80 then some ⟨value, 0x80, 0xBF, 0⟩
  else if value < 0xC2 then none
  else if value < 0xE0 then some ⟨value - 0xC0, 0x80, 0xBF, 1⟩
  else if value < 0xF0 then
    some ⟨value - 0xE0, if value = 0xE0 then 0xA0 else 0x80, if value = 0xED then 0x9F else 0xBF, 2⟩
  else if value < 0xF5 then
    some ⟨value - 0xF0, if value = 0xF0 then 0x90 else 0x80, if value = 0xF4 then 0x8F else 0xBF, 3⟩
  else none

/-- What the bytes read so far amount to: the characters before, the latest
first, and the character under way or the fault that ended the reading. -/
inductive Utf8State where
  | between (position : Nat) (chars : List Char)
  | inside (start : Nat) (first : UInt8) (seen : Nat) (lead : Utf8Lead) (chars : List Char)
  | failed (fault : Utf8Fault) (chars : List Char)
  deriving DecidableEq, Repr

def Utf8State.step (state : Utf8State) (byte : UInt8) : Utf8State :=
  match state with
  | .failed fault chars => .failed fault chars
  | .between position chars =>
    match Utf8Lead.ofByte? byte with
    | none => .failed ⟨position, byte, 1, .badStart⟩ chars
    | some lead =>
      if lead.follow = 0 then .between (position + 1) (Char.ofNat lead.bits :: chars)
      else .inside position byte 1 lead chars
  | .inside start first seen lead chars =>
    if lead.low ≤ byte ∧ byte ≤ lead.high then
      let bits := lead.bits * 64 + (byte.toNat - 0x80)
      if lead.follow = 1 then .between (start + seen + 1) (Char.ofNat bits :: chars)
      else .inside start first (seen + 1) ⟨bits, 0x80, 0xBF, lead.follow - 1⟩ chars
    else .failed ⟨start, first, seen, .badContinuation⟩ chars

structure Utf8Decoded where
  chars : List Char
  fault : Option Utf8Fault
  deriving DecidableEq, Repr

def Utf8State.finish : Utf8State → Utf8Decoded
  | .between _ chars => ⟨chars.reverse, none⟩
  | .inside start first seen _ chars => ⟨chars.reverse, some ⟨start, first, seen, .unfinished⟩⟩
  | .failed fault chars => ⟨chars.reverse, some fault⟩

def decodeUtf8 (bytes : ByteArray) : Utf8Decoded :=
  (bytes.toList.foldl Utf8State.step (.between 0 [])).finish

end ClearNames.Text
