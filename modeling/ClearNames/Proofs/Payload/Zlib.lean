import ClearNames.Payload.Zlib
import Mathlib.Data.Nat.Bitwise
import Mathlib.Data.List.Basic
import Mathlib.Tactic.Ring

/-! Zlib data takes back the bytes it was made of.

The bits of whole bytes are taken as the numbers they were written from. Every
stored block begins at a byte, and what is left of its first byte is skipped.
-/

set_option autoImplicit false

namespace ClearNames

namespace Bits
variable {count value : Nat} {rest : List Bool}

theorem take?_testBits (small : value < 2 ^ count) :
    take? count ((List.range count).map value.testBit ++ rest) = some (value, rest) := by
  induction count generalizing value with
  | zero =>
    obtain rfl : value = 0 := by simpa using small
    rfl
  | succ count ih =>
    have half : value / 2 < 2 ^ count := by rw [Nat.pow_succ] at small; omega
    have whole : 2 * (value / 2) + (value.testBit 0).toNat = value := by
      rw [Nat.toNat_testBit, Nat.pow_zero, Nat.div_one]
      omega
    have shifted : (List.range (count + 1)).map value.testBit =
        value.testBit 0 :: (List.range count).map (value / 2).testBit := by
      simp [List.range_succ_eq_map, Function.comp_def, Nat.testBit_succ]
    rw [shifted, List.cons_append, take?, ih half]
    simp only [Option.bind_eq_bind, Option.bind_some, Option.pure_def, whole]

theorem take?_ofByte (byte : UInt8) : take? 8 (ofByte byte ++ rest) = some (byte.toNat, rest) :=
  take?_testBits byte.toNat_lt

theorem take?_add (lower upper : Nat) (bits : List Bool) :
    take? (lower + upper) bits = (take? lower bits).bind fun (low, bits) =>
      (take? upper bits).map fun (high, bits) => (low + 2 ^ lower * high, bits) := by
  induction lower generalizing bits with
  | zero => simp [take?]
  | succ lower ih =>
    cases bits with
    | nil => simp [Nat.add_right_comm, take?]
    | cons bit bits =>
      have weight (low high : Nat) : 2 * (low + 2 ^ lower * high) + bit.toNat =
          2 * low + bit.toNat + 2 ^ (lower + 1) * high := by ring
      rw [Nat.add_right_comm]
      simp only [take?, ih, Option.bind_eq_bind, Option.pure_def, Option.bind_assoc, Option.bind_some]
      congr 1
      funext ⟨low, bits⟩
      cases take? upper bits with
      | none => rfl
      | some high => simp only [Option.map_some, Option.bind_some, weight]

theorem ofBytes_cons (byte : UInt8) (bytes : List UInt8) : ofBytes (byte :: bytes) = ofByte byte ++ ofBytes bytes :=
  rfl

theorem ofBytes_append (bytes others : List UInt8) : ofBytes (bytes ++ others) = ofBytes bytes ++ ofBytes others :=
  List.flatMap_append

theorem length_ofBytes (bytes : List UInt8) : (ofBytes bytes).length = 8 * bytes.length := by
  induction bytes with
  | nil => rfl
  | cons byte bytes ih => simp [ofBytes_cons, ofByte, ih]; omega

end Bits

namespace Zlib
variable {rest : List Bool} {out : Array UInt8}

theorem length_bytesLowFirst (count value : Nat) : (bytesLowFirst count value).length = count := by
  induction count generalizing value with
  | zero => rfl
  | succ count ih => simp [bytesLowFirst, ih]

theorem take?_bytesLowFirst {count value : Nat} (small : value < 2 ^ (8 * count)) :
    Bits.take? (8 * count) (Bits.ofBytes (bytesLowFirst count value) ++ rest) = some (value, rest) := by
  induction count generalizing value with
  | zero =>
    obtain rfl : value = 0 := by simpa using small
    rfl
  | succ count ih =>
    have upper : value / 256 < 2 ^ (8 * count) := by
      rw [Nat.mul_succ, Nat.pow_add] at small
      omega
    rw [show 8 * (count + 1) = 8 + 8 * count by omega, Bits.take?_add, bytesLowFirst, Bits.ofBytes_cons,
      List.append_assoc, Bits.take?_ofByte, Option.bind_some]
    simp only [ih upper, Option.map_some, UInt8.toNat_ofNat']
    congr 2
    omega

theorem takeBytes_ofBytes (bytes : List UInt8) :
    takeBytes bytes.length (Bits.ofBytes bytes ++ rest) out = some (rest, out ++ bytes.toArray) := by
  induction bytes generalizing out with
  | nil => simp [takeBytes, Bits.ofBytes]
  | cons byte bytes ih =>
    rw [List.length_cons, takeBytes, Bits.ofBytes_cons, List.append_assoc, Bits.take?_ofByte]
    simp only [Option.bind_eq_bind, Option.bind_some, UInt8.ofNat_toNat]
    rw [ih]
    simp

theorem align_append {left : List Bool} (short : left.length < 8) (bytes : List UInt8) :
    align (left ++ Bits.ofBytes bytes) = Bits.ofBytes bytes := by
  have remainder : (left ++ Bits.ofBytes bytes).length % 8 = left.length := by
    rw [List.length_append, Bits.length_ofBytes]
    omega
  rw [align, remainder, List.drop_left]

theorem align_ofBytes (bytes : List UInt8) : align (Bits.ofBytes bytes) = Bits.ofBytes bytes := by
  have none_left : ([] : List Bool).length < 8 := by decide
  exact align_append none_left bytes

theorem readStored_eq_some {left : List Bool} (short : left.length < 8) {bytes : List UInt8}
    (fits : bytes.length ≤ blockLimit) (later : List UInt8) :
    readStored (left ++ Bits.ofBytes
        (bytesLowFirst 2 bytes.length ++ bytesLowFirst 2 (65535 - bytes.length) ++ bytes ++ later)) out =
      some (Bits.ofBytes later, out ++ bytes.toArray) := by
  have limit : bytes.length ≤ 65535 := fits
  have two {value : Nat} (small : value ≤ 65535) (rest : List Bool) :
      Bits.take? 16 (Bits.ofBytes (bytesLowFirst 2 value) ++ rest) = some (value, rest) :=
    @take?_bytesLowFirst rest 2 value (by omega)
  rw [readStored, align_append short]
  simp only [Bits.ofBytes_append, List.append_assoc, two limit, two (Nat.sub_le 65535 bytes.length),
    Option.bind_eq_bind, Option.bind_some]
  rw [if_pos (by omega), takeBytes_ofBytes]

theorem ofByte_last (last : Bool) : Bits.ofByte (if last then 1 else 0) = last :: List.replicate 7 false := by
  cases last <;> decide

/-- A stored block adds its bytes, and the reading ends with it if it is the last one. -/
theorem readBlocks_storedBlock (last : Bool) (fuel : Nat) {bytes : List UInt8} (fits : bytes.length ≤ blockLimit)
    (later : List UInt8) :
    readBlocks (fuel + 1) (Bits.ofBytes (storedBlock last bytes ++ later)) out =
      if last then some (Bits.ofBytes later, out ++ bytes.toArray)
      else readBlocks fuel (Bits.ofBytes later) (out ++ bytes.toArray) := by
  have five : (List.replicate 5 false).length < 8 := by decide
  have stored := @readStored_eq_some out _ five bytes fits later
  rw [storedBlock, List.cons_append, List.cons_append, List.cons_append, Bits.ofBytes_cons, ofByte_last, readBlocks]
  simp only [List.replicate, List.cons_append, List.nil_append, Bits.take?, Option.bind_eq_bind, Option.pure_def,
    Option.bind_some] at stored ⊢
  rw [stored]
  cases last <;> simp

theorem length_le_storedBlocks (bytes : List UInt8) : bytes.length ≤ (storedBlocks bytes).length := by
  fun_induction storedBlocks bytes with
  | case1 bytes fits => simp [storedBlock]; omega
  | case2 bytes large ih =>
    simp [storedBlock] at ih ⊢
    omega

theorem readBlocks_storedBlocks (bytes later : List UInt8) {fuel : Nat} (enough : bytes.length < fuel) :
    readBlocks fuel (Bits.ofBytes (storedBlocks bytes ++ later)) out =
      some (Bits.ofBytes later, out ++ bytes.toArray) := by
  obtain ⟨fuel, rfl⟩ : ∃ less, fuel = less + 1 := ⟨fuel - 1, by omega⟩
  fun_induction storedBlocks bytes generalizing out fuel with
  | case1 bytes fits => rw [readBlocks_storedBlock true fuel fits, if_pos rfl]
  | case2 bytes large ih =>
    have limit : ¬ bytes.length ≤ 65535 := large
    have front : (bytes.take blockLimit).length ≤ blockLimit := List.length_take_le ..
    have shorter : (bytes.drop blockLimit).length < fuel := by
      rw [List.length_drop, blockLimit]
      omega
    obtain ⟨less, rfl⟩ : ∃ less, fuel = less + 1 := ⟨fuel - 1, by omega⟩
    rw [List.append_assoc, readBlocks_storedBlock false _ front, if_neg (by decide), ih less shorter]
    simp [Array.append_assoc]

theorem decompress?_compress (bytes : List UInt8) : decompress? (compress bytes) = some bytes := by
  have header : isHeader 0x78 0x01 = true := by decide
  have enough : bytes.length < (Bits.ofBytes (storedBlocks bytes ++ bytesHighFirst 4 (checksum bytes))).length + 1 := by
    have stored := length_le_storedBlocks bytes
    rw [Bits.length_ofBytes, List.length_append]
    omega
  have four : (bytesHighFirst 4 (checksum bytes)).length = 4 := by
    rw [bytesHighFirst, List.length_reverse, length_bytesLowFirst]
  have sum := @takeBytes_ofBytes [] #[] (bytesHighFirst 4 (checksum bytes))
  rw [four, List.append_nil] at sum
  rw [compress, List.cons_append, List.cons_append, decompress?, header]
  simp only [readBlocks_storedBlocks bytes _ enough, align_ofBytes, sum, Option.bind_eq_bind, Option.bind_some]
  simp

end Zlib

end ClearNames
