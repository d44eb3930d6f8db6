import ClearNames.Payload.Base64
import Mathlib.Data.List.Basic

/-! Base64 text takes back the bytes it was made of.

A group of four characters begins with nothing left over and ends so, with three
more bytes; the last one is completed by its padding.
-/

set_option autoImplicit false

namespace ClearNames.Base64
variable {value : Nat} {group : Group} {rest : List Char}

theorem toNat_digit_lt : ∀ value < 64, (digit value).toNat < 0x80 := by decide

theorem digit_ne_pad : ∀ value < 64, digit value ≠ '=' := by decide

theorem decodeFrom_digit (small : value < 64) :
    decodeFrom group (digit value :: rest) = decodeFrom (group.add value) rest := by
  rw [decodeFrom, if_neg (digit_ne_pad value small), value?_digit value small]

theorem ofNat_of_toNat {byte : UInt8} (same : value = byte.toNat) : UInt8.ofNat value = byte := by
  rw [same, UInt8.ofNat_toNat]

theorem decodeFrom_encode (done bytes : List UInt8) :
    decodeFrom ⟨0, 0, 0, done⟩ (encode bytes) = some (done.reverse ++ bytes) := by
  fun_induction encode bytes generalizing done with
  | case1 first second third rest bits ih =>
    have below := first.toNat_lt
    have next := second.toNat_lt
    have last := third.toNat_lt
    have one : bits / 0x40000 * 4 + bits / 0x1000 % 64 / 16 = first.toNat := by omega
    have two : bits / 0x1000 % 64 % 16 * 16 + bits / 64 % 64 / 4 = second.toNat := by omega
    have three : bits / 64 % 64 % 4 * 64 + bits % 64 = third.toNat := by omega
    rw [decodeFrom_digit (by omega), decodeFrom_digit (by omega), decodeFrom_digit (by omega),
      decodeFrom_digit (by omega)]
    simp only [Group.add, ofNat_of_toNat one, ofNat_of_toNat two, ofNat_of_toNat three]
    rw [ih]
    simp
  | case2 first second bits =>
    have below := first.toNat_lt
    have next := second.toNat_lt
    have one : bits / 0x400 * 4 + bits / 16 % 64 / 16 = first.toNat := by omega
    have two : bits / 16 % 64 % 16 * 16 + bits % 16 * 4 / 4 = second.toNat := by omega
    rw [decodeFrom_digit (by omega), decodeFrom_digit (by omega), decodeFrom_digit (by omega)]
    simp only [Group.add, ofNat_of_toNat one, ofNat_of_toNat two]
    simp [decodeFrom]
  | case3 first =>
    have below := first.toNat_lt
    have one : first.toNat / 4 * 4 + first.toNat % 4 * 16 / 16 = first.toNat := by omega
    rw [decodeFrom_digit (by omega), decodeFrom_digit (by omega)]
    simp only [Group.add, ofNat_of_toNat one]
    simp [decodeFrom]
  | case4 => simp [decodeFrom]

theorem decode?_encode (bytes : List UInt8) : decode? (encode bytes) = some bytes :=
  decodeFrom_encode [] bytes

theorem ascii_encode (bytes : List UInt8) : ∀ char ∈ encode bytes, char.toNat < 0x80 := by
  have padding : '='.toNat < 0x80 := by decide
  fun_induction encode bytes with
  | case1 first second third rest bits ih =>
    have below := first.toNat_lt
    have next := second.toNat_lt
    have last := third.toNat_lt
    simp only [List.forall_mem_cons]
    exact ⟨toNat_digit_lt _ (by omega), toNat_digit_lt _ (by omega), toNat_digit_lt _ (by omega),
      toNat_digit_lt _ (by omega), ih⟩
  | case2 first second bits =>
    have below := first.toNat_lt
    have next := second.toNat_lt
    simp only [List.forall_mem_cons]
    exact ⟨toNat_digit_lt _ (by omega), toNat_digit_lt _ (by omega), toNat_digit_lt _ (by omega), padding,
      List.forall_mem_nil _⟩
  | case3 first =>
    have below := first.toNat_lt
    simp only [List.forall_mem_cons]
    exact ⟨toNat_digit_lt _ (by omega), toNat_digit_lt _ (by omega), padding, padding, List.forall_mem_nil _⟩
  | case4 => exact List.forall_mem_nil _

end ClearNames.Base64
