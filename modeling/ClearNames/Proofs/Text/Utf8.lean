import ClearNames.Text.Utf8

/-! Decoding UTF-8 takes back what was encoded.

The bytes of a character are taken in one after the other: the first fixes how
many follow and between which bounds the second lies, and the last completes
the character.
-/

set_option autoImplicit false

namespace ClearNames.Text

/-! ## Bytes as a list -/

theorem toList_loop (bytes : ByteArray) (index : Nat) (done : List UInt8) :
    ByteArray.toList.loop bytes index done = done.reverse ++ bytes.data.toList.drop index := by
  fun_induction ByteArray.toList.loop bytes index done with
  | case1 index done inside ih =>
    have within : index < bytes.data.toList.length := by simpa using inside
    have here : bytes.get! index = bytes.data.toList[index] := getElem!_pos bytes.data index inside
    rw [ih, List.drop_eq_getElem_cons within, here]
    simp
  | case2 index done outside =>
    rw [List.drop_eq_nil_of_le (by simpa using Nat.le_of_not_lt outside), List.append_nil]

theorem toList_toByteArray (bytes : List UInt8) : bytes.toByteArray.toList = bytes := by
  rw [ByteArray.toList, toList_loop, List.toList_data_toByteArray]
  simp

theorem mk_toList (bytes : ByteArray) : ⟨bytes.toList.toArray⟩ = bytes := by
  rw [ByteArray.toList, toList_loop]
  simp

/-! ## Single bytes -/

theorem toNat_ofNat_of_lt {value : Nat} (small : value < 256) : (UInt8.ofNat value).toNat = value := by
  simp only [UInt8.toNat_ofNat']
  omega

theorem ofByte?_two (bits : Nat) (least : 2 ≤ bits) (most : bits < 32) :
    Utf8Lead.ofByte? (UInt8.ofNat (bits + 192)) = some ⟨bits, 0x80, 0xBF, 1⟩ := by
  have value := toNat_ofNat_of_lt (show bits + 192 < 256 by omega)
  grind [Utf8Lead.ofByte?]

/-- A first byte that promises two more: no surrogate, and nothing that fits into fewer bytes, is among these. -/
theorem ofByte?_three (bits : Nat) (most : bits < 16) :
    Utf8Lead.ofByte? (UInt8.ofNat (bits + 224)) =
      some ⟨bits, if bits = 0 then 0xA0 else 0x80, if bits = 13 then 0x9F else 0xBF, 2⟩ := by
  have value := toNat_ofNat_of_lt (show bits + 224 < 256 by omega)
  grind [Utf8Lead.ofByte?]

theorem ofByte?_four (bits : Nat) (most : bits ≤ 4) :
    Utf8Lead.ofByte? (UInt8.ofNat (bits + 240)) =
      some ⟨bits, if bits = 0 then 0x90 else 0x80, if bits = 4 then 0x8F else 0xBF, 3⟩ := by
  have value := toNat_ofNat_of_lt (show bits + 240 < 256 by omega)
  grind [Utf8Lead.ofByte?]

namespace Utf8State
variable {position start seen bits follow digit : Nat} {first byte low high : UInt8} {chars : List Char}

theorem step_between {lead : Utf8Lead} (known : Utf8Lead.ofByte? byte = some lead) (more : lead.follow ≠ 0) :
    (between position chars).step byte = inside position byte 1 lead chars := by
  simp [step, known, more]

theorem step_inside (least : low.toNat ≤ digit + 128) (most : digit + 128 ≤ high.toNat) :
    (inside start first seen ⟨bits, low, high, follow⟩ chars).step (UInt8.ofNat (digit + 128)) =
      if follow = 1 then between (start + seen + 1) (Char.ofNat (bits * 64 + digit) :: chars)
      else inside start first (seen + 1) ⟨bits * 64 + digit, 0x80, 0xBF, follow - 1⟩ chars := by
  have value : (UInt8.ofNat (digit + 128)).toNat = digit + 128 :=
    toNat_ofNat_of_lt (Nat.lt_of_le_of_lt most high.toNat_lt)
  have bounds : low ≤ UInt8.ofNat (digit + 128) ∧ UInt8.ofNat (digit + 128) ≤ high := by
    rw [UInt8.le_iff_toNat_le, UInt8.le_iff_toNat_le, value]
    exact ⟨least, most⟩
  simp only [step, if_pos bounds, value, Nat.add_sub_cancel]

theorem step_later (small : digit < 64) :
    (inside start first seen ⟨bits, 0x80, 0xBF, follow⟩ chars).step (UInt8.ofNat (digit + 128)) =
      if follow = 1 then between (start + seen + 1) (Char.ofNat (bits * 64 + digit) :: chars)
      else inside start first (seen + 1) ⟨bits * 64 + digit, 0x80, 0xBF, follow - 1⟩ chars := by
  have top : (0xBF : UInt8).toNat = 191 := rfl
  have bottom : (0x80 : UInt8).toNat = 128 := rfl
  exact step_inside (by omega) (by omega)

theorem foldl_utf8EncodeChar (position : Nat) (chars : List Char) (char : Char) :
    ∃ later, (String.utf8EncodeChar char).foldl step (between position chars) = between later (char :: chars) := by
  have scalar : char.val.toNat < 0xD800 ∨ 0xDFFF < char.val.toNat ∧ char.val.toNat < 0x110000 := char.valid
  have read : Char.ofNat char.val.toNat = char := Char.ofNat_toNat char
  unfold String.utf8EncodeChar
  dsimp only
  generalize char.val.toNat = code at scalar read ⊢
  -- By the number of bytes, as the encoding counts them.
  split
  · have value := toNat_ofNat_of_lt (show code < 256 by omega)
    have known : Utf8Lead.ofByte? (UInt8.ofNat code) = some ⟨code, 0x80, 0xBF, 0⟩ := by grind [Utf8Lead.ofByte?]
    exact ⟨position + 1, by simp [step, known, read]⟩
  split
  · have known := ofByte?_two (code / 64 % 32) (by omega) (by omega)
    have whole : code / 64 % 32 * 64 + code % 64 = code := by omega
    refine ⟨position + 1 + 1, ?_⟩
    rw [List.foldl_cons, step_between known (by simp), List.foldl_cons, step_later (by omega), if_pos rfl, whole, read]
    rfl
  split
  · have known := ofByte?_three (code / 4096 % 16) (by omega)
    have whole : (code / 4096 % 16 * 64 + code / 64 % 64) * 64 + code % 64 = code := by omega
    -- The second byte is bounded so that nothing shorter and no surrogate is spelled.
    have least : (if code / 4096 % 16 = 0 then 0xA0 else 0x80 : UInt8).toNat ≤ code / 64 % 64 + 128 := by
      split <;> simp only [UInt8.reduceToNat] <;> omega
    have most : code / 64 % 64 + 128 ≤ (if code / 4096 % 16 = 13 then 0x9F else 0xBF : UInt8).toNat := by
      split <;> simp only [UInt8.reduceToNat] <;> omega
    refine ⟨position + (1 + 1) + 1, ?_⟩
    rw [List.foldl_cons, step_between known (by simp), List.foldl_cons, step_inside least most, if_neg (by decide),
      List.foldl_cons, step_later (by omega), if_pos rfl, whole, read]
    rfl
  · have known := ofByte?_four (code / 262144 % 8) (by omega)
    have whole : ((code / 262144 % 8 * 64 + code / 4096 % 64) * 64 + code / 64 % 64) * 64 + code % 64 = code := by
      omega
    -- It is bounded here so that nothing shorter and nothing past the last scalar is spelled.
    have least : (if code / 262144 % 8 = 0 then 0x90 else 0x80 : UInt8).toNat ≤ code / 4096 % 64 + 128 := by
      split <;> simp only [UInt8.reduceToNat] <;> omega
    have most : code / 4096 % 64 + 128 ≤ (if code / 262144 % 8 = 4 then 0x8F else 0xBF : UInt8).toNat := by
      split <;> simp only [UInt8.reduceToNat] <;> omega
    refine ⟨position + (1 + 1 + 1) + 1, ?_⟩
    rw [List.foldl_cons, step_between known (by simp), List.foldl_cons, step_inside least most, if_neg (by decide),
      List.foldl_cons, step_later (by omega), if_neg (by decide), List.foldl_cons, step_later (by omega), if_pos rfl,
      whole, read]
    rfl

theorem foldl_flatMap_utf8EncodeChar (position : Nat) (chars text : List Char) :
    ∃ later, (text.flatMap String.utf8EncodeChar).foldl step (between position chars) =
      between later (text.reverse ++ chars) := by
  induction text generalizing position chars with
  | nil => exact ⟨position, rfl⟩
  | cons char rest ih =>
    obtain ⟨next, first⟩ := foldl_utf8EncodeChar position chars char
    obtain ⟨later, others⟩ := ih next (char :: chars)
    refine ⟨later, ?_⟩
    rw [List.flatMap_cons, List.foldl_append, first, others]
    simp

def readChars : Utf8State → List Char
  | .between _ chars | .inside _ _ _ _ chars | .failed _ chars => chars

theorem chars_finish (state : Utf8State) : state.finish.chars = state.readChars.reverse := by
  cases state <;> rfl

theorem readChars_suffix_step (state : Utf8State) (byte : UInt8) : state.readChars <:+ (state.step byte).readChars := by
  cases state with
  | between position chars =>
    unfold step
    dsimp only
    split
    · exact List.suffix_refl chars
    · split
      · exact List.suffix_cons _ chars
      · exact List.suffix_refl chars
  | inside start first seen lead chars =>
    unfold step
    dsimp only
    split
    · split
      · exact List.suffix_cons _ chars
      · exact List.suffix_refl chars
    · exact List.suffix_refl chars
  | failed fault chars => exact List.suffix_refl chars

/-- No later byte takes back what was read. -/
theorem readChars_suffix_foldl (state : Utf8State) (bytes : List UInt8) :
    state.readChars <:+ (bytes.foldl step state).readChars := by
  induction bytes generalizing state with
  | nil => exact List.suffix_refl _
  | cons byte rest ih => exact (readChars_suffix_step state byte).trans (ih (state.step byte))

end Utf8State

theorem decodeUtf8_append (char : Char) (bytes : List UInt8) :
    ∃ rest, (decodeUtf8 ⟨(String.utf8EncodeChar char ++ bytes).toArray⟩).chars = char :: rest := by
  have list : ByteArray.toList ⟨(String.utf8EncodeChar char ++ bytes).toArray⟩ =
      String.utf8EncodeChar char ++ bytes := by
    rw [ByteArray.toList, toList_loop]
    simp
  obtain ⟨later, first⟩ := Utf8State.foldl_utf8EncodeChar 0 [] char
  obtain ⟨front, chars⟩ := Utf8State.readChars_suffix_foldl (.between later [char]) bytes
  refine ⟨front.reverse, ?_⟩
  rw [decodeUtf8, list, List.foldl_append, first, Utf8State.chars_finish, ← chars]
  simp [Utf8State.readChars]

/-- Decoding takes back what was encoded. -/
theorem decodeUtf8_toUTF8 (text : List Char) : decodeUtf8 (String.ofList text).toUTF8 = ⟨text, none⟩ := by
  have bytes : (String.ofList text).toUTF8.toList = text.flatMap String.utf8EncodeChar := toList_toByteArray _
  obtain ⟨later, taken⟩ := Utf8State.foldl_flatMap_utf8EncodeChar 0 [] text
  rw [decodeUtf8, bytes, taken]
  simp [Utf8State.finish]

end ClearNames.Text
