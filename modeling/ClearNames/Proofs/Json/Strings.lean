import ClearNames.Json.Printer
import ClearNames.Json.Reader
import ClearNames.Proofs.Text.Loose
import Mathlib.Algebra.Group.Nat.Defs
import Mathlib.Data.List.Basic

/-! A JSON string is read as the text it was written from.

A character is written as itself, after a backslash, or as the escapes of its
code units; a character above U+FFFF has two of them, and their surrogates are
joined again when they are read.
-/

set_option autoImplicit false

namespace ClearNames

namespace Text

theorem readHex?_append (digits : List Char) (last : Char) :
    readHex? (digits ++ [last]) = (readHex? digits).bind fun total => (hexValue? last).map (16 * total + ·) := by
  rw [readHex?, List.foldl_append, ← readHex?, List.foldl_cons, List.foldl_nil]
  cases readHex? digits with
  | none => rfl
  | some total => cases hexValue? last <;> rfl

theorem readHex?_fixedHex (width value : Nat) : readHex? (fixedHex width value) = some (value % 16 ^ width) := by
  induction width generalizing value with
  | zero => rw [Nat.pow_zero, Nat.mod_one]; rfl
  | succ width ih =>
    rw [fixedHex, readHex?_append, ih, hexValue?_hexDigit _ (Nat.mod_lt _ (by decide)), Option.bind_some,
      Option.map_some, Nat.pow_succ', Nat.mod_mul]
    congr 1
    omega

theorem toNat_hexDigit_lt : ∀ value < 16, (hexDigit value).toNat < 0x80 := by decide

theorem ascii_fixedHex (width value : Nat) : ∀ char ∈ fixedHex width value, char.toNat < 0x80 := by
  induction width generalizing value with
  | zero => exact List.forall_mem_nil _
  | succ width ih =>
    simp only [fixedHex, List.forall_mem_append, List.forall_mem_singleton]
    exact ⟨ih (value / 16), toNat_hexDigit_lt _ (Nat.mod_lt _ (by decide))⟩

end Text

namespace Json
variable {soFar : StringSoFar} {done : List Nat} {rest : List Char}

/-! ## One character -/

theorem readString_escapeUnit {unit : Nat} (small : unit < 0x10000) :
    readString soFar (escapeUnit unit ++ rest) = readString (soFar.addUnit unit) rest := by
  have number := Text.readHex?_fixedHex 4 unit
  rw [show 16 ^ 4 = 0x10000 from rfl, Nat.mod_eq_of_lt small] at number
  simp only [escapeUnit, Text.fixedHex, List.nil_append, List.cons_append] at number ⊢
  rw [readString, number]

theorem readString_simpleEscape {letter char : Char} (known : simpleEscape? letter = some char) :
    readString soFar ('\\' :: letter :: rest) = readString (soFar.addCode char.toNat) rest := by
  have plain : letter ≠ 'u' := by
    rintro rfl
    cases known
  rw [readString, known]
  · intro first second third fourth others same
    exact absurd same plain

theorem readString_plain {char : Char} (least : 0x20 ≤ char.toNat) (noQuote : char ≠ '"') (noEscape : char ≠ '\\') :
    readString soFar (char :: rest) = readString (soFar.addCode char.toNat) rest := by
  have allowed : ¬ (char.toNat < 0x20 ∨ char = '\\') := by
    rintro (low | escape)
    · omega
    · exact noEscape escape
  rw [readString, if_neg allowed]
  · exact noQuote
  · intro first second third fourth others same
    exact absurd same noEscape
  · intro letter others same
    exact absurd same noEscape

theorem readString_singleUnit {code : Nat} (single : code < 0xD800 ∨ 0xDFFF < code) (small : code < 0x10000) :
    readString ⟨done, none⟩ (escapeUnit code ++ rest) = readString ⟨code :: done, none⟩ rest := by
  have lone : ¬ isHighSurrogate code := by
    simp only [isHighSurrogate, Bool.and_eq_true, decide_eq_true_eq]
    omega
  rw [readString_escapeUnit small]
  simp only [StringSoFar.addUnit, if_neg lone]
  rfl

theorem readString_pair {high low : Nat} (first : 0xD800 ≤ high ∧ high < 0xDC00) (second : 0xDC00 ≤ low ∧ low < 0xE000) :
    readString ⟨done, none⟩ (escapeUnit high ++ escapeUnit low ++ rest) =
      readString ⟨ofSurrogates high low :: done, none⟩ rest := by
  have opens : isHighSurrogate high := by simpa [isHighSurrogate] using first
  have closes : isLowSurrogate low := by simpa [isLowSurrogate] using second
  rw [List.append_assoc, readString_escapeUnit (by omega), readString_escapeUnit (by omega)]
  simp only [StringSoFar.addUnit, if_pos opens, if_pos closes]

theorem readString_escapeChar (char : Char) :
    readString ⟨done, none⟩ (escapeChar char ++ rest) = readString ⟨char.toNat :: done, none⟩ rest := by
  have scalar : char.toNat < 0xD800 ∨ 0xDFFF < char.toNat ∧ char.toNat < 0x110000 := char.valid
  unfold escapeChar
  dsimp only
  generalize char.toNat = code at scalar ⊢
  split
  · exact readString_singleUnit (by omega) (by assumption)
  · have joined : ofSurrogates (0xD800 + (code - 0x10000) / 0x400) (0xDC00 + (code - 0x10000) % 0x400) = code := by
      unfold ofSurrogates
      omega
    rw [readString_pair (by omega) (by omega), joined]

theorem readString_stringChar (asciiOnly : Bool) (char : Char) :
    readString ⟨done, none⟩ (stringChar asciiOnly char ++ rest) = readString ⟨char.toNat :: done, none⟩ rest := by
  have named {letter : Char} (known : simpleEscape? letter = some char) :
      readString ⟨done, none⟩ (['\\', letter] ++ rest) = readString ⟨char.toNat :: done, none⟩ rest :=
    readString_simpleEscape known
  unfold stringChar
  split_ifs with quote escape line carriage tab back form control beyond
  · exact named (by rw [quote]; rfl)
  · exact named (by rw [escape]; rfl)
  · exact named (by rw [line]; rfl)
  · exact named (by rw [carriage]; rfl)
  · exact named (by rw [tab]; rfl)
  · exact named (by rw [back]; rfl)
  · exact named (by rw [form]; rfl)
  · exact readString_escapeChar char
  · exact readString_escapeChar char
  · exact readString_plain (Nat.le_of_not_lt control) quote escape

/-! ## A whole string -/

theorem readString_flatMap (asciiOnly : Bool) (text : List Char) :
    readString ⟨done, none⟩ (text.flatMap (stringChar asciiOnly) ++ '"' :: rest) =
      .ok (done.reverse ++ text.map Char.toNat, rest) := by
  induction text generalizing done with
  | nil => simp [readString, StringSoFar.codes]
  | cons char text ih =>
    rw [List.flatMap_cons, List.append_assoc, readString_stringChar, ih]
    simp

theorem isSurrogate_toNat (char : Char) : isSurrogate char.toNat = false := by
  have scalar : char.toNat < 0xD800 ∨ 0xDFFF < char.toNat ∧ char.toNat < 0x110000 := char.valid
  simp [isSurrogate]
  omega

theorem textOf_toNat (text : String) : textOf (text.toList.map Char.toNat) = text := by
  simp [textOf, Function.comp_def]

theorem ofCodes_toNat (text : String) : ofCodes (text.toList.map Char.toNat) = .string text := by
  have whole : (text.toList.map Char.toNat).any isSurrogate = false := by simp [isSurrogate_toNat]
  rw [ofCodes, whole, textOf_toNat]
  rfl

/-- What follows the opening quote of a written text is read as the codes of the text. -/
theorem readString_stringChars (asciiOnly : Bool) (text : String) :
    ∃ body, stringChars asciiOnly text ++ rest = '"' :: body ∧
      readString ⟨[], none⟩ body = .ok (text.toList.map Char.toNat, rest) := by
  refine ⟨text.toList.flatMap (stringChar asciiOnly) ++ '"' :: rest, ?_, readString_flatMap asciiOnly text.toList⟩
  simp [stringChars]

theorem looseChars_ofString (text : String) : looseChars (.ofString text) = stringChars true text := by
  simp [looseChars, stringChars, List.flatMap_map]

theorem readString_looseChars (name : String) :
    ∃ body, looseChars (.ofString name) ++ rest = '"' :: body ∧
      readString ⟨[], none⟩ body = .ok (name.toList.map Char.toNat, rest) := by
  rw [looseChars_ofString]
  exact readString_stringChars true name

/-! ## Characters below U+0080 -/

theorem ascii_escapeUnit (unit : Nat) : ∀ char ∈ escapeUnit unit, char.toNat < 0x80 := by
  simp only [escapeUnit, List.forall_mem_cons]
  exact ⟨by decide, by decide, Text.ascii_fixedHex 4 unit⟩

theorem ascii_escapeChar (source : Char) : ∀ char ∈ escapeChar source, char.toNat < 0x80 := by
  unfold escapeChar
  dsimp only
  split_ifs
  · exact ascii_escapeUnit _
  · exact List.forall_mem_append.mpr ⟨ascii_escapeUnit _, ascii_escapeUnit _⟩

theorem ascii_stringChar (source : Char) : ∀ char ∈ stringChar true source, char.toNat < 0x80 := by
  unfold stringChar
  split_ifs with quote escape line carriage tab back form control beyond
  iterate 7 exact List.forall_mem_cons.mpr ⟨by decide, List.forall_mem_singleton.mpr (by decide)⟩
  · exact ascii_escapeChar source
  · exact ascii_escapeChar source
  · have below : source.toNat < 0x7F := by simpa using beyond
    exact List.forall_mem_singleton.mpr (by omega)

theorem ascii_stringChars (text : String) : ∀ char ∈ stringChars true text, char.toNat < 0x80 := by
  simp only [stringChars, List.forall_mem_append, List.forall_mem_cons, List.forall_mem_flatMap]
  exact ⟨⟨by decide, fun source known => ascii_stringChar source⟩, by decide, List.forall_mem_nil _⟩

theorem ascii_looseChars (text : LooseText) : ∀ char ∈ looseChars text, char.toNat < 0x80 := by
  simp only [looseChars, List.forall_mem_append, List.forall_mem_cons, List.forall_mem_flatMap]
  refine ⟨⟨by decide, fun point known => ?_⟩, by decide, List.forall_mem_nil _⟩
  cases point with
  | char source => exact ascii_stringChar source
  | lone offset => exact ascii_escapeUnit _

end Json

end ClearNames
