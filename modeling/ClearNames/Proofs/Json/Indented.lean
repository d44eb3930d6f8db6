import ClearNames.Json.Printer
import ClearNames.Proofs.Json.Limits
import ClearNames.Proofs.Json.Reading
import ClearNames.Proofs.Text.Loose

/-! An indented JSON object of single values is read as it was written.

A single value is written on one line, in one piece: a truth value, a text, or
a short whole number. Behind a single value comes a comma or the end of the
line, neither of which can go on a number.
-/

set_option autoImplicit false

namespace ClearNames.Json
open LooseText (ofString)

variable {fuel : Nat} {text rest more : List Char} {value : Json}

/-! ## Whole numbers -/

/-- The text after a value on a line: a comma, or the end of the line. -/
inductive Ends : List Char → Prop where
  | comma (more : List Char) : Ends (',' :: more)
  | line (more : List Char) : Ends ('\n' :: more)

theorem isDigit_of_mem_toDigits {number : Nat} {char : Char} (member : char ∈ Nat.toDigits 10 number) :
    isDigit char = true := by
  have digit := Nat.isDigit_of_mem_toDigits (by decide) (by decide) member
  simpa [isDigit, Char.isDigit, Char.le_def] using digit

theorem ne_of_isDigit {char other : Char} (digit : isDigit char = true) (letter : isDigit other = false) :
    char ≠ other := by
  rintro rfl
  rw [digit] at letter
  cases letter

theorem isSpace_of_isDigit {char : Char} (digit : isDigit char = true) : isSpace char = false := by
  have other {space : Char} (letter : isDigit space = false) : (char == space) = false :=
    beq_eq_false_iff_ne.mpr (ne_of_isDigit digit letter)
  rw [isSpace, other rfl, other rfl, other rfl, other rfl]
  rfl

theorem digitsValue_toDigits (number : Nat) : digitsValue (Nat.toDigits 10 number) = number := by
  have value := Nat.ofDigitChars_ten_toDigits (n := number)
  rwa [Nat.ofDigitChars_eq_foldl] at value

theorem exists_toDigits {number : Nat} (positive : 0 < number) :
    ∃ first others, Nat.toDigits 10 number = first :: others ∧ first ≠ '0' := by
  induction number using Nat.strongRecOn with
  | _ number ih =>
    by_cases small : number < 10
    · have nonzero : ∀ digit < 10, 0 < digit → Nat.digitChar digit ≠ '0' := by decide
      exact ⟨Nat.digitChar number, [], Nat.toDigits_of_lt_base small, nonzero number small positive⟩
    · obtain ⟨first, others, digits, nonzero⟩ := ih (number / 10) (by omega) (by omega)
      refine ⟨first, others ++ [Nat.digitChar (number % 10)], ?_, nonzero⟩
      rw [Nat.toDigits_of_base_le (by decide) (by omega), digits, List.cons_append]

theorem takeWhole_toDigits (ends : Ends rest) (number : Nat) :
    takeWhole (Nat.toDigits 10 number ++ rest) = some (Nat.toDigits 10 number, rest) := by
  have stops : rest.takeWhile isDigit = [] ∧ rest.dropWhile isDigit = rest := by
    cases ends with
    | comma more => exact ⟨rfl, rfl⟩
    | line more => exact ⟨rfl, rfl⟩
  have passed : ∀ char ∈ Nat.toDigits 10 number, isDigit char = true := fun _ => isDigit_of_mem_toDigits
  rcases Nat.eq_zero_or_pos number with rfl | positive
  · rfl
  · obtain ⟨first, others, digits, nonzero⟩ := exists_toDigits positive
    have front : isDigit first = true := passed first (digits ▸ List.mem_cons_self)
    have taken : (first :: others ++ rest).takeWhile isDigit = first :: others := by
      rw [← digits, List.takeWhile_append_of_pos passed, stops.1, List.append_nil]
    have left : (first :: others ++ rest).dropWhile isDigit = rest := by
      rw [← digits, List.dropWhile_append_of_pos passed, stops.2]
    rw [digits, List.cons_append, takeWhole, if_pos front]
    · exact congrArg some (Prod.ext taken left)
    · exact nonzero

theorem readNumber_toDigits (ends : Ends rest) (negative : Bool) {number : Nat} (short : number < 10 ^ Text.digitLimit) :
    readNumber negative (Nat.toDigits 10 number ++ rest) =
      .ok (.int (if negative then -(number : Int) else number), rest) := by
  have few : ¬ Text.digitLimit < (Nat.toDigits 10 number).length :=
    Nat.not_lt.mpr ((Nat.length_toDigits_le_iff (by decide) (by decide)).mpr short)
  have unbroken : takeFraction rest = none ∧ takePower rest = none := by
    cases ends with
    | comma more => exact ⟨rfl, rfl⟩
    | line more => exact ⟨rfl, rfl⟩
  rw [readNumber, takeWhole_toDigits ends]
  dsimp only
  rw [unbroken.1, Option.elim_none, unbroken.2]
  dsimp only
  rw [if_neg few, digitsValue_toDigits]

/-- A number is no keyword: these begin with a letter, or with a letter after a sign. -/
theorem find?_keywords_of_digit {first : Char} (digit : isDigit first = true) (others : List Char) :
    (keywords.find? fun (word, _) => word.isPrefixOf (first :: others)) = none ∧
      (keywords.find? fun (word, _) => word.isPrefixOf ('-' :: first :: others)) = none := by
  have other {char : Char} (letter : isDigit char = false) : char ≠ first := (ne_of_isDigit digit letter).symm
  have letters : 'n' ≠ first ∧ 't' ≠ first ∧ 'f' ≠ first ∧ 'N' ≠ first ∧ 'I' ≠ first ∧ '-' ≠ first :=
    ⟨other rfl, other rfl, other rfl, other rfl, other rfl, other rfl⟩
  constructor <;> simp [keywords, letters]

theorem toList_toString (value : Int) :
    (toString value).toList = (if value < 0 then ['-'] else []) ++ Nat.toDigits 10 value.natAbs := by
  cases value with
  | ofNat number => simp [toString, Int.repr]
  | negSucc number => simp [toString, Int.repr]

theorem readScalar_int (ends : Ends rest) {value : Int} (short : Text.Short value) :
    readScalar ((toString value).toList ++ rest) = .ok (.int value, rest) := by
  obtain ⟨first, others, digits⟩ := List.exists_cons_of_ne_nil (Nat.toDigits_ne_nil (n := value.natAbs) (b := 10))
  have digit : isDigit first = true := isDigit_of_mem_toDigits (digits ▸ List.mem_cons_self)
  obtain ⟨plain, signed⟩ := find?_keywords_of_digit digit (others ++ rest)
  have read (negative : Bool) : readNumber negative (first :: (others ++ rest)) = _ :=
    digits ▸ readNumber_toDigits ends negative short
  rw [toList_toString, digits, List.append_assoc, List.cons_append]
  by_cases negative : value < 0
  · have back : -(value.natAbs : Int) = value := by omega
    rw [if_pos negative, List.singleton_append, readScalar, signed]
    dsimp only
    rw [read, if_pos rfl, back]
  · have back : (value.natAbs : Int) = value := by omega
    have unsigned : first ≠ '-' := ne_of_isDigit digit rfl
    rw [if_neg negative, List.nil_append, readScalar, plain]
    · dsimp only
      rw [read, if_neg Bool.false_ne_true, back]
    · exact fun _ same => unsigned (List.cons.inj same).1

theorem exists_toString (value : Int) :
    ∃ first others, (toString value).toList = first :: others ∧ (first = '-' ∨ isDigit first = true) := by
  obtain ⟨first, others, digits⟩ := List.exists_cons_of_ne_nil (Nat.toDigits_ne_nil (n := value.natAbs) (b := 10))
  have digit : isDigit first = true := isDigit_of_mem_toDigits (digits ▸ List.mem_cons_self)
  rw [toList_toString, digits]
  by_cases negative : value < 0
  · rw [if_pos negative]
    exact ⟨'-', first :: others, rfl, .inl rfl⟩
  · rw [if_neg negative]
    exact ⟨first, others, rfl, .inr digit⟩

/-! ## Single values -/

/-- Values that are written on one line and read back: truth values, texts, and short whole numbers. -/
inductive Single : Json → Prop where
  | bool (value : Bool) : Single (.bool value)
  | string (text : String) : Single (.string text)
  | int {value : Int} (short : Text.Short value) : Single (.int value)

def spelled : Json → List Char
  | .bool true => "true".toList
  | .bool false => "false".toList
  | .string text => stringChars false text
  | .int value => (toString value).toList
  | _ => []

theorem Single.exists_spelled (single : Single value) :
    ∃ first others, spelled value = first :: others ∧ isSpace first = false := by
  cases single with
  | bool value => cases value <;> exact ⟨_, _, rfl, by decide⟩
  | string text => exact ⟨'"', _, rfl, by decide⟩
  | @int value short =>
    obtain ⟨first, others, written, begins⟩ := exists_toString value
    refine ⟨first, others, written, ?_⟩
    rcases begins with rfl | digit
    · decide
    · exact isSpace_of_isDigit digit

theorem Single.skipSpace_spelled (single : Single value) :
    skipSpace (' ' :: (spelled value ++ rest)) = spelled value ++ rest := by
  obtain ⟨first, others, written, solid⟩ := single.exists_spelled
  rw [written]
  exact skipSpace_cons solid

theorem Single.readValue_spelled (single : Single value) (fuel : Nat) (ends : Ends rest) :
    readValue (fuel + 1) (spelled value ++ rest) = .ok (value, rest) := by
  cases single with
  | bool value => cases value <;> rfl
  | string text =>
    obtain ⟨body, begins, read⟩ := @readString_stringChars rest false text
    rw [spelled, begins, readValue, read]
    exact congrArg (fun value => Except.ok (value, rest)) (ofCodes_toNat text)
  | @int value short =>
    have read := readScalar_int ends short
    obtain ⟨first, others, written, begins⟩ := exists_toString value
    have plain : first ≠ '"' ∧ first ≠ '[' ∧ first ≠ '\x7b' := by
      rcases begins with rfl | digit
      · decide
      · exact ⟨ne_of_isDigit digit rfl, ne_of_isDigit digit rfl, ne_of_isDigit digit rfl⟩
    rw [spelled, written, List.cons_append, readValue]
    · rwa [written, List.cons_append] at read
    · exact fun _ same => plain.1 (List.cons.inj same).1
    · exact fun _ same => plain.2.1 (List.cons.inj same).1
    · exact fun _ same => plain.2.2 (List.cons.inj same).1

/-! ## Fields -/

/-- A single value under a name that is a text. -/
def SingleField (field : LooseText × Json) : Prop := (∃ name : String, field.1 = name) ∧ Single field.2

theorem looseString_ofString (text : String) : looseString text = String.ofList (stringChars false text) := by
  rw [looseString, LooseText.points_ofString, List.flatMap_map, LooseText.ofString, String.toList_ofList, stringChars]
  simp [List.map_flatMap]

def nameChars (name : LooseText) : List Char := (looseString name).points.filterMap CodePoint.char?

theorem nameChars_ofString (name : String) : nameChars (ofString name) = stringChars false name := by
  rw [nameChars, looseString_ofString, LooseText.points_ofString, String.toList_ofList, LooseText.filterMap_char?]

theorem skipSpace_stringChars (name : String) :
    skipSpace (stringChars false name ++ rest) = stringChars false name ++ rest := by
  rw [stringChars, List.cons_append, List.cons_append, skipSpace_cons (by decide)]

def spelledFields (width : Nat) : List (LooseText × Json) → List Char
  | [] => []
  | (name, value) :: rest =>
    ',' :: (breakLine width 1).toList ++ nameChars name ++ ':' :: ' ' :: spelled value ++ spelledFields width rest

theorem skipSpace_breakLine (width depth : Nat) (text : List Char) :
    skipSpace ((breakLine width depth).toList ++ text) = skipSpace text := by
  have spaces : ∀ char ∈ (breakLine width depth).toList, isSpace char = true := by
    rw [breakLine, String.toList_ofList, List.forall_mem_cons]
    refine ⟨rfl, fun char member => ?_⟩
    rw [List.eq_of_mem_replicate member]
    rfl
  exact List.dropWhile_append_of_pos spaces

section
variable {name : String} {done : List (LooseText × Json)} (single : Single value)
  (fresh : ofString name ∉ OrderedTable.keys done)
include single fresh

theorem readFields_spelled_next :
    readFields (fuel + 2) done (stringChars false name ++ ':' :: ' ' :: (spelled value ++ ',' :: rest)) =
      readFields (fuel + 1) (done ++ [(ofString name, value)]) (skipSpace rest) := by
  obtain ⟨body, begins, read⟩ := @readString_stringChars (':' :: ' ' :: (spelled value ++ ',' :: rest)) false name
  have back := single.readValue_spelled fuel (.comma rest)
  rw [← single.skipSpace_spelled] at back
  rw [begins, readFields_next read (skipSpace_cons (by decide)) back (skipSpace_cons (by decide)), LooseText.ofCodes_toNat,
    OrderedTable.put_of_find?_eq_none (OrderedTable.find?_eq_none_iff.mpr fresh)]

theorem readFields_spelled_last (width : Nat) :
    readFields (fuel + 2) done
        (stringChars false name ++ ':' :: ' ' :: (spelled value ++ ((breakLine width 0).toList ++ '\x7d' :: rest))) =
      .ok (.object (done ++ [(ofString name, value)]), rest) := by
  obtain ⟨body, begins, read⟩ := @readString_stringChars
    (':' :: ' ' :: (spelled value ++ ((breakLine width 0).toList ++ '\x7d' :: rest))) false name
  have line : Ends ((breakLine width 0).toList ++ '\x7d' :: rest) := by
    rw [breakLine, String.toList_ofList]
    exact .line _
  have back := single.readValue_spelled fuel line
  have ends : skipSpace ((breakLine width 0).toList ++ '\x7d' :: rest) = '\x7d' :: rest := by
    rw [skipSpace_breakLine, skipSpace_cons (by decide)]
  rw [← single.skipSpace_spelled] at back
  rw [begins, readFields_last read (skipSpace_cons (by decide)) back ends, LooseText.ofCodes_toNat,
    OrderedTable.put_of_find?_eq_none (OrderedTable.find?_eq_none_iff.mpr fresh)]

end

theorem readFields_spelled (width : Nat) {name : String} {value : Json} {fields done : List (LooseText × Json)}
    (single : Single value) (each : ∀ field ∈ fields, SingleField field)
    (distinct : (OrderedTable.keys (done ++ (ofString name, value) :: fields)).Nodup) (enough : fields.length + 2 ≤ fuel) :
    readFields fuel done (stringChars false name ++ ':' :: ' ' :: (spelled value ++
        (spelledFields width fields ++ ((breakLine width 0).toList ++ '\x7d' :: rest)))) =
      .ok (.object (done ++ (ofString name, value) :: fields), rest) := by
  obtain ⟨fuel, rfl⟩ : ∃ less, fuel = less + 2 := ⟨fuel - 2, by omega⟩
  have fresh := OrderedTable.not_mem_keys_of_nodup distinct
  -- On the fields behind the first one, which is done when they are read.
  induction fields generalizing name value done fuel with
  | nil => exact readFields_spelled_last single fresh width
  | cons second fields ih =>
    obtain ⟨less, rfl⟩ : ∃ less, fuel = less + 1 := ⟨fuel - 1, by rw [List.length_cons] at enough; omega⟩
    obtain ⟨key, next⟩ := second
    obtain ⟨⟨⟨other, rfl⟩, after⟩, others⟩ := List.forall_mem_cons.mp each
    have moved : done ++ (ofString name, value) :: (ofString other, next) :: fields =
        done ++ [(ofString name, value)] ++ (ofString other, next) :: fields := by simp
    have line : spelledFields width ((ofString other, next) :: fields) ++ ((breakLine width 0).toList ++ '\x7d' :: rest) =
        ',' :: ((breakLine width 1).toList ++ (stringChars false other ++ ':' :: ' ' ::
          (spelled next ++ (spelledFields width fields ++ ((breakLine width 0).toList ++ '\x7d' :: rest))))) := by
      simp [spelledFields, nameChars_ofString]
    rw [moved] at distinct ⊢
    rw [line, readFields_spelled_next single fresh, skipSpace_breakLine, skipSpace_stringChars]
    exact ih after others distinct less (by rw [List.length_cons] at enough; omega)
      (OrderedTable.not_mem_keys_of_nodup distinct)

theorem length_le_spelledFields (width : Nat) (fields : List (LooseText × Json)) :
    fields.length ≤ (spelledFields width fields).length := by
  induction fields with
  | nil => exact Nat.le_refl 0
  | cons field fields ih =>
    simp only [spelledFields, List.cons_append, List.length_cons, List.length_append]
    omega

/-! ## Objects -/

def spelledObject (width : Nat) : List (LooseText × Json) → List Char
  | [] => ['\x7b', '\x7d']
  | (name, value) :: fields =>
    '\x7b' :: ((breakLine width 1).toList ++ (nameChars name ++ ':' :: ' ' :: (spelled value ++
      (spelledFields width fields ++ ((breakLine width 0).toList ++ ['\x7d'])))))

/-- An object of single values under distinct names is read back from its text. -/
theorem read_spelledObject (width : Nat) {fields : List (LooseText × Json)} (each : ∀ field ∈ fields, SingleField field)
    (distinct : (OrderedTable.keys fields).Nodup) :
    read (spelledObject width fields) = .ok (.object fields) := by
  cases fields with
  | nil => rfl
  | cons first fields =>
    obtain ⟨key, value⟩ := first
    obtain ⟨⟨⟨name, rfl⟩, single⟩, others⟩ := List.forall_mem_cons.mp each
    -- Each field has characters of its own, so that the fuel for the text is enough for the fields.
    have enough : fields.length + 2 ≤ 2 * (spelledObject width ((ofString name, value) :: fields)).length + 1 := by
      have counted := length_le_spelledFields width fields
      simp only [spelledObject, List.length_cons, List.length_append]
      omega
    have solid := fun rest => (skipSpace_breakLine width 1 (stringChars false name ++ rest)).trans
      (skipSpace_stringChars name)
    rw [read]
    generalize 2 * (spelledObject width ((ofString name, value) :: fields)).length = bound at enough ⊢
    have back := @readFields_spelled (bound + 1) [] width name value fields [] single others distinct enough
    have whole := (readValue_fields (solid _) (by decide)).trans back
    rw [spelledObject, nameChars_ofString, skipSpace_cons (by decide), whole]
    rfl

end ClearNames.Json

namespace ClearNames

/-! ## Pieces -/

namespace Piece
variable {rest : List Piece}

theorem written_cons (text : String) (rest : List Piece) :
    written (.ok text :: rest) = (text ++ (written rest).1, (written rest).2) := by
  rw [written, LooseText.encoded_ofString]

theorem written_append {front : List Piece} {text : String} (whole : written front = (text, none)) :
    written (front ++ rest) = (text ++ (written rest).1, (written rest).2) := by
  induction front generalizing text with
  | nil =>
    cases whole
    simp
  | cons piece front ih =>
    cases piece with
    | error breakdown => cases whole
    | ok loose =>
      cases encoded : loose.encoded with
      | error fault => simp [written, encoded] at whole
      | ok first =>
        simp only [written, encoded, Prod.mk.injEq] at whole
        obtain ⟨rfl, ended⟩ := whole
        have later := ih (Prod.ext rfl ended)
        simp only [List.cons_append, written, encoded, later, String.append_assoc]

end Piece

namespace Json
variable {value : Json}

theorem Single.pieces_eq (single : Single value) (width depth : Nat) :
    value.pieces width depth = [.ok (String.ofList (spelled value))] := by
  cases single with
  | bool value => cases value <;> rfl
  | string text => rw [pieces, looseString_ofString, spelled]
  | @int value short =>
    have told : Piece.ofInt value = .ok (toString value) := by
      unfold Piece.ofInt
      rw [Text.decimal?_of_short short]
    rw [pieces, told, spelled, String.ofList_toList]

theorem written_fieldPieces (width : Nat) {fields : List (LooseText × Json)} (each : ∀ field ∈ fields, SingleField field) :
    Piece.written (fieldPieces width 1 fields) = (String.ofList (spelledFields width fields), none) := by
  induction fields with
  | nil => rfl
  | cons field fields ih =>
    obtain ⟨key, value⟩ := field
    obtain ⟨⟨⟨name, rfl⟩, single⟩, others⟩ := List.forall_mem_cons.mp each
    have start : (("," : LooseText) ++ (breakLine width 1 : LooseText)) = ("," ++ breakLine width 1 : String) :=
      (LooseText.ofString_append _ _).symm
    rw [fieldPieces, single.pieces_eq, looseString_ofString, start]
    simp only [List.cons_append, List.nil_append, Piece.written_cons, ih others]
    refine Prod.ext (String.toList_injective ?_) rfl
    simp [spelledFields, nameChars_ofString]

theorem written_pieces (width : Nat) {fields : List (LooseText × Json)} (each : ∀ field ∈ fields, SingleField field) :
    Piece.written ((Json.object fields).pieces width 0) = (String.ofList (spelledObject width fields), none) := by
  cases fields with
  | nil => rfl
  | cons field fields =>
    obtain ⟨key, value⟩ := field
    obtain ⟨⟨⟨name, rfl⟩, single⟩, others⟩ := List.forall_mem_cons.mp each
    rw [pieces, single.pieces_eq, looseString_ofString]
    simp only [List.cons_append, List.nil_append, Piece.written_cons,
      Piece.written_append (written_fieldPieces width others)]
    refine Prod.ext (String.toList_injective ?_) rfl
    simp [spelledObject, Piece.written, nameChars_ofString]

end Json

end ClearNames
