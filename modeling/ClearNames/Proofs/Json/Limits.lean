import ClearNames.Json.Reader
import ClearNames.Text.Digits
import Mathlib.Algebra.Group.Nat.Defs

/-! Numbers that are read are short.

A whole number has no more digits than a number may have, whether it is read
from a text of its own or anywhere in a document.
-/

set_option autoImplicit false

namespace ClearNames

theorem bind_eq_ok {ε α β : Type} {first : Except ε α} {next : α → Except ε β} {result : β} :
    first >>= next = .ok result ↔ ∃ value, first = .ok value ∧ next value = .ok result := by
  constructor
  · intro same
    cases first with
    | error fault => cases same
    | ok value => exact ⟨value, rfl, same⟩
  · rintro ⟨value, rfl, same⟩
    exact same

namespace Text
variable {value : Nat} {digits : List Nat} {text : List Char}

/-- A whole number of no more digits than a number may have. -/
def Short (number : Int) : Prop := number.natAbs < 10 ^ digitLimit

theorem short_of_lt_pow {number : Int} {count : Nat} (small : number.natAbs < 10 ^ count) (few : count ≤ digitLimit) :
    Short number :=
  Nat.lt_of_lt_of_le small (Nat.pow_le_pow_right (by decide) few)

theorem Short.neg {number : Int} (short : Short number) : Short (-number) := by
  rwa [Short, Int.natAbs_neg]

theorem decimal?_of_short {number : Int} (short : Short number) : decimal? number = some (toString number) := by
  rw [Short, ← Nat.pow_eq] at short
  rw [decimal?, if_pos short]

theorem decimal?_of_not_short {number : Int} (long : ¬ Short number) : decimal? number = none := by
  rw [Short, ← Nat.pow_eq] at long
  rw [decimal?, if_neg long]

theorem foldl_digits_lt (small : ∀ digit ∈ digits, digit < 10) (total : Nat) :
    digits.foldl (10 * · + ·) total < (total + 1) * 10 ^ digits.length := by
  induction digits generalizing total with
  | nil => simp
  | cons digit rest ih =>
    obtain ⟨first, others⟩ := List.forall_mem_cons.mp small
    have room : 10 * total + digit + 1 ≤ 10 * (total + 1) := by omega
    calc rest.foldl (10 * · + ·) (10 * total + digit)
      _ < (10 * total + digit + 1) * 10 ^ rest.length := ih others _
      _ ≤ 10 * (total + 1) * 10 ^ rest.length := Nat.mul_le_mul_right _ room
      _ = (total + 1) * 10 ^ (digit :: rest).length := by
        rw [List.length_cons, Nat.pow_succ', Nat.mul_left_comm, Nat.mul_assoc]

theorem ofDigits_lt (small : ∀ digit ∈ digits, digit < 10) : ofDigits digits < 10 ^ digits.length := by
  have bound := foldl_digits_lt small 0
  rwa [Nat.zero_add, Nat.one_mul] at bound

theorem digitValue?_lt {char : Char} (read : digitValue? char = some value) : value < 10 := by
  obtain ⟨start, found, rfl⟩ := Option.map_eq_some_iff.mp read
  have inside := List.find?_some found
  simp only [Bool.and_eq_true, decide_eq_true_eq] at inside
  omega

theorem digitValues?_lt (read : digitValues? text = some digits) : ∀ digit ∈ digits, digit < 10 := by
  induction text using digitValues?.induct generalizing digits with
  | case1 => cases read
  | case2 last =>
    obtain ⟨value, known, rfl⟩ := Option.map_eq_some_iff.mp read
    simpa using digitValue?_lt known
  | case3 first rest ih | case4 first rest _ _ ih =>
    rw [digitValues?] at read
    obtain ⟨value, known, more⟩ := Option.bind_eq_some_iff.mp read
    obtain ⟨others, values, whole⟩ := Option.bind_eq_some_iff.mp more
    cases whole
    exact List.forall_mem_cons.mpr ⟨digitValue?_lt known, ih values⟩
    all_goals assumption

theorem short_ofDigits (small : ∀ digit ∈ digits, digit < 10) (few : digits.length ≤ digitLimit) :
    Short (ofDigits digits) :=
  short_of_lt_pow (ofDigits_lt small) few

theorem short_readMagnitude? (read : readMagnitude? text = some value) : Short value := by
  obtain ⟨digits, values, limited⟩ := Option.bind_eq_some_iff.mp read
  split at limited
  · next few =>
    cases limited
    exact short_ofDigits (digitValues?_lt values) few
  · cases limited

theorem short_readInteger? {text : String} {number : Int} (read : readInteger? text = some number) : Short number := by
  unfold readInteger? at read
  split at read <;> obtain ⟨magnitude, known, rfl⟩ := Option.map_eq_some_iff.mp read
  · obtain ⟨natural, found, same⟩ := Option.bind_eq_some_iff.mp known
    cases same
    exact (short_readMagnitude? found).neg
  · exact short_readMagnitude? known
  · exact short_readMagnitude? known

end Text

namespace Json
open Text (Short)
variable {text rest : List Char} {value : Json}

/-- A value of which every whole number is short. -/
inductive Brief : Json → Prop where
  | null : Brief .null
  | bool (flag : Bool) : Brief (.bool flag)
  | int {number : Int} (short : Short number) : Brief (.int number)
  | float (number : Binary64) : Brief (.float number)
  | string (text : String) : Brief (.string text)
  | codes (list : List Nat) : Brief (.codes list)
  | array {items : List Json} (each : ∀ item ∈ items, Brief item) : Brief (.array items)
  | object {fields : List (LooseText × Json)} (each : ∀ field ∈ fields, Brief field.2) : Brief (.object fields)

theorem digitsValue_eq (digits : List Char) : digitsValue digits = Text.ofDigits (digits.map (·.toNat - 0x30)) :=
  List.foldl_map.symm

theorem isDigit_takeWhole {digits : List Char} (taken : takeWhole text = some (digits, rest)) :
    ∀ digit ∈ digits, isDigit digit = true := by
  unfold takeWhole at taken
  split at taken
  · cases taken
    simp [isDigit]
  · split at taken
    · cases taken
      exact List.all_eq_true.mp (List.all_takeWhile)
    · cases taken
  · cases taken

theorem short_digitsValue {digits : List Char} (passed : ∀ digit ∈ digits, isDigit digit = true)
    (few : ¬ Text.digitLimit < digits.length) : Short (digitsValue digits) := by
  rw [digitsValue_eq]
  refine Text.short_ofDigits (fun value member => ?_) (by rwa [List.length_map, ← Nat.not_lt])
  obtain ⟨digit, known, rfl⟩ := List.mem_map.mp member
  have high : digit.toNat ≤ 0x39 := by
    have digits := passed digit known
    simp only [isDigit, Bool.and_eq_true, decide_eq_true_eq] at digits
    exact digits.2
  omega

theorem brief_readNumber {negative : Bool} (read : readNumber negative text = .ok (value, rest)) : value.Brief := by
  unfold readNumber at read
  split at read
  · cases read
  · next whole rest taken =>
    split at read
    · split at read
      · cases read
      · next few =>
        have short := short_digitsValue (isDigit_takeWhole taken) few
        cases read
        refine .int ?_
        split
        · exact short.neg
        · exact short
    · cases read
      exact .float _

theorem brief_readScalar (read : readScalar text = .ok (value, rest)) : value.Brief := by
  unfold readScalar at read
  split at read
  · next word constant found =>
    have words : ∀ entry ∈ keywords, entry.2.Brief := by
      simp [keywords, Brief.null, Brief.bool, Brief.float]
    cases read
    exact words _ (List.mem_of_find?_eq_some found)
  · split at read <;> exact brief_readNumber read

theorem brief_ofCodes (list : List Nat) : (ofCodes list).Brief := by
  unfold ofCodes
  split
  · exact .codes list
  · exact .string _

theorem brief_put {done : OrderedTable LooseText Json} (brief : ∀ field ∈ done, field.2.Brief) (added : value.Brief)
    (name : LooseText) : ∀ field ∈ OrderedTable.put name value done, field.2.Brief := by
  rintro ⟨key, held⟩ entry
  rcases OrderedTable.mem_of_mem_put entry with ⟨rfl, rfl⟩ | old
  · exact added
  · exact brief _ old

-- By the fuel, of which one who calls another hands on less.
mutual

theorem brief_readValue : ∀ {fuel : Nat} {text rest : List Char} {value : Json},
    readValue fuel text = .ok (value, rest) → value.Brief
  | 0, _, _, _, read => by cases read
  | fuel + 1, text, rest, value, read => by
    unfold readValue at read
    split at read
    · cases read
    · obtain ⟨⟨list, back⟩, _, same⟩ := bind_eq_ok.mp read
      cases same
      exact brief_ofCodes list
    · split at read
      · cases read
        exact .array (by simp)
      · exact brief_readItems (by simp) read
    · split at read
      · cases read
        exact .object (by simp)
      · exact brief_readFields (by simp) read
    · exact brief_readScalar read

theorem brief_readItems : ∀ {fuel : Nat} {done : List Json} {text rest : List Char} {value : Json},
    (∀ item ∈ done, item.Brief) → readItems fuel done text = .ok (value, rest) → value.Brief
  | 0, _, _, _, _, _, read => by cases read
  | fuel + 1, done, text, rest, value, brief, read => by
    rw [readItems] at read
    obtain ⟨⟨item, back⟩, taken, read⟩ := bind_eq_ok.mp read
    have added : ∀ other ∈ item :: done, other.Brief := List.forall_mem_cons.mpr ⟨brief_readValue taken, brief⟩
    dsimp only at read
    split at read
    · exact brief_readItems added read
    · cases read
      exact .array fun item member => added item (List.mem_reverse.mp member)
    · cases read

theorem brief_readFields : ∀ {fuel : Nat} {done : OrderedTable LooseText Json} {text rest : List Char} {value : Json},
    (∀ field ∈ done, field.2.Brief) → readFields fuel done text = .ok (value, rest) → value.Brief
  | 0, _, _, _, _, _, read => by cases read
  | fuel + 1, done, text, rest, value, brief, read => by
    unfold readFields at read
    split at read
    · cases read
    · obtain ⟨⟨list, after⟩, _, read⟩ := bind_eq_ok.mp read
      dsimp only at read
      split at read
      · obtain ⟨⟨item, back⟩, taken, read⟩ := bind_eq_ok.mp read
        have entered := brief_put brief (brief_readValue taken) (.ofCodes list)
        dsimp only at read
        split at read
        · exact brief_readFields entered read
        · cases read
          exact .object entered
        · cases read
      · cases read
    · cases read

end

/-- Every whole number in a value that is read is short. -/
theorem brief_read (taken : read text = .ok value) : value.Brief := by
  obtain ⟨⟨value, back⟩, front, whole⟩ := bind_eq_ok.mp taken
  dsimp only at whole
  split at whole
  · cases whole
    exact brief_readValue front
  · cases whole

end Json

end ClearNames
