import ClearNames.Signature

/-! Reading signatures back.

The parts of a signature are delimited by characters that do not belong to
them, so that a reading of the whole takes each part as it was written.
-/

set_option autoImplicit false

namespace ClearNames

/-! ## Character classes -/

theorem isReturnTypeChar_of_isMethodNameChar {char : Char} (plain : isMethodNameChar char) : isReturnTypeChar char := by
  simp [isReturnTypeChar, plain]

theorem isArgumentListChar_of_isReturnTypeChar {char : Char} (plain : isReturnTypeChar char) :
    isArgumentListChar char := by
  simp [isArgumentListChar, plain]

theorem ne_of_isReturnTypeChar {char mark : Char} (plain : isReturnTypeChar char)
    (foreign : isReturnTypeChar mark = false) : char ≠ mark := by
  rintro rfl
  rw [plain] at foreign
  cases foreign

theorem not_isBlank_of_isReturnTypeChar {char : Char} (plain : isReturnTypeChar char) : Text.isBlank char = false := by
  have order (left right : Char) : left ≤ right ↔ left.toNat ≤ right.toNat := UInt32.le_iff_toNat_le
  have inRange (low : 48 ≤ char.toNat) (high : char.toNat ≤ 122) : Text.isBlank char = false := by
    rw [← Bool.not_eq_true]
    simp only [Text.isBlank, Bool.or_eq_true, Bool.and_eq_true, decide_eq_true_eq, beq_iff_eq]
    omega
  simp only [isReturnTypeChar, isMethodNameChar, isSignatureLetter, isAsciiDigit, Bool.or_eq_true, Bool.and_eq_true,
    decide_eq_true_eq, beq_iff_eq, order] at plain
  rcases plain with ((((((((((lower | upper) | rfl) | rfl) | rfl) | rfl) | digit) | rfl) | rfl) | rfl) | rfl) | rfl
  · exact inRange (Nat.le_trans (by decide) lower.1) lower.2
  · exact inRange (Nat.le_trans (by decide) upper.1) (Nat.le_trans upper.2 (by decide))
  · rfl
  · rfl
  · rfl
  · rfl
  · exact inRange digit.1 (Nat.le_trans digit.2 (by decide))
  · rfl
  · rfl
  · rfl
  · rfl
  · rfl

namespace Signature

/-- The text of a signature, with a blank after each comma. -/
def print (signature : Signature) : String :=
  signature.returns ++ " " ++ signature.name ++ "(" ++ ", ".intercalate signature.arguments ++ ")"

/-- A type as signatures allow it: not empty, and of the characters of types. -/
def IsType (text : String) : Prop := text.toList ≠ [] ∧ ∀ char ∈ text.toList, isReturnTypeChar char

theorem isType_iff (text : String) : IsType text ↔ text.toList ≠ [] ∧ text.toList.all isReturnTypeChar := by
  rw [IsType, List.all_eq_true]

instance (text : String) : Decidable (IsType text) := decidable_of_iff' _ (isType_iff text)

def IsName (text : String) : Prop := text.toList ≠ [] ∧ ∀ char ∈ text.toList, isMethodNameChar char

section
variable {returns name : List Char}

theorem parse?_ofList (returnsSome : returns ≠ []) (returnsPlain : ∀ char ∈ returns, isReturnTypeChar char)
    (nameSome : name ≠ []) (namePlain : ∀ char ∈ name, isMethodNameChar char) (rest : List Char) :
    parse? (String.ofList (returns ++ ' ' :: (name ++ '(' :: rest))) =
      (Text.after? [')'] (rest.dropWhile isArgumentListChar)).map fun _ =>
        ⟨String.ofList returns, String.ofList name,
          (argumentDescriptors (rest.takeWhile isArgumentListChar)).map String.ofList⟩ := by
  have blank : isReturnTypeChar ' ' = false := by decide
  have paren : isMethodNameChar '(' = false := by decide
  have takeReturns : (returns ++ ' ' :: (name ++ '(' :: rest)).takeWhile isReturnTypeChar = returns := by
    rw [List.takeWhile_append_of_pos returnsPlain, List.takeWhile_cons, blank]
    simp
  have dropReturns : (returns ++ ' ' :: (name ++ '(' :: rest)).dropWhile isReturnTypeChar =
      ' ' :: (name ++ '(' :: rest) := by
    rw [List.dropWhile_append_of_pos returnsPlain, List.dropWhile_cons, blank]
    simp
  have takeName : (name ++ '(' :: rest).takeWhile isMethodNameChar = name := by
    rw [List.takeWhile_append_of_pos namePlain, List.takeWhile_cons, paren]
    simp
  have dropName : (name ++ '(' :: rest).dropWhile isMethodNameChar = '(' :: rest := by
    rw [List.dropWhile_append_of_pos namePlain, List.dropWhile_cons, paren]
    simp
  unfold parse?
  simp only [String.toList_ofList, takeReturns, dropReturns, Text.after?, takeName, dropName, if_true,
    Option.bind_eq_bind, Option.bind_some]
  cases Text.after? [')'] (rest.dropWhile isArgumentListChar) with
  | none => rfl
  | some _ => simp [returnsSome, nameSome]

end

/-! ## Argument lists -/

theorem joinWith_cons_char (mark char : Char) (piece : List Char) (rest : List (List Char)) :
    Text.joinWith mark ((char :: piece) :: rest) = char :: Text.joinWith mark (piece :: rest) := by
  cases rest <;> rfl

/-- Arguments with a comma and a blank between them are pieces between commas, of which the later
ones begin with the blank. -/
theorem intercalate_eq_joinWith (first : List Char) (rest : List (List Char)) :
    [',', ' '].intercalate (first :: rest) = Text.joinWith ',' (first :: rest.map (' ' :: ·)) := by
  induction rest generalizing first with
  | nil => simp [Text.joinWith]
  | cons next others ih =>
    rw [List.map_cons, Text.joinWith_cons (by simp), List.intercalate_cons_cons, ih, joinWith_cons_char]
    simp

theorem IsType.trimStart_cons {argument : String} (type : IsType argument) :
    Text.trimStart (' ' :: argument.toList) = argument.toList := by
  obtain ⟨nonempty, plain⟩ := type
  have skip : Text.trimStart (' ' :: argument.toList) = Text.trimStart argument.toList := by
    have blank : Text.isBlank ' ' = true := by decide
    simp only [Text.trimStart, List.dropWhile_cons, blank, if_true]
  rw [skip]
  cases chars : argument.toList with
  | nil => exact absurd chars nonempty
  | cons first rest =>
    rw [chars] at plain
    have solid := not_isBlank_of_isReturnTypeChar (plain first List.mem_cons_self)
    simp [Text.trimStart, solid]

theorem toList_intercalate_arguments (first : String) (rest : List String) :
    (", ".intercalate (first :: rest)).toList =
      Text.joinWith ',' (first.toList :: (rest.map String.toList).map (' ' :: ·)) := by
  have comma : ", ".toList = [',', ' '] := rfl
  rw [String.toList_intercalate, comma, List.map_cons, intercalate_eq_joinWith]

theorem argumentDescriptors_joinWith {first : List Char} {rest : List (List Char)} (solid : first ≠ [])
    (free : ∀ piece ∈ first :: rest, ',' ∉ piece) :
    argumentDescriptors (Text.joinWith ',' (first :: rest)) = first :: rest.map Text.trimStart := by
  have split := Text.splitAt_joinWith (List.cons_ne_nil first rest) free
  cases list : Text.joinWith ',' (first :: rest) with
  | nil =>
    rw [list] at split
    exact absurd (List.cons.inj split).1.symm solid
  | cons char others =>
    rw [list] at split
    simp only [argumentDescriptors, argumentPieces, split]

theorem argumentDescriptors_intercalate {arguments : List String} (types : ∀ argument ∈ arguments, IsType argument) :
    argumentDescriptors (", ".intercalate arguments).toList = arguments.map String.toList := by
  cases arguments with
  | nil => rfl
  | cons first rest =>
    have firstType := types first List.mem_cons_self
    have restTypes := fun argument member => types argument (List.mem_cons_of_mem first member)
    have foreign : isReturnTypeChar ',' = false := by decide
    have free : ∀ piece ∈ first.toList :: (rest.map String.toList).map (' ' :: ·), ',' ∉ piece := by
      intro piece member comma
      rcases List.mem_cons.mp member with rfl | later
      · exact ne_of_isReturnTypeChar (firstType.2 _ comma) foreign rfl
      · obtain ⟨_, inside, rfl⟩ := List.mem_map.mp later
        obtain ⟨argument, given, rfl⟩ := List.mem_map.mp inside
        rcases List.mem_cons.mp comma with blank | comma
        · cases blank
        · exact ne_of_isReturnTypeChar ((restTypes argument given).2 _ comma) foreign rfl
    rw [toList_intercalate_arguments, argumentDescriptors_joinWith firstType.1 free]
    simp only [List.map_cons, List.map_map, List.cons.injEq, true_and]
    exact List.map_congr_left fun argument member => (restTypes argument member).trimStart_cons

theorem isArgumentListChar_of_mem_intercalate {arguments : List String}
    (types : ∀ argument ∈ arguments, IsType argument) {char : Char}
    (member : char ∈ (", ".intercalate arguments).toList) : isArgumentListChar char := by
  cases arguments with
  | nil => exact absurd member List.not_mem_nil
  | cons first rest =>
    rw [toList_intercalate_arguments] at member
    have plain (argument : String) (given : argument ∈ first :: rest) (inside : char ∈ argument.toList) :
        isArgumentListChar char := isArgumentListChar_of_isReturnTypeChar ((types argument given).2 char inside)
    rcases Text.mem_joinWith member with rfl | ⟨piece, known, inside⟩
    · rfl
    · rcases List.mem_cons.mp known with rfl | later
      · exact plain first List.mem_cons_self inside
      · obtain ⟨_, chars, rfl⟩ := List.mem_map.mp later
        obtain ⟨argument, given, rfl⟩ := List.mem_map.mp chars
        rcases List.mem_cons.mp inside with rfl | inside
        · rfl
        · exact plain argument (List.mem_cons_of_mem first given) inside

/-- A printed signature is read back as it is. -/
theorem parse?_print {signature : Signature} (returns : IsType signature.returns) (name : IsName signature.name)
    (arguments : ∀ argument ∈ signature.arguments, IsType argument) : parse? signature.print = some signature := by
  let list := (", ".intercalate signature.arguments).toList
  have spelled : signature.print =
      String.ofList (signature.returns.toList ++ ' ' :: (signature.name.toList ++ '(' :: (list ++ [')']))) := by
    apply String.toList_injective
    simp [print, list]
  have listed : ∀ char ∈ list, isArgumentListChar char := fun _ => isArgumentListChar_of_mem_intercalate arguments
  have foreign : isArgumentListChar ')' = false := by decide
  have take : (list ++ [')']).takeWhile isArgumentListChar = list := by
    rw [List.takeWhile_append_of_pos listed, List.takeWhile_cons, foreign]
    simp
  have drop : (list ++ [')']).dropWhile isArgumentListChar = [')'] := by
    rw [List.dropWhile_append_of_pos listed, List.dropWhile_cons, foreign]
    simp
  rw [spelled, parse?_ofList returns.1 returns.2 name.1 name.2, take, drop,
    argumentDescriptors_intercalate arguments]
  simp [Text.after?, Function.comp_def]

end Signature

end ClearNames
