import ClearNames.Mapping.Line
import ClearNames.NameTree.Growth
import ClearNames.Proofs.Signature

/-! The tokens of a mapping, as names and as signatures read them.

Only the last segment of a class path may begin otherwise than in lower case, a
type name is a class path and array suffixes, and the pieces of an argument
list are type names once the blanks before them are gone.
-/

set_option autoImplicit false

namespace ClearNames

namespace MappingLine

/-! ## Characters -/

theorem isMethodNameChar_of_isIdentifierChar {char : Char} (plain : isIdentifierChar char) : isMethodNameChar char := by
  simp only [isIdentifierChar, isLower, Bool.or_eq_true, beq_iff_eq] at plain
  simp only [isMethodNameChar, isSignatureLetter, isAsciiDigit, Bool.or_eq_true, beq_iff_eq]
  rcases plain with (((lower | upper) | digit) | rfl) | rfl
  · simp [lower]
  · simp [upper]
  · simp [digit]
  · simp
  · simp

theorem isReturnTypeChar_of_isIdentifierChar {char : Char} (plain : isIdentifierChar char) : isReturnTypeChar char :=
  isReturnTypeChar_of_isMethodNameChar (isMethodNameChar_of_isIdentifierChar plain)

theorem isIdentifier_of_isPackageSegment {text : List Char} (segment : isPackageSegment text) : isIdentifier text := by
  cases text with
  | nil => cases segment
  | cons first rest =>
    simp only [isPackageSegment, Bool.and_eq_true, List.all_eq_true] at segment
    simp only [isIdentifier, List.isEmpty_cons, Bool.not_false, Bool.true_and, List.all_eq_true]
    intro char member
    rcases List.mem_cons.mp member with rfl | later
    · simp [isIdentifierChar, segment.1]
    · have allowed := segment.2 char later
      simp only [Bool.or_eq_true] at allowed
      simp only [isIdentifierChar, Bool.or_eq_true]
      rcases allowed with (lower | digit) | score
      · exact Or.inl (Or.inl (Or.inl (Or.inl lower)))
      · exact Or.inl (Or.inl (Or.inr digit))
      · exact Or.inl (Or.inr score)

theorem isIdentifier_iff {text : List Char} :
    isIdentifier text ↔ text ≠ [] ∧ ∀ char ∈ text, isIdentifierChar char := by
  simp [isIdentifier, List.all_eq_true]

theorem not_mem_of_isIdentifier {text : List Char} {mark : Char} (identifier : isIdentifier text)
    (foreign : isIdentifierChar mark = false) : mark ∉ text := by
  intro member
  rw [(isIdentifier_iff.mp identifier).2 mark member] at foreign
  cases foreign

/-! ## Paths -/

/-- Full names that class paths have: identifiers, of which all but the last are package segments. -/
def IsPath (path : List String) : Prop :=
  (∀ segment ∈ path, isIdentifier segment.toList) ∧ ∀ segment ∈ path.dropLast, isPackageSegment segment.toList

theorem IsPath.front {path part : List String} (isPath : IsPath path) (within : part <+: path) : IsPath part := by
  obtain ⟨rest, rfl⟩ := within
  refine ⟨fun segment member => isPath.1 segment (List.mem_append_left rest member), fun segment member => ?_⟩
  cases rest with
  | nil => exact isPath.2 segment (by simpa using member)
  | cons next others =>
    have inside : segment ∈ part := List.dropLast_subset part member
    refine isPath.2 segment ?_
    rw [List.dropLast_append_of_ne_nil (List.cons_ne_nil next others)]
    exact List.mem_append_left _ inside

theorem isPath_of_isClassPath {name : String} (classPath : isClassPath name.toList) :
    IsPath (NameTree.segments name) := by
  unfold isClassPath at classPath
  cases reversed : (Text.splitAt '.' name.toList).reverse with
  | nil =>
    rw [reversed] at classPath
    cases classPath
  | cons last packages =>
    simp only [reversed, Bool.and_eq_true, List.all_eq_true] at classPath
    obtain ⟨lastIdentifier, packageSegments⟩ := classPath
    have pieces : NameTree.segments name = packages.reverse.map String.ofList ++ [String.ofList last] := by
      have split := congrArg List.reverse reversed
      rw [List.reverse_reverse, List.reverse_cons] at split
      simp [NameTree.segments, Text.pieces, split]
    have isSegment {segment : String} (member : segment ∈ packages.reverse.map String.ofList) :
        isPackageSegment segment.toList := by
      obtain ⟨piece, inside, rfl⟩ := List.mem_map.mp member
      rw [String.toList_ofList]
      exact packageSegments piece (List.mem_reverse.mp inside)
    rw [pieces]
    refine ⟨fun segment member => ?_, fun segment member => isSegment (by simpa using member)⟩
    rcases List.mem_append.mp member with inside | final
    · exact isIdentifier_of_isPackageSegment (isSegment inside)
    · rw [List.mem_singleton.mp final, String.toList_ofList]
      exact lastIdentifier

theorem isClassPath_of_isPath {name : String} (isPath : IsPath (NameTree.segments name)) : isClassPath name.toList := by
  have pieces : Text.splitAt '.' name.toList = (NameTree.segments name).map String.toList := by
    simp [NameTree.segments, Text.pieces, Function.comp_def]
  have reversed : (Text.splitAt '.' name.toList).reverse =
      (NameTree.lastSegment name).toList :: ((NameTree.segments name).dropLast.map String.toList).reverse := by
    calc (Text.splitAt '.' name.toList).reverse
        = (((NameTree.segments name).dropLast ++ [NameTree.lastSegment name]).map String.toList).reverse := by
          rw [pieces, NameTree.dropLast_append_lastSegment]
      _ = (NameTree.lastSegment name).toList :: ((NameTree.segments name).dropLast.map String.toList).reverse := by simp
  unfold isClassPath
  simp only [reversed, Bool.and_eq_true, List.all_eq_true]
  refine ⟨isPath.1 _ (NameTree.lastSegment_mem name), fun piece member => ?_⟩
  obtain ⟨segment, inside, rfl⟩ := List.mem_map.mp (List.mem_reverse.mp member)
  exact isPath.2 segment inside

theorem IsPath.identifier {path : List String} {segment : String} (isPath : IsPath (path ++ [segment])) :
    isIdentifier segment.toList := isPath.1 segment (by simp)

theorem kind_of_isPackageSegment {segment : String} (isSegment : isPackageSegment segment.toList) :
    SegmentKind.of segment = .package := by
  unfold SegmentKind.of
  cases chars : segment.toList with
  | nil => rfl
  | cons first rest =>
    rw [chars] at isSegment
    simp only [isPackageSegment, isLower, Bool.and_eq_true, decide_eq_true_eq] at isSegment
    -- Lower-case letters come after all capitals.
    have small : ¬ (first ≤ 'Z') := fun big => absurd (Char.le_trans isSegment.1.1 big) (by decide)
    simp [small]

/-! ## Type names -/

theorem stripArrays_of_isArraySuffix {suffix : List Char} (isSuffix : isArraySuffix suffix) :
    (stripArrays suffix).1 = [] := by
  induction suffix using isArraySuffix.induct with
  | case1 => rfl
  | case2 rest ih =>
    rw [isArraySuffix] at isSuffix
    simp only [stripArrays]
    exact ih isSuffix
  | case3 text nonempty other =>
    rw [isArraySuffix.eq_3 text nonempty other] at isSuffix
    cases isSuffix

theorem stripArrays_cons {char : Char} (other : char ≠ '[') (rest : List Char) :
    stripArrays (char :: rest) = (char :: (stripArrays rest).1, (stripArrays rest).2) := by
  rw [stripArrays.eq_2]
  rintro _ same
  exact absurd same other

theorem stripArrays_append {front : List Char} (free : '[' ∉ front) (back : List Char) :
    stripArrays (front ++ back) = (front ++ (stripArrays back).1, (stripArrays back).2) := by
  induction front with
  | nil => rfl
  | cons char rest ih =>
    have other : char ≠ '[' := fun same => free (same ▸ List.mem_cons_self)
    rw [List.cons_append, stripArrays_cons other, ih fun inside => free (List.mem_cons_of_mem char inside)]
    rfl

theorem stripArrays_replicate (count : Nat) :
    stripArrays (String.join (List.replicate count "[]")).toList = ([], count) := by
  have suffix : "[]".toList = ['[', ']'] := rfl
  induction count with
  | zero => rfl
  | succ count ih =>
    rw [List.replicate_succ, String.join_cons, String.toList_append, suffix]
    simp only [List.cons_append, List.nil_append, stripArrays, ih]

/-- Array suffixes are read off a base that holds none. -/
theorem ofString_append_replicate {base : String} (free : '[' ∉ base.toList) (count : Nat) :
    Descriptor.ofString (base ++ String.join (List.replicate count "[]")) = ⟨base, count⟩ := by
  rw [Descriptor.ofString, String.toList_append, stripArrays_append free, stripArrays_replicate]
  simp

theorem isReturnTypeChar_of_mem_replicate {count : Nat} {char : Char}
    (member : char ∈ (String.join (List.replicate count "[]")).toList) : isReturnTypeChar char := by
  have suffix : "[]".toList = ['[', ']'] := rfl
  rw [String.toList_join] at member
  obtain ⟨_, inside, holds⟩ := List.mem_flatMap.mp member
  rw [List.eq_of_mem_replicate inside, suffix] at holds
  simp only [List.mem_cons, List.not_mem_nil, or_false] at holds
  rcases holds with rfl | rfl <;> rfl

theorem isClassPath_base {text : String} (isType : isTypeName text.toList) :
    isClassPath (Descriptor.ofString text).base.toList := by
  simp only [isTypeName, Bool.and_eq_true] at isType
  have free : '[' ∉ text.toList.takeWhile (· != '[') := by
    intro member
    simpa using List.all_eq_true.mp List.all_takeWhile _ member
  have split := stripArrays_append free (text.toList.dropWhile (· != '['))
  rw [List.takeWhile_append_dropWhile, stripArrays_of_isArraySuffix isType.2, List.append_nil] at split
  simp only [Descriptor.ofString, split, String.toList_ofList]
  exact isType.1

theorem isPath_of_isTypeName {text : String} (isType : isTypeName text.toList) :
    IsPath (NameTree.segments (Descriptor.ofString text).base) := isPath_of_isClassPath (isClassPath_base isType)

theorem isReturnTypeChar_of_isClassPath {text : List Char} (classPath : isClassPath text) {char : Char}
    (member : char ∈ text) : isReturnTypeChar char := by
  rw [← Text.joinWith_splitAt '.' text] at member
  unfold isClassPath at classPath
  rcases Text.mem_joinWith member with rfl | ⟨piece, inside, holds⟩
  · rfl
  · cases reversed : (Text.splitAt '.' text).reverse with
    | nil =>
      rw [reversed] at classPath
      cases classPath
    | cons last packages =>
      simp only [reversed, Bool.and_eq_true, List.all_eq_true] at classPath
      rw [← List.mem_reverse, reversed] at inside
      have identifier : isIdentifier piece := by
        rcases List.mem_cons.mp inside with rfl | earlier
        · exact classPath.1
        · exact isIdentifier_of_isPackageSegment (classPath.2 piece earlier)
      exact isReturnTypeChar_of_isIdentifierChar ((isIdentifier_iff.mp identifier).2 char holds)

theorem isReturnTypeChar_of_isArraySuffix {text : List Char} (isSuffix : isArraySuffix text) {char : Char}
    (member : char ∈ text) : isReturnTypeChar char := by
  induction text using isArraySuffix.induct with
  | case1 => exact absurd member List.not_mem_nil
  | case2 rest ih =>
    rw [isArraySuffix] at isSuffix
    simp only [List.mem_cons] at member
    rcases member with rfl | rfl | later
    · rfl
    · rfl
    · exact ih isSuffix later
  | case3 text nonempty other =>
    rw [isArraySuffix.eq_3 text nonempty other] at isSuffix
    cases isSuffix

theorem isReturnTypeChar_of_isTypeName {text : List Char} (isType : isTypeName text) {char : Char}
    (member : char ∈ text) : isReturnTypeChar char := by
  simp only [isTypeName, Bool.and_eq_true] at isType
  have parts : text.takeWhile (· != '[') ++ text.dropWhile (· != '[') = text := List.takeWhile_append_dropWhile
  rw [← parts] at member
  rcases List.mem_append.mp member with front | back
  · exact isReturnTypeChar_of_isClassPath isType.1 front
  · exact isReturnTypeChar_of_isArraySuffix isType.2 back

theorem trimStart_of_isTypeName {text : List Char} (isType : isTypeName text) : Text.trimStart text = text := by
  cases text with
  | nil => rfl
  | cons first rest =>
    have solid := not_isBlank_of_isReturnTypeChar (isReturnTypeChar_of_isTypeName isType List.mem_cons_self)
    simp [Text.trimStart, solid]

theorem isTypeName_trimStart {piece : List Char} (isLater : isLaterArgument piece) :
    isTypeName (Text.trimStart piece) := by
  cases piece with
  | nil => cases isLater
  | cons first rest =>
    simp only [isLaterArgument] at isLater
    split at isLater
    · next blank =>
      have skip : Text.trimStart (first :: rest) = Text.trimStart rest := by simp [Text.trimStart, blank]
      rw [skip, trimStart_of_isTypeName isLater]
      exact isLater
    · rw [trimStart_of_isTypeName isLater]
      exact isLater

theorem isTypeName_of_mem_argumentDescriptors {list piece : List Char} (isList : isArgumentList list)
    (member : piece ∈ Signature.argumentDescriptors list) : isTypeName piece := by
  cases list with
  | nil => exact absurd member List.not_mem_nil
  | cons char rest =>
    simp only [Signature.argumentDescriptors, Signature.argumentPieces] at member
    simp only [isArgumentList, List.isEmpty_cons, Bool.false_or] at isList
    cases split : Text.splitAt ',' (char :: rest) with
    | nil =>
      rw [split] at isList
      cases isList
    | cons first others =>
      rw [split] at isList member
      simp only [Bool.and_eq_true, List.all_eq_true] at isList
      rcases List.mem_cons.mp member with rfl | later
      · exact isList.1
      · obtain ⟨other, inside, rfl⟩ := List.mem_map.mp later
        exact isTypeName_trimStart (isList.2 other inside)

end MappingLine

end ClearNames
