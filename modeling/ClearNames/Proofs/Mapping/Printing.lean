import ClearNames.Proofs.Mapping.Reading
import ClearNames.Proofs.Text.Lines

/-! Mappings as they are printed.

A mapping is a list of blocks: a class and its members, whose parts are of the
classes that the lines allow. Every entry is printed as one line, which is read
as this entry and from which the signature of a method is read part by part.
-/

set_option autoImplicit false

namespace ClearNames

namespace Text

/-! ## Blanks -/

theorem not_isBlank_of_isDecimalDigit {char : Char} (digit : isDecimalDigit char) : isBlank char = false := by
  have table : ∀ start ∈ digitZeros, ∀ offset < 10, isBlank (Char.ofNat (start + offset)) = false := by decide +kernel
  simp only [isDecimalDigit, digitValue?, Option.isSome_map, List.find?_isSome, Bool.and_eq_true,
    decide_eq_true_eq] at digit
  -- A digit is found ten places from a zero, and the zeros are few.
  obtain ⟨start, member, low, high⟩ := digit
  have read := table start member (char.toNat - start) (by omega)
  rwa [Nat.add_sub_cancel' low, Char.ofNat_toNat] at read

end Text

namespace MappingLine

theorem spaced_append {front back : List Char} : Spaced (front ++ back) ↔ Spaced front ∧ Spaced back := by
  simp only [Spaced, List.mem_append, or_imp, forall_and]

theorem spaced_cons {char : Char} {rest : List Char} (spaced : Text.isBlank char = false ∨ char = ' ')
    (others : Spaced rest) : Spaced (char :: rest) := by
  intro other member blank
  rcases List.mem_cons.mp member with rfl | later
  · simpa [blank] using spaced
  · exact others other later blank

theorem spaced_of_solid {text : List Char} (solid : ∀ char ∈ text, Text.isBlank char = false) : Spaced text := by
  intro char member blank
  rw [solid char member] at blank
  cases blank

theorem spaced_of_isTypeName {text : List Char} (isType : isTypeName text) : Spaced text :=
  spaced_of_solid fun _ member => not_isBlank_of_isReturnTypeChar (isReturnTypeChar_of_isTypeName isType member)

theorem spaced_of_isClassPath {text : List Char} (isPath : isClassPath text) : Spaced text :=
  spaced_of_solid fun _ member => not_isBlank_of_isReturnTypeChar (isReturnTypeChar_of_isClassPath isPath member)

theorem spaced_of_isIdentifier {text : List Char} (identifier : isIdentifier text) : Spaced text := by
  refine spaced_of_solid fun char member => not_isBlank_of_isReturnTypeChar ?_
  exact isReturnTypeChar_of_isIdentifierChar ((isIdentifier_iff.mp identifier).2 char member)

theorem spaced_of_digits {text : List Char} (digits : text.all Text.isDecimalDigit) : Spaced text :=
  spaced_of_solid fun char member => Text.not_isBlank_of_isDecimalDigit (List.all_eq_true.mp digits char member)

/-- A text without blanks but spaces holds no character that ends a line. -/
theorem unbroken_of_spaced {text : List Char} (spaced : Spaced text) : Text.Unbroken text :=
  ⟨fun member => absurd (spaced _ member rfl) (by decide), fun member => absurd (spaced _ member rfl) (by decide)⟩

/-! ## Lines that say something -/

theorem isSkipped_of_solid {first : Char} (solid : Text.isBlank first = false) (other : first ≠ '#')
    (rest : List Char) : isSkipped (first :: rest) = false ∧ isSkipped (indentation ++ first :: rest) = false := by
  have space : Text.isBlank ' ' = true := by decide
  simp [isSkipped, indentation, Text.trimStart, space, solid, other]

theorem solid_of_isTypeName {type : List Char} (isType : isTypeName type) :
    ∃ first rest, type = first :: rest ∧ Text.isBlank first = false ∧ first ≠ '#' := by
  cases type with
  | nil => exact absurd isType (by decide)
  | cons first rest =>
    have plain := isReturnTypeChar_of_isTypeName isType (List.mem_cons_self (a := first))
    exact ⟨first, rest, rfl, not_isBlank_of_isReturnTypeChar plain, ne_of_isReturnTypeChar plain (by decide)⟩

theorem isSkipped_print {shape : MappingLine} (written : shape.Written) : isSkipped shape.print = false := by
  cases written with
  | @javaClass name obfuscated isName isTarget =>
    cases name with
    | nil => exact absurd isName (by decide)
    | cons first rest =>
      have plain := isReturnTypeChar_of_isClassPath isName (List.mem_cons_self (a := first))
      have solid := isSkipped_of_solid (not_isBlank_of_isReturnTypeChar plain)
        (ne_of_isReturnTypeChar plain (by decide)) (rest ++ arrow ++ obfuscated ++ [':'])
      simpa [print] using solid.1
  | @field type name obfuscation isType isName isTarget =>
    obtain ⟨first, rest, rfl, solid, other⟩ := solid_of_isTypeName isType
    simpa [print] using (isSkipped_of_solid solid other (rest ++ ' ' :: (name ++ arrow ++ obfuscation))).2
  | @method range type name list obfuscation isRange isType isName isList isTarget =>
    -- The first mark behind the indentation is a digit of the range, or else of the return type.
    rcases isRange with rfl | ⟨digits, others, nonempty, -, all, -, rfl⟩
    · obtain ⟨first, rest, rfl, solid, other⟩ := solid_of_isTypeName isType
      simpa [print, spell] using
        (isSkipped_of_solid solid other (rest ++ ' ' :: (name ++ '(' :: (list ++ ')' :: (arrow ++ obfuscation))))).2
    · cases digits with
      | nil => exact absurd rfl nonempty
      | cons first rest =>
        have digit := all first List.mem_cons_self
        have other : first ≠ '#' := by
          rintro rfl
          exact absurd digit (by decide)
        simpa [print] using (isSkipped_of_solid (Text.not_isBlank_of_isDecimalDigit digit) other
          (rest ++ ':' :: (others ++ ':' :: (spell type name list ++ arrow ++ obfuscation)))).2

end MappingLine

namespace Mapping
open NameTree MappingLine

theorem said?_print {shape : MappingLine} (written : shape.Written) : said? shape.print = some shape := by
  rw [said?, isSkipped_print written]
  exact parse?_eq_some_iff.mpr ⟨written, rfl⟩

/-! ## Entries -/

abbrev ClassPath : Type := { text : String // isClassPath text.toList }

abbrev TypeName : Type := { text : String // isTypeName text.toList }

abbrev Identifier : Type := { text : String // isIdentifier text.toList }

abbrev Digits : Type := { text : String // text.toList ≠ [] ∧ text.toList.all Text.isDecimalDigit }

structure FieldRecord where
  type : TypeName
  name : Identifier
  obfuscation : Identifier

/-- An argument type, and whether a space stands between it and the comma before it. -/
structure Argument where
  type : TypeName
  spaced : Bool

def Argument.behindComma (argument : Argument) : List Char :=
  if argument.spaced then ' ' :: argument.type.1.toList else argument.type.1.toList

def printArguments : List Argument → List Char
  | [] => []
  | first :: rest => Text.joinWith ',' (first.type.1.toList :: rest.map Argument.behindComma)

structure MethodRecord where
  range : Option (Digits × Digits)
  returns : TypeName
  name : Identifier
  arguments : List Argument
  obfuscation : Identifier

namespace MethodRecord

def printRange (method : MethodRecord) : List Char :=
  match method.range with
  | none => []
  | some (first, last) => first.1.toList ++ ':' :: (last.1.toList ++ [':'])

def text (method : MethodRecord) : String :=
  String.ofList (spell method.returns.1.toList method.name.1.toList (printArguments method.arguments))

def signature (method : MethodRecord) : Signature :=
  ⟨method.returns.1, method.name.1, method.arguments.map fun argument => argument.type.1⟩

end MethodRecord

inductive Member where
  | field (record : FieldRecord)
  | method (record : MethodRecord)

def Member.line : Member → MappingLine
  | .field record => .field record.type.1 record.name.1 record.obfuscation.1
  | .method record => .method (String.ofList record.printRange) record.text record.obfuscation.1

def Member.method? : Member → Option MethodRecord
  | .field _ => none
  | .method record => some record

structure ClassBlock where
  name : ClassPath
  obfuscated : ClassPath
  members : List Member

inductive Entry where
  | opening (name obfuscated : ClassPath)
  | belonging (member : Member)

def Entry.line : Entry → MappingLine
  | .opening name obfuscated => .javaClass name.1 obfuscated.1
  | .belonging member => member.line

namespace ClassBlock

def entries (block : ClassBlock) : List Entry := .opening block.name block.obfuscated :: block.members.map .belonging

def methods (block : ClassBlock) : List MethodRecord := block.members.filterMap Member.method?

end ClassBlock

/-! ## Arguments -/

theorem Argument.comma_not_mem (argument : Argument) : ',' ∉ argument.behindComma := by
  have free : ',' ∉ argument.type.1.toList := not_mem_of_isTypeName argument.type.2 (by decide)
  unfold behindComma
  split <;> simp [free]

theorem Argument.trimStart_behindComma (argument : Argument) :
    Text.trimStart argument.behindComma = argument.type.1.toList := by
  have trimmed := trimStart_of_isTypeName argument.type.2
  unfold behindComma
  split
  · exact (List.dropWhile_cons_of_pos rfl).trans trimmed
  · exact trimmed

theorem Argument.isLaterArgument_behindComma (argument : Argument) : isLaterArgument argument.behindComma := by
  have isType := argument.type.2
  unfold behindComma
  split
  · exact isType
  · obtain ⟨first, rest, same, solid, -⟩ := solid_of_isTypeName isType
    rw [same] at isType ⊢
    simpa [isLaterArgument, solid] using isType

theorem Argument.spaced_behindComma (argument : Argument) : Spaced argument.behindComma := by
  have spaced := spaced_of_isTypeName argument.type.2
  unfold behindComma
  split
  · exact spaced_cons (.inr rfl) spaced
  · exact spaced

theorem comma_not_mem_pieces (first : Argument) (rest : List Argument) :
    ∀ piece ∈ first.type.1.toList :: rest.map Argument.behindComma, ',' ∉ piece := by
  intro piece member
  rcases List.mem_cons.mp member with rfl | later
  · exact not_mem_of_isTypeName first.type.2 (by decide)
  · obtain ⟨argument, -, rfl⟩ := List.mem_map.mp later
    exact argument.comma_not_mem

theorem argumentDescriptors_printArguments (arguments : List Argument) :
    (Signature.argumentDescriptors (printArguments arguments)).map String.ofList =
      arguments.map fun argument => argument.type.1 := by
  cases arguments with
  | nil => rfl
  | cons first rest =>
    -- No type is empty, so that a list with arguments is not taken for the empty list.
    have solid : first.type.1.toList ≠ [] := by
      obtain ⟨_, _, same, -⟩ := solid_of_isTypeName first.type.2
      simp [same]
    rw [printArguments, Signature.argumentDescriptors_joinWith solid (comma_not_mem_pieces first rest)]
    simp [Argument.trimStart_behindComma, Function.comp_def]

theorem isArgumentList_printArguments (arguments : List Argument) : isArgumentList (printArguments arguments) := by
  cases arguments with
  | nil => rfl
  | cons first rest =>
    have split := Text.splitAt_joinWith (List.cons_ne_nil _ _) (comma_not_mem_pieces first rest)
    simp [isArgumentList, printArguments, split, first.type.2, Argument.isLaterArgument_behindComma]

theorem spaced_printArguments (arguments : List Argument) : Spaced (printArguments arguments) := by
  cases arguments with
  | nil => exact fun _ member => absurd member List.not_mem_nil
  | cons first rest =>
    intro char member blank
    rcases Text.mem_joinWith member with rfl | ⟨piece, known, inside⟩
    · exact absurd blank (by decide)
    · rcases List.mem_cons.mp known with rfl | later
      · exact spaced_of_isTypeName first.type.2 char inside blank
      · obtain ⟨argument, -, rfl⟩ := List.mem_map.mp later
        exact argument.spaced_behindComma char inside blank

/-! ## Lines -/

theorem MethodRecord.isRange_printRange (method : MethodRecord) : IsRange method.printRange := by
  unfold printRange
  cases method.range with
  | none => exact .inl rfl
  | some range =>
    obtain ⟨⟨first, firstSome, firstDigits⟩, last, lastSome, lastDigits⟩ := range
    exact .inr ⟨_, _, firstSome, lastSome, List.all_eq_true.mp firstDigits, List.all_eq_true.mp lastDigits, rfl⟩

theorem MethodRecord.spaced_printRange (method : MethodRecord) : Spaced method.printRange := by
  unfold printRange
  cases method.range with
  | none => exact fun _ member => absurd member List.not_mem_nil
  | some range =>
    obtain ⟨⟨first, -, firstDigits⟩, last, -, lastDigits⟩ := range
    have colon : Spaced [':'] := by decide
    exact spaced_append.mpr ⟨spaced_of_digits firstDigits,
      spaced_cons (.inl (by decide)) (spaced_append.mpr ⟨spaced_of_digits lastDigits, colon⟩)⟩

theorem MethodRecord.spaced_text (method : MethodRecord) : Spaced method.text.toList := by
  have spacedType := spaced_of_isTypeName method.returns.2
  have spacedName := spaced_of_isIdentifier method.name.2
  have paren : Spaced [')'] := by decide
  rw [text, String.toList_ofList, spell]
  refine spaced_append.mpr ⟨spacedType, spaced_cons (.inr rfl) (spaced_append.mpr ⟨spacedName, ?_⟩)⟩
  exact spaced_cons (.inl (by decide)) (spaced_append.mpr ⟨spaced_printArguments method.arguments, paren⟩)

theorem MethodRecord.parse?_text (method : MethodRecord) : Signature.parse? method.text = some method.signature := by
  have read := parse?_spell_of_spaced method.returns.2 method.name.2 (isArgumentList_printArguments method.arguments)
    (spaced_printArguments method.arguments)
  rw [text, read, argumentDescriptors_printArguments]
  simp [signature]

theorem MethodRecord.isTypeName_of_mem {method : MethodRecord} {argument : String}
    (listed : argument ∈ method.signature.arguments) : isTypeName argument.toList := by
  obtain ⟨given, -, rfl⟩ := List.mem_map.mp listed
  exact given.type.2

theorem isType_of_isTypeName {text : String} (isType : isTypeName text.toList) : Signature.IsType text := by
  obtain ⟨_, _, same, -⟩ := solid_of_isTypeName isType
  exact ⟨by simp [same], fun _ => isReturnTypeChar_of_isTypeName isType⟩

theorem MethodRecord.parse?_print (method : MethodRecord) :
    Signature.parse? method.signature.print = some method.signature := by
  obtain ⟨nameSome, plain⟩ := isIdentifier_iff.mp method.name.2
  refine Signature.parse?_print (isType_of_isTypeName method.returns.2)
    ⟨nameSome, fun char member => isMethodNameChar_of_isIdentifierChar (plain char member)⟩ fun argument member => ?_
  obtain ⟨given, -, rfl⟩ := List.mem_map.mp member
  exact isType_of_isTypeName given.type.2

theorem Member.written (member : Member) : member.line.Written := by
  cases member with
  | field record => simpa [line] using Written.field record.type.2 record.name.2 record.obfuscation.2
  | method record =>
    have isList := isArgumentList_printArguments record.arguments
    simpa [line, MethodRecord.text] using
      Written.method record.isRange_printRange record.returns.2 record.name.2 isList record.obfuscation.2

theorem Entry.written (entry : Entry) : entry.line.Written := by
  cases entry with
  | opening name obfuscated => simpa [line] using Written.javaClass name.2 obfuscated.2
  | belonging member => exact member.written

theorem Member.spaced (member : Member) : Spaced member.line.print := by
  have spacedArrow : Spaced arrow := by decide
  have spacedMargin : Spaced indentation := by decide
  cases member with
  | field record =>
    have spacedType := spaced_of_isTypeName record.type.2
    have spacedName := spaced_of_isIdentifier record.name.2
    have spacedTarget := spaced_of_isIdentifier record.obfuscation.2
    simp only [line, print, spaced_append]
    exact ⟨⟨⟨⟨spacedMargin, spacedType⟩, spaced_cons (.inr rfl) spacedName⟩, spacedArrow⟩, spacedTarget⟩
  | method record =>
    have spacedTarget := spaced_of_isIdentifier record.obfuscation.2
    simp only [line, print, spaced_append, String.toList_ofList]
    exact ⟨⟨⟨⟨spacedMargin, record.spaced_printRange⟩, record.spaced_text⟩, spacedArrow⟩, spacedTarget⟩

theorem Entry.spaced (entry : Entry) : Spaced entry.line.print := by
  cases entry with
  | opening name obfuscated =>
    have spacedArrow : Spaced arrow := by decide
    have colon : Spaced [':'] := by decide
    simp only [line, print, spaced_append]
    exact ⟨⟨⟨spaced_of_isClassPath name.2, spacedArrow⟩, spaced_of_isClassPath obfuscated.2⟩, colon⟩
  | belonging member => exact member.spaced

end Mapping

end ClearNames
