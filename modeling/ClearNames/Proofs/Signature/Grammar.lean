import ClearNames.Proofs.Mapping.Grammar
import ClearNames.Proofs.Steps

/-! The grammar of signatures.

A text is read as a signature exactly where it has the parts of one, with
anything behind them. It has them in one way only, since no part holds the mark
that ends it.
-/

set_option autoImplicit false

namespace ClearNames

namespace Signature

/-- The letters of signatures: those of ASCII, and four that fold to one of them. -/
def IsLetter (char : Char) : Prop := char.isAlpha ∨ char ∈ ['\u0130', '\u0131', '\u017f', '\u212a']

instance (char : Char) : Decidable (IsLetter char) := inferInstanceAs (Decidable (_ ∨ _))

def Over (marks text : String) : Prop := ∀ char ∈ text.toList, IsLetter char ∨ char.isDigit ∨ char ∈ marks.toList

instance (marks text : String) : Decidable (Over marks text) := List.decidableBAll _ text.toList

/-- The parts of the text of a signature, and what stands behind it. -/
structure Spelling where
  returns : String
  name : String
  list : String
  rest : String
  deriving DecidableEq, Repr

namespace Spelling

def text (parts : Spelling) : String :=
  parts.returns ++ " " ++ parts.name ++ "(" ++ parts.list ++ ")" ++ parts.rest

structure WellFormed (parts : Spelling) : Prop where
  returnsSome : parts.returns ≠ ""
  returnsOver : Over "_.$[]" parts.returns
  nameSome : parts.name ≠ ""
  nameOver : Over "_$" parts.name
  listOver : Over "$_.[] ," parts.list

end Spelling

/-- An argument list and its arguments: none of an empty one, else what is between the commas, and
behind a comma without the spaces in front. -/
inductive Lists : List Char → List (List Char) → Prop where
  | empty : Lists [] []
  | pieces {list first : List Char} {rest : List (List Char)} (filled : list ≠ [])
      (free : ∀ piece ∈ first :: rest, ',' ∉ piece) (joined : [','].intercalate (first :: rest) = list) :
      Lists list (first :: rest.map fun piece => piece.dropWhile (· == ' '))

def Spelling.Gives (parts : Spelling) (signature : Signature) : Prop :=
  signature.returns = parts.returns ∧ signature.name = parts.name ∧
    Lists parts.list.toList (signature.arguments.map String.toList)

/-! ## Character classes -/

section
variable {char : Char}

theorem isSignatureLetter_iff : isSignatureLetter char ↔ IsLetter char := by
  have letters : char.isAlpha =
      (decide ('A'.val ≤ char.val ∧ char.val ≤ 'Z'.val) || (decide ('a'.val ≤ char.val) && decide (char.val ≤ 'z'.val))) :=
    rfl
  simp only [isSignatureLetter, IsLetter, letters, Bool.or_eq_true, Bool.and_eq_true, decide_eq_true_eq, beq_iff_eq,
    List.mem_cons, List.not_mem_nil, or_false, Char.le_def]
  grind

theorem isAsciiDigit_eq : isAsciiDigit char = char.isDigit := by
  simp only [isAsciiDigit, Char.isDigit, Char.le_def, ge_iff_le]

theorem isMethodNameChar_iff : isMethodNameChar char ↔ IsLetter char ∨ char.isDigit ∨ char ∈ "_$".toList := by
  have marks : "_$".toList = ['_', '$'] := rfl
  rw [marks, isMethodNameChar, ← isSignatureLetter_iff, ← isAsciiDigit_eq]
  grind

theorem isReturnTypeChar_iff : isReturnTypeChar char ↔ IsLetter char ∨ char.isDigit ∨ char ∈ "_.$[]".toList := by
  have known := @isMethodNameChar_iff char
  have marks : "_$".toList = ['_', '$'] ∧ "_.$[]".toList = ['_', '.', '$', '[', ']'] := ⟨rfl, rfl⟩
  rw [marks.1] at known
  rw [marks.2, isReturnTypeChar]
  grind

theorem isArgumentListChar_iff : isArgumentListChar char ↔ IsLetter char ∨ char.isDigit ∨ char ∈ "$_.[] ,".toList := by
  have known := @isReturnTypeChar_iff char
  have marks : "_.$[]".toList = ['_', '.', '$', '[', ']'] ∧ "$_.[] ,".toList = ['$', '_', '.', '[', ']', ' ', ','] :=
    ⟨rfl, rfl⟩
  rw [marks.1] at known
  rw [marks.2, isArgumentListChar]
  grind

theorem isBlank_of_isArgumentListChar (listed : isArgumentListChar char) : Text.isBlank char = (char == ' ') := by
  simp only [isArgumentListChar, Bool.or_eq_true, beq_iff_eq] at listed
  rcases listed with (type | rfl) | rfl
  · rw [not_isBlank_of_isReturnTypeChar type, eq_comm, beq_eq_false_iff_ne]
    exact ne_of_isReturnTypeChar type (by decide)
  · rfl
  · rfl

end

/-! ## Argument lists -/

theorem trimStart_of_listed {piece : List Char} (listed : ∀ char ∈ piece, isArgumentListChar char) :
    Text.trimStart piece = piece.dropWhile (· == ' ') := by
  induction piece with
  | nil => rfl
  | cons char rest ih =>
    rw [List.forall_mem_cons] at listed
    have later := ih listed.2
    simp only [Text.trimStart, List.dropWhile_cons, isBlank_of_isArgumentListChar listed.1] at later ⊢
    rw [later]

theorem argumentDescriptors_eq {list first : List Char} {rest : List (List Char)} (filled : list ≠ [])
    (split : Text.splitAt ',' list = first :: rest) :
    argumentDescriptors list = first :: rest.map Text.trimStart := by
  cases list with
  | nil => exact absurd rfl filled
  | cons char others => simp only [argumentDescriptors, argumentPieces, split]

theorem lists_iff {list : List Char} (listed : ∀ char ∈ list, isArgumentListChar char) (arguments : List (List Char)) :
    Lists list arguments ↔ arguments = argumentDescriptors list := by
  have trimmed {first : List Char} {rest : List (List Char)} (split : Text.splitAt ',' list = first :: rest) :
      rest.map Text.trimStart = rest.map fun piece => piece.dropWhile (· == ' ') := by
    refine List.map_congr_left fun piece inside => trimStart_of_listed fun char member => listed char ?_
    rw [← Text.joinWith_splitAt ',' list, split]
    exact Text.mem_joinWith_of_mem (List.mem_cons_of_mem _ inside) member
  constructor
  · intro lists
    cases lists with
    | empty => rfl
    | @pieces _ first rest filled free joined =>
      have split : Text.splitAt ',' list = first :: rest := by
        rw [← joined, ← Text.joinWith_eq_intercalate]
        exact Text.splitAt_joinWith (List.cons_ne_nil _ _) free
      rw [argumentDescriptors_eq filled split, trimmed split]
  · rintro rfl
    by_cases filled : list = []
    · subst filled
      exact .empty
    · obtain ⟨first, rest, split⟩ := List.exists_cons_of_ne_nil (Text.splitAt_ne_nil ',' list)
      rw [argumentDescriptors_eq filled split, trimmed split]
      refine .pieces filled (fun piece inside => Text.not_mem_of_mem_splitAt (split ▸ inside)) ?_
      rw [← Text.joinWith_eq_intercalate, ← split, Text.joinWith_splitAt]

/-! ## Signatures -/

theorem eq_of_append_mark {test : Char → Bool} {mark : Char} (foreign : test mark = false)
    {first second firstRest secondRest : List Char} (firstOver : ∀ char ∈ first, test char)
    (secondOver : ∀ char ∈ second, test char) (same : first ++ mark :: firstRest = second ++ mark :: secondRest) :
    first = second ∧ firstRest = secondRest := by
  -- From the whole the class takes the part, since the mark stops it.
  have taken {part rest : List Char} (plain : ∀ char ∈ part, test char) :
      (part ++ mark :: rest).takeWhile test = part := by
    rw [List.takeWhile_append_of_pos plain, List.takeWhile_cons, foreign]
    simp
  have parts : first = second := by rw [← taken firstOver, same, taken secondOver]
  subst parts
  exact ⟨rfl, (List.cons.inj (List.append_cancel_left same)).2⟩

namespace Spelling
variable {parts : Spelling}

theorem toList_text (parts : Spelling) : parts.text.toList =
    parts.returns.toList ++ ' ' :: (parts.name.toList ++ '(' :: (parts.list.toList ++ ')' :: parts.rest.toList)) := by
  simp [text]

theorem WellFormed.returnsChars (formed : parts.WellFormed) : ∀ char ∈ parts.returns.toList, isReturnTypeChar char :=
  fun char member => isReturnTypeChar_iff.mpr (formed.returnsOver char member)

theorem WellFormed.nameChars (formed : parts.WellFormed) : ∀ char ∈ parts.name.toList, isMethodNameChar char :=
  fun char member => isMethodNameChar_iff.mpr (formed.nameOver char member)

theorem WellFormed.listChars (formed : parts.WellFormed) : ∀ char ∈ parts.list.toList, isArgumentListChar char :=
  fun char member => isArgumentListChar_iff.mpr (formed.listOver char member)

/-- A text has the parts of a signature in one way. -/
theorem WellFormed.unique (formed : parts.WellFormed) {other : Spelling} (otherFormed : other.WellFormed)
    (same : other.text = parts.text) : other = parts := by
  have chars := congrArg String.toList same
  rw [toList_text, toList_text] at chars
  obtain ⟨returns, chars⟩ := eq_of_append_mark (by decide) otherFormed.returnsChars formed.returnsChars chars
  obtain ⟨name, chars⟩ := eq_of_append_mark (by decide) otherFormed.nameChars formed.nameChars chars
  obtain ⟨list, rest⟩ := eq_of_append_mark (by decide) otherFormed.listChars formed.listChars chars
  cases other
  cases parts
  simp only [mk.injEq]
  exact ⟨String.toList_injective returns, String.toList_injective name, String.toList_injective list,
    String.toList_injective rest⟩

theorem WellFormed.parse?_text (formed : parts.WellFormed) :
    parse? parts.text = some ⟨parts.returns, parts.name,
      (argumentDescriptors parts.list.toList).map String.ofList⟩ := by
  have foreign : isArgumentListChar ')' = false := by decide
  have returnsSome : parts.returns.toList ≠ [] := by simpa using formed.returnsSome
  have nameSome : parts.name.toList ≠ [] := by simpa using formed.nameSome
  rw [← String.ofList_toList (s := parts.text), toList_text,
    parse?_ofList returnsSome formed.returnsChars nameSome formed.nameChars,
    List.takeWhile_append_of_pos formed.listChars, List.dropWhile_append_of_pos formed.listChars]
  simp [foreign, Text.after?]

end Spelling

theorem Spelling.WellFormed.gives_iff {parts : Spelling} (formed : parts.WellFormed) {signature : Signature} :
    parts.Gives signature ↔ parse? parts.text = some signature := by
  obtain ⟨returns, name, arguments⟩ := signature
  have listed : arguments.map String.toList = argumentDescriptors parts.list.toList ↔
      (argumentDescriptors parts.list.toList).map String.ofList = arguments := by
    constructor
    · intro same
      simp [← same, Function.comp_def]
    · rintro rfl
      simp [Function.comp_def]
  rw [formed.parse?_text, Option.some.injEq, Signature.mk.injEq, Spelling.Gives, lists_iff formed.listChars, listed]
  exact and_congr eq_comm (and_congr eq_comm Iff.rfl)

theorem exists_spelling_of_parse? {text : String} {signature : Signature} (parsed : parse? text = some signature) :
    ∃ parts : Spelling, parts.WellFormed ∧ parts.text = text := by
  have passed {test : Char → Bool} {text : List Char} : ∀ char ∈ (String.ofList (text.takeWhile test)).toList, test char := by
    rw [String.toList_ofList]
    exact List.all_eq_true.mp List.all_takeWhile
  simp only [parse?, Option.bind_eq_bind, Option.bind_eq_some_iff] at parsed
  obtain ⟨afterReturns, returnsEnd, afterName, nameEnd, rest, listEnd, read⟩ := parsed
  split at read
  · cases read
  · next filled =>
    simp only [Bool.or_eq_true, List.isEmpty_iff, not_or] at filled
    -- The parts are what the three classes take, and each has its mark behind it.
    refine ⟨⟨String.ofList (text.toList.takeWhile isReturnTypeChar), String.ofList (afterReturns.takeWhile isMethodNameChar),
      String.ofList (afterName.takeWhile isArgumentListChar), String.ofList rest⟩, ⟨?_, ?_, ?_, ?_, ?_⟩, ?_⟩
    · simpa using filled.1
    · exact fun char member => isReturnTypeChar_iff.mp (passed char member)
    · simpa using filled.2
    · exact fun char member => isMethodNameChar_iff.mp (passed char member)
    · exact fun char member => isArgumentListChar_iff.mp (passed char member)
    · have whole {test : Char → Bool} {mark : Char} {text rest : List Char}
          (ends : Text.after? [mark] (text.dropWhile test) = some rest) : text.takeWhile test ++ mark :: rest = text := by
        have parts : text.takeWhile test ++ text.dropWhile test = text := List.takeWhile_append_dropWhile
        rwa [Text.after?_eq_some_iff.mp ends] at parts
      apply String.toList_injective
      simp only [Spelling.toList_text, String.toList_ofList, whole listEnd, whole nameEnd, whole returnsEnd]

end Signature

namespace NameTree
open Signature

/-- A text is read as a signature if and only if it has the parts of one, and then as the signature of these
parts, which are the only ones that it has. Any other text is refused by itself, and the tree is left as it is. -/
theorem readSignature_grammar (text : String) (tree : NameTree) :
    (∀ signature, (readSignature text).on tree = (.ok signature, tree) ↔
      ∃ parts : Spelling, parts.WellFormed ∧ parts.text = text ∧ parts.Gives signature) ∧
    (∀ parts : Spelling, parts.WellFormed → parts.text = text →
      (∀ other : Spelling, other.WellFormed → other.text = text → other = parts) ∧ ∃ signature, parts.Gives signature) ∧
    ((¬ ∃ parts : Spelling, parts.WellFormed ∧ parts.text = text) →
      (readSignature text).on tree = (.error (.badSignature text), tree)) := by
  have outcome : (readSignature text).on tree =
      ((parse? text).elim (.error (.badSignature text)) .ok, tree) := by
    unfold readSignature
    cases parse? text <;> rfl
  rw [outcome]
  refine ⟨fun signature => ⟨fun read => ?_, ?_⟩, ?_, fun shapeless => ?_⟩
  · cases parsed : parse? text with
    | none =>
      rw [parsed] at read
      cases read
    | some other =>
      rw [parsed] at read
      cases read
      obtain ⟨parts, formed, rfl⟩ := exists_spelling_of_parse? parsed
      exact ⟨parts, formed, rfl, formed.gives_iff.mpr parsed⟩
  · rintro ⟨parts, formed, rfl, gives⟩
    rw [formed.gives_iff.mp gives]
    rfl
  · rintro parts formed rfl
    exact ⟨fun other otherFormed same => formed.unique otherFormed same, _, formed.gives_iff.mpr formed.parse?_text⟩
  · cases parsed : parse? text with
    | none => rfl
    | some signature => exact absurd (exists_spelling_of_parse? parsed) shapeless

/-- Behind the list anything may stand, also another list; a blank argument is an argument. -/
theorem readSignature_grammar_trailing :
    let parts : Spelling := ⟨"int[]", "of$", " a.B,  , c", " throws (d)"⟩
    parts.WellFormed ∧ parts.text = "int[] of$( a.B,  , c) throws (d)" ∧
      (readSignature "int[] of$( a.B,  , c) throws (d)").on .empty =
        (.ok ⟨"int[]", "of$", [" a.B", "", "c"]⟩, .empty) := by
  intro parts
  have formed : parts.WellFormed := ⟨by decide, by decide, by decide, by decide, by decide⟩
  have spelled : parts.text = "int[] of$( a.B,  , c) throws (d)" := by decide
  have lists : Lists parts.list.toList [" a.B".toList, "".toList, "c".toList] :=
    @Lists.pieces _ " a.B".toList ["  ".toList, " c".toList] (by decide) (by decide) (by decide)
  have grammar := readSignature_grammar "int[] of$( a.B,  , c) throws (d)" .empty
  exact ⟨formed, spelled, (grammar.1 _).mpr ⟨parts, formed, spelled, rfl, rfl, lists⟩⟩

end NameTree

end ClearNames
