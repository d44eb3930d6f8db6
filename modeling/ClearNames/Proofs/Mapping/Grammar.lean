import ClearNames.Proofs.Mapping.Tokens

/-! The lines of a mapping are read as they were written.

A line is read as a shape exactly where each part of the shape is of its class
and the line is what the shape prints. The signature of a method line is read
back from it, provided that no blanks but spaces stand between its arguments.
-/

set_option autoImplicit false

namespace ClearNames

namespace Text

theorem after?_eq_some_iff {beginning text rest : List Char} :
    after? beginning text = some rest ↔ text = beginning ++ rest := by
  induction beginning generalizing text with
  | nil => simp [after?]
  | cons expected beginning ih =>
    cases text with
    | nil => simp [after?]
    | cons char text =>
      by_cases same : char = expected
      · simp [after?, same, ih]
      · simp [after?, same]

theorem cut_iff {mark : Char} {more text front rest : List Char} :
    (text.takeWhile (· != mark) = front ∧ after? (mark :: more) (text.dropWhile (· != mark)) = some rest) ↔
      mark ∉ front ∧ text = front ++ mark :: (more ++ rest) := by
  constructor
  · rintro ⟨rfl, found⟩
    refine ⟨fun member => by simpa using List.all_eq_true.mp List.all_takeWhile _ member, ?_⟩
    have parts : text.takeWhile (· != mark) ++ text.dropWhile (· != mark) = text := List.takeWhile_append_dropWhile
    rw [after?_eq_some_iff.mp found] at parts
    exact parts.symm
  · rintro ⟨free, rfl⟩
    have other : ∀ char ∈ front, (char != mark) = true := by
      intro char member
      simpa using fun same : char = mark => free (same ▸ member)
    rw [List.takeWhile_append_of_pos other, List.dropWhile_append_of_pos other]
    simp [after?_eq_some_iff]

end Text

namespace MappingLine

/-! ## Shapes -/

def IsRange (text : List Char) : Prop :=
  text = [] ∨ ∃ first second, first ≠ [] ∧ second ≠ [] ∧ (∀ char ∈ first, Text.isDecimalDigit char) ∧
    (∀ char ∈ second, Text.isDecimalDigit char) ∧ text = first ++ ':' :: (second ++ [':'])

/-- A return type, a name and an argument list as signatures put them together. -/
def spell (type name list : List Char) : List Char := type ++ ' ' :: (name ++ '(' :: (list ++ [')']))

/-- The shapes that lines have: each part is of its class. -/
inductive Written : MappingLine → Prop where
  | javaClass {name obfuscated : List Char} (isName : isClassPath name) (isTarget : isClassPath obfuscated) :
      Written (.javaClass (String.ofList name) (String.ofList obfuscated))
  | field {type name obfuscation : List Char} (isType : isTypeName type) (isName : isIdentifier name)
      (isTarget : isIdentifier obfuscation) :
      Written (.field (String.ofList type) (String.ofList name) (String.ofList obfuscation))
  | method {range type name list obfuscation : List Char} (isRange : IsRange range) (isType : isTypeName type)
      (isName : isIdentifier name) (isList : isArgumentList list) (isTarget : isIdentifier obfuscation) :
      Written (.method (String.ofList range) (String.ofList (spell type name list)) (String.ofList obfuscation))

/-! ## Marks that parts do not hold -/

theorem not_mem_of_isTypeName {text : List Char} {mark : Char} (isType : isTypeName text)
    (foreign : isReturnTypeChar mark = false) : mark ∉ text := by
  intro member
  rw [isReturnTypeChar_of_isTypeName isType member] at foreign
  cases foreign

theorem not_mem_of_isClassPath {text : List Char} {mark : Char} (isPath : isClassPath text)
    (foreign : isReturnTypeChar mark = false) : mark ∉ text := by
  intro member
  rw [isReturnTypeChar_of_isClassPath isPath member] at foreign
  cases foreign

theorem mem_isArgumentList {list : List Char} (isList : isArgumentList list) {char : Char} (member : char ∈ list) :
    isReturnTypeChar char ∨ char = ',' ∨ Text.isBlank char := by
  rw [← Text.joinWith_splitAt ',' list] at member
  simp only [isArgumentList, Bool.or_eq_true, List.isEmpty_iff] at isList
  rcases isList with rfl | isList
  · exact absurd member List.not_mem_nil
  rcases Text.mem_joinWith member with comma | ⟨piece, inside, holds⟩
  · exact Or.inr (Or.inl comma)
  -- The first piece is a type name, and each later one is one behind at most one blank.
  cases pieces : Text.splitAt ',' list with
  | nil =>
    rw [pieces] at inside
    exact absurd inside List.not_mem_nil
  | cons first rest =>
    rw [pieces] at isList inside
    simp only [Bool.and_eq_true, List.all_eq_true] at isList
    rcases List.mem_cons.mp inside with rfl | later
    · exact Or.inl (isReturnTypeChar_of_isTypeName isList.1 holds)
    have isLater := isList.2 piece later
    cases piece with
    | nil => exact absurd holds List.not_mem_nil
    | cons head tail =>
      simp only [isLaterArgument] at isLater
      split at isLater
      · next blank =>
        rcases List.mem_cons.mp holds with rfl | further
        · exact Or.inr (Or.inr blank)
        · exact Or.inl (isReturnTypeChar_of_isTypeName isLater further)
      · exact Or.inl (isReturnTypeChar_of_isTypeName isLater holds)

theorem paren_not_mem_of_isArgumentList {list : List Char} (isList : isArgumentList list) : ')' ∉ list := by
  intro member
  rcases mem_isArgumentList isList member with type | comma | blank
  · exact absurd type (by decide)
  · exact absurd comma (by decide)
  · exact absurd blank (by decide)

/-! ## Class and field lines -/

theorem parseClass?_eq_some_iff {line : List Char} {shape : MappingLine} :
    parseClass? line = some shape ↔ ∃ name obfuscated, isClassPath name ∧ isClassPath obfuscated ∧
      line = name ++ (arrow ++ (obfuscated ++ [':'])) ∧
      shape = .javaClass (String.ofList name) (String.ofList obfuscated) := by
  constructor
  · intro parsed
    unfold parseClass? at parsed
    simp only [Option.bind_eq_bind, Option.bind_eq_some_iff] at parsed
    obtain ⟨target, found, read⟩ := parsed
    obtain ⟨-, cut⟩ := Text.cut_iff.mp ⟨rfl, found⟩
    split at read
    · next valid =>
      simp only [Bool.and_eq_true, beq_iff_eq] at valid
      obtain ⟨⟨isName, isTarget⟩, colon⟩ := valid
      cases read
      refine ⟨_, _, isName, isTarget, ?_, rfl⟩
      obtain ⟨front, rfl⟩ := List.getLast?_eq_some_iff.mp colon
      rw [List.dropLast_concat]
      exact cut
    · cases read
  · rintro ⟨name, obfuscated, isName, isTarget, rfl, rfl⟩
    have free : ' ' ∉ name := not_mem_of_isClassPath isName (by decide)
    obtain ⟨taken, found⟩ := Text.cut_iff.mpr
      ⟨free, (rfl : _ = name ++ ' ' :: (['-', '>', ' '] ++ (obfuscated ++ [':'])))⟩
    simp only [List.cons_append, List.nil_append] at taken found
    simp [parseClass?, arrow, taken, found, isName, isTarget]

theorem parseField?_eq_some_iff {text : List Char} {shape : MappingLine} :
    parseField? text = some shape ↔ ∃ type name obfuscation, isTypeName type ∧ isIdentifier name ∧
      isIdentifier obfuscation ∧ text = type ++ ' ' :: (name ++ (arrow ++ obfuscation)) ∧
      shape = .field (String.ofList type) (String.ofList name) (String.ofList obfuscation) := by
  constructor
  · intro parsed
    unfold parseField? at parsed
    simp only [Option.bind_eq_bind, Option.bind_eq_some_iff] at parsed
    obtain ⟨afterType, typeFound, obfuscation, nameFound, read⟩ := parsed
    obtain ⟨-, cutType⟩ := Text.cut_iff.mp ⟨rfl, typeFound⟩
    obtain ⟨-, cutName⟩ := Text.cut_iff.mp ⟨rfl, nameFound⟩
    split at read
    · next valid =>
      simp only [Bool.and_eq_true] at valid
      obtain ⟨⟨isType, isName⟩, isTarget⟩ := valid
      cases read
      refine ⟨_, _, _, isType, isName, isTarget, ?_, rfl⟩
      exact cutType.trans (congrArg (_ ++ ' ' :: ·) cutName)
    · cases read
  · rintro ⟨type, name, obfuscation, isType, isName, isTarget, rfl, rfl⟩
    have typeFree : ' ' ∉ type := not_mem_of_isTypeName isType (by decide)
    have nameFree : ' ' ∉ name := not_mem_of_isIdentifier isName (by decide)
    obtain ⟨typeTaken, typeFound⟩ := Text.cut_iff.mpr
      ⟨typeFree, (rfl : _ = type ++ ' ' :: ([] ++ (name ++ (arrow ++ obfuscation))))⟩
    obtain ⟨nameTaken, nameFound⟩ := Text.cut_iff.mpr
      ⟨nameFree, (rfl : _ = name ++ ' ' :: (['-', '>', ' '] ++ obfuscation))⟩
    simp only [List.cons_append, List.nil_append, arrow] at typeTaken typeFound nameTaken nameFound
    simp [parseField?, arrow, typeTaken, typeFound, nameTaken, nameFound, isType, isName, isTarget]

/-! ## Method lines -/

theorem takeWhile_digits {digits : List Char} (all : ∀ char ∈ digits, Text.isDecimalDigit char) (rest : List Char) :
    (digits ++ ':' :: rest).takeWhile Text.isDecimalDigit = digits ∧
      (digits ++ ':' :: rest).dropWhile Text.isDecimalDigit = ':' :: rest := by
  have foreign : Text.isDecimalDigit ':' = false := by decide
  rw [List.takeWhile_append_of_pos all, List.dropWhile_append_of_pos all]
  simp [foreign]

theorem takeRange_spec (text : List Char) :
    IsRange (takeRange text).1 ∧ (takeRange text).1 ++ (takeRange text).2 = text := by
  unfold takeRange Option.getD
  dsimp only
  split
  · next result taken =>
    simp only [Option.bind_eq_bind, Option.bind_eq_some_iff] at taken
    obtain ⟨second, firstFound, rest, secondFound, read⟩ := taken
    split at read
    · cases read
    · next nonempty =>
      cases read
      simp only [Bool.or_eq_true, List.isEmpty_iff, not_or] at nonempty
      have digits (text : List Char) : ∀ char ∈ text.takeWhile Text.isDecimalDigit, Text.isDecimalDigit char :=
        fun char => List.all_eq_true.mp List.all_takeWhile char
      refine ⟨Or.inr ⟨_, _, nonempty.1, nonempty.2, digits text, digits second, by simp⟩, ?_⟩
      have firstParts : text.takeWhile Text.isDecimalDigit ++ text.dropWhile Text.isDecimalDigit = text :=
        List.takeWhile_append_dropWhile
      have secondParts : second.takeWhile Text.isDecimalDigit ++ second.dropWhile Text.isDecimalDigit = second :=
        List.takeWhile_append_dropWhile
      rw [Text.after?_eq_some_iff.mp secondFound] at secondParts
      rw [Text.after?_eq_some_iff.mp firstFound, ← secondParts] at firstParts
      simpa using firstParts
  · exact ⟨Or.inl rfl, rfl⟩

theorem takeRange_of_not_mem {front : List Char} {mark : Char} (free : ':' ∉ front) (other : mark ≠ ':')
    (foreign : Text.isDecimalDigit mark = false) (back : List Char) :
    takeRange (front ++ mark :: back) = ([], front ++ mark :: back) := by
  have stuck : Text.after? [':'] ((front ++ mark :: back).dropWhile Text.isDecimalDigit) = none := by
    -- Digits are passed over, and the first character that is none is no colon.
    induction front with
    | nil => simp [foreign, Text.after?, other]
    | cons char rest ih =>
      cases digit : Text.isDecimalDigit char with
      | true =>
        rw [List.cons_append, List.dropWhile_cons, if_pos digit]
        exact ih fun inside => free (List.mem_cons_of_mem char inside)
      | false =>
        have apart : char ≠ ':' := fun same => free (same ▸ List.mem_cons_self)
        simp [digit, Text.after?, apart]
  simp [takeRange, stuck]

theorem takeRange_append {range front : List Char} {mark : Char} (isRange : IsRange range) (free : ':' ∉ front)
    (other : mark ≠ ':') (foreign : Text.isDecimalDigit mark = false) (back : List Char) :
    takeRange (range ++ (front ++ mark :: back)) = (range, front ++ mark :: back) := by
  rcases isRange with rfl | ⟨first, second, firstSome, secondSome, firstDigits, secondDigits, rfl⟩
  · exact takeRange_of_not_mem free other foreign back
  · have outer := takeWhile_digits firstDigits (second ++ ':' :: (front ++ mark :: back))
    have inner := takeWhile_digits secondDigits (front ++ mark :: back)
    have digits : (first.isEmpty || second.isEmpty) = false := by simp [firstSome, secondSome]
    simp only [List.append_assoc, List.cons_append, List.nil_append, takeRange, outer, inner, Text.after?, if_true,
      Option.bind_eq_bind, Option.bind_some, digits]
    rfl

theorem parseMethod?_eq_some_iff {text : List Char} {shape : MappingLine} :
    parseMethod? text = some shape ↔ ∃ range type name list obfuscation, IsRange range ∧ isTypeName type ∧
      isIdentifier name ∧ isArgumentList list ∧ isIdentifier obfuscation ∧
      text = range ++ (spell type name list ++ (arrow ++ obfuscation)) ∧
      shape = .method (String.ofList range) (String.ofList (spell type name list)) (String.ofList obfuscation) := by
  constructor
  · intro parsed
    unfold parseMethod? at parsed
    obtain ⟨isRange, ranged⟩ := takeRange_spec text
    simp only [Option.bind_eq_bind, Option.bind_eq_some_iff] at parsed
    obtain ⟨afterType, typeFound, afterName, nameFound, afterList, listFound, obfuscation, arrowFound, read⟩ := parsed
    obtain ⟨-, cutType⟩ := Text.cut_iff.mp ⟨rfl, typeFound⟩
    obtain ⟨-, cutName⟩ := Text.cut_iff.mp ⟨rfl, nameFound⟩
    obtain ⟨-, cutList⟩ := Text.cut_iff.mp ⟨rfl, listFound⟩
    have target := Text.after?_eq_some_iff.mp arrowFound
    split at read
    · next valid =>
      simp only [Bool.and_eq_true] at valid
      obtain ⟨⟨⟨isType, isName⟩, isList⟩, isTarget⟩ := valid
      cases read
      refine ⟨_, _, _, _, _, isRange, isType, isName, isList, isTarget, ?_, by simp [spell]⟩
      simp only [List.nil_append] at cutType cutName cutList
      have line : (takeRange text).2 = _ := cutType.trans
        (congrArg (_ ++ ' ' :: ·) (cutName.trans (congrArg (_ ++ '(' :: ·) (cutList.trans
          (congrArg (_ ++ ')' :: ·) target)))))
      refine ranged.symm.trans (congrArg ((takeRange text).1 ++ ·) (line.trans ?_))
      simp [spell]
    · cases read
  · rintro ⟨range, type, name, list, obfuscation, isRange, isType, isName, isList, isTarget, rfl, rfl⟩
    have typeFree : ' ' ∉ type := not_mem_of_isTypeName isType (by decide)
    have nameFree : '(' ∉ name := not_mem_of_isIdentifier isName (by decide)
    have listFree := paren_not_mem_of_isArgumentList isList
    have colonFree : ':' ∉ type := not_mem_of_isTypeName isType (by decide)
    obtain ⟨typeTaken, typeFound⟩ := Text.cut_iff.mpr
      ⟨typeFree, (rfl : _ = type ++ ' ' :: ([] ++ (name ++ '(' :: (list ++ ')' :: (arrow ++ obfuscation)))))⟩
    obtain ⟨nameTaken, nameFound⟩ := Text.cut_iff.mpr
      ⟨nameFree, (rfl : _ = name ++ '(' :: ([] ++ (list ++ ')' :: (arrow ++ obfuscation))))⟩
    obtain ⟨listTaken, listFound⟩ := Text.cut_iff.mpr
      ⟨listFree, (rfl : _ = list ++ ')' :: ([] ++ (arrow ++ obfuscation)))⟩
    have ranged := takeRange_append isRange colonFree (show ' ' ≠ ':' by decide) (by decide)
      (name ++ '(' :: (list ++ ')' :: (arrow ++ obfuscation)))
    have target : Text.after? arrow (arrow ++ obfuscation) = some obfuscation := Text.after?_eq_some_iff.mpr rfl
    have line : spell type name list ++ (arrow ++ obfuscation) =
        type ++ ' ' :: (name ++ '(' :: (list ++ ')' :: (arrow ++ obfuscation))) := by simp [spell]
    simp only [List.nil_append] at typeTaken typeFound nameTaken nameFound listTaken listFound
    simp only [parseMethod?, line, ranged, typeTaken, typeFound, nameTaken, nameFound, listTaken, listFound, target,
      Option.bind_eq_bind, Option.bind_some, isType, isName, isList, isTarget, Bool.and_self, if_true]
    simp [spell]

/-! ## Lines -/

theorem parseField?_eq_none {text : List Char} (paren : '(' ∈ text) : parseField? text = none := by
  cases parsed : parseField? text with
  | none => rfl
  | some shape =>
    obtain ⟨type, name, obfuscation, isType, isName, isTarget, rfl, -⟩ := parseField?_eq_some_iff.mp parsed
    have typeFree : '(' ∉ type := not_mem_of_isTypeName isType (by decide)
    have nameFree : '(' ∉ name := not_mem_of_isIdentifier isName (by decide)
    have targetFree : '(' ∉ obfuscation := not_mem_of_isIdentifier isTarget (by decide)
    simp [typeFree, nameFree, targetFree, arrow] at paren

theorem parseClass?_indented (rest : List Char) : parseClass? (indentation ++ rest) = none := by
  cases parsed : parseClass? (indentation ++ rest) with
  | none => rfl
  | some shape =>
    obtain ⟨name, obfuscated, isName, -, line, -⟩ := parseClass?_eq_some_iff.mp parsed
    cases name with
    | nil => cases isName
    | cons first others =>
      cases (List.cons.inj line).1
      have free : ' ' ∉ ' ' :: others := not_mem_of_isClassPath isName (by decide)
      exact absurd List.mem_cons_self free

/-- A line is read as a shape exactly where its parts are of their classes and the line is what it prints. -/
theorem parse?_eq_some_iff {line : List Char} {shape : MappingLine} :
    parse? line = some shape ↔ shape.Written ∧ line = shape.print := by
  -- The readings are tried in turn, and what one of them reads is read by none before it.
  constructor
  · intro parsed
    unfold parse? at parsed
    cases asClass : parseClass? line with
    | some other =>
      obtain rfl : other = shape := by simpa [asClass] using parsed
      obtain ⟨name, obfuscated, isName, isTarget, rfl, rfl⟩ := parseClass?_eq_some_iff.mp asClass
      exact ⟨.javaClass isName isTarget, by simp [print]⟩
    | none =>
      rw [asClass] at parsed
      obtain ⟨text, indented, read⟩ := Option.bind_eq_some_iff.mp parsed
      obtain rfl := Text.after?_eq_some_iff.mp indented
      cases asField : parseField? text with
      | some other =>
        obtain rfl : other = shape := by simpa [asField] using read
        obtain ⟨type, name, obfuscation, isType, isName, isTarget, rfl, rfl⟩ := parseField?_eq_some_iff.mp asField
        exact ⟨.field isType isName isTarget, by simp [print]⟩
      | none =>
        rw [asField] at read
        obtain ⟨range, type, name, list, obfuscation, isRange, isType, isName, isList, isTarget, rfl, rfl⟩ :=
          parseMethod?_eq_some_iff.mp read
        exact ⟨.method isRange isType isName isList isTarget, by simp [print]⟩
  · rintro ⟨written, rfl⟩
    unfold parse?
    cases written with
    | @javaClass name obfuscated isName isTarget =>
      have read := parseClass?_eq_some_iff.mpr ⟨name, obfuscated, isName, isTarget, rfl, rfl⟩
      have line : print (.javaClass (String.ofList name) (String.ofList obfuscated)) =
          name ++ (arrow ++ (obfuscated ++ [':'])) := by simp [print]
      rw [line, read]
      rfl
    | @field type name obfuscation isType isName isTarget =>
      have read := parseField?_eq_some_iff.mpr ⟨type, name, obfuscation, isType, isName, isTarget, rfl, rfl⟩
      have line : print (.field (String.ofList type) (String.ofList name) (String.ofList obfuscation)) =
          indentation ++ (type ++ ' ' :: (name ++ (arrow ++ obfuscation))) := by simp [print]
      rw [line, parseClass?_indented]
      simp [parseMember?, Text.after?_eq_some_iff.mpr, read]
    | @method range type name list obfuscation isRange isType isName isList isTarget =>
      have read := parseMethod?_eq_some_iff.mpr
        ⟨range, type, name, list, obfuscation, isRange, isType, isName, isList, isTarget, rfl, rfl⟩
      have line : print (.method (String.ofList range) (String.ofList (spell type name list))
          (String.ofList obfuscation)) = indentation ++ (range ++ (spell type name list ++ (arrow ++ obfuscation))) := by
        simp [print]
      have paren : '(' ∈ range ++ (spell type name list ++ (arrow ++ obfuscation)) := by simp [spell]
      rw [line, parseClass?_indented]
      simp [parseMember?, Text.after?_eq_some_iff.mpr, parseField?_eq_none paren, read]

/-! ## Signatures -/

section
variable {type name list : List Char}

theorem parse?_spell (isType : isTypeName type) (isName : isIdentifier name) :
    Signature.parse? (String.ofList (spell type name list)) =
      (Text.after? [')'] ((list ++ [')']).dropWhile isArgumentListChar)).map fun _ =>
        ⟨String.ofList type, String.ofList name,
          (Signature.argumentDescriptors ((list ++ [')']).takeWhile isArgumentListChar)).map String.ofList⟩ := by
  have typeSome : type ≠ [] := by
    rintro rfl
    exact absurd isType (by decide)
  obtain ⟨nameSome, namePlain⟩ := isIdentifier_iff.mp isName
  exact Signature.parse?_ofList typeSome (fun _ => isReturnTypeChar_of_isTypeName isType) nameSome
    (fun char member => isMethodNameChar_of_isIdentifierChar (namePlain char member)) _

theorem takeWhile_list (free : ')' ∉ list)
    (closed : (Text.after? [')'] ((list ++ [')']).dropWhile isArgumentListChar)).isSome) :
    (list ++ [')']).takeWhile isArgumentListChar = list := by
  have foreign : isArgumentListChar ')' = false := by decide
  -- A character that signatures do not allow here would leave the list unclosed.
  induction list with
  | nil => simp [foreign]
  | cons char rest ih =>
    cases allowed : isArgumentListChar char with
    | true =>
      simp only [List.cons_append, List.takeWhile_cons, List.dropWhile_cons, allowed, if_true] at closed ⊢
      rw [ih (fun inside => free (List.mem_cons_of_mem char inside)) closed]
    | false =>
      have other : char ≠ ')' := fun same => free (same ▸ List.mem_cons_self)
      simp [allowed, Text.after?, other] at closed

theorem eq_of_parse?_spell (isType : isTypeName type) (isName : isIdentifier name) (isList : isArgumentList list)
    {signature : Signature} (read : Signature.parse? (String.ofList (spell type name list)) = some signature) :
    signature = ⟨String.ofList type, String.ofList name,
      (Signature.argumentDescriptors list).map String.ofList⟩ := by
  rw [parse?_spell isType isName, Option.map_eq_some_iff] at read
  obtain ⟨rest, closed, rfl⟩ := read
  rw [takeWhile_list (paren_not_mem_of_isArgumentList isList) (by rw [closed]; rfl)]

/-- The one blank that signatures allow between arguments. -/
def Spaced (text : List Char) : Prop := ∀ char ∈ text, Text.isBlank char → char = ' '

instance (text : List Char) : Decidable (Spaced text) := List.decidableBAll _ text

theorem parse?_spell_of_spaced (isType : isTypeName type) (isName : isIdentifier name)
    (isList : isArgumentList list) (spaced : Spaced list) :
    Signature.parse? (String.ofList (spell type name list)) =
      some ⟨String.ofList type, String.ofList name, (Signature.argumentDescriptors list).map String.ofList⟩ := by
  have listed : ∀ char ∈ list, isArgumentListChar char := by
    intro char member
    rcases mem_isArgumentList isList member with type | rfl | blank
    · exact isArgumentListChar_of_isReturnTypeChar type
    · rfl
    · rw [spaced char member blank]
      rfl
  have foreign : isArgumentListChar ')' = false := by decide
  rw [parse?_spell isType isName, List.takeWhile_append_of_pos listed, List.dropWhile_append_of_pos listed]
  simp [foreign, Text.after?]

end

section
variable {range text obfuscation : String}

/-- The types of a method line are type names still when its signature is read. -/
theorem isTypeName_of_parse? (written : Written (.method range text obfuscation)) {signature : Signature}
    (read : Signature.parse? text = some signature) :
    isTypeName signature.returns.toList ∧ ∀ argument ∈ signature.arguments, isTypeName argument.toList := by
  cases written with
  | method _ isType isName isList _ =>
    obtain rfl := eq_of_parse?_spell isType isName isList read
    refine ⟨by simpa using isType, fun argument member => ?_⟩
    obtain ⟨piece, inside, rfl⟩ := List.mem_map.mp member
    rw [String.toList_ofList]
    exact isTypeName_of_mem_argumentDescriptors isList inside

theorem exists_parse?_of_spaced (written : Written (.method range text obfuscation)) (spaced : Spaced text.toList) :
    ∃ signature, Signature.parse? text = some signature := by
  cases written with
  | method _ isType isName isList _ =>
    refine ⟨_, parse?_spell_of_spaced isType isName isList fun char member => ?_⟩
    exact spaced char (by simp [spell, member])

theorem isClassPath_of_written {name obfuscated : String} (written : Written (.javaClass name obfuscated)) :
    isClassPath name.toList ∧ isClassPath obfuscated.toList := by
  cases written with
  | javaClass isName isTarget => simp [isName, isTarget]

theorem isIdentifier_of_written (written : Written (.method range text obfuscation)) :
    isIdentifier obfuscation.toList := by
  cases written with
  | method _ _ _ _ isTarget => simpa using isTarget

end

end MappingLine

end ClearNames
