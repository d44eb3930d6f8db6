import ClearNames.Proofs.NameTree.FullNames
import ClearNames.Proofs.NameTree.Spelling
import ClearNames.Proofs.Signature

/-! Methods by the signatures that they are printed with.

Each method is as the signature spells it that it was made by, with the result
type resolved behind the argument types. Where signatures spell types plainly,
the printed method is that signature with a blank after each comma, and leads
back to the method and to its types.
-/

set_option autoImplicit false

namespace ClearNames

namespace Signature

/-- The types of a signature are spelled plainly. -/
def Plain (signature : Signature) : Prop :=
  PlainType signature.returns ∧ ∀ argument ∈ signature.arguments, PlainType argument

theorem isName_of_parse? {text : String} {signature : Signature} (parsed : parse? text = some signature) :
    IsName signature.name := by
  simp only [parse?, Option.bind_eq_bind, Option.bind_eq_some_iff] at parsed
  obtain ⟨afterReturns, -, afterName, -, _, -, ends⟩ := parsed
  split at ends
  · cases ends
  · next solid =>
    cases ends
    simp only [Bool.or_eq_true, List.isEmpty_iff, not_or] at solid
    rw [IsName, String.toList_ofList]
    exact ⟨solid.2, List.all_eq_true.mp List.all_takeWhile⟩

end Signature

theorem PlainType.isType {descriptor : String} (plain : PlainType descriptor) : Signature.IsType descriptor := by
  obtain ⟨parts, count, nonempty, identifiers, rfl⟩ := plain
  have dot : ".".toList = ['.'] := rfl
  have joined : (".".intercalate parts).toList = Text.joinWith '.' (parts.map String.toList) := by
    rw [String.toList_intercalate, dot, Text.joinWith_eq_intercalate]
  rw [Signature.IsType, String.toList_append, joined]
  constructor
  · cases parts with
    | nil => exact absurd rfl nonempty
    | cons first rest =>
      have solid := (MappingLine.isIdentifier_iff.mp (identifiers first List.mem_cons_self)).1
      cases rest <;> simp [Text.joinWith, solid]
  · intro char member
    rcases List.mem_append.mp member with inName | inSuffix
    · rcases Text.mem_joinWith inName with rfl | ⟨_, inside, holds⟩
      · rfl
      · obtain ⟨part, given, rfl⟩ := List.mem_map.mp inside
        have plain := (MappingLine.isIdentifier_iff.mp (identifiers part given)).2 char holds
        exact MappingLine.isReturnTypeChar_of_isIdentifierChar plain
    · exact MappingLine.isReturnTypeChar_of_mem_replicate inSuffix

namespace NameTree

/-- A method is as a signature spells it: its name, its result type and its argument types. -/
structure SignedBy (tree : NameTree) (signature : Signature) (id : MethodId) : Prop where
  name : (tree.method id).name = signature.name
  returns : tree.Spells signature.returns (tree.method id).returns
  arguments : List.Forall₂ tree.Spells signature.arguments (tree.method id).arguments

/-- All nodes stay, and a method that is new is as the signature spells it that was asked for. -/
structure Signs (asked : Option Signature) (tree later : NameTree) : Prop where
  keeps : tree.Keeps later
  formed : tree.Formed → later.Formed
  signed : tree.Formed → ∀ id, later.HasMethod id → ¬ tree.HasMethod id → ∃ signature ∈ asked, later.SignedBy signature id

section
variable {asked : Option Signature} {tree between later : NameTree}

theorem SignedBy.keeps {signature : Signature} {id : MethodId} (signed : tree.SignedBy signature id)
    (founded : tree.Founded) (known : tree.HasMethod id) (keeps : tree.Keeps later) : later.SignedBy signature id where
  name := (keeps.method_name known).trans signed.name
  returns := by
    rw [keeps.method_returns known]
    exact keeps.spells founded signed.returns
  arguments := by
    rw [keeps.method_arguments known]
    exact signed.arguments.imp fun _ _ => keeps.spells founded

theorem Signs.of_methods (keeps : tree.Keeps later) (formed : tree.Formed → later.Formed)
    (methods : ∀ id, later.HasMethod id → tree.HasMethod id) : Signs asked tree later :=
  ⟨keeps, formed, fun _ id known new => absurd (methods id known) new⟩

theorem Signs.refl (asked : Option Signature) (tree : NameTree) : Signs asked tree tree :=
  .of_methods (.refl tree) id fun _ => id

theorem Signs.trans (first : Signs asked tree between) (second : Signs asked between later) : Signs asked tree later where
  keeps := first.keeps.trans second.keeps
  formed := second.formed ∘ first.formed
  signed formed id known new := by
    -- A method that is new in the end was made on the first way, and kept since, or on the second.
    have formedBetween := first.formed formed
    by_cases old : between.HasMethod id
    · obtain ⟨signature, given, signed⟩ := first.signed formed id old new
      exact ⟨signature, given, signed.keeps formedBetween.founded old second.keeps⟩
    · exact second.signed formedBetween id known old

instance (asked : Option Signature) : Std.Refl (Signs asked) := ⟨Signs.refl asked⟩

instance (asked : Option Signature) : Trans (Signs asked) (Signs asked) (Signs asked) := ⟨Signs.trans⟩

theorem Grown.signs {fits : List String → Prop} (grown : Grown fits tree later) : Signs asked tree later := by
  refine .of_methods grown.keeps grown.formed fun id known => ?_
  rwa [HasMethod, ← grown.methods]

theorem Mark.signs (mark : Mark tree later) : Signs asked tree later :=
  .of_methods mark.alike.keeps (fun formed => formed.edit (.mark mark)) fun _ => mark.alike.hasMethod.mp

theorem signs_addMethod {signature : Signature} {owner : ClassId} {returns : TypeUse} {arguments : List TypeUse}
    (given : signature ∈ asked) (grounded : tree.Grounded (.method owner signature.name returns arguments))
    (returned : tree.Spells signature.returns returns)
    (argued : List.Forall₂ tree.Spells signature.arguments arguments) :
    Signs asked tree (tree.add (.method owner signature.name returns arguments)) := by
  have keeps := keeps_add grounded
  refine ⟨keeps, fun formed => formed.edit (.add grounded), fun formed id known new => ⟨signature, given, ?_⟩⟩
  obtain ⟨rfl, -⟩ := new_method known new
  have made : (tree.add (.method owner signature.name returns arguments)).method ⟨tree.methods.size⟩ =
      ⟨signature.name, owner, returns, arguments, none⟩ :=
    (method_addMethod signature.name returns arguments _).trans (if_pos rfl)
  refine ⟨by rw [made], ?_, ?_⟩
  · rw [made]
    exact keeps.spells formed.founded returned
  · rw [made]
    exact argued.imp fun _ _ => keeps.spells formed.founded

theorem admits_signs (asked : Option Signature) : Admits (Signs asked) asked where
  keeps := Signs.keeps
  formed := Signs.formed
  grown := Grown.signs
  mark mark _ := mark.signs
  method given grounded _ returned argued := signs_addMethod given grounded returned argued

end

end NameTree

theorem Request.isName_of_signature? {request : Request} {signature : Signature}
    (asked : request.signature? = some signature) : Signature.IsName signature.name := by
  cases request with
  | scope | base | type | aliasScope => cases asked
  | method | aliasMethod | registerMethod => exact Signature.isName_of_parse? asked

namespace NameTree

/-- Every method is as a signature spells it that has a name and plain types. -/
def Signed (tree : NameTree) : Prop :=
  ∀ id, tree.HasMethod id →
    ∃ signature : Signature, signature.Plain ∧ Signature.IsName signature.name ∧ tree.SignedBy signature id

/-- A tree that a run of requests, and of searches for sources, leads to from the empty one,
where signatures spell all types plainly. -/
inductive PlainlySigned : NameTree → Prop where
  | empty : PlainlySigned empty
  | after {tree : NameTree} {request : Request} (signed : PlainlySigned tree) (held : request.Held tree)
      (plain : ∀ signature, request.signature? = some signature → signature.Plain) : PlainlySigned (request.after tree)
  | located {tree : NameTree} {disk : Disk} {directory : String} {target : Sources.Target} {found : Sources.Located}
      (signed : PlainlySigned tree) (located : Sources.locate disk directory tree target = .ok found) :
      PlainlySigned found.tree

section
variable {asked : Option Signature} {tree later : NameTree}

theorem Signed.signs (signed : tree.Signed) (formed : tree.Formed) (signs : Signs asked tree later)
    (plain : ∀ signature ∈ asked, signature.Plain ∧ Signature.IsName signature.name) : later.Signed := by
  intro id known
  by_cases old : tree.HasMethod id
  · obtain ⟨signature, typed, named, signed⟩ := signed id old
    exact ⟨signature, typed, named, signed.keeps formed.founded old signs.keeps⟩
  · obtain ⟨signature, given, signed⟩ := signs.signed formed id known old
    obtain ⟨typed, named⟩ := plain signature given
    exact ⟨signature, typed, named, signed⟩

theorem Marked.signs (marked : Marked tree later) : Signs asked tree later := by
  induction marked with
  | refl => exact .refl asked tree
  | tail _ mark ih => exact ih.trans mark.signs

theorem PlainlySigned.requested (signed : PlainlySigned tree) : Requested tree := by
  induction signed with
  | empty => exact .empty
  | after _ held _ ih => exact .after ih held
  | located _ located ih => exact .located ih located

theorem PlainlySigned.signed (signed : PlainlySigned tree) : tree.Signed := by
  induction signed with
  | empty => exact fun _ known => absurd known (Nat.not_lt_zero _)
  | after signed held plain ih =>
    have formed := signed.requested.natural.formed
    refine ih.signs formed (Request.moves_after formed held (admits_signs _)) fun signature given => ?_
    exact ⟨plain signature given, Request.isName_of_signature? given⟩
  | located signed located ih =>
    have signs : Signs none _ _ := (Sources.locate_marked located).signs
    exact ih.signs signed.requested.natural.formed signs fun _ given => by cases given

end

/-! ## Names that lead back -/

section
variable {tree : NameTree}

theorem Natural.on_resolveType_of_spells (natural : tree.Natural) {descriptor : String} {type : TypeUse}
    (spells : tree.Spells descriptor type) : (resolveType descriptor).on tree = (.ok type, tree) := by
  obtain ⟨base, dimension⟩ := type
  obtain ⟨denotes, rfl⟩ := spells
  have resolved : (resolveBase (Descriptor.ofString descriptor).base).on tree = (.ok base, tree) := by
    unfold resolveBase
    cases base with
    | primitive primitive =>
      have named : Primitive.named? (Descriptor.ofString descriptor).base = some primitive := denotes
      rw [named]
      rfl
    | scope scope =>
      obtain ⟨unnamed, known, path⟩ := denotes
      have name : tree.scopeName scope = (Descriptor.ofString descriptor).base := by
        rw [scopeName, path, intercalate_segments]
      have found := natural.on_resolve_of_find? (natural.find?_scopeName known)
      rw [name] at found
      rw [unnamed]
      exact (Growth.on_map tree _ _).trans (by rw [found]; rfl)
  exact Growth.on_bind_of_ok resolved _

theorem Natural.on_resolveTypes_of_spelled (natural : tree.Natural) {descriptors : List String} {types : List TypeUse}
    (spelled : List.Forall₂ tree.Spells descriptors types) :
    (resolveTypes descriptors).on tree = (.ok types, tree) := by
  induction spelled with
  | nil => rfl
  | cons spells _ ih =>
    unfold resolveTypes
    rw [Growth.on_bind_of_ok (natural.on_resolveType_of_spells spells), Growth.on_bind_of_ok ih]
    rfl

def signatureOf (tree : NameTree) (id : MethodId) : Signature :=
  ⟨tree.typeName (tree.method id).returns, (tree.method id).name, (tree.method id).arguments.map tree.typeName⟩

theorem methodName_eq (tree : NameTree) (id : MethodId) : tree.methodName id = (tree.signatureOf id).print := rfl

theorem SignedBy.signatureOf_eq {signature : Signature} {id : MethodId} (signed : tree.SignedBy signature id)
    (plain : signature.Plain) : tree.signatureOf id = signature := by
  rw [signatureOf, typeName_of_plain plain.1 signed.returns, signed.name, typeNames_of_plain plain.2 signed.arguments]

/-- **Printed methods lead back.** Where signatures spell types plainly, the text of a
method is read as its types and its name, each printed type is resolved to that
type, and the whole text to the method; none of it makes anything. -/
theorem PlainlySigned.methodName_leads_back (reached : PlainlySigned tree) {owner : ClassId} {id : MethodId}
    (member : id ∈ (tree.javaClass owner).methods.values) :
    Signature.parse? (tree.methodName id) = some ⟨tree.typeName (tree.method id).returns, (tree.method id).name,
        (tree.method id).arguments.map tree.typeName⟩ ∧
      (∀ type ∈ (tree.method id).returns :: (tree.method id).arguments,
        (resolveType (tree.typeName type)).on tree = (.ok type, tree)) ∧
      (resolveMethod owner (tree.methodName id)).on tree = (.ok id, tree) := by
  -- The method was made by a plain signature, and that is what it is printed with.
  have natural := reached.requested.natural
  obtain ⟨key, entry⟩ := OrderedTable.mem_values.mp member
  obtain ⟨known, rfl, -⟩ := natural.formed.entered.method entry
  obtain ⟨signature, plain, named, signed⟩ := reached.signed id known
  have printed := signed.signatureOf_eq plain
  have parsed : Signature.parse? (tree.methodName id) = some signature := by
    rw [methodName_eq, printed]
    exact Signature.parse?_print plain.1.isType named fun argument given => (plain.2 argument given).isType
  refine ⟨parsed.trans (congrArg some printed.symm), ?_, ?_⟩
  · have spelled : tree.PlainlySpelled ((tree.method id).returns :: (tree.method id).arguments) :=
      ⟨signature.returns :: signature.arguments, List.forall_mem_cons.mpr plain, .cons signed.returns signed.arguments⟩
    have names := List.forall₂_same.mp (List.forall₂_map_left_iff.mp spelled.names)
    exact fun type given => natural.on_resolveType_of_spells (names type given)
  · have found : tree.findMethod owner signature.name (tree.method id).arguments = some id := by
      rw [← signed.name]
      exact OrderedTable.find?_eq_some_of_mem (natural.formed.entered.methodKeys owner) entry
    have read : (readSignature (tree.methodName id)).on tree = (.ok signature, tree) := by
      rw [readSignature, parsed]
      rfl
    unfold resolveMethod
    rw [Growth.on_bind_of_ok read, Growth.on_bind_of_ok (natural.on_resolveTypes_of_spelled signed.arguments)]
    exact Growth.on_findOrAddMethod_of_found found

/-- A method with an array of an inner class, a package for a type, and an array of a primitive. -/
def stall : NameTree :=
  Request.after .empty (.registerMethod (.named "fair.Stall") "fair.Stall.Lot[][] open(coin,int[])" "a")

theorem plainlySigned_stall : PlainlySigned stall := by
  refine .after .empty trivial fun signature asked => ?_
  have spelled : Signature.parse? "fair.Stall.Lot[][] open(coin,int[])" =
      some ⟨"fair.Stall.Lot[][]", "open", ["coin", "int[]"]⟩ := by decide +kernel
  cases asked.symm.trans spelled
  refine ⟨⟨["fair", "Stall", "Lot"], 2, by decide, by decide, by decide +kernel⟩, fun argument given => ?_⟩
  rcases List.mem_cons.mp given with rfl | given
  · exact ⟨["coin"], 0, by decide, by decide, by decide +kernel⟩
  · cases List.mem_singleton.mp given
    exact ⟨["int"], 1, by decide, by decide, by decide +kernel⟩

theorem methodName_leads_back_stall :
    PlainlySigned stall ∧ ⟨0⟩ ∈ (stall.javaClass ⟨0⟩).methods.values ∧
      Signature.parse? "fair.Stall.Lot[][] open(coin, int[])" =
        some ⟨"fair.Stall.Lot[][]", "open", ["coin", "int[]"]⟩ ∧
      (resolveType "coin").on stall = (.ok ⟨.scope (.package ⟨1⟩), 0⟩, stall) ∧
      (resolveMethod ⟨0⟩ "fair.Stall.Lot[][] open(coin, int[])").on stall = (.ok ⟨0⟩, stall) := by
  have member : ⟨0⟩ ∈ (stall.javaClass ⟨0⟩).methods.values := by decide +kernel
  have printed : stall.methodName ⟨0⟩ = "fair.Stall.Lot[][] open(coin, int[])" := by decide +kernel
  have returns : stall.typeName (stall.method ⟨0⟩).returns = "fair.Stall.Lot[][]" := by decide +kernel
  have name : (stall.method ⟨0⟩).name = "open" := by decide +kernel
  have arguments : (stall.method ⟨0⟩).arguments.map stall.typeName = ["coin", "int[]"] := by decide +kernel
  have coin : ⟨.scope (.package ⟨1⟩), 0⟩ ∈ (stall.method ⟨0⟩).returns :: (stall.method ⟨0⟩).arguments := by
    decide +kernel
  have coinName : stall.typeName ⟨.scope (.package ⟨1⟩), 0⟩ = "coin" := by decide +kernel
  obtain ⟨parsed, resolved, found⟩ := plainlySigned_stall.methodName_leads_back member
  rw [printed] at parsed found
  rw [returns, name, arguments] at parsed
  have back := resolved _ coin
  rw [coinName] at back
  exact ⟨plainlySigned_stall, member, parsed, back, found⟩

end

end NameTree

end ClearNames
