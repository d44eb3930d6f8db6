import ClearNames.Proofs.Mapping.Trees
import ClearNames.Proofs.Mapping.Grammar
import ClearNames.Proofs.NameTree.Spelling

/-! What a registration does to the obfuscations of methods.

A method is told by its class, its name and its arguments as type names. Where
another method of the class and the arguments carries the obfuscation, nothing
changes; else the method takes it, and gives up what it carried before.
-/

set_option autoImplicit false

namespace ClearNames

namespace MappingLine

theorem eq_replicate_of_isArraySuffix {suffix : List Char} (isSuffix : isArraySuffix suffix) :
    suffix = (String.join (List.replicate (stripArrays suffix).2 "[]")).toList := by
  have brackets : "[]".toList = ['[', ']'] := rfl
  induction suffix using isArraySuffix.induct with
  | case1 => rfl
  | case2 rest ih =>
    rw [isArraySuffix] at isSuffix
    have tail := ih isSuffix
    simp only [stripArrays, List.replicate_succ, String.join_cons, String.toList_append, brackets]
    rw [← tail]
    rfl
  | case3 text nonempty other =>
    rw [isArraySuffix.eq_3 text nonempty other] at isSuffix
    cases isSuffix

theorem eq_of_isTypeName {text : String} (isType : isTypeName text.toList) :
    text = (Descriptor.ofString text).base ++
      String.join (List.replicate (Descriptor.ofString text).dimension "[]") := by
  simp only [isTypeName, Bool.and_eq_true] at isType
  have free : '[' ∉ text.toList.takeWhile (· != '[') := by
    intro member
    simpa using List.all_eq_true.mp List.all_takeWhile _ member
  have split := stripArrays_append free (text.toList.dropWhile (· != '['))
  rw [List.takeWhile_append_dropWhile, stripArrays_of_isArraySuffix isType.2, List.append_nil] at split
  apply String.toList_injective
  rw [String.toList_append]
  simp only [Descriptor.ofString, split, String.toList_ofList]
  rw [← eq_replicate_of_isArraySuffix isType.2, List.takeWhile_append_dropWhile]

end MappingLine

namespace Mapping
open NameTree MappingLine

/-! ## Type names and types -/

def NamesType (tree : NameTree) (descriptor : String) (type : TypeUse) : Prop :=
  isTypeName descriptor.toList ∧ tree.Spells descriptor type

section
variable {tree later : NameTree}

theorem rightUnique_namesType (natural : tree.Natural) : Relator.RightUnique (NamesType tree) :=
  fun _ _ _ first second => natural.rightUnique_spells first.2 second.2

theorem leftUnique_namesType : Relator.LeftUnique (NamesType tree) := by
  rintro first second type ⟨firstType, spells⟩ ⟨secondType, spellsSecond⟩
  rw [eq_of_isTypeName firstType, eq_of_isTypeName secondType, ← typeName_of_spells spells,
    typeName_of_spells spellsSecond]

theorem forall₂_namesType {descriptors : List String} {types : List TypeUse}
    (typed : ∀ descriptor ∈ descriptors, isTypeName descriptor.toList)
    (spelled : List.Forall₂ tree.Spells descriptors types) : List.Forall₂ (NamesType tree) descriptors types := by
  induction spelled with
  | nil => exact .nil
  | cons spells _ ih =>
    refine .cons ⟨typed _ List.mem_cons_self, spells⟩ (ih fun other member => ?_)
    exact typed other (List.mem_cons_of_mem _ member)

theorem namesType_iff (keeps : tree.Keeps later) (founded : tree.Founded) {descriptor : String} {type : TypeUse}
    (known : tree.HasType type) : NamesType later descriptor type ↔ NamesType tree descriptor type := by
  refine and_congr_right fun _ => ⟨fun spells => ?_, keeps.spells founded⟩
  obtain ⟨primitive | scope, dimension⟩ := type
  · exact spells
  · obtain ⟨⟨unnamed, -, path⟩, dimensioned⟩ := spells
    exact ⟨⟨unnamed, known, (keeps.scopeSegments founded known).symm.trans path⟩, dimensioned⟩

end

/-! ## Renamings -/

/-- An obfuscation that a method of a class is given, the types of its arguments by their names. -/
structure Renaming where
  owner : String
  name : String
  arguments : List String
  obfuscation : String
  deriving DecidableEq, Repr

namespace Renaming

def SameMethod (one other : Renaming) : Prop :=
  one.owner = other.owner ∧ one.name = other.name ∧ one.arguments = other.arguments

instance (one other : Renaming) : Decidable (SameMethod one other) := inferInstanceAs (Decidable (_ ∧ _))

def SameClaim (one other : Renaming) : Prop :=
  one.owner = other.owner ∧ one.arguments = other.arguments ∧ one.obfuscation = other.obfuscation

instance (one other : Renaming) : Decidable (SameClaim one other) := inferInstanceAs (Decidable (_ ∧ _))

theorem SameMethod.eq {one other : Renaming} (same : one.SameMethod other)
    (obfuscation : one.obfuscation = other.obfuscation) : one = other := by
  obtain ⟨owner, name, arguments, _⟩ := one
  obtain ⟨rfl, rfl, rfl⟩ := same
  cases obfuscation
  rfl

end Renaming

structure IsOf (tree : NameTree) (given : Renaming) (id : MethodId) : Prop where
  known : tree.HasMethod id
  owner : tree.classSegments (tree.method id).owner = segments given.owner
  name : (tree.method id).name = given.name
  arguments : List.Forall₂ (NamesType tree) given.arguments (tree.method id).arguments

def Carries (tree : NameTree) (given : Renaming) : Prop :=
  ∃ id, IsOf tree given id ∧ (tree.method id).obfuscation = some given.obfuscation

section
variable {tree later : NameTree} {given other : Renaming}

theorem known_of_obfuscation {id : MethodId} {text : String} (carries : (tree.method id).obfuscation = some text) :
    tree.HasMethod id := by
  by_contra unknown
  rw [method_of_not_has unknown] at carries
  cases carries

theorem isOf_iff (keeps : tree.Keeps later) (founded : tree.Founded) {id : MethodId} (known : tree.HasMethod id) :
    IsOf later given id ↔ IsOf tree given id := by
  have placed := founded.method known
  have segmentsOf : later.classSegments (tree.method id).owner = tree.classSegments (tree.method id).owner :=
    keeps.scopeSegments founded (show tree.HasScope (.javaClass (tree.method id).owner) from placed.1)
  have arguments : List.Forall₂ (NamesType later) given.arguments (tree.method id).arguments ↔
      List.Forall₂ (NamesType tree) given.arguments (tree.method id).arguments := by
    have types := placed.2.2
    generalize (tree.method id).arguments = held at types
    generalize given.arguments = spelled
    induction held generalizing spelled with
    | nil => simp
    | cons type rest ih =>
      have first := types type List.mem_cons_self
      have others := ih fun other member => types other (List.mem_cons_of_mem type member)
      cases spelled with
      | nil => simp
      | cons descriptor more => simp only [List.forall₂_cons, namesType_iff keeps founded first, others]
  constructor
  · rintro ⟨-, owner, name, spelled⟩
    rw [keeps.method_owner known, segmentsOf] at owner
    rw [keeps.method_name known] at name
    rw [keeps.method_arguments known] at spelled
    exact ⟨known, owner, name, arguments.mp spelled⟩
  · rintro ⟨-, owner, name, spelled⟩
    refine ⟨keeps.hasMethod known, ?_, (keeps.method_name known).trans name, ?_⟩
    · rw [keeps.method_owner known, segmentsOf, owner]
    · rw [keeps.method_arguments known]
      exact arguments.mpr spelled

theorem carries_iff (keeps : tree.Keeps later) (founded : tree.Founded)
    (same : ∀ id, (later.method id).obfuscation = (tree.method id).obfuscation) :
    Carries later given ↔ Carries tree given := by
  constructor
  · rintro ⟨id, isOf, carries⟩
    rw [same] at carries
    exact ⟨id, (isOf_iff keeps founded (known_of_obfuscation carries)).mp isOf, carries⟩
  · rintro ⟨id, isOf, carries⟩
    exact ⟨id, (isOf_iff keeps founded isOf.known).mpr isOf, (same id).trans carries⟩

theorem IsOf.findMethod (natural : tree.Natural) {id : MethodId} (isOf : IsOf tree given id) {owner : ClassId}
    (known : tree.HasClass owner) (path : tree.classSegments owner = segments given.owner) {types : List TypeUse}
    (spelled : List.Forall₂ (NamesType tree) given.arguments types) :
    (tree.method id).owner = owner ∧ (tree.method id).arguments = types ∧
      tree.findMethod owner given.name types = some id := by
  have placed := natural.method isOf.known
  have twins : Scope.javaClass (tree.method id).owner = .javaClass owner := natural.eq_of_scopeSegments_eq
    (natural.formed.founded.method isOf.known).1 known (isOf.owner.trans path.symm)
  obtain rfl : (tree.method id).owner = owner := by injection twins
  obtain rfl : (tree.method id).arguments = types :=
    List.right_unique_forall₂' (rightUnique_namesType natural) isOf.arguments spelled
  refine ⟨rfl, rfl, ?_⟩
  rw [← isOf.name]
  exact OrderedTable.find?_eq_some_of_mem (natural.formed.entered.methodKeys _) placed

theorem IsOf.sameMethod {id : MethodId} (one : IsOf tree given id) (two : IsOf tree other id) :
    given.SameMethod other := by
  refine ⟨segments_injective (one.owner.symm.trans two.owner), one.name.symm.trans two.name, ?_⟩
  exact List.left_unique_forall₂' leftUnique_namesType one.arguments two.arguments

end

/-! ## One registration -/

section
variable {tree later : NameTree} {claim : Renaming} {owner : ClassId} {types : List TypeUse}

/-- Another method holds the obfuscation exactly where another renaming with that claim is carried. -/
theorem exists_rival_iff (natural : tree.Natural) (known : tree.HasClass owner)
    (path : tree.classSegments owner = segments claim.owner)
    (spelled : List.Forall₂ (NamesType tree) claim.arguments types) :
    (∃ rival, Carries tree rival ∧ rival.SameClaim claim ∧ rival.name ≠ claim.name) ↔
      ∃ holder, tree.HoldsInstead owner claim.name types claim.obfuscation holder := by
  have entered := natural.formed.entered
  constructor
  · rintro ⟨rival, ⟨id, isOf, carries⟩, ⟨sameOwner, sameArguments, sameObfuscation⟩, otherName⟩
    rw [← sameOwner] at path
    rw [← sameArguments] at spelled
    obtain ⟨-, argued, found⟩ := isOf.findMethod natural known path spelled
    have member := OrderedTable.mem_values.mpr ⟨_, OrderedTable.mem_of_find?_eq_some found⟩
    refine ⟨id, member, argued, sameObfuscation ▸ carries, fun here => ?_⟩
    -- The method of the claimed name is another one, as it has this name.
    obtain ⟨-, keyed, -⟩ := entered.method (OrderedTable.mem_of_find?_eq_some here)
    exact otherName (isOf.name.symm.trans (congrArg Prod.fst keyed))
  · rintro ⟨holder, member, argued, carries, apart⟩
    obtain ⟨key, entry⟩ := OrderedTable.mem_values.mp member
    obtain ⟨there, keyed, owned⟩ := entered.method entry
    let rival : Renaming := ⟨claim.owner, (tree.method holder).name, claim.arguments, claim.obfuscation⟩
    have isOf : IsOf tree rival holder := ⟨there, by rw [owned, path], rfl, by rw [argued]; exact spelled⟩
    refine ⟨rival, ⟨holder, isOf, carries⟩, ⟨rfl, rfl, rfl⟩, fun same => apart ?_⟩
    rw [← same]
    exact (isOf.findMethod natural known path spelled).2.2

theorem carries_of_registers (natural : tree.Natural) (laterNatural : later.Natural) (keeps : tree.Keeps later)
    (known : tree.HasClass owner) (path : tree.classSegments owner = segments claim.owner)
    (spelled : List.Forall₂ (NamesType later) claim.arguments types) {id : MethodId}
    (registers : Growth.Registers tree later owner claim.name types claim.obfuscation id) (given : Renaming) :
    Carries later given ↔ given = claim ∨ Carries tree given ∧ ¬ given.SameMethod claim := by
  have founded := natural.formed.founded
  have knownLater : later.HasClass owner := keeps.hasClass known
  have pathLater : later.classSegments owner = segments claim.owner :=
    (keeps.scopeSegments founded (show tree.HasScope (.javaClass owner) from known)).trans path
  obtain ⟨there, keyed, owned⟩ := laterNatural.formed.entered.method (OrderedTable.mem_of_find?_eq_some registers.found)
  obtain ⟨named, argued⟩ := Prod.mk.inj keyed
  have isOf : IsOf later claim id := ⟨there, by rw [owned, pathLater], named, by rw [argued]; exact spelled⟩
  constructor
  · rintro ⟨method, methodOf, carries⟩
    by_cases same : method = id
    · subst same
      rw [registers.carries] at carries
      exact .inl ((methodOf.sameMethod isOf).eq (Option.some.inj carries).symm)
    · right
      rw [registers.others method same] at carries
      have before := (isOf_iff keeps founded (known_of_obfuscation carries)).mp methodOf
      refine ⟨⟨method, before, carries⟩, fun sameMethod => same ?_⟩
      -- One key stands for one method only.
      obtain ⟨sameOwner, sameName, sameArguments⟩ := sameMethod
      rw [← sameOwner] at pathLater
      rw [← sameArguments] at spelled
      have found := (methodOf.findMethod laterNatural knownLater pathLater spelled).2.2
      rw [sameName, registers.found] at found
      exact (Option.some.inj found).symm
  · rintro (rfl | ⟨⟨method, methodOf, carries⟩, apart⟩)
    · exact ⟨id, isOf, registers.carries⟩
    · have after := (isOf_iff keeps founded methodOf.known).mpr methodOf
      refine ⟨method, after, (registers.others method ?_).trans carries⟩
      rintro rfl
      exact apart (after.sameMethod isOf)

theorem exists_rival_iff_resolved (natural : tree.Natural) (known : tree.HasClass owner)
    (path : tree.classSegments owner = segments claim.owner)
    (typed : ∀ argument ∈ claim.arguments, isTypeName argument.toList) {named : NameTree}
    (argued : (resolveTypes claim.arguments).on tree = (.ok types, named)) :
    (∃ rival, Carries tree rival ∧ rival.SameClaim claim ∧ rival.name ≠ claim.name) ↔
      ∃ holder, named.HoldsInstead owner claim.name types claim.obfuscation holder := by
  have founded := natural.formed.founded
  have grows := Growth.resolveTypes_grows_any natural.formed claim.arguments
  have grown := grows.moved_to argued
  have namedPath : named.classSegments owner = segments claim.owner :=
    (grown.keeps.scopeSegments founded (show tree.HasScope (.javaClass owner) from known)).trans path
  have before (given : Renaming) : Carries named given ↔ Carries tree given :=
    carries_iff grown.keeps founded fun id => by rw [grown.method]
  have spelled := forall₂_namesType typed (grows.returns argued).1
  have rivals := exists_rival_iff (natural.grown grown) (grown.keeps.hasClass known) namedPath spelled
  simpa only [before] using rivals

/-- A registration changes nothing where another method has the claim; else its method takes the
obfuscation, and gives up what it carried before. -/
theorem registerMethod_carries (claim : Renaming) (natural : tree.Natural) (known : tree.HasClass owner)
    (path : tree.classSegments owner = segments claim.owner) {range text : String} {signature : Signature}
    (written : Written (.method range text claim.obfuscation)) (parsed : Signature.parse? text = some signature)
    (name : claim.name = signature.name) (arguments : claim.arguments = signature.arguments) {outcome : Registration}
    (ran : (registerMethod owner text claim.obfuscation).on tree = (.ok outcome, later)) (given : Renaming) :
    ((∃ rival, Carries tree rival ∧ rival.SameClaim claim ∧ rival.name ≠ claim.name) →
      (Carries later given ↔ Carries tree given)) ∧
    ((¬ ∃ rival, Carries tree rival ∧ rival.SameClaim claim ∧ rival.name ≠ claim.name) →
      (Carries later given ↔ given = claim ∨ Carries tree given ∧ ¬ given.SameMethod claim)) := by
  have formed := natural.formed
  obtain ⟨returns, argumentTypes⟩ := isTypeName_of_parse? written parsed
  obtain ⟨types, named, argued⟩ : Growth.Succeeds (resolveTypes signature.arguments) tree :=
    Growth.resolveTypes_succeeds fun argument member => wellTyped_of_isTypeName (argumentTypes argument member)
  obtain ⟨type, last, returned⟩ : Growth.Succeeds (resolveType signature.returns) named :=
    Growth.resolveType_succeeds (wellTyped_of_isTypeName returns)
  have grows := Growth.resolveTypes_grows_any formed signature.arguments
  have grown := grows.moved_to argued
  have spelled : List.Forall₂ (NamesType named) claim.arguments types := by
    rw [arguments]
    exact forall₂_namesType argumentTypes (grows.returns argued).1
  have namedNatural := natural.grown grown
  have namedKnown := grown.keeps.hasClass known
  have before (given : Renaming) : Carries named given ↔ Carries tree given :=
    carries_iff grown.keeps formed.founded fun id => by rw [grown.method]
  rw [exists_rival_iff_resolved natural known path (arguments ▸ argumentTypes) (arguments ▸ argued)]
  cases held : tree.otherHolder owner signature.name claim.obfuscation types with
  | some holder =>
    have heldThere := grown.otherHolder.trans held
    rw [Growth.on_registerMethod_of_holder parsed argued heldThere] at ran
    cases ran
    have holds := (otherHolder_eq_some_iff namedNatural.formed.apart).mp heldThere
    exact ⟨fun _ => before given, fun free => absurd ⟨holder, name ▸ holds⟩ free⟩
  | none =>
    have freeThere := grown.otherHolder.trans held
    obtain ⟨id, after, registered, registers⟩ :=
      Growth.registerMethod_registers formed known parsed argued returned held
    have recorded : (Growth.recordMethod owner signature types claim.obfuscation).on named = (.ok outcome, later) := by
      rw [← ran, Growth.registerMethod_eq, readSignature, parsed, Growth.on_bind_of_ok (Growth.on_pure tree signature),
        Growth.on_bind_of_ok argued]
    rw [registered] at ran
    cases ran
    have altered := (Growth.recordMethod_leads (admits_altered (some signature)) rfl namedNatural.formed namedKnown
      (grows.returns argued).1 claim.obfuscation).moved_to recorded
    constructor
    · rintro ⟨holder, holds⟩
      exact absurd (name ▸ holds) ((otherHolder_eq_none_iff namedNatural.formed.apart).mp freeThere holder)
    · intro _
      have spelledLater := spelled.imp fun _ _ names =>
        And.intro names.1 (altered.keeps.spells namedNatural.formed.founded names.2)
      exact carries_of_registers natural (namedNatural.altered altered) (grown.keeps.trans altered.keeps) known path
        spelledLater (name ▸ registers) given

theorem exists_registered_of_free (claim : Renaming) (natural : tree.Natural) (known : tree.HasClass owner)
    (path : tree.classSegments owner = segments claim.owner) {text : String} {signature : Signature}
    (parsed : Signature.parse? text = some signature) (name : claim.name = signature.name)
    (arguments : claim.arguments = signature.arguments)
    (typed : ∀ argument ∈ signature.arguments, isTypeName argument.toList)
    (free : ¬ ∃ rival, Carries tree rival ∧ rival.SameClaim claim ∧ rival.name ≠ claim.name) {outcome : Registration}
    (ran : (registerMethod owner text claim.obfuscation).on tree = (.ok outcome, later)) :
    ∃ id, outcome = .registered id := by
  obtain ⟨given, types, named, read, argued, recorded⟩ := Growth.on_registerMethod_eq_ok ran
  obtain rfl : given = signature := Option.some.inj (read.symm.trans parsed)
  rcases Growth.on_recordMethod_eq_ok recorded with ⟨holder, held, -, -⟩ | ⟨id, -, -, -, registered, -⟩
  · have grown := (Growth.resolveTypes_grows_any natural.formed given.arguments).moved_to argued
    have holds := (otherHolder_eq_some_iff (natural.grown grown).formed.apart).mp held
    have rivals := exists_rival_iff_resolved natural known path (arguments ▸ typed) (arguments ▸ argued)
    exact absurd (rivals.mpr ⟨holder, name ▸ holds⟩) free
  · exact ⟨id, registered⟩

end

end Mapping

end ClearNames
