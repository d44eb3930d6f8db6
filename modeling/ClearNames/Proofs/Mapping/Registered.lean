import ClearNames.Proofs.Mapping.Printing
import ClearNames.Proofs.NameTree.Unaliased

/-! Looking a registered method up by its obfuscated signature.

Registering takes a type name for a package wherever its casing or its place
says so, while a look-up by an obfuscated name comes to primitives and classes
only. Where nothing but methods is renamed, a registered method is found again
exactly if its argument types name primitives or classes inside packages.
-/

set_option autoImplicit false

namespace ClearNames

namespace Mapping
open NameTree MappingLine

/-- A descriptor of a primitive or of a class inside a package, with any array suffixes. -/
def Findable (descriptor : String) : Prop :=
  (Primitive.named? (Descriptor.ofString descriptor).base).isSome ∨ NamesClass (Descriptor.ofString descriptor).base

instance (descriptor : String) : Decidable (Findable descriptor) := inferInstanceAs (Decidable (_ ∨ _))

section
variable {tree : NameTree} (natural : tree.Natural) (unaliased : tree.Unaliased)
include natural unaliased

theorem obfuscatedType_of_spells {descriptor : String} {type : TypeUse} (spells : tree.Spells descriptor type) :
    tree.obfuscatedType descriptor = if Findable descriptor then some type else none := by
  obtain ⟨base, dimension⟩ := type
  obtain ⟨denotes, rfl⟩ := spells
  cases base with
  | primitive primitive =>
    have named : Primitive.named? (Descriptor.ofString descriptor).base = some primitive := denotes
    have findable : Findable descriptor := .inl (by simp [named])
    rw [if_pos findable]
    simp only [obfuscatedType, obfuscatedBase, named]
    rfl
  | scope scope =>
    obtain ⟨unnamed, known, path⟩ := denotes
    cases scope with
    | javaClass id =>
      have findable : Findable descriptor := .inr (namesClass_of_classSegments natural known path)
      have found := unaliased.obfuscatedClass_of_class natural known path
      rw [if_pos findable]
      simp only [obfuscatedType, obfuscatedBase, unnamed, found]
      rfl
    | package id =>
      have hidden : ¬ Findable descriptor := by
        rintro (primitive | clear)
        · simp [unnamed] at primitive
        · exact packageSegments_ne_of_namesClass natural clear known path
      have missing := unaliased.obfuscatedClass_of_package natural known path
      rw [if_neg hidden]
      simp only [obfuscatedType, obfuscatedBase, unnamed, missing]
      rfl

theorem mapM_obfuscatedType_of_spelled {descriptors : List String} {types : List TypeUse}
    (spelled : List.Forall₂ tree.Spells descriptors types) :
    descriptors.mapM tree.obfuscatedType =
      if ∀ descriptor ∈ descriptors, Findable descriptor then some types else none := by
  induction spelled with
  | nil => rfl
  | @cons descriptor type rest others spells _ ih =>
    rw [List.mapM_cons, obfuscatedType_of_spells natural unaliased spells, ih]
    by_cases first : Findable descriptor
    · by_cases later : ∀ other ∈ rest, Findable other
      · rw [if_pos first, if_pos later, if_pos (List.forall_mem_cons.mpr ⟨first, later⟩)]
        rfl
      · rw [if_pos first, if_neg later, if_neg fun all => later (List.forall_mem_cons.mp all).2]
        rfl
    · rw [if_neg first, if_neg fun all => first (List.forall_mem_cons.mp all).1]
      rfl

theorem registered_cases {owner : ClassId} (known : tree.HasClass owner) {text obfuscation : String} {id : MethodId}
    {later : NameTree} (ran : (registerMethod owner text obfuscation).on tree = (.ok (.registered id), later)) :
    later.Natural ∧ later.Unaliased ∧ ∃ signature arguments, Signature.parse? text = some signature ∧
      List.Forall₂ later.Spells signature.arguments arguments ∧
      later.methodWithObfuscation owner obfuscation arguments = some id := by
  have formed := natural.formed
  have laterNatural : later.Natural :=
    natural.altered ((Growth.registerMethod_alters formed known text obfuscation).moved_to ran)
  obtain ⟨signature, arguments, named, parsed, argued, recorded⟩ := Growth.on_registerMethod_eq_ok ran
  obtain ⟨_, _, ⟨⟩, _⟩ | ⟨_, made, -, found, ⟨⟩, rfl⟩ := Growth.on_recordMethod_eq_ok recorded
  have argumentsGrow := Growth.resolveTypes_grows_any formed signature.arguments
  have grown := argumentsGrow.moved_to argued
  have namedFormed := grown.formed formed
  have spelled := (argumentsGrow.returns argued).1
  -- The method was there, or it was made once its result type was resolved.
  obtain ⟨madeFormed, keeps, madeUnaliased, there⟩ : made.Formed ∧ named.Keeps made ∧ made.Unaliased ∧
      made.findMethod owner signature.name arguments = some id := by
    rcases Growth.on_findOrAddMethod_eq_ok found with ⟨there, rfl⟩ | ⟨-, returns, between, returned, rfl, rfl⟩
    · exact ⟨namedFormed, .refl _, unaliased.grown grown, there⟩
    · have returnsGrow := Growth.resolveType_grows_any namedFormed signature.returns
      have grownLast := returnsGrow.moved_to returned
      have grounded : between.Grounded (.method owner signature.name returns arguments) :=
        grownLast.grounded_method (grown.keeps.hasClass known) (hasType_of_spelled spelled)
          (returnsGrow.returns returned).1.hasType _
      exact ⟨(grownLast.formed namedFormed).edit (.add grounded), grownLast.keeps.trans (keeps_add grounded),
        ((unaliased.grown grown).grown grownLast).addMethod grounded, findMethod_addMethod grounded.1 returns⟩
  have placed := madeFormed.entered.method (OrderedTable.mem_of_find?_eq_some there)
  have registers : Growth.Registers made _ owner signature.name arguments obfuscation id :=
    Growth.registers_putMethodObfuscation madeFormed there
  have alike := alike_putMethodObfuscation placed.1 (some obfuscation)
  refine ⟨laterNatural, madeUnaliased.putMethodObfuscation id _, signature, arguments, parsed, ?_, ?_⟩
  · exact spelled.imp fun _ _ spells => (keeps.trans alike.keeps).spells namedFormed.founded spells
  · refine laterNatural.formed.apart.methodWithObfuscation_eq_some_iff.mpr ⟨?_, registers.carries, ?_⟩
    · exact OrderedTable.mem_values.mpr ⟨_, OrderedTable.mem_of_find?_eq_some registers.found⟩
    · rw [alike.keeps.method_arguments placed.1]
      exact congrArg Prod.snd placed.2.1

end

/-- The signature of a method under its obfuscation. -/
def MethodRecord.obfuscatedSignature (method : MethodRecord) : Signature :=
  ⟨method.returns.1, method.obfuscation.1, method.arguments.map fun argument => argument.type.1⟩

theorem MethodRecord.parse?_obfuscated (method : MethodRecord) :
    Signature.parse? method.obfuscatedSignature.print = some method.obfuscatedSignature :=
  MethodRecord.parse?_print { method with name := method.obfuscation }

/-- In a tree that requests lead to and in which no package and no class carries
an obfuscation, a method that was registered is found by its obfuscated
signature if its argument types are primitives and classes inside packages, and
no method is found if one of them names a package. -/
theorem registered_lookup {tree : NameTree} (requested : Requested tree) (unaliased : tree.Unaliased) {owner : ClassId}
    (known : tree.HasClass owner) (method : MethodRecord) {id : MethodId} {later : NameTree}
    (ran : (registerMethodOf (.node owner) method.signature.print method.obfuscation.1).on tree =
      (.ok (.registered id), later)) :
    later.obfuscatedMethod owner method.obfuscatedSignature.print =
      .ok (if ∀ argument ∈ method.arguments, Findable argument.type.1 then some id else none) := by
  obtain ⟨laterNatural, laterUnaliased, signature, arguments, parsed, spelled, found⟩ :=
    registered_cases requested.natural unaliased known ran
  obtain rfl : method.signature = signature := Option.some.inj (method.parse?_print.symm.trans parsed)
  have types := mapM_obfuscatedType_of_spelled laterNatural laterUnaliased spelled
  simp only [MethodRecord.signature, List.forall_mem_map] at types
  unfold obfuscatedMethod
  rw [method.parse?_obfuscated]
  simp only [MethodRecord.obfuscatedSignature, types]
  split
  · simp [found]
  · rfl

/-! ## Lookups -/

def barTree : NameTree := Request.after .empty (.scope "com.foo.Bar")

theorem requested_bar : Requested barTree := by
  have held : Request.Held .empty (.scope "com.foo.Bar") := trivial
  exact .after .empty held

def unaryMethod (returns : TypeName) (name : Identifier) (argument : TypeName) (obfuscation : Identifier) :
    MethodRecord :=
  ⟨none, returns, name, [⟨argument, false⟩], obfuscation⟩

theorem unaliased_bar : barTree.Unaliased := by
  have grows : (resolve "com.foo.Bar").Grows AnyPath .empty _ :=
    Growth.resolve_grows formed_empty "com.foo.Bar" fun _ _ => trivial
  unfold barTree Request.after
  exact unaliased_empty.grown grows.moved

/-- A method with an array of a class that the tree does not hold yet. -/
theorem registered_lookup_bar :
    Requested barTree ∧ barTree.Unaliased ∧ barTree.HasClass ⟨0⟩ ∧ ∃ later,
      (registerMethodOf (.node ⟨0⟩) "void run(com.foo.Baz[])" "a").on barTree = (.ok (.registered ⟨0⟩), later) ∧
        later.obfuscatedMethod ⟨0⟩ "void a(com.foo.Baz[])" = .ok (some ⟨0⟩) := by
  have known : barTree.HasClass ⟨0⟩ := by
    show 0 < barTree.classes.size
    decide +kernel
  let method := unaryMethod ⟨"void", by decide⟩ ⟨"run", by decide⟩ ⟨"com.foo.Baz[]", by decide⟩ ⟨"a", by decide⟩
  have clear : method.signature.print = "void run(com.foo.Baz[])" := by decide +kernel
  have obfuscated : method.obfuscatedSignature.print = "void a(com.foo.Baz[])" := by decide +kernel
  have findable : ∀ argument ∈ method.arguments, Findable argument.type.1 := by decide +kernel
  obtain ⟨later, ran⟩ : ∃ later, (registerMethodOf (.node ⟨0⟩) method.signature.print "a").on barTree =
      (.ok (.registered ⟨0⟩), later) := by
    rw [clear]
    have outcome : ((registerMethodOf (.node ⟨0⟩) "void run(com.foo.Baz[])" "a").on barTree).1 =
        .ok (.registered ⟨0⟩) := by decide +kernel
    rcases ran : (registerMethodOf (.node ⟨0⟩) "void run(com.foo.Baz[])" "a").on barTree with ⟨result, later⟩
    rw [ran] at outcome
    exact ⟨later, by rw [← outcome]⟩
  have found := registered_lookup requested_bar unaliased_bar known method ran
  rw [obfuscated, if_pos findable] at found
  rw [clear] at ran
  exact ⟨requested_bar, unaliased_bar, known, later, ran, found⟩

/-- A class without a package is taken for a package, and the method that has it is not found again. -/
theorem registered_lookup_fails_rootClass :
    Requested barTree ∧ barTree.Unaliased ∧ barTree.HasClass ⟨0⟩ ∧
      ((registerMethodOf (.node ⟨0⟩) "void run(Foo)" "a").on barTree).1 = .ok (.registered ⟨0⟩) ∧
      ((registerMethodOf (.node ⟨0⟩) "void run(Foo)" "a").on barTree).2.obfuscatedMethod ⟨0⟩ "void a(Foo)" = .ok none := by
  have known : barTree.HasClass ⟨0⟩ := by
    show 0 < barTree.classes.size
    decide +kernel
  exact ⟨requested_bar, unaliased_bar, known, by decide +kernel, by decide +kernel⟩

end Mapping

end ClearNames
