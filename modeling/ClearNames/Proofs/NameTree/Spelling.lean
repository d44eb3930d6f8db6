import ClearNames.Proofs.Mapping.Tokens
import ClearNames.Proofs.NameTree.Paths
import ClearNames.Proofs.NameTree.Routes

/-! Types as descriptors spell them, and the descriptors as types are named.

A type is one node with a number of array suffixes, and it is printed as the
full name of the node with the suffixes behind it. A plain descriptor is read
off that text again, so that types which plain descriptors spell are told apart
by their names. Trees that requests of plain signatures lead to hold no others.
-/

set_option autoImplicit false

namespace ClearNames

/-- A dotted name of letters, digits, `_` and `$`, with any number of `[]` behind it. -/
def PlainType (descriptor : String) : Prop :=
  ∃ (parts : List String) (count : Nat), parts ≠ [] ∧ (∀ part ∈ parts, MappingLine.isIdentifier part.toList) ∧
    descriptor = ".".intercalate parts ++ String.join (List.replicate count "[]")

theorem PlainType.eq_spelled {descriptor : String} (plain : PlainType descriptor) :
    (Descriptor.ofString descriptor).base ++
      String.join (List.replicate (Descriptor.ofString descriptor).dimension "[]") = descriptor := by
  obtain ⟨parts, count, -, identifiers, rfl⟩ := plain
  have free : '[' ∉ (".".intercalate parts).toList := by
    have dot : ".".toList = ['.'] := rfl
    rw [String.toList_intercalate, dot, ← Text.joinWith_eq_intercalate]
    intro member
    rcases Text.mem_joinWith member with other | ⟨_, inside, holds⟩
    · cases other
    · obtain ⟨part, given, rfl⟩ := List.mem_map.mp inside
      exact MappingLine.not_mem_of_isIdentifier (identifiers part given) rfl holds
  rw [MappingLine.ofString_append_replicate free]

namespace NameTree

section
variable {tree : NameTree}

theorem typeName_of_spells {descriptor : String} {type : TypeUse} (spells : tree.Spells descriptor type) :
    tree.typeName type = (Descriptor.ofString descriptor).base ++
      String.join (List.replicate (Descriptor.ofString descriptor).dimension "[]") := by
  obtain ⟨base, dimension⟩ := type
  obtain ⟨denotes, rfl⟩ := spells
  rw [typeName, Int.toNat_natCast]
  congr 1
  cases base with
  | primitive primitive => exact Primitive.name_of_named?_eq_some denotes
  | scope scope =>
    obtain ⟨-, -, path⟩ := denotes
    rw [baseName, scopeName, path, intercalate_segments]

theorem Natural.rightUnique_spells (natural : tree.Natural) : Relator.RightUnique tree.Spells := by
  rintro descriptor ⟨firstBase, firstDimension⟩ ⟨secondBase, secondDimension⟩ ⟨first, firstCount⟩ ⟨second, secondCount⟩
  obtain rfl : firstDimension = secondDimension := firstCount.trans secondCount.symm
  cases firstBase with
  | primitive one =>
    cases secondBase with
    | primitive other => cases Option.some.inj (first.symm.trans second); rfl
    | scope other =>
      have named := first.symm.trans second.1
      cases named
  | scope one =>
    cases secondBase with
    | primitive other =>
      have named := first.1.symm.trans second
      cases named
    | scope other =>
      obtain rfl := natural.eq_of_scopeSegments_eq first.2.1 second.2.1 (first.2.2.trans second.2.2.symm)
      rfl

theorem typeName_of_plain {descriptor : String} {type : TypeUse} (plain : PlainType descriptor)
    (spells : tree.Spells descriptor type) : tree.typeName type = descriptor :=
  (typeName_of_spells spells).trans plain.eq_spelled

end

/-! ## Types of methods -/

/-- Types that plain descriptors spell. -/
def PlainlySpelled (tree : NameTree) (types : List TypeUse) : Prop :=
  ∃ descriptors, (∀ descriptor ∈ descriptors, PlainType descriptor) ∧ List.Forall₂ tree.Spells descriptors types

/-- The argument types of every method are spelled by plain descriptors. -/
def PlainlyTyped (tree : NameTree) : Prop :=
  ∀ id, tree.HasMethod id → tree.PlainlySpelled (tree.method id).arguments

section
variable {tree later : NameTree}

theorem typeNames_of_plain {descriptors : List String} {types : List TypeUse}
    (plain : ∀ descriptor ∈ descriptors, PlainType descriptor) (spelled : List.Forall₂ tree.Spells descriptors types) :
    types.map tree.typeName = descriptors := by
  induction spelled with
  | nil => rfl
  | cons spells _ ih =>
    obtain ⟨first, others⟩ := List.forall_mem_cons.mp plain
    rw [List.map_cons, typeName_of_plain first spells, ih others]

theorem PlainlySpelled.names {types : List TypeUse} (spelled : tree.PlainlySpelled types) :
    List.Forall₂ tree.Spells (types.map tree.typeName) types := by
  obtain ⟨descriptors, plain, spelled⟩ := spelled
  rw [typeNames_of_plain plain spelled]
  exact spelled

theorem PlainlySpelled.keeps {types : List TypeUse} (spelled : tree.PlainlySpelled types) (founded : tree.Founded)
    (keeps : tree.Keeps later) : later.PlainlySpelled types := by
  obtain ⟨descriptors, plain, spelled⟩ := spelled
  exact ⟨descriptors, plain, spelled.imp fun _ _ => keeps.spells founded⟩

theorem PlainlyTyped.keeps (typed : tree.PlainlyTyped) (founded : tree.Founded) (keeps : tree.Keeps later)
    (new : ∀ id, later.HasMethod id → ¬ tree.HasMethod id → later.PlainlySpelled (later.method id).arguments) :
    later.PlainlyTyped := by
  intro id known
  by_cases old : tree.HasMethod id
  · rw [keeps.method_arguments old]
    exact (typed id old).keeps founded keeps
  · exact new id known old

theorem PlainlyTyped.marked (typed : tree.PlainlyTyped) (formed : tree.Formed) (marked : Marked tree later) :
    later.PlainlyTyped := by
  induction marked with
  | refl => exact typed
  | tail before mark ih =>
    refine ih.keeps ((Marked.altered before).formed formed).founded mark.alike.keeps fun _ known new => ?_
    exact absurd (mark.alike.hasMethod.mp known) new

theorem PlainlyTyped.change {descriptors : List String} (typed : tree.PlainlyTyped) (formed : tree.Formed)
    (plain : ∀ descriptor ∈ descriptors, PlainType descriptor) (change : Change descriptors tree later) :
    later.PlainlyTyped := by
  have keeps := change.edit.extends.keeps
  cases change with
  | named named =>
    refine typed.keeps formed.founded keeps fun id known new => ?_
    obtain ⟨-, _, _, _, _, rfl⟩ := new_method known new
    cases named
  | @method owner name returns arguments grounded vacant spelled =>
    refine typed.keeps formed.founded keeps fun id known new => ?_
    obtain ⟨rfl, -⟩ := new_method known new
    have placed : (tree.add (.method owner name returns arguments)).MethodAt owner (name, arguments)
      ⟨tree.methods.size⟩ := methodAt_addMethod owner name returns arguments
    rw [(Prod.mk.inj placed.2.1).2]
    exact PlainlySpelled.keeps ⟨descriptors, plain, spelled⟩ formed.founded keeps
  | mark mark => exact typed.marked formed (.single mark)

theorem PlainlyTyped.changed {descriptors : List String} (typed : tree.PlainlyTyped) (formed : tree.Formed)
    (plain : ∀ descriptor ∈ descriptors, PlainType descriptor) (changed : Changed descriptors tree later) :
    later.PlainlyTyped := by
  induction changed with
  | refl => exact typed
  | tail before change ih => exact ih.change (Changed.formed before formed) plain change

end

/-- A tree that a run of requests, and of searches for sources, leads to from the empty one,
where signatures spell the types of arguments plainly. -/
inductive PlainlyRequested : NameTree → Prop where
  | empty : PlainlyRequested empty
  | after {tree : NameTree} {request : Request} (requested : PlainlyRequested tree) (held : request.Held tree)
      (plain : ∀ descriptor ∈ request.argumentTypes, PlainType descriptor) : PlainlyRequested (request.after tree)
  | located {tree : NameTree} {disk : Disk} {directory : String} {target : Sources.Target} {found : Sources.Located}
      (requested : PlainlyRequested tree) (located : Sources.locate disk directory tree target = .ok found) :
      PlainlyRequested found.tree

section
variable {tree : NameTree}

theorem Natural.eq_of_typeNames (natural : tree.Natural) {first second : List TypeUse}
    (firstSpelled : tree.PlainlySpelled first) (secondSpelled : tree.PlainlySpelled second)
    (same : first.map tree.typeName = second.map tree.typeName) : first = second :=
  List.right_unique_forall₂' natural.rightUnique_spells firstSpelled.names (same ▸ secondSpelled.names)

theorem Natural.eq_of_signature (natural : tree.Natural) (typed : tree.PlainlyTyped) {first second : MethodId}
    (firstKnown : tree.HasMethod first) (secondKnown : tree.HasMethod second)
    (owner : (tree.method first).owner = (tree.method second).owner)
    (name : (tree.method first).name = (tree.method second).name)
    (arguments : (tree.method first).arguments.map tree.typeName = (tree.method second).arguments.map tree.typeName) :
    first = second := by
  have argued := natural.eq_of_typeNames (typed first firstKnown) (typed second secondKnown) arguments
  have placed := natural.method firstKnown
  rw [MethodPlaced, owner, name, argued] at placed
  have found := OrderedTable.find?_eq_some_of_mem (natural.formed.entered.methodKeys _) placed
  rw [OrderedTable.find?_eq_some_of_mem (natural.formed.entered.methodKeys _) (natural.method secondKnown)] at found
  exact (Option.some.inj found).symm

theorem PlainlyRequested.requested (plainly : PlainlyRequested tree) : Requested tree := by
  induction plainly with
  | empty => exact .empty
  | after _ held _ ih => exact .after ih held
  | located _ located ih => exact .located ih located

theorem PlainlyRequested.natural (plainly : PlainlyRequested tree) : tree.Natural := plainly.requested.natural

theorem PlainlyRequested.typed (plainly : PlainlyRequested tree) : tree.PlainlyTyped := by
  induction plainly with
  | empty => exact fun _ known => absurd known (Nat.not_lt_zero _)
  | after plainly held plain ih =>
    have formed := plainly.natural.formed
    exact ih.changed formed plain (Request.changed formed held)
  | located plainly located ih => exact ih.marked plainly.natural.formed (Sources.locate_marked located)

end

end NameTree

end ClearNames
