import ClearNames.Proofs.NameTree.Registration

/-! Names that casing allows are resolved.

Growth by a name fails at one place only, where a package segment follows a
class segment. Types of names without such a place are resolved therefore, and
so the obfuscation of a method with such types is registered or a duplicate.
-/

set_option autoImplicit false

namespace ClearNames

def Scope.kind : Scope → SegmentKind
  | .package _ => .package
  | .javaClass _ => .javaClass

namespace NameTree

/-- Below a class segment stand class segments only. -/
def WellCased (path : List String) : Prop :=
  path.Pairwise fun outer inner => SegmentKind.of outer = .javaClass → SegmentKind.of inner = .javaClass

/-- A descriptor whose base type can be resolved. The first segment is a root, whatever its casing. -/
def WellTyped (descriptor : String) : Prop := WellCased (segments (Descriptor.ofString descriptor).base).tail

end NameTree

namespace Growth
open NameTree

def Succeeds {α : Type} (step : Growth α) (tree : NameTree) : Prop :=
  ∃ value later, step.on tree = (.ok value, later)

section
variable {α β : Type} {tree : NameTree}

theorem Succeeds.pure (value : α) : Succeeds (pure value) tree := ⟨value, tree, rfl⟩

theorem Succeeds.bind {step : Growth α} {next : α → Growth β} (first : Succeeds step tree)
    (second : ∀ value later, step.on tree = (.ok value, later) → Succeeds (next value) later) :
    Succeeds (step >>= next) tree := by
  obtain ⟨value, between, ran⟩ := first
  obtain ⟨result, later, rest⟩ := second value between ran
  exact ⟨result, later, (on_bind_of_ok ran next).trans rest⟩

theorem Succeeds.map {step : Growth α} (change : α → β) (succeeds : Succeeds step tree) :
    Succeeds (change <$> step) tree := by
  obtain ⟨value, later, ran⟩ := succeeds
  exact ⟨change value, later, by rw [on_map, ran]; rfl⟩

end

section
variable {tree : NameTree}

theorem findOrAddRoot_succeeds (name : String) : Succeeds (findOrAddRoot name) tree := by
  unfold Succeeds findOrAddRoot
  rw [on_get_bind]
  cases tree.roots.find? name with
  | some id => exact ⟨id, tree, rfl⟩
  | none => exact ⟨_, _, rfl⟩

theorem findOrAddPackage_succeeds (parent : PackageId) (name : String) :
    Succeeds (findOrAddPackage parent name) tree := by
  unfold Succeeds findOrAddPackage
  rw [on_get_bind]
  cases (tree.package parent).children.find? name with
  | some id => exact ⟨id, tree, rfl⟩
  | none => exact ⟨_, _, rfl⟩

theorem findOrAddClass_succeeds (owner : Scope) (name : String) : Succeeds (findOrAddClass owner name) tree := by
  unfold Succeeds findOrAddClass
  rw [on_get_bind]
  cases (tree.classesOf owner).find? name with
  | some id => exact ⟨id, tree, rfl⟩
  | none => exact ⟨_, _, rfl⟩

theorem enter_succeeds (identifier : String) {scope : Scope} {segment : String}
    (allowed : scope.kind = .javaClass → SegmentKind.of segment = .javaClass) :
    Succeeds (enter identifier scope segment) tree := by
  cases kind : SegmentKind.of segment with
  | javaClass =>
    rw [enter_of_class identifier scope kind]
    exact (findOrAddClass_succeeds scope segment).map _
  | package =>
    cases scope with
    | package id =>
      rw [enter_of_package identifier id kind]
      exact (findOrAddPackage_succeeds id segment).map _
    | javaClass id =>
      rw [allowed rfl] at kind
      cases kind

theorem kind_of_enter {identifier segment : String} {scope inner : Scope} {later : NameTree}
    (ran : (enter identifier scope segment).on tree = (.ok inner, later)) : inner.kind = SegmentKind.of segment := by
  cases kind : SegmentKind.of segment with
  | javaClass =>
    rw [enter_of_class identifier scope kind] at ran
    obtain ⟨id, -, rfl⟩ := on_map_eq_ok ran
    rfl
  | package =>
    cases scope with
    | package id =>
      rw [enter_of_package identifier id kind] at ran
      obtain ⟨child, -, rfl⟩ := on_map_eq_ok ran
      rfl
    | javaClass id =>
      rw [enter_below_class identifier id kind] at ran
      cases ran

theorem descend_succeeds (identifier : String) {rest : List String} (cased : WellCased rest) {tree : NameTree}
    {scope : Scope} (below : scope.kind = .javaClass → ∀ segment ∈ rest, SegmentKind.of segment = .javaClass) :
    Succeeds (descend identifier scope rest) tree := by
  -- On the path: once it comes to a class, its casing leaves only classes.
  induction rest generalizing tree scope with
  | nil => exact .pure scope
  | cons segment rest ih =>
    obtain ⟨inside, casedRest⟩ := List.pairwise_cons.mp cased
    have allowed := fun isClass => below isClass segment List.mem_cons_self
    refine (enter_succeeds identifier allowed).bind fun inner between ran => ih casedRest fun isClass => ?_
    intro other member
    exact inside other member ((kind_of_enter ran).symm.trans isClass)

theorem resolve_succeeds {identifier : String} (cased : WellCased (segments identifier).tail) :
    Succeeds (resolve identifier) tree := by
  unfold resolve
  cases parts : segments identifier with
  | nil => exact absurd parts (segments_ne_nil identifier)
  | cons root rest =>
    rw [parts] at cased
    exact (findOrAddRoot_succeeds root).bind fun id _ _ => descend_succeeds identifier cased fun isClass => by cases isClass

theorem resolveType_succeeds {descriptor : String} (typed : WellTyped descriptor) :
    Succeeds (resolveType descriptor) tree := by
  have base : Succeeds (resolveBase (Descriptor.ofString descriptor).base) tree := by
    unfold resolveBase
    cases Primitive.named? (Descriptor.ofString descriptor).base with
    | some primitive => exact .pure _
    | none => exact (resolve_succeeds typed).map _
  exact base.bind fun _ _ _ => .pure _

theorem resolveTypes_succeeds {descriptors : List String} (typed : ∀ descriptor ∈ descriptors, WellTyped descriptor)
    {tree : NameTree} : Succeeds (resolveTypes descriptors) tree := by
  induction descriptors generalizing tree with
  | nil => exact .pure []
  | cons descriptor rest ih =>
    refine (resolveType_succeeds (typed descriptor List.mem_cons_self)).bind fun first between _ => ?_
    refine (ih fun other member => typed other (List.mem_cons_of_mem descriptor member)).bind fun others _ _ => ?_
    exact .pure _

theorem registerMethod_succeeds (formed : tree.Formed) {owner : ClassId} (known : tree.HasClass owner)
    {text : String} {signature : Signature} (parsed : Signature.parse? text = some signature)
    (returns : WellTyped signature.returns) (typed : ∀ argument ∈ signature.arguments, WellTyped argument)
    (obfuscation : String) : Succeeds (registerMethod owner text obfuscation) tree := by
  obtain ⟨arguments, named, argued⟩ : Succeeds (resolveTypes signature.arguments) tree := resolveTypes_succeeds typed
  obtain ⟨type, last, returned⟩ : Succeeds (resolveType signature.returns) named := resolveType_succeeds returns
  -- Making the types of the arguments leaves the methods, so a duplicate is one before as after.
  have grown := (resolveTypes_grows_any formed signature.arguments).moved_to argued
  cases held : tree.otherHolder owner signature.name obfuscation arguments with
  | some holder =>
    exact ⟨_, _, on_registerMethod_of_holder parsed argued (grown.otherHolder.trans held)⟩
  | none =>
    obtain ⟨id, later, registered, -⟩ := registerMethod_registers formed known parsed argued returned held
    exact ⟨_, _, registered⟩

end

end Growth

end ClearNames
