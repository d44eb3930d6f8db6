import ClearNames.Proofs.Mapping.Trees
import ClearNames.Proofs.NameTree.Registration
import ClearNames.Proofs.NameTree.Unlocated

/-! Trees that continue others, and asking them again.

A tree is prolonged where every node stays at its place and what is new stands
behind what was there. Growth by a name comes to the same node in every tree
that prolongs the one it left, and makes nothing there.
-/

set_option autoImplicit false

namespace ClearNames

/-- A package, a class or a method. -/
inductive Node where
  | scope (scope : Scope)
  | method (id : MethodId)
  deriving DecidableEq, Repr

namespace NameTree

def HasNode (tree : NameTree) : Node → Prop
  | .scope scope => tree.HasScope scope
  | .method id => tree.HasMethod id

def obfuscationOf (tree : NameTree) : Node → Option String
  | .scope scope => tree.scopeObfuscation scope
  | .method id => (tree.method id).obfuscation

/-! ## Trees that continue others -/

/-- All nodes, what is fixed of them, their paths and their entries are as they were, with new entries behind. -/
structure Prolongs (tree later : NameTree) : Prop where
  keeps : tree.Keeps later
  roots : tree.roots <+: later.roots
  children : ∀ parent, (tree.package parent).children <+: (later.package parent).children
  classesOf : ∀ owner, tree.classesOf owner <+: later.classesOf owner
  methods : ∀ owner, (tree.javaClass owner).methods <+: (later.javaClass owner).methods
  paths : ∀ id, (later.javaClass id).path = (tree.javaClass id).path

/-- A tree is prolonged, and all obfuscations are as they were but one that may have been recorded. -/
structure Continues (recorded : Option Node) (tree later : NameTree) : Prop extends Prolongs tree later where
  obfuscations : ∀ node, recorded ≠ some node → later.obfuscationOf node = tree.obfuscationOf node

section
variable {recorded : Option Node} {tree between later : NameTree}

theorem Prolongs.refl (tree : NameTree) : tree.Prolongs tree where
  keeps := .refl tree
  roots := List.prefix_refl _
  children _ := List.prefix_refl _
  classesOf _ := List.prefix_refl _
  methods _ := List.prefix_refl _
  paths _ := rfl

theorem Prolongs.trans (first : tree.Prolongs between) (second : between.Prolongs later) : tree.Prolongs later where
  keeps := first.keeps.trans second.keeps
  roots := first.roots.trans second.roots
  children parent := (first.children parent).trans (second.children parent)
  classesOf owner := (first.classesOf owner).trans (second.classesOf owner)
  methods owner := (first.methods owner).trans (second.methods owner)
  paths id := (second.paths id).trans (first.paths id)

theorem Continues.refl (recorded : Option Node) (tree : NameTree) : tree.Continues recorded tree :=
  ⟨.refl tree, fun _ _ => rfl⟩

theorem Continues.trans (first : tree.Continues recorded between) (second : between.Continues recorded later) :
    tree.Continues recorded later :=
  ⟨first.toProlongs.trans second.toProlongs,
    fun node other => (second.obfuscations node other).trans (first.obfuscations node other)⟩

instance (recorded : Option Node) : Std.Refl (Continues recorded) := ⟨Continues.refl recorded⟩

instance (recorded : Option Node) : Trans (Continues recorded) (Continues recorded) (Continues recorded) :=
  ⟨Continues.trans⟩

theorem Continues.any (continues : tree.Continues none later) (recorded : Option Node) :
    tree.Continues recorded later :=
  ⟨continues.toProlongs, fun node _ => continues.obfuscations node (by simp)⟩

theorem Continues.bare_of_new (continues : tree.Continues recorded later) {node : Node} (new : ¬ tree.HasNode node)
    (other : recorded ≠ some node) : later.obfuscationOf node = none := by
  rw [continues.obfuscations node other]
  match node with
  | .scope (.package _) => exact congrArg PackageNode.obfuscation (package_of_not_has new)
  | .scope (.javaClass _) => exact congrArg ClassNode.obfuscation (javaClass_of_not_has new)
  | .method _ => exact congrArg MethodNode.obfuscation (method_of_not_has new)

theorem Prolongs.unlocated_of_new (prolongs : tree.Prolongs later) {id : ClassId} (new : ¬ tree.HasClass id) :
    (later.javaClass id).path = none :=
  (prolongs.paths id).trans (congrArg ClassNode.path (javaClass_of_not_has new))

theorem Appends.front {κ ν : Type} {fresh : ν → Prop} {table later : OrderedTable κ ν}
    (appends : Appends fresh table later) : table <+: later := by
  cases appends with
  | same => exact List.prefix_refl _
  | last => exact List.prefix_append _ _

theorem Lengthens.prolongs (lengthens : tree.Lengthens later)
    (paths : ∀ id, (later.javaClass id).path = (tree.javaClass id).path) : tree.Prolongs later where
  keeps := lengthens.keeps
  roots := lengthens.roots.front
  children parent := (lengthens.children parent).front
  classesOf owner := (lengthens.classesOf owner).front
  methods owner := (lengthens.methods owner).front
  paths := paths

theorem continues_add {addition : Addition} (grounded : tree.Grounded addition) (vacant : tree.Vacant addition) :
    tree.Continues none (tree.add addition) := by
  refine ⟨(lengthens_add grounded vacant).prolongs (path_add grounded), fun node _ => ?_⟩
  match node with
  | .scope (.package id) => exact package_obfuscation_add grounded id
  | .scope (.javaClass id) => exact javaClass_obfuscation_add grounded id
  | .method id => exact method_obfuscation_add addition id

theorem Grown.continues {fits : List String → Prop} (grown : Grown fits tree later) : tree.Continues none later := by
  induction grown with
  | refl => exact .refl none tree
  | add _ named ih => exact ih.trans (continues_add named.grounded named.vacant)

theorem continues_putScopeObfuscation {scope : Scope} (known : tree.HasScope scope) (obfuscation : Option String) :
    tree.Continues (some (.scope scope)) (tree.putScopeObfuscation scope obfuscation) := by
  have alike : tree.Alike (tree.putScopeObfuscation scope obfuscation) := by
    cases scope with
    | package id => exact alike_putPackageObfuscation known obfuscation
    | javaClass id => exact alike_updateClass known (marks_obfuscation obfuscation)
  refine ⟨alike.lengthens.prolongs fun id => ?_, fun node other => ?_⟩
  · cases scope with
    | package _ => rfl
    | javaClass _ => exact Growth.path_putClassObfuscation known obfuscation id
  · cases node with
    | scope another =>
      have apart : another ≠ scope := fun same => other (same ▸ rfl)
      exact (scopeObfuscation_put known obfuscation another).trans (if_neg apart)
    | method id => cases scope <;> rfl

theorem continues_putMethodObfuscation {id : MethodId} (known : tree.HasMethod id) (obfuscation : Option String) :
    tree.Continues (some (.method id)) (tree.putMethodObfuscation id obfuscation) := by
  refine ⟨(alike_putMethodObfuscation known obfuscation).lengthens.prolongs fun _ => rfl, fun node other => ?_⟩
  cases node with
  | scope scope => cases scope <;> rfl
  | method another =>
    have apart : another ≠ id := fun same => other (same ▸ rfl)
    exact (obfuscation_putMethodObfuscation known obfuscation another).trans (if_neg apart)

end

end NameTree

/-! ## Asking again -/

namespace Growth
open NameTree

/-- A step that comes to a value in every tree that prolongs a given one, and makes nothing there. -/
structure Stands {α : Type} (step : Growth α) (value : α) (tree : NameTree) : Prop where
  again : ∀ {later}, tree.Prolongs later → step.on later = (.ok value, later)

section
variable {α β : Type} {tree later : NameTree}

theorem Stands.prolonged {step : Growth α} {value : α} (stands : Stands step value tree)
    (prolongs : tree.Prolongs later) : Stands step value later :=
  ⟨fun further => stands.again (prolongs.trans further)⟩

theorem Stands.here {step : Growth α} {value : α} (stands : Stands step value tree) :
    step.on tree = (.ok value, tree) := stands.again (.refl tree)

theorem Stands.pure (value : α) : Stands (pure value) value tree := ⟨fun _ => rfl⟩

theorem Stands.bind {step : Growth α} {next : α → Growth β} {value : α} {result : β} (first : Stands step value tree)
    (second : Stands (next value) result tree) : Stands (step >>= next) result tree := by
  refine ⟨fun prolongs => ?_⟩
  rw [on_bind_of_ok (first.again prolongs)]
  exact second.again prolongs

theorem Stands.map {step : Growth α} {value : α} (stands : Stands step value tree) (change : α → β) :
    Stands (change <$> step) (change value) tree := by
  refine ⟨fun prolongs => ?_⟩
  rw [on_map, stands.again prolongs]
  rfl

end

section
variable {tree later : NameTree}

theorem findOrAddRoot_stands {name : String} {id : PackageId} (ran : (findOrAddRoot name).on tree = (.ok id, later)) :
    Stands (findOrAddRoot name) id later := by
  have entry : later.roots.find? name = some id := by
    rcases on_findOrAddRoot_eq_ok ran with ⟨found, rfl⟩ | ⟨-, rfl, rfl⟩
    · exact found
    · exact (OrderedTable.find?_put name name _ tree.roots).trans (if_pos rfl)
  exact ⟨fun prolongs => on_findOrAddRoot_of_found (OrderedTable.find?_of_front prolongs.roots entry)⟩

theorem findOrAddPackage_stands {parent id : PackageId} {name : String} (known : tree.HasPackage parent)
    (ran : (findOrAddPackage parent name).on tree = (.ok id, later)) : Stands (findOrAddPackage parent name) id later := by
  have entry : (later.package parent).children.find? name = some id := by
    rcases on_findOrAddPackage_eq_ok ran with ⟨found, rfl⟩ | ⟨-, rfl, rfl⟩
    · exact found
    · simp only [add, package_addPackage known, if_true]
      exact (OrderedTable.find?_put name name _ _).trans (if_pos rfl)
  exact ⟨fun prolongs => on_findOrAddPackage_of_found (OrderedTable.find?_of_front (prolongs.children parent) entry)⟩

theorem findOrAddClass_stands {owner : Scope} {id : ClassId} {name : String} (known : tree.HasScope owner)
    (ran : (findOrAddClass owner name).on tree = (.ok id, later)) : Stands (findOrAddClass owner name) id later := by
  have entry : (later.classesOf owner).find? name = some id := by
    rcases on_findOrAddClass_eq_ok ran with ⟨found, rfl⟩ | ⟨-, rfl, rfl⟩
    · exact found
    · simp only [add, classesOf_addClass known]
      exact (OrderedTable.find?_put name name _ _).trans (if_pos rfl)
  exact ⟨fun prolongs => on_findOrAddClass_of_found (OrderedTable.find?_of_front (prolongs.classesOf owner) entry)⟩

theorem enter_stands {identifier segment : String} {scope inner : Scope} (known : tree.HasScope scope)
    (ran : (enter identifier scope segment).on tree = (.ok inner, later)) :
    Stands (enter identifier scope segment) inner later := by
  cases kind : SegmentKind.of segment with
  | javaClass =>
    rw [enter_of_class identifier scope kind] at ran ⊢
    obtain ⟨id, found, rfl⟩ := on_map_eq_ok ran
    exact (findOrAddClass_stands known found).map _
  | package =>
    cases scope with
    | package id =>
      rw [enter_of_package identifier id kind] at ran ⊢
      obtain ⟨id, found, rfl⟩ := on_map_eq_ok ran
      exact (findOrAddPackage_stands known found).map _
    | javaClass id =>
      rw [enter_below_class identifier id kind] at ran
      cases ran

theorem descend_stands {identifier : String} {rest : List String} (plain : ∀ segment ∈ rest, '.' ∉ segment.toList)
    {tree : NameTree} {scope inner : Scope} (formed : tree.Formed) (known : tree.HasScope scope)
    (ran : (descend identifier scope rest).on tree = (.ok inner, later)) :
    Stands (descend identifier scope rest) inner later := by
  induction rest generalizing tree scope with
  | nil =>
    cases ran
    exact .pure _
  | cons segment rest ih =>
    obtain ⟨next, between, entered, descended⟩ := on_bind_eq_ok ran
    have plainRest := fun other member => plain other (List.mem_cons_of_mem segment member)
    have enters : (enter identifier scope segment).Grows AnyPath tree _ :=
      enter_grows formed known identifier (plain segment List.mem_cons_self) trivial
    have formedBetween := (enters.moved_to entered).formed formed
    have nextKnown := (enters.returns entered).1.1
    have descends : (descend identifier next rest).Grows AnyPath between _ :=
      descend_grows identifier rest plainRest formedBetween nextKnown fun _ _ => trivial
    have prolongs := (descends.moved_to descended).continues.toProlongs
    exact ((enter_stands known entered).prolonged prolongs).bind (ih plainRest formedBetween nextKnown descended)

theorem resolve_stands {identifier : String} {scope : Scope} (formed : tree.Formed)
    (ran : (resolve identifier).on tree = (.ok scope, later)) : Stands (resolve identifier) scope later := by
  unfold resolve at ran ⊢
  cases parts : segments identifier with
  | nil => exact absurd parts (segments_ne_nil identifier)
  | cons root rest =>
    rw [parts] at ran
    obtain ⟨id, between, found, descended⟩ := on_bind_eq_ok ran
    have plain : ∀ segment ∈ root :: rest, '.' ∉ segment.toList := by
      intro segment member
      exact not_mem_of_mem_segments (parts ▸ member)
    have plainRest := fun other member => plain other (List.mem_cons_of_mem root member)
    have starts : (findOrAddRoot root).Grows AnyPath tree _ :=
      findOrAddRoot_grows formed (plain root List.mem_cons_self) trivial
    have formedBetween := (starts.moved_to found).formed formed
    have known := (starts.returns found).known
    have descends : (descend identifier (.package id) rest).Grows AnyPath between _ :=
      descend_grows identifier rest plainRest formedBetween known fun _ _ => trivial
    have prolongs := (descends.moved_to descended).continues.toProlongs
    exact ((findOrAddRoot_stands found).prolonged prolongs).bind
      (descend_stands plainRest formedBetween known descended)

theorem resolveClass_stands {identifier : String} {id : ClassId} (formed : tree.Formed)
    (ran : (resolveClass identifier).on tree = (.ok id, later)) : Stands (resolveClass identifier) id later := by
  obtain ⟨scope, between, resolved, ends⟩ := on_bind_eq_ok ran
  cases scope with
  | package _ => cases ends
  | javaClass _ =>
    cases ends
    exact (resolve_stands formed resolved).bind (.pure _)

theorem resolveReference_stands {reference : ClassReference} {owner : ClassId} (formed : tree.Formed)
    (ran : (resolveReference reference).on tree = (.ok owner, later)) :
    Stands (resolveReference reference) owner later := by
  cases reference with
  | node id =>
    cases ran
    exact .pure _
  | named identifier => exact resolveClass_stands formed ran

theorem resolveType_stands {descriptor : String} {type : TypeUse} (formed : tree.Formed)
    (ran : (resolveType descriptor).on tree = (.ok type, later)) : Stands (resolveType descriptor) type later := by
  obtain ⟨base, between, resolved, ends⟩ := on_bind_eq_ok ran
  cases ends
  refine Stands.bind ?_ (.pure _)
  unfold resolveBase at resolved ⊢
  cases named : Primitive.named? (Descriptor.ofString descriptor).base with
  | some primitive =>
    rw [named] at resolved
    cases resolved
    exact .pure _
  | none =>
    rw [named] at resolved
    obtain ⟨scope, reached, rfl⟩ := on_map_eq_ok resolved
    exact (resolve_stands formed reached).map _

theorem resolveTypes_stands {descriptors : List String} {types : List TypeUse} {tree : NameTree} (formed : tree.Formed)
    (ran : (resolveTypes descriptors).on tree = (.ok types, later)) :
    Stands (resolveTypes descriptors) types later := by
  induction descriptors generalizing tree types with
  | nil =>
    cases ran
    exact .pure _
  | cons descriptor rest ih =>
    obtain ⟨type, between, first, others⟩ := on_bind_eq_ok ran
    obtain ⟨more, _, resolved, ends⟩ := on_bind_eq_ok others
    cases ends
    have formedBetween := ((resolveType_grows_any formed descriptor).moved_to first).formed formed
    have prolongs := ((resolveTypes_grows_any formedBetween rest).moved_to resolved).continues.toProlongs
    exact ((resolveType_stands formed first).prolonged prolongs).bind ((ih formedBetween resolved).bind (.pure _))

theorem findOrAddMethod_stands {owner : ClassId} {signature : Signature} {arguments : List TypeUse} {id : MethodId}
    (found : tree.findMethod owner signature.name arguments = some id) :
    Stands (findOrAddMethod owner signature arguments) id tree :=
  ⟨fun prolongs => on_findOrAddMethod_of_found (OrderedTable.find?_of_front (prolongs.methods owner) found)⟩

theorem resolveMethod_stands {owner : ClassId} {text : String} {signature : Signature} {arguments : List TypeUse}
    {id : MethodId} (parsed : Signature.parse? text = some signature)
    (argued : Stands (resolveTypes signature.arguments) arguments tree)
    (found : tree.findMethod owner signature.name arguments = some id) : Stands (resolveMethod owner text) id tree := by
  have read : readSignature text = pure signature := by
    unfold readSignature
    rw [parsed]
  unfold resolveMethod
  rw [read]
  exact (Stands.pure signature).bind (argued.bind (findOrAddMethod_stands found))

end

end Growth

end ClearNames
