import ClearNames.Proofs.NameTree.Growing
import Mathlib.Data.List.Forall2

/-! What finding or making a node by its full name comes to.

The scope that is reached has the full name that was asked for. If the tree
held it before, the step made nothing: each node on the way lies above it, and
no node above a held one is new.
-/

set_option autoImplicit false

namespace ClearNames

theorem forall₂_exists_right {α β : Type} {related : α → β → Prop} {items : List α} {itemsThere : List β}
    (all : List.Forall₂ related items itemsThere) {item : α} (member : item ∈ items) :
    ∃ there ∈ itemsThere, related item there := by
  induction all with
  | nil => cases member
  | cons first _ ih =>
    rcases List.mem_cons.mp member with rfl | later
    · exact ⟨_, List.mem_cons_self, first⟩
    · obtain ⟨there, inside, holds⟩ := ih later
      exact ⟨there, List.mem_cons_of_mem _ inside, holds⟩

theorem forall₂_exists_left {α β : Type} {related : α → β → Prop} {items : List α} {itemsThere : List β}
    (all : List.Forall₂ related items itemsThere) {there : β} (member : there ∈ itemsThere) :
    ∃ item ∈ items, related item there := forall₂_exists_right all.flip member

namespace NameTree

/-- A scope that a step came to: it has a full name, and where it was held before nothing was made. -/
structure Reached (tree : NameTree) (path : List String) (scope : Scope) (later : NameTree) : Prop where
  known : later.HasScope scope
  segments : later.scopeSegments scope = path
  settled : tree.HasScope scope → later = tree

/-- What a type name stands for: the primitive of that name, or else the scope of that full name. -/
def Denotes (tree : NameTree) (name : String) : BaseType → Prop
  | .primitive primitive => Primitive.named? name = some primitive
  | .scope scope =>
    Primitive.named? name = none ∧ tree.HasScope scope ∧ tree.scopeSegments scope = NameTree.segments name

/-- What a descriptor spells: a base type of its name, with its array suffixes. -/
def Spells (tree : NameTree) (descriptor : String) (type : TypeUse) : Prop :=
  tree.Denotes (Descriptor.ofString descriptor).base type.base ∧
    type.dimension = (Descriptor.ofString descriptor).dimension

section
variable {tree later : NameTree}

theorem Spells.hasType {descriptor : String} {type : TypeUse} (spells : tree.Spells descriptor type) :
    tree.HasType type := by
  rcases type with ⟨primitive | scope, dimension⟩
  · trivial
  · exact spells.1.2.1

theorem hasType_of_spelled {descriptors : List String} {types : List TypeUse}
    (spelled : List.Forall₂ tree.Spells descriptors types) : ∀ type ∈ types, tree.HasType type := by
  intro type member
  obtain ⟨descriptor, -, spells⟩ := forall₂_exists_left spelled member
  exact spells.hasType

theorem dimension_of_spelled {descriptors : List String} {types : List TypeUse}
    (spelled : List.Forall₂ tree.Spells descriptors types) : ∀ type ∈ types, 0 ≤ type.dimension := by
  intro type member
  obtain ⟨descriptor, -, spells⟩ := forall₂_exists_left spelled member
  rw [spells.2]
  exact Int.natCast_nonneg _

theorem Keeps.spells (keeps : tree.Keeps later) (founded : tree.Founded) {descriptor : String} {type : TypeUse}
    (spells : tree.Spells descriptor type) : later.Spells descriptor type := by
  rcases type with ⟨primitive | scope, dimension⟩
  · exact spells
  · obtain ⟨⟨unnamed, known, path⟩, dimensioned⟩ := spells
    exact ⟨⟨unnamed, keeps.hasScope known, (keeps.scopeSegments founded known).trans path⟩, dimensioned⟩

end

end NameTree

namespace Growth
open NameTree

variable {α : Type} {fits : List String → Prop} {tree : NameTree}

/-! ## Finding or making one node -/

theorem on_findOrAddRoot_of_found {name : String} {id : PackageId} (found : tree.roots.find? name = some id) :
    (findOrAddRoot name).on tree = (.ok id, tree) := by
  unfold findOrAddRoot
  rw [on_get_bind, found]
  rfl

theorem on_findOrAddPackage_of_found {parent id : PackageId} {name : String}
    (found : (tree.package parent).children.find? name = some id) :
    (findOrAddPackage parent name).on tree = (.ok id, tree) := by
  unfold findOrAddPackage
  rw [on_get_bind, found]
  rfl

theorem on_findOrAddClass_of_found {owner : Scope} {id : ClassId} {name : String}
    (found : (tree.classesOf owner).find? name = some id) : (findOrAddClass owner name).on tree = (.ok id, tree) := by
  unfold findOrAddClass
  rw [on_get_bind, found]
  rfl

section
variable {later : NameTree} {name : String}

theorem on_findOrAddRoot_eq_ok {id : PackageId} (ran : (findOrAddRoot name).on tree = (.ok id, later)) :
    (tree.roots.find? name = some id ∧ later = tree) ∨
      (tree.Vacant (.root name) ∧ id = ⟨tree.packages.size⟩ ∧ later = tree.add (.root name)) := by
  cases found : tree.roots.find? name with
  | some there =>
    rw [on_findOrAddRoot_of_found found] at ran
    cases ran
    exact .inl ⟨rfl, rfl⟩
  | none =>
    unfold findOrAddRoot at ran
    rw [on_get_bind, found] at ran
    cases ran
    exact .inr ⟨found, rfl, rfl⟩

theorem on_findOrAddPackage_eq_ok {parent id : PackageId}
    (ran : (findOrAddPackage parent name).on tree = (.ok id, later)) :
    ((tree.package parent).children.find? name = some id ∧ later = tree) ∨
      (tree.Vacant (.package parent name) ∧ id = ⟨tree.packages.size⟩ ∧ later = tree.add (.package parent name)) := by
  cases found : (tree.package parent).children.find? name with
  | some there =>
    rw [on_findOrAddPackage_of_found found] at ran
    cases ran
    exact .inl ⟨rfl, rfl⟩
  | none =>
    unfold findOrAddPackage at ran
    rw [on_get_bind, found] at ran
    cases ran
    exact .inr ⟨found, rfl, rfl⟩

theorem on_findOrAddClass_eq_ok {owner : Scope} {id : ClassId}
    (ran : (findOrAddClass owner name).on tree = (.ok id, later)) :
    ((tree.classesOf owner).find? name = some id ∧ later = tree) ∨
      (tree.Vacant (.javaClass owner name) ∧ id = ⟨tree.classes.size⟩ ∧ later = tree.add (.javaClass owner name)) := by
  cases found : (tree.classesOf owner).find? name with
  | some there =>
    rw [on_findOrAddClass_of_found found] at ran
    cases ran
    exact .inl ⟨rfl, rfl⟩
  | none =>
    unfold findOrAddClass at ran
    rw [on_get_bind, found] at ran
    cases ran
    exact .inr ⟨found, rfl, rfl⟩

end

/-! ## What a step reaches -/

/-- Making a node that is missing and that a segment names. -/
theorem make_grows {change : NameTree → α × NameTree} {post : α → NameTree → Prop} {addition : Addition}
    (named : Named fits tree addition) (made : (change tree).2 = tree.add addition)
    (holds : post (change tree).1 (tree.add addition)) : (modifyGet change : Growth α).Grows fits tree post :=
  .modifyGet (made ▸ .one named) (made ▸ holds)

theorem findOrAddRoot_grows (formed : tree.Formed) {name : String} (plain : '.' ∉ name.toList) (fit : fits [name]) :
    (findOrAddRoot name).Grows fits tree fun id later => tree.Reached [name] (.package id) later := by
  unfold findOrAddRoot
  refine .get ?_
  cases found : tree.roots.find? name with
  | some id =>
    have placed := formed.entered.root (OrderedTable.mem_of_find?_eq_some found)
    exact .pure ⟨placed.1, formed.founded.packageSegments_rootAt placed, fun _ => rfl⟩
  | none =>
    have grounded : tree.Grounded (.root name) := trivial
    have placed : (tree.add (.root name)).RootAt name ⟨tree.packages.size⟩ := rootAt_addRoot name
    have founded := (formed.edit (.add grounded)).founded
    exact make_grows (.root plain found fit) rfl
      ⟨placed.1, founded.packageSegments_rootAt placed, fun known => absurd known (Nat.lt_irrefl _)⟩

theorem findOrAddPackage_grows (formed : tree.Formed) {parent : PackageId} {name : String}
    (known : tree.HasPackage parent) (plain : '.' ∉ name.toList) (kind : SegmentKind.of name = .package)
    (fit : fits (tree.packageSegments parent ++ [name])) :
    (findOrAddPackage parent name).Grows fits tree fun id later =>
      later.InsideAt (.package parent) name (.package id) ∧ (tree.HasPackage id → later = tree) := by
  unfold findOrAddPackage
  refine .get ?_
  cases found : (tree.package parent).children.find? name with
  | some id =>
    have placed := formed.entered.child (OrderedTable.mem_of_find?_eq_some found)
    exact .pure ⟨placed.insideAt, fun _ => rfl⟩
  | none =>
    exact make_grows (.package known plain kind found fit) rfl
      ⟨(childAt_addPackage known name).insideAt, fun known => absurd known (Nat.lt_irrefl _)⟩

theorem findOrAddClass_grows (formed : tree.Formed) {owner : Scope} {name : String} (known : tree.HasScope owner)
    (plain : '.' ∉ name.toList) (kind : SegmentKind.of name = .javaClass)
    (fit : fits (tree.scopeSegments owner ++ [name])) :
    (findOrAddClass owner name).Grows fits tree fun id later =>
      later.InsideAt owner name (.javaClass id) ∧ (tree.HasClass id → later = tree) := by
  unfold findOrAddClass
  refine .get ?_
  cases found : (tree.classesOf owner).find? name with
  | some id =>
    have placed := formed.entered.javaClass (OrderedTable.mem_of_find?_eq_some found)
    exact .pure ⟨placed.insideAt, fun _ => rfl⟩
  | none =>
    exact make_grows (.javaClass known plain kind found fit) rfl
      ⟨(classAt_addClass known name).insideAt, fun known => absurd known (Nat.lt_irrefl _)⟩

theorem enter_of_class (identifier : String) (scope : Scope) {segment : String}
    (kind : SegmentKind.of segment = .javaClass) :
    enter identifier scope segment = Scope.javaClass <$> findOrAddClass scope segment := by
  cases scope <;> simp only [enter, kind]

theorem enter_of_package (identifier : String) (id : PackageId) {segment : String}
    (kind : SegmentKind.of segment = .package) :
    enter identifier (.package id) segment = Scope.package <$> findOrAddPackage id segment := by
  simp only [enter, kind]

theorem enter_below_class (identifier : String) (id : ClassId) {segment : String}
    (kind : SegmentKind.of segment = .package) :
    enter identifier (.javaClass id) segment = throw (.packageBelowClass identifier segment) := by
  simp only [enter, kind]

theorem enter_grows (formed : tree.Formed) {scope : Scope} (known : tree.HasScope scope) (identifier : String)
    {segment : String} (plain : '.' ∉ segment.toList) (fit : fits (tree.scopeSegments scope ++ [segment])) :
    (enter identifier scope segment).Grows fits tree fun inner later =>
      later.InsideAt scope segment inner ∧ (tree.HasScope inner → later = tree) := by
  cases kind : SegmentKind.of segment with
  | javaClass =>
    rw [enter_of_class identifier scope kind]
    exact .map _ (findOrAddClass_grows formed known plain kind fit)
  | package =>
    cases scope with
    | package id =>
      rw [enter_of_package identifier id kind]
      exact .map _ (findOrAddPackage_grows formed known plain kind fit)
    | javaClass id =>
      rw [enter_below_class identifier id kind]
      exact .throw _

theorem descend_grows (identifier : String) (rest : List String) (plain : ∀ segment ∈ rest, '.' ∉ segment.toList)
    {tree : NameTree} (formed : tree.Formed) {scope : Scope} (known : tree.HasScope scope)
    (fit : ∀ part, part <+: rest → fits (tree.scopeSegments scope ++ part)) :
    (descend identifier scope rest).Grows fits tree fun inner later =>
      tree.Reached (tree.scopeSegments scope ++ rest) inner later ∧ later.Below scope inner := by
  induction rest generalizing tree scope with
  | nil => exact .pure ⟨⟨known, by simp, fun _ => rfl⟩, .self⟩
  | cons segment rest ih =>
    have plainFirst := plain segment List.mem_cons_self
    have plainRest := fun other member => plain other (List.mem_cons_of_mem segment member)
    have fitFirst := fit [segment] (by simp)
    refine (enter_grows formed known identifier plainFirst fitFirst).bind fun inner between grown first => ?_
    obtain ⟨placed, settled⟩ := first
    have formedBetween := grown.formed formed
    have path : between.scopeSegments inner = tree.scopeSegments scope ++ [segment] := by
      rw [formedBetween.founded.scopeSegments_insideAt placed, grown.keeps.scopeSegments formed.founded known]
    have fitRest : ∀ part, part <+: rest → fits (between.scopeSegments inner ++ part) := by
      intro part within
      rw [path, List.append_assoc]
      exact fit _ (List.prefix_cons_inj segment |>.mpr within)
    refine (ih plainRest formedBetween placed.1 fitRest).imp fun last later grownRest second => ?_
    obtain ⟨reached, below⟩ := second
    have keepsRest := grownRest.keeps
    have owned : later.ownerOf inner = some scope := (keepsRest.ownerOf placed.1).trans placed.2.2
    refine ⟨⟨reached.known, ?_, fun before => ?_⟩, .trans (.owned (keepsRest.hasScope placed.1) owned .self) below⟩
    · rw [reached.segments, path, List.append_assoc]
      rfl
    · -- The last scope lies below the inner one, so that this one was held before as well.
      have formedLater := grownRest.formed formedBetween
      have innerBefore := below.hasScope formed.founded (grown.keeps.trans keepsRest) before
      have stood := settled innerBefore
      subst stood
      exact reached.settled before

theorem resolve_grows (formed : tree.Formed) (identifier : String)
    (fit : ∀ part, part <+: segments identifier → fits part) :
    (resolve identifier).Grows fits tree fun scope later => tree.Reached (segments identifier) scope later := by
  unfold resolve
  cases parts : segments identifier with
  | nil => exact absurd parts (segments_ne_nil identifier)
  | cons root rest =>
    have plain : ∀ segment ∈ root :: rest, '.' ∉ segment.toList := by
      intro segment member
      exact not_mem_of_mem_segments (parts ▸ member)
    rw [parts] at fit
    have fitRoot := fit [root] (by simp)
    refine (findOrAddRoot_grows formed (plain root List.mem_cons_self) fitRoot).bind fun id between grown first => ?_
    have plainRest := fun other member => plain other (List.mem_cons_of_mem root member)
    have path : between.scopeSegments (.package id) = [root] := first.segments
    have fitRest : ∀ part, part <+: rest → fits (between.scopeSegments (.package id) ++ part) := by
      intro part within
      rw [path]
      exact fit _ (List.prefix_cons_inj root |>.mpr within)
    refine (descend_grows identifier rest plainRest (grown.formed formed) first.known fitRest).imp
      fun last later grownRest second => ?_
    obtain ⟨reached, below⟩ := second
    refine ⟨reached.known, ?_, fun before => ?_⟩
    · rw [reached.segments, path]
      rfl
    · have rootBefore := below.hasScope formed.founded (grown.keeps.trans grownRest.keeps) before
      have stood := first.settled rootBefore
      subst stood
      exact reached.settled before

theorem resolveClass_grows (formed : tree.Formed) (identifier : String)
    (fit : ∀ part, part <+: segments identifier → fits part) :
    (resolveClass identifier).Grows fits tree fun id later =>
      tree.Reached (segments identifier) (.javaClass id) later := by
  unfold resolveClass
  refine (resolve_grows formed identifier fit).bind fun scope between _ reached => ?_
  cases scope with
  | package id => exact .throw _
  | javaClass id => exact .pure reached

/-! ## Types -/

theorem resolveBase_grows (formed : tree.Formed) (name : String) (fit : ∀ part, part <+: segments name → fits part) :
    (resolveBase name).Grows fits tree fun base later =>
      later.Denotes name base ∧ (∀ dimension, tree.HasType ⟨base, dimension⟩ → later = tree) := by
  unfold resolveBase
  cases named : Primitive.named? name with
  | some primitive => exact .pure ⟨named, fun _ _ => rfl⟩
  | none =>
    refine .map _ ((resolve_grows formed name fit).imp fun scope later _ reached => ?_)
    exact ⟨⟨named, reached.known, reached.segments⟩, fun _ => reached.settled⟩

theorem resolveType_grows (formed : tree.Formed) (descriptor : String)
    (fit : ∀ part, part <+: segments (Descriptor.ofString descriptor).base → fits part) :
    (resolveType descriptor).Grows fits tree fun type later =>
      later.Spells descriptor type ∧ (tree.HasType type → later = tree) := by
  unfold resolveType
  refine (resolveBase_grows formed _ fit).bind fun base later _ holds => ?_
  exact .pure ⟨⟨holds.1, rfl⟩, holds.2 _⟩

theorem resolveType_grows_any (formed : tree.Formed) (descriptor : String) :
    (resolveType descriptor).Grows AnyPath tree fun type later =>
      later.Spells descriptor type ∧ (tree.HasType type → later = tree) :=
  resolveType_grows formed descriptor fun _ _ => trivial

theorem resolveTypes_grows (descriptors : List String) {tree : NameTree} (formed : tree.Formed)
    (fit : ∀ descriptor ∈ descriptors, ∀ part, part <+: segments (Descriptor.ofString descriptor).base → fits part) :
    (resolveTypes descriptors).Grows fits tree fun types later =>
      List.Forall₂ later.Spells descriptors types ∧ ((∀ type ∈ types, tree.HasType type) → later = tree) := by
  induction descriptors generalizing tree with
  | nil => exact .pure ⟨.nil, fun _ => rfl⟩
  | cons descriptor rest ih =>
    have fitFirst := fit descriptor List.mem_cons_self
    have fitRest := fun other member => fit other (List.mem_cons_of_mem descriptor member)
    unfold resolveTypes
    refine (resolveType_grows formed descriptor fitFirst).bind fun type between grown first => ?_
    refine (ih (grown.formed formed) fitRest).bind fun types later grownRest second => ?_
    obtain ⟨spells, settled⟩ := first
    obtain ⟨spelled, settledRest⟩ := second
    refine .pure ⟨.cons (grownRest.keeps.spells (grown.formed formed).founded spells) spelled, fun before => ?_⟩
    have stood := settled (before type List.mem_cons_self)
    subst stood
    exact settledRest fun other member => before other (List.mem_cons_of_mem type member)

theorem resolveTypes_grows_any (formed : tree.Formed) (descriptors : List String) :
    (resolveTypes descriptors).Grows AnyPath tree fun types later =>
      List.Forall₂ later.Spells descriptors types ∧ ((∀ type ∈ types, tree.HasType type) → later = tree) :=
  resolveTypes_grows descriptors formed fun _ _ _ _ => trivial

/-! ## Methods -/

theorem findOrAddMethod_leads_of {moves : NameTree → NameTree → Prop} [Std.Refl moves] [Trans moves moves moves]
    {owner : ClassId} {signature : Signature} {arguments : List TypeUse} (formed : tree.Formed)
    (known : tree.HasClass owner) (typed : ∀ type ∈ arguments, tree.HasType type)
    (fit : ∀ part, part <+: segments (Descriptor.ofString signature.returns).base → fits part)
    (grows : ∀ {later}, Grown fits tree later → moves tree later)
    (makes : ∀ {returns between}, Grown fits tree between → between.Spells signature.returns returns →
      between.Grounded (.method owner signature.name returns arguments) →
      between.Vacant (.method owner signature.name returns arguments) →
      moves between (between.add (.method owner signature.name returns arguments))) :
    Leads moves (findOrAddMethod owner signature arguments) tree fun id later =>
      later.HasMethod id ∧ later.findMethod owner signature.name arguments = some id := by
  unfold findOrAddMethod
  apply Leads.get
  cases found : tree.findMethod owner signature.name arguments with
  | some id => exact .pure ⟨(formed.entered.method (OrderedTable.mem_of_find?_eq_some found)).1, found⟩
  | none =>
    have resolves := resolveType_grows formed signature.returns fit
    have grown := resolves.imp fun _ _ grown holds => And.intro grown holds.1
    refine (grown.mono grows).bind fun returns between _ holds => ?_
    obtain ⟨grown, spells⟩ := holds
    have grounded := grown.grounded_method known typed spells.hasType signature.name
    -- Resolving the result type makes no method, so that the place is vacant still.
    have vacant : between.Vacant (.method owner signature.name returns arguments) :=
      (grown.findMethod owner signature.name arguments).trans found
    exact .modifyGet (makes grown spells grounded vacant)
      ⟨(methodAt_addMethod owner signature.name returns arguments).1, findMethod_addMethod grounded.1 returns⟩

end Growth

end ClearNames
