import ClearNames.Proofs.NameTree.Paths
import ClearNames.Proofs.NameTree.Routes

/-! Full names identify the packages and classes of a tree.

No segment of a full name holds a dot, so that the text falls into the same
segments again. Where the node of a name is there, making what is missing goes
the way that looking up goes: casing and the kind of a node agree.
-/

set_option autoImplicit false

namespace ClearNames

namespace NameTree

section
variable {tree : NameTree}

/-! ## Full names as texts -/

theorem Natural.dot_not_mem_simpleName (natural : tree.Natural) {scope : Scope} (known : tree.HasScope scope) :
    '.' ∉ (tree.simpleName scope).toList := by
  cases scope with
  | package id => exact (natural.package known).1
  | javaClass id => exact (natural.javaClass known).1

theorem Natural.dot_not_mem_scopeSegments (natural : tree.Natural) {scope : Scope} (known : tree.HasScope scope) :
    ∀ segment ∈ tree.scopeSegments scope, '.' ∉ segment.toList := by
  have founded := natural.formed.founded
  -- From owners to what they hold: a full name is that of the owner and the node's own name.
  refine founded.owner_induction
    (motive := fun scope => ∀ segment ∈ tree.scopeSegments scope, '.' ∉ segment.toList)
    (fun scope known above segment member => ?_) known
  rw [founded.scopeSegments_eq known] at member
  rcases List.mem_append.mp member with earlier | last
  · cases owned : tree.ownerOf scope with
    | none =>
      rw [owned] at earlier
      cases earlier
    | some owner =>
      rw [owned] at earlier
      exact above owner owned segment earlier
  · rw [List.mem_singleton.mp last]
    exact natural.dot_not_mem_simpleName known

theorem Natural.segments_scopeName (natural : tree.Natural) {scope : Scope} (known : tree.HasScope scope) :
    segments (tree.scopeName scope) = tree.scopeSegments scope := by
  have nonempty : tree.scopeSegments scope ≠ [] := by
    rw [natural.formed.founded.scopeSegments_eq known]
    simp
  exact segments_intercalate nonempty (natural.dot_not_mem_scopeSegments known)

theorem Natural.find?_scopeName (natural : tree.Natural) {scope : Scope} (known : tree.HasScope scope) :
    tree.find? (tree.scopeName scope) = some scope :=
  natural.find?_eq_some known (natural.segments_scopeName known).symm

/-! ## Making what is there already -/

theorem Natural.kind_of_findInside (natural : tree.Natural) {scope inner : Scope} {segment : String}
    (found : tree.findInside scope segment = some inner) :
    (SegmentKind.of segment = .package ∧ ∃ parent child, scope = .package parent ∧ inner = .package child ∧
        (tree.package parent).children.find? segment = some child) ∨
      (SegmentKind.of segment = .javaClass ∧ ∃ id, inner = .javaClass id ∧
        (tree.classesOf scope).find? segment = some id) := by
  have entered := natural.formed.entered
  have ofClass {id : ClassId} (entry : (tree.classesOf scope).find? segment = some id) :
      SegmentKind.of segment = .javaClass := by
    obtain ⟨known, rfl, -⟩ := entered.javaClass (OrderedTable.mem_of_find?_eq_some entry)
    exact (natural.javaClass known).2.1
  -- A sub-package is looked for before a class, and by its casing there is no class of that name.
  cases scope with
  | package parent =>
    cases child : (tree.package parent).children.find? segment with
    | some id =>
      simp only [NameTree.findInside, child, Option.some.injEq] at found
      obtain ⟨known, rfl, owned⟩ := entered.child (OrderedTable.mem_of_find?_eq_some child)
      have placed := natural.package known
      simp only [PackagePlaced, owned] at placed
      exact Or.inl ⟨placed.2.1, parent, id, rfl, found.symm, child⟩
    | none =>
      simp only [NameTree.findInside, child, Option.map_eq_some_iff] at found
      obtain ⟨id, entry, rfl⟩ := found
      exact Or.inr ⟨ofClass entry, id, rfl, entry⟩
  | javaClass outer =>
    simp only [NameTree.findInside, Option.map_eq_some_iff] at found
    obtain ⟨id, entry, rfl⟩ := found
    exact Or.inr ⟨ofClass entry, id, rfl, entry⟩

theorem Natural.on_enter_of_findInside (natural : tree.Natural) (identifier : String) {scope inner : Scope}
    {segment : String} (found : tree.findInside scope segment = some inner) :
    (enter identifier scope segment).on tree = (.ok inner, tree) := by
  rcases natural.kind_of_findInside found with ⟨kind, parent, child, rfl, rfl, entry⟩ | ⟨kind, id, rfl, entry⟩
  · rw [Growth.enter_of_package identifier parent kind, Growth.on_map, Growth.on_findOrAddPackage_of_found entry]
    rfl
  · rw [Growth.enter_of_class identifier scope kind, Growth.on_map, Growth.on_findOrAddClass_of_found entry]
    rfl

theorem Natural.on_descend_of_findBelow (natural : tree.Natural) (identifier : String) {scope last : Scope}
    {path : List String} (found : tree.findBelow scope path = some last) :
    (descend identifier scope path).on tree = (.ok last, tree) := by
  -- On the path: each step enters what the look-up found, so that the tree stays.
  induction path generalizing scope with
  | nil =>
    cases found
    rfl
  | cons segment rest ih =>
    simp only [findBelow, Option.bind_eq_bind, Option.bind_eq_some_iff] at found
    obtain ⟨inner, first, below⟩ := found
    unfold descend
    rw [Growth.on_bind_of_ok (natural.on_enter_of_findInside identifier first)]
    exact ih below

theorem Natural.on_resolve_of_find? (natural : tree.Natural) {identifier : String} {scope : Scope}
    (found : tree.find? identifier = some scope) : (resolve identifier).on tree = (.ok scope, tree) := by
  unfold find? at found
  unfold resolve
  cases parts : segments identifier with
  | nil => exact absurd parts (segments_ne_nil identifier)
  | cons root rest =>
    simp only [parts, Option.bind_eq_bind, Option.bind_eq_some_iff] at found
    obtain ⟨id, first, below⟩ := found
    dsimp only
    rw [Growth.on_bind_of_ok (Growth.on_findOrAddRoot_of_found first)]
    exact natural.on_descend_of_findBelow identifier below

theorem Natural.find?_class_of_child (natural : tree.Natural) {parent : PackageId} {name : String}
    (child : name ∈ OrderedTable.keys (tree.package parent).children) :
    name ∉ OrderedTable.keys (tree.package parent).classes := by
  intro entry
  obtain ⟨⟨_, id⟩, member, rfl⟩ := List.mem_map.mp entry
  obtain ⟨known, named, -⟩ : tree.ClassAt (.package parent) _ id := natural.formed.entered.javaClass member
  have kind := (natural.javaClass known).2.1
  rw [named] at kind
  exact OrderedTable.find?_eq_none_iff.mp (natural.find?_child_of_class kind parent) child

end

/-- In every tree that requests lead to, the full name of a package or a class
finds it and makes nothing, and finds a class exactly where it is one. Distinct
nodes have distinct full names, in particular inside one package. -/
theorem Requested.fullName_identifies {tree : NameTree} (requested : Requested tree) :
    (∀ scope, tree.HasScope scope →
      tree.find? (tree.scopeName scope) = some scope ∧
        (resolve (tree.scopeName scope)).on tree = (.ok scope, tree) ∧
        ∀ id, tree.findClass? (tree.scopeName scope) = some id ↔ scope = .javaClass id) ∧
      (∀ first second, tree.HasScope first → tree.HasScope second → tree.scopeName first = tree.scopeName second →
        first = second) ∧
      ∀ parent name, ¬ (name ∈ OrderedTable.keys (tree.package parent).children ∧
        name ∈ OrderedTable.keys (tree.package parent).classes) := by
  have natural := requested.natural
  refine ⟨fun scope known => ?_, fun first second firstKnown secondKnown same => ?_, ?_⟩
  · have found := natural.find?_scopeName known
    refine ⟨found, natural.on_resolve_of_find? found, fun id => ?_⟩
    rw [findClass?, found]
    cases scope with
    | package _ => simp
    | javaClass _ => simp
  · have found := natural.find?_scopeName firstKnown
    rw [same, natural.find?_scopeName secondKnown] at found
    exact (Option.some.inj found).symm
  · rintro parent name ⟨child, inner⟩
    exact natural.find?_class_of_child child inner

/-- A root that has the casing of a class, with a class inside a class, after a request that fails below a class. -/
def capitalRoot : NameTree := Request.after (Request.after .empty (.scope "Lib.Outer.Inner")) (.scope "Lib.Outer.part")

theorem fullName_identifies_capitalRoot :
    capitalRoot.HasScope (.javaClass ⟨1⟩) ∧ capitalRoot.scopeName (.javaClass ⟨1⟩) = "Lib.Outer.Inner" ∧
      (resolve "Lib.Outer.Inner").on capitalRoot = (.ok (.javaClass ⟨1⟩), capitalRoot) ∧
      capitalRoot.findClass? "Lib" = none := by
  have nested : Request.Held .empty (.scope "Lib.Outer.Inner") := trivial
  have refused : Request.Held (Request.after .empty (.scope "Lib.Outer.Inner")) (.scope "Lib.Outer.part") := trivial
  have requested : Requested capitalRoot := .after (.after .empty nested) refused
  have inner : capitalRoot.HasScope (.javaClass ⟨1⟩) := show 1 < capitalRoot.classes.size by decide +kernel
  have root : capitalRoot.HasScope (.package ⟨0⟩) := show 0 < capitalRoot.packages.size by decide +kernel
  have innerName : capitalRoot.scopeName (.javaClass ⟨1⟩) = "Lib.Outer.Inner" := by decide +kernel
  have rootName : capitalRoot.scopeName (.package ⟨0⟩) = "Lib" := by decide +kernel
  obtain ⟨-, resolved, -⟩ := requested.fullName_identifies.1 _ inner
  obtain ⟨-, -, classes⟩ := requested.fullName_identifies.1 _ root
  rw [innerName] at resolved
  rw [rootName] at classes
  refine ⟨inner, innerName, resolved, Option.eq_none_iff_forall_ne_some.mpr fun id found => ?_⟩
  cases (classes id).mp found

end NameTree

end ClearNames
