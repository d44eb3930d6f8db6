import ClearNames.NameTree.Lookup
import ClearNames.Proofs.NameTree.Natural

/-! Full names tell the nodes of a natural tree apart.

A node is found by its full name, so that no two nodes have the same: the owner
is found by what stands before the last segment, and holds the node under it.
-/

set_option autoImplicit false

namespace ClearNames

namespace NameTree

def findPath (tree : NameTree) : List String → Option Scope
  | [] => none
  | root :: rest => do tree.findBelow (.package (← tree.roots.find? root)) rest

section
variable {tree : NameTree}

theorem find?_eq_findPath (identifier : String) : tree.find? identifier = tree.findPath (segments identifier) := by
  unfold find? findPath
  rfl

theorem findBelow_append (scope : Scope) (front back : List String) :
    tree.findBelow scope (front ++ back) = (tree.findBelow scope front).bind (tree.findBelow · back) := by
  induction front generalizing scope with
  | nil => rfl
  | cons segment rest ih =>
    simp only [List.cons_append, findBelow, Option.bind_eq_bind]
    cases tree.findInside scope segment with
    | none => rfl
    | some inner => exact ih inner

theorem findPath_append {path : List String} {scope : Scope} (found : tree.findPath path = some scope)
    (segment : String) : tree.findPath (path ++ [segment]) = tree.findInside scope segment := by
  cases path with
  | nil => cases found
  | cons root rest =>
    simp only [findPath, List.cons_append, Option.bind_eq_bind, Option.bind_eq_some_iff] at found ⊢
    obtain ⟨id, rootFound, below⟩ := found
    simp only [rootFound, Option.bind_some, findBelow_append, below]
    simp [findBelow]

theorem Natural.find?_child (natural : tree.Natural) {id parent : PackageId} (known : tree.HasPackage id)
    (owned : (tree.package id).parent = some parent) :
    (tree.package parent).children.find? (tree.package id).name = some id := by
  have placed := natural.package known
  simp only [PackagePlaced, owned] at placed
  exact OrderedTable.find?_eq_some_of_mem (natural.formed.entered.childKeys parent) placed.2.2

theorem Natural.find?_class (natural : tree.Natural) {id : ClassId} (known : tree.HasClass id) :
    (tree.classesOf (tree.javaClass id).owner).find? (tree.javaClass id).name = some id :=
  OrderedTable.find?_eq_some_of_mem (natural.formed.entered.classKeys _) (natural.javaClass known).2.2

theorem Natural.find?_child_of_class (natural : tree.Natural) {name : String}
    (kind : SegmentKind.of name = .javaClass) (parent : PackageId) :
    (tree.package parent).children.find? name = none := by
  cases found : (tree.package parent).children.find? name with
  | none => rfl
  | some id =>
    obtain ⟨known, named, owned⟩ := natural.formed.entered.child (OrderedTable.mem_of_find?_eq_some found)
    have placed := natural.package known
    simp only [PackagePlaced, owned, named, kind] at placed
    cases placed.2.1

theorem Natural.findInside (natural : tree.Natural) {scope owner : Scope} (known : tree.HasScope scope)
    (owned : tree.ownerOf scope = some owner) : tree.findInside owner (tree.simpleName scope) = some scope := by
  cases scope with
  | package id =>
    obtain ⟨parent, parentOf, rfl⟩ := Option.map_eq_some_iff.mp owned
    simp only [NameTree.findInside, simpleName, natural.find?_child known parentOf]
  | javaClass id =>
    obtain rfl := Option.some.inj owned
    have found := natural.find?_class known
    cases place : (tree.javaClass id).owner with
    | package parent =>
      rw [place] at found
      simp only [classesOf] at found
      simp only [NameTree.findInside, simpleName, natural.find?_child_of_class (natural.javaClass known).2.1, found]
      rfl
    | javaClass outer =>
      rw [place] at found
      simp only [classesOf] at found
      simp only [NameTree.findInside, simpleName, found]
      rfl

/-- Every node is found by its full name. -/
theorem Natural.findPath_scopeSegments (natural : tree.Natural) {scope : Scope} (known : tree.HasScope scope) :
    tree.findPath (tree.scopeSegments scope) = some scope := by
  have founded := natural.formed.founded
  refine founded.owner_induction (motive := fun scope => tree.findPath (tree.scopeSegments scope) = some scope)
    (fun scope known above => ?_) known
  have path := founded.scopeSegments_eq known
  cases owned : tree.ownerOf scope with
  | none =>
    cases scope with
    | javaClass id => cases owned
    | package id =>
      have root : (tree.package id).parent = none := by simpa [NameTree.ownerOf] using owned
      have placed := natural.package known
      simp only [PackagePlaced, root] at placed
      have found := OrderedTable.find?_eq_some_of_mem natural.formed.entered.rootKeys placed.2
      rw [path, owned]
      simp [findPath, simpleName, found, findBelow]
  | some owner =>
    rw [owned] at path
    rw [path, findPath_append (above owner owned), natural.findInside known owned]

theorem Natural.eq_of_scopeSegments_eq (natural : tree.Natural) {first second : Scope}
    (firstKnown : tree.HasScope first) (secondKnown : tree.HasScope second)
    (same : tree.scopeSegments first = tree.scopeSegments second) : first = second := by
  have found := natural.findPath_scopeSegments firstKnown
  rw [same, natural.findPath_scopeSegments secondKnown] at found
  exact (Option.some.inj found).symm

theorem Natural.find?_eq_some (natural : tree.Natural) {identifier : String} {scope : Scope}
    (known : tree.HasScope scope) (path : tree.scopeSegments scope = segments identifier) :
    tree.find? identifier = some scope := by
  rw [find?_eq_findPath, ← path, natural.findPath_scopeSegments known]

end

end NameTree

end ClearNames
