import ClearNames.Proofs.NameTree.Formed

/-! Owners of packages and classes, and full names along them.

A founded tree has no cycle of owners, each full name is that of the owner and
one segment more, and a node never outlives the scope that it lies below.
-/

set_option autoImplicit false

namespace ClearNames

namespace NameTree

/-! ## Owners of scopes -/

/-- The scope that a package or a class lies in; none for a root. -/
def ownerOf (tree : NameTree) : Scope → Option Scope
  | .package id => (tree.package id).parent.map .package
  | .javaClass id => some (tree.javaClass id).owner

/-- The last segment of the full name of a package or a class. -/
def simpleName (tree : NameTree) : Scope → String
  | .package id => (tree.package id).name
  | .javaClass id => (tree.javaClass id).name

theorem scopeSegments_ne_nil (tree : NameTree) (scope : Scope) : tree.scopeSegments scope ≠ [] := by
  cases scope <;> simp [scopeSegments, packageSegments, classSegments]

section
variable {tree later : NameTree}

theorem Keeps.ownerOf (keeps : tree.Keeps later) {scope : Scope} (known : tree.HasScope scope) :
    later.ownerOf scope = tree.ownerOf scope := by
  cases scope with
  | package id => simp only [NameTree.ownerOf, keeps.package_parent known]
  | javaClass id => simp only [NameTree.ownerOf, keeps.javaClass_owner known]

theorem Founded.hasOwner (founded : tree.Founded) {scope owner : Scope} (known : tree.HasScope scope)
    (owned : tree.ownerOf scope = some owner) : tree.HasScope owner := by
  cases scope with
  | package id =>
    obtain ⟨parent, parentOf, rfl⟩ := Option.map_eq_some_iff.mp owned
    have placed := founded.package known
    simp only [PackageFounded, parentOf] at placed
    exact Nat.lt_trans placed.1 known
  | javaClass id =>
    have placed := founded.javaClass known
    obtain rfl := Option.some.inj owned
    unfold ClassFounded at placed
    cases place : (tree.javaClass id).owner with
    | package parent =>
      rw [place] at placed
      exact placed.1
    | javaClass outer =>
      rw [place] at placed
      exact Nat.lt_trans placed.1 known

theorem Founded.hasPackageOf (founded : tree.Founded) {id : ClassId} (known : tree.HasClass id) :
    tree.HasPackage (tree.javaClass id).package := by
  obtain ⟨index⟩ := id
  induction index using Nat.strongRecOn with
  | ind index ih =>
    have placed := founded.javaClass known
    unfold ClassFounded at placed
    cases place : (tree.javaClass ⟨index⟩).owner with
    | package parent =>
      rw [place] at placed
      exact placed.2.1 ▸ placed.1
    | javaClass outer =>
      rw [place] at placed
      rw [placed.2.1]
      exact ih outer.index placed.1 (Nat.lt_trans placed.1 known)

/-- The full name of a node is that of its owner and one segment more. -/
theorem Founded.scopeSegments_eq (founded : tree.Founded) {scope : Scope} (known : tree.HasScope scope) :
    tree.scopeSegments scope =
      (match tree.ownerOf scope with | none => [] | some owner => tree.scopeSegments owner) ++
        [tree.simpleName scope] := by
  cases scope with
  | package id =>
    have placed := founded.package known
    unfold PackageFounded at placed
    cases parentOf : (tree.package id).parent with
    | none =>
      rw [parentOf] at placed
      simp [scopeSegments, packageSegments, NameTree.ownerOf, simpleName, parentOf, placed]
    | some parent =>
      rw [parentOf] at placed
      simp [scopeSegments, packageSegments, NameTree.ownerOf, simpleName, parentOf, placed.2]
  | javaClass id =>
    have placed := founded.javaClass known
    unfold ClassFounded at placed
    cases place : (tree.javaClass id).owner with
    | package parent =>
      rw [place] at placed
      simp [scopeSegments, classSegments, NameTree.ownerOf, simpleName, place, placed.2.1, placed.2.2]
    | javaClass outer =>
      rw [place] at placed
      simp [scopeSegments, classSegments, NameTree.ownerOf, simpleName, place, placed.2.1, placed.2.2]

theorem Founded.owner_induction (founded : tree.Founded) {motive : Scope → Prop}
    (step : ∀ scope, tree.HasScope scope → (∀ owner, tree.ownerOf scope = some owner → motive owner) → motive scope)
    {scope : Scope} (known : tree.HasScope scope) : motive scope := by
  -- On the length of the full name: packages and classes are numbered apart, so that no number would do.
  generalize size : (tree.scopeSegments scope).length = length
  induction length using Nat.strongRecOn generalizing scope with
  | ind length ih =>
    refine step scope known fun owner owned => ?_
    have path := founded.scopeSegments_eq known
    rw [owned] at path
    have shorter : (tree.scopeSegments owner).length < length := by
      rw [← size, path, List.length_append]
      exact Nat.lt_succ_self _
    exact ih _ shorter (founded.hasOwner known owned) rfl

theorem Keeps.scopeSegments (keeps : tree.Keeps later) (founded : tree.Founded) {scope : Scope}
    (known : tree.HasScope scope) : later.scopeSegments scope = tree.scopeSegments scope := by
  cases scope with
  | package id => exact keeps.packageSegments known
  | javaClass id =>
    simp only [NameTree.scopeSegments, classSegments, keeps.javaClass_package known,
      keeps.javaClass_outer known, keeps.javaClass_name known, keeps.packageSegments (founded.hasPackageOf known)]

/-- A scope that lies directly in another, under a name. -/
def InsideAt (tree : NameTree) (owner : Scope) (name : String) (scope : Scope) : Prop :=
  tree.HasScope scope ∧ tree.simpleName scope = name ∧ tree.ownerOf scope = some owner

theorem ChildAt.insideAt {parent id : PackageId} {name : String} (placed : tree.ChildAt parent name id) :
    tree.InsideAt (.package parent) name (.package id) :=
  ⟨placed.1, placed.2.1, by simp [NameTree.ownerOf, placed.2.2]⟩

theorem ClassAt.insideAt {owner : Scope} {id : ClassId} {name : String} (placed : tree.ClassAt owner name id) :
    tree.InsideAt owner name (.javaClass id) :=
  ⟨placed.1, placed.2.1, congrArg some placed.2.2⟩

theorem Founded.scopeSegments_insideAt (founded : tree.Founded) {owner scope : Scope} {name : String}
    (placed : tree.InsideAt owner name scope) : tree.scopeSegments scope = tree.scopeSegments owner ++ [name] := by
  obtain ⟨known, named, owned⟩ := placed
  rw [founded.scopeSegments_eq known, owned, named]

theorem Founded.packageSegments_rootAt (founded : tree.Founded) {id : PackageId} {name : String}
    (placed : tree.RootAt name id) : tree.packageSegments id = [name] := by
  obtain ⟨known, named, root⟩ := placed
  have path := founded.scopeSegments_eq (show tree.HasScope (.package id) from known)
  simpa [scopeSegments, NameTree.ownerOf, simpleName, root, named] using path

/-- A node lies below a scope: its owner, the owner of that, and so on, is the scope. -/
inductive Below (tree : NameTree) (top : Scope) : Scope → Prop where
  | self : Below tree top top
  | owned {scope owner : Scope} (known : tree.HasScope scope) (own : tree.ownerOf scope = some owner)
      (below : Below tree top owner) : Below tree top scope

theorem Below.trans {top middle scope : Scope} (upper : tree.Below top middle) (lower : tree.Below middle scope) :
    tree.Below top scope := by
  induction lower with
  | self => exact upper
  | owned known own _ ih => exact .owned known own ih

theorem Below.hasScope {top scope : Scope} (below : later.Below top scope) (founded : tree.Founded)
    (keeps : tree.Keeps later) (known : tree.HasScope scope) : tree.HasScope top := by
  induction below with
  | self => exact known
  | owned _ own _ ih => exact ih (founded.hasOwner known ((keeps.ownerOf known).symm.trans own))

end

end NameTree

end ClearNames
