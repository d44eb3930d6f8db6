import ClearNames.Proofs.NameTree.Registration
import ClearNames.Proofs.NameTree.Twins

/-! Looking up by obfuscated names where no package and no class carries an obfuscation.

Such a look-up follows clear names, but comes to classes only: a full name that
stands for a package is not found. Registering methods gives packages and
classes no obfuscation.
-/

set_option autoImplicit false

namespace ClearNames

namespace NameTree

theorem matching_of_bare {α : Type} {obfuscation : α → Option String} (bare : ∀ node, obfuscation node = none)
    (name : α → String) (segment : String) (candidates : List α) :
    matching obfuscation name segment candidates = candidates.find? fun node => name node = segment := by
  have nobody : candidates.find? (fun node => obfuscation node = some segment) = none :=
    List.find?_eq_none.mpr fun node _ => by simp [bare node]
  rw [matching, nobody]

/-- No package and no class carries an obfuscation. -/
structure Unaliased (tree : NameTree) : Prop where
  packages : ∀ id, (tree.package id).obfuscation = none
  classes : ∀ id, (tree.javaClass id).obfuscation = none

theorem unaliased_empty : Unaliased empty := ⟨fun _ => rfl, fun _ => rfl⟩

section
variable {tree later : NameTree}

theorem Unaliased.grown (unaliased : tree.Unaliased) {fits : List String → Prop} (grown : Grown fits tree later) :
    later.Unaliased where
  packages id := (grown.package_obfuscation id).trans (unaliased.packages id)
  classes id := (grown.javaClass_obfuscation id).trans (unaliased.classes id)

theorem Unaliased.addMethod (unaliased : tree.Unaliased) {owner : ClassId} {name : String} {returns : TypeUse}
    {arguments : List TypeUse} (grounded : tree.Grounded (.method owner name returns arguments)) :
    (tree.add (.method owner name returns arguments)).Unaliased where
  packages id := (package_obfuscation_add grounded id).trans (unaliased.packages id)
  classes id := (javaClass_obfuscation_add grounded id).trans (unaliased.classes id)

theorem Unaliased.putMethodObfuscation (unaliased : tree.Unaliased) (id : MethodId) (obfuscation : Option String) :
    (tree.putMethodObfuscation id obfuscation).Unaliased := ⟨unaliased.packages, unaliased.classes⟩

/-! ## Clear names -/

section
variable (unaliased : tree.Unaliased) (formed : tree.Formed)
include unaliased formed

theorem Unaliased.obfuscatedRoot (segment : String) : tree.obfuscatedRoot segment = tree.roots.find? segment := by
  rw [obfuscatedRoot_eq_matching formed, matching_of_bare unaliased.packages, formed.find?_root]

theorem Unaliased.obfuscatedChild (parent : PackageId) (segment : String) :
    tree.obfuscatedChild parent segment = (tree.package parent).children.find? segment := by
  rw [NameTree.obfuscatedChild, matchPackage, matching_of_bare unaliased.packages, formed.find?_child]

theorem Unaliased.obfuscatedInner (owner : Scope) (segment : String) :
    tree.obfuscatedInner owner segment = (tree.classesOf owner).find? segment := by
  rw [NameTree.obfuscatedInner, matchClass, matching_of_bare unaliased.classes, formed.find?_class]

theorem Unaliased.obfuscatedInside (scope : Scope) (segment : String) :
    tree.obfuscatedInside scope segment = tree.findInside scope segment := by
  cases scope with
  | package id =>
    rw [obfuscatedInside_package, findInside_package, unaliased.obfuscatedChild formed, unaliased.obfuscatedInner formed]
  | javaClass id =>
    rw [NameTree.obfuscatedInside, NameTree.findInside, unaliased.obfuscatedInner formed]
    rfl

theorem Unaliased.obfuscatedClassBelow (scope : Scope) (front : List String) (last : String) :
    tree.obfuscatedClassBelow scope (front ++ [last]) =
      (tree.findBelow scope front).bind fun owner => (tree.classesOf owner).find? last := by
  induction front generalizing scope with
  | nil => exact unaliased.obfuscatedInner formed scope last
  | cons segment rest ih =>
    have step : tree.obfuscatedClassBelow scope (segment :: rest ++ [last]) =
        (tree.obfuscatedInside scope segment).bind fun inner => tree.obfuscatedClassBelow inner (rest ++ [last]) := by
      cases rest <;> rfl
    rw [step, unaliased.obfuscatedInside formed, findBelow, Option.bind_eq_bind, Option.bind_assoc]
    simp only [ih]

theorem Unaliased.obfuscatedClass {identifier last : String} {front : List String} (inner : front ≠ [])
    (parts : segments identifier = front ++ [last]) : tree.obfuscatedClass identifier =
      (tree.findPath front).bind fun owner => (tree.classesOf owner).find? last := by
  cases front with
  | nil => exact absurd rfl inner
  | cons root rest =>
    rw [List.cons_append] at parts
    simp only [NameTree.obfuscatedClass, parts, findPath, unaliased.obfuscatedRoot formed,
      unaliased.obfuscatedClassBelow formed, Option.bind_eq_bind, Option.bind_assoc]

end

section
variable (unaliased : tree.Unaliased) (natural : tree.Natural) {name : String}
include unaliased natural

theorem Unaliased.obfuscatedClass_of_class {id : ClassId} (known : tree.HasClass id)
    (path : tree.classSegments id = segments name) : tree.obfuscatedClass name = some id := by
  have founded := natural.formed.founded
  have scopeKnown : tree.HasScope (.javaClass id) := known
  have split := founded.scopeSegments_eq scopeKnown
  rw [scopeSegments, path] at split
  have owner : tree.HasScope (tree.javaClass id).owner := founded.hasOwner scopeKnown rfl
  rw [unaliased.obfuscatedClass natural.formed (tree.scopeSegments_ne_nil _) split, natural.findPath_scopeSegments owner, Option.bind_some]
  exact natural.find?_class known

theorem Unaliased.obfuscatedClass_of_package {id : PackageId} (known : tree.HasPackage id)
    (path : tree.packageSegments id = segments name) : tree.obfuscatedClass name = none := by
  have founded := natural.formed.founded
  have scopeKnown : tree.HasScope (.package id) := known
  have split := founded.scopeSegments_eq scopeKnown
  rw [scopeSegments, path] at split
  cases owned : tree.ownerOf (.package id) with
  | none =>
    -- A single segment names a root, below which nothing is looked for.
    rw [owned] at split
    simp only [NameTree.obfuscatedClass, split, List.nil_append]
    cases tree.obfuscatedRoot _ <;> rfl
  | some owner =>
    rw [owned] at split
    have ownerKnown := founded.hasOwner scopeKnown owned
    rw [unaliased.obfuscatedClass natural.formed (tree.scopeSegments_ne_nil owner) split,
      natural.findPath_scopeSegments ownerKnown, Option.bind_some]
    -- A class of that name would have the full name of the package.
    rw [Option.eq_none_iff_forall_ne_some]
    intro other found
    have placed := natural.formed.entered.javaClass (OrderedTable.mem_of_find?_eq_some found)
    have otherPath := founded.scopeSegments_insideAt placed.insideAt
    have twin := natural.eq_of_scopeSegments_eq (show tree.HasScope (.javaClass other) from placed.1) scopeKnown
      (otherPath.trans (split.symm.trans path.symm))
    cases twin

end

end

end NameTree

end ClearNames
