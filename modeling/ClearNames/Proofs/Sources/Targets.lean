import ClearNames.Proofs.NameTree.Located

/-! The classes of a target are those that its tables lead to, each listed once. -/

set_option autoImplicit false

namespace ClearNames

namespace NameTree

/-- A node leads to itself, and to what the tables of those nodes hold that it leads to. -/
inductive Contains (tree : NameTree) (top : Scope) : Scope → Prop where
  | self : Contains tree top top
  | child {parent id : PackageId} (above : Contains tree top (.package parent))
      (entry : id ∈ (tree.package parent).children.values) : Contains tree top (.package id)
  | javaClass {owner : Scope} {id : ClassId} (above : Contains tree top owner)
      (entry : id ∈ (tree.classesOf owner).values) : Contains tree top (.javaClass id)

variable {tree later : NameTree}

theorem Contains.trans {top middle scope : Scope} (upper : tree.Contains top middle)
    (lower : tree.Contains middle scope) : tree.Contains top scope := by
  induction lower with
  | self => exact upper
  | child _ entry ih => exact .child ih entry
  | javaClass _ entry ih => exact .javaClass ih entry

theorem Alike.symm (alike : tree.Alike later) : later.Alike tree where
  hasPackage := alike.hasPackage.symm
  hasClass := alike.hasClass.symm
  hasMethod := alike.hasMethod.symm
  package id := (alike.package id).symm
  javaClass id := (alike.javaClass id).symm
  method id := (alike.method id).symm
  roots := alike.roots.symm
  children parent := (alike.children parent).symm
  classesOf owner := (alike.classesOf owner).symm
  methods owner := (alike.methods owner).symm

theorem Alike.contains (alike : tree.Alike later) {top scope : Scope} (inside : tree.Contains top scope) :
    later.Contains top scope := by
  induction inside with
  | self => exact .self
  | child _ entry ih => exact .child ih (alike.children _ ▸ entry)
  | javaClass _ entry ih => exact .javaClass ih (alike.classesOf _ ▸ entry)

section
variable (formed : tree.Formed)
include formed

theorem Formed.mem_packagesUnder {top id : PackageId} :
    id ∈ tree.packagesUnder top ↔ tree.Contains (.package top) (.package id) := by
  constructor
  · intro listed
    induction top using formed.package_induction with
    | step top ih =>
      rw [formed.packagesUnder_eq, List.mem_cons, List.mem_flatMap] at listed
      rcases listed with rfl | ⟨child, owned, inside⟩
      · exact .self
      · exact (Contains.self.child owned).trans (ih child owned inside)
  · intro inside
    generalize place : Scope.package id = scope at inside
    induction inside generalizing id with
    | self =>
      cases place
      exact formed.self_mem_packagesUnder top
    | child _ entry ih =>
      cases place
      exact formed.child_mem_packagesUnder (ih rfl) entry
    | javaClass => cases place

theorem Formed.contains_of_mem_classesUnder {top id : ClassId} (listed : id ∈ tree.classesUnder top) :
    tree.Contains (.javaClass top) (.javaClass id) := by
  induction top using formed.class_induction with
  | step top ih =>
    rw [formed.classesUnder_eq, List.mem_cons, List.mem_flatMap] at listed
    rcases listed with rfl | ⟨inner, owned, inside⟩
    · exact .self
    · have entered : tree.Contains (.javaClass top) (.javaClass inner) := .javaClass .self owned
      exact entered.trans (ih inner owned inside)

theorem Formed.mem_classesUnder {top id : ClassId} :
    id ∈ tree.classesUnder top ↔ tree.Contains (.javaClass top) (.javaClass id) := by
  refine ⟨formed.contains_of_mem_classesUnder, fun inside => ?_⟩
  -- A class leads to classes only.
  have classes (scope : Scope) (inside : tree.Contains (.javaClass top) scope) :
      ∃ id, scope = .javaClass id ∧ id ∈ tree.classesUnder top := by
    induction inside with
    | self => exact ⟨top, rfl, formed.self_mem_classesUnder top⟩
    | child _ _ ih =>
      obtain ⟨_, place, -⟩ := ih
      cases place
    | javaClass _ entry ih =>
      obtain ⟨_, rfl, listed⟩ := ih
      exact ⟨_, rfl, formed.inner_mem_classesUnder listed entry⟩
  obtain ⟨_, place, listed⟩ := classes _ inside
  cases place
  exact listed

theorem Formed.mem_packageBranch_classIds {top : PackageId} {id : ClassId} :
    id ∈ (tree.packageBranch top).classIds ↔ tree.Contains (.package top) (.javaClass id) := by
  rw [formed.packageBranch_classIds_eq, List.mem_flatMap]
  constructor
  · rintro ⟨place, listed, within⟩
    obtain ⟨outermost, owned, under⟩ := List.mem_flatMap.mp within
    have entered : tree.Contains (.package top) (.javaClass outermost) :=
      .javaClass (formed.mem_packagesUnder.mp listed) owned
    exact entered.trans (formed.contains_of_mem_classesUnder under)
  · intro inside
    generalize place : Scope.javaClass id = scope at inside
    induction inside generalizing id with
    | self => cases place
    | child => cases place
    | @javaClass owner _ above entry ih =>
      cases place
      cases owner with
      | package holder =>
        exact ⟨holder, formed.mem_packagesUnder.mpr above,
          List.mem_flatMap.mpr ⟨_, entry, formed.self_mem_classesUnder _⟩⟩
      | javaClass outer =>
        obtain ⟨holder, listed, within⟩ := ih rfl
        obtain ⟨outermost, owned, under⟩ := List.mem_flatMap.mp within
        exact ⟨holder, listed, List.mem_flatMap.mpr ⟨outermost, owned, formed.inner_mem_classesUnder under entry⟩⟩

theorem Formed.hasScope_of_contains {top scope : Scope} (known : tree.HasScope top)
    (inside : tree.Contains top scope) : tree.HasScope scope := by
  cases inside with
  | self => exact known
  | child _ entry => exact (formed.childAt entry).1
  | javaClass _ entry => exact (formed.innerAt entry).1

end

end NameTree

namespace Sources
open NameTree

def Target.Held (tree : NameTree) : Target → Prop
  | .tree => True
  | .scope top => tree.HasScope top

/-- A node under a target, at any depth. -/
def Target.Covers (tree : NameTree) (target : Target) (node : Scope) : Prop :=
  match target with
  | .tree => ∃ root ∈ tree.roots.values, tree.Contains (.package root) node
  | .scope top => tree.Contains top node

section
variable {tree later : NameTree} {target : Target}

theorem Target.Held.alike (held : target.Held tree) (alike : tree.Alike later) : target.Held later := by
  cases target with
  | tree => trivial
  | scope top =>
    have known : tree.HasScope top := held
    exact alike.keeps.hasScope known

theorem Target.Covers.alike {node : Scope} (covered : target.Covers tree node) (alike : tree.Alike later) :
    target.Covers later node := by
  cases target with
  | tree =>
    obtain ⟨root, entered, inside⟩ := covered
    exact ⟨root, alike.roots ▸ entered, alike.contains inside⟩
  | scope top =>
    have inside : tree.Contains top node := covered
    exact alike.contains inside

theorem mem_classIds (formed : tree.Formed) {id : ClassId} :
    id ∈ target.classIds tree ↔ target.Covers tree (.javaClass id) := by
  rcases target with _ | ⟨top | top⟩
  · rw [Target.classIds, PackageBranch.listClassIds_eq, forest, List.flatMap_map, List.mem_flatMap]
    exact exists_congr fun root => and_congr_right fun _ => formed.mem_packageBranch_classIds
  · exact formed.mem_packageBranch_classIds
  · exact formed.mem_classesUnder

theorem nodup_classIds (formed : tree.Formed) : (target.classIds tree).Nodup := by
  rcases target with _ | ⟨top | top⟩
  · exact formed.classIds_tree ▸ formed.nodup_listClasses
  · rw [Target.classIds, formed.packageBranch_classIds_eq]
    exact formed.nodup_flatMap_classesIn (formed.nodup_packagesUnder top)
  · exact formed.nodup_classesUnder top

theorem Target.Held.hasClass (held : target.Held tree) (formed : tree.Formed) {id : ClassId}
    (covered : target.Covers tree (.javaClass id)) : tree.HasClass id := by
  cases target with
  | tree =>
    obtain ⟨root, entered, inside⟩ := covered
    obtain ⟨name, entry⟩ := OrderedTable.mem_values.mp entered
    exact formed.hasScope_of_contains (show tree.HasScope (.package root) from (formed.entered.root entry).1) inside
  | scope top =>
    have known : tree.HasScope top := held
    exact formed.hasScope_of_contains known covered

end

end Sources

end ClearNames
