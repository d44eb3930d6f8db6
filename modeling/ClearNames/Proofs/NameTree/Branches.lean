import ClearNames.NameTree.Document
import ClearNames.Proofs.NameTree.Formed

/-! A forest is what its nodes' tables say, at every depth.

A node lies in an earlier one, so that a branch cut off at the size of the
store is not cut off at all: it is the node with the branches of what it owns.
A worklist that is taken from node by node runs through the branches.
-/

set_option autoImplicit false

namespace ClearNames

/-! ## Lists of branches -/

theorem ClassBranch.listClassIds_eq (branches : List ClassBranch) :
    ClassBranch.listClassIds branches = branches.flatMap ClassBranch.classIds := by
  induction branches with
  | nil => rfl
  | cons branch rest ih => rw [listClassIds, ih, List.flatMap_cons]

theorem ClassBranch.documents_eq (tree : NameTree) (branches : List ClassBranch) :
    ClassBranch.documents tree branches = branches.map (·.document tree) := by
  induction branches with
  | nil => rfl
  | cons branch rest ih => rw [documents, ih, List.map_cons]

namespace PackageBranch

theorem listClassIds_eq (branches : List PackageBranch) : listClassIds branches = branches.flatMap classIds := by
  induction branches with
  | nil => rfl
  | cons branch rest ih => rw [listClassIds, ih, List.flatMap_cons]

theorem listPackageIds_eq (branches : List PackageBranch) : listPackageIds branches = branches.flatMap packageIds := by
  induction branches with
  | nil => rfl
  | cons branch rest ih => rw [listPackageIds, ih, List.flatMap_cons]

theorem documents_eq (tree : NameTree) (branches : List PackageBranch) :
    documents tree branches = branches.map (·.document tree) := by
  induction branches with
  | nil => rfl
  | cons branch rest ih => rw [documents, ih, List.map_cons]

end PackageBranch

namespace NameTree
variable {tree : NameTree}

/-! ## Owned nodes come later -/

theorem Formed.childAt (formed : tree.Formed) {parent child : PackageId}
    (owned : child ∈ (tree.package parent).children.values) :
    tree.HasPackage child ∧ (tree.package child).parent = some parent ∧ parent.index < child.index := by
  obtain ⟨name, entry⟩ := OrderedTable.mem_values.mp owned
  obtain ⟨known, -, inside⟩ := formed.entered.child entry
  have founded := formed.founded.package known
  rw [PackageFounded, inside] at founded
  exact ⟨known, inside, founded.1⟩

theorem Formed.innerAt (formed : tree.Formed) {owner : Scope} {inner : ClassId}
    (owned : inner ∈ (tree.classesOf owner).values) : tree.HasClass inner ∧ (tree.javaClass inner).owner = owner := by
  obtain ⟨name, entry⟩ := OrderedTable.mem_values.mp owned
  obtain ⟨known, -, inside⟩ := formed.entered.javaClass entry
  exact ⟨known, inside⟩

theorem Formed.lt_of_inner (formed : tree.Formed) {outer inner : ClassId}
    (owned : inner ∈ (tree.javaClass outer).classes.values) : outer.index < inner.index := by
  obtain ⟨known, inside⟩ := formed.innerAt (show inner ∈ (tree.classesOf (.javaClass outer)).values from owned)
  have founded := formed.founded.javaClass known
  rw [ClassFounded, inside] at founded
  exact founded.1

/-! ## Branches by their nodes -/

theorem Formed.classBranchTo_succ (formed : tree.Formed) {depth : Nat} {id : ClassId}
    (enough : tree.classes.size ≤ depth + id.index) : tree.classBranchTo depth id = tree.classBranchTo (depth + 1) id := by
  induction depth generalizing id with
  | zero =>
    have unknown : ¬ tree.HasClass id := Nat.not_lt.mpr (by omega)
    simp only [classBranchTo, javaClass_of_not_has unknown]
    rfl
  | succ depth ih =>
    rw [classBranchTo, classBranchTo]
    congr 1
    refine List.map_congr_left fun inner owned => ih ?_
    have later := formed.lt_of_inner owned
    omega

theorem Formed.packageBranchTo_succ (formed : tree.Formed) {depth : Nat} {id : PackageId}
    (enough : tree.packages.size ≤ depth + id.index) :
    tree.packageBranchTo depth id = tree.packageBranchTo (depth + 1) id := by
  induction depth generalizing id with
  | zero =>
    have unknown : ¬ tree.HasPackage id := Nat.not_lt.mpr (by omega)
    simp only [packageBranchTo, package_of_not_has unknown]
    rfl
  | succ depth ih =>
    rw [packageBranchTo, packageBranchTo]
    congr 1
    refine List.map_congr_left fun child owned => ih ?_
    have later := (formed.childAt owned).2.2
    omega

theorem Formed.classBranch_eq (formed : tree.Formed) (id : ClassId) :
    tree.classBranch id = .node id ((tree.javaClass id).classes.values.map tree.classBranch) :=
  formed.classBranchTo_succ (Nat.le_add_right _ _)

theorem Formed.packageBranch_eq (formed : tree.Formed) (id : PackageId) :
    tree.packageBranch id = .node id ((tree.package id).classes.values.map tree.classBranch)
      ((tree.package id).children.values.map tree.packageBranch) :=
  formed.packageBranchTo_succ (Nat.le_add_right _ _)

/-! ## Nodes of branches -/

def classesUnder (tree : NameTree) (id : ClassId) : List ClassId := (tree.classBranch id).classIds

def packagesUnder (tree : NameTree) (id : PackageId) : List PackageId := (tree.packageBranch id).packageIds

def classesIn (tree : NameTree) (id : PackageId) : List ClassId :=
  (tree.package id).classes.values.flatMap tree.classesUnder

section
variable (formed : tree.Formed)
include formed

theorem Formed.classesUnder_eq (id : ClassId) :
    tree.classesUnder id = id :: (tree.javaClass id).classes.values.flatMap tree.classesUnder := by
  rw [classesUnder, formed.classBranch_eq, ClassBranch.classIds, ClassBranch.listClassIds_eq, List.flatMap_map]
  rfl

theorem Formed.packagesUnder_eq (id : PackageId) :
    tree.packagesUnder id = id :: (tree.package id).children.values.flatMap tree.packagesUnder := by
  rw [packagesUnder, formed.packageBranch_eq, PackageBranch.packageIds, PackageBranch.listPackageIds_eq,
    List.flatMap_map]
  rfl

theorem Formed.packageBranch_classIds (id : PackageId) :
    (tree.packageBranch id).classIds =
      tree.classesIn id ++ (tree.package id).children.values.flatMap fun child => (tree.packageBranch child).classIds := by
  rw [formed.packageBranch_eq, PackageBranch.classIds, ClassBranch.listClassIds_eq, PackageBranch.listClassIds_eq,
    List.flatMap_map, List.flatMap_map]
  rfl

/-- What holds of a package wherever it holds of all packages inside it holds of every package. -/
theorem Formed.package_induction {motive : PackageId → Prop}
    (step : ∀ id, (∀ child ∈ (tree.package id).children.values, motive child) → motive id) (id : PackageId) :
    motive id := by
  -- On the distance to the end of the store, which every step inwards shortens.
  generalize distance : tree.packages.size - id.index = count
  induction count using Nat.strongRecOn generalizing id with
  | ind count ih =>
    refine step id fun child owned => ih _ ?_ child rfl
    obtain ⟨known, -, later⟩ := formed.childAt owned
    have within : child.index < tree.packages.size := known
    omega

theorem Formed.class_induction {motive : ClassId → Prop}
    (step : ∀ id, (∀ inner ∈ (tree.javaClass id).classes.values, motive inner) → motive id) (id : ClassId) :
    motive id := by
  generalize distance : tree.classes.size - id.index = count
  induction count using Nat.strongRecOn generalizing id with
  | ind count ih =>
    refine step id fun inner owned => ih _ ?_ inner rfl
    have within : inner.index < tree.classes.size :=
      (formed.innerAt (show inner ∈ (tree.classesOf (.javaClass id)).values from owned)).1
    have later := formed.lt_of_inner owned
    omega

/-! ## Worklists -/

theorem Formed.takePackages_eq (steps : Nat) (waiting : List PackageId) :
    tree.takePackages steps waiting = (waiting.flatMap tree.packagesUnder).take steps := by
  induction steps generalizing waiting with
  | zero => rfl
  | succ steps ih =>
    cases waiting with
    | nil => rfl
    | cons id waiting =>
      rw [takePackages, ih, List.flatMap_append, List.flatMap_cons, formed.packagesUnder_eq id, List.cons_append,
        List.take_succ_cons]

theorem Formed.takeClasses_eq (steps : Nat) (waiting : List ClassId) :
    tree.takeClasses steps waiting = (waiting.flatMap tree.classesUnder).take steps := by
  induction steps generalizing waiting with
  | zero => rfl
  | succ steps ih =>
    cases waiting with
    | nil => rfl
    | cons id waiting =>
      rw [takeClasses, ih, List.flatMap_append, List.flatMap_cons, formed.classesUnder_eq id, List.cons_append,
        List.take_succ_cons]

end

end NameTree

end ClearNames
