import ClearNames.NameTree.Basic

/-! The nodes that a tree holds, in order.

A forest is the part of the stores that the roots reach, as nested data:
packages before their inner packages, classes before their inner classes,
siblings in the order in which they were entered. The listings go over the
stores with a worklist instead, one node at each step.
-/

set_option autoImplicit false

namespace ClearNames

inductive ClassBranch where
  | node (id : ClassId) (inner : List ClassBranch)
  deriving Repr

inductive PackageBranch where
  | node (id : PackageId) (classes : List ClassBranch) (children : List PackageBranch)
  deriving Repr

mutual

def ClassBranch.classIds : ClassBranch → List ClassId
  | .node id inner => id :: ClassBranch.listClassIds inner

def ClassBranch.listClassIds : List ClassBranch → List ClassId
  | [] => []
  | branch :: rest => branch.classIds ++ ClassBranch.listClassIds rest

end

mutual

def PackageBranch.classIds : PackageBranch → List ClassId
  | .node _ classes children => ClassBranch.listClassIds classes ++ PackageBranch.listClassIds children

def PackageBranch.listClassIds : List PackageBranch → List ClassId
  | [] => []
  | branch :: rest => branch.classIds ++ PackageBranch.listClassIds rest

end

mutual

def PackageBranch.packageIds : PackageBranch → List PackageId
  | .node id _ children => id :: PackageBranch.listPackageIds children

def PackageBranch.listPackageIds : List PackageBranch → List PackageId
  | [] => []
  | branch :: rest => branch.packageIds ++ PackageBranch.listPackageIds rest

end

namespace NameTree

def classBranchTo (tree : NameTree) : (depth : Nat) → ClassId → ClassBranch
  | 0, id => .node id []
  | depth + 1, id => .node id ((tree.javaClass id).classes.values.map (tree.classBranchTo depth))

/-- A class with all classes inside it: no chain of owners is longer than the store. -/
def classBranch (tree : NameTree) (id : ClassId) : ClassBranch := tree.classBranchTo tree.classes.size id

def packageBranchTo (tree : NameTree) : (depth : Nat) → PackageId → PackageBranch
  | 0, id => .node id ((tree.package id).classes.values.map tree.classBranch) []
  | depth + 1, id =>
    .node id ((tree.package id).classes.values.map tree.classBranch)
      ((tree.package id).children.values.map (tree.packageBranchTo depth))

def packageBranch (tree : NameTree) (id : PackageId) : PackageBranch :=
  tree.packageBranchTo tree.packages.size id

def forest (tree : NameTree) : List PackageBranch := tree.roots.values.map tree.packageBranch

def takePackages (tree : NameTree) : (steps : Nat) → List PackageId → List PackageId
  | 0, _ => []
  | _ + 1, [] => []
  | steps + 1, id :: waiting =>
    id :: tree.takePackages steps ((tree.package id).children.values ++ waiting)

def takeClasses (tree : NameTree) : (steps : Nat) → List ClassId → List ClassId
  | 0, _ => []
  | _ + 1, [] => []
  | steps + 1, id :: waiting =>
    id :: tree.takeClasses steps ((tree.javaClass id).classes.values ++ waiting)

/-- Every package of the tree, parents before children. -/
def listPackages (tree : NameTree) : List PackageId := tree.takePackages tree.packages.size tree.roots.values

/-- Every class of the tree, package by package, outer before inner. -/
def listClasses (tree : NameTree) : List ClassId :=
  tree.listPackages.flatMap fun id => tree.takeClasses tree.classes.size (tree.package id).classes.values

def listMethods (tree : NameTree) : List MethodId :=
  tree.listClasses.flatMap fun id => (tree.javaClass id).methods.values

end NameTree

end ClearNames
