import ClearNames.NameTree.Growth
import ClearNames.Proofs.NameTree.Store

/-! Making a node and entering it among the nodes of its owner.

The laws give every node and every table of the grown tree. A node made later
never takes the identifier of an earlier one, and an entry under a known name
takes the place of the node that was entered there.
-/

set_option autoImplicit false

namespace ClearNames

/-- A node to be made, at the place where it is entered. -/
inductive Addition where
  | root (name : String)
  | package (parent : PackageId) (name : String)
  | javaClass (owner : Scope) (name : String)
  | method (owner : ClassId) (name : String) (returns : TypeUse) (arguments : List TypeUse)

namespace NameTree

def add (tree : NameTree) : Addition → NameTree
  | .root name => (tree.addRoot name).2
  | .package parent name => (tree.addPackage parent name).2
  | .javaClass owner name => (tree.addClass owner name).2
  | .method owner name returns arguments => (tree.addMethod owner name returns arguments).2

/-- The nodes that an addition refers to are in the stores. -/
def Grounded (tree : NameTree) : Addition → Prop
  | .root _ => True
  | .package parent _ => tree.HasPackage parent
  | .javaClass owner _ => tree.HasScope owner
  | .method owner _ returns arguments =>
    tree.HasClass owner ∧ tree.HasType returns ∧ ∀ type ∈ arguments, tree.HasType type

/-- No node is entered at the place of an addition. -/
def Vacant (tree : NameTree) : Addition → Prop
  | .root name => tree.roots.find? name = none
  | .package parent name => (tree.package parent).children.find? name = none
  | .javaClass owner name => (tree.classesOf owner).find? name = none
  | .method owner name _ arguments => tree.findMethod owner name arguments = none

variable {tree : NameTree}

/-! ## Roots -/

theorem package_addRoot (name : String) (id : PackageId) :
    (tree.addRoot name).2.package id =
      if id.index = tree.packages.size then ⟨name, [], none, none, [], []⟩ else tree.package id :=
  getD_push _ _ _

/-! ## Packages inside packages -/

section
variable {parent : PackageId}

theorem package_addPackage (known : tree.HasPackage parent) (name : String) (id : PackageId) :
    (tree.addPackage parent name).2.package id =
      if id = parent then
        { tree.package parent with children := (tree.package parent).children.put name ⟨tree.packages.size⟩ }
      else if id.index = tree.packages.size then ⟨name, tree.packageSegments parent, some parent, none, [], []⟩
      else tree.package id := by
  let node : PackageNode := ⟨name, tree.packageSegments parent, some parent, none, [], []⟩
  let pushed : NameTree := { tree with packages := tree.packages.push node }
  have within : pushed.HasPackage parent := by
    simp only [HasPackage, pushed, Array.size_push]
    exact Nat.lt_succ_of_lt known
  have old (other : PackageId) : pushed.package other =
      if other.index = tree.packages.size then node else tree.package other := getD_push _ _ _
  have apart : parent.index ≠ tree.packages.size := Nat.ne_of_lt known
  refine (package_updatePackage within _ id).trans ?_
  simp only [old, apart, if_false, node]

end

/-! ## Classes -/

section
variable {owner : Scope}

@[simp] theorem freshClass_name (owner : Scope) (name : String) : (tree.freshClass owner name).name = name := by
  cases owner <;> rfl

@[simp] theorem freshClass_owner (owner : Scope) (name : String) : (tree.freshClass owner name).owner = owner := by
  cases owner <;> rfl

@[simp] theorem freshClass_obfuscation (owner : Scope) (name : String) :
    (tree.freshClass owner name).obfuscation = none := by cases owner <;> rfl

@[simp] theorem freshClass_methods (owner : Scope) (name : String) :
    (tree.freshClass owner name).methods = [] := by cases owner <;> rfl

@[simp] theorem freshClass_classes (owner : Scope) (name : String) :
    (tree.freshClass owner name).classes = [] := by cases owner <;> rfl

theorem javaClass_addClass (known : tree.HasScope owner) (name : String) (id : ClassId) :
    (tree.addClass owner name).2.javaClass id =
      if id.index = tree.classes.size then tree.freshClass owner name
      else if owner = .javaClass id then
        { tree.javaClass id with classes := (tree.javaClass id).classes.put name ⟨tree.classes.size⟩ }
      else tree.javaClass id := by
  let pushed : NameTree := { tree with classes := tree.classes.push (tree.freshClass owner name) }
  have old (other : ClassId) : pushed.javaClass other =
      if other.index = tree.classes.size then tree.freshClass owner name else tree.javaClass other :=
    getD_push _ _ _
  cases owner with
  | package parent =>
    refine (old id).trans ?_
    simp
  | javaClass outer =>
    have within : pushed.HasClass outer := by
      simp only [HasClass, pushed, Array.size_push]
      exact Nat.lt_succ_of_lt known
    have apart : outer.index ≠ tree.classes.size := Nat.ne_of_lt known
    refine (javaClass_updateClass within _ id).trans ?_
    by_cases same : id = outer
    · subst same
      simp [old, apart]
    · simp [old, same, Ne.symm same]

theorem package_addClass (known : tree.HasScope owner) (name : String) (id : PackageId) :
    (tree.addClass owner name).2.package id =
      if owner = .package id then
        { tree.package id with classes := (tree.package id).classes.put name ⟨tree.classes.size⟩ }
      else tree.package id := by
  cases owner with
  | package parent =>
    let pushed : NameTree := { tree with classes := tree.classes.push (tree.freshClass (.package parent) name) }
    have within : pushed.HasPackage parent := known
    refine (package_updatePackage within _ id).trans ?_
    by_cases same : id = parent
    · subst same
      simp [package, pushed]
    · simp [package, pushed, same, Ne.symm same]
  | javaClass outer => simp [addClass, enterClass, package, updateClass]

end

/-! ## Methods -/

section
variable {owner : ClassId}

theorem method_addMethod (name : String) (returns : TypeUse) (arguments : List TypeUse) (id : MethodId) :
    (tree.addMethod owner name returns arguments).2.method id =
      if id.index = tree.methods.size then ⟨name, owner, returns, arguments, none⟩ else tree.method id :=
  getD_push _ _ _

theorem javaClass_addMethod (known : tree.HasClass owner) (name : String) (returns : TypeUse)
    (arguments : List TypeUse) (id : ClassId) :
    (tree.addMethod owner name returns arguments).2.javaClass id =
      if id = owner then
        { tree.javaClass owner with
          methods := (tree.javaClass owner).methods.put (name, arguments) ⟨tree.methods.size⟩ }
      else tree.javaClass id := by
  let pushed : NameTree := { tree with methods := tree.methods.push ⟨name, owner, returns, arguments, none⟩ }
  have within : pushed.HasClass owner := known
  exact javaClass_updateClass within _ id

theorem findMethod_addMethod (known : tree.HasClass owner) {name : String} (returns : TypeUse)
    {arguments : List TypeUse} :
    (tree.add (.method owner name returns arguments)).findMethod owner name arguments =
      some ⟨tree.methods.size⟩ := by
  simp [findMethod, NameTree.add, javaClass_addMethod known]

end

end NameTree

end ClearNames
