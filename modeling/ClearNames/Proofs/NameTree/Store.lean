import ClearNames.NameTree.Naming

/-! What the stores of a name tree hold after each operation on them.

A node belongs to a tree when its identifier lies within the store. For each
operation the laws give every table of every node, and the fixed part of every
node: what is decided when it is made. A new node stands at the end of its
store, and the node of an identifier beyond the store owns nothing.
-/

set_option autoImplicit false

namespace ClearNames

def PackageNode.fixed (node : PackageNode) : String × List String × Option PackageId :=
  (node.name, node.outer, node.parent)

def ClassNode.fixed (node : ClassNode) : String × List String × Scope × PackageId :=
  (node.name, node.outer, node.owner, node.package)

def MethodNode.fixed (node : MethodNode) : String × ClassId × TypeUse × List TypeUse :=
  (node.name, node.owner, node.returns, node.arguments)

namespace NameTree

def HasPackage (tree : NameTree) (id : PackageId) : Prop := id.index < tree.packages.size

def HasClass (tree : NameTree) (id : ClassId) : Prop := id.index < tree.classes.size

def HasMethod (tree : NameTree) (id : MethodId) : Prop := id.index < tree.methods.size

def HasScope (tree : NameTree) : Scope → Prop
  | .package id => tree.HasPackage id
  | .javaClass id => tree.HasClass id

/-- The node that a type refers to is in the stores; primitives refer to none. -/
def HasType (tree : NameTree) (type : TypeUse) : Prop :=
  match type.base with
  | .primitive _ => True
  | .scope scope => tree.HasScope scope

variable {tree : NameTree}

theorem package_of_not_has {id : PackageId} (unknown : ¬ tree.HasPackage id) : tree.package id = default := by
  simp [package, Array.getElem?_eq_none (Nat.le_of_not_lt unknown)]

theorem javaClass_of_not_has {id : ClassId} (unknown : ¬ tree.HasClass id) : tree.javaClass id = default := by
  simp [javaClass, Array.getElem?_eq_none (Nat.le_of_not_lt unknown)]

theorem package_of_eq_size {id : PackageId} (last : id.index = tree.packages.size) : tree.package id = default :=
  package_of_not_has (Nat.not_lt.mpr (Nat.le_of_eq last.symm))

theorem javaClass_of_eq_size {id : ClassId} (last : id.index = tree.classes.size) : tree.javaClass id = default :=
  javaClass_of_not_has (Nat.not_lt.mpr (Nat.le_of_eq last.symm))

theorem method_of_not_has {id : MethodId} (unknown : ¬ tree.HasMethod id) : tree.method id = default := by
  simp [method, Array.getElem?_eq_none (Nat.le_of_not_lt unknown)]

/-! ## Changing one node -/

section
variable {α : Type} {nodes : Array α} {index : Nat}

theorem getD_modify (within : index < nodes.size) (change : α → α) (missing : α) (other : Nat) :
    (nodes.modify index change)[other]?.getD missing =
      if other = index then change (nodes[index]?.getD missing) else nodes[other]?.getD missing := by
  by_cases same : other = index
  · subst same
    simp [Array.getElem_modify, within]
  · simp [Array.getElem?_modify, Ne.symm same, same]

theorem getD_push (node missing : α) (other : Nat) :
    (nodes.push node)[other]?.getD missing =
      if other = nodes.size then node else nodes[other]?.getD missing := by
  by_cases same : other = nodes.size <;> simp [Array.getElem?_push, same]

end

theorem package_updatePackage {id : PackageId} (known : tree.HasPackage id)
    (change : PackageNode → PackageNode) (other : PackageId) :
    (tree.updatePackage id change).package other =
      if other = id then change (tree.package id) else tree.package other := by
  simp only [package, updatePackage, getD_modify known, PackageId.ext_iff]

theorem javaClass_updateClass {id : ClassId} (known : tree.HasClass id) (change : ClassNode → ClassNode)
    (other : ClassId) :
    (tree.updateClass id change).javaClass other =
      if other = id then change (tree.javaClass id) else tree.javaClass other := by
  simp only [javaClass, updateClass, getD_modify known, ClassId.ext_iff]

theorem method_updateMethod {id : MethodId} (known : tree.HasMethod id) (change : MethodNode → MethodNode)
    (other : MethodId) :
    (tree.updateMethod id change).method other =
      if other = id then change (tree.method id) else tree.method other := by
  simp only [method, updateMethod, getD_modify known, MethodId.ext_iff]

/-! ## Looking for a node -/

section
variable {α : Type} {candidates : List α} {node : α}

theorem find?_eq_some_iff_only {kind : α → Bool}
    (only : ∀ first ∈ candidates, ∀ second ∈ candidates, kind first → kind second → first = second) :
    candidates.find? kind = some node ↔ node ∈ candidates ∧ kind node := by
  constructor
  · intro found
    exact ⟨List.mem_of_find?_eq_some found, List.find?_some found⟩
  · rintro ⟨member, fits⟩
    cases result : candidates.find? kind with
    | none => exact absurd fits (List.find?_eq_none.mp result node member)
    | some other => rw [only other (List.mem_of_find?_eq_some result) node member (List.find?_some result) fits]

theorem find?_name_eq_some_iff {name : α → String} {text : String}
    (named : ∀ first ∈ candidates, ∀ second ∈ candidates, name first = name second → first = second) :
    candidates.find? (fun node => name node = text) = some node ↔ node ∈ candidates ∧ name node = text := by
  rw [find?_eq_some_iff_only, decide_eq_true_eq]
  intro first firstIn second secondIn firstNamed secondNamed
  exact named first firstIn second secondIn ((of_decide_eq_true firstNamed).trans (of_decide_eq_true secondNamed).symm)

end

end NameTree

end ClearNames
