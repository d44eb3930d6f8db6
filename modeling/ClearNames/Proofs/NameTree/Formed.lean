import ClearNames.NameTree.Obfuscation
import ClearNames.Proofs.NameTree.Addition

/-! The invariants of a name tree, and the edits that keep them.

An edit makes one node or sets one obfuscation, and is guarded the way the
growth steps guard it. Entries may replace others and nodes may be detached:
a tree stays formed all the same.
-/

set_option autoImplicit false

namespace ClearNames

namespace NameTree

/-! ## What stays -/

/-- Whatever a tree holds is held later too, and what is fixed of it is the same. -/
structure Keeps (tree later : NameTree) : Prop where
  hasPackage : ∀ {id}, tree.HasPackage id → later.HasPackage id
  hasClass : ∀ {id}, tree.HasClass id → later.HasClass id
  hasMethod : ∀ {id}, tree.HasMethod id → later.HasMethod id
  package : ∀ {id}, tree.HasPackage id → (later.package id).fixed = (tree.package id).fixed
  javaClass : ∀ {id}, tree.HasClass id → (later.javaClass id).fixed = (tree.javaClass id).fixed
  method : ∀ {id}, tree.HasMethod id → (later.method id).fixed = (tree.method id).fixed

theorem Keeps.refl (tree : NameTree) : tree.Keeps tree := ⟨id, id, id, fun _ => rfl, fun _ => rfl, fun _ => rfl⟩

theorem Keeps.trans {tree between later : NameTree} (first : tree.Keeps between) (second : between.Keeps later) :
    tree.Keeps later where
  hasPackage known := second.hasPackage (first.hasPackage known)
  hasClass known := second.hasClass (first.hasClass known)
  hasMethod known := second.hasMethod (first.hasMethod known)
  package known := (second.package (first.hasPackage known)).trans (first.package known)
  javaClass known := (second.javaClass (first.hasClass known)).trans (first.javaClass known)
  method known := (second.method (first.hasMethod known)).trans (first.method known)

section
variable {tree later : NameTree}

theorem Keeps.hasScope (keeps : tree.Keeps later) {scope : Scope} (known : tree.HasScope scope) :
    later.HasScope scope := by
  cases scope with
  | package id => exact keeps.hasPackage known
  | javaClass id => exact keeps.hasClass known

theorem Keeps.hasType (keeps : tree.Keeps later) {type : TypeUse} (known : tree.HasType type) :
    later.HasType type := by
  rcases type with ⟨primitive | scope, dimension⟩
  · trivial
  · exact keeps.hasScope known

section
variable {id : PackageId}

theorem Keeps.package_name (keeps : tree.Keeps later) (known : tree.HasPackage id) :
    (later.package id).name = (tree.package id).name := congrArg (·.1) (keeps.package known)

theorem Keeps.package_outer (keeps : tree.Keeps later) (known : tree.HasPackage id) :
    (later.package id).outer = (tree.package id).outer := congrArg (·.2.1) (keeps.package known)

theorem Keeps.package_parent (keeps : tree.Keeps later) (known : tree.HasPackage id) :
    (later.package id).parent = (tree.package id).parent := congrArg (·.2.2) (keeps.package known)

theorem Keeps.packageSegments (keeps : tree.Keeps later) (known : tree.HasPackage id) :
    later.packageSegments id = tree.packageSegments id := by
  simp only [NameTree.packageSegments, keeps.package_outer known, keeps.package_name known]

end

section
variable {id : ClassId}

theorem Keeps.javaClass_name (keeps : tree.Keeps later) (known : tree.HasClass id) :
    (later.javaClass id).name = (tree.javaClass id).name := congrArg (·.1) (keeps.javaClass known)

theorem Keeps.javaClass_outer (keeps : tree.Keeps later) (known : tree.HasClass id) :
    (later.javaClass id).outer = (tree.javaClass id).outer := congrArg (·.2.1) (keeps.javaClass known)

theorem Keeps.javaClass_owner (keeps : tree.Keeps later) (known : tree.HasClass id) :
    (later.javaClass id).owner = (tree.javaClass id).owner := congrArg (·.2.2.1) (keeps.javaClass known)

theorem Keeps.javaClass_package (keeps : tree.Keeps later) (known : tree.HasClass id) :
    (later.javaClass id).package = (tree.javaClass id).package := congrArg (·.2.2.2) (keeps.javaClass known)

end

section
variable {id : MethodId}

theorem Keeps.method_name (keeps : tree.Keeps later) (known : tree.HasMethod id) :
    (later.method id).name = (tree.method id).name := congrArg (·.1) (keeps.method known)

theorem Keeps.method_owner (keeps : tree.Keeps later) (known : tree.HasMethod id) :
    (later.method id).owner = (tree.method id).owner := congrArg (·.2.1) (keeps.method known)

theorem Keeps.method_returns (keeps : tree.Keeps later) (known : tree.HasMethod id) :
    (later.method id).returns = (tree.method id).returns := congrArg (·.2.2.1) (keeps.method known)

theorem Keeps.method_arguments (keeps : tree.Keeps later) (known : tree.HasMethod id) :
    (later.method id).arguments = (tree.method id).arguments := congrArg (·.2.2.2) (keeps.method known)

end

end

/-! ## Entries -/

/-- A package that can be entered among the roots under a name. -/
def RootAt (tree : NameTree) (name : String) (id : PackageId) : Prop :=
  tree.HasPackage id ∧ (tree.package id).name = name ∧ (tree.package id).parent = none

def ChildAt (tree : NameTree) (parent : PackageId) (name : String) (id : PackageId) : Prop :=
  tree.HasPackage id ∧ (tree.package id).name = name ∧ (tree.package id).parent = some parent

def ClassAt (tree : NameTree) (owner : Scope) (name : String) (id : ClassId) : Prop :=
  tree.HasClass id ∧ (tree.javaClass id).name = name ∧ (tree.javaClass id).owner = owner

def MethodAt (tree : NameTree) (owner : ClassId) (key : String × List TypeUse) (id : MethodId) : Prop :=
  tree.HasMethod id ∧ ((tree.method id).name, (tree.method id).arguments) = key ∧ (tree.method id).owner = owner

/-- Every node is entered under its own name with its own owner, and only once. -/
structure Entered (tree : NameTree) : Prop where
  root : ∀ {name id}, (name, id) ∈ tree.roots → tree.RootAt name id
  child : ∀ {parent name id}, (name, id) ∈ (tree.package parent).children → tree.ChildAt parent name id
  javaClass : ∀ {owner name id}, (name, id) ∈ tree.classesOf owner → tree.ClassAt owner name id
  method : ∀ {owner key id}, (key, id) ∈ (tree.javaClass owner).methods → tree.MethodAt owner key id
  rootKeys : (OrderedTable.keys tree.roots).Nodup
  childKeys : ∀ parent, (OrderedTable.keys (tree.package parent).children).Nodup
  classKeys : ∀ owner, (OrderedTable.keys (tree.classesOf owner)).Nodup
  methodKeys : ∀ owner, (OrderedTable.keys (tree.javaClass owner).methods).Nodup

section
variable {tree later : NameTree}

theorem Keeps.rootAt (keeps : tree.Keeps later) {name : String} {id : PackageId} (placed : tree.RootAt name id) :
    later.RootAt name id := by
  obtain ⟨known, named, parent⟩ := placed
  exact ⟨keeps.hasPackage known, (keeps.package_name known).trans named, (keeps.package_parent known).trans parent⟩

theorem Keeps.childAt (keeps : tree.Keeps later) {parent : PackageId} {name : String} {id : PackageId}
    (placed : tree.ChildAt parent name id) : later.ChildAt parent name id := by
  obtain ⟨known, named, owned⟩ := placed
  exact ⟨keeps.hasPackage known, (keeps.package_name known).trans named, (keeps.package_parent known).trans owned⟩

theorem Keeps.classAt (keeps : tree.Keeps later) {owner : Scope} {name : String} {id : ClassId}
    (placed : tree.ClassAt owner name id) : later.ClassAt owner name id := by
  obtain ⟨known, named, owned⟩ := placed
  exact ⟨keeps.hasClass known, (keeps.javaClass_name known).trans named, (keeps.javaClass_owner known).trans owned⟩

theorem Keeps.methodAt (keeps : tree.Keeps later) {owner : ClassId} {key : String × List TypeUse} {id : MethodId}
    (placed : tree.MethodAt owner key id) : later.MethodAt owner key id := by
  obtain ⟨known, keyed, owned⟩ := placed
  refine ⟨keeps.hasMethod known, ?_, (keeps.method_owner known).trans owned⟩
  rw [keeps.method_name known, keeps.method_arguments known, keyed]

end

/-! ## Owners -/

/-- A package lies in an earlier one, or in none, and knows the names above it. -/
def PackageFounded (tree : NameTree) (id : PackageId) : Prop :=
  match (tree.package id).parent with
  | none => (tree.package id).outer = []
  | some parent => parent.index < id.index ∧ (tree.package id).outer = tree.packageSegments parent

def ClassFounded (tree : NameTree) (id : ClassId) : Prop :=
  match (tree.javaClass id).owner with
  | .package parent =>
    tree.HasPackage parent ∧ (tree.javaClass id).package = parent ∧ (tree.javaClass id).outer = []
  | .javaClass outer =>
    outer.index < id.index ∧ (tree.javaClass id).package = (tree.javaClass outer).package ∧
      (tree.javaClass id).outer = (tree.javaClass outer).outer ++ [(tree.javaClass outer).name]

def MethodFounded (tree : NameTree) (id : MethodId) : Prop :=
  tree.HasClass (tree.method id).owner ∧ tree.HasType (tree.method id).returns ∧
    ∀ type ∈ (tree.method id).arguments, tree.HasType type

/-- No node refers to one that was not there when it was made. -/
structure Founded (tree : NameTree) : Prop where
  package : ∀ {id}, tree.HasPackage id → tree.PackageFounded id
  javaClass : ∀ {id}, tree.HasClass id → tree.ClassFounded id
  method : ∀ {id}, tree.HasMethod id → tree.MethodFounded id

section
variable {tree later : NameTree}

theorem Keeps.packageFounded (keeps : tree.Keeps later) {id : PackageId} (known : tree.HasPackage id)
    (founded : tree.PackageFounded id) : later.PackageFounded id := by
  unfold PackageFounded at founded ⊢
  rw [keeps.package_parent known, keeps.package_outer known]
  cases owned : (tree.package id).parent with
  | none => simpa [owned] using founded
  | some parent =>
    rw [owned] at founded
    have above : tree.HasPackage parent := Nat.lt_trans founded.1 known
    exact ⟨founded.1, founded.2.trans (keeps.packageSegments above).symm⟩

theorem Keeps.classFounded (keeps : tree.Keeps later) {id : ClassId} (known : tree.HasClass id)
    (founded : tree.ClassFounded id) : later.ClassFounded id := by
  unfold ClassFounded at founded ⊢
  rw [keeps.javaClass_owner known, keeps.javaClass_package known, keeps.javaClass_outer known]
  cases owned : (tree.javaClass id).owner with
  | package parent =>
    rw [owned] at founded
    exact ⟨keeps.hasPackage founded.1, founded.2⟩
  | javaClass outer =>
    rw [owned] at founded
    have above : tree.HasClass outer := Nat.lt_trans founded.1 known
    simpa only [keeps.javaClass_package above, keeps.javaClass_outer above, keeps.javaClass_name above]
      using founded

theorem Keeps.methodFounded (keeps : tree.Keeps later) {id : MethodId} (known : tree.HasMethod id)
    (founded : tree.MethodFounded id) : later.MethodFounded id := by
  unfold MethodFounded
  rw [keeps.method_owner known, keeps.method_returns known, keeps.method_arguments known]
  exact ⟨keeps.hasClass founded.1, keeps.hasType founded.2.1, fun type member =>
    keeps.hasType (founded.2.2 type member)⟩

end

/-! ## Obfuscations -/

/-- No two packages inside one package carry the same obfuscation, and no two
methods of a class with the same arguments do. -/
structure Apart (tree : NameTree) : Prop where
  packages : ∀ {parent first second text}, first ∈ (tree.package parent).children.values →
    second ∈ (tree.package parent).children.values → (tree.package first).obfuscation = some text →
    (tree.package second).obfuscation = some text → first = second
  methods : ∀ {owner first second text}, first ∈ (tree.javaClass owner).methods.values →
    second ∈ (tree.javaClass owner).methods.values → (tree.method first).obfuscation = some text →
    (tree.method second).obfuscation = some text →
    (tree.method first).arguments = (tree.method second).arguments → first = second

/-- The invariants that every operation on a tree keeps. -/
structure Formed (tree : NameTree) : Prop where
  entered : tree.Entered
  founded : tree.Founded
  apart : tree.Apart

/-- A change of a class that leaves all of it but its obfuscation and its path. -/
def Marks (change : ClassNode → ClassNode) : Prop :=
  ∀ node, change node = { node with obfuscation := (change node).obfuscation, path := (change node).path }

/-- A change of what is neither fixed nor entered: an obfuscation that is free, or a path. -/
inductive Mark (tree : NameTree) : NameTree → Prop where
  | package {id : PackageId} {obfuscation : Option String} (known : tree.HasPackage id)
      (free : ∀ text, obfuscation = some text → tree.siblingWith id text = none) :
      Mark tree (tree.putPackageObfuscation id obfuscation)
  | javaClass {id : ClassId} {change : ClassNode → ClassNode} (known : tree.HasClass id) (marks : Marks change) :
      Mark tree (tree.updateClass id change)
  | method {id : MethodId} {obfuscation : Option String} (known : tree.HasMethod id)
      (free : ∀ text, obfuscation = some text → tree.overloadWith id text = none) :
      Mark tree (tree.putMethodObfuscation id obfuscation)

inductive Edit (tree : NameTree) : NameTree → Prop where
  | add {addition : Addition} (grounded : tree.Grounded addition) : Edit tree (tree.add addition)
  | mark {later : NameTree} (mark : Mark tree later) : Edit tree later

end NameTree

end ClearNames
