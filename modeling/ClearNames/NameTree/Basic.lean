import ClearNames.OrderedTable
import ClearNames.Primitive

/-! The name tree of a Java program: packages, classes and methods.

Nodes are kept in three stores and referred to by identifier, so that a node
remains the same node while its owner changes, and also after another node of
the same key has taken its place. Names and owners are fixed when a node is
made; obfuscations, source paths and tables of owned nodes change.
-/

set_option autoImplicit false

namespace ClearNames

@[ext] structure PackageId where
  index : Nat
  deriving DecidableEq, Repr, Inhabited

@[ext] structure ClassId where
  index : Nat
  deriving DecidableEq, Repr, Inhabited

@[ext] structure MethodId where
  index : Nat
  deriving DecidableEq, Repr, Inhabited

inductive Scope where
  | package (id : PackageId)
  | javaClass (id : ClassId)
  deriving DecidableEq, Repr, Inhabited

/-- What a type name stands for: by its casing a name may be taken for a package. -/
inductive BaseType where
  | primitive (primitive : Primitive)
  | scope (scope : Scope)
  deriving DecidableEq, Repr

/-- The type of an argument or a result: a base type and a number of array
suffixes, of which a negative number counts as none. -/
structure TypeUse where
  base : BaseType
  dimension : Int
  deriving DecidableEq, Repr

def TypeUse.isArray (type : TypeUse) : Bool := 0 < type.dimension

structure PackageNode where
  name : String
  /-- The names of the enclosing packages, outermost first. -/
  outer : List String
  parent : Option PackageId
  obfuscation : Option String
  children : OrderedTable String PackageId
  classes : OrderedTable String ClassId
  deriving DecidableEq, Repr, Inhabited

structure ClassNode where
  name : String
  outer : List String
  owner : Scope
  package : PackageId
  obfuscation : Option String
  path : Option String
  methods : OrderedTable (String × List TypeUse) MethodId
  classes : OrderedTable String ClassId
  deriving DecidableEq, Repr, Inhabited

structure MethodNode where
  name : String
  owner : ClassId
  returns : TypeUse
  arguments : List TypeUse
  obfuscation : Option String
  deriving DecidableEq, Repr

instance : Inhabited MethodNode := ⟨⟨"", default, ⟨.primitive .void, 0⟩, [], none⟩⟩

/-- The stores of all nodes ever made, and the root packages by name. -/
structure NameTree where
  packages : Array PackageNode
  classes : Array ClassNode
  methods : Array MethodNode
  roots : OrderedTable String PackageId
  deriving DecidableEq, Repr

namespace NameTree

def empty : NameTree := ⟨#[], #[], #[], []⟩

instance : Inhabited NameTree := ⟨empty⟩

def package (tree : NameTree) (id : PackageId) : PackageNode := tree.packages[id.index]?.getD default

def javaClass (tree : NameTree) (id : ClassId) : ClassNode := tree.classes[id.index]?.getD default

def method (tree : NameTree) (id : MethodId) : MethodNode := tree.methods[id.index]?.getD default

def updatePackage (tree : NameTree) (id : PackageId) (change : PackageNode → PackageNode) : NameTree :=
  { tree with packages := tree.packages.modify id.index change }

def updateClass (tree : NameTree) (id : ClassId) (change : ClassNode → ClassNode) : NameTree :=
  { tree with classes := tree.classes.modify id.index change }

def updateMethod (tree : NameTree) (id : MethodId) (change : MethodNode → MethodNode) : NameTree :=
  { tree with methods := tree.methods.modify id.index change }

def classesOf (tree : NameTree) : Scope → OrderedTable String ClassId
  | .package id => (tree.package id).classes
  | .javaClass id => (tree.javaClass id).classes

/-- Make a package that belongs to no tree of roots. -/
def addDetachedPackage (tree : NameTree) (name : String) : PackageId × NameTree :=
  (⟨tree.packages.size⟩, { tree with packages := tree.packages.push ⟨name, [], none, none, [], []⟩ })

def addRoot (tree : NameTree) (name : String) : PackageId × NameTree :=
  let (id, grown) := tree.addDetachedPackage name
  (id, { grown with roots := tree.roots.put name id })

def addPackage (tree : NameTree) (parent : PackageId) (name : String) : PackageId × NameTree :=
  let id : PackageId := ⟨tree.packages.size⟩
  let enclosing := tree.package parent
  let node : PackageNode := ⟨name, enclosing.outer ++ [enclosing.name], some parent, none, [], []⟩
  let grown : NameTree := { tree with packages := tree.packages.push node }
  (id, grown.updatePackage parent fun node => { node with children := node.children.put name id })

def enterClass (tree : NameTree) (owner : Scope) (name : String) (id : ClassId) : NameTree :=
  match owner with
  | .package parent => tree.updatePackage parent fun node => { node with classes := node.classes.put name id }
  | .javaClass outer => tree.updateClass outer fun node => { node with classes := node.classes.put name id }

def freshClass (tree : NameTree) (owner : Scope) (name : String) : ClassNode :=
  match owner with
  | .package parent => ⟨name, [], owner, parent, none, none, [], []⟩
  | .javaClass outer =>
    let enclosing := tree.javaClass outer
    ⟨name, enclosing.outer ++ [enclosing.name], owner, enclosing.package, none, none, [], []⟩

def addClass (tree : NameTree) (owner : Scope) (name : String) : ClassId × NameTree :=
  let id : ClassId := ⟨tree.classes.size⟩
  let grown : NameTree := { tree with classes := tree.classes.push (tree.freshClass owner name) }
  (id, grown.enterClass owner name id)

def addMethod (tree : NameTree) (owner : ClassId) (name : String) (returns : TypeUse)
    (arguments : List TypeUse) : MethodId × NameTree :=
  let id : MethodId := ⟨tree.methods.size⟩
  let grown : NameTree := { tree with methods := tree.methods.push ⟨name, owner, returns, arguments, none⟩ }
  (id, grown.updateClass owner fun node => { node with methods := node.methods.put (name, arguments) id })

end NameTree

end ClearNames
