import ClearNames.NameTree.Growth

/-! Finding nodes by clear or obfuscated name, without changing the tree.

An obfuscated name may mix obfuscated and clear segments. Among the nodes of
one owner the earliest that carries a segment as its obfuscation wins, and a
clear name counts only where no node carries the segment.
-/

set_option autoImplicit false

namespace ClearNames.NameTree

/-- The node that a clear segment names inside a scope; a package comes before a class. -/
def findInside (tree : NameTree) (scope : Scope) (segment : String) : Option Scope :=
  match scope with
  | .package id =>
    match (tree.package id).children.find? segment with
    | some child => some (.package child)
    | none => ((tree.package id).classes.find? segment).map .javaClass
  | .javaClass id => ((tree.javaClass id).classes.find? segment).map .javaClass

def findBelow (tree : NameTree) (scope : Scope) : List String → Option Scope
  | [] => some scope
  | segment :: rest => do tree.findBelow (← tree.findInside scope segment) rest

def find? (tree : NameTree) (identifier : String) : Option Scope :=
  match segments identifier with
  | [] => none
  | root :: rest => do tree.findBelow (.package (← tree.roots.find? root)) rest

def findClass? (tree : NameTree) (identifier : String) : Option ClassId :=
  match tree.find? identifier with
  | some (.javaClass id) => some id
  | _ => none

/-- The first candidate that carries a segment as its obfuscation, or else the
first that is named by it. -/
def matching {α : Type} (obfuscation : α → Option String) (name : α → String) (segment : String)
    (candidates : List α) : Option α :=
  match candidates.find? (fun node => obfuscation node = some segment) with
  | some node => some node
  | none => candidates.find? (fun node => name node = segment)

def matchPackage (tree : NameTree) (segment : String) (candidates : List PackageId) : Option PackageId :=
  matching (fun id => (tree.package id).obfuscation) (fun id => (tree.package id).name) segment candidates

def matchClass (tree : NameTree) (segment : String) (candidates : List ClassId) : Option ClassId :=
  matching (fun id => (tree.javaClass id).obfuscation) (fun id => (tree.javaClass id).name) segment candidates

def obfuscatedRoot (tree : NameTree) (segment : String) : Option PackageId :=
  match tree.roots.values.find? (fun id => (tree.package id).obfuscation = some segment) with
  | some id => some id
  | none => tree.roots.find? segment

def obfuscatedChild (tree : NameTree) (parent : PackageId) (segment : String) : Option PackageId :=
  tree.matchPackage segment (tree.package parent).children.values

def obfuscatedInner (tree : NameTree) (owner : Scope) (segment : String) : Option ClassId :=
  tree.matchClass segment (tree.classesOf owner).values

def obfuscatedPackageBelow (tree : NameTree) (id : PackageId) : List String → Option PackageId
  | [] => some id
  | segment :: rest => do tree.obfuscatedPackageBelow (← tree.obfuscatedChild id segment) rest

def obfuscatedPackage (tree : NameTree) (identifier : String) : Option PackageId :=
  match segments identifier with
  | [] => none
  | root :: rest => do tree.obfuscatedPackageBelow (← tree.obfuscatedRoot root) rest

def obfuscatedInside (tree : NameTree) (scope : Scope) (segment : String) : Option Scope :=
  match scope with
  | .package id =>
    match tree.obfuscatedChild id segment with
    | some child => some (.package child)
    | none => (tree.obfuscatedInner scope segment).map .javaClass
  | .javaClass _ => (tree.obfuscatedInner scope segment).map .javaClass

def obfuscatedClassBelow (tree : NameTree) (scope : Scope) : List String → Option ClassId
  | [] => none
  | [last] => tree.obfuscatedInner scope last
  | segment :: next :: rest => do
    tree.obfuscatedClassBelow (← tree.obfuscatedInside scope segment) (next :: rest)

def obfuscatedClass (tree : NameTree) (identifier : String) : Option ClassId :=
  match segments identifier with
  | [] => none
  | root :: rest => do tree.obfuscatedClassBelow (.package (← tree.obfuscatedRoot root)) rest

def pathForClass (tree : NameTree) (identifier : String) : Option String := do
  (tree.javaClass (← tree.obfuscatedClass identifier)).path

def obfuscatedBase (tree : NameTree) (name : String) : Option BaseType :=
  match Primitive.named? name with
  | some primitive => some (.primitive primitive)
  | none => (tree.obfuscatedClass name).map fun id => .scope (.javaClass id)

def obfuscatedType (tree : NameTree) (descriptor : String) : Option TypeUse :=
  let parts := Descriptor.ofString descriptor
  (tree.obfuscatedBase parts.base).map fun base => ⟨base, parts.dimension⟩

def methodWithObfuscation (tree : NameTree) (owner : ClassId) (obfuscation : String)
    (arguments : List TypeUse) : Option MethodId :=
  (tree.javaClass owner).methods.values.find? fun id =>
    (tree.method id).obfuscation = some obfuscation ∧ (tree.method id).arguments = arguments

/-- The method of a class with an obfuscated signature; none where a type is unknown. -/
def obfuscatedMethod (tree : NameTree) (owner : ClassId) (text : String) :
    Except NamingFault (Option MethodId) :=
  match Signature.parse? text with
  | none => .error (.badSignature text)
  | some signature => .ok do
    let arguments ← signature.arguments.mapM tree.obfuscatedType
    tree.methodWithObfuscation owner signature.name arguments

end ClearNames.NameTree
