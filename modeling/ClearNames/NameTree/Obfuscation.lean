import ClearNames.NameTree.Lookup

/-! Recording the obfuscated names of packages, classes and methods.

No two packages inside one package carry the same obfuscation, and no two
methods of a class with the same arguments do. Root packages and classes are
not compared with their siblings.
-/

set_option autoImplicit false

namespace ClearNames

/-- What became of a method's obfuscation: recorded, or held by another method
with the same arguments. -/
inductive Registration where
  | registered (method : MethodId)
  | duplicate (holder : MethodId)
  deriving DecidableEq, Repr

inductive ClassReference where
  | node (id : ClassId)
  | named (identifier : String)
  deriving DecidableEq, Repr

namespace NameTree

def siblingWith (tree : NameTree) (id : PackageId) (obfuscation : String) : Option PackageId := do
  let parent ← (tree.package id).parent
  (tree.package parent).children.values.find? fun sibling =>
    sibling ≠ id ∧ (tree.package sibling).obfuscation = some obfuscation

def putPackageObfuscation (tree : NameTree) (id : PackageId) (obfuscation : Option String) : NameTree :=
  tree.updatePackage id fun node => { node with obfuscation }

def putClassObfuscation (tree : NameTree) (id : ClassId) (obfuscation : Option String) : NameTree :=
  tree.updateClass id fun node => { node with obfuscation }

def putMethodObfuscation (tree : NameTree) (id : MethodId) (obfuscation : Option String) : NameTree :=
  tree.updateMethod id fun node => { node with obfuscation }

def obfuscatePackage (id : PackageId) (obfuscation : Option String) : Growth Unit := do
  let tree ← get
  match obfuscation.bind fun text => (tree.siblingWith id text).map (text, ·) with
  | some (text, sibling) =>
    throw (.obfuscationTaken text (tree.describePackage sibling) (tree.describePackage id))
  | none => set (tree.putPackageObfuscation id obfuscation)

def obfuscateClass (id : ClassId) (obfuscation : Option String) : Growth Unit :=
  modify fun tree => tree.putClassObfuscation id obfuscation

def obfuscateScope (scope : Scope) (obfuscation : Option String) : Growth Unit :=
  match scope with
  | .package id => obfuscatePackage id obfuscation
  | .javaClass id => obfuscateClass id obfuscation

def overloadWith (tree : NameTree) (id : MethodId) (obfuscation : String) : Option MethodId :=
  let node := tree.method id
  match tree.methodWithObfuscation node.owner obfuscation node.arguments with
  | some holder => if holder = id then none else some holder
  | none => none

def obfuscateMethod (id : MethodId) (obfuscation : Option String) : Growth Unit := do
  let tree ← get
  match obfuscation.bind fun text => (tree.overloadWith id text).map (text, ·) with
  | some (text, holder) =>
    throw (.obfuscationTaken text (tree.describeMethod holder) (tree.describeMethod id))
  | none => set (tree.putMethodObfuscation id obfuscation)

def aliasScope (identifier obfuscation : String) : Growth Scope := do
  let scope ← resolve identifier
  obfuscateScope scope (some obfuscation)
  pure scope

/-- A method that carries an obfuscation with exactly these arguments and is
not the one of that clear name. -/
def otherHolder (tree : NameTree) (owner : ClassId) (name obfuscation : String)
    (arguments : List TypeUse) : Option MethodId :=
  (tree.methodWithObfuscation owner obfuscation arguments).filter fun holder =>
    tree.findMethod owner name arguments ≠ some holder

/-- Record the obfuscation of a method given by its clear signature, unless
another method with the same arguments holds it: then no method is made. -/
def registerMethod (owner : ClassId) (text obfuscation : String) : Growth Registration := do
  let signature ← readSignature text
  let arguments ← resolveTypes signature.arguments
  match (← get).otherHolder owner signature.name obfuscation arguments with
  | some holder => pure (.duplicate holder)
  | none =>
    let id ← findOrAddMethod owner signature arguments
    obfuscateMethod id (some obfuscation)
    pure (.registered id)

def claimantName (tree : NameTree) (owner : ClassId) (text : String) : String :=
  tree.className owner ++ "#" ++ text

def duplicateFault (tree : NameTree) (owner : ClassId) (text obfuscation : String) (holder : MethodId) :
    NamingFault :=
  .obfuscationTaken obfuscation (tree.describeMethod holder) (tree.claimantName owner text)

def aliasMethod (owner : ClassId) (text obfuscation : String) : Growth MethodId := do
  match ← registerMethod owner text obfuscation with
  | .registered id => pure id
  | .duplicate holder => throw ((← get).duplicateFault owner text obfuscation holder)

def resolveReference : ClassReference → Growth ClassId
  | .node id => pure id
  | .named identifier => resolveClass identifier

def registerMethodOf (reference : ClassReference) (text obfuscation : String) : Growth Registration := do
  let owner ← resolveReference reference
  registerMethod owner text obfuscation

def aliasMethodOf (reference : ClassReference) (text obfuscation : String) : Growth MethodId := do
  let owner ← resolveReference reference
  aliasMethod owner text obfuscation

def duplicateNote (tree : NameTree) (owner : ClassId) (text obfuscation : String) (holder : MethodId) :
    String :=
  "Obfuscation " ++ Text.quoted obfuscation ++ " already taken by " ++ tree.describeMethod holder ++
    "; ignoring " ++ tree.claimantName owner text

end NameTree

end ClearNames
