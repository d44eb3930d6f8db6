import ClearNames.NameTree.Basic
import ClearNames.Text.Split

/-! Full names, expected source files and descriptions of nodes. -/

set_option autoImplicit false

namespace ClearNames.NameTree

def packageSegments (tree : NameTree) (id : PackageId) : List String :=
  let node := tree.package id
  node.outer ++ [node.name]

def classSegments (tree : NameTree) (id : ClassId) : List String :=
  let node := tree.javaClass id
  tree.packageSegments node.package ++ node.outer ++ [node.name]

def scopeSegments (tree : NameTree) : Scope → List String
  | .package id => tree.packageSegments id
  | .javaClass id => tree.classSegments id

def packageName (tree : NameTree) (id : PackageId) : String := ".".intercalate (tree.packageSegments id)

def className (tree : NameTree) (id : ClassId) : String := ".".intercalate (tree.classSegments id)

def scopeName (tree : NameTree) (scope : Scope) : String := ".".intercalate (tree.scopeSegments scope)

def baseName (tree : NameTree) : BaseType → String
  | .primitive primitive => primitive.name
  | .scope scope => tree.scopeName scope

def typeName (tree : NameTree) (type : TypeUse) : String :=
  tree.baseName type.base ++ String.join (List.replicate type.dimension.toNat "[]")

def methodName (tree : NameTree) (id : MethodId) : String :=
  let node := tree.method id
  tree.typeName node.returns ++ " " ++ node.name ++ "(" ++
    ", ".intercalate (node.arguments.map tree.typeName) ++ ")"

def packageDirectory (tree : NameTree) (id : PackageId) : List String := tree.packageSegments id

/-- The file that a class is expected in, below a source root: an inner class
shares the file of its outermost enclosing class. -/
def sourceFile (tree : NameTree) (id : ClassId) : List String :=
  let node := tree.javaClass id
  tree.packageDirectory node.package ++ [node.outer.headD node.name ++ ".java"]

def slashed (components : List String) : String := "/".intercalate components

def describePackage (tree : NameTree) (id : PackageId) : String := "<Package " ++ tree.packageName id ++ ">"

def describeClass (tree : NameTree) (id : ClassId) : String := "<JavaClass " ++ tree.className id ++ ">"

def describeMethod (tree : NameTree) (id : MethodId) : String := "<Method " ++ tree.methodName id ++ ">"

def describeScope (tree : NameTree) : Scope → String
  | .package id => tree.describePackage id
  | .javaClass id => tree.describeClass id

def describeBase (tree : NameTree) : BaseType → String
  | .primitive primitive => "<Primitive " ++ primitive.name ++ ">"
  | .scope scope => tree.describeScope scope

def describeType (tree : NameTree) (type : TypeUse) : String :=
  "Argument(type=" ++ tree.describeBase type.base ++ ", dimensionality=" ++ toString type.dimension ++ ")"

end ClearNames.NameTree
