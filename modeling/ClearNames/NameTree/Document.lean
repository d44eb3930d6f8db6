import ClearNames.Json.Basic
import ClearNames.NameTree.Listing
import ClearNames.NameTree.Naming

/-! The document of a name tree: its packages, classes and methods as JSON. -/

set_option autoImplicit false

namespace ClearNames

namespace NameTree

def methodDocument (tree : NameTree) (id : MethodId) : Json :=
  let node := tree.method id
  .object [
    ("name", .string node.name),
    ("obfuscation", .ofOption node.obfuscation),
    ("return_type", .string (tree.typeName node.returns)),
    ("arguments", .array (node.arguments.map fun type => .string (tree.typeName type)))]

def classDocument (tree : NameTree) (id : ClassId) (inner : List Json) : Json :=
  let node := tree.javaClass id
  .object [
    ("name", .string node.name),
    ("obfuscation", .ofOption node.obfuscation),
    ("path", .ofOption node.path),
    ("methods", .array (node.methods.values.map tree.methodDocument)),
    ("classes", .array inner)]

def packageDocument (tree : NameTree) (id : PackageId) (children classes : List Json) : Json :=
  let node := tree.package id
  .object [
    ("name", .string node.name),
    ("obfuscation", .ofOption node.obfuscation),
    ("packages", .array children),
    ("classes", .array classes)]

end NameTree

mutual

def ClassBranch.document (tree : NameTree) : ClassBranch → Json
  | .node id inner => tree.classDocument id (ClassBranch.documents tree inner)

def ClassBranch.documents (tree : NameTree) : List ClassBranch → List Json
  | [] => []
  | branch :: rest => branch.document tree :: ClassBranch.documents tree rest

end

mutual

def PackageBranch.document (tree : NameTree) : PackageBranch → Json
  | .node id classes children =>
    tree.packageDocument id (PackageBranch.documents tree children) (ClassBranch.documents tree classes)

def PackageBranch.documents (tree : NameTree) : List PackageBranch → List Json
  | [] => []
  | branch :: rest => branch.document tree :: PackageBranch.documents tree rest

end

/-- The whole tree as one object, siblings in the order in which they were entered. -/
def NameTree.document (tree : NameTree) : Json :=
  .object [("packages", .array (PackageBranch.documents tree tree.forest))]

end ClearNames
