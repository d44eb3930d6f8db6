import ClearNames.Disk.Walk
import ClearNames.Journal.Record
import ClearNames.NameTree.Listing
import ClearNames.NameTree.Naming
import Std.Data.HashMap

/-! Finding the source file of each class.

A class belongs to the last listed file whose path is the expected source file
or ends in a slash and the expected source file. Files are looked up by name.
-/

set_option autoImplicit false

namespace ClearNames.Sources

inductive Target where
  | tree
  | scope (scope : Scope)
  deriving DecidableEq, Repr

/-- The classes of a target at any depth, outer before inner, and those of a
package before those of the packages inside it. -/
def Target.classIds (target : Target) (tree : NameTree) : List ClassId :=
  match target with
  | .tree => PackageBranch.listClassIds tree.forest
  | .scope (.package id) => (tree.packageBranch id).classIds
  | .scope (.javaClass id) => (tree.classBranch id).classIds

/-- Whether a listed path can hold a source file: it is that file, below any directories. -/
def matchesFile (sourceFile path : String) : Bool :=
  path = sourceFile || Text.endsWith path.toList ('/' :: sourceFile.toList)

def lastMatch (sourceFile : String) (paths : List String) : Option String :=
  paths.reverse.find? (matchesFile sourceFile)

/-- Listed paths by their file names, each group in the order of the list. -/
def indexByName (paths : List String) : Std.HashMap String (List String) :=
  paths.foldr (fun path index =>
    let name := Path.fileName path
    index.insert name (path :: index.getD name [])) ∅

def lookUp (index : Std.HashMap String (List String)) (sourceFile : String) : Option String :=
  lastMatch sourceFile (index.getD (Path.fileName sourceFile) [])

def assign (index : Std.HashMap String (List String)) (state : NameTree × Nat) (id : ClassId) :
    NameTree × Nat :=
  let (tree, located) := state
  match lookUp index (NameTree.slashed (tree.sourceFile id)) with
  | none => state
  | some path => (tree.updateClass id fun node => { node with path := some path }, located + 1)

def assignAll (tree : NameTree) (target : Target) (paths : List String) : NameTree × Nat :=
  (target.classIds tree).foldl (assign (indexByName paths)) (tree, 0)

structure Located where
  tree : NameTree
  count : Nat
  listed : Nat

def Located.records (directory : LooseText) (located : Located) : List Record := [
  .of .debug .sources ("Indexed " ++ toString located.listed ++ " candidate files"),
  .of .info .sources ("Located source files for " ++ toString located.count ++ " classes under " ++ directory)]

def locate (disk : Disk) (directory : String) (tree : NameTree) (target : Target) :
    Except DiskFault Located := do
  let paths ← disk.sourceFiles directory
  let (located, count) := assignAll tree target paths
  return ⟨located, count, paths.length⟩

end ClearNames.Sources
