import ClearNames.Proofs.NameTree.Listings
import ClearNames.Proofs.Text.Loose

/-! The document of a tree, taken apart again, lists the nodes of the tree.

The packages of a document are the objects of its `packages` arrays, each
before those inside it; the classes are taken package by package in the same
way, and the methods class by class.
-/

set_option autoImplicit false

namespace ClearNames

namespace Json

/-- The items of the array that a field holds. -/
def itemsOf (key : LooseText) (value : Json) : List Json :=
  match value.field? key with
  | some (.array items) => items
  | _ => []

mutual

/-- The items of the array under a key, each followed by its own. -/
def flattened (key : LooseText) : Json → List Json
  | .object fields => flattenedField key fields
  | _ => []

def flattenedField (key : LooseText) : List (LooseText × Json) → List Json
  | [] => []
  | (name, value) :: rest =>
    if name = key then
      match value with
      | .array items => flattenedItems key items
      | _ => []
    else flattenedField key rest

def flattenedItems (key : LooseText) : List Json → List Json
  | [] => []
  | item :: rest => item :: flattened key item ++ flattenedItems key rest

end

def packageObjects (document : Json) : List Json := document.flattened "packages"

def classObjects (document : Json) : List Json := document.packageObjects.flatMap (flattened "classes")

def methodObjects (document : Json) : List Json := document.classObjects.flatMap (itemsOf "methods")

/-- Whether a field is there and is not null. -/
def holds (key : LooseText) (value : Json) : Bool :=
  match value.field? key with
  | none | some .null => false
  | some _ => true

theorem flattenedItems_eq (key : LooseText) (items : List Json) :
    flattenedItems key items = items.flatMap fun item => item :: item.flattened key := by
  induction items with
  | nil => rfl
  | cons item rest ih => rw [flattenedItems, ih, List.flatMap_cons]

end Json

namespace NameTree
variable {tree : NameTree}

def packageObject (tree : NameTree) (id : PackageId) : Json := (tree.packageBranch id).document tree

def classObject (tree : NameTree) (id : ClassId) : Json := (tree.classBranch id).document tree

section
variable (formed : tree.Formed)
include formed

theorem Formed.classObject_eq (id : ClassId) :
    tree.classObject id = tree.classDocument id ((tree.javaClass id).classes.values.map tree.classObject) := by
  rw [classObject, formed.classBranch_eq, ClassBranch.document, ClassBranch.documents_eq, List.map_map]
  rfl

theorem Formed.packageObject_eq (id : PackageId) :
    tree.packageObject id = tree.packageDocument id ((tree.package id).children.values.map tree.packageObject)
      ((tree.package id).classes.values.map tree.classObject) := by
  rw [packageObject, formed.packageBranch_eq, PackageBranch.document, PackageBranch.documents_eq,
    ClassBranch.documents_eq, List.map_map, List.map_map]
  rfl

theorem Formed.classObject_flattened (id : ClassId) :
    tree.classObject id :: (tree.classObject id).flattened "classes" = (tree.classesUnder id).map tree.classObject := by
  induction id using formed.class_induction with
  | step id ih =>
    have inner : (tree.classObject id).flattened "classes" =
        (tree.javaClass id).classes.values.flatMap fun inner => (tree.classesUnder inner).map tree.classObject := by
      rw [formed.classObject_eq, ← List.flatMap_congr ih]
      simp [classDocument, Json.flattened, Json.flattenedField, Json.flattenedItems_eq, List.flatMap_map]
    rw [inner, formed.classesUnder_eq, List.map_cons, List.map_flatMap]

theorem Formed.packageObject_flattened (id : PackageId) :
    tree.packageObject id :: (tree.packageObject id).flattened "packages" =
      (tree.packagesUnder id).map tree.packageObject := by
  induction id using formed.package_induction with
  | step id ih =>
    have inner : (tree.packageObject id).flattened "packages" =
        (tree.package id).children.values.flatMap fun child => (tree.packagesUnder child).map tree.packageObject := by
      rw [formed.packageObject_eq, ← List.flatMap_congr ih]
      simp [packageDocument, Json.flattened, Json.flattenedField, Json.flattenedItems_eq, List.flatMap_map]
    rw [inner, formed.packagesUnder_eq, List.map_cons, List.map_flatMap]

theorem Formed.packageObject_classes (id : PackageId) :
    (tree.packageObject id).flattened "classes" = (tree.classesIn id).map tree.classObject := by
  rw [classesIn, List.map_flatMap, ← List.flatMap_congr fun inner _ => formed.classObject_flattened inner,
    formed.packageObject_eq]
  simp [packageDocument, Json.flattened, Json.flattenedField, Json.flattenedItems_eq, List.flatMap_map]

theorem Formed.classObject_methods (id : ClassId) :
    (tree.classObject id).itemsOf "methods" = (tree.javaClass id).methods.values.map tree.methodDocument := by
  rw [formed.classObject_eq]
  simp [classDocument, Json.itemsOf, Json.field?, OrderedTable.find?]

theorem Formed.holds_path (id : ClassId) : (tree.classObject id).holds "path" = (tree.javaClass id).path.isSome := by
  rw [formed.classObject_eq]
  cases located : (tree.javaClass id).path <;>
    simp [classDocument, Json.holds, Json.field?, OrderedTable.find?, Json.ofOption, located]

theorem Formed.packageObjects_document :
    tree.document.packageObjects = tree.listPackages.map tree.packageObject := by
  rw [formed.listPackages_eq, List.map_flatMap, ← List.flatMap_congr fun id _ => formed.packageObject_flattened id]
  simp [Json.packageObjects, document, Json.flattened, Json.flattenedField, Json.flattenedItems_eq, forest,
    PackageBranch.documents_eq, List.flatMap_map, packageObject, Function.comp_def]

theorem Formed.classObjects_document : tree.document.classObjects = tree.listClasses.map tree.classObject := by
  rw [Json.classObjects, formed.packageObjects_document, formed.listClasses_eq, List.flatMap_map, List.map_flatMap,
    List.flatMap_congr fun id _ => formed.packageObject_classes id]

theorem Formed.methodObjects_document : tree.document.methodObjects = tree.listMethods.map tree.methodDocument := by
  rw [Json.methodObjects, formed.classObjects_document, listMethods, List.flatMap_map, List.map_flatMap,
    List.flatMap_congr fun id _ => formed.classObject_methods id]

end

end NameTree

end ClearNames
