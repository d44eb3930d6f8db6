import ClearNames.NameTree.Fault
import ClearNames.NameTree.Naming
import ClearNames.Signature

/-! Finding nodes by clear name and making those that are missing.

A growth step returns a value or a fault, and the tree in either case: nodes
made before a fault stay. The first segment of a dotted name is always a root
package; each later one is a class or a package by its casing, and no package
lies below a class.
-/

set_option autoImplicit false

namespace ClearNames

/-- A step that may make nodes and may fail; what it made stays when it fails. -/
abbrev Growth (α : Type) := ExceptT NamingFault (StateM NameTree) α

def Growth.on {α : Type} (step : Growth α) (tree : NameTree) : Except NamingFault α × NameTree :=
  (step.run.run tree : Id _).run

namespace NameTree

def segments (identifier : String) : List String := Text.pieces '.' identifier

theorem segments_ne_nil (identifier : String) : segments identifier ≠ [] := by
  simp [segments, Text.pieces, Text.splitAt_ne_nil]

theorem not_mem_of_mem_segments {identifier segment : String} (member : segment ∈ segments identifier) :
    '.' ∉ segment.toList := by
  obtain ⟨piece, inside, rfl⟩ := List.mem_map.mp member
  simpa using Text.not_mem_of_mem_splitAt inside

theorem intercalate_segments (identifier : String) : ".".intercalate (segments identifier) = identifier := by
  have dot : ".".toList = ['.'] := rfl
  apply String.toList_injective
  rw [String.toList_intercalate, dot, ← Text.joinWith_eq_intercalate]
  simp [segments, Text.pieces, Function.comp_def, Text.joinWith_splitAt]

theorem segments_injective {first second : String} (same : segments first = segments second) : first = second := by
  rw [← intercalate_segments first, same, intercalate_segments]

theorem segments_intercalate {parts : List String} (nonempty : parts ≠ [])
    (plain : ∀ part ∈ parts, '.' ∉ part.toList) : segments (".".intercalate parts) = parts :=
  Text.pieces_intercalate rfl nonempty plain

def lastSegment (identifier : String) : String := (segments identifier).getLastD ""

theorem dropLast_append_lastSegment (identifier : String) :
    (segments identifier).dropLast ++ [lastSegment identifier] = segments identifier := by
  have last : lastSegment identifier = (segments identifier).getLast (segments_ne_nil identifier) := by
    rw [lastSegment, List.getLastD_eq_getLast?, List.getLast?_eq_some_getLast (segments_ne_nil identifier)]
    rfl
  rw [last, List.dropLast_concat_getLast]

theorem lastSegment_mem (identifier : String) : lastSegment identifier ∈ segments identifier := by
  rw [← dropLast_append_lastSegment identifier]
  exact List.mem_append_right _ List.mem_cons_self

def findOrAddRoot (name : String) : Growth PackageId := do
  let tree ← get
  match tree.roots.find? name with
  | some id => pure id
  | none => modifyGet fun tree => tree.addRoot name

def findOrAddPackage (parent : PackageId) (name : String) : Growth PackageId := do
  let tree ← get
  match (tree.package parent).children.find? name with
  | some id => pure id
  | none => modifyGet fun tree => tree.addPackage parent name

def findOrAddClass (owner : Scope) (name : String) : Growth ClassId := do
  let tree ← get
  match (tree.classesOf owner).find? name with
  | some id => pure id
  | none => modifyGet fun tree => tree.addClass owner name

def enter (identifier : String) (scope : Scope) (segment : String) : Growth Scope :=
  match scope, SegmentKind.of segment with
  | scope, .javaClass => Scope.javaClass <$> findOrAddClass scope segment
  | .package id, .package => Scope.package <$> findOrAddPackage id segment
  | .javaClass _, .package => throw (.packageBelowClass identifier segment)

def descend (identifier : String) (scope : Scope) : List String → Growth Scope
  | [] => pure scope
  | segment :: rest => do
    let inner ← enter identifier scope segment
    descend identifier inner rest

def resolve (identifier : String) : Growth Scope :=
  match segments identifier with
  | [] => throw (.notAClass identifier "")
  | root :: rest => do
    let id ← findOrAddRoot root
    descend identifier (.package id) rest

def resolveClass (identifier : String) : Growth ClassId := do
  match ← resolve identifier with
  | .javaClass id => pure id
  | .package _ => throw (.notAClass identifier (lastSegment identifier))

/-- The primitive of a name, or else the package or class of that full name. -/
def resolveBase (name : String) : Growth BaseType :=
  match Primitive.named? name with
  | some primitive => pure (.primitive primitive)
  | none => BaseType.scope <$> resolve name

def resolveType (descriptor : String) : Growth TypeUse := do
  let parts := Descriptor.ofString descriptor
  let base ← resolveBase parts.base
  pure ⟨base, parts.dimension⟩

def resolveTypes : List String → Growth (List TypeUse)
  | [] => pure []
  | descriptor :: rest => do
    let first ← resolveType descriptor
    let others ← resolveTypes rest
    pure (first :: others)

def readSignature (text : String) : Growth Signature :=
  match Signature.parse? text with
  | some signature => pure signature
  | none => throw (.badSignature text)

def findMethod (tree : NameTree) (owner : ClassId) (name : String) (arguments : List TypeUse) :
    Option MethodId :=
  (tree.javaClass owner).methods.find? (name, arguments)

/-- The method of a class with a clear signature, made if it is missing. The
result type is resolved only when the method is made. -/
def findOrAddMethod (owner : ClassId) (signature : Signature) (arguments : List TypeUse) :
    Growth MethodId := do
  match (← get).findMethod owner signature.name arguments with
  | some id => pure id
  | none =>
    let returns ← resolveType signature.returns
    modifyGet fun tree => tree.addMethod owner signature.name returns arguments

def resolveMethod (owner : ClassId) (text : String) : Growth MethodId := do
  let signature ← readSignature text
  let arguments ← resolveTypes signature.arguments
  findOrAddMethod owner signature arguments

end NameTree

end ClearNames
