import ClearNames.Proofs.Mapping.Trees
import ClearNames.Proofs.NameTree.Listings
import ClearNames.Proofs.NameTree.Presence

/-! What a tree says of its nodes, whatever the order of siblings.

An account tells a node by kind and full name instead of its identifier, and
types in the same way. As no two nodes have the same full name, trees with the
same accounts differ in the order of siblings at most.
-/

set_option autoImplicit false

namespace ClearNames

/-- A package or a class, told by its kind and its full name. -/
structure NodeName where
  kind : SegmentKind
  path : List String
  deriving DecidableEq, Repr

inductive BaseName where
  | primitive (primitive : Primitive)
  | node (name : NodeName)
  deriving DecidableEq, Repr

structure TypeAccount where
  base : BaseName
  dimension : Int
  deriving DecidableEq, Repr

structure MethodAccount where
  name : String
  returns : TypeAccount
  arguments : List TypeAccount
  obfuscation : Option String
  deriving DecidableEq, Repr

/-- All that a tree says of a package or a class. The methods are in their order; a package has none. -/
structure NodeAccount where
  name : NodeName
  owner : Option NodeName
  obfuscation : Option String
  sourceFile : Option String
  methods : List MethodAccount
  deriving DecidableEq, Repr

namespace NameTree

def nodeName (tree : NameTree) (scope : Scope) : NodeName := ⟨scope.kind, tree.scopeSegments scope⟩

def typeAccount (tree : NameTree) (type : TypeUse) : TypeAccount where
  base := match type.base with
    | .primitive primitive => .primitive primitive
    | .scope scope => .node (tree.nodeName scope)
  dimension := type.dimension

def methodAccount (tree : NameTree) (id : MethodId) : MethodAccount where
  name := (tree.method id).name
  returns := tree.typeAccount (tree.method id).returns
  arguments := (tree.method id).arguments.map tree.typeAccount
  obfuscation := (tree.method id).obfuscation

def scopeSource (tree : NameTree) : Scope → Option String
  | .package _ => none
  | .javaClass id => (tree.javaClass id).path

def scopeMethods (tree : NameTree) : Scope → List MethodId
  | .package _ => []
  | .javaClass id => (tree.javaClass id).methods.values

def nodeAccount (tree : NameTree) (scope : Scope) : NodeAccount where
  name := tree.nodeName scope
  owner := (tree.ownerOf scope).map tree.nodeName
  obfuscation := tree.scopeObfuscation scope
  sourceFile := tree.scopeSource scope
  methods := (tree.scopeMethods scope).map tree.methodAccount

def listScopes (tree : NameTree) : List Scope :=
  tree.listPackages.map .package ++ tree.listClasses.map .javaClass

def accounts (tree : NameTree) : List NodeAccount := tree.listScopes.map tree.nodeAccount

/-- Trees of the same nodes, which may stand among their siblings in another order. -/
def SameUpToOrder (left right : NameTree) : Prop := left.accounts.Perm right.accounts

instance (left right : NameTree) : Decidable (left.SameUpToOrder right) := inferInstanceAs (Decidable (List.Perm _ _))

/-! ## Kinds and owners by full names -/

/-- What stands under a full name: a root is a package, and any other node is told by the casing of its name. -/
def kindOf (path : List String) : SegmentKind :=
  if 2 ≤ path.length then SegmentKind.of (path.getLastD "") else .package

def nodeNamed (path : List String) : NodeName := ⟨kindOf path, path⟩

def ownerNamed (path : List String) : Option NodeName :=
  if path.dropLast = [] then none else some (nodeNamed path.dropLast)

/-- The type that a descriptor spells. -/
def typeSpelled (descriptor : String) : TypeAccount where
  base := match Primitive.named? (Descriptor.ofString descriptor).base with
    | some primitive => .primitive primitive
    | none => .node (nodeNamed (segments (Descriptor.ofString descriptor).base))
  dimension := (Descriptor.ofString descriptor).dimension

section
variable {tree : NameTree} (natural : tree.Natural)
include natural

theorem Natural.nodeName_eq {scope : Scope} (known : tree.HasScope scope) :
    tree.nodeName scope = nodeNamed (tree.scopeSegments scope) := by
  have path := natural.formed.founded.scopeSegments_eq known
  have last : (tree.scopeSegments scope).getLastD "" = tree.simpleName scope := by
    rw [path]
    simp
  have kind : scope.kind = kindOf (tree.scopeSegments scope) := by
    rw [kindOf, last]
    cases scope with
    | javaClass id =>
      have inner := List.length_pos_iff.mpr (tree.scopeSegments_ne_nil (tree.javaClass id).owner)
      have long : 2 ≤ (tree.scopeSegments (.javaClass id)).length := by
        rw [path, List.length_append]
        exact Nat.add_le_add_right inner 1
      rw [if_pos long]
      exact (natural.javaClass known).2.1.symm
    | package id =>
      have placed := natural.package known
      unfold PackagePlaced at placed
      cases owned : (tree.package id).parent with
      | none =>
        simp only [ownerOf, owned, Option.map_none, List.nil_append] at path
        rw [path]
        rfl
      | some parent =>
        rw [owned] at placed
        split
        · exact placed.2.1.symm
        · rfl
  rw [nodeName, kind]
  rfl

theorem Natural.ownerOf_nodeName {scope : Scope} (known : tree.HasScope scope) :
    (tree.ownerOf scope).map tree.nodeName = ownerNamed (tree.scopeSegments scope) := by
  have founded := natural.formed.founded
  have path := founded.scopeSegments_eq known
  cases owned : tree.ownerOf scope with
  | none =>
    rw [owned] at path
    rw [path]
    rfl
  | some owner =>
    rw [owned] at path
    have front : (tree.scopeSegments scope).dropLast = tree.scopeSegments owner := by
      rw [path, List.dropLast_concat]
    rw [ownerNamed, front, if_neg (tree.scopeSegments_ne_nil owner), Option.map_some,
      natural.nodeName_eq (founded.hasOwner known owned)]

theorem Natural.typeAccount_of_spells {descriptor : String} {type : TypeUse} (spells : tree.Spells descriptor type) :
    tree.typeAccount type = typeSpelled descriptor := by
  obtain ⟨base, dimension⟩ := type
  obtain ⟨denotes, rfl⟩ := spells
  cases base with
  | primitive primitive =>
    have named : Primitive.named? (Descriptor.ofString descriptor).base = some primitive := denotes
    simp only [typeAccount, typeSpelled, named]
  | scope scope =>
    obtain ⟨unnamed, known, path⟩ := denotes
    simp only [typeAccount, typeSpelled, unnamed, natural.nodeName_eq known, path]

theorem Natural.typeAccounts_of_spelled {descriptors : List String} {types : List TypeUse}
    (spelled : List.Forall₂ tree.Spells descriptors types) : types.map tree.typeAccount = descriptors.map typeSpelled := by
  induction spelled with
  | nil => rfl
  | cons spells _ ih => rw [List.map_cons, List.map_cons, natural.typeAccount_of_spells spells, ih]

/-! ## The listing -/

theorem Natural.rooted {scope : Scope} (known : tree.HasScope scope) : tree.Rooted scope := by
  refine natural.formed.founded.owner_induction (motive := tree.Rooted) (fun scope known above => ?_) known
  cases scope with
  | javaClass id =>
    exact .javaClass (above _ rfl) (OrderedTable.mem_values.mpr ⟨_, (natural.javaClass known).2.2⟩)
  | package id =>
    have placed := natural.package known
    unfold PackagePlaced at placed
    cases owned : (tree.package id).parent with
    | none =>
      rw [owned] at placed
      exact .root (OrderedTable.mem_values.mpr ⟨_, placed.2⟩)
    | some parent =>
      rw [owned] at placed
      exact .child (above (.package parent) (congrArg (Option.map Scope.package) owned))
        (OrderedTable.mem_values.mpr ⟨_, placed.2.2⟩)

theorem Natural.mem_listScopes {scope : Scope} : scope ∈ tree.listScopes ↔ tree.HasScope scope := by
  have formed := natural.formed
  have listed : scope ∈ tree.listScopes ↔ tree.Rooted scope := by
    cases scope <;> simp [listScopes, formed.mem_listPackages, formed.mem_listClasses]
  exact listed.trans ⟨formed.hasScope_of_rooted, natural.rooted⟩

theorem Natural.nodup_listScopes : tree.listScopes.Nodup := by
  have packages : (tree.listPackages.map Scope.package).Nodup :=
    natural.formed.nodup_listPackages.map package_injective
  have classes : (tree.listClasses.map Scope.javaClass).Nodup := natural.formed.nodup_listClasses.map javaClass_injective
  refine List.nodup_append.mpr ⟨packages, classes, ?_⟩
  rintro scope isPackage _ isClass rfl
  obtain ⟨_, -, rfl⟩ := List.mem_map.mp isPackage
  obtain ⟨_, -, other⟩ := List.mem_map.mp isClass
  cases other

theorem Natural.nodup_accounts : tree.accounts.Nodup := by
  refine List.Nodup.map_on (fun one oneListed other otherListed same => ?_) natural.nodup_listScopes
  have path : tree.scopeSegments one = tree.scopeSegments other := congrArg (fun account => account.name.path) same
  exact natural.eq_of_scopeSegments_eq (natural.mem_listScopes.mp oneListed) (natural.mem_listScopes.mp otherListed) path

theorem Natural.mem_accounts {account : NodeAccount} :
    account ∈ tree.accounts ↔ ∃ scope, tree.HasScope scope ∧ tree.nodeAccount scope = account := by
  simp only [accounts, List.mem_map, natural.mem_listScopes]

end

section
variable {left right : NameTree}

/-- Trees of the same full names, whose nodes have the same accounts, are the same up to order. -/
theorem Natural.sameUpToOrder (natural : left.Natural) (naturalThere : right.Natural)
    (paths : ∀ path, left.HoldsPath path ↔ right.HoldsPath path)
    (same : ∀ {scope twin}, left.HasScope scope → right.HasScope twin →
      right.scopeSegments twin = left.scopeSegments scope → left.nodeAccount scope = right.nodeAccount twin) :
    left.SameUpToOrder right := by
  refine (List.perm_ext_iff_of_nodup natural.nodup_accounts naturalThere.nodup_accounts).mpr fun account => ?_
  rw [natural.mem_accounts, naturalThere.mem_accounts]
  constructor
  · rintro ⟨scope, known, rfl⟩
    obtain ⟨twin, twinKnown, path⟩ := (paths _).mp ⟨scope, known, rfl⟩
    exact ⟨twin, twinKnown, (same known twinKnown path).symm⟩
  · rintro ⟨twin, twinKnown, rfl⟩
    obtain ⟨scope, known, path⟩ := (paths _).mpr ⟨twin, twinKnown, rfl⟩
    exact ⟨scope, known, same known twinKnown path.symm⟩

end

end NameTree

end ClearNames
