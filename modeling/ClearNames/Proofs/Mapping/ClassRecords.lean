import ClearNames.Proofs.Mapping.MethodTables
import ClearNames.Proofs.Mapping.Printing
import ClearNames.Proofs.NameTree.Unlocated

/-! What class records tell of a tree.

A record is a class with the methods that its lines name. Records of different
classes tell a tree up to the order of siblings: which full names it holds,
what each node carries, and which methods each class has. It does not matter in
which order the records come.
-/

set_option autoImplicit false

namespace ClearNames

namespace Mapping
open NameTree MappingLine

def MethodRecord.row (method : MethodRecord) : MethodRow := ⟨method.signature, method.obfuscation.1⟩

structure ClassRecord where
  name : ClassPath
  obfuscated : ClassPath
  methods : List MethodRecord

namespace ClassRecord

def entry (record : ClassRecord) : String × String := (record.name.1, record.obfuscated.1)

def path (record : ClassRecord) : List String := segments record.name.1

def table (record : ClassRecord) : List MethodRow :=
  record.methods.foldl (fun rows method => enterMethod rows method.row) []

/-- The full names of the nodes that a class and its methods need. What a method
returns is needed where the method is made; of what is no class, no method is taken up. -/
def Needs (record : ClassRecord) (path : List String) : Prop :=
  OnWay record.name.1 path ∨ NamesClass record.name.1 ∧
    ((∃ method ∈ record.methods, ∃ argument ∈ method.signature.arguments, OnTypeWay argument path) ∨
      ∃ row ∈ record.table, OnTypeWay row.signature.returns path)

theorem onWay_path (record : ClassRecord) : OnWay record.name.1 record.path :=
  ⟨segments_ne_nil record.name.1, List.prefix_refl _⟩

/-- Two packages inside one package are given the same alias. -/
structure Clashes (one other : ClassRecord) : Prop where
  inner : one.path.dropLast ≠ []
  beside : one.path.dropLast = other.path.dropLast
  package : SegmentKind.of (lastSegment one.name.1) = .package
  packageThere : SegmentKind.of (lastSegment other.name.1) = .package
  taken : lastSegment one.obfuscated.1 = lastSegment other.obfuscated.1

theorem Clashes.symm {one other : ClassRecord} (clashes : one.Clashes other) : other.Clashes one :=
  ⟨clashes.beside ▸ clashes.inner, clashes.beside.symm, clashes.packageThere, clashes.package, clashes.taken.symm⟩

end ClassRecord

def Distinct (records : List ClassRecord) : Prop := (records.map ClassRecord.path).Nodup

/-- The methods that records tell of a full name. -/
def tableAt (records : List ClassRecord) (path : List String) : List MethodRow :=
  ((records.find? fun record => record.path = path).map ClassRecord.table).getD []

/-- A tree that holds what records tell, and nothing else. -/
structure Told (records : List ClassRecord) (tree : NameTree) : Prop where
  follows : Follows (records.map ClassRecord.entry) tree
  unlocated : tree.Unlocated
  holdsPath : ∀ path, tree.HoldsPath path ↔ ∃ record ∈ records, record.Needs path
  tables : ∀ {id}, tree.HasClass id → Tabulates tree id (tableAt records (tree.classSegments id))

/-! ## Order -/

section
variable {records others : List ClassRecord}

theorem Distinct.eq_of_path (distinct : Distinct records) {one other : ClassRecord} (oneIn : one ∈ records)
    (otherIn : other ∈ records) (same : one.path = other.path) : one = other :=
  List.inj_on_of_nodup_map distinct oneIn otherIn same

theorem Distinct.front {front back : List ClassRecord} (distinct : Distinct (front ++ back)) : Distinct front :=
  List.Nodup.sublist ((List.sublist_append_left _ _).map ClassRecord.path) distinct

theorem Distinct.fresh {record : ClassRecord} (distinct : Distinct (records ++ [record])) :
    record.path ∉ records.map ClassRecord.path := by
  intro taken
  have nodup : (records.map ClassRecord.path ++ [record.path]).Nodup := by simpa [Distinct] using distinct
  exact List.disjoint_of_nodup_append nodup taken (List.mem_singleton_self _)

theorem Distinct.eq_of_entry (distinct : Distinct records) {path : List String} {first second : String × String}
    (firstIn : first ∈ records.map ClassRecord.entry) (secondIn : second ∈ records.map ClassRecord.entry)
    (atFirst : segments first.1 = path) (atSecond : segments second.1 = path) : first = second := by
  obtain ⟨one, oneIn, rfl⟩ := List.mem_map.mp firstIn
  obtain ⟨other, otherIn, rfl⟩ := List.mem_map.mp secondIn
  exact congrArg ClassRecord.entry (distinct.eq_of_path oneIn otherIn (atFirst.trans atSecond.symm))

theorem find?_perm {α : Type} {items itemsThere : List α} {kind : α → Bool} (perm : items.Perm itemsThere)
    (only : ∀ first ∈ items, ∀ second ∈ items, kind first → kind second → first = second) :
    items.find? kind = itemsThere.find? kind := by
  refine Option.ext fun found => ?_
  rw [find?_eq_some_iff_only only, find?_eq_some_iff_only fun first firstIn second secondIn =>
    only first (perm.mem_iff.mpr firstIn) second (perm.mem_iff.mpr secondIn), perm.mem_iff]

theorem tableAt_perm (distinct : Distinct records) (perm : records.Perm others) (path : List String) :
    tableAt records path = tableAt others path := by
  rw [tableAt, find?_perm perm fun first firstIn second secondIn atFirst atSecond => ?_, tableAt]
  exact distinct.eq_of_path firstIn secondIn ((of_decide_eq_true atFirst).trans (of_decide_eq_true atSecond).symm)

theorem aliasOf_perm (distinct : Distinct records) (perm : records.Perm others) (path : List String) :
    aliasOf (records.map ClassRecord.entry) path = aliasOf (others.map ClassRecord.entry) path := by
  have reversed := (List.reverse_perm _).trans ((perm.map ClassRecord.entry).trans (List.reverse_perm _).symm)
  rw [aliasOf, find?_perm reversed fun first firstIn second secondIn atFirst atSecond => ?_, aliasOf]
  exact distinct.eq_of_entry (List.mem_reverse.mp firstIn) (List.mem_reverse.mp secondIn)
    (of_decide_eq_true atFirst) (of_decide_eq_true atSecond)

theorem Told.perm {tree : NameTree} (told : Told records tree) (distinct : Distinct records)
    (perm : records.Perm others) : Told others tree := by
  have entries := perm.map ClassRecord.entry
  refine {
    follows := {
      natural := told.follows.natural
      paths := told.follows.paths
      carried := fun known => (told.follows.carried known).trans (aliasOf_perm distinct perm _)
      entered := fun entry member => told.follows.entered entry (entries.mem_iff.mpr member)
      aliases := fun entry member => told.follows.aliases entry (entries.mem_iff.mpr member)
      methods := told.follows.methods
      dimensions := told.follows.dimensions }
    unlocated := told.unlocated
    holdsPath := fun path => ?_
    tables := fun {id} known => ?_ }
  · rw [told.holdsPath]
    exact exists_congr fun record => and_congr_left' perm.mem_iff
  · rw [← tableAt_perm distinct perm]
    exact told.tables known

end

/-! ## Trees that the same records tell -/

section
variable {records : List ClassRecord} {left right : NameTree}

theorem IsRow.account {owner : ClassId} {row : MethodRow} {id : MethodId} (isRow : IsRow left owner row id)
    (natural : left.Natural) : left.methodAccount id = row.account := by
  simp only [methodAccount, MethodRow.account, isRow.name, isRow.carries, natural.typeAccount_of_spells isRow.returns,
    natural.typeAccounts_of_spelled (isRow.arguments.imp fun _ _ names => names.2)]

theorem Tabulates.accounts {owner : ClassId} {table : List MethodRow} (tabulates : Tabulates left owner table)
    (natural : left.Natural) :
    (left.javaClass owner).methods.values.map left.methodAccount = table.map MethodRow.account := by
  unfold Tabulates at tabulates
  generalize (left.javaClass owner).methods.values = methods at tabulates
  induction tabulates with
  | nil => rfl
  | cons isRow _ ih => rw [List.map_cons, List.map_cons, isRow.account natural, ih]

theorem Told.nodeAccount (told : Told records left) {scope : Scope} (known : left.HasScope scope) :
    left.nodeAccount scope = {
      name := nodeNamed (left.scopeSegments scope)
      owner := ownerNamed (left.scopeSegments scope)
      obfuscation := aliasOf (records.map ClassRecord.entry) (left.scopeSegments scope)
      sourceFile := none
      methods := match kindOf (left.scopeSegments scope) with
        | .package => []
        | .javaClass => (tableAt records (left.scopeSegments scope)).map MethodRow.account } := by
  have natural := told.follows.natural
  have named := natural.nodeName_eq known
  have kind : kindOf (left.scopeSegments scope) = scope.kind := (congrArg NodeName.kind named).symm
  rw [NameTree.nodeAccount, named, natural.ownerOf_nodeName known, told.follows.carried known, kind]
  cases scope with
  | package id => rfl
  | javaClass id =>
    have source : left.scopeSource (.javaClass id) = none := told.unlocated.bare id
    have methods := (told.tables known).accounts natural
    rw [source]
    exact congrArg _ methods

/-- Records tell a tree up to the order of siblings. -/
theorem Told.sameUpToOrder (told : Told records left) (toldThere : Told records right) : left.SameUpToOrder right := by
  refine told.follows.natural.sameUpToOrder toldThere.follows.natural
    (fun path => (told.holdsPath path).trans (toldThere.holdsPath path).symm) fun {scope twin} known twinKnown path => ?_
  rw [told.nodeAccount known, toldThere.nodeAccount twinKnown, path]

end

end Mapping

end ClearNames
