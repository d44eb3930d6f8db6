import ClearNames.Proofs.NameTree.Locating

/-! Operations on a name tree, and the trees that runs of them lead to.

A caller asks for nodes by name, or changes nodes that it holds: it may replace
an entry, and it may rename a node that has lost its place. An operation that
fails leaves what it made before it failed.
-/

set_option autoImplicit false

namespace ClearNames

open NameTree

/-- An operation that finds or makes nodes by their names. -/
inductive Request where
  | scope (identifier : String)
  | base (name : String)
  | type (descriptor : String)
  | method (owner : ClassId) (text : String)
  | aliasScope (identifier obfuscation : String)
  | aliasMethod (owner : ClassReference) (text obfuscation : String)
  | registerMethod (owner : ClassReference) (text obfuscation : String)
  deriving DecidableEq, Repr

namespace Request

def Held (tree : NameTree) : Request → Prop
  | .scope _ | .base _ | .type _ | .aliasScope _ _ => True
  | .method owner _ => tree.HasClass owner
  | .aliasMethod owner _ _ | .registerMethod owner _ _ => tree.HoldsReference owner

/-- The tree after a request, whether it succeeds or fails. -/
def after (tree : NameTree) : Request → NameTree
  | .scope identifier => ((resolve identifier).on tree).2
  | .base name => ((resolveBase name).on tree).2
  | .type descriptor => ((resolveType descriptor).on tree).2
  | .method owner text => ((resolveMethod owner text).on tree).2
  | .aliasScope identifier obfuscation => ((NameTree.aliasScope identifier obfuscation).on tree).2
  | .aliasMethod owner text obfuscation => ((aliasMethodOf owner text obfuscation).on tree).2
  | .registerMethod owner text obfuscation => ((registerMethodOf owner text obfuscation).on tree).2

def argumentTypes : Request → List String
  | .scope _ | .base _ | .type _ | .aliasScope _ _ => []
  | .method _ text | .aliasMethod _ text _ | .registerMethod _ text _ => Growth.spelledTypes text

/-- The signature that a request asks for a method by. -/
def signature? : Request → Option Signature
  | .scope _ | .base _ | .type _ | .aliasScope _ _ => none
  | .method _ text | .aliasMethod _ text _ | .registerMethod _ text _ => Signature.parse? text

theorem moves_after {moves : NameTree → NameTree → Prop} [Std.Refl moves] [Trans moves moves moves] {tree : NameTree}
    (formed : tree.Formed) {request : Request} (held : request.Held tree) (admits : Admits moves request.signature?) :
    moves tree (request.after tree) := by
  cases request with
  | scope identifier => exact (Growth.resolve_leads admits formed identifier).moved
  | base name =>
    have grows : (resolveBase name).Grows AnyPath tree _ := Growth.resolveBase_grows formed name fun _ _ => trivial
    exact admits.grown grows.moved
  | type descriptor => exact admits.grown (Growth.resolveType_grows_any formed descriptor).moved
  | method owner text => exact (Growth.resolveMethod_leads admits formed held).moved
  | aliasScope identifier obfuscation => exact (Growth.aliasScope_leads admits formed identifier obfuscation).moved
  | aliasMethod owner text obfuscation => exact (Growth.aliasMethodOf_leads admits formed held obfuscation).moved
  | registerMethod owner text obfuscation => exact (Growth.registerMethodOf_leads admits formed held obfuscation).moved

theorem changed {tree : NameTree} (formed : tree.Formed) {request : Request} (held : request.Held tree) :
    Changed request.argumentTypes tree (request.after tree) := by
  refine moves_after formed held ?_
  cases request with
  | scope | base | type | aliasScope => exact admits_changed_none []
  | method _ text | aliasMethod _ text | registerMethod _ text => exact Growth.admits_changed_spelled text

theorem altered {tree : NameTree} (formed : tree.Formed) {request : Request} (held : request.Held tree) :
    Altered tree (request.after tree) := (changed formed held).altered

end Request

/-- An operation of any kind. Making a node enters it in place of one of the same key. -/
inductive Operation where
  | request (request : Request)
  | makePackage (parent : PackageId) (name : String)
  | makeClass (owner : Scope) (name : String)
  | makeMethod (owner : ClassId) (name : String) (returns : TypeUse) (arguments : List TypeUse)
  | obfuscateScope (scope : Scope) (obfuscation : Option String)
  | obfuscateMethod (method : MethodId) (obfuscation : Option String)
  deriving DecidableEq, Repr

namespace Operation

def Held (tree : NameTree) : Operation → Prop
  | .request asked => asked.Held tree
  | .makePackage parent _ => tree.HasPackage parent
  | .makeClass owner _ => tree.HasScope owner
  | .makeMethod owner _ returns arguments =>
    tree.HasClass owner ∧ tree.HasType returns ∧ ∀ type ∈ arguments, tree.HasType type
  | .obfuscateScope scope _ => tree.HasScope scope
  | .obfuscateMethod method _ => tree.HasMethod method

def after (tree : NameTree) : Operation → NameTree
  | .request asked => asked.after tree
  | .makePackage parent name => (tree.addPackage parent name).2
  | .makeClass owner name => (tree.addClass owner name).2
  | .makeMethod owner name returns arguments => (tree.addMethod owner name returns arguments).2
  | .obfuscateScope scope obfuscation => ((NameTree.obfuscateScope scope obfuscation).on tree).2
  | .obfuscateMethod method obfuscation => ((NameTree.obfuscateMethod method obfuscation).on tree).2

theorem formed {tree : NameTree} (formed : tree.Formed) {operation : Operation} (held : operation.Held tree) :
    (operation.after tree).Formed := by
  cases operation with
  | request asked => exact (Request.altered formed held).formed formed
  | makePackage parent name => exact formed.edit (.add (show tree.Grounded (.package parent name) from held))
  | makeClass owner name => exact formed.edit (.add (show tree.Grounded (.javaClass owner name) from held))
  | makeMethod owner name returns arguments =>
    exact formed.edit (.add (show tree.Grounded (.method owner name returns arguments) from held))
  | obfuscateScope scope obfuscation =>
    exact (Growth.obfuscateScope_leads (admits_altered none) held obfuscation).moved.formed formed
  | obfuscateMethod method obfuscation =>
    exact (Growth.obfuscateMethod_leads (admits_altered none) held obfuscation).moved.formed formed

end Operation

namespace NameTree

/-- A tree that a run of operations, and of searches for sources, leads to from the empty one. -/
inductive Reachable : NameTree → Prop where
  | empty : Reachable empty
  | after {tree : NameTree} {operation : Operation} (reachable : Reachable tree) (held : operation.Held tree) :
      Reachable (operation.after tree)
  | located {tree : NameTree} {disk : Disk} {directory : String} {target : Sources.Target} {found : Sources.Located}
      (reachable : Reachable tree) (located : Sources.locate disk directory tree target = .ok found) :
      Reachable found.tree

/-- A tree that a run of requests alone, and of searches for sources, leads to from the empty one. -/
inductive Requested : NameTree → Prop where
  | empty : Requested empty
  | after {tree : NameTree} {request : Request} (requested : Requested tree) (held : request.Held tree) :
      Requested (request.after tree)
  | located {tree : NameTree} {disk : Disk} {directory : String} {target : Sources.Target} {found : Sources.Located}
      (requested : Requested tree) (located : Sources.locate disk directory tree target = .ok found) :
      Requested found.tree

section
variable {tree : NameTree}

theorem Reachable.formed (reachable : Reachable tree) : tree.Formed := by
  induction reachable with
  | empty => exact formed_empty
  | after _ held ih => exact Operation.formed ih held
  | located _ located ih => exact (Sources.locate_altered located).formed ih

theorem Requested.reachable (requested : Requested tree) : Reachable tree := by
  induction requested with
  | empty => exact .empty
  | @after tree request _ held ih =>
    have given : (Operation.request request).Held tree := held
    exact .after ih given
  | located _ located ih => exact .located ih located

theorem Requested.altered (requested : Requested tree) : Altered NameTree.empty tree := by
  induction requested with
  | empty => exact .refl
  | after requested held ih => exact ih.trans (Request.altered requested.reachable.formed held)
  | located _ located ih => exact ih.trans (Sources.locate_altered located)

end

/-! ## Obfuscations and keys -/

/-- Sub-packages carry different obfuscations, methods with the same arguments
carry different obfuscations, and every node is entered under its own key. -/
structure Keyed (tree : NameTree) : Prop where
  packages : ∀ parent,
    ((tree.package parent).children.values.filterMap fun id => (tree.package id).obfuscation).Nodup
  methods : ∀ owner, ((tree.javaClass owner).methods.values.filterMap fun id =>
    (tree.method id).obfuscation.map fun text => (text, (tree.method id).arguments)).Nodup
  rootNames : ∀ entry ∈ tree.roots, (tree.package entry.2).name = entry.1
  childNames : ∀ parent, ∀ entry ∈ (tree.package parent).children, (tree.package entry.2).name = entry.1
  classNames : ∀ owner, ∀ entry ∈ tree.classesOf owner, (tree.javaClass entry.2).name = entry.1
  methodKeys : ∀ owner, ∀ entry ∈ (tree.javaClass owner).methods,
    ((tree.method entry.2).name, (tree.method entry.2).arguments) = entry.1

theorem nodup_filterMap_of_apart {α β : Type} {nodes : List α} {mark : α → Option β} (distinct : nodes.Nodup)
    (apart : ∀ first ∈ nodes, ∀ second ∈ nodes, ∀ text, mark first = some text → mark second = some text →
      first = second) : (nodes.filterMap mark).Nodup := by
  refine List.pairwise_filterMap.mpr (distinct.imp_of_mem ?_)
  intro first second firstIn secondIn other text marksFirst text' marksSecond same
  subst same
  exact other (apart first firstIn second secondIn text marksFirst marksSecond)

section
variable {tree : NameTree}

theorem Entered.nodup_children (entered : tree.Entered) (parent : PackageId) :
    (tree.package parent).children.values.Nodup :=
  OrderedTable.nodup_values (entered.childKeys parent) (fun id => (tree.package id).name)
    fun entry => (entered.child entry).2.1

theorem Entered.nodup_methods (entered : tree.Entered) (owner : ClassId) :
    (tree.javaClass owner).methods.values.Nodup :=
  OrderedTable.nodup_values (entered.methodKeys owner)
    (fun id => ((tree.method id).name, (tree.method id).arguments)) fun entry => (entered.method entry).2.1

theorem keyed_of_formed (formed : tree.Formed) : tree.Keyed where
  packages parent := by
    refine nodup_filterMap_of_apart (formed.entered.nodup_children parent) ?_
    intro first firstIn second secondIn text firstText secondText
    exact formed.apart.packages firstIn secondIn firstText secondText
  methods owner := by
    refine nodup_filterMap_of_apart (formed.entered.nodup_methods owner) ?_
    intro first firstIn second secondIn mark firstMark secondMark
    obtain ⟨text, firstText, rfl⟩ := Option.map_eq_some_iff.mp firstMark
    -- Two methods with one mark agree in the arguments as well, which is where they are kept apart.
    obtain ⟨text', secondText, same⟩ := Option.map_eq_some_iff.mp secondMark
    obtain ⟨rfl, argued⟩ := Prod.mk.injEq .. ▸ same
    exact formed.apart.methods firstIn secondIn firstText secondText argued.symm
  rootNames entry member := (formed.entered.root member).2.1
  childNames _ entry member := (formed.entered.child member).2.1
  classNames _ entry member := (formed.entered.javaClass member).2.1
  methodKeys _ entry member := (formed.entered.method member).2.1

/-- Obfuscations stay apart and entries keep their keys in every run of operations. -/
theorem Reachable.keyed (reachable : Reachable tree) : tree.Keyed := keyed_of_formed reachable.formed

/-- A package takes the place of one that carries an obfuscation, and takes the obfuscation as well. -/
theorem keyed_of_replacement :
    let made := Operation.after .empty (.request (.aliasScope "com.foo" "a"))
    let replaced := Operation.after made (.makePackage ⟨0⟩ "foo")
    let renamed := Operation.after replaced (.obfuscateScope (.package ⟨2⟩) (some "a"))
    (renamed.package ⟨1⟩).obfuscation = some "a" ∧ (renamed.package ⟨2⟩).obfuscation = some "a" ∧
      renamed.Keyed := by
  intro made replaced renamed
  have madeReachable : Reachable made := .after .empty trivial
  have replacedReachable : Reachable replaced := .after madeReachable (show 0 < made.packages.size by decide +kernel)
  have renamedReachable : Reachable renamed :=
    .after replacedReachable (show 2 < replaced.packages.size by decide +kernel)
  exact ⟨by decide +kernel, by decide +kernel, renamedReachable.keyed⟩

end

end NameTree

end ClearNames
