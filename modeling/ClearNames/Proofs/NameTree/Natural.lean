import ClearNames.Proofs.NameTree.Altering

/-! Trees that operations by name lead to.

As no entry is ever replaced, each table holds its nodes in the order in which
they were made, and each node stays where it was entered. The casing of a name
tells a package inside a package from a class, so that no two nodes of one
scope have the same name.
-/

set_option autoImplicit false

namespace ClearNames

namespace NameTree

/-! ## Places and order -/

/-- A package stands among the roots or in its parent, and its name is a segment of that kind. -/
def PackagePlaced (tree : NameTree) (id : PackageId) : Prop :=
  '.' ∉ (tree.package id).name.toList ∧
    match (tree.package id).parent with
    | none => ((tree.package id).name, id) ∈ tree.roots
    | some parent =>
      SegmentKind.of (tree.package id).name = .package ∧
        ((tree.package id).name, id) ∈ (tree.package parent).children

def ClassPlaced (tree : NameTree) (id : ClassId) : Prop :=
  '.' ∉ (tree.javaClass id).name.toList ∧ SegmentKind.of (tree.javaClass id).name = .javaClass ∧
    ((tree.javaClass id).name, id) ∈ tree.classesOf (tree.javaClass id).owner

def MethodPlaced (tree : NameTree) (id : MethodId) : Prop :=
  (((tree.method id).name, (tree.method id).arguments), id) ∈ (tree.javaClass (tree.method id).owner).methods

/-- Every table holds its nodes in the order in which they were made. -/
structure Ordered (tree : NameTree) : Prop where
  roots : tree.roots.values.Pairwise fun first second => first.index < second.index
  children : ∀ parent, (tree.package parent).children.values.Pairwise fun first second => first.index < second.index
  classesOf : ∀ owner, (tree.classesOf owner).values.Pairwise fun first second => first.index < second.index
  methods : ∀ owner, (tree.javaClass owner).methods.values.Pairwise fun first second => first.index < second.index

/-- The invariants that operations by name keep. -/
structure Natural (tree : NameTree) : Prop where
  formed : tree.Formed
  ordered : tree.Ordered
  package : ∀ {id}, tree.HasPackage id → tree.PackagePlaced id
  javaClass : ∀ {id}, tree.HasClass id → tree.ClassPlaced id
  method : ∀ {id}, tree.HasMethod id → tree.MethodPlaced id

/-! ## One alteration -/

/-- A table as it was, or with a new entry at its end, of a node that is new. -/
inductive Appends {κ ν : Type} (fresh : ν → Prop) (table : OrderedTable κ ν) : OrderedTable κ ν → Prop where
  | same : Appends fresh table table
  | last {key : κ} {value : ν} (new : fresh value) : Appends fresh table (table ++ [(key, value)])

section
variable {κ ν : Type} {fresh : ν → Prop} {table later : OrderedTable κ ν}

theorem Appends.of_enters [DecidableEq κ] {placed : κ → ν → Prop}
    (enters : Enters (fun key value => placed key value ∧ table.find? key = none) table later)
    (new : ∀ {key value}, placed key value → fresh value) : Appends fresh table later := by
  cases enters with
  | same => exact .same
  | put suits =>
    rw [OrderedTable.put_of_find?_eq_none suits.2]
    exact .last (new suits.1)

theorem Appends.mem (appends : Appends fresh table later) {entry : κ × ν} (member : entry ∈ table) :
    entry ∈ later := by
  cases appends with
  | same => exact member
  | last _ => exact List.mem_append_left _ member

theorem Appends.pairwise (appends : Appends fresh table later) {before : ν → ν → Prop}
    (sorted : table.values.Pairwise before) (after : ∀ {old new}, old ∈ table.values → fresh new → before old new) :
    later.values.Pairwise before := by
  cases appends with
  | same => exact sorted
  | last new =>
    simp only [OrderedTable.values, List.map_append, List.map_cons, List.map_nil]
    refine List.pairwise_append.mpr ⟨sorted, List.pairwise_singleton _ _, ?_⟩
    intro old member last single
    rw [List.mem_singleton.mp single]
    exact after member new

end

/-- All nodes stay, and a table has at most one more entry, at its end, of a new node. -/
structure Lengthens (tree later : NameTree) : Prop where
  keeps : tree.Keeps later
  roots : Appends (fun id => ¬ tree.HasPackage id) tree.roots later.roots
  children : ∀ parent,
    Appends (fun id => ¬ tree.HasPackage id) (tree.package parent).children (later.package parent).children
  classesOf : ∀ owner, Appends (fun id => ¬ tree.HasClass id) (tree.classesOf owner) (later.classesOf owner)
  methods : ∀ owner,
    Appends (fun id => ¬ tree.HasMethod id) (tree.javaClass owner).methods (later.javaClass owner).methods

section
variable {tree later : NameTree}

theorem Alike.lengthens (alike : tree.Alike later) : tree.Lengthens later where
  keeps := alike.keeps
  roots := alike.roots ▸ .same
  children parent := alike.children parent ▸ .same
  classesOf owner := alike.classesOf owner ▸ .same
  methods owner := alike.methods owner ▸ .same

theorem lengthens_add {addition : Addition} (grounded : tree.Grounded addition) (vacant : tree.Vacant addition) :
    tree.Lengthens (tree.add addition) where
  keeps := keeps_add grounded
  roots := .of_enters ((roots_add addition).imp fun suits => ⟨suits.1, suits.2 vacant⟩) (·.2)
  children parent := .of_enters ((children_add grounded parent).imp fun suits => ⟨suits.1, suits.2 vacant⟩) (·.2)
  classesOf owner := .of_enters ((classesOf_add grounded owner).imp fun suits => ⟨suits.1, suits.2 vacant⟩) (·.2)
  methods owner := .of_enters ((methods_add grounded owner).imp fun suits => ⟨suits.1, suits.2 vacant⟩) (·.2)

theorem Lengthens.packagePlaced (lengthens : tree.Lengthens later) {id : PackageId} (known : tree.HasPackage id)
    (placed : tree.PackagePlaced id) : later.PackagePlaced id := by
  unfold PackagePlaced at placed ⊢
  rw [lengthens.keeps.package_name known, lengthens.keeps.package_parent known]
  refine ⟨placed.1, ?_⟩
  cases owned : (tree.package id).parent with
  | none =>
    rw [owned] at placed
    exact lengthens.roots.mem placed.2
  | some parent =>
    rw [owned] at placed
    exact ⟨placed.2.1, (lengthens.children parent).mem placed.2.2⟩

theorem Lengthens.classPlaced (lengthens : tree.Lengthens later) {id : ClassId} (known : tree.HasClass id)
    (placed : tree.ClassPlaced id) : later.ClassPlaced id := by
  unfold ClassPlaced at placed ⊢
  rw [lengthens.keeps.javaClass_name known, lengthens.keeps.javaClass_owner known]
  exact ⟨placed.1, placed.2.1, (lengthens.classesOf _).mem placed.2.2⟩

theorem Lengthens.methodPlaced (lengthens : tree.Lengthens later) {id : MethodId} (known : tree.HasMethod id)
    (placed : tree.MethodPlaced id) : later.MethodPlaced id := by
  unfold MethodPlaced at placed ⊢
  rw [lengthens.keeps.method_name known, lengthens.keeps.method_arguments known, lengthens.keeps.method_owner known]
  exact (lengthens.methods _).mem placed

theorem Ordered.lengthens (ordered : tree.Ordered) (entered : tree.Entered) (lengthens : tree.Lengthens later) :
    later.Ordered where
  roots := by
    -- A new node has a larger number than every node that is entered.
    refine lengthens.roots.pairwise ordered.roots fun {old new} member fresh => ?_
    obtain ⟨name, entry⟩ := OrderedTable.mem_values.mp member
    exact Nat.lt_of_lt_of_le (entered.root entry).1 (Nat.le_of_not_lt fresh)
  children parent := by
    refine (lengthens.children parent).pairwise (ordered.children parent) fun {old new} member fresh => ?_
    obtain ⟨name, entry⟩ := OrderedTable.mem_values.mp member
    exact Nat.lt_of_lt_of_le (entered.child entry).1 (Nat.le_of_not_lt fresh)
  classesOf owner := by
    refine (lengthens.classesOf owner).pairwise (ordered.classesOf owner) fun {old new} member fresh => ?_
    obtain ⟨name, entry⟩ := OrderedTable.mem_values.mp member
    exact Nat.lt_of_lt_of_le (entered.javaClass entry).1 (Nat.le_of_not_lt fresh)
  methods owner := by
    refine (lengthens.methods owner).pairwise (ordered.methods owner) fun {old new} member fresh => ?_
    obtain ⟨key, entry⟩ := OrderedTable.mem_values.mp member
    exact Nat.lt_of_lt_of_le (entered.method entry).1 (Nat.le_of_not_lt fresh)

end

/-! ## New nodes stand where they were made -/

section
variable {tree : NameTree} {fits : List String → Prop} {addition : Addition}

theorem packagePlaced_add (named : Named fits tree addition) {id : PackageId}
    (known : (tree.add addition).HasPackage id) (new : ¬ tree.HasPackage id) :
    (tree.add addition).PackagePlaced id := by
  obtain ⟨rfl, ⟨name, rfl⟩ | ⟨parent, name, rfl⟩⟩ := new_package known new
  · have placed : (tree.add (.root name)).RootAt name ⟨tree.packages.size⟩ := rootAt_addRoot name
    simp only [PackagePlaced, placed.2.1, placed.2.2]
    cases named with
    | root plain => exact ⟨plain, OrderedTable.mem_put _ _ _⟩
  · cases named with
    | package above plain kind =>
      have placed : (tree.add (.package parent name)).ChildAt parent name ⟨tree.packages.size⟩ :=
        childAt_addPackage above name
      simp only [PackagePlaced, placed.2.1, placed.2.2]
      refine ⟨plain, kind, ?_⟩
      simp only [NameTree.add, package_addPackage above, if_true]
      exact OrderedTable.mem_put _ _ _

theorem classesOf_addClass {owner : Scope} (known : tree.HasScope owner) (name : String) :
    (tree.addClass owner name).2.classesOf owner = (tree.classesOf owner).put name ⟨tree.classes.size⟩ := by
  cases owner with
  | package parent => simp only [classesOf, package_addClass known, if_true]
  | javaClass outer =>
    have old : outer.index ≠ tree.classes.size := Nat.ne_of_lt known
    simp only [classesOf, javaClass_addClass known, old, if_false, if_true]

theorem classPlaced_add (named : Named fits tree addition) {id : ClassId}
    (known : (tree.add addition).HasClass id) (new : ¬ tree.HasClass id) :
    (tree.add addition).ClassPlaced id := by
  obtain ⟨rfl, owner, name, rfl⟩ := new_class known new
  cases named with
  | javaClass above plain kind =>
    have placed : (tree.add (.javaClass owner name)).ClassAt owner name ⟨tree.classes.size⟩ :=
      classAt_addClass above name
    simp only [ClassPlaced, placed.2.1, placed.2.2]
    refine ⟨plain, kind, ?_⟩
    simp only [NameTree.add, classesOf_addClass above]
    exact OrderedTable.mem_put _ _ _

theorem Named.fits_new (formed : tree.Formed) (named : Named fits tree addition) {scope : Scope}
    (known : (tree.add addition).HasScope scope) (new : ¬ tree.HasScope scope) :
    fits ((tree.add addition).scopeSegments scope) := by
  have founded := (formed.edit (.add named.grounded)).founded
  have keeps := keeps_add named.grounded
  cases scope with
  | package id =>
    obtain ⟨rfl, ⟨name, rfl⟩ | ⟨parent, name, rfl⟩⟩ := new_package known new
    · have placed : (tree.add (.root name)).RootAt name ⟨tree.packages.size⟩ := rootAt_addRoot name
      have path := founded.packageSegments_rootAt placed
      cases named with
      | root _ _ fit =>
        rw [scopeSegments, path]
        exact fit
    · cases named with
      | package above _ _ _ fit =>
        have path := founded.scopeSegments_insideAt (childAt_addPackage above name).insideAt
        rw [keeps.scopeSegments formed.founded (show tree.HasScope (.package parent) from above)] at path
        rw [path]
        exact fit
  | javaClass id =>
    obtain ⟨rfl, owner, name, rfl⟩ := new_class known new
    cases named with
    | javaClass above _ _ _ fit =>
      have path := founded.scopeSegments_insideAt (classAt_addClass above name).insideAt
      rw [keeps.scopeSegments formed.founded above] at path
      rw [path]
      exact fit

end

section
variable {tree later : NameTree} {fits : List String → Prop}

theorem Grown.fits_all (grown : Grown fits tree later) (formed : tree.Formed)
    (fit : ∀ {scope}, tree.HasScope scope → fits (tree.scopeSegments scope)) {scope : Scope}
    (known : later.HasScope scope) : fits (later.scopeSegments scope) := by
  induction grown with
  | refl => exact fit known
  | @add between addition grown named ih =>
    by_cases old : between.HasScope scope
    · rw [(keeps_add named.grounded).scopeSegments (grown.formed formed).founded old]
      exact ih old
    · exact named.fits_new (grown.formed formed) known old

end

/-! ## Every alteration keeps a tree natural -/

section
variable {tree later : NameTree} {fits : List String → Prop}

theorem Natural.lengthens (natural : tree.Natural) (lengthens : tree.Lengthens later) (formed : later.Formed)
    (package : ∀ {id}, later.HasPackage id → ¬ tree.HasPackage id → later.PackagePlaced id)
    (javaClass : ∀ {id}, later.HasClass id → ¬ tree.HasClass id → later.ClassPlaced id)
    (method : ∀ {id}, later.HasMethod id → ¬ tree.HasMethod id → later.MethodPlaced id) : later.Natural where
  formed := formed
  ordered := natural.ordered.lengthens natural.formed.entered lengthens
  package {id} known := by
    by_cases old : tree.HasPackage id
    · exact lengthens.packagePlaced old (natural.package old)
    · exact package known old
  javaClass {id} known := by
    by_cases old : tree.HasClass id
    · exact lengthens.classPlaced old (natural.javaClass old)
    · exact javaClass known old
  method {id} known := by
    by_cases old : tree.HasMethod id
    · exact lengthens.methodPlaced old (natural.method old)
    · exact method known old

theorem Natural.named {addition : Addition} (natural : tree.Natural) (named : Named fits tree addition) :
    (tree.add addition).Natural := by
  refine natural.lengthens (lengthens_add named.grounded named.vacant) (natural.formed.edit (.add named.grounded))
    (packagePlaced_add named) (classPlaced_add named) fun known new => ?_
  obtain ⟨-, _, _, _, _, rfl⟩ := new_method known new
  cases named

theorem Natural.addMethod {owner : ClassId} {name : String} {returns : TypeUse} {arguments : List TypeUse}
    (natural : tree.Natural) (grounded : tree.Grounded (.method owner name returns arguments))
    (vacant : tree.Vacant (.method owner name returns arguments)) :
    (tree.add (.method owner name returns arguments)).Natural := by
  refine natural.lengthens (lengthens_add grounded vacant) (natural.formed.edit (.add grounded))
    (fun known new => absurd known new) (fun {id} known new => ?_) fun {id} known new => ?_
  · obtain ⟨-, _, _, ⟨⟩⟩ := new_class known new
  · obtain ⟨rfl, -⟩ := new_method known new
    have placed : (tree.add (.method owner name returns arguments)).MethodAt owner (name, arguments)
      ⟨tree.methods.size⟩ := methodAt_addMethod owner name returns arguments
    simp only [MethodPlaced, placed.2.1, placed.2.2]
    simp only [NameTree.add, javaClass_addMethod grounded.1, if_true]
    exact OrderedTable.mem_put _ _ _

theorem Natural.mark (natural : tree.Natural) (mark : Mark tree later) : later.Natural :=
  natural.lengthens mark.alike.lengthens (natural.formed.edit (.mark mark))
    (fun known new => absurd (mark.alike.hasPackage.mp known) new)
    (fun known new => absurd (mark.alike.hasClass.mp known) new)
    fun known new => absurd (mark.alike.hasMethod.mp known) new

theorem Natural.altered (natural : tree.Natural) (altered : Altered tree later) : later.Natural := by
  induction altered with
  | refl => exact natural
  | tail _ alteration ih =>
    cases alteration with
    | named named => exact ih.named named
    | method grounded vacant => exact ih.addMethod grounded vacant
    | mark mark => exact ih.mark mark

theorem Natural.grown (natural : tree.Natural) (grown : Grown fits tree later) : later.Natural :=
  natural.altered grown.altered

theorem natural_empty : empty.Natural where
  formed := formed_empty
  ordered := {
    roots := List.Pairwise.nil
    children := fun _ => List.Pairwise.nil
    classesOf := fun owner => by cases owner <;> exact List.Pairwise.nil
    methods := fun _ => List.Pairwise.nil }
  package known := absurd known (Nat.not_lt_zero _)
  javaClass known := absurd known (Nat.not_lt_zero _)
  method known := absurd known (Nat.not_lt_zero _)

end

end NameTree

end ClearNames
