import ClearNames.Proofs.NameTree.Formed

/-! What stays and what is new when a node is added to a tree.

Every node keeps what is fixed of it and its obfuscation, and each table has at
most one new entry. A tree that extends another in this way has the same
invariants.
-/

set_option autoImplicit false

namespace ClearNames

namespace NameTree

variable {tree : NameTree}

/-! ## Sizes and fixed parts -/

theorem hasPackage_add {id : PackageId} (addition : Addition) (known : tree.HasPackage id) :
    (tree.add addition).HasPackage id := by
  cases addition with
  | root name => simpa [HasPackage, add, addRoot, addDetachedPackage] using Nat.lt_succ_of_lt known
  | package parent name => simpa [HasPackage, add, addPackage, updatePackage] using Nat.lt_succ_of_lt known
  | javaClass owner name =>
    cases owner <;> simpa [HasPackage, add, addClass, enterClass, updatePackage, updateClass] using known
  | method owner name returns arguments => exact known

theorem hasClass_add {id : ClassId} (addition : Addition) (known : tree.HasClass id) :
    (tree.add addition).HasClass id := by
  cases addition with
  | root name => exact known
  | package parent name => exact known
  | javaClass owner name =>
    cases owner <;>
      simpa [HasClass, add, addClass, enterClass, updatePackage, updateClass] using Nat.lt_succ_of_lt known
  | method owner name returns arguments => simpa [HasClass, add, addMethod, updateClass] using known

theorem hasMethod_add {id : MethodId} (addition : Addition) (known : tree.HasMethod id) :
    (tree.add addition).HasMethod id := by
  cases addition with
  | root name => exact known
  | package parent name => exact known
  | javaClass owner name => cases owner <;> exact known
  | method owner name returns arguments =>
    simpa [HasMethod, add, addMethod, updateClass] using Nat.lt_succ_of_lt known

theorem keeps_add {addition : Addition} (grounded : tree.Grounded addition) : tree.Keeps (tree.add addition) where
  hasPackage := hasPackage_add addition
  hasClass := hasClass_add addition
  hasMethod := hasMethod_add addition
  package {id} known := by
    have old : id.index ≠ tree.packages.size := Nat.ne_of_lt known
    cases addition with
    | root name => simp only [add, package_addRoot, old, if_false]
    | package parent name =>
      simp only [add, package_addPackage grounded, old, if_false]
      split
      · next same => rw [same]; rfl
      · rfl
    | javaClass owner name =>
      simp only [add, package_addClass grounded]
      split <;> rfl
    | method owner name returns arguments => rfl
  javaClass {id} known := by
    have old : id.index ≠ tree.classes.size := Nat.ne_of_lt known
    cases addition with
    | root name => rfl
    | package parent name => rfl
    | javaClass owner name =>
      simp only [add, javaClass_addClass grounded, old, if_false]
      split <;> rfl
    | method owner name returns arguments =>
      simp only [add, javaClass_addMethod grounded.1]
      split
      · next same => rw [same]; rfl
      · rfl
  method {id} known := by
    have old : id.index ≠ tree.methods.size := Nat.ne_of_lt known
    cases addition with
    | root name => rfl
    | package parent name => rfl
    | javaClass owner name => cases owner <;> rfl
    | method owner name returns arguments => simp only [add, method_addMethod, old, if_false]

/-! ## Obfuscations are not touched by additions -/

theorem package_obfuscation_add {addition : Addition} (grounded : tree.Grounded addition) (id : PackageId) :
    ((tree.add addition).package id).obfuscation = (tree.package id).obfuscation := by
  have fresh : id.index = tree.packages.size → (tree.package id).obfuscation = none := by
    intro last
    rw [package_of_eq_size last]
    rfl
  cases addition with
  | root name =>
    simp only [add, package_addRoot]
    split
    · next last => rw [fresh last]
    · rfl
  | package parent name =>
    simp only [add, package_addPackage grounded]
    split
    · next same => rw [same]
    · split
      · next last => rw [fresh last]
      · rfl
  | javaClass owner name =>
    simp only [add, package_addClass grounded]
    split <;> rfl
  | method owner name returns arguments => rfl

theorem javaClass_obfuscation_add {addition : Addition} (grounded : tree.Grounded addition) (id : ClassId) :
    ((tree.add addition).javaClass id).obfuscation = (tree.javaClass id).obfuscation := by
  cases addition with
  | root name => rfl
  | package parent name => rfl
  | javaClass owner name =>
    simp only [add, javaClass_addClass grounded]
    split
    · next last =>
      rw [javaClass_of_eq_size last, freshClass_obfuscation]
      rfl
    · split <;> rfl
  | method owner name returns arguments =>
    simp only [add, javaClass_addMethod grounded.1]
    split
    · next same => rw [same]
    · rfl

theorem method_obfuscation_add (addition : Addition) (id : MethodId) :
    ((tree.add addition).method id).obfuscation = (tree.method id).obfuscation := by
  cases addition with
  | root name => rfl
  | package parent name => rfl
  | javaClass owner name => cases owner <;> rfl
  | method owner name returns arguments =>
    simp only [add, method_addMethod]
    split
    · next last =>
      rw [method_of_not_has (Nat.not_lt.mpr (Nat.le_of_eq last.symm))]
      rfl
    · rfl

/-! ## Tables -/

/-- A table as it was, or with a value that is placed under its key put into it. -/
inductive Enters {κ ν : Type} [DecidableEq κ] (placed : κ → ν → Prop) (table : OrderedTable κ ν) :
    OrderedTable κ ν → Prop where
  | same : Enters placed table table
  | put {key : κ} {value : ν} (suits : placed key value) : Enters placed table (table.put key value)

section
variable {κ ν : Type} [DecidableEq κ] {placed : κ → ν → Prop} {table later : OrderedTable κ ν}

theorem Enters.mem (enters : Enters placed table later) {key : κ} {value : ν} (entry : (key, value) ∈ later) :
    (key, value) ∈ table ∨ placed key value := by
  cases enters with
  | same => exact Or.inl entry
  | put suits =>
    rcases OrderedTable.mem_of_mem_put entry with ⟨rfl, rfl⟩ | old
    · exact Or.inr suits
    · exact Or.inl old

theorem Enters.mem_values (enters : Enters placed table later) {value : ν} (member : value ∈ later.values) :
    value ∈ table.values ∨ ∃ key, placed key value := by
  obtain ⟨key, entry⟩ := OrderedTable.mem_values.mp member
  exact (enters.mem entry).imp (fun old => OrderedTable.mem_values.mpr ⟨key, old⟩) fun suits => ⟨key, suits⟩

theorem Enters.imp {loose : κ → ν → Prop} (enters : Enters placed table later)
    (implies : ∀ {key value}, placed key value → loose key value) : Enters loose table later := by
  cases enters with
  | same => exact .same
  | put suits => exact .put (implies suits)

theorem Enters.nodup_keys (enters : Enters placed table later) (distinct : (OrderedTable.keys table).Nodup) :
    (OrderedTable.keys later).Nodup := by
  cases enters with
  | same => exact distinct
  | put suits => exact OrderedTable.nodup_keys_put distinct _ _

end

/-! ## Where a new node stands -/

section
variable {addition : Addition}

theorem new_package {id : PackageId} (known : (tree.add addition).HasPackage id) (new : ¬ tree.HasPackage id) :
    id = ⟨tree.packages.size⟩ ∧
      ((∃ name, addition = .root name) ∨ ∃ parent name, addition = .package parent name) := by
  have fresh : tree.packages.size ≤ id.index := Nat.le_of_not_lt new
  cases addition with
  | root name =>
    simp only [HasPackage, add, addRoot, addDetachedPackage, Array.size_push] at known
    exact ⟨PackageId.ext (Nat.le_antisymm (Nat.le_of_lt_succ known) fresh), Or.inl ⟨name, rfl⟩⟩
  | package parent name =>
    simp only [HasPackage, add, addPackage, updatePackage, Array.size_modify, Array.size_push] at known
    exact ⟨PackageId.ext (Nat.le_antisymm (Nat.le_of_lt_succ known) fresh), Or.inr ⟨parent, name, rfl⟩⟩
  | javaClass owner name =>
    refine absurd ?_ new
    cases owner <;> simpa [HasPackage, add, addClass, enterClass, updatePackage, updateClass] using known
  | method owner name returns arguments => exact absurd known new

theorem new_class {id : ClassId} (known : (tree.add addition).HasClass id) (new : ¬ tree.HasClass id) :
    id = ⟨tree.classes.size⟩ ∧ ∃ owner name, addition = .javaClass owner name := by
  have fresh : tree.classes.size ≤ id.index := Nat.le_of_not_lt new
  cases addition with
  | root name => exact absurd known new
  | package parent name => exact absurd known new
  | javaClass owner name =>
    have last : id.index < tree.classes.size + 1 := by
      cases owner <;> simpa [HasClass, add, addClass, enterClass, updatePackage, updateClass] using known
    exact ⟨ClassId.ext (Nat.le_antisymm (Nat.le_of_lt_succ last) fresh), owner, name, rfl⟩
  | method owner name returns arguments =>
    refine absurd ?_ new
    simpa [HasClass, add, addMethod, updateClass] using known

theorem new_method {id : MethodId} (known : (tree.add addition).HasMethod id) (new : ¬ tree.HasMethod id) :
    id = ⟨tree.methods.size⟩ ∧ ∃ owner name returns arguments, addition = .method owner name returns arguments := by
  have fresh : tree.methods.size ≤ id.index := Nat.le_of_not_lt new
  cases addition with
  | root name => exact absurd known new
  | package parent name => exact absurd known new
  | javaClass owner name =>
    refine absurd ?_ new
    cases owner <;> exact known
  | method owner name returns arguments =>
    simp only [HasMethod, add, addMethod, updateClass, Array.size_push] at known
    exact ⟨MethodId.ext (Nat.le_antisymm (Nat.le_of_lt_succ known) fresh), owner, name, returns, arguments, rfl⟩

theorem hasScope_of_addMethod {owner : ClassId} {name : String} {returns : TypeUse} {arguments : List TypeUse}
    {scope : Scope} (known : (tree.add (.method owner name returns arguments)).HasScope scope) :
    tree.HasScope scope := by
  cases scope with
  | package id => exact known
  | javaClass id =>
    refine Classical.byContradiction fun new => ?_
    obtain ⟨-, _, _, ⟨⟩⟩ := new_class known new

end

theorem rootAt_addRoot (name : String) : (tree.addRoot name).2.RootAt name ⟨tree.packages.size⟩ := by
  refine ⟨?_, ?_, ?_⟩
  · simp [HasPackage, addRoot, addDetachedPackage]
  · simp [package_addRoot]
  · simp [package_addRoot]

theorem childAt_addPackage {parent : PackageId} (known : tree.HasPackage parent) (name : String) :
    (tree.addPackage parent name).2.ChildAt parent name ⟨tree.packages.size⟩ := by
  have apart : (⟨tree.packages.size⟩ : PackageId) ≠ parent := by
    rintro rfl
    exact Nat.lt_irrefl _ known
  refine ⟨?_, ?_, ?_⟩
  · simp [HasPackage, addPackage, updatePackage]
  · simp [package_addPackage known, apart]
  · simp [package_addPackage known, apart]

theorem classAt_addClass {owner : Scope} (known : tree.HasScope owner) (name : String) :
    (tree.addClass owner name).2.ClassAt owner name ⟨tree.classes.size⟩ := by
  refine ⟨?_, ?_, ?_⟩
  · cases owner <;> simp [HasClass, addClass, enterClass, updatePackage, updateClass]
  · simp [javaClass_addClass known]
  · simp [javaClass_addClass known]

theorem methodAt_addMethod (owner : ClassId) (name : String) (returns : TypeUse) (arguments : List TypeUse) :
    (tree.addMethod owner name returns arguments).2.MethodAt owner (name, arguments) ⟨tree.methods.size⟩ := by
  refine ⟨?_, ?_, ?_⟩
  · simp [HasMethod, addMethod, updateClass]
  · simp [method_addMethod]
  · simp [method_addMethod]

section
variable {addition : Addition}

theorem roots_add (addition : Addition) :
    Enters (fun name id => ((tree.add addition).RootAt name id ∧ ¬ tree.HasPackage id) ∧
      (tree.Vacant addition → tree.roots.find? name = none)) tree.roots (tree.add addition).roots := by
  cases addition with
  | root name => exact .put ⟨⟨rootAt_addRoot name, Nat.lt_irrefl _⟩, id⟩
  | package parent name => exact .same
  | javaClass owner name => cases owner <;> exact .same
  | method owner name returns arguments => exact .same

theorem children_add (grounded : tree.Grounded addition) (parent : PackageId) :
    Enters (fun name id => ((tree.add addition).ChildAt parent name id ∧ ¬ tree.HasPackage id) ∧
      (tree.Vacant addition → (tree.package parent).children.find? name = none))
      (tree.package parent).children ((tree.add addition).package parent).children := by
  cases addition with
  | root name =>
    -- The identifier of the new root stood for no node before, and such a one owns nothing.
    simp only [add, package_addRoot]
    split
    · next last =>
      rw [package_of_eq_size last]
      exact .same
    · exact .same
  | package owner name =>
    by_cases same : parent = owner
    · subst same
      simp only [add, package_addPackage grounded, if_true]
      exact .put ⟨⟨childAt_addPackage grounded name, Nat.lt_irrefl _⟩, id⟩
    · simp only [add, package_addPackage grounded, same, if_false]
      split
      · next last =>
        rw [package_of_eq_size last]
        exact .same
      · exact .same
  | javaClass owner name =>
    simp only [add, package_addClass grounded]
    split <;> exact .same
  | method owner name returns arguments => exact .same

theorem classesOf_add (grounded : tree.Grounded addition) (owner : Scope) :
    Enters (fun name id => ((tree.add addition).ClassAt owner name id ∧ ¬ tree.HasClass id) ∧
      (tree.Vacant addition → (tree.classesOf owner).find? name = none))
      (tree.classesOf owner) ((tree.add addition).classesOf owner) := by
  cases addition with
  | root name =>
    cases owner with
    | package id =>
      simp only [classesOf, add, package_addRoot]
      split
      · next last =>
        rw [package_of_eq_size last]
        exact .same
      · exact .same
    | javaClass id => exact .same
  | package parent name =>
    cases owner with
    | package id =>
      simp only [classesOf, add, package_addPackage grounded]
      split
      · next same => rw [same]; exact .same
      · split
        · next last =>
          rw [package_of_eq_size last]
          exact .same
        · exact .same
    | javaClass id => exact .same
  | javaClass place name =>
    have fresh := classAt_addClass (show tree.HasScope place from grounded) name
    cases owner with
    | package id =>
      simp only [classesOf, add, package_addClass grounded]
      split
      · next same => exact .put ⟨⟨same ▸ fresh, Nat.lt_irrefl _⟩, fun vacant => by rw [same] at vacant; exact vacant⟩
      · exact .same
    | javaClass id =>
      simp only [classesOf, add, javaClass_addClass grounded]
      split
      · next last =>
        rw [javaClass_of_eq_size last, freshClass_classes]
        exact .same
      · split
        · next same => exact .put ⟨⟨same ▸ fresh, Nat.lt_irrefl _⟩, fun vacant => by rw [same] at vacant; exact vacant⟩
        · exact .same
  | method place name returns arguments =>
    cases owner with
    | package id => exact .same
    | javaClass id =>
      simp only [classesOf, add, javaClass_addMethod grounded.1]
      split
      · next same => rw [same]; exact .same
      · exact .same

theorem methods_add (grounded : tree.Grounded addition) (owner : ClassId) :
    Enters (fun key id => ((tree.add addition).MethodAt owner key id ∧ ¬ tree.HasMethod id) ∧
      (tree.Vacant addition → (tree.javaClass owner).methods.find? key = none))
      (tree.javaClass owner).methods ((tree.add addition).javaClass owner).methods := by
  cases addition with
  | root name => exact .same
  | package parent name => exact .same
  | javaClass place name =>
    simp only [add, javaClass_addClass grounded]
    split
    · next last =>
      rw [javaClass_of_eq_size last, freshClass_methods]
      exact .same
    · split <;> exact .same
  | method place name returns arguments =>
    simp only [add, javaClass_addMethod grounded.1]
    split
    · next same =>
      subst same
      exact .put ⟨⟨methodAt_addMethod owner name returns arguments, Nat.lt_irrefl _⟩, id⟩
    · exact .same

end

/-! ## What an edit leaves -/

/-- All nodes stay, each table has at most one entry more, of a new node, and new nodes are founded. -/
structure Extends (tree later : NameTree) : Prop where
  keeps : tree.Keeps later
  roots : Enters (fun name id => later.RootAt name id ∧ ¬ tree.HasPackage id) tree.roots later.roots
  children : ∀ parent, Enters (fun name id => later.ChildAt parent name id ∧ ¬ tree.HasPackage id)
    (tree.package parent).children (later.package parent).children
  classesOf : ∀ owner, Enters (fun name id => later.ClassAt owner name id ∧ ¬ tree.HasClass id)
    (tree.classesOf owner) (later.classesOf owner)
  methods : ∀ owner, Enters (fun key id => later.MethodAt owner key id ∧ ¬ tree.HasMethod id)
    (tree.javaClass owner).methods (later.javaClass owner).methods
  package : ∀ {id}, later.HasPackage id → ¬ tree.HasPackage id → later.PackageFounded id
  javaClass : ∀ {id}, later.HasClass id → ¬ tree.HasClass id → later.ClassFounded id
  method : ∀ {id}, later.HasMethod id → ¬ tree.HasMethod id → later.MethodFounded id

theorem Entered.extends {later : NameTree} (entered : tree.Entered) (extension : tree.Extends later) :
    later.Entered where
  root entry := (extension.roots.mem entry).elim (fun old => extension.keeps.rootAt (entered.root old)) (·.1)
  child entry :=
    ((extension.children _).mem entry).elim (fun old => extension.keeps.childAt (entered.child old)) (·.1)
  javaClass entry :=
    ((extension.classesOf _).mem entry).elim (fun old => extension.keeps.classAt (entered.javaClass old)) (·.1)
  method entry :=
    ((extension.methods _).mem entry).elim (fun old => extension.keeps.methodAt (entered.method old)) (·.1)
  rootKeys := extension.roots.nodup_keys entered.rootKeys
  childKeys parent := (extension.children parent).nodup_keys (entered.childKeys parent)
  classKeys owner := (extension.classesOf owner).nodup_keys (entered.classKeys owner)
  methodKeys owner := (extension.methods owner).nodup_keys (entered.methodKeys owner)

theorem Founded.extends {later : NameTree} (founded : tree.Founded) (extension : tree.Extends later) :
    later.Founded where
  package {id} known := by
    by_cases old : tree.HasPackage id
    · exact extension.keeps.packageFounded old (founded.package old)
    · exact extension.package known old
  javaClass {id} known := by
    by_cases old : tree.HasClass id
    · exact extension.keeps.classFounded old (founded.javaClass old)
    · exact extension.javaClass known old
  method {id} known := by
    by_cases old : tree.HasMethod id
    · exact extension.keeps.methodFounded old (founded.method old)
    · exact extension.method known old

section
variable {addition : Addition}

theorem packageFounded_add (grounded : tree.Grounded addition) {id : PackageId}
    (known : (tree.add addition).HasPackage id) (new : ¬ tree.HasPackage id) :
    (tree.add addition).PackageFounded id := by
  obtain ⟨rfl, ⟨name, rfl⟩ | ⟨parent, name, rfl⟩⟩ := new_package known new
  · simp [PackageFounded, add, package_addRoot]
  · have other : (⟨tree.packages.size⟩ : PackageId) ≠ parent := by
      rintro rfl
      exact Nat.lt_irrefl _ grounded
    have node : (tree.add (.package parent name)).package ⟨tree.packages.size⟩ =
        ⟨name, tree.packageSegments parent, some parent, none, [], []⟩ := by
      simp only [add, package_addPackage grounded, other, if_false, if_true]
    simp only [PackageFounded, node]
    exact ⟨grounded, ((keeps_add grounded).packageSegments grounded).symm⟩

theorem classFounded_add (grounded : tree.Grounded addition) {id : ClassId}
    (known : (tree.add addition).HasClass id) (new : ¬ tree.HasClass id) : (tree.add addition).ClassFounded id := by
  have keeps := keeps_add grounded
  obtain ⟨rfl, owner, name, rfl⟩ := new_class known new
  have placed : tree.HasScope owner := grounded
  have node : (tree.add (.javaClass owner name)).javaClass ⟨tree.classes.size⟩ = tree.freshClass owner name := by
    simp only [add, javaClass_addClass placed, if_true]
  simp only [ClassFounded, node, freshClass_owner]
  cases owner with
  | package parent => exact ⟨keeps.hasPackage placed, rfl, rfl⟩
  | javaClass outer =>
    refine ⟨placed, (keeps.javaClass_package placed).symm, ?_⟩
    rw [keeps.javaClass_outer placed, keeps.javaClass_name placed]
    rfl

theorem methodFounded_add (grounded : tree.Grounded addition) {id : MethodId}
    (known : (tree.add addition).HasMethod id) (new : ¬ tree.HasMethod id) :
    (tree.add addition).MethodFounded id := by
  have keeps := keeps_add grounded
  obtain ⟨rfl, owner, name, returns, arguments, rfl⟩ := new_method known new
  obtain ⟨placed, returned, argued⟩ := grounded
  have node : (tree.add (.method owner name returns arguments)).method ⟨tree.methods.size⟩ =
      ⟨name, owner, returns, arguments, none⟩ := by simp only [add, method_addMethod, if_true]
  simp only [MethodFounded, node]
  exact ⟨keeps.hasClass placed, keeps.hasType returned, fun type member => keeps.hasType (argued type member)⟩

theorem extends_add (grounded : tree.Grounded addition) : tree.Extends (tree.add addition) where
  keeps := keeps_add grounded
  roots := (roots_add addition).imp (·.1)
  children parent := (children_add grounded parent).imp (·.1)
  classesOf owner := (classesOf_add grounded owner).imp (·.1)
  methods owner := (methods_add grounded owner).imp (·.1)
  package := packageFounded_add grounded
  javaClass := classFounded_add grounded
  method := methodFounded_add grounded

end

end NameTree

end ClearNames
