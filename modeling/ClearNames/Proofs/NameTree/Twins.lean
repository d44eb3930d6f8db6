import ClearNames.Proofs.NameTree.Flattening
import ClearNames.Proofs.NameTree.FullNames

/-! Nodes of two trees that have the same document.

A node of one tree is the twin of a node of the other if both have the same full
name and are the same object in the documents. What twins own are twins again,
in the same order, so that a look-up that goes through them comes to twins.
-/

set_option autoImplicit false

namespace ClearNames

/-! ## Related options and lists -/

section
variable {α β γ δ : Type} {related : α → β → Prop} {goal : γ → δ → Prop}

theorem rel_imp {wider : α → β → Prop} {first : Option α} {second : Option β} (found : Option.Rel related first second)
    (implies : ∀ one other, related one other → wider one other) : Option.Rel wider first second := by
  cases found with
  | none => exact .none
  | some holds => exact .some (implies _ _ holds)

theorem rel_bind {first : Option α} {second : Option β} {next : α → Option γ} {nextThere : β → Option δ}
    (found : Option.Rel related first second)
    (rest : ∀ one other, related one other → Option.Rel goal (next one) (nextThere other)) :
    Option.Rel goal (first.bind next) (second.bind nextThere) := by
  cases found with
  | none => exact .none
  | some holds => exact rest _ _ holds

theorem rel_map {first : Option α} {second : Option β} {change : α → γ} {changeThere : β → δ}
    (found : Option.Rel related first second)
    (changed : ∀ one other, related one other → goal (change one) (changeThere other)) :
    Option.Rel goal (first.map change) (second.map changeThere) := by
  cases found with
  | none => exact .none
  | some holds => exact .some (changed _ _ holds)

theorem rel_or {first next : Option α} {second nextThere : Option β} (found : Option.Rel related first second)
    (rest : Option.Rel related next nextThere) : Option.Rel related (first.or next) (second.or nextThere) := by
  cases found with
  | none => exact rest
  | some holds => exact .some holds

variable {items : List α} {itemsThere : List β}

theorem rel_find? {kind : α → Bool} {kindThere : β → Bool} (all : List.Forall₂ related items itemsThere)
    (alike : ∀ one other, related one other → kind one = kindThere other) :
    Option.Rel related (items.find? kind) (itemsThere.find? kindThere) := by
  induction all with
  | nil => exact .none
  | @cons one other _ _ holds _ ih =>
    rw [List.find?_cons, List.find?_cons, alike one other holds]
    cases kindThere other with
    | true => exact .some holds
    | false => exact ih

theorem forall₂_of_map_eq {change : α → γ} {changeThere : β → γ} (same : items.map change = itemsThere.map changeThere) :
    List.Forall₂ (fun one other => one ∈ items ∧ other ∈ itemsThere ∧ change one = changeThere other)
      items itemsThere := by
  induction items generalizing itemsThere with
  | nil =>
    cases itemsThere with
    | nil => exact .nil
    | cons => cases same
  | cons first rest ih =>
    cases itemsThere with
    | nil => cases same
    | cons second more =>
      obtain ⟨head, tail⟩ := List.cons.inj same
      refine .cons ⟨List.mem_cons_self, List.mem_cons_self, head⟩ ((ih tail).imp fun one other holds => ?_)
      exact ⟨List.mem_cons_of_mem _ holds.1, List.mem_cons_of_mem _ holds.2.1, holds.2.2⟩

end

theorem Json.ofOption_injective : Function.Injective Json.ofOption := by
  rintro (_ | first) (_ | second) same <;> cases same <;> rfl

namespace NameTree

/-! ## Twins -/

structure PackageTwins (left right : NameTree) (id there : PackageId) : Prop where
  known : left.HasPackage id
  knownThere : right.HasPackage there
  segments : left.packageSegments id = right.packageSegments there
  object : left.packageObject id = right.packageObject there

structure ClassTwins (left right : NameTree) (id there : ClassId) : Prop where
  known : left.HasClass id
  knownThere : right.HasClass there
  segments : left.classSegments id = right.classSegments there
  object : left.classObject id = right.classObject there

inductive ScopeTwins (left right : NameTree) : Scope → Scope → Prop where
  | package {id there : PackageId} (twins : PackageTwins left right id there) :
      ScopeTwins left right (.package id) (.package there)
  | javaClass {id there : ClassId} (twins : ClassTwins left right id there) :
      ScopeTwins left right (.javaClass id) (.javaClass there)

section
variable {left right : NameTree}

theorem ScopeTwins.segments {scope there : Scope} (twins : ScopeTwins left right scope there) :
    left.scopeSegments scope = right.scopeSegments there := by
  cases twins with
  | package twins => exact twins.segments
  | javaClass twins => exact twins.segments

theorem Formed.segments_child (formed : left.Formed) {parent child : PackageId}
    (owned : child ∈ (left.package parent).children.values) :
    left.packageSegments child = left.packageSegments parent ++ [(left.package child).name] := by
  obtain ⟨name, entry⟩ := OrderedTable.mem_values.mp owned
  have placed := formed.entered.child entry
  rw [placed.2.1]
  exact formed.founded.scopeSegments_insideAt placed.insideAt

theorem Formed.segments_inner (formed : left.Formed) {owner : Scope} {inner : ClassId}
    (owned : inner ∈ (left.classesOf owner).values) :
    left.classSegments inner = left.scopeSegments owner ++ [(left.javaClass inner).name] := by
  obtain ⟨name, entry⟩ := OrderedTable.mem_values.mp owned
  have placed := formed.entered.javaClass entry
  rw [placed.2.1]
  exact formed.founded.scopeSegments_insideAt placed.insideAt

theorem Formed.find?_root (formed : left.Formed) (segment : String) :
    left.roots.find? segment = left.roots.values.find? fun id => (left.package id).name = segment :=
  OrderedTable.find?_eq_find?_values (fun id => (left.package id).name) (keyed_of_formed formed).rootNames segment

theorem Formed.find?_child (formed : left.Formed) (parent : PackageId) (segment : String) :
    (left.package parent).children.find? segment =
      (left.package parent).children.values.find? fun id => (left.package id).name = segment :=
  OrderedTable.find?_eq_find?_values (fun id => (left.package id).name)
    ((keyed_of_formed formed).childNames parent) segment

theorem Formed.find?_class (formed : left.Formed) (owner : Scope) (segment : String) :
    (left.classesOf owner).find? segment =
      (left.classesOf owner).values.find? fun id => (left.javaClass id).name = segment :=
  OrderedTable.find?_eq_find?_values (fun id => (left.javaClass id).name)
    ((keyed_of_formed formed).classNames owner) segment

theorem findInside_package (id : PackageId) (segment : String) :
    left.findInside (.package id) segment = (((left.package id).children.find? segment).map Scope.package).or
      (((left.classesOf (.package id)).find? segment).map .javaClass) := by
  cases found : (left.package id).children.find? segment <;> simp [findInside, found, classesOf]

variable (formed : left.Formed) (formedThere : right.Formed)
include formed formedThere

/-! ## What an object says of a node -/

theorem parts_of_packageObject {id there : PackageId} (same : left.packageObject id = right.packageObject there) :
    (left.package id).name = (right.package there).name ∧
      (left.package id).obfuscation = (right.package there).obfuscation ∧
      (left.package id).children.values.map left.packageObject =
        (right.package there).children.values.map right.packageObject ∧
      (left.package id).classes.values.map left.classObject =
        (right.package there).classes.values.map right.classObject := by
  rw [formed.packageObject_eq, formedThere.packageObject_eq] at same
  simpa [packageDocument, Json.ofOption_injective.eq_iff] using same

theorem parts_of_classObject {id there : ClassId} (same : left.classObject id = right.classObject there) :
    (left.javaClass id).name = (right.javaClass there).name ∧
      (left.javaClass id).obfuscation = (right.javaClass there).obfuscation ∧
      (left.javaClass id).path = (right.javaClass there).path ∧
      (left.javaClass id).methods.values.map left.methodDocument =
        (right.javaClass there).methods.values.map right.methodDocument ∧
      (left.javaClass id).classes.values.map left.classObject =
        (right.javaClass there).classes.values.map right.classObject := by
  rw [formed.classObject_eq, formedThere.classObject_eq] at same
  simpa [classDocument, Json.ofOption_injective.eq_iff] using same

section
variable {id there : PackageId} (twins : PackageTwins left right id there)
include twins

theorem PackageTwins.name : (left.package id).name = (right.package there).name :=
  (parts_of_packageObject formed formedThere twins.object).1

theorem PackageTwins.obfuscation : (left.package id).obfuscation = (right.package there).obfuscation :=
  (parts_of_packageObject formed formedThere twins.object).2.1

theorem PackageTwins.children : List.Forall₂ (PackageTwins left right) (left.package id).children.values
    (right.package there).children.values := by
  obtain ⟨-, -, children, -⟩ := parts_of_packageObject formed formedThere twins.object
  refine (forall₂_of_map_eq children).imp fun child other both => ?_
  obtain ⟨owned, ownedThere, object⟩ := both
  have named := (parts_of_packageObject formed formedThere object).1
  refine ⟨(formed.childAt owned).1, (formedThere.childAt ownedThere).1, ?_, object⟩
  rw [formed.segments_child owned, formedThere.segments_child ownedThere, twins.segments, named]

end

section
variable {id there : ClassId} (twins : ClassTwins left right id there)
include twins

theorem ClassTwins.name : (left.javaClass id).name = (right.javaClass there).name :=
  (parts_of_classObject formed formedThere twins.object).1

theorem ClassTwins.obfuscation : (left.javaClass id).obfuscation = (right.javaClass there).obfuscation :=
  (parts_of_classObject formed formedThere twins.object).2.1

theorem ClassTwins.path : (left.javaClass id).path = (right.javaClass there).path :=
  (parts_of_classObject formed formedThere twins.object).2.2.1

end

theorem ScopeTwins.classes {scope there : Scope} (twins : ScopeTwins left right scope there) :
    List.Forall₂ (ClassTwins left right) (left.classesOf scope).values (right.classesOf there).values := by
  have objects : (left.classesOf scope).values.map left.classObject =
      (right.classesOf there).values.map right.classObject := by
    cases twins with
    | package twins => exact (parts_of_packageObject formed formedThere twins.object).2.2.2
    | javaClass twins => exact (parts_of_classObject formed formedThere twins.object).2.2.2.2
  refine (forall₂_of_map_eq objects).imp fun inner other both => ?_
  obtain ⟨owned, ownedThere, object⟩ := both
  have named := (parts_of_classObject formed formedThere object).1
  refine ⟨(formed.innerAt owned).1, (formedThere.innerAt ownedThere).1, ?_, object⟩
  rw [formed.segments_inner owned, formedThere.segments_inner ownedThere, twins.segments, named]

/-! ## Looking for a segment -/

theorem PackageTwins.find?_child {id there : PackageId} (twins : PackageTwins left right id there) (segment : String) :
    Option.Rel (PackageTwins left right) ((left.package id).children.find? segment)
      ((right.package there).children.find? segment) := by
  rw [formed.find?_child, formedThere.find?_child]
  refine rel_find? (twins.children formed formedThere) fun child other twins => ?_
  rw [twins.name formed formedThere]

theorem ScopeTwins.find?_class {scope there : Scope} (twins : ScopeTwins left right scope there) (segment : String) :
    Option.Rel (ClassTwins left right) ((left.classesOf scope).find? segment)
      ((right.classesOf there).find? segment) := by
  rw [formed.find?_class, formedThere.find?_class]
  refine rel_find? (twins.classes formed formedThere) fun inner other twins => ?_
  rw [twins.name formed formedThere]

theorem ScopeTwins.findInside {scope there : Scope} (twins : ScopeTwins left right scope there) (segment : String) :
    Option.Rel (ScopeTwins left right) (left.findInside scope segment) (right.findInside there segment) := by
  have classes : Option.Rel (ScopeTwins left right) (((left.classesOf scope).find? segment).map .javaClass)
      (((right.classesOf there).find? segment).map .javaClass) :=
    rel_map (twins.find?_class formed formedThere segment) fun _ _ => .javaClass
  cases twins with
  | javaClass twins => exact classes
  | package twins =>
    rw [findInside_package, findInside_package]
    exact rel_or (rel_map (twins.find?_child formed formedThere segment) fun _ _ => .package) classes

theorem ScopeTwins.findBelow {scope there : Scope} (twins : ScopeTwins left right scope there) (path : List String) :
    Option.Rel (ScopeTwins left right) (left.findBelow scope path) (right.findBelow there path) := by
  induction path generalizing scope there with
  | nil => exact .some twins
  | cons segment rest ih => exact rel_bind (twins.findInside formed formedThere segment) fun _ _ twins => ih twins

end

/-! ## Looking for obfuscated names -/

section
variable {left right : NameTree}

theorem matching_eq_or {α : Type} (obfuscation : α → Option String) (name : α → String) (segment : String)
    (candidates : List α) : matching obfuscation name segment candidates =
      (candidates.find? fun node => obfuscation node = some segment).or
        (candidates.find? fun node => name node = segment) := by
  unfold matching
  cases candidates.find? fun node => obfuscation node = some segment <;> rfl

theorem obfuscatedRoot_eq_matching (formed : left.Formed) (segment : String) : left.obfuscatedRoot segment =
    matching (fun id => (left.package id).obfuscation) (fun id => (left.package id).name) segment left.roots.values := by
  unfold obfuscatedRoot matching
  rw [← formed.find?_root]
  cases left.roots.values.find? fun id => (left.package id).obfuscation = some segment <;> rfl

theorem obfuscatedInside_package (id : PackageId) (segment : String) :
    left.obfuscatedInside (.package id) segment = ((left.obfuscatedChild id segment).map Scope.package).or
      ((left.obfuscatedInner (.package id) segment).map .javaClass) := by
  cases found : left.obfuscatedChild id segment <;> simp [obfuscatedInside, found]

theorem rel_matching {α : Type} {related : α → α → Prop} {items itemsThere : List α}
    {obfuscation obfuscationThere : α → Option String} {name nameThere : α → String}
    (all : List.Forall₂ related items itemsThere)
    (carried : ∀ one other, related one other → obfuscation one = obfuscationThere other)
    (named : ∀ one other, related one other → name one = nameThere other) (segment : String) :
    Option.Rel related (matching obfuscation name segment items)
      (matching obfuscationThere nameThere segment itemsThere) := by
  rw [matching_eq_or, matching_eq_or]
  refine rel_or (rel_find? all fun one other holds => ?_) (rel_find? all fun one other holds => ?_)
  · rw [carried one other holds]
  · rw [named one other holds]

variable (formed : left.Formed) (formedThere : right.Formed)
include formed formedThere

theorem rel_matchPackage {items itemsThere : List PackageId}
    (all : List.Forall₂ (PackageTwins left right) items itemsThere) (segment : String) :
    Option.Rel (PackageTwins left right) (left.matchPackage segment items) (right.matchPackage segment itemsThere) :=
  rel_matching all (fun _ _ twins => twins.obfuscation formed formedThere)
    (fun _ _ twins => twins.name formed formedThere) segment

theorem ScopeTwins.obfuscatedInner {scope there : Scope} (twins : ScopeTwins left right scope there) (segment : String) :
    Option.Rel (ClassTwins left right) (left.obfuscatedInner scope segment) (right.obfuscatedInner there segment) :=
  rel_matching (twins.classes formed formedThere) (fun _ _ twins => twins.obfuscation formed formedThere)
    (fun _ _ twins => twins.name formed formedThere) segment

theorem PackageTwins.obfuscatedChild {id there : PackageId} (twins : PackageTwins left right id there)
    (segment : String) :
    Option.Rel (PackageTwins left right) (left.obfuscatedChild id segment) (right.obfuscatedChild there segment) :=
  rel_matchPackage formed formedThere (twins.children formed formedThere) segment

theorem ScopeTwins.obfuscatedInside {scope there : Scope} (twins : ScopeTwins left right scope there)
    (segment : String) :
    Option.Rel (ScopeTwins left right) (left.obfuscatedInside scope segment) (right.obfuscatedInside there segment) := by
  have classes : Option.Rel (ScopeTwins left right) ((left.obfuscatedInner scope segment).map .javaClass)
      ((right.obfuscatedInner there segment).map .javaClass) :=
    rel_map (twins.obfuscatedInner formed formedThere segment) fun _ _ => .javaClass
  cases twins with
  | javaClass twins => exact classes
  | package twins =>
    rw [obfuscatedInside_package, obfuscatedInside_package]
    exact rel_or (rel_map (twins.obfuscatedChild formed formedThere segment) fun _ _ => .package) classes

theorem PackageTwins.obfuscatedPackageBelow {id there : PackageId} (twins : PackageTwins left right id there)
    (path : List String) :
    Option.Rel (PackageTwins left right) (left.obfuscatedPackageBelow id path)
      (right.obfuscatedPackageBelow there path) := by
  induction path generalizing id there with
  | nil => exact .some twins
  | cons segment rest ih => exact rel_bind (twins.obfuscatedChild formed formedThere segment) fun _ _ twins => ih twins

theorem ScopeTwins.obfuscatedClassBelow {scope there : Scope} (twins : ScopeTwins left right scope there)
    (path : List String) :
    Option.Rel (ClassTwins left right) (left.obfuscatedClassBelow scope path)
      (right.obfuscatedClassBelow there path) := by
  induction path generalizing scope there with
  | nil => exact .none
  | cons segment rest ih =>
    cases rest with
    | nil => exact twins.obfuscatedInner formed formedThere segment
    | cons next rest => exact rel_bind (twins.obfuscatedInside formed formedThere segment) fun _ _ twins => ih twins

/-! ## Trees of the same document -/

section
variable (same : left.document = right.document)
include same

theorem twins_of_roots : List.Forall₂ (PackageTwins left right) left.roots.values right.roots.values := by
  have objects : left.roots.values.map left.packageObject = right.roots.values.map right.packageObject := by
    have forests : PackageBranch.documents left left.forest = PackageBranch.documents right right.forest := by
      simpa [document] using same
    rw [PackageBranch.documents_eq, PackageBranch.documents_eq, forest, forest, List.map_map, List.map_map] at forests
    exact forests
  refine (forall₂_of_map_eq objects).imp fun root other both => ?_
  obtain ⟨entered, enteredThere, object⟩ := both
  obtain ⟨name, entry⟩ := OrderedTable.mem_values.mp entered
  obtain ⟨nameThere, entryThere⟩ := OrderedTable.mem_values.mp enteredThere
  have placed := formed.entered.root entry
  have placedThere := formedThere.entered.root entryThere
  have named := (parts_of_packageObject formed formedThere object).1
  refine ⟨placed.1, placedThere.1, ?_, object⟩
  rw [formed.founded.packageSegments_rootAt placed, formedThere.founded.packageSegments_rootAt placedThere,
    ← placed.2.1, ← placedThere.2.1, named]

theorem twins_of_find? (identifier : String) :
    Option.Rel (ScopeTwins left right) (left.find? identifier) (right.find? identifier) := by
  unfold find?
  cases segments identifier with
  | nil => exact .none
  | cons root rest =>
    dsimp only
    rw [formed.find?_root, formedThere.find?_root]
    refine rel_bind (rel_find? (twins_of_roots formed formedThere same) fun id there twins => ?_) fun _ _ twins => ?_
    · rw [twins.name formed formedThere]
    · exact (ScopeTwins.package twins).findBelow formed formedThere rest

theorem twins_of_obfuscatedRoot (segment : String) :
    Option.Rel (PackageTwins left right) (left.obfuscatedRoot segment) (right.obfuscatedRoot segment) := by
  rw [obfuscatedRoot_eq_matching formed, obfuscatedRoot_eq_matching formedThere]
  exact rel_matchPackage formed formedThere (twins_of_roots formed formedThere same) segment

theorem twins_of_obfuscatedPackage (identifier : String) :
    Option.Rel (PackageTwins left right) (left.obfuscatedPackage identifier) (right.obfuscatedPackage identifier) := by
  unfold obfuscatedPackage
  cases segments identifier with
  | nil => exact .none
  | cons root rest =>
    exact rel_bind (twins_of_obfuscatedRoot formed formedThere same root)
      fun _ _ twins => twins.obfuscatedPackageBelow formed formedThere rest

theorem twins_of_obfuscatedClass (identifier : String) :
    Option.Rel (ClassTwins left right) (left.obfuscatedClass identifier) (right.obfuscatedClass identifier) := by
  unfold obfuscatedClass
  cases segments identifier with
  | nil => exact .none
  | cons root rest =>
    exact rel_bind (twins_of_obfuscatedRoot formed formedThere same root)
      fun _ _ twins => (ScopeTwins.package twins).obfuscatedClassBelow formed formedThere rest

end

end

end NameTree

end ClearNames
