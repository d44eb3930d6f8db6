import ClearNames.Proofs.NameTree.Branches
import ClearNames.Proofs.NameTree.Operations
import Mathlib.Data.List.Nodup
import Mathlib.Data.List.Perm.Subperm

/-! Each node of a tree is listed once, after its owner and in the order of its siblings.

No node lies below two nodes with equally long full names, so that the branches
of siblings have nothing in common. A list without repetition is not longer
than the store, and the steps that a listing takes suffice.
-/

set_option autoImplicit false

namespace ClearNames

namespace NameTree

/-- A scope that the roots lead to through the tables. -/
inductive Rooted (tree : NameTree) : Scope → Prop where
  | root {id : PackageId} (entry : id ∈ tree.roots.values) : Rooted tree (.package id)
  | child {parent id : PackageId} (above : Rooted tree (.package parent))
      (entry : id ∈ (tree.package parent).children.values) : Rooted tree (.package id)
  | javaClass {owner : Scope} {id : ClassId} (above : Rooted tree owner)
      (entry : id ∈ (tree.classesOf owner).values) : Rooted tree (.javaClass id)

variable {tree : NameTree}

/-! ## Levels -/

theorem Founded.length_lt (founded : tree.Founded) {scope owner : Scope} (known : tree.HasScope scope)
    (owned : tree.ownerOf scope = some owner) :
    (tree.scopeSegments owner).length + 1 = (tree.scopeSegments scope).length := by
  have path := founded.scopeSegments_eq known
  rw [owned] at path
  rw [path, List.length_append, List.length_singleton]

theorem Below.length_le (founded : tree.Founded) {top scope : Scope} (below : tree.Below top scope) :
    (tree.scopeSegments top).length ≤ (tree.scopeSegments scope).length := by
  induction below with
  | self => exact Nat.le_refl _
  | owned known own _ ih =>
    have shorter := founded.length_lt known own
    omega

theorem Below.eq_of_level (founded : tree.Founded) {top other scope : Scope} (below : tree.Below top scope)
    (under : tree.Below other scope) (level : (tree.scopeSegments top).length = (tree.scopeSegments other).length) :
    top = other := by
  induction below with
  | self =>
    cases under with
    | self => rfl
    | owned known own under =>
      have shorter := founded.length_lt known own
      have above := under.length_le founded
      omega
  | owned known own below ih =>
    cases under with
    | self =>
      have shorter := founded.length_lt known own
      have above := below.length_le founded
      omega
    | owned _ own' under =>
      rw [own] at own'
      cases own'
      exact ih under

theorem Founded.nodup_flatMap (founded : tree.Founded) {ν : Type} {place : ν → Scope}
    (told : Function.Injective place) {tops : List ν} {under : ν → List ν} {length : Nat} (distinct : tops.Nodup)
    (level : ∀ top ∈ tops, (tree.scopeSegments (place top)).length = length)
    (below : ∀ top ∈ tops, ∀ id ∈ under top, tree.Below (place top) (place id))
    (each : ∀ top ∈ tops, (under top).Nodup) : (tops.flatMap under).Nodup := by
  refine List.nodup_flatMap.mpr ⟨each, distinct.imp_of_mem fun {first second} firstIn secondIn apart => ?_⟩
  intro id inFirst inSecond
  have same := (below first firstIn id inFirst).eq_of_level founded (below second secondIn id inSecond)
    ((level first firstIn).trans (level second secondIn).symm)
  exact apart (told same)

theorem package_injective : Function.Injective Scope.package := fun _ _ => Scope.package.inj

theorem javaClass_injective : Function.Injective Scope.javaClass := fun _ _ => Scope.javaClass.inj

/-! ## Lists without repetition -/

theorem length_le_of_nodup {ν : Type} {index : ν → Nat} (told : Function.Injective index) {ids : List ν} {size : Nat}
    (distinct : ids.Nodup) (known : ∀ id ∈ ids, index id < size) : ids.length ≤ size := by
  have within : ids.map index ⊆ List.range size := by
    intro number listed
    obtain ⟨id, member, rfl⟩ := List.mem_map.mp listed
    exact List.mem_range.mpr (known id member)
  have shorter := ((distinct.map told).subperm within).length_le
  rwa [List.length_map, List.length_range] at shorter

theorem flatMap_ite_of_nodup {α β : Type} [DecidableEq α] {keys : List α} {key : α} (values : α → List β)
    (distinct : keys.Nodup) (listed : key ∈ keys) :
    (keys.flatMap fun other => if other = key then values other else []) = values key := by
  induction keys with
  | nil => cases listed
  | cons first rest ih =>
    obtain ⟨fresh, distinct⟩ := List.nodup_cons.mp distinct
    rw [List.flatMap_cons]
    by_cases here : first = key
    · subst here
      have others : (rest.flatMap fun other => if other = first then values other else []) = [] := by
        refine List.flatMap_eq_nil_iff.mpr fun other member => if_neg ?_
        rintro rfl
        exact fresh member
      rw [if_pos rfl, others, List.append_nil]
    · rw [if_neg here, List.nil_append, ih distinct ((List.mem_cons.mp listed).resolve_left (Ne.symm here))]

theorem sublist_flatMap_of_mem {α β : Type} {keys : List α} {key : α} {values : α → List β} (listed : key ∈ keys) :
    (values key).Sublist (keys.flatMap values) := by
  rw [List.flatMap_def]
  exact List.sublist_flatten_of_mem (List.mem_map_of_mem listed)

theorem sublist_flatMap {α : Type} {items : List α} {around : α → List α} (inside : ∀ item ∈ items, item ∈ around item) :
    items.Sublist (items.flatMap around) := by
  induction items with
  | nil => exact .slnil
  | cons item rest ih =>
    obtain ⟨here, later⟩ := List.forall_mem_cons.mp inside
    exact (List.singleton_sublist.mpr here).append (ih later)

/-! ## Branches -/

section
variable (formed : tree.Formed)
include formed

theorem Formed.self_mem_packagesUnder (id : PackageId) : id ∈ tree.packagesUnder id := by
  rw [formed.packagesUnder_eq]
  exact List.mem_cons_self

theorem Formed.self_mem_classesUnder (id : ClassId) : id ∈ tree.classesUnder id := by
  rw [formed.classesUnder_eq]
  exact List.mem_cons_self

theorem Formed.child_below {parent child : PackageId} (owned : child ∈ (tree.package parent).children.values) :
    tree.Below (.package parent) (.package child) := by
  obtain ⟨known, inside, -⟩ := formed.childAt owned
  exact .owned known (by simp [ownerOf, inside]) .self

theorem Formed.inner_below {owner : Scope} {inner : ClassId} (owned : inner ∈ (tree.classesOf owner).values) :
    tree.Below owner (.javaClass inner) := by
  obtain ⟨known, inside⟩ := formed.innerAt owned
  exact .owned known (congrArg some inside) .self

theorem Formed.below_of_mem_packagesUnder {top id : PackageId} (known : id ∈ tree.packagesUnder top) :
    tree.Below (.package top) (.package id) := by
  induction top using formed.package_induction with
  | step top ih =>
    rw [formed.packagesUnder_eq, List.mem_cons, List.mem_flatMap] at known
    rcases known with rfl | ⟨child, owned, inside⟩
    · exact .self
    · exact (formed.child_below owned).trans (ih child owned inside)

theorem Formed.below_of_mem_classesUnder {top id : ClassId} (known : id ∈ tree.classesUnder top) :
    tree.Below (.javaClass top) (.javaClass id) := by
  induction top using formed.class_induction with
  | step top ih =>
    rw [formed.classesUnder_eq, List.mem_cons, List.mem_flatMap] at known
    rcases known with rfl | ⟨inner, owned, inside⟩
    · exact .self
    · have below : tree.Below (.javaClass top) (.javaClass inner) := formed.inner_below owned
      exact below.trans (ih inner owned inside)

theorem Formed.children_level {parent : PackageId} : ∀ child ∈ (tree.package parent).children.values,
    (tree.scopeSegments (.package child)).length = (tree.scopeSegments (.package parent)).length + 1 := by
  intro child owned
  obtain ⟨known, inside, -⟩ := formed.childAt owned
  exact (formed.founded.length_lt (show tree.HasScope (.package child) from known) (by simp [ownerOf, inside])).symm

theorem Formed.inner_level (owner : Scope) : ∀ inner ∈ (tree.classesOf owner).values,
    (tree.scopeSegments (.javaClass inner)).length = (tree.scopeSegments owner).length + 1 := by
  intro inner owned
  obtain ⟨known, inside⟩ := formed.innerAt owned
  exact (formed.founded.length_lt (show tree.HasScope (.javaClass inner) from known) (congrArg some inside)).symm

theorem Formed.roots_level : ∀ root ∈ tree.roots.values, (tree.scopeSegments (.package root)).length = 1 := by
  intro root entered
  obtain ⟨name, entry⟩ := OrderedTable.mem_values.mp entered
  rw [scopeSegments, formed.founded.packageSegments_rootAt (formed.entered.root entry), List.length_singleton]

theorem Formed.nodup_packagesUnder (id : PackageId) : (tree.packagesUnder id).Nodup := by
  induction id using formed.package_induction with
  | step id ih =>
    rw [formed.packagesUnder_eq, List.nodup_cons]
    refine ⟨fun again => ?_, formed.founded.nodup_flatMap package_injective (formed.entered.nodup_children id)
      formed.children_level (fun child _ inner => formed.below_of_mem_packagesUnder) ih⟩
    -- A package is no deeper than itself, but every child is.
    obtain ⟨child, owned, inside⟩ := List.mem_flatMap.mp again
    have deeper := (formed.below_of_mem_packagesUnder inside).length_le formed.founded
    have level := formed.children_level child owned
    omega

theorem Formed.nodup_classesOf (owner : Scope) : (tree.classesOf owner).values.Nodup :=
  OrderedTable.nodup_values (formed.entered.classKeys owner) (fun id => (tree.javaClass id).name)
    fun entry => (formed.entered.javaClass entry).2.1

theorem Formed.nodup_roots : tree.roots.values.Nodup :=
  OrderedTable.nodup_values formed.entered.rootKeys (fun id => (tree.package id).name)
    fun entry => (formed.entered.root entry).2.1

theorem Formed.nodup_classesUnder (id : ClassId) : (tree.classesUnder id).Nodup := by
  induction id using formed.class_induction with
  | step id ih =>
    rw [formed.classesUnder_eq, List.nodup_cons]
    refine ⟨fun again => ?_, formed.founded.nodup_flatMap javaClass_injective (formed.nodup_classesOf (.javaClass id))
      (formed.inner_level (.javaClass id)) (fun _ _ _ => formed.below_of_mem_classesUnder) ih⟩
    obtain ⟨inner, owned, inside⟩ := List.mem_flatMap.mp again
    have deeper := (formed.below_of_mem_classesUnder inside).length_le formed.founded
    have level := formed.inner_level (.javaClass id) inner owned
    omega

theorem Formed.nodup_classesIn (id : PackageId) : (tree.classesIn id).Nodup :=
  formed.founded.nodup_flatMap javaClass_injective (formed.nodup_classesOf (.package id))
    (formed.inner_level (.package id))
    (fun _ _ _ => formed.below_of_mem_classesUnder) fun inner _ => formed.nodup_classesUnder inner

/-! ## What the branches hold -/

theorem Formed.rooted_of_mem_packagesUnder {top id : PackageId} (rooted : tree.Rooted (.package top))
    (known : id ∈ tree.packagesUnder top) : tree.Rooted (.package id) := by
  induction top using formed.package_induction with
  | step top ih =>
    rw [formed.packagesUnder_eq, List.mem_cons, List.mem_flatMap] at known
    rcases known with rfl | ⟨child, owned, inside⟩
    · exact rooted
    · exact ih child owned (.child rooted owned) inside

theorem Formed.child_mem_packagesUnder {top parent child : PackageId} (known : parent ∈ tree.packagesUnder top)
    (owned : child ∈ (tree.package parent).children.values) : child ∈ tree.packagesUnder top := by
  induction top using formed.package_induction with
  | step top ih =>
    rw [formed.packagesUnder_eq, List.mem_cons, List.mem_flatMap] at known ⊢
    rcases known with rfl | ⟨other, entered, inside⟩
    · exact .inr ⟨child, owned, formed.self_mem_packagesUnder child⟩
    · exact .inr ⟨other, entered, ih other entered inside⟩

theorem Formed.rooted_of_mem_classesUnder {top id : ClassId} (rooted : tree.Rooted (.javaClass top))
    (known : id ∈ tree.classesUnder top) : tree.Rooted (.javaClass id) := by
  induction top using formed.class_induction with
  | step top ih =>
    rw [formed.classesUnder_eq, List.mem_cons, List.mem_flatMap] at known
    rcases known with rfl | ⟨inner, owned, inside⟩
    · exact rooted
    · exact ih inner owned (.javaClass rooted owned) inside

theorem Formed.inner_mem_classesUnder {top outer inner : ClassId} (known : outer ∈ tree.classesUnder top)
    (owned : inner ∈ (tree.javaClass outer).classes.values) : inner ∈ tree.classesUnder top := by
  induction top using formed.class_induction with
  | step top ih =>
    rw [formed.classesUnder_eq, List.mem_cons, List.mem_flatMap] at known ⊢
    rcases known with rfl | ⟨other, entered, inside⟩
    · exact .inr ⟨inner, owned, formed.self_mem_classesUnder inner⟩
    · exact .inr ⟨other, entered, ih other entered inside⟩

theorem Formed.package_of_mem_classesUnder {top id : ClassId} (known : id ∈ tree.classesUnder top) :
    (tree.javaClass id).package = (tree.javaClass top).package := by
  induction top using formed.class_induction with
  | step top ih =>
    rw [formed.classesUnder_eq, List.mem_cons, List.mem_flatMap] at known
    rcases known with rfl | ⟨inner, owned, inside⟩
    · rfl
    · obtain ⟨there, place⟩ := formed.innerAt (show inner ∈ (tree.classesOf (.javaClass top)).values from owned)
      have founded := formed.founded.javaClass there
      rw [ClassFounded, place] at founded
      exact (ih inner owned inside).trans founded.2.1

theorem Formed.package_of_mem_classesIn {id : PackageId} {inner : ClassId} (known : inner ∈ tree.classesIn id) :
    (tree.javaClass inner).package = id := by
  obtain ⟨top, owned, inside⟩ := List.mem_flatMap.mp known
  obtain ⟨there, place⟩ := formed.innerAt (show top ∈ (tree.classesOf (.package id)).values from owned)
  have founded := formed.founded.javaClass there
  rw [ClassFounded, place] at founded
  exact (formed.package_of_mem_classesUnder inside).trans founded.2.1

theorem Formed.hasScope_of_rooted {scope : Scope} (rooted : tree.Rooted scope) : tree.HasScope scope := by
  cases rooted with
  | root entry =>
    obtain ⟨name, entry⟩ := OrderedTable.mem_values.mp entry
    exact (formed.entered.root entry).1
  | child _ entry => exact (formed.childAt entry).1
  | javaClass _ entry => exact (formed.innerAt entry).1

/-! ## The listings -/

theorem Formed.nodup_packages : (tree.roots.values.flatMap tree.packagesUnder).Nodup :=
  formed.founded.nodup_flatMap package_injective formed.nodup_roots formed.roots_level
    (fun _ _ _ => formed.below_of_mem_packagesUnder) fun root _ => formed.nodup_packagesUnder root

theorem Formed.rooted_of_mem_packages {id : PackageId} (known : id ∈ tree.roots.values.flatMap tree.packagesUnder) :
    tree.Rooted (.package id) := by
  obtain ⟨root, entered, inside⟩ := List.mem_flatMap.mp known
  exact formed.rooted_of_mem_packagesUnder (.root entered) inside

theorem Formed.listPackages_eq : tree.listPackages = tree.roots.values.flatMap tree.packagesUnder := by
  have enough : (tree.roots.values.flatMap tree.packagesUnder).length ≤ tree.packages.size :=
    length_le_of_nodup (fun _ _ => PackageId.ext) formed.nodup_packages
      fun id known => formed.hasScope_of_rooted (formed.rooted_of_mem_packages known)
  rw [listPackages, formed.takePackages_eq, List.take_of_length_le enough]

theorem Formed.mem_listPackages {id : PackageId} : id ∈ tree.listPackages ↔ tree.Rooted (.package id) := by
  rw [formed.listPackages_eq]
  refine ⟨formed.rooted_of_mem_packages, fun rooted => ?_⟩
  generalize place : Scope.package id = scope at rooted
  induction rooted generalizing id with
  | root entry =>
    cases place
    exact List.mem_flatMap.mpr ⟨_, entry, formed.self_mem_packagesUnder _⟩
  | child _ entry ih =>
    cases place
    obtain ⟨root, entered, inside⟩ := List.mem_flatMap.mp (ih rfl)
    exact List.mem_flatMap.mpr ⟨root, entered, formed.child_mem_packagesUnder inside entry⟩
  | javaClass => cases place

theorem Formed.takeClasses_classes (id : PackageId) (rooted : tree.Rooted (.package id)) :
    tree.takeClasses tree.classes.size (tree.package id).classes.values = tree.classesIn id := by
  have enough : (tree.classesIn id).length ≤ tree.classes.size := by
    refine length_le_of_nodup (fun _ _ => ClassId.ext) (formed.nodup_classesIn id) fun inner known => ?_
    obtain ⟨top, owned, inside⟩ := List.mem_flatMap.mp known
    exact formed.hasScope_of_rooted (formed.rooted_of_mem_classesUnder (.javaClass rooted owned) inside)
  rw [formed.takeClasses_eq]
  exact List.take_of_length_le enough

theorem Formed.listClasses_eq : tree.listClasses = tree.listPackages.flatMap tree.classesIn :=
  List.flatMap_congr fun id listed => formed.takeClasses_classes id (formed.mem_listPackages.mp listed)

theorem Formed.mem_listClasses {id : ClassId} : id ∈ tree.listClasses ↔ tree.Rooted (.javaClass id) := by
  rw [formed.listClasses_eq, List.mem_flatMap]
  constructor
  · rintro ⟨place, listed, inside⟩
    obtain ⟨top, owned, under⟩ := List.mem_flatMap.mp inside
    exact formed.rooted_of_mem_classesUnder (.javaClass (formed.mem_listPackages.mp listed) owned) under
  · intro rooted
    generalize place : Scope.javaClass id = scope at rooted
    induction rooted generalizing id with
    | root => cases place
    | child => cases place
    | @javaClass owner id' above entry ih =>
      cases place
      cases owner with
      | package holder =>
        exact ⟨holder, formed.mem_listPackages.mpr above,
          List.mem_flatMap.mpr ⟨_, entry, formed.self_mem_classesUnder _⟩⟩
      | javaClass outer =>
        obtain ⟨holder, listed, inside⟩ := ih rfl
        obtain ⟨top, owned, under⟩ := List.mem_flatMap.mp inside
        exact ⟨holder, listed, List.mem_flatMap.mpr ⟨top, owned, formed.inner_mem_classesUnder under entry⟩⟩

theorem Formed.nodup_listPackages : tree.listPackages.Nodup := formed.listPackages_eq ▸ formed.nodup_packages

/-- A class lies in one package only, so that distinct packages have no class in common. -/
theorem Formed.nodup_flatMap_classesIn {ids : List PackageId} (distinct : ids.Nodup) :
    (ids.flatMap tree.classesIn).Nodup := by
  refine List.nodup_flatMap.mpr ⟨fun id _ => formed.nodup_classesIn id,
    distinct.imp fun {first second} apart inner inFirst inSecond => apart ?_⟩
  exact (formed.package_of_mem_classesIn inFirst).symm.trans (formed.package_of_mem_classesIn inSecond)

theorem Formed.nodup_listClasses : tree.listClasses.Nodup := by
  rw [formed.listClasses_eq]
  exact formed.nodup_flatMap_classesIn formed.nodup_listPackages

/-! ## Orders -/

theorem Formed.filter_classesIn (id other : PackageId) :
    ((tree.classesIn other).filter fun inner => (tree.javaClass inner).package = id) =
      if other = id then tree.classesIn other else [] := by
  split
  · next same =>
    refine List.filter_eq_self.mpr fun inner known => ?_
    rw [formed.package_of_mem_classesIn known, same]
    exact decide_eq_true rfl
  · next apart =>
    refine List.filter_eq_nil_iff.mpr fun inner known => ?_
    rw [formed.package_of_mem_classesIn known]
    simpa using apart

theorem Formed.listClasses_grouped : tree.listClasses =
    tree.listPackages.flatMap fun id => tree.listClasses.filter fun inner => (tree.javaClass inner).package = id := by
  have group : ∀ id ∈ tree.listPackages,
      (tree.listClasses.filter fun inner => (tree.javaClass inner).package = id) = tree.classesIn id := by
    intro id listed
    rw [formed.listClasses_eq, List.filter_flatMap]
    simp only [formed.filter_classesIn]
    exact flatMap_ite_of_nodup _ formed.nodup_listPackages listed
  rw [List.flatMap_congr group, formed.listClasses_eq]

theorem Formed.children_sublist_packagesUnder {top id : PackageId} (known : id ∈ tree.packagesUnder top) :
    (id :: (tree.package id).children.values).Sublist (tree.packagesUnder top) := by
  induction top using formed.package_induction with
  | step top ih =>
    rw [formed.packagesUnder_eq, List.mem_cons, List.mem_flatMap] at known
    rw [formed.packagesUnder_eq top]
    rcases known with rfl | ⟨child, owned, inside⟩
    · exact (sublist_flatMap fun child _ => formed.self_mem_packagesUnder child).cons_cons _
    · exact ((ih child owned inside).trans (sublist_flatMap_of_mem owned)).cons _

theorem Formed.inner_sublist_classesUnder {top id : ClassId} (known : id ∈ tree.classesUnder top) :
    (id :: (tree.javaClass id).classes.values).Sublist (tree.classesUnder top) := by
  induction top using formed.class_induction with
  | step top ih =>
    rw [formed.classesUnder_eq, List.mem_cons, List.mem_flatMap] at known
    rw [formed.classesUnder_eq top]
    rcases known with rfl | ⟨inner, owned, inside⟩
    · exact (sublist_flatMap fun inner _ => formed.self_mem_classesUnder inner).cons_cons _
    · exact ((ih inner owned inside).trans (sublist_flatMap_of_mem owned)).cons _

theorem Formed.roots_sublist : tree.roots.values.Sublist tree.listPackages := by
  rw [formed.listPackages_eq]
  exact sublist_flatMap fun root _ => formed.self_mem_packagesUnder root

/-- A package comes before the packages inside it, and these come in the order in which they were entered. -/
theorem Formed.children_sublist {id : PackageId} (listed : id ∈ tree.listPackages) :
    (id :: (tree.package id).children.values).Sublist tree.listPackages := by
  rw [formed.listPackages_eq] at listed ⊢
  obtain ⟨root, entered, inside⟩ := List.mem_flatMap.mp listed
  exact (formed.children_sublist_packagesUnder inside).trans (sublist_flatMap_of_mem entered)

theorem Formed.classes_sublist {id : PackageId} (listed : id ∈ tree.listPackages) :
    (tree.package id).classes.values.Sublist tree.listClasses := by
  rw [formed.listClasses_eq]
  have own : (tree.package id).classes.values.Sublist (tree.classesIn id) :=
    sublist_flatMap fun inner _ => formed.self_mem_classesUnder inner
  exact own.trans (sublist_flatMap_of_mem listed)

theorem Formed.inner_sublist {id : ClassId} (listed : id ∈ tree.listClasses) :
    (id :: (tree.javaClass id).classes.values).Sublist tree.listClasses := by
  rw [formed.listClasses_eq] at listed ⊢
  obtain ⟨place, listed, inside⟩ := List.mem_flatMap.mp listed
  obtain ⟨top, owned, under⟩ := List.mem_flatMap.mp inside
  have within : (tree.classesUnder top).Sublist (tree.classesIn place) := sublist_flatMap_of_mem owned
  exact (formed.inner_sublist_classesUnder under).trans (within.trans (sublist_flatMap_of_mem listed))

theorem Formed.packageBranch_classIds_eq (id : PackageId) :
    (tree.packageBranch id).classIds = (tree.packagesUnder id).flatMap tree.classesIn := by
  induction id using formed.package_induction with
  | step id ih =>
    rw [formed.packageBranch_classIds, formed.packagesUnder_eq, List.flatMap_cons, List.flatMap_assoc,
      List.flatMap_congr ih]

theorem Formed.classIds_tree : Sources.Target.tree.classIds tree = tree.listClasses := by
  rw [formed.listClasses_eq, formed.listPackages_eq, Sources.Target.classIds, PackageBranch.listClassIds_eq, forest,
    List.flatMap_map, List.flatMap_assoc, List.flatMap_congr fun id _ => formed.packageBranch_classIds_eq id]

end

end NameTree

end ClearNames
