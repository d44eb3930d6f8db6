import ClearNames.Proofs.NameTree.Flattening

/-! What is located is counted right.

Giving a class its path leaves all tables, so that the listings stay the same.
Each class of a target is taken up once, and where no class had a path before,
the number of located classes is that of the classes with a path.
-/

set_option autoImplicit false

namespace ClearNames

namespace NameTree
variable {tree between later : NameTree}

/-! ## Trees alike -/

theorem Alike.refl (tree : NameTree) : tree.Alike tree :=
  ⟨Iff.rfl, Iff.rfl, Iff.rfl, fun _ => rfl, fun _ => rfl, fun _ => rfl, rfl, fun _ => rfl, fun _ => rfl, fun _ => rfl⟩

theorem Alike.trans (first : tree.Alike between) (second : between.Alike later) : tree.Alike later where
  hasPackage := second.hasPackage.trans first.hasPackage
  hasClass := second.hasClass.trans first.hasClass
  hasMethod := second.hasMethod.trans first.hasMethod
  package id := (second.package id).trans (first.package id)
  javaClass id := (second.javaClass id).trans (first.javaClass id)
  method id := (second.method id).trans (first.method id)
  roots := second.roots.trans first.roots
  children parent := (second.children parent).trans (first.children parent)
  classesOf owner := (second.classesOf owner).trans (first.classesOf owner)
  methods owner := (second.methods owner).trans (first.methods owner)

theorem eq_of_lt_iff {size other : Nat} (same : ∀ index, index < size ↔ index < other) : size = other :=
  Nat.le_antisymm (Nat.le_of_not_lt fun less => Nat.lt_irrefl _ ((same other).mp less))
    (Nat.le_of_not_lt fun less => Nat.lt_irrefl _ ((same size).mpr less))

theorem Alike.takePackages (alike : tree.Alike later) (steps : Nat) (waiting : List PackageId) :
    later.takePackages steps waiting = tree.takePackages steps waiting := by
  induction steps generalizing waiting with
  | zero => rfl
  | succ steps ih =>
    cases waiting with
    | nil => rfl
    | cons id waiting => rw [NameTree.takePackages, NameTree.takePackages, ih, alike.children]

theorem Alike.takeClasses (alike : tree.Alike later) (steps : Nat) (waiting : List ClassId) :
    later.takeClasses steps waiting = tree.takeClasses steps waiting := by
  induction steps generalizing waiting with
  | zero => rfl
  | succ steps ih =>
    cases waiting with
    | nil => rfl
    | cons id waiting =>
      have same : (later.javaClass id).classes = (tree.javaClass id).classes := alike.classesOf (.javaClass id)
      rw [NameTree.takeClasses, NameTree.takeClasses, ih, same]

/-- Where a class is expected is fixed when it is made. -/
theorem Alike.sourceFile (alike : tree.Alike later) (id : ClassId) : later.sourceFile id = tree.sourceFile id := by
  have node := alike.javaClass id
  have package := alike.package (tree.javaClass id).package
  simp only [ClassNode.fixed, PackageNode.fixed, Prod.mk.injEq] at node package
  simp only [NameTree.sourceFile, packageDirectory, packageSegments, node, package]

theorem Alike.listClasses (alike : tree.Alike later) : later.listClasses = tree.listClasses := by
  have packages : later.packages.size = tree.packages.size := eq_of_lt_iff fun index => @alike.hasPackage ⟨index⟩
  have classes : later.classes.size = tree.classes.size := eq_of_lt_iff fun index => @alike.hasClass ⟨index⟩
  have listed : later.listPackages = tree.listPackages := by
    rw [listPackages, listPackages, packages, alike.roots, alike.takePackages]
  rw [NameTree.listClasses, NameTree.listClasses, listed]
  refine List.flatMap_congr fun id _ => ?_
  have same : (later.package id).classes = (tree.package id).classes := alike.classesOf (.package id)
  rw [classes, same, alike.takeClasses]

end NameTree

namespace Sources
open NameTree
variable {index : Std.HashMap String (List String)} {state : NameTree × Nat}

theorem getD_indexByName (paths : List String) (name : String) :
    (indexByName paths).getD name [] = paths.filter fun path => Path.fileName path = name := by
  induction paths with
  | nil => exact Std.HashMap.getD_empty
  | cons path rest ih =>
    rw [indexByName, List.foldr_cons, ← indexByName]
    dsimp only
    rw [Std.HashMap.getD_insert, List.filter_cons]
    by_cases same : Path.fileName path = name
    · subst same
      simp [ih]
    · simp [ih, same]

/-! ## Taking up classes -/

theorem assign_of_none {id : ClassId} (missing : lookUp index (slashed (state.1.sourceFile id)) = none) :
    assign index state id = state := by
  simp only [assign, missing]

theorem assign_of_some {id : ClassId} {path : String}
    (found : lookUp index (slashed (state.1.sourceFile id)) = some path) :
    assign index state id = (state.1.updateClass id fun node => { node with path := some path }, state.2 + 1) := by
  simp only [assign, found]

section
variable {id : ClassId} (known : state.1.HasClass id)
include known

theorem assign_alike : state.1.Alike (assign index state id).1 := by
  cases found : lookUp index (slashed (state.1.sourceFile id)) with
  | none => rw [assign_of_none found]; exact .refl _
  | some path => rw [assign_of_some found]; exact alike_updateClass known fun _ => rfl

theorem assign_apart (other : ClassId) (apart : other ≠ id) :
    (assign index state id).1.javaClass other = state.1.javaClass other := by
  cases found : lookUp index (slashed (state.1.sourceFile id)) with
  | none => rw [assign_of_none found]
  | some path => simp only [assign_of_some found, javaClass_updateClass known, if_neg apart]

theorem assign_self : (assign index state id).1.javaClass id =
    { state.1.javaClass id with
      path := (lookUp index (slashed (state.1.sourceFile id))).or (state.1.javaClass id).path } := by
  cases found : lookUp index (slashed (state.1.sourceFile id)) with
  | none => rw [assign_of_none found]; rfl
  | some path => simp [assign_of_some found, javaClass_updateClass known]

end

theorem assign_count (id : ClassId) : (assign index state id).2 =
    state.2 + if (lookUp index (slashed (state.1.sourceFile id))).isSome then 1 else 0 := by
  cases found : lookUp index (slashed (state.1.sourceFile id)) with
  | none => simp [assign_of_none found]
  | some path => simp [assign_of_some found]

section
variable {ids : List ClassId}

theorem foldl_assign_alike (known : ∀ id ∈ ids, state.1.HasClass id) :
    state.1.Alike (ids.foldl (assign index) state).1 := by
  induction ids generalizing state with
  | nil => exact .refl _
  | cons id rest ih =>
    obtain ⟨first, others⟩ := List.forall_mem_cons.mp known
    have alike : state.1.Alike (assign index state id).1 := assign_alike first
    exact alike.trans (ih fun other member => alike.hasClass.mpr (others other member))

theorem foldl_assign_apart (known : ∀ id ∈ ids, state.1.HasClass id) {other : ClassId} (apart : other ∉ ids) :
    (ids.foldl (assign index) state).1.javaClass other = state.1.javaClass other := by
  induction ids generalizing state with
  | nil => rfl
  | cons id rest ih =>
    obtain ⟨first, others⟩ := List.forall_mem_cons.mp known
    rw [List.mem_cons, not_or] at apart
    have alike : state.1.Alike (assign index state id).1 := assign_alike first
    rw [List.foldl_cons, ih (fun other member => alike.hasClass.mpr (others other member)) apart.2,
      assign_apart first other apart.1]

theorem foldl_assign_member (distinct : ids.Nodup) (known : ∀ id ∈ ids, state.1.HasClass id) {id : ClassId}
    (member : id ∈ ids) : (ids.foldl (assign index) state).1.javaClass id =
      { state.1.javaClass id with
        path := (lookUp index (slashed (state.1.sourceFile id))).or (state.1.javaClass id).path } := by
  induction ids generalizing state with
  | nil => cases member
  | cons first rest ih =>
    obtain ⟨fresh, distinct⟩ := List.nodup_cons.mp distinct
    obtain ⟨knownFirst, knownRest⟩ := List.forall_mem_cons.mp known
    have alike : state.1.Alike (assign index state first).1 := assign_alike knownFirst
    have knownNext : ∀ other ∈ rest, (assign index state first).1.HasClass other :=
      fun other member => alike.hasClass.mpr (knownRest other member)
    rw [List.foldl_cons]
    rcases List.mem_cons.mp member with rfl | later
    · rw [foldl_assign_apart knownNext fresh, assign_self knownFirst]
    · have apart : id ≠ first := fun same => fresh (same ▸ later)
      rw [ih distinct knownNext later, alike.sourceFile, assign_apart knownFirst id apart]

theorem foldl_assign_count (known : ∀ id ∈ ids, state.1.HasClass id) :
    (ids.foldl (assign index) state).2 =
      state.2 + ids.countP fun id => (lookUp index (slashed (state.1.sourceFile id))).isSome := by
  induction ids generalizing state with
  | nil => rfl
  | cons id rest ih =>
    obtain ⟨first, others⟩ := List.forall_mem_cons.mp known
    have alike : state.1.Alike (assign index state id).1 := assign_alike first
    rw [List.foldl_cons, ih fun other member => alike.hasClass.mpr (others other member), assign_count, List.countP_cons]
    simp only [alike.sourceFile]
    omega

end

theorem locate_eq_ok {disk : Disk} {directory : String} {tree : NameTree} {target : Target} {located : Located}
    (found : locate disk directory tree target = .ok located) :
    ∃ paths, disk.sourceFiles directory = .ok paths ∧ assignAll tree target paths = (located.tree, located.count) := by
  unfold locate at found
  cases listed : disk.sourceFiles directory with
  | error fault =>
    rw [listed] at found
    cases found
  | ok paths =>
    rw [listed] at found
    cases found
    exact ⟨paths, rfl, rfl⟩

theorem assignAll_alike {tree : NameTree} (formed : tree.Formed) (paths : List String) :
    tree.Alike (assignAll tree .tree paths).1 := by
  have known : ∀ id ∈ Target.tree.classIds tree, tree.HasClass id := by
    intro id listed
    rw [formed.classIds_tree] at listed
    exact formed.hasScope_of_rooted (formed.mem_listClasses.mp listed)
  exact @foldl_assign_alike (indexByName paths) (tree, 0) _ known

/-- Where no class had a path before, as many are located as there are class objects with a path. -/
theorem assignAll_count {tree : NameTree} (formed : tree.Formed) (bare : ∀ id, (tree.javaClass id).path = none)
    (paths : List String) :
    (assignAll tree .tree paths).2 =
      (assignAll tree .tree paths).1.document.classObjects.countP (Json.holds "path") := by
  have known : ∀ id ∈ tree.listClasses, tree.HasClass id :=
    fun id listed => formed.hasScope_of_rooted (formed.mem_listClasses.mp listed)
  have after : (assignAll tree .tree paths).1.Formed := (assignAll_altered tree .tree paths).formed formed
  rw [after.classObjects_document, (assignAll_alike formed paths).listClasses, List.countP_map]
  rw [assignAll, formed.classIds_tree] at after ⊢
  rw [foldl_assign_count known, Nat.zero_add]
  refine List.countP_congr fun id listed => ?_
  rw [Function.comp_apply, after.holds_path, foldl_assign_member formed.nodup_listClasses known listed, bare id,
    Option.or_none]

end Sources

end ClearNames
