import ClearNames.Proofs.Sources.Matching
import ClearNames.Proofs.Sources.Targets
import Mathlib.Data.Set.Card

/-! A search for sources does what its specification says.

Each class under the target with a path whose components end in those of its
source file is given the last such path, and counted. Nothing else changes, so
that the specification determines the tree and the number, and a second search
finds the same again.
-/

set_option autoImplicit false

namespace ClearNames

namespace NameTree

theorem eq_of_javaClass_eq {tree other : NameTree} (packages : tree.packages = other.packages)
    (methods : tree.methods = other.methods) (roots : tree.roots = other.roots)
    (size : tree.classes.size = other.classes.size) (same : ∀ id, tree.javaClass id = other.javaClass id) :
    tree = other := by
  have classes : tree.classes = other.classes := by
    refine Array.ext size fun index within withinOther => ?_
    simpa [javaClass, within, withinOther] using same ⟨index⟩
  cases tree
  cases other
  simp_all

end NameTree

namespace Sources
open NameTree

/-- The path of the file that a class is expected in, below a source root. -/
def expectedFile (tree : NameTree) (id : ClassId) : String := slashed (tree.sourceFile id)

/-- What a search for the classes of a target among some paths comes to. -/
structure Specified (tree : NameTree) (target : Target) (paths : List String) (later : NameTree) (count : Nat) :
    Prop where
  found : ∀ {id path}, target.Covers tree (.javaClass id) → LastAligned (expectedFile tree id) paths path →
    later.javaClass id = { tree.javaClass id with path := some path }
  missing : ∀ {id}, (∀ path ∈ paths, ¬ Aligned (expectedFile tree id) path) → later.javaClass id = tree.javaClass id
  outside : ∀ {id}, ¬ target.Covers tree (.javaClass id) → later.javaClass id = tree.javaClass id
  packages : later.packages = tree.packages
  methods : later.methods = tree.methods
  roots : later.roots = tree.roots
  classes : later.classes.size = tree.classes.size
  count : (count : ℕ∞) =
    {id | target.Covers tree (.javaClass id) ∧ ∃ path ∈ paths, Aligned (expectedFile tree id) path}.encard

theorem encard_eq_countP {α : Type} {items : List α} (distinct : items.Nodup) (holds : α → Bool) {set : Set α}
    (members : ∀ item, item ∈ set ↔ item ∈ items ∧ holds item) : set.encard = items.countP holds := by
  classical
  have listed : set = (items.filter holds).toFinset := by
    ext item
    rw [members, List.coe_toFinset, Set.mem_ofPred_eq, List.mem_filter]
  rw [listed, Set.encard_coe_eq_coe_finsetCard, List.toFinset_card_of_nodup (distinct.filter holds),
    List.countP_eq_length_filter]

theorem exists_aligned_iff {file : String} {paths : List String} :
    (lastMatch file paths).isSome ↔ ∃ path ∈ paths, Aligned file path := by
  rw [← not_iff_not, Bool.not_eq_true, Option.isSome_eq_false_iff, Option.isNone_iff_eq_none, lastMatch_eq_none_iff]
  push Not
  rfl

theorem lastAligned_or_missing (file : String) (paths : List String) :
    (∃ path, LastAligned file paths path) ∨ ∀ path ∈ paths, ¬ Aligned file path := by
  cases match_ : lastMatch file paths with
  | none => exact .inr (lastMatch_eq_none_iff.mp match_)
  | some path => exact .inl ⟨path, lastMatch_eq_some_iff.mp match_⟩

section
variable {tree : NameTree} {target : Target} {paths : List String}

/-- The specification leaves no choice. -/
theorem Specified.unique {later other : NameTree} {count number : Nat}
    (specified : Specified tree target paths later count) (again : Specified tree target paths other number) :
    later = other ∧ count = number := by
  refine ⟨eq_of_javaClass_eq (specified.packages.trans again.packages.symm)
    (specified.methods.trans again.methods.symm) (specified.roots.trans again.roots.symm)
    (specified.classes.trans again.classes.symm) fun id => ?_, ?_⟩
  · by_cases covered : target.Covers tree (.javaClass id)
    · rcases lastAligned_or_missing (expectedFile tree id) paths with ⟨path, last⟩ | missing
      · rw [specified.found covered last, again.found covered last]
      · rw [specified.missing missing, again.missing missing]
    · rw [specified.outside covered, again.outside covered]
  · exact ENat.natCast_inj.mp (specified.count.trans again.count.symm)

theorem encard_aligned (formed : tree.Formed) (paths : List String) :
    {id | target.Covers tree (.javaClass id) ∧ ∃ path ∈ paths, Aligned (expectedFile tree id) path}.encard =
      (target.classIds tree).countP fun id => (lastMatch (expectedFile tree id) paths).isSome := by
  refine encard_eq_countP (nodup_classIds formed) _ fun id => ?_
  rw [mem_classIds formed, Set.mem_ofPred_eq]
  exact and_congr_right fun _ => exists_aligned_iff.symm

section
variable {state : NameTree × Nat} {index : Std.HashMap String (List String)}

theorem foldl_assign_frame (ids : List ClassId) :
    (ids.foldl (assign index) state).1.packages = state.1.packages ∧
      (ids.foldl (assign index) state).1.methods = state.1.methods ∧
      (ids.foldl (assign index) state).1.roots = state.1.roots := by
  induction ids generalizing state with
  | nil => exact ⟨rfl, rfl, rfl⟩
  | cons id rest ih =>
    obtain ⟨packages, methods, roots⟩ := @ih (assign index state id)
    cases found : lookUp index (slashed (state.1.sourceFile id)) with
    | none =>
      rw [assign_of_none found] at packages methods roots
      rw [List.foldl_cons, assign_of_none found]
      exact ⟨packages, methods, roots⟩
    | some path =>
      rw [assign_of_some found] at packages methods roots
      rw [List.foldl_cons, assign_of_some found]
      exact ⟨packages, methods, roots⟩

end

section
variable (formed : tree.Formed) (held : target.Held tree)
include formed held

theorem hasClass_of_mem_classIds : ∀ id ∈ target.classIds tree, tree.HasClass id :=
  fun _ listed => held.hasClass formed ((mem_classIds formed).mp listed)

theorem alike_assignAll (paths : List String) : tree.Alike (assignAll tree target paths).1 :=
  @foldl_assign_alike _ (tree, 0) _ (hasClass_of_mem_classIds formed held)

theorem assignAll_specified (paths : List String) :
    Specified tree target paths (assignAll tree target paths).1 (assignAll tree target paths).2 := by
  have known := hasClass_of_mem_classIds formed held
  have outside {id : ClassId} (apart : ¬ target.Covers tree (.javaClass id)) :
      (assignAll tree target paths).1.javaClass id = tree.javaClass id :=
    @foldl_assign_apart _ (tree, 0) _ known id fun listed => apart ((mem_classIds formed).mp listed)
  have inside {id : ClassId} (covered : target.Covers tree (.javaClass id)) :
      (assignAll tree target paths).1.javaClass id =
        { tree.javaClass id with path := (lastMatch (expectedFile tree id) paths).or (tree.javaClass id).path } := by
    rw [← lookUp_indexByName]
    exact @foldl_assign_member _ (tree, 0) _ (nodup_classIds formed) known id ((mem_classIds formed).mpr covered)
  obtain ⟨packages, methods, roots⟩ : (assignAll tree target paths).1.packages = tree.packages ∧
      (assignAll tree target paths).1.methods = tree.methods ∧ (assignAll tree target paths).1.roots = tree.roots :=
    @foldl_assign_frame (tree, 0) _ _
  have classes : (assignAll tree target paths).1.classes.size = tree.classes.size :=
    eq_of_lt_iff fun index => @(alike_assignAll formed held paths).hasClass ⟨index⟩
  have total := @foldl_assign_count (indexByName paths) (tree, 0) _ known
  refine ⟨fun covered last => ?_, fun {id} missing => ?_, outside, packages, methods, roots, classes, ?_⟩
  · rw [inside covered, lastMatch_eq_some_iff.mpr last]
    rfl
  · by_cases covered : target.Covers tree (.javaClass id)
    · have none : lastMatch (expectedFile tree id) paths = none := lastMatch_eq_none_iff.mpr missing
      rw [inside covered, none]
      rfl
    · exact outside covered
  · rw [assignAll, total, Nat.zero_add, encard_aligned formed]
    simp only [lookUp_indexByName, expectedFile]

end

/-- What another search of the same target among the same paths has to do to a tree in which one was made. -/
theorem Specified.again {later other : NameTree} {count number : Nat} (alike : tree.Alike later)
    (specified : Specified tree target paths later count) (again : Specified later target paths other number) :
    Specified tree target paths other number := by
  have covers (node : Scope) : target.Covers later node ↔ target.Covers tree node :=
    ⟨fun covered => covered.alike alike.symm, fun covered => covered.alike alike⟩
  have expected (id : ClassId) : expectedFile later id = expectedFile tree id := by
    rw [expectedFile, expectedFile, alike.sourceFile]
  refine ⟨fun {id path} covered last => ?_, fun {id} missing => ?_, fun {id} apart => ?_,
    again.packages.trans specified.packages, again.methods.trans specified.methods,
    again.roots.trans specified.roots, again.classes.trans specified.classes, ?_⟩
  · rw [again.found ((covers _).mpr covered) (expected id ▸ last), specified.found covered last]
  · rw [again.missing (by simpa only [expected] using missing), specified.missing missing]
  · rw [again.outside ((covers _).not.mpr apart), specified.outside apart]
  · simpa only [covers, expected] using again.count

end

section
variable {tree : NameTree} (formed : tree.Formed) {target : Target} (held : target.Held tree) {disk : Disk}
  {directory : String} {paths : List String} (listed : disk.sourceFiles directory = .ok paths)
include formed held listed

theorem locate_meets_specification : ∃ found, locate disk directory tree target = .ok found ∧
    Specified tree target paths found.tree found.count := by
  obtain ⟨found, ran⟩ : ∃ found, locate disk directory tree target = .ok found := by
    unfold locate
    rw [listed]
    exact ⟨_, rfl⟩
  obtain ⟨_, same, assigned⟩ := locate_eq_ok ran
  cases listed.symm.trans same
  have specified := assignAll_specified formed held paths
  rw [assigned] at specified
  exact ⟨found, ran, specified⟩

/-- A search among the files of a directory gives each class under the target the
last path that ends in the components of its source file, changes nothing else,
and counts these classes. A second search finds the same, and the index by file
name gives what a scan of all paths gives. -/
theorem locate_specified : ∃ found, locate disk directory tree target = .ok found ∧
    Specified tree target paths found.tree found.count ∧
    locate disk directory found.tree target = .ok found ∧
    ∀ file, lookUp (indexByName paths) file = lastMatch file paths := by
  obtain ⟨found, ran, specified⟩ := locate_meets_specification formed held listed
  obtain ⟨_, same, assigned⟩ := locate_eq_ok ran
  cases listed.symm.trans same
  have alike := alike_assignAll formed held paths
  have after := (assignAll_altered tree target paths).formed formed
  rw [assigned] at alike after
  have again := specified.again alike (assignAll_specified after (held.alike alike) paths)
  have settled : assignAll found.tree target paths = assignAll tree target paths := by
    obtain ⟨sameTree, sameCount⟩ := again.unique specified
    rw [assigned]
    exact Prod.ext sameTree sameCount
  refine ⟨found, ran, specified, ?_, lookUp_indexByName paths⟩
  rw [← ran]
  simp only [locate, listed, bind, Except.bind, settled]

end

/-! ## A shop -/

/-- Two copies of one source file, and a file whose name ends like that of the other. -/
def shopDisk : Disk := ⟨.directory [("src", .directory [
  ("b", .directory [("shop", .directory [("Cart.java", .file .empty)])]),
  ("a", .directory [("shop", .directory [("Cart.java", .file .empty), ("OldTill.java", .file .empty)])])])], "/"⟩

theorem sourceFiles_shop :
    shopDisk.sourceFiles "/src" = .ok ["a/shop/Cart.java", "a/shop/OldTill.java", "b/shop/Cart.java"] := by
  have path : Path.absolute shopDisk.workingDirectory "/src" = "/src" := by decide +kernel
  have sources : shopDisk.locate "/src" = .ok (["src"], .directory [
      ("b", .directory [("shop", .directory [("Cart.java", .file .empty)])]),
      ("a", .directory [("shop", .directory [("Cart.java", .file .empty), ("OldTill.java", .file .empty)])])]) := rfl
  unfold Disk.sourceFiles
  dsimp only
  rw [path, sources]
  simp [DiskEntry.sourceFiles, DiskEntry.listings, isHidden, List.mergeSort]

def shopTree : NameTree :=
  Operation.after (Operation.after .empty (.request (.scope "shop.Cart.Lid"))) (.request (.scope "shop.Till"))

theorem reachable_shop : shopTree.Reachable := by
  unfold shopTree
  exact .after (.after .empty trivial) trivial

theorem locate_specified_shop :
    shopTree.Formed ∧ (Target.scope (.package ⟨0⟩)).Held shopTree ∧
      ∃ found, locate shopDisk "/src" shopTree (.scope (.package ⟨0⟩)) = .ok found ∧
        (found.tree.javaClass ⟨0⟩).path = some "b/shop/Cart.java" ∧
        (found.tree.javaClass ⟨1⟩).path = some "b/shop/Cart.java" ∧
        (found.tree.javaClass ⟨2⟩).path = none ∧ found.count = 2 := by
  have formed := reachable_shop.formed
  have held : (Target.scope (.package ⟨0⟩)).Held shopTree := by
    show 0 < shopTree.packages.size
    decide +kernel
  have outer : shopTree.Contains (.package ⟨0⟩) (.javaClass ⟨0⟩) := .javaClass .self (by decide +kernel)
  have inner : shopTree.Contains (.package ⟨0⟩) (.javaClass ⟨1⟩) := .javaClass outer (by decide +kernel)
  -- The second copy comes last, for the inner class as for the outer one.
  have last : ∀ id ∈ [⟨0⟩, ⟨1⟩], lastMatch (expectedFile shopTree id)
      ["a/shop/Cart.java", "a/shop/OldTill.java", "b/shop/Cart.java"] = some "b/shop/Cart.java" := by decide +kernel
  obtain ⟨found, ran, specified, -, -⟩ := locate_specified formed held sourceFiles_shop
  refine ⟨formed, held, found, ran, ?_, ?_, ?_, ?_⟩
  · rw [specified.found outer (lastMatch_eq_some_iff.mp (last _ (by simp)))]
  · rw [specified.found inner (lastMatch_eq_some_iff.mp (last _ (by simp)))]
  · rw [specified.missing (lastMatch_eq_none_iff.mp (by decide +kernel))]
    decide +kernel
  · have count := specified.count
    rw [encard_aligned formed] at count
    exact (ENat.natCast_inj.mp count).trans (by decide +kernel)

end Sources

end ClearNames
