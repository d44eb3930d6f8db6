import ClearNames.Proofs.Sources.Specification

/-! Which file an inner class is located in.

A class inside another is expected where the other is. A class of a package is
expected in a file of its own, also where its name is that of another class, a
dollar sign and more, which is how logs spell inner classes: it is not given
the file of the class whose name its own begins with.
-/

set_option autoImplicit false

namespace ClearNames

namespace NameTree
variable {tree : NameTree}

/-- The classes inside a class share its source file, at any depth. -/
theorem Formed.sourceFile_of_contains (formed : tree.Formed) {outer inner : ClassId}
    (inside : tree.Contains (.javaClass outer) (.javaClass inner)) : tree.sourceFile inner = tree.sourceFile outer := by
  have listed := formed.mem_classesUnder.mpr inside
  clear inside
  induction outer using formed.class_induction with
  | step outer ih =>
    rw [formed.classesUnder_eq, List.mem_cons, List.mem_flatMap] at listed
    rcases listed with rfl | ⟨middle, owned, under⟩
    · rfl
    · obtain ⟨there, place⟩ := formed.innerAt (show middle ∈ (tree.classesOf (.javaClass outer)).values from owned)
      have founded := formed.founded.javaClass there
      rw [ClassFounded, place] at founded
      have shared : tree.sourceFile middle = tree.sourceFile outer := by
        simp only [sourceFile, founded.2.1, founded.2.2]
        cases (tree.javaClass outer).outer <;> rfl
      exact (ih middle owned under).trans shared

theorem Formed.sourceFile_of_owned (formed : tree.Formed) {place : PackageId} {id : ClassId}
    (owned : id ∈ (tree.package place).classes.values) :
    tree.sourceFile id = tree.packageSegments place ++ [(tree.javaClass id).name ++ ".java"] := by
  obtain ⟨there, owner⟩ := formed.innerAt (show id ∈ (tree.classesOf (.package place)).values from owned)
  have founded := formed.founded.javaClass there
  rw [ClassFounded, owner] at founded
  simp only [sourceFile, packageDirectory, founded.2.1, founded.2.2]
  rfl

end NameTree

namespace Path
open NameTree

theorem fileName_slashed (directories : List String) {name : String} (plain : '/' ∉ name.toList) :
    fileName (slashed (directories ++ [name])) = name := by
  have whole : split name = [name] := by
    rw [split, Text.pieces, Text.splitAt_of_not_mem plain, List.map_singleton, String.ofList_toList]
  cases directories with
  | nil =>
    rw [slashed, List.nil_append, String.intercalate_singleton, fileName, whole]
    rfl
  | cons first rest =>
    have joined : slashed (first :: rest ++ [name]) = slashed (first :: rest) ++ "/" ++ name := by
      rw [slashed, String.intercalate_append_of_ne_nil (by simp) (by simp), String.intercalate_singleton]
      rfl
    have ends : split name <:+ split (slashed (first :: rest) ++ "/" ++ name) := by
      rw [split_isSuffix_iff, Text.splitAt_isSuffix_iff]
      exact .inr ⟨(slashed (first :: rest)).toList, by simp⟩
    rw [joined, fileName_eq_of_isSuffix ends, fileName, whole]
    rfl

end Path

namespace Sources
open NameTree

section
variable {tree : NameTree} (formed : tree.Formed) {disk : Disk} {directory : String} {paths : List String}
  (listed : disk.sourceFiles directory = .ok paths) {found : Located}
  (ran : locate disk directory tree .tree = .ok found)
include formed listed ran

/-- Where a class of a package is given a file, all classes inside it are given
that file. Another class of the package is given the last file for its own name,
and keeps the path it had if there is none; if its name is that of the first
class, a dollar sign and more, this is never the file of the first class. -/
theorem locate_inner {place : PackageId} (known : place ∈ tree.listPackages) {outer : ClassId}
    (owned : outer ∈ (tree.package place).classes.values) {path : String}
    (given : LastAligned (expectedFile tree outer) paths path) :
    (∀ inner, tree.Contains (.javaClass outer) (.javaClass inner) → (found.tree.javaClass inner).path = some path) ∧
      ∀ sibling ∈ (tree.package place).classes.values,
        expectedFile tree sibling = slashed (tree.packageSegments place ++ [(tree.javaClass sibling).name ++ ".java"]) ∧
        (∀ other, LastAligned (expectedFile tree sibling) paths other →
          (found.tree.javaClass sibling).path = some other) ∧
        ((∀ other ∈ paths, ¬ Aligned (expectedFile tree sibling) other) →
          (found.tree.javaClass sibling).path = (tree.javaClass sibling).path) ∧
        ∀ rest, (tree.javaClass sibling).name = (tree.javaClass outer).name ++ "$" ++ rest →
          '/' ∉ (tree.javaClass sibling).name.toList → ¬ Aligned (expectedFile tree sibling) path := by
  obtain ⟨_, again, specified⟩ := locate_meets_specification formed (show Target.tree.Held tree from trivial) listed
  cases ran.symm.trans again
  have covered {id : ClassId} (listed : id ∈ (tree.package place).classes.values) :
      Target.tree.Covers tree (.javaClass id) := by
    rw [formed.listPackages_eq] at known
    obtain ⟨root, entered, under⟩ := List.mem_flatMap.mp known
    exact ⟨root, entered, .javaClass (formed.mem_packagesUnder.mp under) listed⟩
  refine ⟨fun inner inside => ?_, fun sibling beside => ⟨?_, fun other last => ?_, fun none => ?_, ?_⟩⟩
  · have same : expectedFile tree inner = expectedFile tree outer := by
      rw [expectedFile, expectedFile, formed.sourceFile_of_contains inside]
    have covers : Target.tree.Covers tree (.javaClass inner) := by
      obtain ⟨root, entered, above⟩ := covered owned
      exact ⟨root, entered, above.trans inside⟩
    rw [specified.found covers (same ▸ given)]
  · rw [expectedFile, formed.sourceFile_of_owned beside]
  · rw [specified.found (covered beside) last]
  · rw [specified.missing none]
  · intro rest spelled plain aligned
    have plainFile : '/' ∉ ((tree.javaClass sibling).name ++ ".java").toList := by
      simpa using plain
    have plainOuter : '/' ∉ ((tree.javaClass outer).name ++ ".java").toList := by
      rw [spelled] at plain
      simp_all
    -- The names of both files would be that of the path, but the one of the sibling is longer.
    have names := (Path.fileName_eq_of_isSuffix aligned).symm.trans (Path.fileName_eq_of_isSuffix given.aligned)
    rw [expectedFile, expectedFile, formed.sourceFile_of_owned beside, formed.sourceFile_of_owned owned,
      Path.fileName_slashed _ plainFile, Path.fileName_slashed _ plainOuter, spelled] at names
    have lengths := congrArg String.length names
    simp only [String.length_append] at lengths
    have dollar : "$".length = 1 := rfl
    omega

end

/-! ## An inner class in both spellings -/

/-- A class, a class inside it, and a class beside it that a log spells as inside it. -/
def lidTree : NameTree :=
  Operation.after (Operation.after .empty (.request (.scope "shop.Cart.Lid"))) (.request (.scope "shop.Cart$Lid"))

theorem reachable_lid : lidTree.Reachable := by
  unfold lidTree
  exact .after (.after .empty trivial) trivial

theorem lastMatch_cart : lastMatch (expectedFile lidTree ⟨0⟩)
    ["a/shop/Cart.java", "a/shop/OldTill.java", "b/shop/Cart.java"] = some "b/shop/Cart.java" := by decide +kernel

theorem locate_inner_lid :
    lidTree.Formed ∧ shopDisk.sourceFiles "/src" = .ok ["a/shop/Cart.java", "a/shop/OldTill.java", "b/shop/Cart.java"] ∧
      ∃ found, locate shopDisk "/src" lidTree .tree = .ok found ∧
        (found.tree.javaClass ⟨0⟩).path = some "b/shop/Cart.java" ∧
        (found.tree.javaClass ⟨1⟩).path = some "b/shop/Cart.java" ∧
        ¬ Aligned (expectedFile lidTree ⟨2⟩) "b/shop/Cart.java" := by
  have formed := reachable_lid.formed
  obtain ⟨found, ran, -⟩ :=
    locate_meets_specification formed (show Target.tree.Held lidTree from trivial) sourceFiles_shop
  have known : ⟨0⟩ ∈ lidTree.listPackages := by decide +kernel
  have owned : ⟨0⟩ ∈ (lidTree.package ⟨0⟩).classes.values := by decide +kernel
  obtain ⟨nested, beside⟩ :=
    locate_inner formed sourceFiles_shop ran known owned (lastMatch_eq_some_iff.mp lastMatch_cart)
  have inner : lidTree.Contains (.javaClass ⟨0⟩) (.javaClass ⟨1⟩) := .javaClass .self (by decide +kernel)
  obtain ⟨-, -, -, apart⟩ := beside ⟨2⟩ (by decide +kernel)
  exact ⟨formed, sourceFiles_shop, found, ran, nested ⟨0⟩ .self, nested ⟨1⟩ inner,
    apart "Lid" (by decide +kernel) (by decide +kernel)⟩

/-- The class beside is not given the file of the class whose name its own begins with. -/
theorem locate_misses_dollarLid :
    lidTree.Reachable ∧ ∃ found, locate shopDisk "/src" lidTree .tree = .ok found ∧
      (lidTree.javaClass ⟨0⟩).name = "Cart" ∧ (found.tree.javaClass ⟨0⟩).path = some "b/shop/Cart.java" ∧
      (lidTree.javaClass ⟨2⟩).name = "Cart$Lid" ∧ (lidTree.javaClass ⟨2⟩).owner = (lidTree.javaClass ⟨0⟩).owner ∧
      (found.tree.javaClass ⟨2⟩).path = none := by
  obtain ⟨found, ran, specified⟩ :=
    locate_meets_specification reachable_lid.formed (show Target.tree.Held lidTree from trivial) sourceFiles_shop
  have cart : Target.tree.Covers lidTree (.javaClass ⟨0⟩) :=
    ⟨⟨0⟩, by decide +kernel, .javaClass .self (by decide +kernel)⟩
  refine ⟨reachable_lid, found, ran, by decide +kernel, ?_, by decide +kernel, by decide +kernel, ?_⟩
  · rw [specified.found cart (lastMatch_eq_some_iff.mp lastMatch_cart)]
  · rw [specified.missing (lastMatch_eq_none_iff.mp (by decide +kernel))]
    decide +kernel

end Sources

end ClearNames
