import ClearNames.Proofs.NameTree.Altering
import ClearNames.Sources

/-! Locating sources marks classes with paths, and does nothing else to a tree. -/

set_option autoImplicit false

namespace ClearNames

namespace NameTree

theorem updateClass_of_not_has {tree : NameTree} {id : ClassId} (unknown : ¬ tree.HasClass id)
    (change : ClassNode → ClassNode) : tree.updateClass id change = tree := by
  have same : tree.classes.modify id.index change = tree.classes := by
    refine Array.ext Array.size_modify fun index _ within => ?_
    have other : id.index ≠ index := by
      rintro rfl
      exact unknown within
    rw [Array.getElem_modify, if_neg other]
  simp only [updateClass, same]

abbrev Marked : NameTree → NameTree → Prop := Relation.ReflTransGen Mark

theorem Marked.altered {tree later : NameTree} (marked : Marked tree later) : Altered tree later :=
  Relation.ReflTransGen.mono (fun _ _ => Alteration.mark) _ _ marked

end NameTree

namespace Sources
open NameTree

theorem assign_marked (index : Std.HashMap String (List String)) (state : NameTree × Nat) (id : ClassId) :
    Marked state.1 (assign index state id).1 := by
  obtain ⟨tree, located⟩ := state
  unfold assign
  dsimp only
  split
  · exact .refl
  · next path _ =>
    -- A target may list an identifier beyond the store; then there is nothing to mark.
    by_cases known : tree.HasClass id
    · exact .single (.javaClass known fun _ => rfl)
    · rw [updateClass_of_not_has known]

theorem assignAll_marked (tree : NameTree) (target : Target) (paths : List String) :
    Marked tree (assignAll tree target paths).1 := by
  have along (ids : List ClassId) (state : NameTree × Nat) :
      Marked state.1 (ids.foldl (assign (indexByName paths)) state).1 := by
    induction ids generalizing state with
    | nil => exact .refl
    | cons id rest ih => exact (assign_marked _ state id).trans (ih _)
  exact along (target.classIds tree) (tree, 0)

theorem assignAll_altered (tree : NameTree) (target : Target) (paths : List String) :
    Altered tree (assignAll tree target paths).1 := (assignAll_marked tree target paths).altered

theorem locate_marked {disk : Disk} {directory : String} {tree : NameTree} {target : Target} {found : Located}
    (located : locate disk directory tree target = .ok found) : Marked tree found.tree := by
  unfold locate at located
  cases listed : disk.sourceFiles directory with
  | error fault =>
    rw [listed] at located
    cases located
  | ok paths =>
    rw [listed] at located
    cases located
    exact assignAll_marked tree target paths

theorem locate_altered {disk : Disk} {directory : String} {tree : NameTree} {target : Target} {found : Located}
    (located : locate disk directory tree target = .ok found) : Altered tree found.tree :=
  (locate_marked located).altered

end Sources

end ClearNames
