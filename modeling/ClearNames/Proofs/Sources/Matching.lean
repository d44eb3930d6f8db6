import ClearNames.Proofs.NameTree.Located

/-! Which listed paths can hold a source file, by components.

A test on the end of the text agrees with a test on the components: the slash
in front of the ending keeps it aligned. The components of a path determine the
path, and a path that ends in the components of a file has the name of the file.
-/

set_option autoImplicit false

namespace ClearNames

namespace Text

theorem splitAt_injective {mark : Char} {text other : List Char} (same : splitAt mark text = splitAt mark other) :
    text = other := by
  rw [← joinWith_splitAt mark text, same, joinWith_splitAt]

theorem endsWith_iff_isSuffix (text ending : List Char) : endsWith text ending ↔ ending <:+ text := by
  rw [endsWith, List.isPrefixOf_iff_prefix, List.reverse_prefix]

/-- A text is another one, or ends in a mark and the other one, exactly if its pieces end in those of the other. -/
theorem splitAt_isSuffix_iff (mark : Char) (text other : List Char) :
    splitAt mark other <:+ splitAt mark text ↔ text = other ∨ mark :: other <:+ text := by
  constructor
  · rintro ⟨before, aligned⟩
    cases before with
    | nil => exact .inl (splitAt_injective aligned).symm
    | cons first more =>
      have free : ∀ piece ∈ first :: more, mark ∉ piece := fun piece member =>
        not_mem_of_mem_splitAt (aligned ▸ List.mem_append_left _ member)
      refine .inr ⟨joinWith mark (first :: more), @splitAt_injective mark _ _ ?_⟩
      rw [splitAt_append_cons, splitAt_joinWith (List.cons_ne_nil first more) free, aligned]
  · rintro (rfl | ⟨front, rfl⟩)
    · exact List.suffix_refl _
    · exact ⟨splitAt mark front, (splitAt_append_cons mark front other).symm⟩

end Text

namespace Path

theorem split_isSuffix_iff (file path : String) :
    split file <:+ split path ↔ Text.splitAt '/' file.toList <:+ Text.splitAt '/' path.toList := by
  refine ⟨?_, fun suffix => suffix.map String.ofList⟩
  intro suffix
  have chars := suffix.map String.toList
  simpa only [split, Text.pieces, List.map_map, Function.comp_def, String.toList_ofList, List.map_id'] using chars

theorem fileName_eq_of_isSuffix {file path : String} (suffix : split file <:+ split path) :
    fileName path = fileName file := by
  obtain ⟨before, aligned⟩ := suffix
  have pieces : split file ≠ [] := by simp [split, Text.pieces, Text.splitAt_ne_nil]
  rw [fileName, fileName, ← aligned, List.getLastD_eq_getLast?, List.getLastD_eq_getLast?,
    List.getLast?_append_of_ne_nil before pieces]

end Path

namespace Sources

/-- The components of a file are the last ones of a path. -/
def Aligned (file path : String) : Prop := Path.split file <:+ Path.split path

instance (file path : String) : Decidable (Aligned file path) :=
  inferInstanceAs (Decidable (Path.split file <:+ Path.split path))

theorem matchesFile_iff (file path : String) : matchesFile file path ↔ Aligned file path := by
  rw [Aligned, Path.split_isSuffix_iff, Text.splitAt_isSuffix_iff, matchesFile, Bool.or_eq_true, decide_eq_true_iff,
    Text.endsWith_iff_isSuffix, String.toList_inj]

/-- The last of some paths that end in the components of a file. -/
structure LastAligned (file : String) (paths : List String) (path : String) : Prop where
  aligned : Aligned file path
  last : ∃ before after, paths = before ++ path :: after ∧ ∀ later ∈ after, ¬ Aligned file later

theorem lastMatch_eq_some_iff {file : String} {paths : List String} {path : String} :
    lastMatch file paths = some path ↔ LastAligned file paths path := by
  rw [lastMatch, List.find?_eq_some_iff_append, matchesFile_iff]
  constructor
  · rintro ⟨fits, after, before, order, none⟩
    refine ⟨fits, before.reverse, after.reverse, ?_, fun later member => ?_⟩
    · rw [← List.reverse_reverse paths, order]
      simp
    · rw [← matchesFile_iff]
      simpa using none later (List.mem_reverse.mp member)
  · rintro ⟨fits, before, after, rfl, none⟩
    refine ⟨fits, after.reverse, before.reverse, by simp, fun later member => ?_⟩
    have apart := none later (List.mem_reverse.mp member)
    rw [← matchesFile_iff] at apart
    simpa using apart

theorem lastMatch_eq_none_iff {file : String} {paths : List String} :
    lastMatch file paths = none ↔ ∀ path ∈ paths, ¬ Aligned file path := by
  simp [lastMatch, List.find?_eq_none, ← matchesFile_iff]

/-- Only paths with the name of the file can hold it, so that the index loses none. -/
theorem lookUp_indexByName (paths : List String) (file : String) :
    lookUp (indexByName paths) file = lastMatch file paths := by
  rw [lookUp, getD_indexByName, lastMatch, lastMatch, ← List.filter_reverse, List.find?_filter]
  congr 1
  funext path
  refine Bool.eq_iff_iff.mpr ?_
  rw [decide_eq_true_iff, decide_eq_true_iff]
  refine and_iff_right_of_imp fun fits => Path.fileName_eq_of_isSuffix ?_
  exact (matchesFile_iff file path).mp fits

end Sources

end ClearNames
