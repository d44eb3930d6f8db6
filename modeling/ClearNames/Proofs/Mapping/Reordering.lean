import ClearNames.Proofs.Mapping.Telling

/-! The classes of a mapping may come in any order.

Blocks of different classes are registered unless two of their records clash,
which does not depend on which of the two comes first. The tree is told by the
records in either order, so that what is read differs in the order of siblings
at most.
-/

set_option autoImplicit false

namespace ClearNames

namespace Mapping
open NameTree MappingLine

/-- Two readings both fail, or come to trees of the same nodes up to the order of siblings. -/
inductive SameEnd : Except RenameLogFault NameTree → Except RenameLogFault NameTree → Prop
  | read {left right : NameTree} (same : left.SameUpToOrder right) : SameEnd (.ok left) (.ok right)
  | failed (fault faultThere : RenameLogFault) : SameEnd (.error fault) (.error faultThere)

section
variable {blocks blocksThere : List ClassBlock}

theorem distinct_record (distinct : (blocks.map fun block => block.name.1).Nodup) :
    Distinct (blocks.map ClassBlock.record) := by
  have paths : (blocks.map ClassBlock.record).map ClassRecord.path =
      (blocks.map fun block => block.name.1).map segments := by
    simp [ClassRecord.path, ClassBlock.record, Function.comp_def]
  rw [Distinct, paths]
  exact distinct.map fun _ _ => segments_injective

theorem registerBlocks_perm (distinct : (blocks.map fun block => block.name.1).Nodup) (perm : blocks.Perm blocksThere) :
    SameEnd (Reading.grow (registerBlocks blocks)).result.outcome
      (Reading.grow (registerBlocks blocksThere)).result.outcome := by
  have records := perm.map ClassBlock.record
  have apart := distinct_record distinct
  have apartThere : Distinct (blocksThere.map ClassBlock.record) :=
    (records.map ClassRecord.path).nodup_iff.mp apart
  obtain ⟨accepted, refused⟩ := told_empty.registerBlocks apart .nil
  obtain ⟨acceptedThere, refusedThere⟩ := told_empty.registerBlocks apartThere .nil
  have peaceful := records.pairwise_iff fun {one other} (quiet : ¬ ClassRecord.Clashes one other) clashes =>
    quiet clashes.symm
  simp only [Reading.outcome_eq, Reading.on_grow]
  by_cases quiet : (blocks.map ClassBlock.record).Pairwise fun one other => ¬ one.Clashes other
  · obtain ⟨left, ran, told⟩ := accepted quiet
    obtain ⟨right, ranThere, toldThere⟩ := acceptedThere (peaceful.mp quiet)
    rw [ran, ranThere]
    exact .read ((told.perm apart records).sameUpToOrder toldThere)
  · obtain ⟨fault, left, failed⟩ := refused quiet
    obtain ⟨faultThere, right, failedThere⟩ := refusedThere (mt peaceful.mpr quiet)
    rw [failed, failedThere]
    exact .failed ..

/-- Reading the blocks of different classes in another order fails on both orders or on none, and comes
to the same nodes up to the order of siblings, whatever blank lines and comments stand between the lines. -/
theorem read_reordered (distinct : (blocks.map fun block => block.name.1).Nodup) (perm : blocks.Perm blocksThere)
    {rows rowsThere : List Row} (laid : rows.filterMap Row.content? = blocks.flatMap ClassBlock.entries)
    (laidThere : rowsThere.filterMap Row.content? = blocksThere.flatMap ClassBlock.entries) :
    ((∀ row ∈ rows ++ rowsThere, row.ended.ending ≠ .carriageReturn) →
      SameEnd (readText (String.ofList (printRows rows))).result.outcome
        (readText (String.ofList (printRows rowsThere))).result.outcome) ∧
    ∀ path pathThere, SameEnd (readBytes path (String.ofList (printRows rows)).toUTF8).result.outcome
      (readBytes pathThere (String.ofList (printRows rowsThere)).toUTF8).result.outcome := by
  have registered := registerBlocks_perm distinct perm
  refine ⟨fun fed => ?_, fun path pathThere => ?_⟩
  · rw [readText_printRows laid fun row member => fed row (List.mem_append_left _ member),
      readText_printRows laidThere fun row member => fed row (List.mem_append_right _ member)]
    exact registered
  · rw [readBytes_printRows laid, readBytes_printRows laidThere]
    exact registered

end

def cartBlock : ClassBlock where
  name := ⟨"shop.Cart", by decide⟩
  obfuscated := ⟨"a.a", by decide⟩
  members := [.method {
    range := none
    returns := ⟨"boolean", by decide⟩
    name := ⟨"add", by decide⟩
    arguments := [⟨⟨"shop.Item", by decide⟩, false⟩, ⟨⟨"short", by decide⟩, true⟩]
    obfuscation := ⟨"d", by decide⟩ }]

def itemBlock : ClassBlock where
  name := ⟨"shop.Item", by decide⟩
  obfuscated := ⟨"a.c", by decide⟩
  members := [.field ⟨⟨"long", by decide⟩, ⟨"price", by decide⟩, ⟨"e", by decide⟩⟩]

def rowsOf (blocks : List ClassBlock) : List Row :=
  (blocks.flatMap ClassBlock.entries).map fun entry => .printed entry .lineFeed

def classesRead (outcome : Except RenameLogFault NameTree) : List (List String) :=
  match outcome with
  | .ok tree => tree.listClasses.map tree.classSegments
  | .error _ => []

def cartFirst : String :=
  "shop.Cart -> a.a:\n    boolean add(shop.Item, short) -> d\nshop.Item -> a.c:\n    long price -> e\n"

def itemFirst : String :=
  "shop.Item -> a.c:\n    long price -> e\nshop.Cart -> a.a:\n    boolean add(shop.Item, short) -> d\n"

/-- The cart makes the class of the item where it comes first, and finds it made where it comes last. -/
theorem read_reordered_cart :
    ([cartBlock, itemBlock].map fun block => block.name.1).Nodup ∧ [cartBlock, itemBlock].Perm [itemBlock, cartBlock] ∧
      ((rowsOf [cartBlock, itemBlock]).filterMap Row.content? = [cartBlock, itemBlock].flatMap ClassBlock.entries) ∧
      ((rowsOf [itemBlock, cartBlock]).filterMap Row.content? = [itemBlock, cartBlock].flatMap ClassBlock.entries) ∧
      String.ofList (printRows (rowsOf [cartBlock, itemBlock])) = cartFirst ∧
      String.ofList (printRows (rowsOf [itemBlock, cartBlock])) = itemFirst ∧
      classesRead (readText cartFirst).result.outcome = [["shop", "Cart"], ["shop", "Item"]] ∧
      classesRead (readText itemFirst).result.outcome = [["shop", "Item"], ["shop", "Cart"]] ∧
      SameEnd (readText cartFirst).result.outcome (readText itemFirst).result.outcome := by
  have distinct : ([cartBlock, itemBlock].map fun block => block.name.1).Nodup := by decide
  have perm : [cartBlock, itemBlock].Perm [itemBlock, cartBlock] := .swap ..
  have laid : (rowsOf [cartBlock, itemBlock]).filterMap Row.content? = [cartBlock, itemBlock].flatMap ClassBlock.entries :=
    rfl
  have laidThere : (rowsOf [itemBlock, cartBlock]).filterMap Row.content? =
      [itemBlock, cartBlock].flatMap ClassBlock.entries := rfl
  have printed : String.ofList (printRows (rowsOf [cartBlock, itemBlock])) = cartFirst := by decide +kernel
  have printedThere : String.ofList (printRows (rowsOf [itemBlock, cartBlock])) = itemFirst := by decide +kernel
  have same := (read_reordered distinct perm laid laidThere).1 (by decide +kernel)
  rw [printed, printedThere] at same
  exact ⟨distinct, perm, laid, laidThere, printed, printedThere, by decide +kernel, by decide +kernel, same⟩

end Mapping

end ClearNames
