import ClearNames.Proofs.Mapping.ClassRecords
import ClearNames.Proofs.Mapping.RoundTrip

/-! Registering blocks leads to the tree that their records tell.

A class line makes and marks the node of its path, and each method line of a
class is entered in its table; neither fails, except that a package is refused
the alias of a package beside it. Blocks of different classes are registered
therefore unless two of them clash, in whatever order they come.
-/

set_option autoImplicit false

namespace ClearNames

namespace Mapping
open NameTree MappingLine

def ClassBlock.record (block : ClassBlock) : ClassRecord := ⟨block.name, block.obfuscated, block.methods⟩

namespace ClassRecord

/-- The record before its methods are taken up. -/
def opened (record : ClassRecord) : ClassRecord := { record with methods := [] }

def adding (record : ClassRecord) (method : MethodRecord) : ClassRecord :=
  { record with methods := record.methods ++ [method] }

theorem table_adding (record : ClassRecord) (method : MethodRecord) :
    (record.adding method).table = enterMethod record.table method.row := List.foldl_append

theorem needs_opened (record : ClassRecord) (path : List String) :
    record.opened.Needs path ↔ OnWay record.name.1 path := by
  simp [Needs, opened, table]

/-- One method more needs the types of its arguments, and what it returns where it makes a row. -/
theorem needs_adding {record : ClassRecord} (clear : NamesClass record.name.1) (method : MethodRecord)
    (path : List String) : (record.adding method).Needs path ↔ record.Needs path ∨
      (∃ argument ∈ method.signature.arguments, OnTypeWay argument path) ∨
      ∃ row ∈ enterMethod record.table method.row, OnTypeWay row.signature.returns path := by
  have rows : (∃ row ∈ record.table, OnTypeWay row.signature.returns path) →
      ∃ row ∈ enterMethod record.table method.row, OnTypeWay row.signature.returns path := by
    rintro ⟨row, listed, onWay⟩
    obtain ⟨kept, keptListed, same⟩ := exists_signature_of_enterMethod listed method.row
    exact ⟨kept, keptListed, same ▸ onWay⟩
  have clearThere : NamesClass (record.adding method).name.1 := clear
  simp only [Needs, table_adding, clear, clearThere, true_and]
  simp only [adding, List.mem_append, List.mem_singleton, or_and_right, exists_or, exists_eq_left]
  constructor
  · rintro (onWay | (old | new) | returned)
    · exact .inl (.inl onWay)
    · exact .inl (.inr (.inl old))
    · exact .inr (.inl new)
    · exact .inr (.inr returned)
  · rintro ((onWay | old | returned) | new | returned)
    · exact .inl onWay
    · exact .inr (.inl (.inl old))
    · exact .inr (.inr (rows returned))
    · exact .inr (.inl (.inr new))
    · exact .inr (.inr returned)

end ClassRecord

theorem told_empty : Told [] .empty where
  follows := follows_empty
  unlocated := unlocated_empty
  holdsPath _ := by
    refine ⟨?_, fun ⟨_, listed, _⟩ => nomatch listed⟩
    rintro ⟨package | inner, known, -⟩ <;> exact absurd known (Nat.not_lt_zero _)
  tables known := absurd known (Nat.not_lt_zero _)

section
variable {records : List ClassRecord} {record : ClassRecord}

/-! ## Tables of several records -/

theorem tableAt_of_unknown {path : List String} (unknown : path ∉ records.map ClassRecord.path) :
    tableAt records path = [] := by
  have missing : records.find? (fun record => record.path = path) = none :=
    List.find?_eq_none.mpr fun record listed => by
      simpa using fun same => unknown (List.mem_map.mpr ⟨record, listed, same⟩)
  rw [tableAt, missing]
  rfl

theorem tableAt_concat (fresh : record.path ∉ records.map ClassRecord.path) (path : List String) :
    tableAt (records ++ [record]) path = if record.path = path then record.table else tableAt records path := by
  unfold tableAt
  rw [List.find?_append]
  by_cases same : record.path = path
  · have missing : records.find? (fun other => other.path = path) = none :=
      List.find?_eq_none.mpr fun other listed => by
        simpa using fun otherSame => fresh (List.mem_map.mpr ⟨other, listed, otherSame.trans same.symm⟩)
    simp [missing, same]
  · simp [same]

theorem tableAt_opened (fresh : record.path ∉ records.map ClassRecord.path) (path : List String) :
    tableAt (records ++ [record.opened]) path = tableAt records path := by
  have freshThere : record.opened.path ∉ records.map ClassRecord.path := fresh
  rw [tableAt_concat freshThere]
  split
  · next same =>
    rw [← same, tableAt_of_unknown freshThere]
    rfl
  · rfl

/-! ## Class lines -/

theorem aliasOf_of_mem (distinct : Distinct records) (listed : record ∈ records) :
    aliasOf (records.map ClassRecord.entry) record.path = some (lastSegment record.obfuscated.1) := by
  have found : (records.map ClassRecord.entry).reverse.find? (fun entry => segments entry.1 = record.path) =
      some record.entry := by
    refine (find?_eq_some_iff_only fun first firstIn second secondIn atFirst atSecond => ?_).mpr
      ⟨List.mem_reverse.mpr (List.mem_map_of_mem listed), decide_eq_true rfl⟩
    exact distinct.eq_of_entry (List.mem_reverse.mp firstIn) (List.mem_reverse.mp secondIn)
      (of_decide_eq_true atFirst) (of_decide_eq_true atSecond)
  rw [aliasOf, found]
  rfl

theorem exists_collides_iff (distinct : Distinct records) (fresh : record.path ∉ records.map ClassRecord.path) :
    (∃ sibling, Collides (records.map ClassRecord.entry) record.entry sibling) ↔
      ∃ earlier ∈ records, earlier.Clashes record := by
  constructor
  · rintro ⟨sibling, collides⟩
    obtain ⟨_, member, named, taken⟩ := aliasOf_eq_some collides.taken
    obtain ⟨earlier, listed, rfl⟩ := List.mem_map.mp member
    have path : earlier.path = record.path.dropLast ++ [sibling] := named
    have front : earlier.path.dropLast = record.path.dropLast := by rw [path, List.dropLast_concat]
    have last : lastSegment earlier.name.1 = sibling := by
      show earlier.path.getLastD "" = sibling
      rw [path]
      simp
    refine ⟨earlier, listed, ?_, front, ?_, collides.package, taken⟩
    · rw [front]
      exact collides.inner
    · rw [last]
      exact collides.siblingPackage
  · rintro ⟨earlier, listed, clashes⟩
    have path : besidePath record.name.1 (lastSegment earlier.name.1) = earlier.path := by
      have front : (segments record.name.1).dropLast = (segments earlier.name.1).dropLast := clashes.beside.symm
      rw [besidePath, front, dropLast_append_lastSegment]
      rfl
    refine ⟨lastSegment earlier.name.1, clashes.beside ▸ clashes.inner, clashes.packageThere, clashes.package,
      fun same => fresh (List.mem_map.mpr ⟨earlier, listed, ?_⟩), ?_⟩
    · rw [← path, same, besidePath]
      exact dropLast_append_lastSegment record.name.1
    · show aliasOf _ (besidePath record.name.1 (lastSegment earlier.name.1)) = _
      rw [path, aliasOf_of_mem distinct listed, clashes.taken]
      rfl

/-! ## Steps -/

section
variable {tree later : NameTree}

/-- Nothing is told of a class that is not there yet, and nothing changes of what is told of the others. -/
theorem Told.tabulates_of_keeps (told : Told records tree) (keeps : tree.Keeps later) (natural : later.Natural)
    {id : ClassId} (known : later.HasClass id) : Tabulates tree id (tableAt records (later.classSegments id)) := by
  have founded := told.follows.natural.formed.founded
  by_cases old : tree.HasClass id
  · have path : later.classSegments id = tree.classSegments id :=
      keeps.scopeSegments founded (show tree.HasScope (.javaClass id) from old)
    rw [path]
    exact told.tables old
  · have unknown : later.classSegments id ∉ records.map ClassRecord.path := by
      intro member
      obtain ⟨record, listed, path⟩ := List.mem_map.mp member
      obtain ⟨scope, there, named⟩ := (told.holdsPath record.path).mpr ⟨record, listed, .inl record.onWay_path⟩
      -- The node of that record has the full name of the class, and so is the class.
      obtain rfl : scope = .javaClass id := natural.eq_of_scopeSegments_eq (keeps.hasScope there) known
        ((keeps.scopeSegments founded there).trans (named.trans path))
      exact old there
    rw [tableAt_of_unknown unknown]
    exact tabulates_nil (congrArg ClassNode.methods (javaClass_of_not_has old))

theorem Told.aliasScope (told : Told records tree) (fresh : record.path ∉ records.map ClassRecord.path) {scope : Scope}
    (ran : (aliasScope record.name.1 (lastSegment record.obfuscated.1)).on tree = (.ok scope, later)) :
    Told (records ++ [record.opened]) later ∧ later.HasScope scope ∧ later.scopeSegments scope = record.path := by
  have formed := told.follows.natural.formed
  have written := (Entry.opening record.name record.obfuscated).written
  obtain ⟨follows, known, path⟩ := aliasScope_follows told.follows written ran
  refine ⟨?_, known, path⟩
  have unlocated := (told.unlocated.aliasScope ran).1
  have methodsSame (id : MethodId) : later.method id = tree.method id := Growth.method_of_on_aliasScope formed ran id
  obtain ⟨reached, between, resolved, rest⟩ := Growth.on_bind_eq_ok ran
  obtain ⟨_, marked, obfuscates, ends⟩ := Growth.on_bind_eq_ok rest
  cases ends
  have grows : (resolve record.name.1).Grows AnyPath tree _ :=
    Growth.resolve_grows formed record.name.1 fun _ _ => trivial
  have grown := grows.moved_to resolved
  obtain ⟨rfl, mark⟩ := Growth.mark_of_on_obfuscateScope (grows.returns resolved).known obfuscates
  have keeps := grown.keeps.trans mark.alike.keeps
  refine ⟨by simpa [ClassRecord.entry, ClassRecord.opened] using follows, unlocated, fun place => ?_,
    fun {id} there => ?_⟩
  · rw [mark.alike.holdsPath (grown.formed formed).founded, Growth.resolve_holds formed resolved, told.holdsPath]
    simp only [List.mem_append, List.mem_singleton, or_and_right, exists_or, exists_eq_left, record.needs_opened]
  · rw [tableAt_opened fresh]
    refine (told.tabulates_of_keeps keeps follows.natural there).keeps formed.founded keeps ?_ fun {method} _ _ => ?_
    · rw [mark.alike.methods, grown.methodsOf]
    · rw [methodsSame]

theorem MethodRecord.on_register (method : MethodRecord) {owner : ClassId} {outcome : Registration}
    (ran : (registerMethod owner method.text method.obfuscation.1).on tree = (.ok outcome, later)) :
    (method.register owner).on tree = (.ok (), later) := by
  have same := registerMethod_eq_of_parse? method.parse?_text method.parse?_print owner method.obfuscation.1
  rw [same] at ran
  have given : (registerMethodOf (.node owner) method.signature.print method.obfuscation.1).on tree =
      (.ok outcome, later) := ran
  exact Growth.on_bind_of_ok given _

theorem MethodRecord.registers (method : MethodRecord) (formed : tree.Formed) {owner : ClassId}
    (known : tree.HasClass owner) :
    Growth.Succeeds (registerMethod owner method.text method.obfuscation.1) tree :=
  Growth.registerMethod_succeeds formed known method.parse?_text (wellTyped_of_isTypeName method.returns.2)
    (fun _ listed => wellTyped_of_isTypeName (isTypeName_of_mem listed)) method.obfuscation.1

theorem Told.register (told : Told (records ++ [record]) tree) (fresh : record.path ∉ records.map ClassRecord.path)
    {owner : ClassId} (known : tree.HasClass owner) (path : tree.classSegments owner = record.path)
    (method : MethodRecord) :
    ∃ later, (method.register owner).on tree = (.ok (), later) ∧ Told (records ++ [record.adding method]) later ∧
      later.HasClass owner ∧ later.classSegments owner = record.path := by
  have natural := told.follows.natural
  have formed := natural.formed
  have written : Written (.method (String.ofList method.printRange) method.text method.obfuscation.1) :=
    (Member.method method).written
  obtain ⟨outcome, later, ran⟩ := method.registers natural.formed known
  have follows := (registerMethod_keeping told.follows known written).moved_to ran told.follows
  have keeps := ((Growth.registerMethod_alters formed known method.text method.obfuscation.1).moved_to ran).keeps
  have table : tableAt (records ++ [record]) record.path = record.table := by rw [tableAt_concat fresh, if_pos rfl]
  have own : Tabulates tree owner record.table := table ▸ path ▸ told.tables known
  have tabulated : Tabulated tree later owner (enterMethod record.table method.row) method.signature.arguments :=
    registerMethod_tabulates natural known own method.parse?_text (fun _ => MethodRecord.isTypeName_of_mem) ran
  have pathLater : later.classSegments owner = record.path :=
    (keeps.scopeSegments formed.founded (show tree.HasScope (.javaClass owner) from known)).trans path
  refine ⟨later, method.on_register ran, ?_, keeps.hasClass known, pathLater⟩
  have tables := fun place => tableAt_concat (show (record.adding method).path ∉ _ from fresh) place
  have clear : NamesClass record.name.1 := namesClass_of_classSegments natural known path
  refine ⟨by simpa [ClassRecord.entry, ClassRecord.adding] using follows, told.unlocated.registerMethod known ran,
    fun place => ?_, fun {id} there => ?_⟩
  · rw [tabulated.holdsPath, told.holdsPath]
    simp only [List.mem_append, List.mem_singleton, or_and_right, exists_or, exists_eq_left,
      ClassRecord.needs_adding clear, or_assoc]
  · by_cases same : id = owner
    · subst same
      rw [tables, pathLater, if_pos (show (record.adding method).path = record.path from rfl), record.table_adding]
      exact tabulated.entered
    · have apart : record.path ≠ later.classSegments id := fun shared =>
        same (Scope.javaClass.inj (follows.natural.eq_of_scopeSegments_eq (show later.HasScope (.javaClass id) from there)
          (show later.HasScope (.javaClass owner) from keeps.hasClass known) (shared.symm.trans pathLater.symm)))
      have others := told.tabulates_of_keeps keeps follows.natural there
      rw [tableAt_concat fresh, if_neg apart] at others
      rw [tables, if_neg (show (record.adding method).path ≠ _ from apart)]
      exact tabulated.others same others

theorem Told.of_package (told : Told (records ++ [record.opened]) tree)
    (fresh : record.path ∉ records.map ClassRecord.path) {id : PackageId} (known : tree.HasPackage id)
    (path : tree.packageSegments id = record.path) : Told (records ++ [record]) tree := by
  have natural := told.follows.natural
  have unclear : ¬ NamesClass record.name.1 := fun clear => packageSegments_ne_of_namesClass natural clear known path
  refine ⟨by simpa [ClassRecord.entry, ClassRecord.opened] using told.follows, told.unlocated, fun place => ?_,
    fun {inner} there => ?_⟩
  · have needs : record.Needs place ↔ record.opened.Needs place := by simp [ClassRecord.Needs, ClassRecord.opened, unclear]
    rw [told.holdsPath]
    simp only [List.mem_append, List.mem_singleton, or_and_right, exists_or, exists_eq_left, needs]
  · have apart : record.path ≠ tree.classSegments inner := fun shared => by
      have twins := natural.eq_of_scopeSegments_eq (show tree.HasScope (.package id) from known)
        (show tree.HasScope (.javaClass inner) from there) (path.trans shared)
      cases twins
    have table := told.tables there
    rw [tableAt_opened fresh] at table
    rwa [tableAt_concat fresh, if_neg apart]

/-! ## Runs -/

theorem Told.registerMethods {methods : List MethodRecord} (told : Told (records ++ [record]) tree)
    (fresh : record.path ∉ records.map ClassRecord.path) {owner : ClassId} (known : tree.HasClass owner)
    (path : tree.classSegments owner = record.path) :
    ∃ later, (methods.forM (MethodRecord.register owner)).on tree = (.ok (), later) ∧
      Told (records ++ [{ record with methods := record.methods ++ methods }]) later := by
  induction methods generalizing record tree with
  | nil => exact ⟨tree, rfl, by simpa using told⟩
  | cons method rest ih =>
    obtain ⟨between, first, toldBetween, knownBetween, pathBetween⟩ := told.register fresh known path method
    obtain ⟨later, others, toldLater⟩ := ih toldBetween fresh knownBetween pathBetween
    refine ⟨later, ?_, by simpa [ClassRecord.adding] using toldLater⟩
    exact (Growth.on_bind_of_ok first _).trans others

theorem Told.registerBlock (told : Told records tree) (distinct : Distinct records) (block : ClassBlock)
    (fresh : block.record.path ∉ records.map ClassRecord.path) :
    ((∀ earlier ∈ records, ¬ earlier.Clashes block.record) →
      ∃ later, block.register.on tree = (.ok (), later) ∧ Told (records ++ [block.record]) later) ∧
    ((∃ earlier ∈ records, earlier.Clashes block.record) →
      ∃ fault later, block.register.on tree = (.error fault, later)) := by
  have written : Written (.javaClass block.record.entry.1 block.record.entry.2) :=
    (Entry.opening block.name block.obfuscated).written
  obtain ⟨refused, accepted⟩ := aliasScope_cases told.follows written
  have collides := exists_collides_iff distinct fresh
  constructor
  · intro peaceful
    have free : ∀ sibling, ¬ Collides (records.map ClassRecord.entry) block.record.entry sibling := by
      intro sibling there
      obtain ⟨earlier, listed, clashes⟩ := collides.mp ⟨sibling, there⟩
      exact peaceful earlier listed clashes
    obtain ⟨scope, between, aliased⟩ := accepted free
    obtain ⟨toldBetween, known, path⟩ := told.aliasScope fresh aliased
    have continued : block.register.on tree = _ := Growth.on_bind_of_ok aliased _
    rw [continued]
    cases scope with
    | package id => exact ⟨between, rfl, toldBetween.of_package fresh known path⟩
    | javaClass owner => exact toldBetween.registerMethods fresh known path
  · intro clashing
    obtain ⟨sibling, there⟩ := collides.mpr clashing
    obtain ⟨later, failed⟩ := refused sibling there
    have stopped : block.register.on tree = _ := Growth.on_bind_of_error failed _
    exact ⟨_, _, stopped⟩

/-- Blocks of different classes are registered exactly if no two of their records clash. -/
theorem Told.registerBlocks {blocks : List ClassBlock} (told : Told records tree)
    (distinct : Distinct (records ++ blocks.map ClassBlock.record))
    (peaceful : records.Pairwise fun one other => ¬ one.Clashes other) :
    ((records ++ blocks.map ClassBlock.record).Pairwise (fun one other => ¬ one.Clashes other) →
      ∃ later, (registerBlocks blocks).on tree = (.ok (), later) ∧
        Told (records ++ blocks.map ClassBlock.record) later) ∧
    (¬ (records ++ blocks.map ClassBlock.record).Pairwise (fun one other => ¬ one.Clashes other) →
      ∃ fault later, (registerBlocks blocks).on tree = (.error fault, later)) := by
  induction blocks generalizing records tree with
  | nil =>
    simp only [List.map_nil, List.append_nil]
    exact ⟨fun _ => ⟨tree, rfl, told⟩, fun clashing => absurd peaceful clashing⟩
  | cons block rest ih =>
    have split : records ++ (block :: rest).map ClassBlock.record =
        (records ++ [block.record]) ++ rest.map ClassBlock.record := by simp
    rw [split] at distinct ⊢
    have before : Distinct (records ++ [block.record]) := distinct.front
    obtain ⟨accepted, refused⟩ := told.registerBlock before.front block before.fresh
    by_cases clashing : ∃ earlier ∈ records, earlier.Clashes block.record
    · obtain ⟨earlier, listed, clashes⟩ := clashing
      obtain ⟨fault, later, failed⟩ := refused ⟨earlier, listed, clashes⟩
      have stopped : (registerBlocks (block :: rest)).on tree = _ := Growth.on_bind_of_error failed _
      refine ⟨fun peacefulAll => ?_, fun _ => ⟨fault, later, stopped⟩⟩
      have peacefulThere := (List.pairwise_append.mp peacefulAll).1
      exact absurd clashes ((List.pairwise_append.mp peacefulThere).2.2 earlier listed _ (List.mem_singleton_self _))
    · have free : ∀ earlier ∈ records, ¬ earlier.Clashes block.record := fun earlier listed clashes =>
        clashing ⟨earlier, listed, clashes⟩
      obtain ⟨between, first, toldBetween⟩ := accepted free
      have continued : (registerBlocks (block :: rest)).on tree = _ := Growth.on_bind_of_ok first _
      rw [continued]
      refine ih toldBetween distinct (List.pairwise_append.mpr ⟨peaceful, List.pairwise_singleton _ _, ?_⟩)
      intro earlier listed other last
      rw [List.mem_singleton.mp last]
      exact free earlier listed

end

end

end Mapping

end ClearNames
