import ClearNames.Proofs.Mapping.Faults
import ClearNames.Proofs.Mapping.Printing
import ClearNames.Proofs.Text.Utf8

/-! Reading a printed mapping is registering its blocks.

The rows of a printed mapping are its entries, in their order, and any number
of rows that say nothing. A run over rows performs the entries, wherever the
silent rows stand and however the rows end.
-/

set_option autoImplicit false

namespace ClearNames

namespace Mapping
open NameTree MappingLine

/-! ## Rows -/

/-- A row of a printed mapping: an entry, or a blank line or a comment. -/
inductive Row where
  | printed (entry : Entry) (ending : Text.LineEnd)
  | silent (text : List Char) (skipped : isSkipped text) (unbroken : Text.Unbroken text) (ending : Text.LineEnd)

namespace Row

def content? : Row → Option Entry
  | .printed entry _ => some entry
  | .silent .. => none

def ended : Row → Text.EndedLine
  | .printed entry ending => ⟨entry.line.print, ending, unbroken_of_spaced entry.spaced⟩
  | .silent text _ unbroken ending => ⟨text, ending, unbroken⟩

end Row

def printRows (rows : List Row) : List Char := (rows.map Row.ended).flatMap Text.EndedLine.chars

theorem Row.said?_text (row : Row) : said? row.ended.text = row.content?.map Entry.line := by
  cases row with
  | printed entry ending => exact said?_print entry.written
  | silent text skipped unbroken ending => simp [said?, ended, content?, skipped]

/-! ## Registering -/

def MethodRecord.register (owner : ClassId) (method : MethodRecord) : Growth Unit := do
  let _ ← registerMethodOf (.node owner) method.signature.print method.obfuscation.1

/-- Alias the class of a block, and its methods where the path stands for a class. -/
def ClassBlock.register (block : ClassBlock) : Growth Unit := do
  match ← aliasScope block.name.1 (lastSegment block.obfuscated.1) with
  | .package _ => pure ()
  | .javaClass owner => block.methods.forM (MethodRecord.register owner)

def registerBlocks (blocks : List ClassBlock) : Growth Unit := blocks.forM ClassBlock.register

/-- Perform shapes in order, given the node of the class line before. -/
def performAll (current : Option Scope) : List MappingLine → Growth (Option Scope)
  | [] => pure current
  | shape :: rest => do performAll (← perform current shape) rest

theorem performAll_append (current : Option Scope) (front back : List MappingLine) :
    performAll current (front ++ back) = performAll current front >>= fun next => performAll next back := by
  induction front generalizing current with
  | nil => simp [performAll]
  | cons shape rest ih => simp [performAll, ih]

theorem registerMethod_eq_of_parse? {first second : String} {signature : Signature}
    (firstRead : Signature.parse? first = some signature) (secondRead : Signature.parse? second = some signature)
    (owner : ClassId) (obfuscation : String) :
    registerMethod owner first obfuscation = registerMethod owner second obfuscation := by
  simp only [registerMethod, readSignature, firstRead, secondRead]

theorem performAll_members_package (id : PackageId) (members : List Member) :
    performAll (some (.package id)) (members.map Member.line) = pure (some (.package id)) := by
  induction members with
  | nil => rfl
  | cons member rest ih => cases member <;> simpa [performAll, perform, Member.line] using ih

theorem performAll_members_class (owner : ClassId) (members : List Member) :
    performAll (some (.javaClass owner)) (members.map Member.line) =
      (fun _ => some (.javaClass owner)) <$> (members.filterMap Member.method?).forM (MethodRecord.register owner) := by
  induction members with
  | nil => simp [performAll]
  | cons member rest ih =>
    cases member with
    | field record =>
      rw [List.map_cons, Member.line, performAll, perform, pure_bind, ih]
      rfl
    | method record =>
      have same := registerMethod_eq_of_parse? record.parse?_text record.parse?_print owner record.obfuscation.1
      simp [performAll, perform, Member.line, Member.method?, ih, same, MethodRecord.register, registerMethodOf,
        resolveReference]

theorem performAll_entries (current : Option Scope) (block : ClassBlock) :
    (fun _ => ()) <$> performAll current (block.entries.map Entry.line) = block.register := by
  have shapes : block.entries.map Entry.line =
      .javaClass block.name.1 block.obfuscated.1 :: block.members.map Member.line := by
    simp [ClassBlock.entries, Entry.line, Function.comp_def]
  rw [shapes, performAll, perform, ClassBlock.register]
  simp only [map_eq_pure_bind, bind_assoc, pure_bind]
  congr
  funext scope
  cases scope with
  | package id => simp [performAll_members_package]
  | javaClass owner => simp [performAll_members_class, ClassBlock.methods]

theorem performAll_blocks (current : Option Scope) (blocks : List ClassBlock) :
    (fun _ => ()) <$> performAll current ((blocks.flatMap ClassBlock.entries).map Entry.line) =
      registerBlocks blocks := by
  -- On the blocks: each opens with its class line, so that the class before it does not matter.
  induction blocks generalizing current with
  | nil => rfl
  | cons block rest ih =>
    calc (fun _ => ()) <$> performAll current (((block :: rest).flatMap ClassBlock.entries).map Entry.line)
        = performAll current (block.entries.map Entry.line) >>= fun next =>
            (fun _ => ()) <$> performAll next ((rest.flatMap ClassBlock.entries).map Entry.line) := by
          simp [performAll_append]
      _ = ((fun _ => ()) <$> performAll current (block.entries.map Entry.line)) >>= fun _ => registerBlocks rest := by
          simp [ih]
      _ = registerBlocks (block :: rest) := by
          rw [performAll_entries]
          rfl

/-! ## Runs over rows -/

theorem Agrees.bind {step : Reading Progress} {growth : Growth (Option Scope)} {state : ReadingState}
    (first : Agrees (step.on state) (growth.on state.tree)) {next : Progress → Reading Progress}
    {further : Option Scope → Growth (Option Scope)}
    (others : ∀ progress between, step.on state = (.ok progress, between) →
      Agrees ((next progress).on between) ((further progress.current).on between.tree)) :
    Agrees ((step >>= next).on state) ((growth >>= further).on state.tree) := by
  rcases first.ends with ⟨fault, between, ran, grown⟩ | ⟨progress, between, ran, grown⟩
  · rw [Reading.on_bind_of_error ran, Growth.on_bind_of_error grown]
    exact ⟨rfl, rfl⟩
  · rw [Reading.on_bind_of_ok ran, Growth.on_bind_of_ok grown]
    exact others progress between ran

theorem Performed.isSome {current next : Option Scope} {shape : MappingLine} {tree grown : NameTree}
    (performed : Performed current shape next tree grown) (opens : current.isSome ∨ (paths? shape).isSome) :
    next.isSome := by
  cases performed with
  | javaClass aliased => rfl
  | method registered => rfl
  -- Other lines leave the class before them.
  | field => simpa [paths?] using opens
  | aside outside => simpa [paths?] using opens

def saidBy (lines : List (List Char)) : List MappingLine := lines.filterMap fun line => said? (withoutLineEnd line)

section
variable {line : List Char} {rest : List (List Char)}

theorem performAll_saidBy_cons (current : Option Scope) :
    performAll current (saidBy (line :: rest)) =
      takeUp current (withoutLineEnd line) >>= fun next => performAll next (saidBy rest) := by
  unfold takeUp
  cases said : said? (withoutLineEnd line) with
  | none =>
    have same : saidBy (line :: rest) = saidBy rest := List.filterMap_cons_none said
    rw [same, pure_bind]
  | some shape =>
    have split : saidBy (line :: rest) = shape :: saidBy rest := List.filterMap_cons_some said
    rw [split, performAll]

/-- There is a class for the members among some lines, or a class line comes first. -/
def Opens (current : Option Scope) (lines : List (List Char)) : Prop :=
  current.isSome ∨ ∀ shape ∈ (saidBy lines).head?, (paths? shape).isSome

theorem Opens.next {current next : Option Scope} {tree grown : NameTree} (opens : Opens current (line :: rest))
    (ran : (takeUp current (withoutLineEnd line)).on tree = (.ok next, grown)) : Opens next rest := by
  rcases takeUp_eq_ok ran with ⟨silent, rfl, rfl⟩ | ⟨shape, said, performed⟩
  · have same : saidBy (line :: rest) = saidBy rest := List.filterMap_cons_none silent
    rwa [Opens, same] at opens
  · have split : saidBy (line :: rest) = shape :: saidBy rest := List.filterMap_cons_some said
    exact .inl (performed.isSome (by simpa [Opens, split] using opens))

theorem Opens.problem?_eq_none {current : Option Scope} (opens : Opens current (line :: rest))
    (shaped : problem? true (withoutLineEnd line) = none) : problem? current.isSome (withoutLineEnd line) = none := by
  cases opened : current.isSome with
  | true => exact shaped
  | false =>
    have first : ∀ shape ∈ said? (withoutLineEnd line), (paths? shape).isSome := by
      intro shape said
      have split : saidBy (line :: rest) = shape :: saidBy rest := List.filterMap_cons_some said
      simpa [Opens, opened, split] using opens
    unfold problem? said? at *
    split
    · rfl
    · next solid =>
      rw [if_neg solid] at shaped first
      cases parsed : parse? (withoutLineEnd line) with
      | none => simp [parsed] at shaped
      | some shape => cases shape <;> simp [parsed, paths?] at first ⊢

end

theorem readFrom_agrees {lines : List (List Char)} (shaped : ∀ line ∈ lines, problem? true (withoutLineEnd line) = none)
    {progress : Progress} (opens : Opens progress.current lines) (number : Nat) (state : ReadingState) :
    Agrees ((readFrom progress number lines).on state)
      ((performAll progress.current (saidBy lines)).on state.tree) := by
  -- On the lines: a line that is read leaves a class for the members that follow.
  induction lines generalizing progress number state with
  | nil => exact ⟨rfl, rfl⟩
  | cons line rest ih =>
    have shapedRest := fun other member => shaped other (List.mem_cons_of_mem line member)
    have sound := opens.problem?_eq_none (shaped line List.mem_cons_self)
    rw [performAll_saidBy_cons]
    refine (readLine_agrees sound number state).bind fun next between ran => ?_
    exact ih shapedRest (opens.next (takeUp_of_readLine_eq_ok ran)) (number + 1) between

theorem readLines_outcome_eq {lines : List (List Char)} {blocks : List ClassBlock}
    (shaped : ∀ line ∈ lines, problem? true (withoutLineEnd line) = none)
    (said : saidBy lines = (blocks.flatMap ClassBlock.entries).map Entry.line) :
    (readLines lines).result.outcome = (Reading.grow (registerBlocks blocks)).result.outcome := by
  have opens : ∀ shape ∈ (saidBy lines).head?, (paths? shape).isSome := by
    rw [said]
    cases blocks with
    | nil => simp
    | cons block rest => simp [ClassBlock.entries, Entry.line, paths?]
  have agrees : Agrees ((readFrom .start 1 lines).on ⟨.empty, []⟩) ((performAll none (saidBy lines)).on .empty) :=
    readFrom_agrees shaped (.inr opens) 1 ⟨.empty, []⟩
  rw [Reading.outcome_eq, Reading.outcome_eq, Reading.on_grow, ← performAll_blocks none, ← said, Growth.on_map]
  -- Both runs end in a fault or in a tree, and in the same.
  rcases agrees.ends with ⟨fault, after, ran, grown⟩ | ⟨progress, after, ran, grown⟩
  · have stopped : (readLines lines).on ⟨.empty, []⟩ = _ := Reading.on_bind_of_error ran _
    rw [stopped, grown]
    rfl
  · have ended : (readLines lines).on ⟨.empty, []⟩ = _ := Reading.on_bind_of_ok ran _
    rw [ended, grown]
    rfl

/-! ## Printed rows -/

theorem withoutLineEnd_beforeFeed (line : Text.EndedLine) : withoutLineEnd line.beforeFeed = line.text := by
  obtain ⟨text, ending, unbroken⟩ := line
  have kept : text.reverse.dropWhile (fun char => char == '\r' || char == '\n') = text.reverse := by
    cases reversed : text.reverse with
    | nil => rfl
    | cons last front =>
      have member : last ∈ text := List.mem_reverse.mp (reversed ▸ List.mem_cons_self)
      have noFeed : last ≠ '\n' := fun same => unbroken.1 (same ▸ member)
      have noReturn : last ≠ '\r' := fun same => unbroken.2 (same ▸ member)
      simp [noFeed, noReturn]
  unfold withoutLineEnd Text.dropEndWhile
  cases ending <;> simp [Text.EndedLine.beforeFeed, kept]

theorem saidBy_beforeFeed (lines : List Text.EndedLine) :
    saidBy (lines.map Text.EndedLine.beforeFeed) = (lines.map Text.EndedLine.text).filterMap said? := by
  simp [saidBy, List.filterMap_map, withoutLineEnd_beforeFeed]

theorem filterMap_said? (texts : List (List Char)) : (texts.filter (· ≠ [])).filterMap said? = texts.filterMap said? := by
  -- The empty text is skipped, as blanks are.
  rw [List.filterMap_filter]
  congr
  funext text
  cases text <;> rfl

theorem Row.problem?_text (row : Row) : problem? true row.ended.text = none := by
  cases row with
  | printed entry ending =>
    have parsed : parse? entry.line.print = some entry.line := parse?_eq_some_iff.mpr ⟨entry.written, rfl⟩
    simp only [problem?, ended, isSkipped_print entry.written, parsed]
    cases entry.line <;> rfl
  | silent text skipped unbroken ending => simp [problem?, ended, skipped]

section
variable {blocks : List ClassBlock} {rows : List Row}

theorem readLines_of_texts (laid : rows.filterMap Row.content? = blocks.flatMap ClassBlock.entries)
    {kept : List Text.EndedLine}
    (texts : (kept.map Text.EndedLine.text).filter (· ≠ []) =
      ((rows.map Row.ended).map Text.EndedLine.text).filter (· ≠ [])) :
    (readLines (kept.map Text.EndedLine.beforeFeed)).result.outcome =
      (Reading.grow (registerBlocks blocks)).result.outcome := by
  have said : saidBy (kept.map Text.EndedLine.beforeFeed) = (blocks.flatMap ClassBlock.entries).map Entry.line := by
    rw [saidBy_beforeFeed, ← filterMap_said?, texts, filterMap_said?, ← laid, List.map_filterMap]
    simp [List.filterMap_map, Function.comp_def, Row.said?_text]
  refine readLines_outcome_eq (fun line member => ?_) said
  obtain ⟨row, inside, rfl⟩ := List.mem_map.mp member
  rw [withoutLineEnd_beforeFeed]
  -- A row that was kept is empty, or one of the rows that were printed.
  by_cases empty : row.text = []
  · rw [empty]
    rfl
  · have given : row.text ∈ (kept.map Text.EndedLine.text).filter (· ≠ []) := by
      simpa [empty] using ⟨row, inside, rfl⟩
    rw [texts, List.map_map] at given
    obtain ⟨other, -, same⟩ := List.mem_map.mp (List.mem_filter.mp given).1
    rw [← same]
    exact other.problem?_text

theorem Row.spacedLine_text (row : Row) : SpacedLine row.ended.text := by
  intro range text obfuscation said
  rw [row.said?_text] at said
  obtain ⟨entry, -, line⟩ := Option.map_eq_some_iff.mp said
  rcases entry with _ | (record | record) <;> cases line
  exact record.spaced_text

theorem naming_of_grow_eq_error {growth : Growth Unit} {fault : RenameLogFault}
    (failed : (Reading.grow growth).result.outcome = .error fault) : ∃ cause, fault = .naming cause := by
  rw [Reading.outcome_eq, Reading.on_grow] at failed
  dsimp only at failed
  rcases grown : growth.on .empty with ⟨cause | _, tree⟩ <;> rw [grown] at failed <;> cases failed
  exact ⟨cause, rfl⟩

theorem obfuscationTaken_of_registerBlocks {fault : RenameLogFault}
    (failed : (Reading.grow (registerBlocks blocks)).result.outcome = .error fault) :
    ∃ obfuscation holder claimant, fault = .naming (.obfuscationTaken obfuscation holder claimant) := by
  -- Printed without anything between them, the blocks are refused for one of their lines.
  let rows := (blocks.flatMap ClassBlock.entries).map fun entry => Row.printed entry .lineFeed
  have laid : rows.filterMap Row.content? = blocks.flatMap ClassBlock.entries := by
    simp [rows, List.filterMap_map, Function.comp_def, Row.content?]
  have spaced : ∀ line ∈ (rows.map Row.ended).map Text.EndedLine.beforeFeed, SpacedLine (withoutLineEnd line) := by
    intro line member
    rw [List.map_map] at member
    obtain ⟨row, -, rfl⟩ := List.mem_map.mp member
    rw [Function.comp_apply, withoutLineEnd_beforeFeed]
    exact row.spacedLine_text
  obtain ⟨front, line, back, -, -, refused⟩ :=
    ((readLines_outcome spaced).2 fault).mp ((readLines_of_texts laid rfl).trans failed)
  obtain ⟨cause, rfl⟩ := naming_of_grow_eq_error failed
  cases refused with
  | collision _ _ => exact ⟨_, _, _, rfl⟩

theorem readText_printRows (laid : rows.filterMap Row.content? = blocks.flatMap ClassBlock.entries)
    (fed : ∀ row ∈ rows, row.ended.ending ≠ .carriageReturn) :
    (readText (String.ofList (printRows rows))).result.outcome =
      (Reading.grow (registerBlocks blocks)).result.outcome := by
  have lines : Text.lines (printRows rows) = (rows.map Row.ended).map Text.EndedLine.beforeFeed :=
    Text.lines_flatMap (by simpa using fed)
  rw [readText, String.toList_ofList, lines]
  exact readLines_of_texts laid rfl

theorem readBytes_printRows (laid : rows.filterMap Row.content? = blocks.flatMap ClassBlock.entries) (path : LooseText) :
    (readBytes path (String.ofList (printRows rows)).toUTF8).result.outcome =
      (Reading.grow (registerBlocks blocks)).result.outcome := by
  obtain ⟨kept, tidied, unified⟩ := Text.unifyLineEnds_flatMap (rows.map Row.ended)
  -- With their ends unified, the rows that are kept are read as those of a text are.
  have lines : Text.lines (Text.unifyLineEnds (printRows rows)) = kept.map Text.EndedLine.beforeFeed := by
    rw [printRows, unified]
    refine Text.lines_flatMap fun row member => ?_
    rw [tidied.fed row member]
    decide
  have decoded : readBytes path (String.ofList (printRows rows)).toUTF8 =
      readLines (Text.lines (Text.unifyLineEnds (printRows rows))) := by
    simp only [readBytes, Text.decodeUtf8_toUTF8]
  rw [decoded, lines]
  exact readLines_of_texts laid tidied.texts

/-- Reading a printed mapping comes to what registering its blocks on an empty tree comes to, be it a
tree or a collision, whatever blank lines and comments stand between its lines, and the signatures
of its methods are read as they were put together. -/
theorem read_printRows (laid : rows.filterMap Row.content? = blocks.flatMap ClassBlock.entries) :
    ((∀ row ∈ rows, row.ended.ending ≠ .carriageReturn) →
      (readText (String.ofList (printRows rows))).result.outcome =
        (Reading.grow (registerBlocks blocks)).result.outcome) ∧
    (∀ path, (readBytes path (String.ofList (printRows rows)).toUTF8).result.outcome =
      (Reading.grow (registerBlocks blocks)).result.outcome) ∧
    (∀ fault, (Reading.grow (registerBlocks blocks)).result.outcome = .error fault →
      ∃ obfuscation holder claimant, fault = .naming (.obfuscationTaken obfuscation holder claimant)) ∧
    ∀ block ∈ blocks, ∀ method ∈ block.methods, Signature.parse? method.text = some method.signature ∧
      Signature.parse? method.signature.print = some method.signature :=
  ⟨readText_printRows laid, readBytes_printRows laid, fun _ => obfuscationTaken_of_registerBlocks,
    fun _ _ method _ => ⟨method.parse?_text, method.parse?_print⟩⟩

end

def sampleMethod : MethodRecord where
  range := some (⟨"12", by decide⟩, ⟨"14", by decide⟩)
  returns := ⟨"void", by decide⟩
  name := ⟨"bar$0", by decide⟩
  arguments := [⟨⟨"int[][]", by decide⟩, false⟩, ⟨⟨"java.lang.String", by decide⟩, true⟩, ⟨⟨"Foo", by decide⟩, false⟩]
  obfuscation := ⟨"a", by decide⟩

def sampleBlock : ClassBlock where
  name := ⟨"com.example.Foo", by decide⟩
  obfuscated := ⟨"b.a", by decide⟩
  members := [.field ⟨⟨"int", by decide⟩, ⟨"count", by decide⟩, ⟨"b", by decide⟩⟩, .method sampleMethod]

def sampleRows : List Row :=
  .silent "# compiler".toList (by decide) (by decide) .returnAndFeed ::
    .silent "\t".toList (by decide) (by decide) .lineFeed ::
      sampleBlock.entries.map fun entry => .printed entry .returnAndFeed

theorem read_printRows_sample :
    String.ofList (printRows sampleRows) =
      "# compiler\r\n\t\ncom.example.Foo -> b.a:\r\n    int count -> b\r\n" ++
        "    12:14:void bar$0(int[][], java.lang.String,Foo) -> a\r\n" ∧
    (sampleRows.filterMap Row.content? = [sampleBlock].flatMap ClassBlock.entries) ∧
    (readText (String.ofList (printRows sampleRows))).result.outcome =
      (Reading.grow (registerBlocks [sampleBlock])).result.outcome := by
  have laid : sampleRows.filterMap Row.content? = [sampleBlock].flatMap ClassBlock.entries := rfl
  exact ⟨by decide +kernel, laid, (read_printRows laid).1 (by decide +kernel)⟩

end Mapping

end ClearNames
