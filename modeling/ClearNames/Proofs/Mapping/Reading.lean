import ClearNames.Mapping.Reader
import ClearNames.Proofs.Mapping.Grammar
import ClearNames.Proofs.Mapping.Trees

/-! What is known of a tree once a mapping is read into it.

Reading a line that can be taken up is performing what the line says. Each
performance keeps the invariants up: a class line reaches the node of its path
and marks it, and a method line makes types of class paths only.
-/

set_option autoImplicit false

namespace ClearNames

namespace Mapping
open NameTree MappingLine

/-! ## What lines say -/

/-- What a line says: nothing where it is skipped, or has none of the shapes. -/
def said? (line : List Char) : Option MappingLine := if isSkipped line then none else parse? line

def paths? : MappingLine → Option (String × String)
  | .javaClass name obfuscated => some (name, obfuscated)
  | _ => none

def classLine? (line : List Char) : Option (String × String) := (said? line).bind paths?

theorem written_of_said? {line : List Char} {shape : MappingLine} (said : said? line = some shape) : shape.Written := by
  unfold said? at said
  split at said
  · cases said
  · exact (parse?_eq_some_iff.mp said).1

/-- Why a line cannot be taken up, given whether a class line came before. -/
def problem? (opened : Bool) (line : List Char) : Option LineProblem :=
  if isSkipped line then none
  else match parse? line with
    | none => some .unknownShape
    | some (.javaClass ..) => none
    | some (.field ..) => if opened then none else some .fieldOutsideClass
    | some (.method ..) => if opened then none else some .methodOutsideClass

/-- Do to a tree what a line says, given the node of the class line before; give that node for the next line. -/
def perform (current : Option Scope) : MappingLine → Growth (Option Scope)
  | .javaClass name obfuscated => some <$> aliasScope name (lastSegment obfuscated)
  | .field .. => pure current
  | .method _ signature obfuscation =>
    match current with
    | some (.javaClass owner) => (fun _ => current) <$> registerMethod owner signature obfuscation
    | _ => pure current

def takeUp (current : Option Scope) (line : List Char) : Growth (Option Scope) :=
  match said? line with
  | none => pure current
  | some shape => perform current shape

/-- What a line that was performed to its end did to a tree, and the node that it gave for the next line. -/
inductive Performed : Option Scope → MappingLine → Option Scope → NameTree → NameTree → Prop
  | javaClass {current : Option Scope} {name obfuscated : String} {scope : Scope} {before after : NameTree}
      (ran : (aliasScope name (lastSegment obfuscated)).on before = (.ok scope, after)) :
      Performed current (.javaClass name obfuscated) (some scope) before after
  | field {current : Option Scope} {type name obfuscation : String} {tree : NameTree} :
      Performed current (.field type name obfuscation) current tree tree
  | method {owner : ClassId} {range text obfuscation : String} {outcome : Registration} {before after : NameTree}
      (ran : (registerMethod owner text obfuscation).on before = (.ok outcome, after)) :
      Performed (some (.javaClass owner)) (.method range text obfuscation) (some (.javaClass owner)) before after
  | aside {current : Option Scope} {range text obfuscation : String} {tree : NameTree}
      (outside : ∀ owner, current ≠ some (.javaClass owner)) :
      Performed current (.method range text obfuscation) current tree tree

section
variable {current next : Option Scope} {before after : NameTree}

theorem performed_of_perform {shape : MappingLine} (ran : (perform current shape).on before = (.ok next, after)) :
    Performed current shape next before after := by
  cases shape with
  | javaClass name obfuscated =>
    obtain ⟨scope, aliased, rfl⟩ := Growth.on_map_eq_ok ran
    exact .javaClass aliased
  | field type name obfuscation =>
    cases ran
    exact .field
  | method range text obfuscation =>
    rcases current with _ | (id | owner)
    · cases ran
      exact .aside nofun
    · cases ran
      exact .aside nofun
    · obtain ⟨outcome, registered, rfl⟩ := Growth.on_map_eq_ok ran
      exact .method registered

theorem takeUp_eq_ok {line : List Char} (ran : (takeUp current line).on before = (.ok next, after)) :
    (said? line = none ∧ next = current ∧ after = before) ∨
      ∃ shape, said? line = some shape ∧ Performed current shape next before after := by
  unfold takeUp at ran
  cases said : said? line with
  | none =>
    rw [said] at ran
    cases ran
    exact .inl ⟨rfl, rfl, rfl⟩
  | some shape =>
    rw [said] at ran
    exact .inr ⟨shape, rfl, performed_of_perform ran⟩

end

/-! ## Reading is performing -/

/-- A reading step did to the tree what a growth step does, and came to the same node or fault. -/
def Agrees (run : Except RenameLogFault Progress × ReadingState)
    (growth : Except NamingFault (Option Scope) × NameTree) : Prop :=
  run.1.map Progress.current = growth.1.mapError .naming ∧ run.2.tree = growth.2

theorem Agrees.ends {run : Except RenameLogFault Progress × ReadingState}
    {growth : Except NamingFault (Option Scope) × NameTree} (agrees : Agrees run growth) :
    (∃ fault state, run = (.error (.naming fault), state) ∧ growth = (.error fault, state.tree)) ∨
      ∃ progress state, run = (.ok progress, state) ∧ growth = (.ok progress.current, state.tree) := by
  obtain ⟨same, trees⟩ := agrees
  rcases run with ⟨fault | progress, state⟩ <;> rcases growth with ⟨other | current, tree⟩ <;> cases same <;>
    cases trees
  · exact .inl ⟨_, state, rfl, rfl⟩
  · exact .inr ⟨progress, state, rfl, rfl⟩

section
variable {α : Type} {step : Growth α} {progress later : Progress} {number : Nat} {line : List Char}
  {state after : ReadingState}

theorem agrees_grow {next : α → Reading Progress} {current : α → Option Scope}
    (ends : ∀ value between, ∃ progress last, (next value).on between = (.ok progress, last) ∧
      progress.current = current value ∧ last.tree = between.tree) :
    Agrees ((Reading.grow step >>= next).on state) ((current <$> step).on state.tree) := by
  rcases ran : step.on state.tree with ⟨fault | value, tree⟩
  · have grown : (Reading.grow step).on state = (.error (.naming fault), { state with tree }) := by
      rw [Reading.on_grow, ran]
    rw [Reading.on_bind_of_error grown, Growth.on_map, ran]
    exact ⟨rfl, rfl⟩
  · have grown : (Reading.grow step).on state = (.ok value, { state with tree }) := by
      rw [Reading.on_grow, ran]
    obtain ⟨progress, last, ended, same, kept⟩ := ends value { state with tree }
    rw [Reading.on_bind_of_ok grown, ended, Growth.on_map, ran]
    exact ⟨congrArg Except.ok same, kept⟩

theorem readMethod_agrees (owner : ClassId) (text obfuscation : String) :
    Agrees ((readMethod progress owner text obfuscation).on state)
      (((fun _ => progress.current) <$> registerMethod owner text obfuscation).on state.tree) := by
  unfold readMethod
  refine agrees_grow fun outcome between => ?_
  cases outcome with
  | registered id => exact ⟨_, between, rfl, rfl, rfl⟩
  | duplicate holder => exact ⟨_, _, rfl, rfl, rfl⟩

theorem readLine_of_problem {problem : LineProblem} (faulty : problem? progress.current.isSome line = some problem) :
    (readLine progress number line).on state = (.error (.line problem number (String.ofList line)), state) := by
  unfold readLine
  unfold problem? at faulty
  split at faulty
  · cases faulty
  next solid =>
    simp only [solid]
    cases parsed : parse? line with
    | none =>
      rw [parsed] at faulty
      cases faulty
      rfl
    | some shape =>
      rw [parsed] at faulty
      cases current : progress.current with
      | some scope => cases shape <;> simp [current] at faulty
      | none =>
        cases shape with
        | javaClass name obfuscated => cases faulty
        | field type name obfuscation =>
          simp only [current] at faulty
          cases faulty
          rfl
        | method range text obfuscation =>
          simp only [current] at faulty
          cases faulty
          rfl

theorem readLine_agrees (sound : problem? progress.current.isSome line = none) (number : Nat) (state : ReadingState) :
    Agrees ((readLine progress number line).on state) ((takeUp progress.current line).on state.tree) := by
  unfold readLine takeUp said?
  unfold problem? at sound
  cases skipped : isSkipped line with
  | true =>
    simp only [if_true]
    exact ⟨rfl, rfl⟩
  | false =>
    simp only [skipped] at sound ⊢
    cases parsed : parse? line with
    | none => simp [parsed] at sound
    | some shape =>
      cases shape with
      | javaClass name obfuscated =>
        exact agrees_grow fun scope between => ⟨_, between, rfl, rfl, rfl⟩
      | field type name obfuscation =>
        cases current : progress.current with
        | none => simp [parsed, current] at sound
        | some scope => exact ⟨congrArg Except.ok current, rfl⟩
      | method range text obfuscation =>
        cases current : progress.current with
        | none => simp [parsed, current] at sound
        | some scope =>
          cases scope with
          | package id => exact ⟨congrArg Except.ok current, rfl⟩
          | javaClass owner =>
            have agrees : Agrees ((readMethod progress owner text obfuscation).on state) _ :=
              readMethod_agrees owner text obfuscation
            rw [current] at agrees
            exact agrees

theorem problem?_of_readLine_eq_ok (ran : (readLine progress number line).on state = (.ok later, after)) :
    problem? progress.current.isSome line = none := by
  cases faulty : problem? progress.current.isSome line with
  | none => rfl
  | some problem =>
    rw [readLine_of_problem faulty] at ran
    cases ran

theorem takeUp_of_readLine_eq_ok (ran : (readLine progress number line).on state = (.ok later, after)) :
    (takeUp progress.current line).on state.tree = (.ok later.current, after.tree) := by
  have agrees := readLine_agrees (problem?_of_readLine_eq_ok ran) number state
  rcases agrees.ends with ⟨fault, last, stopped, -⟩ | ⟨next, last, reached, grown⟩
  · cases ran.symm.trans stopped
  · cases ran.symm.trans reached
    exact grown

end

/-! ## Keeping the invariants up -/

/-- What a step does to a tree keeps the invariants up, under the same class lines. -/
def Keeping (entries : List (String × String)) (tree later : NameTree) : Prop :=
  Follows entries tree → Follows entries later

instance (entries : List (String × String)) : Std.Refl (Keeping entries) := ⟨fun _ => id⟩

instance (entries : List (String × String)) : Trans (Keeping entries) (Keeping entries) (Keeping entries) :=
  ⟨fun first second => second ∘ first⟩

section
variable {entries : List (String × String)} {tree : NameTree}

theorem fits_of_isTypeName {descriptor : String} (isType : isTypeName descriptor.toList) {part : List String}
    (within : part <+: segments (Descriptor.ofString descriptor).base) : IsPath part :=
  (isPath_of_isTypeName isType).front within

theorem findOrAddMethod_keeping (follows : Follows entries tree) {owner : ClassId} {signature : Signature}
    {arguments : List TypeUse} (known : tree.HasClass owner) (returns : isTypeName signature.returns.toList)
    (spelled : List.Forall₂ tree.Spells signature.arguments arguments) :
    Growth.Leads (Keeping entries) (findOrAddMethod owner signature arguments) tree fun id later =>
      later.HasMethod id := by
  have finds : Growth.Leads (Keeping entries) (findOrAddMethod owner signature arguments) tree _ :=
    Growth.findOrAddMethod_leads_of follows.natural.formed known (hasType_of_spelled spelled)
      (fun _ => fits_of_isTypeName returns) (fun grown follows => follows.grown grown)
      fun _ _ grounded vacant follows => follows.addMethod grounded vacant (dimension_of_spelled spelled)
  exact finds.imp fun _ _ _ found => found.1

theorem registerMethod_keeping (follows : Follows entries tree) {owner : ClassId} (known : tree.HasClass owner)
    {range text obfuscation : String} (written : Written (.method range text obfuscation)) :
    Growth.Leads (Keeping entries) (registerMethod owner text obfuscation) tree fun _ _ => True := by
  unfold registerMethod
  refine (Growth.readSignature_leads text).bind fun signature between _ read => ?_
  obtain ⟨parsed, rfl⟩ := read
  obtain ⟨returns, argumentTypes⟩ := isTypeName_of_parse? written parsed
  -- Types are resolved before the duplicate is looked for, so that their classes stay in either case.
  have grows : (resolveTypes signature.arguments).Grows IsPath between _ :=
    Growth.resolveTypes_grows signature.arguments follows.natural.formed
      fun argument member _ => fits_of_isTypeName (argumentTypes argument member)
  have grown := grows.imp fun _ _ grown holds => And.intro grown holds.1
  refine (grown.mono fun grown follows => follows.grown grown).bind fun arguments named keeping holds => ?_
  obtain ⟨grown, spelled⟩ := holds
  refine .get ?_
  split
  · exact .pure trivial
  · have made := findOrAddMethod_keeping (keeping follows) (grown.keeps.hasClass known) returns spelled
    refine made.bind fun id later _ there => ?_
    have marked : Growth.Leads (Keeping entries) (obfuscateMethod id (some obfuscation)) later fun _ _ => True := by
      unfold obfuscateMethod
      refine .get ?_
      split
      · exact .throw _
      · next free =>
        have identifier := isIdentifier_of_written written
        exact .set (fun follows => follows.obfuscateMethod there (by simpa using free) identifier) trivial
    refine marked.bind fun _ _ _ _ => ?_
    exact .pure trivial

theorem resolve_follows (follows : Follows entries tree) {name : String} (isName : isClassPath name.toList)
    {scope : Scope} {later : NameTree} (ran : (resolve name).on tree = (.ok scope, later)) :
    Follows entries later ∧ later.HasScope scope ∧ later.scopeSegments scope = segments name := by
  have grows : (resolve name).Grows IsPath tree _ := Growth.resolve_grows follows.natural.formed name
    fun _ within => (isPath_of_isClassPath isName).front within
  have reached := grows.returns ran
  exact ⟨follows.grown (grows.moved_to ran), reached.known, reached.segments⟩

theorem aliasScope_follows (follows : Follows entries tree) {name obfuscated : String}
    (written : Written (.javaClass name obfuscated)) {scope : Scope} {later : NameTree}
    (ran : (aliasScope name (lastSegment obfuscated)).on tree = (.ok scope, later)) :
    Follows (entries ++ [(name, obfuscated)]) later ∧ later.HasScope scope ∧
      later.scopeSegments scope = segments name := by
  obtain ⟨reachedScope, between, resolved, rest⟩ := Growth.on_bind_eq_ok ran
  obtain ⟨_, marked, obfuscates, ends⟩ := Growth.on_bind_eq_ok rest
  cases ends
  obtain ⟨isName, isTarget⟩ := isClassPath_of_written written
  obtain ⟨kept, known, path⟩ := resolve_follows follows isName resolved
  have identifier : isIdentifier (lastSegment obfuscated).toList :=
    (isPath_of_isClassPath isTarget).1 _ (lastSegment_mem obfuscated)
  obtain ⟨rfl, mark⟩ := Growth.mark_of_on_obfuscateScope known obfuscates
  refine ⟨kept.obfuscateScope known path identifier mark, mark.alike.keeps.hasScope known, ?_⟩
  rw [mark.alike.keeps.scopeSegments kept.natural.formed.founded known]
  exact path

/-- The node that member lines belong to: that of the last class line. -/
structure Stands (entries : List (String × String)) (current : Option Scope) (tree : NameTree) : Prop where
  known : ∀ {scope}, current = some scope → tree.HasScope scope
  path : current.map tree.scopeSegments = entries.getLast?.map fun entry => segments entry.1

theorem stands_empty (tree : NameTree) : Stands [] none tree := ⟨by rintro _ ⟨⟩, rfl⟩

theorem Stands.keeps {current : Option Scope} {later : NameTree} (stands : Stands entries current tree)
    (founded : tree.Founded) (keeps : tree.Keeps later) : Stands entries current later := by
  refine ⟨fun here => keeps.hasScope (stands.known here), ?_⟩
  rw [← stands.path]
  cases here : current with
  | none => rfl
  | some scope => exact congrArg some (keeps.scopeSegments founded (stands.known here))

theorem Stands.isSome {current : Option Scope} (stands : Stands entries current tree) :
    current.isSome = !entries.isEmpty := by
  have shared := congrArg Option.isSome stands.path
  rw [Option.isSome_map, Option.isSome_map] at shared
  cases entries with
  | nil => exact shared
  | cons first rest => simpa [List.getLast?_cons] using shared

theorem Performed.follows {current next : Option Scope} {shape : MappingLine} {grown : NameTree}
    (performed : Performed current shape next tree grown) (follows : Follows entries tree)
    (stands : Stands entries current tree) (written : shape.Written) :
    Follows (entries ++ (paths? shape).toList) grown ∧ Stands (entries ++ (paths? shape).toList) next grown := by
  cases performed with
  | javaClass aliased =>
    obtain ⟨kept, known, path⟩ := aliasScope_follows follows written aliased
    refine ⟨kept, fun here => ?_, ?_⟩
    · cases here
      exact known
    · simp [paths?, path]
  | field => simpa [paths?] using ⟨follows, stands⟩
  | aside outside => simpa [paths?] using ⟨follows, stands⟩
  | @method owner range text obfuscation outcome _ _ registered =>
    have known : tree.HasClass owner := stands.known rfl
    have formed := follows.natural.formed
    have keeping := (registerMethod_keeping follows known written).moved_to registered
    have altered := (Growth.registerMethod_alters formed known text obfuscation).moved_to registered
    simpa [paths?] using ⟨keeping follows, stands.keeps formed.founded altered.keeps⟩

theorem takeUp_follows {current next : Option Scope} {line : List Char} {grown : NameTree}
    (follows : Follows entries tree) (stands : Stands entries current tree)
    (ran : (takeUp current line).on tree = (.ok next, grown)) :
    Follows (entries ++ (classLine? line).toList) grown ∧ Stands (entries ++ (classLine? line).toList) next grown := by
  rw [classLine?]
  rcases takeUp_eq_ok ran with ⟨silent, rfl, rfl⟩ | ⟨shape, said, performed⟩
  · rw [silent]
    simpa using ⟨follows, stands⟩
  · rw [said]
    exact performed.follows follows stands (written_of_said? said)

end

/-! ## Runs -/

def classEntries (lines : List (List Char)) : List (String × String) :=
  lines.filterMap fun line => classLine? (withoutLineEnd line)

theorem classEntries_append (front back : List (List Char)) :
    classEntries (front ++ back) = classEntries front ++ classEntries back := List.filterMap_append

theorem classEntries_singleton (line : List Char) :
    classEntries [line] = (classLine? (withoutLineEnd line)).toList := by
  unfold classEntries
  cases said : classLine? (withoutLineEnd line) <;> simp [said]

def textEntries (text : String) : List (String × String) := classEntries (Text.lines text.toList)

section
variable {tree : NameTree}

theorem readFrom_keeps {holds : List (List Char) → Option Scope → NameTree → Prop}
    (step : ∀ {past line current next tree grown}, holds past current tree →
      (takeUp current (withoutLineEnd line)).on tree = (.ok next, grown) → holds (past ++ [line]) next grown)
    {past lines : List (List Char)} {number : Nat} {progress later : Progress} {before after : ReadingState}
    (start : holds past progress.current before.tree)
    (ran : (readFrom progress number lines).on before = (.ok later, after)) :
    holds (past ++ lines) later.current after.tree := by
  induction lines generalizing past progress number before with
  | nil =>
    cases ran
    simpa using start
  | cons line rest ih =>
    obtain ⟨next, between, first, others⟩ := Reading.on_bind_eq_ok ran
    have kept := ih (step start (takeUp_of_readLine_eq_ok first)) others
    rwa [List.append_assoc] at kept

theorem readText_keeps {holds : List (List Char) → Option Scope → NameTree → Prop}
    (step : ∀ {past line current next tree grown}, holds past current tree →
      (takeUp current (withoutLineEnd line)).on tree = (.ok next, grown) → holds (past ++ [line]) next grown)
    (start : holds [] none .empty) {text : String} (accepted : (readText text).result.outcome = .ok tree) :
    ∃ current, holds (Text.lines text.toList) current tree := by
  obtain ⟨state, ran, rfl⟩ := Reading.on_of_result_eq_ok accepted
  obtain ⟨progress, between, lines, summarised⟩ := Reading.on_bind_eq_ok ran
  have kept : holds ([] ++ Text.lines text.toList) _ _ := readFrom_keeps step start lines
  cases summarised
  exact ⟨progress.current, kept⟩

/-- The invariants, with the node that member lines belong to. -/
def ReadTo (past : List (List Char)) (current : Option Scope) (tree : NameTree) : Prop :=
  Follows (classEntries past) tree ∧ Stands (classEntries past) current tree

theorem readTo_empty : ReadTo [] none .empty := ⟨follows_empty, stands_empty .empty⟩

theorem ReadTo.step {past : List (List Char)} {line : List Char} {current next : Option Scope} {tree grown : NameTree}
    (reads : ReadTo past current tree) (ran : (takeUp current (withoutLineEnd line)).on tree = (.ok next, grown)) :
    ReadTo (past ++ [line]) next grown := by
  unfold ReadTo
  rw [classEntries_append, classEntries_singleton]
  exact takeUp_follows reads.1 reads.2 ran

/-- A mapping text that is accepted, whose class lines name classes, gives a tree with all invariants. -/
theorem readText_mapped {text : String} (clear : ∀ entry ∈ textEntries text, NamesClass entry.1)
    (accepted : (readText text).result.outcome = .ok tree) : Mapped (textEntries text) tree := by
  obtain ⟨current, follows, -⟩ := readText_keeps ReadTo.step readTo_empty accepted
  exact follows.mapped clear

end

end Mapping

end ClearNames
