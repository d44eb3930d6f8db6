import ClearNames.Proofs.Mapping.Reading
import Mathlib.Data.List.Induction

/-! Which lines a mapping is not read past.

A line is refused for its shape, for its place before every class line, or for
the alias of a package that a package beside it carries already. Nothing else
fails: class paths and the types of method lines are cased so that they can be
resolved, and a method whose alias is taken is passed over.
-/

set_option autoImplicit false

namespace ClearNames

namespace NameTree

section
variable {tree : NameTree}

theorem Natural.inner_package (natural : tree.Natural) {id : PackageId} (known : tree.HasPackage id)
    {front : List String} {last : String} (path : tree.packageSegments id = front ++ [last]) (inner : front ≠ []) :
    ∃ parent, (tree.package id).parent = some parent ∧ tree.HasPackage parent ∧
      tree.packageSegments parent = front ∧ id ∈ (tree.package parent).children.values ∧
      SegmentKind.of last = .package := by
  have founded := natural.formed.founded
  have full := founded.scopeSegments_eq (show tree.HasScope (.package id) from known)
  have placed := natural.package known
  unfold PackagePlaced at placed
  rw [scopeSegments, path] at full
  cases owned : (tree.package id).parent with
  | none =>
    simp only [ownerOf, owned, Option.map_none] at full
    exact absurd (List.append_inj_left' full rfl) inner
  | some parent =>
    simp only [ownerOf, owned, Option.map_some] at full
    rw [owned] at placed
    obtain rfl : last = (tree.package id).name := by simpa [simpleName] using List.append_inj_right' full rfl
    have above : tree.HasScope (.package parent) :=
      founded.hasOwner (show tree.HasScope (.package id) from known) (congrArg (Option.map Scope.package) owned)
    have inside := OrderedTable.mem_values.mpr ⟨_, placed.2.2⟩
    exact ⟨parent, rfl, above, (List.append_inj_left' full rfl).symm, inside, placed.2.1⟩

theorem Natural.eq_of_packageSegments_eq (natural : tree.Natural) {first second : PackageId}
    (firstKnown : tree.HasPackage first) (secondKnown : tree.HasPackage second)
    (same : tree.packageSegments first = tree.packageSegments second) : first = second := by
  have twins : Scope.package first = .package second := natural.eq_of_scopeSegments_eq
    (show tree.HasScope (.package first) from firstKnown) (show tree.HasScope (.package second) from secondKnown) same
  injection twins

theorem Founded.packageSegments_childAt (founded : tree.Founded) {parent id : PackageId} {name : String}
    (placed : tree.ChildAt parent name id) : tree.packageSegments id = tree.packageSegments parent ++ [name] :=
  founded.scopeSegments_insideAt placed.insideAt

theorem siblingWith_eq_some_iff (apart : tree.Apart) {id parent sibling : PackageId} {text : String}
    (owned : (tree.package id).parent = some parent) :
    tree.siblingWith id text = some sibling ↔ sibling ∈ (tree.package parent).children.values ∧ sibling ≠ id ∧
      (tree.package sibling).obfuscation = some text := by
  simp only [siblingWith, owned, Option.bind_eq_bind, Option.bind_some]
  rw [find?_eq_some_iff_only, decide_eq_true_eq]
  intro first firstIn second secondIn firstFits secondFits
  exact apart.packages firstIn secondIn (of_decide_eq_true firstFits).2 (of_decide_eq_true secondFits).2

theorem on_obfuscatePackage_of_free {id : PackageId} {text : String} (free : tree.siblingWith id text = none) :
    (obfuscatePackage id (some text)).on tree = (.ok ⟨⟩, tree.putPackageObfuscation id (some text)) := by
  unfold obfuscatePackage
  rw [Growth.on_get_bind]
  simp [free]

theorem on_obfuscatePackage_of_sibling {id sibling : PackageId} {text : String}
    (found : tree.siblingWith id text = some sibling) :
    (obfuscatePackage id (some text)).on tree =
      (.error (.obfuscationTaken text (tree.describePackage sibling) (tree.describePackage id)), tree) := by
  unfold obfuscatePackage
  rw [Growth.on_get_bind]
  simp [found]

end

end NameTree

namespace Mapping
open NameTree MappingLine

/-! ## Collisions -/

def besidePath (name sibling : String) : List String := (segments name).dropLast ++ [sibling]

/-- A class line names a package inside another, and a package beside that one carries what it says. -/
structure Collides (entries : List (String × String)) (entry : String × String) (sibling : String) : Prop where
  inner : (segments entry.1).dropLast ≠ []
  package : SegmentKind.of (lastSegment entry.1) = .package
  siblingPackage : SegmentKind.of sibling = .package
  beside : sibling ≠ lastSegment entry.1
  taken : aliasOf entries (besidePath entry.1 sibling) = some (lastSegment entry.2)

section
variable {entries : List (String × String)} {entry : String × String} {tree : NameTree}

theorem Follows.siblingWith_of_collides (follows : Follows entries tree) {id : PackageId}
    (known : tree.HasPackage id) (path : tree.packageSegments id = segments entry.1) {sibling : String}
    (collides : Collides entries entry sibling) :
    ∃ other, tree.siblingWith id (lastSegment entry.2) = some other ∧
      tree.packageSegments other = besidePath entry.1 sibling := by
  have natural := follows.natural
  have full := path.trans (dropLast_append_lastSegment entry.1).symm
  obtain ⟨parent, owned, parentKnown, parentPath, -, -⟩ := natural.inner_package known full collides.inner
  -- The line that gave the alias made a node of the sibling's full name, which by its casing is a package.
  obtain ⟨given, member, named, -⟩ := aliasOf_eq_some collides.taken
  obtain ⟨scope, there, scopePath⟩ := follows.entered given member
  rw [named] at scopePath
  cases scope with
  | javaClass other =>
    have split := natural.formed.founded.scopeSegments_eq there
    rw [scopePath, besidePath] at split
    have last : sibling = (tree.javaClass other).name := by simpa [simpleName] using List.append_inj_right' split rfl
    have kind := (natural.javaClass there).2.1
    rw [← last, collides.siblingPackage] at kind
    cases kind
  | package other =>
    obtain ⟨around, -, aroundKnown, aroundPath, inside, -⟩ := natural.inner_package there scopePath collides.inner
    obtain rfl := natural.eq_of_packageSegments_eq aroundKnown parentKnown (aroundPath.trans parentPath.symm)
    refine ⟨other, (siblingWith_eq_some_iff natural.formed.apart owned).mpr ⟨inside, ?_, ?_⟩, scopePath⟩
    · rintro rfl
      have same : besidePath entry.1 sibling = _ := scopePath.symm.trans full
      exact collides.beside (by simpa [besidePath] using same)
    · have carries := follows.carried there
      rw [scopePath, collides.taken] at carries
      exact carries

theorem Follows.collides_of_siblingWith (follows : Follows entries tree) {id other : PackageId}
    (known : tree.HasPackage id) (path : tree.packageSegments id = segments entry.1)
    (found : tree.siblingWith id (lastSegment entry.2) = some other) :
    Collides entries entry (tree.package other).name := by
  have natural := follows.natural
  have founded := natural.formed.founded
  cases owned : (tree.package id).parent with
  | none => simp [siblingWith, owned] at found
  | some parent =>
    obtain ⟨inside, apart, carries⟩ := (siblingWith_eq_some_iff natural.formed.apart owned).mp found
    obtain ⟨name, entered⟩ := OrderedTable.mem_values.mp inside
    have placed := natural.formed.entered.child entered
    have otherPath := founded.packageSegments_childAt placed
    obtain ⟨otherKnown, rfl, -⟩ := placed
    have ownPath := founded.packageSegments_childAt ⟨known, rfl, owned⟩
    rw [path, ← dropLast_append_lastSegment entry.1] at ownPath
    have front := List.append_inj_left' ownPath rfl
    have inner : (segments entry.1).dropLast ≠ [] := by
      rw [front]
      simp [packageSegments]
    rw [← front] at otherPath
    have full := path.trans (dropLast_append_lastSegment entry.1).symm
    obtain ⟨-, -, -, -, -, kind⟩ := natural.inner_package known full inner
    obtain ⟨-, -, -, -, -, siblingKind⟩ := natural.inner_package otherKnown otherPath inner
    refine ⟨inner, kind, siblingKind, fun same => ?_, ?_⟩
    · rw [same] at otherPath
      exact apart (natural.eq_of_packageSegments_eq otherKnown known (otherPath.trans full.symm))
    · rw [besidePath, ← otherPath]
      exact (follows.carried (show tree.HasScope (.package other) from otherKnown)).symm.trans carries

/-! ## Class lines -/

theorem aliasScope_cases (follows : Follows entries tree) (written : Written (.javaClass entry.1 entry.2)) :
    (∀ sibling, Collides entries entry sibling → ∃ later, (aliasScope entry.1 (lastSegment entry.2)).on tree =
      (.error (.obfuscationTaken (lastSegment entry.2)
        ("<Package " ++ ".".intercalate (besidePath entry.1 sibling) ++ ">") ("<Package " ++ entry.1 ++ ">")), later)) ∧
    ((∀ sibling, ¬ Collides entries entry sibling) →
      Growth.Succeeds (aliasScope entry.1 (lastSegment entry.2)) tree) := by
  obtain ⟨isName, -⟩ := isClassPath_of_written written
  have resolves : Growth.Succeeds (resolve entry.1) tree :=
    Growth.resolve_succeeds (wellCased_of_isPath (isPath_of_isClassPath isName))
  obtain ⟨scope, between, resolved⟩ := resolves
  obtain ⟨kept, known, path⟩ := resolve_follows follows isName resolved
  have unfolded : (aliasScope entry.1 (lastSegment entry.2)).on tree =
      (do obfuscateScope scope (some (lastSegment entry.2)); pure scope : Growth Scope).on between :=
    Growth.on_bind_of_ok resolved _
  unfold Growth.Succeeds
  rw [unfolded]
  cases scope with
  | javaClass id =>
    -- A class is not compared with what stands beside it.
    refine ⟨fun sibling collides => ?_, fun _ => ⟨_, _, rfl⟩⟩
    have kind := (kept.natural.javaClass known).2.1
    have last : lastSegment entry.1 = (between.javaClass id).name :=
      lastSegment_eq_simpleName kept.natural.formed.founded known path
    rw [← last, collides.package] at kind
    cases kind
  | package id =>
    have shown : between.describePackage id = "<Package " ++ entry.1 ++ ">" := by
      rw [describePackage, packageName, show between.packageSegments id = segments entry.1 from path,
        intercalate_segments]
    refine ⟨fun sibling collides => ?_, fun free => ?_⟩
    · obtain ⟨other, found, otherPath⟩ := kept.siblingWith_of_collides known path collides
      have taken : (obfuscateScope (.package id) (some (lastSegment entry.2))).on between = _ :=
        on_obfuscatePackage_of_sibling found
      refine ⟨between, ?_⟩
      rw [Growth.on_bind_of_error taken, shown, describePackage, packageName, otherPath]
    · cases found : between.siblingWith id (lastSegment entry.2) with
      | none => exact ⟨_, _, Growth.on_bind_of_ok (on_obfuscatePackage_of_free found) _⟩
      | some other => exact absurd (kept.collides_of_siblingWith known path found) (free _)

/-! ## Lines -/

/-- In the signature of a method line, only spaces stand between arguments. -/
def SpacedLine (line : List Char) : Prop :=
  ∀ range text obfuscation, said? line = some (.method range text obfuscation) → Spaced text.toList

theorem said?_of_classLine? {line : List Char} (said : classLine? line = some entry) :
    said? line = some (.javaClass entry.1 entry.2) := by
  rw [classLine?] at said
  obtain ⟨shape, given, paths⟩ := Option.bind_eq_some_iff.mp said
  cases shape <;> cases paths
  exact given

theorem takeUp_of_collides (follows : Follows entries tree) (current : Option Scope) {line : List Char}
    (said : classLine? line = some entry) {sibling : String} (collides : Collides entries entry sibling) :
    ∃ later, (takeUp current line).on tree =
      (.error (.obfuscationTaken (lastSegment entry.2)
        ("<Package " ++ ".".intercalate (besidePath entry.1 sibling) ++ ">") ("<Package " ++ entry.1 ++ ">")), later) := by
  have given := said?_of_classLine? said
  obtain ⟨later, ran⟩ := (aliasScope_cases follows (written_of_said? given)).1 sibling collides
  refine ⟨later, ?_⟩
  simp only [takeUp, given, perform, Growth.on_map, ran]
  rfl

theorem takeUp_succeeds (follows : Follows entries tree) {current : Option Scope} (stands : Stands entries current tree)
    {line : List Char} (spaced : SpacedLine line)
    (free : ∀ entry sibling, classLine? line = some entry → ¬ Collides entries entry sibling) :
    Growth.Succeeds (takeUp current line) tree := by
  unfold takeUp
  cases said : said? line with
  | none => exact .pure current
  | some shape =>
    have written := written_of_said? said
    cases shape with
    | javaClass name obfuscated =>
      have entry : classLine? line = some (name, obfuscated) := by
        rw [classLine?, said]
        rfl
      have cases := aliasScope_cases follows (show Written (.javaClass (name, obfuscated).1 (name, obfuscated).2) from written)
      exact (cases.2 fun sibling => free _ sibling entry).map _
    | field type name obfuscation => exact .pure current
    | method range text obfuscation =>
      cases here : current with
      | none => exact .pure none
      | some scope =>
        cases scope with
        | package id => exact .pure (some (Scope.package id))
        | javaClass owner =>
          obtain ⟨signature, parsed⟩ := exists_parse?_of_spaced written (spaced range text obfuscation said)
          obtain ⟨returns, arguments⟩ := isTypeName_of_parse? written parsed
          have known : tree.HasClass owner := stands.known here
          have registers := Growth.registerMethod_succeeds follows.natural.formed known parsed
            (wellTyped_of_isTypeName returns)
            (fun argument member => wellTyped_of_isTypeName (arguments argument member)) obfuscation
          exact registers.map _

end

/-- Why a line is not read past: its shape or its place, or a collision. -/
inductive Refused (past : List (List Char)) (line : List Char) : RenameLogFault → Prop where
  | line {problem : LineProblem}
      (faulty : problem? (!(classEntries past).isEmpty) (withoutLineEnd line) = some problem) :
      Refused past line (.line problem (past.length + 1) (String.ofList (withoutLineEnd line)))
  | collision {entry : String × String} {sibling : String} (said : classLine? (withoutLineEnd line) = some entry)
      (collides : Collides (classEntries past) entry sibling) :
      Refused past line (.naming (.obfuscationTaken (lastSegment entry.2)
        ("<Package " ++ ".".intercalate (besidePath entry.1 sibling) ++ ">") ("<Package " ++ entry.1 ++ ">")))

section
variable {past : List (List Char)} {line : List Char} {progress : Progress} {state : ReadingState}

theorem readLine_of_refused (reads : ReadTo past progress.current state.tree) {fault : RenameLogFault}
    (refused : Refused past line fault) :
    ∃ after, (readLine progress (past.length + 1) (withoutLineEnd line)).on state = (.error fault, after) := by
  have opened := reads.2.isSome
  cases refused with
  | line faulty =>
    rw [← opened] at faulty
    exact ⟨state, readLine_of_problem faulty⟩
  | collision said collides =>
    have sound : problem? progress.current.isSome (withoutLineEnd line) = none := by
      have given := said?_of_classLine? said
      unfold said? at given
      unfold problem?
      split
      · rfl
      · next solid =>
        rw [if_neg solid] at given
        rw [given]
    obtain ⟨later, ran⟩ := takeUp_of_collides reads.1 progress.current said collides
    rcases (readLine_agrees sound (past.length + 1) state).ends with ⟨fault, after, stopped, same⟩ | ⟨_, _, -, grown⟩
    · cases ran.symm.trans same
      exact ⟨after, stopped⟩
    · cases ran.symm.trans grown

theorem readLine_of_passes (reads : ReadTo past progress.current state.tree) (spaced : SpacedLine (withoutLineEnd line))
    (passes : ∀ fault, ¬ Refused past line fault) :
    ∃ next after, (readLine progress (past.length + 1) (withoutLineEnd line)).on state = (.ok next, after) ∧
      ReadTo (past ++ [line]) next.current after.tree := by
  have sound : problem? progress.current.isSome (withoutLineEnd line) = none := by
    cases faulty : problem? progress.current.isSome (withoutLineEnd line) with
    | none => rfl
    | some problem =>
      rw [reads.2.isSome] at faulty
      exact absurd (.line faulty) (passes _)
  have free : ∀ entry sibling, classLine? (withoutLineEnd line) = some entry →
      ¬ Collides (classEntries past) entry sibling :=
    fun entry sibling said collides => passes _ (.collision said collides)
  obtain ⟨next, later, ran⟩ := takeUp_succeeds reads.1 reads.2 spaced free
  rcases (readLine_agrees sound (past.length + 1) state).ends with ⟨_, _, -, stopped⟩ | ⟨progress, after, reading, -⟩
  · cases ran.symm.trans stopped
  · exact ⟨progress, after, reading, reads.step (takeUp_of_readLine_eq_ok reading)⟩

end

/-! ## Streams of lines -/

/-- No line is refused after the lines before it. -/
def Passes (lines : List (List Char)) : Prop :=
  ∀ front line back fault, lines = front ++ line :: back → ¬ Refused front line fault

/-- The first line that is refused is refused for this fault. -/
def StopsAt (lines : List (List Char)) (fault : RenameLogFault) : Prop :=
  ∃ front line back, lines = front ++ line :: back ∧ Passes front ∧ Refused front line fault

theorem Passes.front {front : List (List Char)} {back : List (List Char)} (passes : Passes (front ++ back)) :
    Passes front := by
  intro before line after fault split
  exact passes before line (after ++ back) fault (by rw [split]; simp)

theorem passes_or_stopsAt (lines : List (List Char)) : Passes lines ∨ ∃ fault, StopsAt lines fault := by
  induction lines using List.reverseRecOn with
  | nil => exact .inl fun front line back fault split => by simp at split
  | append_singleton init last ih =>
    rcases ih with passes | ⟨fault, front, line, back, rfl, passes, refused⟩
    · by_cases refused : ∃ fault, Refused init last fault
      · obtain ⟨fault, refused⟩ := refused
        exact .inr ⟨fault, init, last, [], rfl, passes, refused⟩
      · refine .inl fun front line back fault split => ?_
        rcases List.eq_nil_or_concat back with rfl | ⟨before, final, rfl⟩
        · obtain ⟨rfl, same⟩ := List.append_inj' split rfl
          cases same
          exact fun here => refused ⟨fault, here⟩
        · rw [List.concat_eq_append, ← List.cons_append, ← List.append_assoc] at split
          exact passes front line before fault (List.append_inj' split rfl).1
    · exact .inr ⟨fault, front, line, back ++ [last], by simp, passes, refused⟩

theorem readFrom_append (progress : Progress) (number : Nat) (front back : List (List Char)) :
    readFrom progress number (front ++ back) =
      readFrom progress number front >>= fun next => readFrom next (number + front.length) back := by
  induction front generalizing progress number with
  | nil => simp [readFrom]
  | cons line rest ih =>
    have shift : number + (rest.length + 1) = number + 1 + rest.length := by omega
    simp only [List.cons_append, readFrom, ih, bind_assoc, List.length_cons, shift]

theorem readFrom_of_passes {lines : List (List Char)} (spaced : ∀ line ∈ lines, SpacedLine (withoutLineEnd line))
    (passes : Passes lines) :
    ∃ progress after, (readFrom .start 1 lines).on ⟨.empty, []⟩ = (.ok progress, after) ∧
      ReadTo lines progress.current after.tree := by
  -- On the last line: whether it is refused depends on all lines before it.
  induction lines using List.reverseRecOn with
  | nil => exact ⟨.start, _, rfl, readTo_empty⟩
  | append_singleton init last ih =>
    have spacedInit := fun line member => spaced line (List.mem_append_left [last] member)
    obtain ⟨progress, between, ran, reads⟩ := ih spacedInit passes.front
    have spacedLast := spaced last (List.mem_append_right init List.mem_cons_self)
    obtain ⟨next, after, first, kept⟩ := readLine_of_passes reads spacedLast fun fault =>
      passes init last [] fault rfl
    refine ⟨next, after, ?_, kept⟩
    rw [readFrom_append, Reading.on_bind_of_ok ran, Nat.add_comm]
    exact Reading.on_bind_of_ok first _

/-- A stream of lines is read exactly where no line is refused, and where one is, the first of
these is what is reported: by its number and its text, or by the alias that two packages claim. -/
theorem readLines_outcome {lines : List (List Char)} (spaced : ∀ line ∈ lines, SpacedLine (withoutLineEnd line)) :
    ((∃ tree, (readLines lines).result.outcome = .ok tree) ↔ Passes lines) ∧
      ∀ fault, (readLines lines).result.outcome = .error fault ↔ StopsAt lines fault := by
  have whenPassing (passes : Passes lines) : ∃ tree, (readLines lines).result.outcome = .ok tree := by
    obtain ⟨progress, after, ran, -⟩ := readFrom_of_passes spaced passes
    have ended : (readLines lines).on ⟨.empty, []⟩ = _ := Reading.on_bind_of_ok ran _
    exact ⟨after.tree, by rw [Reading.outcome_eq, ended]; rfl⟩
  have whenStopping {fault : RenameLogFault} (stops : StopsAt lines fault) :
      (readLines lines).result.outcome = .error fault := by
    obtain ⟨front, line, back, rfl, passes, refused⟩ := stops
    have spacedFront := fun line member => spaced line (List.mem_append_left _ member)
    obtain ⟨progress, between, ran, reads⟩ := readFrom_of_passes spacedFront passes
    obtain ⟨after, stuck⟩ := readLine_of_refused reads refused
    have stopped : (readFrom .start 1 (front ++ line :: back)).on ⟨.empty, []⟩ = (.error fault, after) := by
      rw [readFrom_append, Reading.on_bind_of_ok ran, Nat.add_comm]
      exact Reading.on_bind_of_error stuck _
    have ended : (readLines (front ++ line :: back)).on ⟨.empty, []⟩ = _ := Reading.on_bind_of_error stopped _
    rw [Reading.outcome_eq, ended]
    rfl
  -- The two ways to end exclude each other, and one of them is taken.
  refine ⟨⟨fun ⟨tree, read⟩ => ?_, whenPassing⟩, fun fault => ⟨fun failed => ?_, whenStopping⟩⟩
  · rcases passes_or_stopsAt lines with passes | ⟨fault, stops⟩
    · exact passes
    · rw [whenStopping stops] at read
      cases read
  · rcases passes_or_stopsAt lines with passes | ⟨other, stops⟩
    · obtain ⟨tree, read⟩ := whenPassing passes
      rw [failed] at read
      cases read
    · rw [whenStopping stops] at failed
      cases failed
      exact stops

def twinPackages : List (List Char) := ["com.foo.bar -> x.a:\n".toList, "com.foo.baz -> y.a:\n".toList]

theorem readLines_outcome_twinPackages :
    (∀ line ∈ twinPackages, SpacedLine (withoutLineEnd line)) ∧
      StopsAt twinPackages
        (.naming (.obfuscationTaken "a" "<Package com.foo.bar>" "<Package com.foo.baz>")) := by
  have spaced : ∀ line ∈ twinPackages, SpacedLine (withoutLineEnd line) := by
    have classLines : ∀ line ∈ twinPackages, ((said? (withoutLineEnd line)).bind paths?).isSome := by decide +kernel
    intro line member range text obfuscation said
    simpa [said, paths?] using classLines line member
  exact ⟨spaced, ((readLines_outcome spaced).2 _).mp (by decide +kernel)⟩

-- No line of this mapping is misshapen or misplaced, and yet it is refused, for no line of it.
theorem readText_twinPackages :
    (∀ line ∈ Text.lines (String.ofList twinPackages.flatten).toList, problem? false (withoutLineEnd line) = none) ∧
      (readText (String.ofList twinPackages.flatten)).result.outcome =
        .error (.naming (.obfuscationTaken "a" "<Package com.foo.bar>" "<Package com.foo.baz>")) := by
  decide +kernel

end Mapping

end ClearNames
