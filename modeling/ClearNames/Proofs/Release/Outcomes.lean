import ClearNames.Proofs.Disk.Expanding
import ClearNames.Proofs.Release.Summaries
import ClearNames.Proofs.RenameLog.Faults
import ClearNames.Proofs.Settings.Strictness

/-! A release uploads at most once, and exactly when it should.

It returns a result unless its settings cannot be settled, a path cannot be
resolved, or the encoding of an XML log is not known. What is requested follows
from the settings, the files and the flag alone.
-/

set_option autoImplicit false

namespace ClearNames

/-- An answer to a request, or word that there is none; not the end of the program. -/
def ServerReply.IsAnswer : ServerReply → Prop
  | .response _ _ | .unreachable _ => True
  | .breakdown _ | .interruption => False

def ServerReply.Accepts (reply : ServerReply) : Prop :=
  ∃ status text, reply = .response status text ∧ (status = 200 ∨ status = 201)

namespace RenameLog

theorem read_eq_ok_some_iff {disk : Disk} {path : LooseText} {tree : NameTree} :
    (read disk path).tree = .ok (some tree) ↔ ∃ format, formatOf? path = some format ∧
      (readFile disk format path).result.outcome = .ok tree := by
  unfold read
  cases formatOf? path with
  | none => simp [LogAttempt.tree]
  | some format =>
    cases outcome : (readFile disk format path).result.outcome <;> simp [LogAttempt.tree, outcome, Except.map]

end RenameLog

namespace Release
variable {world : World} {server : Server} {config : Json} {dryRun : Bool} {settings : Settings}

/-- Nothing is empty that an upload cannot do without. -/
def Identified (settings : Settings) : Prop := settings.apiKey ≠ "" ∧ settings.environment ≠ "" ∧ settings.build ≠ ""

/-- The project directory is there, and so is the rename log, which has a known extension and is read to a tree. -/
structure Found (world : World) (settings : Settings) (tree : NameTree) : Prop where
  file : world.isFile settings.renameLog
  directory : world.isDirectory settings.projectDirectory
  parsed : ∃ format, RenameLog.formatOf? settings.renameLog = some format ∧
    (RenameLog.readFile world.disk format settings.renameLog).result.outcome = .ok tree

/-- What a release came to and what it requested, as the settings, the files, the flag and the server have it. -/
structure Accounted (world : World) (server : Server) (dryRun : Bool) (settings : Settings) (outcome : ReleaseOutcome)
    (posts : List Post) : Prop where
  once : posts.length ≤ 1
  posted : posts ≠ [] ↔ dryRun = false ∧ Identified settings ∧ ∃ tree, Found world settings tree
  uploaded : outcome.isUploaded ↔ ∃ post ∈ posts, (server post).Accepts
  success : outcome.isSuccess ↔ outcome.isUploaded ∨ dryRun = true ∧ ∃ tree, Found world settings tree
  error : outcome.error ≠ "" ↔ outcome.isSuccess = false
  body : ∀ post ∈ posts, ∃ tree located text, Found world settings tree ∧
    Sources.locate world.disk settings.projectDirectory.systemPath tree .tree = .ok located ∧
    Payload.decode text = .ok located.tree.document ∧
    post.body = Upload.document settings.apiKey settings.environment settings.build text

/-! ## What stands in the way -/

theorem missingKeys_eq_nil_iff : missingKeys settings = [] ↔ Identified settings := by
  rw [missingKeys, List.map_eq_nil_iff, List.filter_eq_nil_iff]
  simp only [List.forall_mem_cons, Settings.text, LooseText.isEmpty_iff]
  exact ⟨fun ⟨key, environment, build, _⟩ => ⟨key, environment, build⟩,
    fun ⟨key, environment, build⟩ => ⟨key, environment, build, List.forall_mem_nil _⟩⟩

theorem obstacle?_eq_none_iff : obstacle? world dryRun settings = none ↔
    world.isFile settings.renameLog ∧ world.isDirectory settings.projectDirectory ∧
      (dryRun = false → Identified settings) := by
  rw [← missingKeys_eq_nil_iff]
  unfold obstacle?
  cases world.isFile settings.renameLog <;> cases world.isDirectory settings.projectDirectory <;>
    cases dryRun <;> simp

theorem message_ne_empty (problem : ReleaseProblem) : problem.message ≠ "" := by
  have front {first : LooseText} (some : first ≠ "") (rest : LooseText) : first ++ rest ≠ "" := by
    intro empty
    have points : first.points ++ rest.points = [] := congrArg LooseText.points empty
    exact some (congrArg LooseText.mk (List.append_eq_nil_iff.mp points).1)
  cases problem with
  | renameLogNotFound path => exact front (by decide) _
  | invalidProjectDirectory path => exact front (by decide) _
  | missingSettings keys => exact front (by decide) _
  | unsupportedFormat path => exact front (by decide) _
  | unreadableLog fault => exact front (by decide) _
  | uploadFailed reason => exact front (by decide) _

theorem accounted_of_missing (problem : ReleaseProblem)
    (missing : ∀ tree, Found world settings tree → dryRun = false ∧ ¬ Identified settings) :
    Accounted world server dryRun settings (.failed problem none) [] where
  once := Nat.zero_le 1
  posted := by
    refine ⟨fun some => absurd rfl some, ?_⟩
    rintro ⟨-, identified, tree, found⟩
    exact absurd identified (missing tree found).2
  uploaded := by simp [ReleaseOutcome.isUploaded]
  success := by
    refine ⟨nofun, ?_⟩
    rintro (uploaded | ⟨rehearsal, tree, found⟩)
    · cases uploaded
    · rw [(missing tree found).1] at rehearsal
      cases rehearsal
  error := ⟨fun _ => rfl, fun _ => message_ne_empty problem⟩
  body := List.forall_mem_nil _

/-! ## The upload -/

section
variable {tree : NameTree} {located : Sources.Located} (found : Found world settings tree)
  (there : Sources.locate world.disk settings.projectDirectory.systemPath tree .tree = .ok located)
include found

theorem accounted_of_rehearsal (summary : ReleaseSummary) :
    Accounted world server true settings (.rehearsed summary) [] where
  once := Nat.zero_le 1
  posted := ⟨fun some => absurd rfl some, nofun⟩
  uploaded := by simp [ReleaseOutcome.isUploaded]
  success := ⟨fun _ => .inr ⟨rfl, tree, found⟩, fun _ => rfl⟩
  error := ⟨fun some => absurd rfl some, nofun⟩
  body := List.forall_mem_nil _

include there

theorem accounted_of_request (identified : Identified settings) {outcome : ReleaseOutcome}
    (uploaded : outcome.isUploaded ↔ (server (request settings located)).Accepts)
    (success : outcome.isSuccess = outcome.isUploaded) (error : outcome.error ≠ "" ↔ outcome.isSuccess = false) :
    Accounted world server false settings outcome [request settings located] where
  once := Nat.le_refl 1
  posted := ⟨fun _ => ⟨rfl, identified, tree, found⟩, fun _ => List.cons_ne_nil _ _⟩
  uploaded := by simpa using uploaded
  success := by simp [success]
  error := error
  body := by
    intro post made
    cases List.mem_singleton.mp made
    exact ⟨tree, located, _, found, there, Payload.decode_encode located.tree, rfl⟩

theorem delivered_accounted (identified : dryRun = false → Identified settings)
    (answers : ∀ post, (server post).IsAnswer) :
    ∃ outcome, delivered server settings dryRun located = .ok outcome ∧
      Accounted world server dryRun settings outcome (if dryRun then [] else [request settings located]) := by
  cases dryRun with
  | true => exact ⟨_, rfl, accounted_of_rehearsal found _⟩
  | false =>
    have accounted := @accounted_of_request world server settings tree located found there (identified rfl)
    have answer := answers (request settings located)
    unfold delivered
    cases reply : server (request settings located) with
    | response status text =>
      rw [reply] at accounted
      by_cases accepted : status = 200 ∨ status = 201
      · refine ⟨.uploaded (summaryOf located), by simp [Upload.answered, accepted, Except.map], ?_⟩
        refine accounted ⟨fun _ => ⟨status, text, rfl, accepted⟩, fun _ => rfl⟩ rfl ⟨fun some => absurd rfl some, ?_⟩
        exact fun same => by cases same
      · refine ⟨.failed (.uploadFailed (Upload.refusal status text)) (some (summaryOf located)),
          by simp [Upload.answered, accepted, Except.map], ?_⟩
        refine accounted ⟨fun same => (by cases same), ?_⟩ rfl ⟨fun _ => rfl, fun _ => message_ne_empty (.uploadFailed _)⟩
        rintro ⟨_, _, same, accepts⟩
        cases same
        exact absurd accepts accepted
    | unreachable reason =>
      rw [reply] at accounted
      refine ⟨.failed (.uploadFailed reason) (some (summaryOf located)), rfl, ?_⟩
      refine accounted ⟨fun same => (by cases same), ?_⟩ rfl ⟨fun _ => rfl, fun _ => message_ne_empty (.uploadFailed _)⟩
      rintro ⟨_, _, same, -⟩
      cases same
    | breakdown breakdown =>
      rw [reply] at answer
      cases answer
    | interruption =>
      rw [reply] at answer
      cases answer

end

/-! ## The whole release -/

theorem perform_accounted (rooted : settings.projectDirectory.isAbsolute)
    (answers : ∀ post, (server post).IsAnswer)
    (legible : ∀ fault, (RenameLog.read world.disk settings.renameLog).tree ≠ .error (.encoding fault)) :
    ∃ outcome posts, (perform world server settings dryRun).Comes (.ok outcome) posts ∧
      Accounted world server dryRun settings outcome posts := by
  cases blocked : obstacle? world dryRun settings with
  | some problem =>
    refine ⟨_, _, perform_comes_of_obstacle blocked, accounted_of_missing problem fun tree found => ?_⟩
    have several : ¬ (dryRun = false → Identified settings) := fun identified => by
      rw [obstacle?_eq_none_iff.mpr ⟨found.file, found.directory, identified⟩] at blocked
      cases blocked
    exact Classical.not_imp.mp several
  | none =>
    obtain ⟨file, directory, identified⟩ := obstacle?_eq_none_iff.mp blocked
    cases read : (RenameLog.read world.disk settings.renameLog).tree with
    | ok tree =>
      cases tree with
      | none =>
        have unread : readOutcome settings.renameLog (RenameLog.read world.disk settings.renameLog).tree =
            .ok (.error (.unsupportedFormat settings.renameLog)) := by rw [read, readOutcome]
        refine ⟨_, _, perform_comes_of_problem blocked unread, accounted_of_missing _ fun tree found => ?_⟩
        rw [RenameLog.read_eq_ok_some_iff.mpr found.parsed] at read
        cases read
      | some tree =>
        have found : Found world settings tree := ⟨file, directory, RenameLog.read_eq_ok_some_iff.mp read⟩
        obtain ⟨paths, listed⟩ := Disk.sourceFiles_of_isDirectory directory
          (LooseText.isAbsolute_systemPath rooted (World.systemPath_ne_empty directory))
        obtain ⟨located, there⟩ : ∃ located,
            Sources.locate world.disk settings.projectDirectory.systemPath tree .tree = .ok located := by
          unfold Sources.locate
          rw [listed]
          exact ⟨_, rfl⟩
        obtain ⟨outcome, ends, accounted⟩ := delivered_accounted found there identified answers
        exact ⟨outcome, _, ends ▸ perform_comes_of_located blocked read there, accounted⟩
    | error fault =>
      obtain ⟨bytes, given⟩ := Disk.read_of_isFile file
      have ofLog := RenameLog.ofLog_of_read given read
      have dealt : fault.breakdown? = none := by
        cases fault with
        | disk cause => exact absurd rfl (ofLog cause)
        | encoding cause => exact absurd read (legible cause)
        | _ => rfl
      have unread : readOutcome settings.renameLog (RenameLog.read world.disk settings.renameLog).tree =
          .ok (.error (.unreadableLog fault)) := by rw [read, readOutcome, dealt]
      refine ⟨_, _, perform_comes_of_problem blocked unread, accounted_of_missing _ fun tree found => ?_⟩
      rw [RenameLog.read_eq_ok_some_iff.mpr found.parsed] at read
      cases read

/-- A configuration whose settings can be settled, and whose two paths can be resolved then. -/
structure Preparable (world : World) (config : Json) : Prop where
  countable : Settings.Countable config
  paths : ∀ given said, Settings.settle world.workingDirectory config = .ok (given, said) →
    world.Reads given.renameLog.trimmed ∧ world.Reads given.projectDirectory.trimmed

section
variable (rooted : Path.isAbsolute world.workingDirectory)
include rooted

theorem isAbsolute_of_resolvePaths {given : Settings} (resolved : resolvePaths world given = .ok settings) :
    settings.projectDirectory.isAbsolute := by
  obtain ⟨log, _, others⟩ := bind_eq_ok.mp resolved
  obtain ⟨directory, known, same⟩ := bind_eq_ok.mp others
  obtain ⟨expanded, -, rfl⟩ := World.resolvePath_eq_ok_iff.mp known
  cases same
  exact LooseText.isAbsolute_absolute rooted expanded

theorem exists_resolvePaths {given : Settings} : (∃ settings, resolvePaths world given = .ok settings) ↔
    world.Reads given.renameLog.trimmed ∧ world.Reads given.projectDirectory.trimmed := by
  have empty : world.Reads "" := .of_passable (LooseText.passable_ofString "") nofun
  rw [← World.reads_meant_iff empty, ← World.reads_meant_iff (World.Reads.of_isAbsolute rooted),
    ← World.exists_resolvePath, ← World.exists_resolvePath]
  constructor
  · rintro ⟨settings, resolved⟩
    obtain ⟨log, first, others⟩ := bind_eq_ok.mp resolved
    obtain ⟨directory, second, -⟩ := bind_eq_ok.mp others
    exact ⟨⟨log, first⟩, directory, second⟩
  · rintro ⟨⟨log, first⟩, directory, second⟩
    exact ⟨_, bind_eq_ok.mpr ⟨log, first, bind_eq_ok.mpr ⟨directory, second, rfl⟩⟩⟩

theorem exists_prepared : (∃ settings, prepared world config = .ok settings) ↔ Preparable world config := by
  constructor
  · rintro ⟨settings, ready⟩
    obtain ⟨given, settled, resolved⟩ := bind_eq_ok.mp ready
    refine ⟨(Settings.settle_eq_ok_iff _).mp ⟨given, settled⟩, fun other said same => ?_⟩
    cases settled.symm.trans same
    exact (exists_resolvePaths rooted).mp ⟨settings, resolved⟩
  · intro preparable
    obtain ⟨given, settled⟩ := (Settings.settle_eq_ok_iff world.workingDirectory).mpr preparable.countable
    obtain ⟨settings, resolved⟩ := (exists_resolvePaths rooted).mpr (preparable.paths given.1 given.2 settled)
    exact ⟨settings, bind_eq_ok.mpr ⟨given, settled, resolved⟩⟩

end

def logConfig (path : LooseText) : Json := .object [("renamelog", .ofLoose path)]

theorem prepared_logConfig {path : LooseText} {breakdown : Breakdown} (filled : path.trimmed ≠ "")
    (unresolved : world.resolvePath path.trimmed "" = .error breakdown) :
    prepared world (logConfig path) = .error breakdown := by
  have countable : Settings.Countable (logConfig path) := fun number told => by cases told
  have named : (Settings.settledFrom world.workingDirectory
      (OrderedTable.update (Settings.defaults world.workingDirectory).fields [("renamelog", .ofLoose path)])).renameLog =
      path.trimmed := by
    change SettingValue.taken ("" : LooseText) (SettingValue.text "renamelog" "" (.ofLoose path)) = path.trimmed
    rw [SettingValue.text_ofLoose, SettingValue.taken, SettingValue.textOr,
      if_neg (mt LooseText.isEmpty_iff.mp filled)]
  rw [prepared, logConfig, Settings.settle_object countable]
  change resolvePaths world (Settings.settledFrom _ _) = _
  rw [resolvePaths, named, unresolved]
  rfl

end Release

end ClearNames
