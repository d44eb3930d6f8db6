import ClearNames.Proofs.CommandLine.Settings
import ClearNames.Proofs.Disk.Expanding
import ClearNames.Proofs.Disk.Normalizing
import ClearNames.Proofs.Release.Runs

/-! The check for the rename log that comes before a release.

The check looks at the path as it is written. The release looks at the absolute
path that it means: with the home directory and the variables put in, and
normalised. For a path in which nothing stands for something else, that never
goes up and that ends in a name, the two agree.
-/

set_option autoImplicit false

namespace ClearNames

namespace World
variable {world : World} {path : String}

/-- A release finds a file at the path that a given one means. -/
def Finds (world : World) (path : LooseText) : Prop :=
  ∃ whole, world.resolvePath path "" = .ok whole ∧ world.isFile whole

/-- A path in which nothing stands for something else and whose absolute form is not too long. -/
structure Literal (world : World) (path : String) : Prop where
  unexpanded : world.expand path = .ok path
  fits : (Path.absolute world.workingDirectory path).utf8ByteSize ≤ Disk.pathLimit

section
variable (bare : (LooseText.ofString path).trimmed = path) (literal : world.Literal path)
include bare literal

theorem finds_iff_isFile_absolute :
    world.Finds path ↔ world.disk.isFile (Path.absolute world.workingDirectory path) := by
  have same (whole : LooseText) : world.resolvePath path "" = .ok whole ↔
      whole = Path.absolute world.workingDirectory path := by
    rw [resolvePath_eq_ok_iff, meant_empty, bare, literal.unexpanded, ← LooseText.absolute_ofString]
    simp
  simp only [Finds, same, exists_eq_left, isFile, LooseText.systemPath_ofString]

theorem finds_of_isFile (grounded : world.disk.Grounded) (file : world.disk.isFile path) : world.Finds path := by
  obtain ⟨names, content, found⟩ := Disk.isFile_iff.mp file
  refine (finds_iff_isFile_absolute bare literal).mpr (Disk.isFile_iff.mpr ⟨names, content, ?_⟩)
  exact Disk.locate_absolute grounded.rooted grounded.clean literal.fits found

theorem finds_iff_isFile (grounded : world.disk.Grounded)
    (straight : path = "" ∨ Path.Straight path ∧ path.utf8ByteSize ≤ Disk.pathLimit) :
    world.Finds path ↔ world.disk.isFile path := by
  refine ⟨fun found => ?_, finds_of_isFile bare literal grounded⟩
  have file := (finds_iff_isFile_absolute bare literal).mp found
  rcases straight with rfl | ⟨straight, fits⟩
  · exact absurd file grounded.isFile_absolute_empty
  · obtain ⟨names, content, located⟩ := Disk.isFile_iff.mp file
    exact Disk.isFile_iff.mpr ⟨names, content, (grounded.locate_absolute_iff straight fits literal.fits).mp located⟩

end

end World

namespace Release
variable {world : World} {server : Server} {settings : Settings} {dryRun : Bool}

def LogMissing (outcome : ReleaseOutcome) : Prop :=
  ∃ path summary, outcome = .failed (.renameLogNotFound path) summary

theorem not_logMissing_of_problem {problem : ReleaseProblem} (other : ∀ path, problem ≠ .renameLogNotFound path)
    (summary : Option ReleaseSummary) : ¬ LogMissing (.failed problem summary) := by
  rintro ⟨path, summary, same⟩
  cases same
  exact other path rfl

theorem not_logMissing_of_readOutcome {path : LooseText} {read : Except RenameLogFault (Option NameTree)}
    {problem : ReleaseProblem} (unread : readOutcome path read = .ok (.error problem)) (summary : Option ReleaseSummary) :
    ¬ LogMissing (.failed problem summary) := by
  refine not_logMissing_of_problem (fun missing same => ?_) summary
  subst same
  unfold readOutcome at unread
  split at unread
  · cases unread
  · cases unread
  · split at unread <;> cases unread

theorem tree_of_readOutcome {path : LooseText} {read : Except RenameLogFault (Option NameTree)} {tree : NameTree}
    (found : readOutcome path read = .ok (.ok tree)) : read = .ok (some tree) := by
  unfold readOutcome at found
  split at found
  · cases found
    rfl
  · cases found
  · split at found <;> cases found

theorem renameLog_of_resolvePaths {given : Settings} {whole : LooseText}
    (resolved : world.resolvePath given.renameLog "" = .ok whole) (paths : resolvePaths world given = .ok settings) :
    settings.renameLog = whole := by
  obtain ⟨log, known, others⟩ := bind_eq_ok.mp paths
  obtain ⟨directory, _, same⟩ := bind_eq_ok.mp others
  cases same
  exact Except.ok.inj (known.symm.trans resolved)

theorem not_logMissing_of_obstacle (file : world.isFile settings.renameLog) {problem : ReleaseProblem}
    (blocked : obstacle? world dryRun settings = some problem) : ¬ LogMissing (.failed problem none) := by
  refine not_logMissing_of_problem (fun path same => ?_) none
  subst same
  rw [obstacle?, file, Bool.not_true, if_neg Bool.false_ne_true] at blocked
  split at blocked
  · cases blocked
  · split at blocked <;> cases blocked

theorem not_logMissing_of_delivered {located : Sources.Located} {outcome : ReleaseOutcome}
    (ended : delivered server settings dryRun located = .ok outcome) : ¬ LogMissing outcome := by
  rintro ⟨path, summary, rfl⟩
  unfold delivered at ended
  split at ended
  · cases ended
  · cases answer : Upload.answered (server (request settings located)) with
    | error abort => simp [answer, Except.map] at ended
    | ok result => cases result <;> simp [answer, Except.map] at ended

theorem perform_finds (file : world.isFile settings.renameLog) :
    ∃ outcome posts, (perform world server settings dryRun).Comes outcome posts ∧
      ∀ released, outcome = .ok released → ¬ LogMissing released := by
  -- The run has one way out for each of its parts, and only the first of these asks for the file.
  cases blocked : obstacle? world dryRun settings with
  | some problem =>
    refine ⟨_, _, perform_comes_of_obstacle blocked, ?_⟩
    rintro _ ⟨⟩
    exact not_logMissing_of_obstacle file blocked
  | none =>
    cases read : readOutcome settings.renameLog (RenameLog.read world.disk settings.renameLog).tree with
    | error abort => exact ⟨_, _, perform_comes_of_abort blocked read, by simp⟩
    | ok found =>
      cases found with
      | error problem =>
        refine ⟨_, _, perform_comes_of_problem blocked read, ?_⟩
        rintro _ ⟨⟩
        exact not_logMissing_of_readOutcome read none
      | ok tree =>
        have parsed := tree_of_readOutcome read
        cases there : Sources.locate world.disk settings.projectDirectory.systemPath tree .tree with
        | error fault => exact ⟨_, _, perform_comes_of_fault blocked parsed there, by simp⟩
        | ok located =>
          exact ⟨_, _, perform_comes_of_located blocked parsed there, fun _ => not_logMissing_of_delivered⟩

theorem not_logMissing_of_finds {config : Json} {given : Settings} {said : List SettingWarning}
    (settled : Settings.settle world.workingDirectory config = .ok (given, said)) (found : world.Finds given.renameLog)
    {result : ReleaseResult} (returned : (run world server config dryRun).outcome.1 = .ok result) :
    ¬ LogMissing result.outcome := by
  obtain ⟨whole, resolved, file⟩ := found
  cases ready : prepared world config with
  | error breakdown =>
    rw [(run_comes_of_breakdown ready).outcome_eq.1] at returned
    cases returned
  | ok settings =>
    obtain ⟨other, known, paths⟩ := bind_eq_ok.mp ready
    cases known.symm.trans settled
    have same : settings.renameLog = whole := renameLog_of_resolvePaths resolved paths
    obtain ⟨outcome, posts, performed, kept⟩ := @perform_finds world server settings dryRun (same ▸ file)
    rw [(run_comes ready performed).outcome_eq.1] at returned
    cases outcome with
    | error abort => cases returned
    | ok released =>
      cases returned
      exact kept released rfl

end Release

namespace CommandLine
variable {world : World} {server : Server} {arguments : Arguments}

theorem exitCode_stoppedBy_ne_two {performance : Performance} (other : performance.exitCode ≠ 2)
    (stop : Option Breakdown) : (performance.stoppedBy stop).exitCode ≠ 2 := by
  cases stop with
  | none => exact other
  | some breakdown => exact show (1 : Nat) ≠ 2 by decide

theorem exitCode_release_ne_two (settings : Settings) : (release world server arguments settings).exitCode ≠ 2 := by
  unfold release
  dsimp only
  split
  · refine exitCode_stoppedBy_ne_two ?_ _
    dsimp only
    split <;> decide
  · exact show (130 : Nat) ≠ 2 by decide
  · exact exitCode_stoppedBy_ne_two (show (1 : Nat) ≠ 2 by decide) _

theorem isFile_empty (disk : Disk) : ¬ disk.isFile "" := by
  intro file
  obtain ⟨names, content, found⟩ := Disk.isFile_iff.mp file
  exact (Disk.locate_eq_ok.mp found).2.1 rfl

theorem exitCode_act_eq_two_iff (settings : Settings) (undumped : arguments.dumpSettings = false)
    (unsaved : arguments.saveSettings = false) :
    (act world server arguments settings).exitCode = 2 ↔ ¬ world.isFile settings.renameLog := by
  unfold act
  rw [undumped, unsaved, if_neg Bool.false_ne_true, if_neg Bool.false_ne_true]
  split
  · next missing =>
    refine iff_of_true rfl fun file => ?_
    rw [file, Bool.not_true, Bool.or_false] at missing
    rw [LooseText.isEmpty_iff.mp missing, World.isFile, LooseText.systemPath_ofString] at file
    exact isFile_empty world.disk file
  · next given =>
    refine iff_of_false (exitCode_release_ne_two settings) (not_not_intro ?_)
    simp only [Bool.or_eq_true, Bool.not_eq_true', not_or, Bool.not_eq_false] at given
    exact given.2

theorem exitCode_run {words : List String} (told : Arguments.ofWords words = .ok arguments) {setUp : Journal.SetUp}
    (opened : (Journal.untouched []).configure (journalSettings world arguments) false world.disk = .ok setUp)
    {settings : Settings} (goes : GoesBy { world with disk := setUp.disk } arguments settings) (time : Moment) :
    (run world server time words).performance.exitCode =
      (act { world with disk := setUp.disk } server arguments settings).exitCode := by
  unfold run
  rw [told]
  dsimp only
  rw [opened]
  dsimp only
  obtain ⟨records, performed⟩ := perform_eq_act goes server
  rw [performed]

/-- A run without a dump or saving exits with 2 where there is no file at the path of the rename log as it is
written. If that path is literal, a release that is let through finds its rename log; if it is straight as well,
every release that would find it is let through. -/
theorem preflight_agrees {words : List String} (told : Arguments.ofWords words = .ok arguments)
    (undumped : arguments.dumpSettings = false) (unsaved : arguments.saveSettings = false) {setUp : Journal.SetUp}
    (opened : (Journal.untouched []).configure (journalSettings world arguments) false world.disk = .ok setUp)
    (grounded : setUp.disk.Grounded) (time : Moment) :
    let around := { world with disk := setUp.disk }
    let exitCode := (run world server time words).performance.exitCode
    ∃ settings, GoesBy around arguments settings ∧
      (exitCode = 2 ↔ ¬ around.isFile settings.renameLog) ∧
      ∀ path : String, settings.renameLog = path → around.Literal path →
        (exitCode ≠ 2 → around.Finds path ∧
          ∀ result, (Release.run around server settings.document arguments.dryRun).outcome.1 = .ok result →
            ¬ Release.LogMissing result.outcome) ∧
        (path = "" ∨ Path.Straight path ∧ path.utf8ByteSize ≤ Disk.pathLimit → (exitCode = 2 ↔ ¬ around.Finds path)) := by
  intro around exitCode
  obtain ⟨settings, goes⟩ := exists_goesBy (counted_ofWords told) around
  have checked : exitCode = 2 ↔ ¬ around.isFile settings.renameLog := by
    have exits : exitCode = (act around server arguments settings).exitCode := exitCode_run told opened goes time
    rw [exits]
    exact exitCode_act_eq_two_iff settings undumped unsaved
  refine ⟨settings, goes, checked, fun path named literal => ?_⟩
  have bare : (LooseText.ofString path).trimmed = path := named ▸ trimmed_renameLog goes
  have written : around.isFile settings.renameLog ↔ around.disk.isFile path := by
    rw [named, World.isFile, LooseText.systemPath_ofString]
  refine ⟨fun passed => ?_, fun straight => ?_⟩
  · have file := written.mp (not_not.mp (mt checked.mpr passed))
    have found := World.finds_of_isFile bare literal grounded file
    obtain ⟨again, warnings, settled, same⟩ := renameLog_settle_again goes
    exact ⟨found, fun result => Release.not_logMissing_of_finds settled (same.trans named ▸ found)⟩
  · rw [checked, written, World.finds_iff_isFile bare literal grounded straight]

/-- A file system with a mapping in the home directory, one in the working directory, and one named like a variable. -/
def homeWorld : World where
  disk := ⟨.directory [("home", .directory [("mapping.txt", .file "com.shop.Cart -> a:\n".toUTF8)]),
    ("work", .directory [("mapping.txt", .file "com.shop.Cart -> a:\n".toUTF8), ("$LOG", .file ByteArray.empty)])], "/work"⟩
  environment := [("HOME", "/home"), ("LOG", "gone")]
  homes := [("root", "/root")]
  ownHome := some "/home"

theorem configure_of_no_file (none : arguments.logFile = none) : ∃ journal,
    (Journal.untouched []).configure (journalSettings world arguments) false world.disk = .ok ⟨journal, world.disk, ""⟩ := by
  obtain ⟨layout, read⟩ : ∃ layout, Journal.layout ({} : JournalSettings).consoleLayout = .ok layout := ⟨_, rfl⟩
  let severity := Journal.severityNamed (journalSettings world arguments).severity
  obtain ⟨sinks, console⟩ : ∃ sinks, Journal.consoleSinks (journalSettings world arguments) = .ok sinks := by
    refine ⟨[⟨.console, severity, layout, ""⟩], ?_⟩
    change (Journal.layout ({} : JournalSettings).consoleLayout >>= fun layout => pure [_]) = _
    rw [read]
    rfl
  have gathered : Journal.gatherSinks (journalSettings world arguments) world.disk = .ok (sinks, world.disk, "") := by
    rw [Journal.gatherSinks, console]
    change Journal.addFileSink (journalSettings world arguments) sinks world.disk = _
    rw [Journal.addFileSink, journalSettings, none]
    rfl
  refine ⟨((Journal.untouched []).tearDown severity).install sinks, ?_⟩
  rw [Journal.configure, Journal.attempt]
  simp only [gathered]
  rfl

def rehearsal (path : String) : List String := ["key", "prod", "7", path, "--dry-run"]

def rehearsalArguments (path : String) : Arguments where
  apiKey := some "key"
  environment := some "prod"
  build := some "7"
  renameLog := some path
  dryRun := true

def rehearse (path : String) : Performance :=
  (run homeWorld (fun _ => .interruption) ⟨2026, 1, 1, 0, 0, 0, 0⟩ (rehearsal path)).performance

/-- A path below the working directory is found as it is written. -/
theorem preflight_agrees_mapping :
    let arguments := rehearsalArguments "./mapping.txt"
    let path : String := "./mapping.txt"
    Arguments.ofWords (rehearsal path) = .ok arguments ∧ homeWorld.disk.Grounded ∧
      (∃ settings, GoesBy homeWorld arguments settings ∧ settings.renameLog = path) ∧
      homeWorld.Literal path ∧ Path.Straight path ∧ (rehearse path).exitCode ≠ 2 ∧ homeWorld.Finds path := by
  intro arguments path
  have told : Arguments.ofWords (rehearsal path) = .ok arguments := by decide +kernel
  obtain ⟨journal, opened⟩ := @configure_of_no_file homeWorld arguments rfl
  have grounded : homeWorld.disk.Grounded := ⟨by decide, by decide +kernel⟩
  have literal : homeWorld.Literal path := ⟨by decide +kernel, by decide +kernel⟩
  have straight : Path.Straight path := by decide +kernel
  have file : homeWorld.disk.isFile path := by decide +kernel
  have names {settings : Settings} (goes : GoesBy homeWorld arguments settings) : settings.renameLog = path := by
    obtain ⟨said, settled⟩ := goes
    rw [Settings.settledFrom_of_settle settled]
    decide +kernel
  obtain ⟨settings, goes, checked, agrees⟩ := preflight_agrees told rfl rfl opened grounded ⟨2026, 1, 1, 0, 0, 0, 0⟩
  have named : settings.renameLog = path := names goes
  have written : homeWorld.isFile settings.renameLog := by
    rw [named, World.isFile, LooseText.systemPath_ofString]
    exact file
  have passed : (rehearse path).exitCode ≠ 2 := mt checked.mp (not_not_intro written)
  exact ⟨told, grounded, ⟨settings, goes, named⟩, literal, straight, passed, ((agrees path named literal).1 passed).1⟩

/-- A log in the home directory is turned down, though a release would find it; one that is named like a variable
is let through, though a release looks for it elsewhere. -/
theorem preflight_disagrees_expanded :
    ((rehearse "~/mapping.txt").exitCode = 2 ∧ homeWorld.Finds "~/mapping.txt") ∧
      (rehearse "$LOG").exitCode = 1 ∧ ¬ homeWorld.Finds "$LOG" := by
  refine ⟨⟨by decide +kernel, "/home/mapping.txt", by decide +kernel, by decide +kernel⟩, by decide +kernel, ?_⟩
  rintro ⟨whole, resolved, file⟩
  have elsewhere : homeWorld.resolvePath "$LOG" "" = .ok "/work/gone" := by decide +kernel
  obtain rfl := Except.ok.inj (elsewhere.symm.trans resolved)
  exact absurd file (by decide +kernel)

end CommandLine

end ClearNames
