import ClearNames.CommandLine.Arguments
import ClearNames.CommandLine.Help
import ClearNames.Journal.Basic
import ClearNames.Release.Basic
import ClearNames.Settings.Saved

/-! The command-line program as a function from its arguments and surroundings
to everything it leaves behind. -/

set_option autoImplicit false

namespace ClearNames.CommandLine

structure Performance where
  exitCode : Nat
  output : String := ""
  errors : String := ""
  records : List Record := []
  posts : List Post := []
  disk : Disk
  breakdown : Option Breakdown := none

/-- The settings that a run starts from: the saved ones or the standard ones,
with those of the command line in their place. -/
def givenSettings (world : World) (arguments : Arguments) : OrderedTable LooseText Json × List Record :=
  let (base, records) :=
    if arguments.useDefaults then ((Settings.defaults world.workingDirectory).fields, [])
    else Settings.load world
  (OrderedTable.update base (arguments.overrides.filter fun (_, value) => !value.isNull), records)

def summaryLines (result : ReleaseResult) (summary : ReleaseSummary) : List LooseText := [
  if result.outcome.isRehearsal then "Dry run complete. Nothing was uploaded."
  else "Release uploaded: build " ++ result.build ++ " (" ++ result.environment ++ ").",
  "Rename log: " ++ result.renameLog,
  "Packages: " ++ toString summary.packages,
  "Classes: " ++ toString summary.classes,
  "Classes with source files: " ++ toString summary.located,
  "Methods: " ++ toString summary.methods]

def printed (lines : List Piece) : String × Option Breakdown :=
  Piece.written (lines.flatMap fun line => [line, .ok "\n"])

def report (asJson : Bool) (result : ReleaseResult) : List Piece × String :=
  if asJson then ([result.document.indented 2], "")
  else
    match result.outcome with
    | .failed problem _ => ([], ofLines ["ERROR: " ++ problem.message.escaped])
    | .rehearsed summary | .uploaded summary => ((summaryLines result summary).map .ok, "")

def missingLog (path : LooseText) : LooseText :=
  "Rename log does not exist: " ++ (if path.isEmpty then "(not given)" else path : LooseText)

def fatalNote (breakdown : Breakdown) : Record :=
  .of .critical .supervisor ("FATAL EXCEPTION DETECTED: " ++ breakdown.text)

def Performance.stoppedBy (performance : Performance) : Option Breakdown → Performance
  | none => performance
  | some breakdown =>
    { performance with
      exitCode := 1
      records := performance.records ++ [fatalNote breakdown]
      breakdown := some breakdown }

def release (world : World) (server : Server) (arguments : Arguments) (settings : Settings) : Performance :=
  let (outcome, trace) := (Release.run world server settings.document arguments.dryRun).outcome
  match outcome with
  | .ok result =>
    let (lines, errors) := report arguments.json result
    let (output, stop) := printed lines
    let performance : Performance :=
      { exitCode := if result.outcome.isSuccess then 0 else 1
        output, errors, records := trace.records, posts := trace.posts, disk := world.disk }
    performance.stoppedBy stop
  | .error .interruption =>
    { exitCode := 130
      errors := ofLines ["Interrupted."]
      records := trace.records ++ [.of .warning .commandLine "Release interrupted by user."]
      posts := trace.posts
      disk := world.disk }
  | .error (.breakdown breakdown) =>
    let performance : Performance :=
      { exitCode := 1, records := trace.records, posts := trace.posts, disk := world.disk }
    performance.stoppedBy (some breakdown)

def act (world : World) (server : Server) (arguments : Arguments) (settings : Settings) : Performance :=
  if arguments.dumpSettings then
    let (output, stop) := printed [settings.document.indented 2]
    let performance : Performance := { exitCode := 0, output, disk := world.disk }
    performance.stoppedBy stop
  else if arguments.saveSettings then
    match Settings.save world settings.lasting with
    | (disk, .ok records) => { exitCode := 0, output := ofLines ["Configuration saved."], records, disk }
    | (disk, .error breakdown) =>
      let performance : Performance := { exitCode := 1, disk }
      performance.stoppedBy (some breakdown)
  else if settings.renameLog.isEmpty || !world.isFile settings.renameLog then
    let message := missingLog settings.renameLog
    { exitCode := 2
      errors := ofLines ["ERROR: " ++ message.escaped]
      records := [.of .error .commandLine message]
      disk := world.disk }
  else release world server arguments settings

def perform (world : World) (server : Server) (arguments : Arguments) : Performance :=
  let (config, loading) := givenSettings world arguments
  let opening := .of .debug .commandLine "CLI execution initiated. Resolving configuration..." :: loading
  match Settings.settle world.workingDirectory (.object config) with
  | .error breakdown =>
    let performance : Performance := { exitCode := 1, records := opening, disk := world.disk }
    performance.stoppedBy (some breakdown)
  | .ok (settings, warnings) =>
    let said : List Record := warnings.map fun warning =>
      .of .warning .commandLine ("Configuration Constraint: " ++ warning.message)
    let performance := act world server arguments settings
    { performance with records := opening ++ said ++ performance.records }

def breakdownNotice (breakdown : Breakdown) : String :=
  let rule := "".pushn '=' 80
  ofLines ["", rule, "CRITICAL ERROR (DEOBFUSCATOR4J)", rule, breakdown.line]

def standardLogName : String := "deobfuscator4j.log"

def journalSettings (world : World) (arguments : Arguments) : JournalSettings where
  severity := if arguments.debug then "DEBUG" else "INFO"
  logFile := match arguments.logFile with
    | none => ""
    | some "" => world.logFile standardLogName
    | some path => path

structure ProgramRun where
  performance : Performance
  console : String

/-- Run the program. The log file is there before anything else is done. -/
def run (world : World) (server : Server) (time : Moment) (words : List String) : ProgramRun :=
  match Arguments.ofWords words with
  | .error .help => ⟨{ exitCode := 0, output := help world.columns, disk := world.disk }, ""⟩
  | .error (.misuse misuse) => ⟨{ exitCode := 2, errors := complaint world.columns misuse, disk := world.disk }, ""⟩
  | .ok arguments =>
    match (Journal.untouched []).configure (journalSettings world arguments) false world.disk with
    | .error fault => ⟨{ exitCode := 1, disk := world.disk, breakdown := some fault.breakdown }, ""⟩
    | .ok setUp =>
      let performance := perform { world with disk := setUp.disk } server arguments
      let written := setUp.journal.writeAll time performance.disk performance.records
      let errors := setUp.errors ++ performance.errors ++ written.errors
      ⟨{ performance with errors, disk := written.disk }, written.console⟩

end ClearNames.CommandLine
