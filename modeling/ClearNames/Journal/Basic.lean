import ClearNames.Journal.Amount
import ClearNames.Journal.Sink
import ClearNames.Text.Blank

/-! Setting up the journal, and writing to it.

A journal is set up once; setting it up again does nothing unless it is forced.
It owns at most one handler, which passes records to the sinks of its listener.
Handlers of others are left alone. A setting-up that leaves no sink, or breaks
down, takes the earlier handler away and installs none. While there is no handler
at all, the messages of warnings and of graver records go to the error output.
-/

set_option autoImplicit false

namespace ClearNames

structure JournalSettings where
  severity : String := "INFO"
  console : Bool := true
  logFile : String := ""
  limit : Amount := .ok 1048576
  kept : Amount := .ok 3
  consoleLayout : String := "%(levelname)s | %(message)s"
  fileLayout : String := "%(asctime)s | %(levelname)s | %(name)s | %(message)s"
  timePattern : String := Moment.standardPattern
  deriving Repr

inductive Handler where
  /-- One that the journal does not own. -/
  | foreign (name : String)
  | own
  deriving DecidableEq, Repr

structure Journal where
  severity : Severity
  handlers : List Handler
  listener : Option (List Sink)
  configured : Bool
  deriving Repr

namespace Journal

def untouched (foreign : List String) : Journal := ⟨.warning, foreign.map .foreign, none, false⟩

def upperChar (char : Char) : Char := if char = 'ı' then 'I' else char.toUpper

/-- The severity of a name, in letters of either case; an unknown name has the usual one. -/
def severityNamed (name : String) : Severity :=
  match String.ofList ((Text.trim name.toList).map upperChar) with
  | "DEBUG" => .debug
  | "WARNING" | "WARN" => .warning
  | "ERROR" => .error
  | "CRITICAL" => .critical
  | _ => .info

inductive SetUpFault where
  | badLayout (layout : String)
  | badPath (fault : DiskFault)
  | badAmount (breakdown : Breakdown)
  deriving DecidableEq, Repr

def SetUpFault.breakdown : SetUpFault → Breakdown
  | .badLayout layout => .badValue ("Invalid format '" ++ layout ++ "' for '%' style")
  | .badPath fault => .badValue fault.message
  | .badAmount breakdown => breakdown

def layout (text : String) : Except SetUpFault Layout :=
  match Layout.ofString? text with
  | some layout => .ok layout
  | none => .error (.badLayout text)

def consoleSinks (settings : JournalSettings) : Except SetUpFault (List Sink) := do
  if !settings.console then return []
  return [⟨.console, severityNamed settings.severity, ← layout settings.consoleLayout, ""⟩]

def logFile (settings : JournalSettings) (path : String) : Except SetUpFault LogFile := do
  return ⟨path, ← settings.limit.mapError .badAmount, ← settings.kept.mapError .badAmount⟩

def openWarning (logFile : String) (fault : DiskFault) : String :=
  "WARNING: Cannot open log file '" ++ logFile ++ "': " ++ fault.message ++ "\n"

def tearDown (journal : Journal) (severity : Severity) : Journal :=
  { journal with severity, handlers := journal.handlers.filter (· ≠ .own), listener := none }

def install (journal : Journal) (sinks : List Sink) : Journal :=
  if sinks.isEmpty then journal
  else { journal with handlers := journal.handlers ++ [.own], listener := some sinks, configured := true }

structure SetUp where
  journal : Journal
  disk : Disk
  errors : String

def addFileSink (settings : JournalSettings) (sinks : List Sink) (disk : Disk) :
    Except SetUpFault (List Sink × Disk × String) := do
  if settings.logFile.isEmpty then return (sinks, disk, "")
  let layout ← layout settings.fileLayout
  let path := Path.absolute disk.workingDirectory settings.logFile
  let refused := fun (disk : Disk) (fault : DiskFault) =>
    if fault.problem = .nullCharacter then .error (SetUpFault.badPath fault)
    else .ok (sinks, disk, openWarning settings.logFile fault)
  match disk.makeDirectories (Path.parent path) with
  | (disk, some fault) => refused disk fault
  | (disk, none) =>
    let file ← logFile settings path
    match file.create disk with
    | .error fault => refused disk fault
    | .ok disk =>
      return (sinks ++ [⟨.file file, severityNamed settings.severity, layout, settings.timePattern⟩], disk, "")

def gatherSinks (settings : JournalSettings) (disk : Disk) : Except SetUpFault (List Sink × Disk × String) := do
  addFileSink settings (← consoleSinks settings) disk

/-- Set up, or break down on the settings: the journal that is left has lost its
earlier handler in either case, but what was configured counts as such. -/
def attempt (journal : Journal) (settings : JournalSettings) (force : Bool) (disk : Disk) :
    Journal × Except SetUpFault (Disk × String) :=
  if journal.configured && !force then (journal, .ok (disk, ""))
  else
    let cleared := journal.tearDown (severityNamed settings.severity)
    match gatherSinks settings disk with
    | .ok (sinks, disk, errors) => (cleared.install sinks, .ok (disk, errors))
    | .error fault => (cleared, .error fault)

def configure (journal : Journal) (settings : JournalSettings) (force : Bool) (disk : Disk) :
    Except SetUpFault SetUp :=
  let (later, result) := journal.attempt settings force disk
  result.map fun (disk, errors) => ⟨later, disk, errors⟩

def ownCount (journal : Journal) : Nat := journal.handlers.count .own

def takes (journal : Journal) (record : Record) : Bool := journal.severity.rank ≤ record.severity.rank

def sinks (journal : Journal) (record : Record) : List Sink :=
  if journal.takes record ∧ .own ∈ journal.handlers then journal.listener.getD [] else []

structure Written where
  disk : Disk
  console : String := ""
  errors : String := ""

/-- What goes to the error output of a record that finds no handler. -/
def lastResort (journal : Journal) (record : Record) : String :=
  if journal.handlers.isEmpty && journal.takes record && Severity.warning.rank ≤ record.severity.rank then
    record.message.escaped ++ "\n"
  else ""

def write (journal : Journal) (time : Moment) (written : Written) (record : Record) : Written :=
  let (disk, console) := (journal.sinks record).foldl (fun (disk, console) sink =>
    let (disk, more) := sink.take time disk record
    (disk, console ++ more)) (written.disk, written.console)
  ⟨disk, console, written.errors ++ journal.lastResort record⟩

def writeAll (journal : Journal) (time : Moment) (disk : Disk) (records : List Record) : Written :=
  records.foldl (journal.write time) { disk }

end Journal

end ClearNames
