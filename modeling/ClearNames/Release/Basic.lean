import ClearNames.Payload.Basic
import ClearNames.Release.Result
import ClearNames.Release.Upload
import ClearNames.RenameLog.Basic
import ClearNames.Settings.Validation
import ClearNames.Sources
import ClearNames.World

/-! Releasing a build: judge the settings, read the rename log, find the source
files, and hand the name tree to the server.

Nothing is requested of the server before all else has succeeded, and nothing
at all in a dry run.
-/

set_option autoImplicit false

namespace ClearNames.Release

def resolvePaths (world : World) (settings : Settings) : Except Breakdown Settings := do
  let renameLog ← world.resolvePath settings.renameLog ""
  let projectDirectory ← world.resolvePath settings.projectDirectory world.workingDirectory
  return { settings with renameLog, projectDirectory }

def orBreakDown {α : Type} : Except Breakdown α → Run α
  | .ok value => pure value
  | .error breakdown => throw (.breakdown breakdown)

/-- The settings that an upload cannot do without and that are empty. -/
def missingKeys (settings : Settings) : List String :=
  ([.apiKey, .environment, .build].filter fun setting => (settings.text setting).isEmpty).map TextSetting.name

/-- What stands in the way before the rename log is read. -/
def obstacle? (world : World) (dryRun : Bool) (settings : Settings) : Option ReleaseProblem :=
  if !world.isFile settings.renameLog then some (.renameLogNotFound settings.renameLog)
  else if !world.isDirectory settings.projectDirectory then
    some (.invalidProjectDirectory settings.projectDirectory)
  else if !dryRun && !(missingKeys settings).isEmpty then some (.missingSettings (missingKeys settings))
  else none

def readTree (world : World) (path : LooseText) : Run (Except ReleaseProblem NameTree) := do
  let attempt := RenameLog.read world.disk path
  Run.note (attempt.records path)
  match attempt.tree with
  | .ok (some tree) => return .ok tree
  | .ok none => return .error (.unsupportedFormat path)
  | .error fault =>
    match fault.breakdown? with
    | some breakdown => throw (.breakdown breakdown)
    | none => return .error (.unreadableLog fault)

/-- What is written of a problem; the reader of rename logs has already spoken
of a format it does not know. -/
def problemRecords (problem : ReleaseProblem) : List Record :=
  match problem with
  | .unsupportedFormat _ => []
  | _ => [.of .error .release problem.message]

def summarize (located : Sources.Located) (encoded : Payload.Encoded) : ReleaseSummary where
  packages := located.tree.listPackages.length
  classes := located.tree.listClasses.length
  methods := located.tree.listMethods.length
  located := located.count
  payloadSize := encoded.text.length

def readyNote (summary : ReleaseSummary) : String :=
  "Namespace ready: " ++ toString summary.packages ++ " packages, " ++ toString summary.classes ++
    " classes (" ++ toString summary.located ++ " located), " ++ toString summary.methods ++ " methods"

def deliver (server : Server) (settings : Settings) (dryRun : Bool) (located : Sources.Located) :
    Run ReleaseOutcome := do
  let encoded := Payload.encode located.tree
  let summary := summarize located encoded
  Run.note [.of .info .release (readyNote summary), encoded.record]
  if dryRun then
    Run.note [.of .info .release "Dry run: upload skipped."]
    return .rehearsed summary
  let body := Upload.document settings.apiKey settings.environment settings.build encoded.text
  match ← Upload.send server settings.apiHost body settings.timeout (!settings.skipVerification) with
  | .refused reason => return .failed (.uploadFailed reason) (some summary)
  | .accepted =>
    Run.note [.of .info .release
      ("Uploaded deobfuscation data for build " ++ settings.build ++ " (" ++ settings.environment ++ ").")]
    return .uploaded summary

def perform (world : World) (server : Server) (settings : Settings) (dryRun : Bool) : Run ReleaseOutcome := do
  match obstacle? world dryRun settings with
  | some problem =>
    Run.note (problemRecords problem)
    return .failed problem none
  | none =>
    match ← readTree world settings.renameLog with
    | .error problem =>
      Run.note (problemRecords problem)
      return .failed problem none
    | .ok tree =>
      let attempt := Sources.locate world.disk settings.projectDirectory.systemPath tree .tree
      let located ← orBreakDown (attempt.mapError fun fault => .badValue fault.message)
      Run.note (located.records settings.projectDirectory)
      deliver server settings dryRun located

def run (world : World) (server : Server) (config : Json) (dryRun : Bool) : Run ReleaseResult := do
  Run.note [.of .info .release "Release pipeline started."]
  let (settings, warnings) ← orBreakDown (Settings.settle world.workingDirectory config)
  Run.note (Settings.settlingRecords config ++
    warnings.map fun warning => .of .warning .release ("Configuration Warning: " ++ warning.message))
  let settings ← orBreakDown (resolvePaths world settings)
  let outcome ← perform world server settings dryRun
  return ⟨settings.renameLog, settings.projectDirectory, settings.environment, settings.build, outcome⟩

end ClearNames.Release
