import ClearNames.Json.Printer
import ClearNames.Json.Reader
import ClearNames.Settings.Validation
import ClearNames.Text.Utf8
import ClearNames.World

/-! Settings that outlive a run, in a file of the data directory. -/

set_option autoImplicit false

namespace ClearNames.Settings

inductive LoadFault where
  | disk (fault : DiskFault)
  | notUtf8 (fault : Text.Utf8Fault)
  | badDocument (fault : Json.ReadFault)
  deriving DecidableEq, Repr

def LoadFault.message : LoadFault → String
  | .disk fault => fault.message
  | .notUtf8 fault => fault.message
  | .badDocument .malformed => "not a JSON document"
  | .badDocument .numberTooLong => "a number with more than " ++ toString Text.digitLimit ++ " digits"

def readDocument (disk : Disk) (path : String) : Except LoadFault Json := do
  let bytes ← (disk.read path).mapError .disk
  let decoded := Text.decodeUtf8 bytes
  match decoded.fault with
  | some fault => throw (.notUtf8 fault)
  | none => (Json.read decoded.chars).mapError .badDocument

/-- The saved settings over the defaults, not yet judged; the defaults alone
where nothing usable is saved. -/
def load (world : World) : OrderedTable LooseText Json × List Record :=
  let standard := (defaults world.workingDirectory).fields
  if world.disk.pathExists world.settingsFile then
    match readDocument world.disk world.settingsFile with
    | .ok (.object fields) => (OrderedTable.update standard fields, [])
    | .ok _ => (standard, [.of .warning .savedSettings "Corrupted config file. Resetting to defaults."])
    | .error fault =>
      (standard, [.of .error .savedSettings ("Failed to load config: " ++ fault.message ++ ". Using defaults.")])
  else (standard, [.of .debug .savedSettings "Config file not found. Returning defaults."])

def lasting (settings : Settings) : OrderedTable LooseText Json := [
  (TextSetting.key .apiHost, .ofLoose settings.apiHost),
  (TextSetting.key .apiKey, .ofLoose settings.apiKey),
  (TextSetting.key .environment, .ofLoose settings.environment),
  (timeoutKey, .int settings.timeout),
  (skipVerificationKey, .bool settings.skipVerification)]

inductive SaveFault where
  | disk (fault : DiskFault)
  | document (breakdown : Breakdown)
  deriving DecidableEq, Repr

/-- Write the settings file, whose directory is made if it is missing. What was
written before a breakdown stays in it. -/
def writeFile (world : World) (fields : OrderedTable LooseText Json) : Disk × Option SaveFault :=
  match world.disk.makeDirectories world.dataDirectory with
  | (disk, some fault) => (disk, some (.disk fault))
  | (disk, none) =>
    let (text, stop) := Piece.written ((Json.object fields).pieces 4 0)
    match disk.write world.settingsFile text.toUTF8 with
    | .ok disk => (disk, stop.map .document)
    | .error fault => (disk, some (.disk fault))

def save (world : World) (fields : OrderedTable LooseText Json) : Disk × Except Breakdown (List Record) :=
  match writeFile world fields with
  | (disk, none) => (disk, .ok [.of .debug .savedSettings ("Configuration saved to " ++ world.settingsFile)])
  | (disk, some (.document breakdown)) => (disk, .error breakdown)
  | (disk, some (.disk fault)) =>
    match fault.breakdown? with
    | some breakdown => (disk, .error breakdown)
    | none => (disk, .ok [.of .error .savedSettings ("Failed to save configuration: " ++ fault.message)])

end ClearNames.Settings
