import ClearNames.CommandLine.Program
import Std.Time.DateTime

/-! The program on the files of the machine that it runs on.

The files and directories that a run looks at are read first, and those that it
changed are written afterwards. No connection to a server is made: an upload is
answered as one that found the server out of reach.
-/

set_option autoImplicit false

namespace ClearNames.Main

open CommandLine

/-- The names below a directory, its files without their contents. A link to a
directory is not followed, so that the descent ends. -/
partial def readNames (path : String) : IO DiskEntry := do
  let mut entries : OrderedTable String DiskEntry := []
  for entry in ← (← IO.FS.realPath path).readDir do
    let content ←
      if (← entry.path.symlinkMetadata).type == .dir then readNames entry.path.toString
      else if ← entry.path.isDir then pure (.directory [])
      else pure (.file ByteArray.empty)
    entries := OrderedTable.put entry.fileName content entries
  return .directory entries

def readInto (disk : Disk) (path : String) (content : String → IO DiskEntry) : IO Disk := do
  try
    let entry ← content path
    return { disk with root := disk.root.alter (fun _ => some entry) (Path.normalComponents path) }
  catch _ => return disk

def readFile (path : String) : IO DiskEntry := do
  if ← (← IO.FS.realPath path).isDir then return .directory []
  return .file (← IO.FS.readBinFile path)

def mentionedVariables (path : LooseText) : List String :=
  path.variableNames.filterMap fun name => (name.systemName.toOption).join

def userOfLine? (line : String) : Option (String × String × String) :=
  match line.splitOn ":" with
  | [name, _, number, _, _, home, _] => some (name, number, home)
  | _ => none

def readHomes : IO (OrderedTable String String × Option String) := do
  try
    let users := (← IO.FS.lines "/etc/passwd").toList.filterMap userOfLine?
    let status ← IO.FS.lines "/proc/self/status"
    let own := status.toList.findSome? fun line =>
      if line.startsWith "Uid:" then (line.splitOn "\t")[1]? else none
    let homes := users.foldr (fun (name, _, home) homes => OrderedTable.put name home homes) []
    return (homes, (users.find? fun (_, number, _) => some number == own).map fun (_, _, home) => home)
  catch _ => return ([], none)

def readVariables (names : List String) : IO (OrderedTable String String) :=
  names.filterMapM fun name => do return (← IO.getEnv name).map (name, ·)

/-- The log file of some settings with the names of its earlier contents. -/
def logPaths (world : World) (settings : JournalSettings) : List String :=
  if settings.logFile.isEmpty then []
  else
    match Journal.logFile settings (Path.absolute world.workingDirectory settings.logFile) with
    | .error _ => []
    | .ok file => file.path :: (List.range file.kept.toNat).map fun number => file.earlier (number + 1)

def surroundings (words : List String) : IO (World × List String) := do
  let directory := (← IO.currentDir).toString
  let empty : Disk := ⟨.directory [], directory⟩
  let disk := { empty with root := empty.root.alter (fun _ => some (.directory [])) (Path.normalComponents directory) }
  let (homes, ownHome) ← readHomes
  let world : World := { disk, environment := ← readVariables ["HOME", "COLUMNS"], homes, ownHome }
  match Arguments.ofWords words with
  | .error _ => return (world, [])
  | .ok arguments =>
    let disk ← readInto disk world.settingsFile readFile
    let (config, _) := givenSettings { world with disk } arguments
    let settings := match Settings.settle directory (.object config) with
      | .ok (settings, _) => settings
      | .error _ => Settings.defaults directory
    let names := mentionedVariables settings.renameLog ++ mentionedVariables settings.projectDirectory
    let world := { world with disk, environment := world.environment ++ (← readVariables names) }
    let resolved := (Release.resolvePaths world settings).toOption.getD settings
    let mut disk ← readInto world.disk resolved.projectDirectory.systemPath readNames
    let changeable := world.settingsFile :: logPaths world (journalSettings world arguments)
    let logs := [resolved.renameLog.systemPath, Path.absolute directory settings.renameLog.systemPath]
    for path in logs ++ changeable do
      disk ← readInto disk path readFile
    return ({ world with disk }, changeable)

def writeBack (earlier later : Disk) (path : String) : IO Unit := do
  match (earlier.read path).toOption, (later.read path).toOption with
  | some _, none => IO.FS.removeFile path
  | old, some content =>
    unless old == some content do
      IO.FS.createDirAll (Path.parent path)
      IO.FS.writeBinFile path content
  | none, none => pure ()

def noServer : Server := fun post => .unreachable ("no connection to " ++ post.url)

def now : IO Moment := do
  return .ofUnixMilliseconds (← Std.Time.Timestamp.now).toMillisecondsSinceUnixEpoch.val.toNat

def run (words : List String) : IO UInt32 := do
  let (world, changeable) ← surroundings words
  let ran := CommandLine.run world noServer (← now) words
  let performance := ran.performance
  for path in changeable do
    writeBack world.disk performance.disk path
  IO.print performance.output
  IO.eprint (ran.console ++ performance.errors)
  if let some breakdown := performance.breakdown then
    IO.eprint (breakdownNotice breakdown)
  return UInt32.ofNat performance.exitCode

end ClearNames.Main

def main (words : List String) : IO UInt32 := ClearNames.Main.run words
