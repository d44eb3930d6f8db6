import ClearNames.Disk.Basic
import ClearNames.LoosePath

/-! What a run finds around it: files, environment variables, and the home
directories of users. -/

set_option autoImplicit false

namespace ClearNames

structure World where
  disk : Disk
  environment : OrderedTable String String
  /-- The home directories that the system has for users, by their names. -/
  homes : OrderedTable String String
  /-- The home directory that the system has for the user who runs the program. -/
  ownHome : Option String

namespace World

def workingDirectory (world : World) : String := world.disk.workingDirectory

def isFile (world : World) (path : LooseText) : Bool := world.disk.isFile path.systemPath

def isDirectory (world : World) (path : LooseText) : Bool := world.disk.isDirectory path.systemPath

def valueOf? (world : World) (name : String) : Option String := OrderedTable.find? name world.environment

def variableValue (world : World) (name : LooseText) : Except Breakdown (Option String) :=
  match name.systemName with
  | .ok known => .ok (known.bind world.valueOf?)
  | .error fault => .error (.unencodable fault)

/-- The home directory of the user who runs the program: a variable goes before
what the system has. -/
def home? (world : World) : Option String := (world.valueOf? "HOME").or world.ownHome

def homeOf (world : World) (user : LooseText) : Except Breakdown (Option String) :=
  if user.isEmpty then .ok world.home?
  else
    match user.systemName with
    | .error fault => .error (.unencodable fault)
    | .ok known =>
      if user.points.contains (.char '\x00') then .error .nullCharacter
      else .ok (known.bind fun name => OrderedTable.find? name world.homes)

def expandHome (world : World) (path : LooseText) : Except Breakdown LooseText :=
  match path.homeUser? with
  | none => .ok path
  | some user => do
    match ← world.homeOf user with
    | none => return path
    | some home => return path.expandHome user home

def expand (world : World) (path : LooseText) : Except Breakdown LooseText := do
  (← world.expandHome path).expandVariables world.variableValue

/-- The absolute path that a given text means: the fallback where the text is blank. -/
def resolvePath (world : World) (given fallback : LooseText) : Except Breakdown LooseText := do
  let trimmed := given.trimmed
  let path ← world.expand (if trimmed.isEmpty then fallback else trimmed)
  return path.absolute world.workingDirectory

def dataDirectory (world : World) : String :=
  let home := match world.home? with
    | none => "~"
    | some home =>
      match Text.dropEndWhile (· == '/') home.toList with
      | [] => "/"
      | chars => String.ofList chars
  Path.absolute world.workingDirectory (Path.join home ".deobfuscator4j")

def settingsFile (world : World) : String := Path.join world.dataDirectory "config.json"

def logFile (world : World) (name : String) : String :=
  Path.join (Path.join world.dataDirectory "logs") name

end World

end ClearNames
