import ClearNames.CommandLine.Words
import ClearNames.Settings.Basic

/-! What a command line asks for.

The four words of a release stand together: the first run of plain words gives
them, and every later plain word that no option takes is left over. A word that
is left over, or an option that is not known, is a misuse; so is an option
without its value. Asking for help ends the reading at once.
-/

set_option autoImplicit false

namespace ClearNames.CommandLine

inductive Given (α : Type) where
  | absent
  /-- The option is there, but two dashes stand in place of its value. -/
  | blank
  | value (given : α)
  deriving DecidableEq, Repr

def Given.document {α : Type} (ofValue : α → Json) : Given α → Json
  | .absent => .null
  | .blank => .array []
  | .value given => ofValue given

structure Arguments where
  apiKey : Option String := none
  environment : Option String := none
  build : Option String := none
  renameLog : Option String := none
  projectDirectory : Given String := .absent
  apiHost : Given String := .absent
  timeout : Given Int := .absent
  skipVerification : Bool := false
  dryRun : Bool := false
  useDefaults : Bool := false
  dumpSettings : Bool := false
  saveSettings : Bool := false
  /-- The log file; an empty text asks for the standard place. -/
  logFile : Option String := none
  debug : Bool := false
  json : Bool := false
  deriving DecidableEq, Repr

inductive Stop where
  | help
  | misuse (misuse : Misuse)
  deriving DecidableEq, Repr

namespace Arguments

def turnOn (arguments : Arguments) : Switch → Arguments
  | .skipVerification => { arguments with skipVerification := true }
  | .dryRun => { arguments with dryRun := true }
  | .useDefaults => { arguments with useDefaults := true }
  | .dumpSettings => { arguments with dumpSettings := true }
  | .saveSettings => { arguments with saveSettings := true }
  | .debug => { arguments with debug := true }
  | .json => { arguments with json := true }

def enter (arguments : Arguments) (choice : Choice) (taken : Option String) : Except Stop Arguments :=
  match choice with
  | .help => .error .help
  | .switch switch => .ok (arguments.turnOn switch)
  | .projectDirectory => .ok { arguments with projectDirectory := taken.elim .blank .value }
  | .apiHost => .ok { arguments with apiHost := taken.elim .blank .value }
  | .logFile => .ok { arguments with logFile := some (taken.getD "") }
  | .timeout =>
    match taken with
    | none => .ok { arguments with timeout := .blank }
    | some text =>
      match Text.readInteger? text with
      | some seconds => .ok { arguments with timeout := .value seconds }
      | none => .error (.misuse (.notWhole .timeout text))

def enterAll (arguments : Arguments) : List (Choice × Option String) → Except Stop Arguments
  | [] => .ok arguments
  | (choice, taken) :: rest => do (← arguments.enter choice taken).enterAll rest

end Arguments

/-- The words of one release word: dividers, at most one plain word, dividers;
and the words after them. -/
def takeGroup (words : List Word) : List Word × List Word :=
  let dividers := words.takeWhile (· = .divider)
  let rest := words.dropWhile (· = .divider)
  let plain := (rest.take 1).filter Word.isPlain
  let rest := rest.drop plain.length
  (dividers ++ plain ++ rest.takeWhile (· = .divider), rest.dropWhile (· = .divider))

def groupText (group : List Word) : Option String :=
  ((group.filterMap Word.text?).erase dividerText).head?

def takeRelease (arguments : Arguments) (words : List Word) : Arguments × List Word :=
  let (apiKey, words) := takeGroup words
  let (environment, words) := takeGroup words
  let (build, words) := takeGroup words
  let (renameLog, words) := takeGroup words
  ({ arguments with
      apiKey := groupText apiKey
      environment := groupText environment
      build := groupText build
      renameLog := groupText renameLog }, words)

/-- The options that one word holds, in order, with what they take. The last
option may take the next word. -/
structure Cluster where
  options : List (Choice × Option String)
  takesNext : Bool
  deriving Repr

def takenText (text : String) : Option String := if text = dividerText then none else some text

def openOption (choice : Choice) (next : Option String) : Except Misuse Cluster :=
  match choice.appetite, next with
  | .none, _ | .atMostOne, none => .ok ⟨[(choice, none)], false⟩
  | .one, some text | .atMostOne, some text => .ok ⟨[(choice, takenText text)], true⟩
  | .one, none => .error (.missingValue choice)

def cluster (next : Option String) : List Char → Choice → Except Misuse Cluster
  | [], choice => openOption choice next
  | letter :: rest, choice =>
    let value := String.ofList (letter :: rest)
    if choice.appetite ≠ .none then .ok ⟨[(choice, takenText value)], false⟩
    else
      match Choice.spelled? ['-', letter] with
      | none => .error (.unusedValue choice value)
      | some following => do
        let others ← cluster next rest following
        return { others with options := (choice, none) :: others.options }

def Occurrence.cluster (occurrence : Occurrence) (next : Option String) : Except Misuse Cluster :=
  let choice := occurrence.choice
  match occurrence.attached with
  | none => openOption choice next
  | some value =>
    if choice.appetite ≠ .none then .ok ⟨[(choice, takenText (String.ofList value))], false⟩
    else if occurrence.short ∧ value ≠ [] then CommandLine.cluster next value choice
    else .error (.unusedValue choice (String.ofList value))

structure Progress where
  arguments : Arguments
  released : Bool
  leftOver : List String
  deriving Repr

namespace Progress

def takePlain (progress : Progress) (words : List Word) : Progress :=
  if progress.released then { progress with leftOver := progress.leftOver ++ words.filterMap Word.text? }
  else
    let (arguments, rest) := takeRelease progress.arguments words
    ⟨arguments, true, progress.leftOver ++ rest.filterMap Word.text?⟩

def enter (progress : Progress) (cluster : Cluster) : Except Stop Progress := do
  return { progress with arguments := (← progress.arguments.enterAll cluster.options) }

def nextPlain? : List Word → Option String
  | .plain text :: _ => some text
  | _ => none

/-- Read words from the front: plain words up to the next option together, then the option. -/
def read : (fuel : Nat) → Progress → List Word → Except Stop Progress
  | 0, progress, _ => .ok progress
  | _ + 1, progress, [] => .ok progress
  | fuel + 1, progress, .unknown text :: rest =>
    read fuel { progress with leftOver := progress.leftOver ++ [text] } rest
  | fuel + 1, progress, .option occurrence :: rest => do
    let cluster ← (occurrence.cluster (nextPlain? rest)).mapError .misuse
    let progress ← progress.enter cluster
    read fuel progress (if cluster.takesNext then rest.tail else rest)
  | fuel + 1, progress, words =>
    read fuel (progress.takePlain (words.takeWhile (!·.isOption))) (words.dropWhile (!·.isOption))

end Progress

def Arguments.ofWords (given : List String) : Except Stop Arguments := do
  let words ← (words given).mapError .misuse
  let progress ← Progress.read (words.length + 1) ⟨{}, false, []⟩ words
  if progress.leftOver.isEmpty then return progress.arguments
  throw (.misuse (.unknownWords progress.leftOver))

namespace Arguments

def overrides (arguments : Arguments) : OrderedTable LooseText Json := [
  (TextSetting.key .apiKey, .ofOption arguments.apiKey),
  (TextSetting.key .environment, .ofOption arguments.environment),
  (TextSetting.key .build, .ofOption arguments.build),
  (TextSetting.key .renameLog, .ofOption arguments.renameLog),
  (TextSetting.key .projectDirectory, arguments.projectDirectory.document .string),
  (TextSetting.key .apiHost, arguments.apiHost.document .string),
  (Settings.timeoutKey, arguments.timeout.document .int)] ++
  (if arguments.skipVerification then [(Settings.skipVerificationKey, .bool true)] else [])

end Arguments

end ClearNames.CommandLine
