import ClearNames.CommandLine.Words
import ClearNames.Text.Fill
import ClearNames.World

/-! The texts that explain the command line, on lines of a given width. -/

set_option autoImplicit false

namespace ClearNames

def World.standardColumns : Int := 80

def World.columns (world : World) : Int :=
  match (world.valueOf? "COLUMNS").bind Text.readInteger? with
  | some columns => if 0 < columns then columns else standardColumns
  | none => standardColumns

namespace CommandLine

def programName : String := "deobfuscator4j"

def ofLines (lines : List String) : String := String.join (lines.map (· ++ "\n"))

def indented (columns : Nat) (line : String) : String := "".pushn ' ' columns ++ line

def textWidth (columns : Int) : Int := columns - 2

def leastWidth : Nat := 11

def fillWidth (width : Int) : Nat := max leastWidth width.toNat

namespace Choice

def valueName : Choice → String
  | .projectDirectory => "PROJECT_DIR"
  | .apiHost => "API_HOST"
  | .timeout => "TIMEOUT"
  | .logFile => "LOG_FILE"
  | .help | .switch _ => ""

def withValue (choice : Choice) (spelling : String) : String :=
  match choice.appetite with
  | .none => spelling
  | .one => spelling ++ " " ++ choice.valueName
  | .atMostOne => spelling ++ " [" ++ choice.valueName ++ "]"

def usagePart (choice : Choice) : String := "[" ++ choice.withValue (choice.spellings.headD "") ++ "]"

def heading (choice : Choice) : String := ", ".intercalate (choice.spellings.map choice.withValue)

def explanation : Choice → String
  | .help => "show this help message and exit"
  | .projectDirectory => "Project root searched for .java sources (default: current directory)."
  | .apiHost => "Base URL of the crash-reporting server."
  | .timeout => "Upload timeout in seconds."
  | .logFile => "Also write logs to a file (default location when no path is given)."
  | .switch .skipVerification => "Do not verify the server's TLS certificate."
  | .switch .dryRun => "Parse and locate sources but do not upload."
  | .switch .useDefaults => "Ignore the saved configuration file."
  | .switch .dumpSettings => "Print the resolved configuration as JSON and exit."
  | .switch .saveSettings => "Save the resolved server settings as the new defaults and exit."
  | .switch .debug => "Elevate logging verbosity to DEBUG."
  | .switch .json => "Print the release result as JSON."

end Choice

def plainWords : List (String × String) := [
  ("api_key", "API key of the project."),
  ("environment", "Environment the build is deployed to."),
  ("build", "Build identifier (version code, commit, ...)."),
  ("renamelog", "Path to the rename log (yGuard .xml or ProGuard .txt).")]

def purpose : String :=
  "Upload the yGuard or ProGuard rename log of a Java build so that obfuscated stack traces can be mapped " ++
    "back to source."

/-- The lines of the usage. Options and plain words stand on lines of their own
unless all fits into one line, and beside the name of the program unless that
takes more than three quarters of the line. -/
def usageLines (width : Int) : List String :=
  let label := "usage: "
  let opening := label ++ programName
  let options := Choice.all.map Choice.usagePart
  let words := plainWords.map fun (name, _) => "[" ++ name ++ "]"
  let whole := " ".intercalate (opening :: options ++ words)
  let below := fun (indent : Nat) (parts : List String) =>
    (Text.packed (width - indent) parts).map (indented indent)
  if (whole.length : Int) ≤ width then [whole]
  else if (4 * opening.length : Int) ≤ 3 * width then
    let indent := opening.length + 1
    match Text.packed (width - indent) options with
    | first :: rest => (opening ++ " " ++ first) :: rest.map (indented indent) ++ below indent words
    | [] => opening :: below indent words
  else opening :: below label.length options ++ below label.length words

def usage (columns : Int) : String := ofLines (usageLines (textWidth columns))

def headingLimit : Nat := 24

def headingColumns (width : Int) : Nat := min headingLimit (max 4 (width - 20).toNat)

def entryLines (width : Int) (heading explanation : String) : List String :=
  let columns := headingColumns width
  let lines := Text.fill (fillWidth (width - columns)) explanation
  let heading := indented 2 heading
  match lines with
  | first :: rest =>
    if heading.length + 2 ≤ columns then
      (heading ++ indented (columns - heading.length) first) :: rest.map (indented columns)
    else heading :: lines.map (indented columns)
  | [] => [heading]

def help (columns : Int) : String :=
  let width := textWidth columns
  ofLines (usageLines width ++ "" :: Text.fill (fillWidth width) purpose ++
    "" :: "positional arguments:" ::
      plainWords.flatMap (fun (name, explanation) => entryLines width name explanation) ++
    "" :: "options:" ::
      Choice.all.flatMap fun choice => entryLines width choice.heading choice.explanation)

def complaint (columns : Int) (misuse : Misuse) : String :=
  usage columns ++ ofLines [programName ++ ": error: " ++ misuse.message]

end CommandLine

end ClearNames
