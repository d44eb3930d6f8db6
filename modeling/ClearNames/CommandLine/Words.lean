import ClearNames.Text.Digits
import ClearNames.Text.Quoted
import ClearNames.Text.Split

/-! The options of the command line and the words that it is made of.

An option is spelled in full, or by the start of one long spelling only. Its
value may be attached: after an equals sign, or right after a short spelling.
Words that look like negative numbers, that contain a space, or that follow two
dashes on their own are no options.
-/

set_option autoImplicit false

namespace ClearNames.CommandLine

inductive Switch where
  | skipVerification
  | dryRun
  | useDefaults
  | dumpSettings
  | saveSettings
  | debug
  | json
  deriving DecidableEq, Repr

inductive Choice where
  | help
  | projectDirectory
  | apiHost
  | timeout
  | logFile
  | switch (switch : Switch)
  deriving DecidableEq, Repr

namespace Choice

inductive Appetite where
  | none
  | one
  | atMostOne
  deriving DecidableEq, Repr

def appetite : Choice → Appetite
  | .help | .switch _ => .none
  | .projectDirectory | .apiHost | .timeout => .one
  | .logFile => .atMostOne

def all : List Choice := [
  .help, .projectDirectory, .apiHost, .timeout, .switch .skipVerification, .switch .dryRun,
  .switch .useDefaults, .switch .dumpSettings, .switch .saveSettings, .logFile, .switch .debug, .switch .json]

def spellings : Choice → List String
  | .help => ["-h", "--help"]
  | .projectDirectory => ["-p", "--project-dir"]
  | .apiHost => ["--api-host"]
  | .timeout => ["--timeout"]
  | .logFile => ["--log-file"]
  | .switch .skipVerification => ["--skip-verification"]
  | .switch .dryRun => ["--dry-run"]
  | .switch .useDefaults => ["--use-defaults"]
  | .switch .dumpSettings => ["--dump-config"]
  | .switch .saveSettings => ["--save-config"]
  | .switch .debug => ["--debug"]
  | .switch .json => ["--json"]

def name (choice : Choice) : String := "/".intercalate choice.spellings

def table : List (String × Choice) := all.flatMap fun choice => choice.spellings.map (·, choice)

def spelled? (spelling : List Char) : Option Choice := table.lookup (String.ofList spelling)

end Choice

inductive Misuse where
  | ambiguous (word : String) (spellings : List String)
  | unusedValue (choice : Choice) (value : String)
  | missingValue (choice : Choice)
  | notWhole (choice : Choice) (value : String)
  | unknownWords (words : List String)
  deriving DecidableEq, Repr

def Misuse.message : Misuse → String
  | .ambiguous word spellings =>
    "ambiguous option: " ++ word ++ " could match " ++ ", ".intercalate spellings
  | .unusedValue choice value =>
    "argument " ++ choice.name ++ ": ignored explicit argument " ++ Text.quoted value
  | .missingValue choice => "argument " ++ choice.name ++ ": expected one argument"
  | .notWhole choice value => "argument " ++ choice.name ++ ": invalid int value: " ++ Text.quoted value
  | .unknownWords words => "unrecognized arguments: " ++ " ".intercalate words

/-- A spelling of an option, and the value in the same word. -/
structure Occurrence where
  choice : Choice
  short : Bool
  attached : Option (List Char)
  deriving DecidableEq, Repr

inductive Word where
  | plain (text : String)
  /-- Two dashes; no word after them is an option. -/
  | divider
  | option (occurrence : Occurrence)
  | unknown (text : String)
  deriving DecidableEq, Repr

def dividerText : String := "--"

namespace Word

def text? : Word → Option String
  | .plain text | .unknown text => some text
  | .divider => some dividerText
  | .option _ => none

def isPlain : Word → Bool
  | .plain _ => true
  | _ => false

def isOption : Word → Bool
  | .option _ | .unknown _ => true
  | .plain _ | .divider => false

end Word

def isDigits (text : List Char) : Bool := !text.isEmpty && text.all Text.isDecimalDigit

/-- Whether a word without its last line feed is a dash and a number, with or without a point. -/
def isNegativeNumber (word : List Char) : Bool :=
  match word with
  | '-' :: body =>
    let body := if body.getLast? = some '\n' then body.dropLast else body
    match Text.cut? '.' body with
    | none => isDigits body
    | some (whole, fraction) => whole.all Text.isDecimalDigit && isDigits fraction
  | _ => false

def atEquals (word : List Char) : List Char × Option (List Char) :=
  match Text.cut? '=' word with
  | some (start, value) => (start, some value)
  | none => (word, none)

def candidates (word : List Char) : List (String × Occurrence) :=
  match word with
  | '-' :: '-' :: _ =>
    let (start, attached) := atEquals word
    Choice.table.filterMap fun (spelling, choice) =>
      if start.isPrefixOf spelling.toList then some (spelling, ⟨choice, false, attached⟩) else none
  | '-' :: letter :: value =>
    Choice.table.filterMap fun (spelling, choice) =>
      if spelling.toList = ['-', letter] then some (spelling, ⟨choice, true, some value⟩) else none
  | _ => []

def isShort (spelling : List Char) : Bool := spelling.length = 2

def spelledInFull? (word : List Char) : Option Occurrence :=
  match Choice.spelled? word with
  | some choice => some ⟨choice, isShort word, none⟩
  | none =>
    let (spelling, attached) := atEquals word
    (Choice.spelled? spelling).map fun choice => ⟨choice, isShort spelling, attached⟩

def Word.ofString (text : String) : Except Misuse Word :=
  let word := text.toList
  if word.head? ≠ some '-' ∨ word.length = 1 then .ok (.plain text)
  else if text = dividerText then .ok .divider
  else
    match spelledInFull? word with
    | some occurrence => .ok (.option occurrence)
    | none =>
      match candidates word with
      | [(_, occurrence)] => .ok (.option occurrence)
      | [] => .ok (if isNegativeNumber word || word.contains ' ' then .plain text else .unknown text)
      | several => .error (.ambiguous text (several.map Prod.fst))

def words : List String → Except Misuse (List Word)
  | [] => .ok []
  | text :: rest => do
    let word ← Word.ofString text
    if word = .divider then return .divider :: rest.map .plain
    return word :: (← words rest)

end ClearNames.CommandLine
