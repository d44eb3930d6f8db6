import ClearNames.Journal.Record
import ClearNames.Settings.Warning
import ClearNames.Text.Digits
import ClearNames.Text.Split

/-! Judging given settings, strictly or leniently.

Both ways take a text without the blanks around it, a blank or missing value as
the default, and the address of the server without slashes at its end. The
strict way refuses everything else that is not of the setting's own kind. The
lenient way first turns numbers and texts into truth values, and texts into
whole numbers, where they read as such; what is still refused is replaced by
the default. It says what it changed, and breaks down where that cannot be told.
-/

set_option autoImplicit false

namespace ClearNames

namespace SettingValue

def textOr (fallback text : LooseText) : LooseText := if text.trimmed.isEmpty then fallback else text.trimmed

def text (key : LooseText) (fallback : LooseText) (value : Json) : Except SettingProblem LooseText :=
  match value.loose?, value with
  | some text, _ => .ok (textOr fallback text)
  | none, .null => .ok fallback
  | none, other => .error (.wrongKind key "str" other.kind)

def bool (key : LooseText) (fallback : Bool) : Json → Except SettingProblem Bool
  | .bool value => .ok value
  | .null => .ok fallback
  | other => .error (.wrongKind key "bool" other.kind)

def positive (key : LooseText) (fallback : Int) : Json → Except SettingProblem Int
  | .null => .ok fallback
  | .int value => if 0 < value then .ok value else .error (.notPositive key value)
  | other => .error (.wrongKind key "int" other.kind)

/-- The address that a text gives the server: it names one of two schemes. -/
def host (given : LooseText) : Except SettingProblem LooseText :=
  let schemes : List LooseText := ["http://", "https://"]
  if schemes.any fun scheme => scheme.points.isPrefixOf given.points then .ok given.withoutEndSlashes
  else .error (.badHost given)

def boolOfWord? (word : String) : Option Bool :=
  let lower := word.map Char.toLower
  if ["true", "1", "yes", "y"].contains lower then some true
  else if ["false", "0", "no", "n"].contains lower then some false
  else none

def convertToBool (key : LooseText) (value : Json) : Json × List SettingWarning :=
  match value with
  | .int 0 => (.bool false, [.numberAsBool key "0"])
  | .int 1 => (.bool true, [.numberAsBool key "1"])
  | .float number =>
    if number.isNat 0 then (.bool false, [.numberAsBool key number.text])
    else if number.isNat 1 then (.bool true, [.numberAsBool key number.text])
    else (value, [])
  | .string text =>
    match boolOfWord? (Text.trimmed text) with
    | some meant => (.bool meant, [.textAsBool key text meant])
    | none => (value, [])
  | _ => (value, [])

def convertToInt (key : LooseText) (value : Json) : Json × List SettingWarning :=
  match value with
  | .string text =>
    match Text.readInteger? (Text.trimmed text) with
    | some number => (.int number, [.textAsInt key text number])
    | none => (value, [])
  | _ => (value, [])

abbrev Lenient (α : Type) := StateT (List SettingWarning) (Except Breakdown) α

def orReplace {α : Type} (fallback : α) (judged : Except SettingProblem α) : Lenient α :=
  match judged with
  | .ok value => pure value
  | .error problem =>
    match problem.breakdown? with
    | some breakdown => throw breakdown
    | none => do
      modify (· ++ [.replaced problem])
      pure fallback

def converted {α : Type} (fallback : α) (convert : Json → Json × List SettingWarning)
    (judge : Json → Except SettingProblem α) (value : Json) : Lenient α := do
  let (value, notes) := convert value
  modify (· ++ notes)
  orReplace fallback (judge value)

end SettingValue

namespace Settings

/-- Judge every setting in order; the address of the server is a text first
and is judged as an address last. -/
def assemble {m : Type → Type} [Monad m] (text : TextSetting → m LooseText) (skipVerification : m Bool)
    (timeout : m Int) (host : LooseText → m LooseText) (extra : OrderedTable LooseText Json) : m Settings := do
  let apiHost ← text .apiHost
  let apiKey ← text .apiKey
  let environment ← text .environment
  let build ← text .build
  let renameLog ← text .renameLog
  let projectDirectory ← text .projectDirectory
  let skipVerification ← skipVerification
  let timeout ← timeout
  let apiHost ← host apiHost
  return { apiHost, apiKey, timeout, skipVerification, environment, build, renameLog, projectDirectory, extra }

def given (config : OrderedTable LooseText Json) (key : LooseText) : Json := (OrderedTable.find? key config).getD .null

def beside (config : OrderedTable LooseText Json) : OrderedTable LooseText Json :=
  config.filter fun (key, _) => !keys.contains key

def validate (directory : String) (config : Json) : Except SettingProblem Settings :=
  match config with
  | .object fields =>
    let standard := defaults directory
    let fields := OrderedTable.update standard.fields fields
    assemble
      (fun setting => SettingValue.text setting.key (standard.text setting) (given fields setting.key))
      (SettingValue.bool skipVerificationKey standard.skipVerification (given fields skipVerificationKey))
      (SettingValue.positive timeoutKey standard.timeout (given fields timeoutKey))
      SettingValue.host
      (beside fields)
  | other => .error (.notAnObject other.kind)

/-- The settings that a value gives, with the default for what cannot be taken,
and what is to be said about it. -/
def settle (directory : String) (config : Json) : Except Breakdown (Settings × List SettingWarning) :=
  let standard := defaults directory
  match config with
  | .object fields =>
    let fields := OrderedTable.update standard.fields fields
    let settled : SettingValue.Lenient Settings := assemble
      (fun setting => SettingValue.orReplace (standard.text setting)
        (SettingValue.text setting.key (standard.text setting) (given fields setting.key)))
      (SettingValue.converted standard.skipVerification (SettingValue.convertToBool skipVerificationKey)
        (SettingValue.bool skipVerificationKey standard.skipVerification) (given fields skipVerificationKey))
      (SettingValue.converted standard.timeout (SettingValue.convertToInt timeoutKey)
        (SettingValue.positive timeoutKey standard.timeout) (given fields timeoutKey))
      (fun host => SettingValue.orReplace standard.apiHost (SettingValue.host host))
      (beside fields)
    settled.run []
  | other => .ok (standard, [.replaced (.notAnObject other.kind)])

def settlingRecords (config : Json) : List Record :=
  match config with
  | .object _ => []
  | other => [.of .warning .validation (SettingProblem.notAnObject other.kind).message]

end Settings

end ClearNames
