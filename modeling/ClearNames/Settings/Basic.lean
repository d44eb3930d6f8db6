import ClearNames.Json.Basic

/-! The settings of a release.

Eight settings have a meaning here. Whatever else a settings object holds is
carried along, after the eight and in its order.
-/

set_option autoImplicit false

namespace ClearNames

inductive TextSetting where
  | apiHost
  | apiKey
  | environment
  | build
  | renameLog
  | projectDirectory
  deriving DecidableEq, Repr

namespace TextSetting

def name : TextSetting → String
  | .apiHost => "api_host"
  | .apiKey => "api_key"
  | .environment => "environment"
  | .build => "build"
  | .renameLog => "renamelog"
  | .projectDirectory => "project_dir"

def key (setting : TextSetting) : LooseText := setting.name

end TextSetting

structure Settings where
  apiHost : LooseText
  apiKey : LooseText
  timeout : Int
  /-- Whether the certificate of the server is accepted unseen. -/
  skipVerification : Bool
  environment : LooseText
  build : LooseText
  renameLog : LooseText
  projectDirectory : LooseText
  extra : OrderedTable LooseText Json
  deriving Repr

namespace Settings

def timeoutKey : LooseText := "timeout"

def skipVerificationKey : LooseText := "skip_verification"

def keys : List LooseText := [
  TextSetting.key .apiHost, TextSetting.key .apiKey, timeoutKey, skipVerificationKey,
  TextSetting.key .environment, TextSetting.key .build, TextSetting.key .renameLog,
  TextSetting.key .projectDirectory]

def defaults (directory : String) : Settings where
  apiHost := "https://squash.io"
  apiKey := ""
  timeout := 60
  skipVerification := false
  environment := ""
  build := ""
  renameLog := ""
  projectDirectory := directory
  extra := []

def text (settings : Settings) : TextSetting → LooseText
  | .apiHost => settings.apiHost
  | .apiKey => settings.apiKey
  | .environment => settings.environment
  | .build => settings.build
  | .renameLog => settings.renameLog
  | .projectDirectory => settings.projectDirectory

def fields (settings : Settings) : OrderedTable LooseText Json := [
  (TextSetting.key .apiHost, .ofLoose settings.apiHost),
  (TextSetting.key .apiKey, .ofLoose settings.apiKey),
  (timeoutKey, .int settings.timeout),
  (skipVerificationKey, .bool settings.skipVerification),
  (TextSetting.key .environment, .ofLoose settings.environment),
  (TextSetting.key .build, .ofLoose settings.build),
  (TextSetting.key .renameLog, .ofLoose settings.renameLog),
  (TextSetting.key .projectDirectory, .ofLoose settings.projectDirectory)] ++ settings.extra

theorem keys_fields (settings : Settings) :
    OrderedTable.keys settings.fields = keys ++ OrderedTable.keys settings.extra := by
  simp [fields, keys, OrderedTable.keys]

def document (settings : Settings) : Json := .object settings.fields

end Settings

end ClearNames
