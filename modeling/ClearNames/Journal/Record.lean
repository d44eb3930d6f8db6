import ClearNames.Text.Loose

/-! Log records: a severity, the part of the program that speaks, and a message. -/

set_option autoImplicit false

namespace ClearNames

/-- How grave a record is; severities without a name of their own are allowed. -/
structure Severity where
  rank : Int
  deriving DecidableEq, Repr

namespace Severity

def debug : Severity := ⟨10⟩

def info : Severity := ⟨20⟩

def warning : Severity := ⟨30⟩

def error : Severity := ⟨40⟩

def critical : Severity := ⟨50⟩

def name (severity : Severity) : String :=
  if severity = debug then "DEBUG"
  else if severity = info then "INFO"
  else if severity = warning then "WARNING"
  else if severity = error then "ERROR"
  else if severity = critical then "CRITICAL"
  else if severity.rank = 0 then "NOTSET"
  else "Level " ++ toString severity.rank

end Severity

inductive Channel where
  | nameTree
  | mapping
  | renameXml
  | renameLog
  | sources
  | payload
  | validation
  | release
  | savedSettings
  | upload
  | commandLine
  | supervisor
  deriving DecidableEq, Repr

def Channel.name : Channel → String
  | .nameTree => "deobfuscator4j.core.namespace"
  | .mapping => "deobfuscator4j.core.rename_log.proguard"
  | .renameXml => "deobfuscator4j.core.rename_log.yguard"
  | .renameLog => "deobfuscator4j.core.rename_log"
  | .sources => "deobfuscator4j.core.services.locator"
  | .payload => "deobfuscator4j.core.services.serializer"
  | .validation => "deobfuscator4j.core.pipeline.validator"
  | .release => "deobfuscator4j.core.pipeline.engine"
  | .savedSettings => "deobfuscator4j.domain.config"
  | .upload => "deobfuscator4j.infra.network.squash_client"
  | .commandLine => "deobfuscator4j.interface.cli.app"
  | .supervisor => "deobfuscator4j.supervisor"

structure Record where
  severity : Severity
  channel : String
  message : LooseText
  deriving DecidableEq, Repr

def Record.channelName (record : Record) : String := if record.channel.isEmpty then "root" else record.channel

def Record.of (severity : Severity) (channel : Channel) (message : LooseText) : Record :=
  ⟨severity, channel.name, message⟩

end ClearNames
