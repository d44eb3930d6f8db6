import ClearNames.LoosePath
import ClearNames.Mapping.Reader
import ClearNames.YGuardLog.Reader

/-! Reading a rename log of either format, chosen by the file's extension. -/

set_option autoImplicit false

namespace ClearNames

inductive LogFormat where
  | mapping
  | yguard
  deriving DecidableEq, Repr

namespace LogFormat

def ofExtension? (extension : String) : Option LogFormat :=
  match extension with
  | ".txt" => some .mapping
  | ".xml" => some .yguard
  | _ => none

def readerName : LogFormat → String
  | .mapping => "parse_proguard"
  | .yguard => "parse_yguard"

def readBytes : LogFormat → LooseText → ByteArray → Reading Unit
  | .mapping => Mapping.readBytes
  | .yguard => YGuardLog.readBytes

end LogFormat

inductive LogAttempt where
  | unsupported (extension : LooseText)
  | read (result : ReadingResult)

namespace RenameLog

def readFile (disk : Disk) (format : LogFormat) (path : LooseText) : Reading Unit := do
  Reading.note (.of .debug .renameLog ("Parsing " ++ path ++ " with " ++ format.readerName))
  match disk.read path.systemPath with
  | .error fault => throw (.disk fault)
  | .ok bytes => format.readBytes path bytes

def formatOf? (path : LooseText) : Option LogFormat := path.extension.text?.bind LogFormat.ofExtension?

/-- Read a rename log; a file of another extension is not looked at. -/
def read (disk : Disk) (path : LooseText) : LogAttempt :=
  match formatOf? path with
  | none => .unsupported path.extension
  | some format => .read (readFile disk format path).result

def unsupportedNote (path extension : LooseText) : Record :=
  .of .warning .renameLog ("Unsupported rename log format '" ++ extension ++ "' for " ++ path)

end RenameLog

def LogAttempt.tree : LogAttempt → Except RenameLogFault (Option NameTree)
  | .unsupported _ => .ok none
  | .read result => result.outcome.map some

def LogAttempt.records (path : LooseText) : LogAttempt → List Record
  | .unsupported extension => [RenameLog.unsupportedNote path extension]
  | .read result => result.records

end ClearNames
