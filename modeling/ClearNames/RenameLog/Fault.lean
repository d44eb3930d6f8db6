import ClearNames.Disk.Basic
import ClearNames.NameTree.Fault
import ClearNames.Text.Utf8
import ClearNames.Xml.EncodingName

/-! Why a rename log cannot be read. -/

set_option autoImplicit false

namespace ClearNames

inductive LineProblem where
  | unknownShape
  | fieldOutsideClass
  | methodOutsideClass
  deriving DecidableEq, Repr

def LineProblem.message : LineProblem → String
  | .unknownShape => "Invalid mapping line"
  | .fieldOutsideClass => "Unexpected field mapping outside of class"
  | .methodOutsideClass => "Unexpected method mapping outside of class"

inductive RenameLogFault where
  | naming (fault : NamingFault)
  | disk (fault : DiskFault)
  /-- A line, by its number from one on and its text. -/
  | line (problem : LineProblem) (number : Nat) (text : String)
  | notUtf8 (path : LooseText) (fault : Text.Utf8Fault)
  | malformedXml (path : LooseText) (reason : String)
  | encoding (fault : Xml.EncodingFault)
  | missingAttribute (element attributeName : String)
  deriving DecidableEq, Repr

def RenameLogFault.message : RenameLogFault → LooseText
  | .naming fault => fault.message
  | .disk fault => fault.message
  | .line problem number text =>
    problem.message ++ " (line " ++ toString number ++ "): " ++ Text.quoted text
  | .notUtf8 path fault => "Rename log '" ++ path ++ "' is not valid UTF-8: " ++ fault.message
  | .encoding fault => fault.message
  | .malformedXml path reason => "Malformed yGuard log '" ++ path ++ "': " ++ reason
  | .missingAttribute element attributeName =>
    "<" ++ element ++ "> entry without '" ++ attributeName ++ "' attribute"

def RenameLogFault.breakdown? : RenameLogFault → Option Breakdown
  | .disk fault => fault.breakdown?
  | .encoding (.unknown name) => some (.badName (Xml.EncodingFault.unknown name).message)
  | .encoding .multibyte => some (.badValue Xml.EncodingFault.multibyte.message)
  | _ => none

end ClearNames
