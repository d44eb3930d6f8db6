import ClearNames.Text.Quoted

/-! Why a name cannot be entered into a tree. -/

set_option autoImplicit false

namespace ClearNames

inductive NamingFault where
  | obfuscationTaken (obfuscation holder claimant : String)
  /-- A dotted name goes on with a package segment below a class. -/
  | packageBelowClass (identifier segment : String)
  | notAClass (identifier segment : String)
  | badSignature (signature : String)
  deriving DecidableEq, Repr

def NamingFault.message : NamingFault → String
  | .obfuscationTaken obfuscation holder claimant =>
    "Tried to assign obfuscation " ++ Text.quoted obfuscation ++ " to " ++ holder ++ " and " ++ claimant
  | .packageBelowClass identifier segment =>
    "Invalid identifier " ++ Text.quoted identifier ++ ": unexpected package segment " ++
      Text.quoted segment ++ " after a class"
  | .notAClass identifier _ => "Invalid identifier " ++ Text.quoted identifier ++ ": does not name a class"
  | .badSignature signature => "Invalid method name " ++ Text.quoted signature

end ClearNames
