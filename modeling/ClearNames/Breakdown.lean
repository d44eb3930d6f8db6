import ClearNames.Text.Digits
import ClearNames.Text.Loose

/-! Faults that no part of the program deals with. -/

set_option autoImplicit false

namespace ClearNames

/-- A fault that ends the program: its kind and its text. -/
structure Breakdown where
  kind : String
  text : String
  deriving DecidableEq, Repr

namespace Breakdown

def badValue (text : String) : Breakdown := ⟨"ValueError", text⟩

def badKind (text : String) : Breakdown := ⟨"TypeError", text⟩

def tooLarge (text : String) : Breakdown := ⟨"OverflowError", text⟩

def badName (text : String) : Breakdown := ⟨"LookupError", text⟩

def unencodable (fault : EncodeFault) : Breakdown := ⟨"UnicodeEncodeError", fault.message⟩

def nullCharacter : Breakdown := badValue "embedded null byte"

def tooManyDigits : Breakdown :=
  badValue ("Exceeds the limit (" ++ toString Text.digitLimit ++
    " digits) for integer string conversion; use sys.set_int_max_str_digits() to increase the limit")

def line (breakdown : Breakdown) : String :=
  if breakdown.text.isEmpty then breakdown.kind else breakdown.kind ++ ": " ++ breakdown.text

end Breakdown

end ClearNames
