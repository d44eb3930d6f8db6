import ClearNames.Json.Binary64
import ClearNames.OrderedTable
import ClearNames.Text.Loose

/-! JSON values. Whole numbers are exact, and the fields of an object keep
their order. A string, also one that names a field, may hold surrogates that are half of no
pair. -/

set_option autoImplicit false

namespace ClearNames

inductive Json where
  | null
  | bool (value : Bool)
  | int (value : Int)
  | float (value : Binary64)
  | string (text : String)
  /-- A string that is no text: the codes of its characters and lone surrogates. -/
  | codes (list : List Nat)
  | array (items : List Json)
  | object (fields : List (LooseText × Json))
  deriving Repr, Inhabited

namespace Json

def ofOption (text : Option String) : Json :=
  match text with
  | some text => .string text
  | none => .null

def isSurrogate (code : Nat) : Bool := 0xD800 ≤ code && code < 0xE000

def textOf (codes : List Nat) : String := String.ofList (codes.map Char.ofNat)

/-- The string of codes: a text unless a surrogate is among them. -/
def ofCodes (list : List Nat) : Json := if list.any isSurrogate then .codes list else .string (textOf list)

def ofLoose (text : LooseText) : Json :=
  match text.text? with
  | some text => .string text
  | none => .codes (text.points.map CodePoint.code)

def loose? : Json → Option LooseText
  | .string text => some text
  | .codes list => some (.ofCodes list)
  | _ => none

def isNull : Json → Bool
  | .null => true
  | _ => false

def kind : Json → String
  | .null => "NoneType"
  | .bool _ => "bool"
  | .int _ => "int"
  | .float _ => "float"
  | .string _ | .codes _ => "str"
  | .array _ => "list"
  | .object _ => "dict"

def field? (name : LooseText) : Json → Option Json
  | .object fields => OrderedTable.find? name fields
  | _ => none

end Json

end ClearNames
