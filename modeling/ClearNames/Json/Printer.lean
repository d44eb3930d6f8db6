import ClearNames.Json.Basic
import ClearNames.Writing

/-! Writing JSON: compact in ASCII, or indented with other characters kept. -/

set_option autoImplicit false

namespace ClearNames.Json

def escapeUnit (unit : Nat) : List Char := '\\' :: 'u' :: Text.fixedHex 4 unit

/-- A character by its code units: two above U+FFFF, else one. -/
def escapeChar (char : Char) : List Char :=
  let code := char.toNat
  if code < 0x10000 then escapeUnit code
  else escapeUnit (0xD800 + (code - 0x10000) / 0x400) ++ escapeUnit (0xDC00 + (code - 0x10000) % 0x400)

def stringChar (asciiOnly : Bool) (char : Char) : List Char :=
  if char = '"' then ['\\', '"']
  else if char = '\\' then ['\\', '\\']
  else if char = '\n' then ['\\', 'n']
  else if char = '\r' then ['\\', 'r']
  else if char = '\t' then ['\\', 't']
  else if char = '\x08' then ['\\', 'b']
  else if char = '\x0c' then ['\\', 'f']
  else if char.toNat < 0x20 then escapeChar char
  else if asciiOnly && 0x7F ≤ char.toNat then escapeChar char
  else [char]

def stringChars (asciiOnly : Bool) (text : String) : List Char :=
  '"' :: text.toList.flatMap (stringChar asciiOnly) ++ ['"']

def looseChars (text : LooseText) : List Char :=
  '"' :: text.points.flatMap (fun
    | .char char => stringChar true char
    | surrogate => escapeUnit surrogate.code) ++ ['"']

def floatText : Binary64 → String
  | .notANumber => "NaN"
  | .infinite false => "Infinity"
  | .infinite true => "-Infinity"
  | number => number.text

mutual

def compactChars : Json → List Char
  | .null => "null".toList
  | .bool true => "true".toList
  | .bool false => "false".toList
  | .int value => (toString value).toList
  | .float value => (floatText value).toList
  | .string text => stringChars true text
  | .codes list => looseChars (.ofCodes list)
  | .array [] => ['[', ']']
  | .array (first :: rest) => '[' :: compactChars first ++ compactItems rest ++ [']']
  | .object [] => ['\x7b', '\x7d']
  | .object ((name, value) :: rest) =>
    '\x7b' :: looseChars name ++ ':' :: compactChars value ++ compactFields rest ++ ['\x7d']

def compactItems : List Json → List Char
  | [] => []
  | item :: rest => ',' :: compactChars item ++ compactItems rest

def compactFields : List (LooseText × Json) → List Char
  | [] => []
  | (name, value) :: rest => ',' :: looseChars name ++ ':' :: compactChars value ++ compactFields rest

end

def compact (value : Json) : String := String.ofList value.compactChars

/-! ## Indented documents, in pieces -/

def looseString (text : LooseText) : LooseText :=
  ⟨.char '"' :: text.points.flatMap (fun
    | .char char => (stringChar false char).map .char
    | surrogate => [surrogate]) ++ [.char '"']⟩

def breakLine (width depth : Nat) : String := String.ofList ('\n' :: List.replicate (width * depth) ' ')

def isContainer : Json → Bool
  | .array _ | .object _ => true
  | _ => false

/-- The pieces of an item behind what stands in front of it: a single value is
one piece with that, an array or an object begins one of its own. -/
def behind (front : String) (item : Json) (own : List Piece) : List Piece :=
  if item.isContainer then .ok front :: own else own.map fun piece => do return front ++ (← piece)

mutual

def pieces (width depth : Nat) : Json → List Piece
  | .null => [.ok "null"]
  | .bool true => [.ok "true"]
  | .bool false => [.ok "false"]
  | .int value => [.ofInt value]
  | .float value => [.ok (floatText value)]
  | .string text => [.ok (looseString text)]
  | .codes list => [.ok (looseString (.ofCodes list))]
  | .array [] => [.ok "[]"]
  | .array (first :: rest) =>
    behind ("[" ++ breakLine width (depth + 1)) first (pieces width (depth + 1) first) ++
      itemPieces width (depth + 1) rest ++ [.ok (breakLine width depth), .ok "]"]
  | .object [] => [.ok "\x7b\x7d"]
  | .object ((name, value) :: rest) =>
    .ok "\x7b" :: .ok (breakLine width (depth + 1)) :: .ok (looseString name) :: .ok ": " ::
      pieces width (depth + 1) value ++ fieldPieces width (depth + 1) rest ++
      [.ok (breakLine width depth), .ok "\x7d"]

def itemPieces (width depth : Nat) : List Json → List Piece
  | [] => []
  | item :: rest =>
    behind ("," ++ breakLine width depth) item (pieces width depth item) ++ itemPieces width depth rest

def fieldPieces (width depth : Nat) : List (LooseText × Json) → List Piece
  | [] => []
  | (name, value) :: rest =>
    .ok ("," ++ breakLine width depth) :: .ok (looseString name) :: .ok ": " ::
      pieces width depth value ++ fieldPieces width depth rest

end

def indented (width : Nat) (value : Json) : Piece := Piece.together (value.pieces width 0)

end ClearNames.Json
