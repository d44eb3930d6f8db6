import ClearNames.Text.Quoted
import ClearNames.Text.Utf8

/-! Texts that may hold surrogates which are half of no pair.

A name goes to the system as bytes: those of its characters in UTF-8, and the
one byte that each surrogate from U+DC80 to U+DCFF escapes. The other
surrogates have no encoding, and in a stream of UTF-8 none of them has.
-/

set_option autoImplicit false

namespace ClearNames

inductive CodePoint where
  | char (char : Char)
  /-- A surrogate, by its distance from the first one. -/
  | lone (offset : Fin 0x800)
  deriving DecidableEq, Repr

namespace CodePoint

def code : CodePoint → Nat
  | .char value => value.toNat
  | .lone offset => 0xD800 + offset.val

def ofCode (code : Nat) : CodePoint :=
  if surrogate : 0xD800 ≤ code ∧ code < 0xE000 then .lone ⟨code - 0xD800, by omega⟩ else .char (Char.ofNat code)

def char? : CodePoint → Option Char
  | .char value => some value
  | .lone _ => none

def isChar (point : CodePoint) : Bool := point.char?.isSome

def isBlank : CodePoint → Bool
  | .char value => Text.isBlank value
  | .lone _ => false

/-- The byte that a surrogate escapes. -/
def byte? : CodePoint → Option UInt8
  | .char _ => none
  | .lone offset => if 0x480 ≤ offset.val ∧ offset.val < 0x500 then some (UInt8.ofNat (offset.val - 0x400)) else none

def isPassable (point : CodePoint) : Bool := point.isChar || point.byte?.isSome

def bytes : CodePoint → List UInt8
  | .char value => String.utf8EncodeChar value
  | point => point.byte?.toList

def escaped : CodePoint → List Char
  | .char value => [value]
  | .lone offset => '\\' :: 'u' :: Text.fixedHex 4 (0xD800 + offset.val)

end CodePoint

/-- Surrogates in a row that cannot be encoded, and the place of the first. -/
structure EncodeFault where
  position : Nat
  surrogates : List CodePoint
  deriving DecidableEq, Repr

def EncodeFault.message (fault : EncodeFault) : String :=
  let place := match fault.surrogates with
    | [single] => "character '" ++ String.ofList single.escaped ++ "' in position " ++ toString fault.position
    | several => "characters in position " ++ toString fault.position ++ "-" ++
        toString (fault.position + several.length - 1)
  "'utf-8' codec can't encode " ++ place ++ ": surrogates not allowed"

structure LooseText where
  points : List CodePoint
  deriving DecidableEq, Repr

namespace LooseText

def ofString (text : String) : LooseText := ⟨text.toList.map .char⟩

instance : Coe String LooseText := ⟨ofString⟩

instance : Append LooseText := ⟨fun front back => ⟨front.points ++ back.points⟩⟩

def ofCodes (codes : List Nat) : LooseText := ⟨codes.map .ofCode⟩

def isEmpty (text : LooseText) : Bool := text.points.isEmpty

def text? (text : LooseText) : Option String :=
  if text.points.all CodePoint.isChar then some (String.ofList (text.points.filterMap CodePoint.char?)) else none

def trimmed (text : LooseText) : LooseText := ⟨Text.strip CodePoint.isBlank text.points⟩

def withoutEndSlashes (text : LooseText) : LooseText := ⟨Text.dropEndWhile (· == .char '/') text.points⟩

def escaped (text : LooseText) : String := String.ofList (text.points.flatMap CodePoint.escaped)

def quoted (text : LooseText) : String :=
  let mark := Text.quoteMark (text.points.filterMap CodePoint.char?)
  String.ofList (mark :: text.points.flatMap (fun
    | .char char => Text.quoteChar mark char
    | surrogate => surrogate.escaped) ++ [mark])

def faultOf? (takes : CodePoint → Bool) (text : LooseText) : Option EncodeFault :=
  match text.points.dropWhile takes with
  | [] => none
  | first :: rest =>
    some ⟨(text.points.takeWhile takes).length, first :: rest.takeWhile (!·.isChar)⟩

def encoded (text : LooseText) : Except EncodeFault String :=
  match text.faultOf? CodePoint.isChar with
  | some fault => .error fault
  | none => .ok (String.ofList (text.points.filterMap CodePoint.char?))

/-- What the system is asked for by a name, as far as its bytes are a text. -/
def systemName (name : LooseText) : Except EncodeFault (Option String) :=
  match name.text?, name.faultOf? CodePoint.isPassable with
  | some text, _ => .ok (some text)
  | none, some fault => .error fault
  | none, none =>
    let decoded := Text.decodeUtf8 ⟨(name.points.flatMap CodePoint.bytes).toArray⟩
    .ok (if decoded.fault.isNone then some (String.ofList decoded.chars) else none)

/-- The path that the system looks for; the empty path, at which nothing is, where it has none. -/
def systemPath (path : LooseText) : String :=
  match path.systemName with
  | .ok (some text) => text
  | _ => ""

end LooseText

end ClearNames
