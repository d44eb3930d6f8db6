import ClearNames.Text.Utf8
import ClearNames.Xml.Chars
import ClearNames.Xml.EncodingName

/-! The characters of an XML document from its bytes.

A byte order mark, or a zero byte among the first two, tells the width of the
code units. A declared encoding counts only for documents of single bytes.
-/

set_option autoImplicit false

namespace ClearNames.Xml

inductive Encoding where
  | utf8
  | utf16 (highFirst : Bool)
  | latin1
  | singleByte (page : CodePage)
  deriving DecidableEq, Repr

def Encoding.alphabet : Encoding → Alphabet
  | .utf16 _ | .latin1 => .withSigns
  | .utf8 | .singleByte _ => .plain

structure Decoded where
  chars : List Char
  isWhole : Bool
  deriving DecidableEq, Repr

def codeUnits (highFirst : Bool) : List UInt8 → List Nat
  | first :: second :: rest =>
    let unit := if highFirst then first.toNat * 256 + second.toNat else second.toNat * 256 + first.toNat
    unit :: codeUnits highFirst rest
  | _ => []

/-- Put the characters of code units behind those that are done, in reverse, up
to a fault. A high surrogate makes a character with the unit after it, whatever
that is; a low one alone is a fault. -/
def ofCodeUnits : (done : List Char) → List Nat → Decoded
  | done, [] => ⟨done.reverse, true⟩
  | done, unit :: rest =>
    if unit < 0xD800 ∨ 0xE000 ≤ unit then ofCodeUnits (Char.ofNat unit :: done) rest
    else if 0xDC00 ≤ unit then ⟨done.reverse, false⟩
    else
      match rest with
      | [] => ⟨done.reverse, false⟩
      | low :: rest => ofCodeUnits (Char.ofNat (0x10000 + unit % 0x400 * 0x400 + low % 0x400) :: done) rest

def Encoding.detect : List UInt8 → Encoding × List UInt8
  | 0xEF :: 0xBB :: 0xBF :: rest => (.utf8, rest)
  | 0xFE :: 0xFF :: rest => (.utf16 true, rest)
  | 0xFF :: 0xFE :: rest => (.utf16 false, rest)
  | 0x00 :: rest => (.utf16 true, 0x00 :: rest)
  | first :: 0x00 :: rest => (.utf16 false, first :: 0x00 :: rest)
  | bytes => (.utf8, bytes)

/-- The encoding of a document whose declaration names one, given the encoding
that its first bytes tell; `none` where the two do not fit. -/
def Encoding.declared (detected : Encoding) (name : String) : Except EncodingFault (Option Encoding) :=
  let upper := String.ofList (name.toList.map Char.toUpper)
  let single := match detected with
    | .utf16 _ => false
    | _ => true
  let only := fun encoding => .ok (if single then some encoding else none)
  match upper with
  | "UTF-8" => only .utf8
  | "ISO-8859-1" => only .latin1
  | "US-ASCII" => only (.singleByte .ascii)
  | "UTF-16" => .ok (if single then none else some detected)
  | "UTF-16BE" => .ok (if detected = .utf16 true then some detected else none)
  | "UTF-16LE" => .ok (if detected = .utf16 false then some detected else none)
  | _ => (EncodingName.codePage name).map fun page => if single then page.map Encoding.singleByte else none

def Encoding.decode (encoding : Encoding) (bytes : List UInt8) : Decoded :=
  match encoding with
  | .utf8 =>
    let decoded := Text.decodeUtf8 ⟨bytes.toArray⟩
    ⟨decoded.chars, decoded.fault.isNone⟩
  | .utf16 highFirst =>
    let decoded := ofCodeUnits [] (codeUnits highFirst bytes)
    { decoded with isWhole := decoded.isWhole && bytes.length % 2 = 0 }
  | .latin1 => ⟨bytes.map fun byte => Char.ofNat byte.toNat, true⟩
  | .singleByte page =>
    let known := bytes.takeWhile fun byte => (page.char? byte).isSome
    ⟨known.filterMap page.char?, known.length = bytes.length⟩

end ClearNames.Xml
