import ClearNames.Journal.Record
import ClearNames.Json.Printer
import ClearNames.Json.Reader
import ClearNames.NameTree.Document
import ClearNames.Payload.Base64
import ClearNames.Payload.Zlib
import ClearNames.Text.Utf8

/-! The form in which a name tree is uploaded: the compact document, compressed,
as Base64 text. -/

set_option autoImplicit false

namespace ClearNames.Payload

structure Encoded where
  document : String
  compressed : List UInt8
  text : String

def encode (tree : NameTree) : Encoded :=
  let document := tree.document.compact
  let compressed := Zlib.compress document.toUTF8.toList
  ⟨document, compressed, String.ofList (Base64.encode compressed)⟩

def Encoded.record (encoded : Encoded) : Record :=
  .of .debug .payload ("Serialized namespace: " ++ toString encoded.document.length ++ " bytes JSON, " ++
    toString encoded.compressed.length ++ " bytes compressed")

inductive Fault where
  | notAscii
  | badBase64
  | badCompression
  | notUtf8 (fault : Text.Utf8Fault)
  | badDocument (fault : Json.ReadFault)
  deriving DecidableEq, Repr

def decode (text : String) : Except Fault Json := do
  let chars := text.toList
  if chars.any (0x7F < ·.toNat) then throw .notAscii
  match Base64.decode? chars with
  | none => throw .badBase64
  | some compressed =>
    match Zlib.decompress? compressed with
    | none => throw .badCompression
    | some bytes =>
      let decoded := Text.decodeUtf8 ⟨bytes.toArray⟩
      match decoded.fault with
      | some fault => throw (.notUtf8 fault)
      | none => (Json.read decoded.chars).mapError .badDocument

end ClearNames.Payload
