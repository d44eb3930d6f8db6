import ClearNames.Payload.Basic
import ClearNames.Proofs.Json.Reading
import ClearNames.Proofs.Payload.Base64
import ClearNames.Proofs.Payload.Zlib
import ClearNames.Proofs.Text.Utf8

/-! An uploaded tree is decoded to its document.

The document is a plain value, so each layer of the payload takes back what it
was given: Base64 the packed bytes, zlib the bytes of the text, UTF-8 its
characters, and the reader of JSON the value.
-/

set_option autoImplicit false

namespace ClearNames

namespace NameTree

theorem methodDocument_plain (tree : NameTree) (id : MethodId) : (tree.methodDocument id).Plain := by
  refine .object (by simp) (by simp [OrderedTable.keys]) ?_
  simp only [List.forall_mem_cons]
  refine ⟨.string _, .ofOption _, .string _, .array ?_, List.forall_mem_nil _⟩
  simp only [List.forall_mem_map]
  exact fun type known => .string _

theorem classDocument_plain (tree : NameTree) (id : ClassId) {inner : List Json} (each : ∀ item ∈ inner, item.Plain) :
    (tree.classDocument id inner).Plain := by
  refine .object (by simp) (by simp [OrderedTable.keys]) ?_
  simp only [List.forall_mem_cons]
  refine ⟨.string _, .ofOption _, .ofOption _, .array ?_, .array each, List.forall_mem_nil _⟩
  simp only [List.forall_mem_map]
  exact fun id known => tree.methodDocument_plain id

theorem packageDocument_plain (tree : NameTree) (id : PackageId) {children classes : List Json}
    (inner : ∀ item ∈ children, item.Plain) (owned : ∀ item ∈ classes, item.Plain) :
    (tree.packageDocument id children classes).Plain := by
  refine .object (by simp) (by simp [OrderedTable.keys]) ?_
  simp only [List.forall_mem_cons]
  exact ⟨.string _, .ofOption _, .array inner, .array owned, List.forall_mem_nil _⟩

end NameTree

section
variable (tree : NameTree)

mutual

theorem ClassBranch.document_plain : (branch : ClassBranch) → (branch.document tree).Plain
  | .node id inner => tree.classDocument_plain id (ClassBranch.documents_plain inner)

theorem ClassBranch.documents_plain : (branches : List ClassBranch) →
    ∀ item ∈ ClassBranch.documents tree branches, item.Plain
  | [] => List.forall_mem_nil _
  | branch :: rest => List.forall_mem_cons.mpr ⟨branch.document_plain, ClassBranch.documents_plain rest⟩

end

mutual

theorem PackageBranch.document_plain : (branch : PackageBranch) → (branch.document tree).Plain
  | .node id classes children =>
    tree.packageDocument_plain id (PackageBranch.documents_plain children) (ClassBranch.documents_plain tree classes)

theorem PackageBranch.documents_plain : (branches : List PackageBranch) →
    ∀ item ∈ PackageBranch.documents tree branches, item.Plain
  | [] => List.forall_mem_nil _
  | branch :: rest => List.forall_mem_cons.mpr ⟨branch.document_plain, PackageBranch.documents_plain rest⟩

end

theorem NameTree.document_plain : tree.document.Plain := by
  refine .object (by simp) (by simp [OrderedTable.keys]) ?_
  simp only [List.forall_mem_cons]
  exact ⟨.array (PackageBranch.documents_plain tree _), List.forall_mem_nil _⟩

end

namespace Payload

theorem decode_of_decompress {value : Json} (plain : value.Plain) {packed : List UInt8}
    (unpacked : Zlib.decompress? packed = some value.compact.toUTF8.toList) :
    decode (String.ofList (Base64.encode packed)) = .ok value := by
  have ascii : ¬ (Base64.encode packed).any (0x7F < ·.toNat) := by
    simp only [List.any_eq_true, decide_eq_true_eq, not_exists, not_and, Nat.not_lt]
    exact fun char known => Nat.le_of_lt_succ (Base64.ascii_encode packed char known)
  have bytes := Text.mk_toList value.compact.toUTF8
  have chars : Text.decodeUtf8 value.compact.toUTF8 = ⟨value.compactChars, none⟩ :=
    Text.decodeUtf8_toUTF8 value.compactChars
  rw [decode]
  simp only [String.toList_ofList]
  rw [if_neg ascii, Base64.decode?_encode]
  simp only [unpacked, bytes, chars, plain.read_compactChars]
  rfl

theorem decode_encode (tree : NameTree) : decode (encode tree).text = .ok tree.document :=
  decode_of_decompress tree.document_plain (Zlib.decompress?_compress _)

/-- The upload is lossless and its document is pure ASCII, for every way of packing that unpacking takes back. -/
theorem decode_packed_document (tree : NameTree) :
    decode (encode tree).text = .ok tree.document ∧
      (∀ char ∈ (encode tree).document.toList, char.toNat < 0x80) ∧
      ∀ pack : List UInt8 → List UInt8, (∀ bytes, Zlib.decompress? (pack bytes) = some bytes) →
        decode (String.ofList (Base64.encode (pack (encode tree).document.toUTF8.toList))) = .ok tree.document := by
  refine ⟨decode_encode tree, ?_, fun pack undone => decode_of_decompress tree.document_plain (undone _)⟩
  have chars : (encode tree).document.toList = tree.document.compactChars := String.toList_ofList
  rw [chars]
  exact tree.document_plain.ascii_compactChars

/-- A class whose names take every kind of escape, in a package without an alias. -/
def escapedTree : NameTree where
  packages := #[⟨"a\"b\\c", [], none, none, [], [("\x7f\u00e9", ⟨0⟩)]⟩]
  classes := #[⟨"\x7f\u00e9", [], .package ⟨0⟩, ⟨0⟩, some "\n\x01", some "𝄞.java", [], []⟩]
  methods := #[]
  roots := [("a\"b\\c", ⟨0⟩)]

theorem decode_packed_document_escaped :
    (∀ bytes, Zlib.decompress? (Zlib.compress bytes) = some bytes) ∧
      decode (String.ofList (Base64.encode (Zlib.compress (encode escapedTree).document.toUTF8.toList))) =
        .ok (.object [("packages", .array [.object [
          ("name", .string "a\"b\\c"), ("obfuscation", .null), ("packages", .array []),
          ("classes", .array [.object [
            ("name", .string "\x7f\u00e9"), ("obfuscation", .string "\n\x01"), ("path", .string "𝄞.java"),
            ("methods", .array []), ("classes", .array [])]])]])]) :=
  ⟨Zlib.decompress?_compress, (decode_packed_document escapedTree).2.2 Zlib.compress Zlib.decompress?_compress⟩

end Payload

end ClearNames
