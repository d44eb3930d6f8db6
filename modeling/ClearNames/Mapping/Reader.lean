import ClearNames.Mapping.Line
import ClearNames.RenameLog.Reading

/-! Reading a mapping into a name tree.

A class line records the last segment of the obfuscated path as the
obfuscation of the clear path. A method line records the obfuscation of a
method of the class before it; where another method with the same arguments
holds it already, the line is passed over. Fields are not kept.
-/

set_option autoImplicit false

namespace ClearNames.Mapping

structure Progress where
  current : Option Scope
  classes : Nat
  methods : Nat
  duplicates : Nat
  deriving DecidableEq, Repr

def Progress.start : Progress := ⟨none, 0, 0, 0⟩

def skippedMethodNote (tree : NameTree) (scope : Scope) (line : List Char) : Record :=
  .of .debug .mapping ("Skipping method of non-class " ++ tree.describeScope scope ++ ": " ++
    String.ofList (Text.trim line))

def readMethod (progress : Progress) (owner : ClassId) (signature obfuscation : String) :
    Reading Progress := do
  match ← Reading.grow (NameTree.registerMethod owner signature obfuscation) with
  | .registered _ => pure { progress with methods := progress.methods + 1 }
  | .duplicate holder =>
    let state ← get
    Reading.note (.of .debug .nameTree (state.tree.duplicateNote owner signature obfuscation holder))
    pure { progress with duplicates := progress.duplicates + 1 }

def readLine (progress : Progress) (number : Nat) (line : List Char) : Reading Progress := do
  if MappingLine.isSkipped line then return progress
  let misplaced := fun problem => RenameLogFault.line problem number (String.ofList line)
  match MappingLine.parse? line, progress.current with
  | none, _ => throw (misplaced .unknownShape)
  | some (.javaClass name obfuscated), _ =>
    let scope ← Reading.grow (NameTree.aliasScope name (NameTree.lastSegment obfuscated))
    pure { progress with current := some scope, classes := progress.classes + 1 }
  | some (.field ..), none => throw (misplaced .fieldOutsideClass)
  | some (.field ..), some _ => pure progress
  | some (.method ..), none => throw (misplaced .methodOutsideClass)
  | some (.method ..), some (.package id) =>
    let state ← get
    Reading.note (skippedMethodNote state.tree (.package id) line)
    pure progress
  | some (.method _ signature obfuscation), some (.javaClass owner) =>
    readMethod progress owner signature obfuscation

def withoutLineEnd (line : List Char) : List Char :=
  Text.dropEndWhile (fun char => char == '\r' || char == '\n') line

def readFrom (progress : Progress) (number : Nat) : List (List Char) → Reading Progress
  | [] => pure progress
  | line :: rest => do
    let progress ← readLine progress number (withoutLineEnd line)
    readFrom progress (number + 1) rest

def summary (progress : Progress) : Record :=
  .of .info .mapping ("Parsed ProGuard mapping: " ++ toString progress.classes ++ " classes, " ++
    toString progress.methods ++ " methods (" ++ toString progress.duplicates ++
    " duplicate obfuscations ignored)")

def readLines (lines : List (List Char)) : Reading Unit := do
  let progress ← readFrom .start 1 lines
  Reading.note (summary progress)

def readText (text : String) : Reading Unit := readLines (Text.lines text.toList)

/-- The lines that a text surely holds when more may follow it: those whose end is seen. -/
def completeLines (text : List Char) : List (List Char) :=
  let seen := if text.getLast? == some '\r' then text.dropLast else text
  (Text.splitAt '\n' (Text.unifyLineEnds seen)).dropLast

/-- Read a mapping from the bytes of a file, whose lines may end in carriage
returns too. A character left unfinished at the end is found after the lines
before it are read, and is counted from itself; any other fault comes first. -/
def readBytes (path : LooseText) (bytes : ByteArray) : Reading Unit := do
  let decoded := Text.decodeUtf8 bytes
  match decoded.fault with
  | none => readLines (Text.lines (Text.unifyLineEnds decoded.chars))
  | some fault =>
    if fault.reason = .unfinished then
      let _ ← readFrom .start 1 (completeLines decoded.chars)
      throw (.notUtf8 path { fault with position := 0 })
    else throw (.notUtf8 path fault)

end ClearNames.Mapping
