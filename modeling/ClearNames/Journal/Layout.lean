import ClearNames.Journal.Directive
import ClearNames.Journal.Record
import ClearNames.Text.Alphanumeric
import ClearNames.Text.Digits
import ClearNames.Text.Split

/-! The layout of log lines.

A layout is text with directives, each begun by a percent sign and the name of
a field of the record in parentheses. Two percent signs stand for one. A layout
without any field is refused. One with a directive that names no field, that is
unfinished, or that cannot show what the field holds, has no line.
-/

set_option autoImplicit false

namespace ClearNames

inductive LayoutPiece where
  | char (char : Char)
  | directive (field : String) (directive : Directive)
  deriving DecidableEq, Repr

structure Layout where
  pieces : Option (List LayoutPiece)
  deriving DecidableEq, Repr

namespace Layout

/-! ## Whether a layout has a field -/

def isFlag (char : Char) : Bool := ['#', '0', '+', '-', ' '].contains char

def isFieldNameChar (char : Char) : Bool := Text.isAlphanumeric char || char == '_'

/-- The letters of directives in either case; the dotted and the dotless I and
the long S count as variants of a letter. -/
def isDirectiveLetter (char : Char) : Bool :=
  "diouxefgcrsa%".toList.contains char.toLower || ['İ', 'ı', 'ſ'].contains char

def skipExtent? : List Char → Option (List Char)
  | '*' :: rest => some rest
  | text => if text.head?.any Text.isDecimalDigit then some (text.dropWhile Text.isDecimalDigit) else none

def beginsField : List Char → Bool
  | '(' :: text =>
    match text.takeWhile isFieldNameChar, text.dropWhile isFieldNameChar with
    | _ :: _, ')' :: rest =>
      let rest := rest.dropWhile isFlag
      let rest := (skipExtent? rest).getD rest
      let rest := match rest with
        | '.' :: more => (skipExtent? more).getD rest
        | _ => rest
      rest.head?.any isDirectiveLetter
    | _, _ => false
  | _ => false

def hasField : List Char → Bool
  | [] => false
  | char :: rest => (char == '%' && beginsField rest) || hasField rest

/-! ## Reading a layout -/

def takeNumber (text : List Char) : Nat × List Char :=
  ((text.takeWhile Char.isDigit).foldl (fun number digit => 10 * number + (digit.toNat - '0'.toNat)) 0,
    text.dropWhile Char.isDigit)

def takeName : (depth : Nat) → List Char → Option (List Char × List Char)
  | _, [] => none
  | 0, ')' :: rest => some ([], rest)
  | depth, char :: rest =>
    let depth := if char = '(' then depth + 1 else if char = ')' then depth - 1 else depth
    (takeName depth rest).map fun (name, rest) => (char :: name, rest)

def takeExtent (text : List Char) : Option Nat × List Char :=
  if text.head?.any Char.isDigit then
    let (count, rest) := takeNumber text
    (some count, rest)
  else (none, text)

/-- The directive at the front of a text that follows the name of a field, and
the rest. A letter for the size of a number does not count. -/
def takeDirective (text : List Char) : Option (Directive × List Char) :=
  let marks := text.takeWhile isFlag
  let (width, rest) := takeExtent (text.dropWhile isFlag)
  let (precision, rest) : Option Nat × List Char := match rest with
    | '.' :: rest =>
      let (precision, rest) := takeExtent rest
      (some (precision.getD 0), rest)
    | _ => (none, rest)
  let rest := match rest with
    | 'h' :: rest | 'l' :: rest | 'L' :: rest => rest
    | _ => rest
  match rest with
  | [] => none
  | letter :: rest =>
    let flags : DirectiveFlags :=
      ⟨marks.contains '-', marks.contains '+', marks.contains ' ', marks.contains '#', marks.contains '0'⟩
    let isModest := fun (extent : Option Nat) => extent.all (· ≤ Directive.greatestExtent)
    if isModest width && isModest precision then some (⟨flags, width.getD 0, precision, letter⟩, rest) else none

def readPieces : (fuel : Nat) → List Char → Option (List LayoutPiece)
  | 0, _ | _, [] => some []
  | fuel + 1, '%' :: '%' :: rest => do return .char '%' :: (← readPieces fuel rest)
  | fuel + 1, '%' :: '(' :: rest => do
    let (name, rest) ← takeName 0 rest
    let (directive, rest) ← takeDirective rest
    return .directive (String.ofList name) directive :: (← readPieces fuel rest)
  | _ + 1, '%' :: _ => none
  | fuel + 1, char :: rest => do return .char char :: (← readPieces fuel rest)

def messageOnly : String := "%(message)s"

def ofString? (text : String) : Option Layout :=
  let text := if text.isEmpty then messageOnly else text
  if hasField text.toList then some ⟨readPieces text.toList.length text.toList⟩ else none

/-! ## Lines -/

def fieldValue? (time : Option String) (record : Record) : String → Option FieldValue
  | "asctime" => time.map fun time => .text time
  | "levelname" => some (.text record.severity.name)
  | "levelno" => some (.number record.severity.rank)
  | "name" => some (.text record.channelName)
  | "message" | "msg" => some (.text record.message)
  | "processName" => some (.text "MainProcess")
  | "threadName" => some (.text "MainThread")
  | "args" | "exc_info" | "exc_text" | "stack_info" => some .nothing
  | _ => none

def pieceText? (time : Option String) (record : Record) : LayoutPiece → Option (List CodePoint)
  | .char char => some [.char char]
  | .directive name directive => do directive.show? (← fieldValue? time record name)

def line? (layout : Layout) (time : Option String) (record : Record) : Option LooseText := do
  let text ← (← layout.pieces).mapM (pieceText? time record)
  return ⟨text.flatten ++ [.char '\n']⟩

end Layout

end ClearNames
