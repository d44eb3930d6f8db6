import ClearNames.OrderedTable
import ClearNames.Text.Hex
import ClearNames.Text.Split
import ClearNames.Xml.Chars

/-! The small parts of XML markup: names, literals, comments, instructions and
character references. Each is read from the front of a text, and the rest is
returned with it. -/

set_option autoImplicit false

namespace ClearNames.Xml

def skipSpace (text : List Char) : List Char := text.dropWhile isSpace

def afterSpace? : List Char → Option (List Char)
  | [] => none
  | first :: rest => if isSpace first then some (skipSpace rest) else none

def takeName? (alphabet : Alphabet) : List Char → Option (String × List Char)
  | [] => none
  | first :: rest =>
    if alphabet.isStart first then
      some (String.ofList (first :: rest.takeWhile alphabet.contains), rest.dropWhile alphabet.contains)
    else none

/-- A name with at most one colon, which neither begins nor ends it. -/
structure QualifiedName where
  qualifier : Option String
  base : String
  deriving DecidableEq, Repr

def QualifiedName.text (name : QualifiedName) : String :=
  match name.qualifier with
  | none => name.base
  | some qualifier => qualifier ++ ":" ++ name.base

def takeQualifiedName? (alphabet : Alphabet) (text : List Char) : Option (QualifiedName × List Char) := do
  let (first, rest) ← takeName? alphabet text
  match rest with
  | ':' :: rest =>
    let (base, rest) ← takeName? alphabet rest
    return (⟨some first, base⟩, rest)
  | _ => return (⟨none, first⟩, rest)

def takeDeclaredName? (alphabet : Alphabet) (text : List Char) : Option (QualifiedName × List Char) := do
  let (first, rest) ← takeName? alphabet text
  match rest with
  | ':' :: rest =>
    match rest.takeWhile alphabet.contains, rest.dropWhile alphabet.contains with
    | [], _ | _, ':' :: _ => none
    | base, rest => return (⟨some first, String.ofList base⟩, rest)
  | _ => return (⟨none, first⟩, rest)

def takeLiteral? : List Char → Option (List Char × List Char)
  | [] => none
  | mark :: rest => if mark = '"' ∨ mark = '\'' then Text.cut? mark rest else none

def takeUntil? (mark : List Char) : (done : List Char) → List Char → Option (List Char × List Char)
  | done, text =>
    match Text.after? mark text, text with
    | some rest, _ => some (done.reverse, rest)
    | none, [] => none
    | none, char :: text => takeUntil? mark (char :: done) text
termination_by _ text => text.length

/-- The text after a comment whose opening mark is read already; two hyphens only end it. -/
def afterComment? (text : List Char) : Option (List Char) := do
  let (_, rest) ← takeUntil? ['-', '-'] [] text
  Text.after? ['>'] rest

/-- The text after an instruction whose opening mark is read already; its
target must not be `xml` in any case. -/
def afterInstruction? (alphabet : Alphabet) (text : List Char) : Option (List Char) := do
  let (target, rest) ← takeName? alphabet text
  if target.toList.map Char.toLower = ['x', 'm', 'l'] then none
  match Text.after? ['?', '>'] rest with
  | some rest => return rest
  | none =>
    let rest ← afterSpace? rest
    let (_, rest) ← takeUntil? ['?', '>'] [] rest
    return rest

def readDecimal? (digits : List Char) : Option Nat :=
  if digits.isEmpty || !digits.all (fun char => '0' ≤ char && char ≤ '9') then none
  else some (digits.foldl (fun total digit => 10 * total + (digit.toNat - 0x30)) 0)

def charOfCode? (code : Nat) : Option Char :=
  if code < 0xD800 ∨ (0xE000 ≤ code ∧ code < 0x110000) then
    let char := Char.ofNat code
    if isDocumentChar char then some char else none
  else none

inductive Reference where
  | char (char : Char)
  | entity (name : String)
  deriving DecidableEq, Repr

def takeReference? (alphabet : Alphabet) : List Char → Option (Reference × List Char)
  | '#' :: 'x' :: rest => do
    let (digits, rest) ← Text.cut? ';' rest
    if digits.isEmpty then none
    let char ← charOfCode? (← Text.readHex? digits)
    return (.char char, rest)
  | '#' :: rest => do
    let (digits, rest) ← Text.cut? ';' rest
    let char ← charOfCode? (← readDecimal? digits)
    return (.char char, rest)
  | text => do
    let (name, rest) ← takeName? alphabet text
    let rest ← Text.after? [';'] rest
    return (.entity name, rest)

def predefined? (name : String) : Option Char :=
  match name with
  | "lt" => some '<'
  | "gt" => some '>'
  | "amp" => some '&'
  | "apos" => some '\''
  | "quot" => some '"'
  | _ => none

end ClearNames.Xml
