import ClearNames.Text.Digits
import ClearNames.Text.Split

/-! The lines of a mapping as ProGuard and R8 write it.

    com.example.Foo -> com.example.a:
        int count -> b
        12:14:void bar(int[],java.lang.String) -> a

A class line opens a class; field and method lines, indented by four spaces,
belong to the class line before them. No part of a line contains the delimiter
that ends it, so a line is read in one way only.
-/

set_option autoImplicit false

namespace ClearNames

inductive MappingLine where
  | javaClass (name obfuscated : String)
  | field (type name obfuscation : String)
  | method (range signature obfuscation : String)
  deriving DecidableEq, Repr

namespace MappingLine

def isLower (char : Char) : Bool := 'a' ≤ char && char ≤ 'z'

def isIdentifierChar (char : Char) : Bool :=
  isLower char || ('A' ≤ char && char ≤ 'Z') || ('0' ≤ char && char ≤ '9') || char == '_' || char == '$'

def isIdentifier (text : List Char) : Bool := !text.isEmpty && text.all isIdentifierChar

def isPackageSegment : List Char → Bool
  | [] => false
  | first :: rest =>
    isLower first && rest.all fun char => isLower char || ('0' ≤ char && char ≤ '9') || char == '_'

/-- An identifier, after any number of package segments with a dot behind each. -/
def isClassPath (text : List Char) : Bool :=
  match (Text.splitAt '.' text).reverse with
  | [] => false
  | last :: packages => isIdentifier last && packages.all isPackageSegment

def isArraySuffix : List Char → Bool
  | [] => true
  | '[' :: ']' :: rest => isArraySuffix rest
  | _ => false

def isTypeName (text : List Char) : Bool :=
  isClassPath (text.takeWhile (· != '[')) && isArraySuffix (text.dropWhile (· != '['))

/-- A type name after at most one blank. -/
def isLaterArgument : List Char → Bool
  | [] => false
  | first :: rest => if Text.isBlank first then isTypeName rest else isTypeName (first :: rest)

/-- Type names with commas between them, a blank allowed after each comma; or nothing. -/
def isArgumentList (text : List Char) : Bool :=
  text.isEmpty ||
    match Text.splitAt ',' text with
    | [] => false
    | first :: rest => isTypeName first && rest.all isLaterArgument

def arrow : List Char := [' ', '-', '>', ' ']

def indentation : List Char := [' ', ' ', ' ', ' ']

def parseClass? (line : List Char) : Option MappingLine := do
  let name := line.takeWhile (· != ' ')
  let target ← Text.after? arrow (line.dropWhile (· != ' '))
  let obfuscated := target.dropLast
  if isClassPath name && isClassPath obfuscated && target.getLast? == some ':' then
    some (.javaClass (String.ofList name) (String.ofList obfuscated))
  else none

/-- Digits and a colon, twice, at the front of a text; or nothing. -/
def takeRange (text : List Char) : List Char × List Char :=
  let taken := do
    let first := text.takeWhile Text.isDecimalDigit
    let rest ← Text.after? [':'] (text.dropWhile Text.isDecimalDigit)
    let second := rest.takeWhile Text.isDecimalDigit
    let rest ← Text.after? [':'] (rest.dropWhile Text.isDecimalDigit)
    if first.isEmpty || second.isEmpty then none
    else some (first ++ ':' :: second ++ [':'], rest)
  taken.getD ([], text)

def parseField? (line : List Char) : Option MappingLine := do
  let type := line.takeWhile (· != ' ')
  let rest ← Text.after? [' '] (line.dropWhile (· != ' '))
  let name := rest.takeWhile (· != ' ')
  let obfuscation ← Text.after? arrow (rest.dropWhile (· != ' '))
  if isTypeName type && isIdentifier name && isIdentifier obfuscation then
    some (.field (String.ofList type) (String.ofList name) (String.ofList obfuscation))
  else none

def parseMethod? (line : List Char) : Option MappingLine := do
  let (range, line) := takeRange line
  let type := line.takeWhile (· != ' ')
  let rest ← Text.after? [' '] (line.dropWhile (· != ' '))
  let name := rest.takeWhile (· != '(')
  let rest ← Text.after? ['('] (rest.dropWhile (· != '('))
  let list := rest.takeWhile (· != ')')
  let rest ← Text.after? [')'] (rest.dropWhile (· != ')'))
  let obfuscation ← Text.after? arrow rest
  if isTypeName type && isIdentifier name && isArgumentList list && isIdentifier obfuscation then
    some (.method (String.ofList range)
      (String.ofList (type ++ ' ' :: name ++ '(' :: list ++ [')'])) (String.ofList obfuscation))
  else none

def parseMember? (line : List Char) : Option MappingLine := do
  let line ← Text.after? indentation line
  (parseField? line).orElse fun _ => parseMethod? line

def parse? (line : List Char) : Option MappingLine := (parseClass? line).orElse fun _ => parseMember? line

def print : MappingLine → List Char
  | .javaClass name obfuscated => name.toList ++ arrow ++ obfuscated.toList ++ [':']
  | .field type name obfuscation =>
    indentation ++ type.toList ++ ' ' :: name.toList ++ arrow ++ obfuscation.toList
  | .method range signature obfuscation =>
    indentation ++ range.toList ++ signature.toList ++ arrow ++ obfuscation.toList

/-- Lines that say nothing: blank ones, and those whose first mark is a `#`. -/
def isSkipped (line : List Char) : Bool :=
  match Text.trimStart line with
  | [] => true
  | first :: _ => first == '#'

end MappingLine

end ClearNames
