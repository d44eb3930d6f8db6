import ClearNames.Text.Blank
import ClearNames.Text.Split

/-! Method signatures, array descriptors and the casing of name segments.

A signature is a return type, one space, a method name and a parenthesised
list of argument types; text after the closing parenthesis is ignored. No
delimiter belongs to the character class before it, so the reading is greedy
and the parts are determined by the text.
-/

set_option autoImplicit false

namespace ClearNames

/-- The ASCII letters and the four characters that fold to one of them. -/
def isSignatureLetter (char : Char) : Bool :=
  ('a' ≤ char && char ≤ 'z') || ('A' ≤ char && char ≤ 'Z') ||
    char == '\u0130' || char == '\u0131' || char == '\u017f' || char == '\u212a'

def isAsciiDigit (char : Char) : Bool := '0' ≤ char && char ≤ '9'

def isMethodNameChar (char : Char) : Bool :=
  isSignatureLetter char || isAsciiDigit char || char == '_' || char == '$'

def isReturnTypeChar (char : Char) : Bool :=
  isMethodNameChar char || char == '.' || char == '[' || char == ']'

def isArgumentListChar (char : Char) : Bool :=
  isReturnTypeChar char || char == ' ' || char == ','

/-- A method signature: its return type, its name and its argument types, each
type as the descriptor that was written. -/
structure Signature where
  returns : String
  name : String
  arguments : List String
  deriving DecidableEq, Repr

namespace Signature

/-- The pieces between commas, each after the first without its leading blanks. -/
def argumentPieces (list : List Char) : List (List Char) :=
  match Text.splitAt ',' list with
  | [] => []
  | first :: rest => first :: rest.map Text.trimStart

def argumentDescriptors : List Char → List (List Char)
  | [] => []
  | list => argumentPieces list

def parse? (text : String) : Option Signature := do
  let chars := text.toList
  let returns := chars.takeWhile isReturnTypeChar
  let afterReturns ← Text.after? [' '] (chars.dropWhile isReturnTypeChar)
  let name := afterReturns.takeWhile isMethodNameChar
  let afterName ← Text.after? ['('] (afterReturns.dropWhile isMethodNameChar)
  let list := afterName.takeWhile isArgumentListChar
  let _ ← Text.after? [')'] (afterName.dropWhile isArgumentListChar)
  if returns.isEmpty || name.isEmpty then none
  else some ⟨String.ofList returns, String.ofList name, (argumentDescriptors list).map String.ofList⟩

end Signature

structure Descriptor where
  base : String
  dimension : Nat
  deriving DecidableEq, Repr

def stripArrays : List Char → List Char × Nat
  | '[' :: ']' :: rest =>
    let (base, dimension) := stripArrays rest
    (base, dimension + 1)
  | char :: rest =>
    let (base, dimension) := stripArrays rest
    (char :: base, dimension)
  | [] => ([], 0)

def Descriptor.ofString (text : String) : Descriptor :=
  let (base, dimension) := stripArrays text.toList
  ⟨String.ofList base, dimension⟩

inductive SegmentKind where
  | package
  | javaClass
  deriving DecidableEq, Repr

/-- A segment that starts with an ASCII capital names a class, any other a package. -/
def SegmentKind.of (segment : String) : SegmentKind :=
  match segment.toList with
  | first :: _ => if 'A' ≤ first ∧ first ≤ 'Z' then .javaClass else .package
  | [] => .package

end ClearNames
