import ClearNames.Journal.Figure
import ClearNames.Text.Loose

/-! How a value is shown in a log line.

A directive is flags, a width, a precision and a letter. The letters `d`, `i`
and `u` show a whole number in base ten, `o`, `x` and `X` in other bases, and
the letters from `e` to `g` in either case as a decimal. The letters `s`, `r`
and `a` show any value: plain, quoted, or quoted in ASCII; for them the
precision is the greatest length. The letter `c` shows one character.
-/

set_option autoImplicit false

namespace ClearNames

inductive FieldValue where
  | text (text : LooseText)
  | number (number : Int)
  | nothing
  deriving DecidableEq, Repr

structure DirectiveFlags where
  leftAligned : Bool := false
  plus : Bool := false
  blank : Bool := false
  /-- Whether the base is told, and a point kept. -/
  alternate : Bool := false
  zeros : Bool := false
  deriving DecidableEq, Repr

structure Directive where
  flags : DirectiveFlags
  width : Nat
  precision : Option Nat
  letter : Char
  deriving DecidableEq, Repr

namespace FieldValue

def plain : FieldValue → LooseText
  | .text content => content
  | .number value => toString value
  | .nothing => "None"

def quoted : FieldValue → String
  | .text content => content.quoted
  | .number value => toString value
  | .nothing => "None"

end FieldValue

def asciiChar (char : Char) : List Char :=
  if char.toNat < 0x80 then [char] else Text.codeEscape char

namespace Directive

def greatestExtent : Nat := 2147483647

def figure? (letter : Char) (alternate : Bool) (precision : Option Nat) (number : Int) : Option Figure :=
  let inBase := fun base (mark : List Char) =>
    Figure.inBase base (if alternate then mark else []) (precision.getD 0) number
  let decimal := fun (show? : Nat → List Char) =>
    (Figure.nearest? number).map fun magnitude => { negative := number < 0, digits := show? magnitude : Figure }
  let places := precision.getD 6
  match letter with
  | 'd' | 'i' | 'u' => some (Figure.inBase 10 [] (precision.getD 0) number)
  | 'o' => some (inBase 8 ['0', 'o'])
  | 'x' => some (inBase 16 ['0', 'x'])
  | 'X' =>
    let figure := inBase 16 ['0', 'X']
    some { figure with digits := figure.digits.map Figure.upper }
  | 'f' | 'F' => decimal (Figure.fixed alternate places)
  | 'e' => decimal (Figure.scientific alternate places)
  | 'E' => decimal fun magnitude => (Figure.scientific alternate places magnitude).map Figure.upper
  | 'g' => decimal (Figure.general alternate places)
  | 'G' => decimal fun magnitude => (Figure.general alternate places magnitude).map Figure.upper
  | _ => none

def aligned (flags : DirectiveFlags) (width : Nat) (text : List CodePoint) : List CodePoint :=
  let blanks := List.replicate (width - text.length) (.char ' ')
  if flags.leftAligned then text ++ blanks else blanks ++ text

def laidOut (flags : DirectiveFlags) (width : Nat) (figure : Figure) : List CodePoint :=
  let sign := if figure.negative then ['-'] else if flags.plus then ['+'] else if flags.blank then [' '] else []
  let front := sign ++ figure.mark
  if flags.zeros && !flags.leftAligned then
    (front ++ List.replicate (width - front.length - figure.digits.length) '0' ++ figure.digits).map .char
  else aligned flags width ((front ++ figure.digits).map .char)

def character? : FieldValue → Option CodePoint
  | .number number => if 0 ≤ number ∧ number < 0x110000 then some (.ofCode number.toNat) else none
  | .text text =>
    match text.points with
    | [point] => some point
    | _ => none
  | .nothing => none

/-- A value under a directive; none where the letter cannot show the value. -/
def show? (directive : Directive) (value : FieldValue) : Option (List CodePoint) :=
  let flags := directive.flags
  let width := directive.width
  let cut := fun (text : List CodePoint) => aligned flags width (directive.precision.elim text text.take)
  match directive.letter, value with
  | 's', _ => some (cut value.plain.points)
  | 'r', _ => some (cut (value.quoted.toList.map .char))
  | 'a', _ => some (cut ((value.quoted.toList.flatMap asciiChar).map .char))
  | 'c', _ => (character? value).map fun point => aligned flags width [point]
  | letter, .number number =>
    (figure? letter flags.alternate directive.precision number).map (laidOut flags width)
  | _, _ => none

end Directive

end ClearNames
