import ClearNames.Journal.Moment

/-! Patterns that the parts of a moment are put into.

A part is a percent sign, marks for its padding and its case, a width, one of
the letters `E` and `O` if wanted, and a letter. A number is filled up with
zeros, or with blanks after the mark `_`, or not at all after the mark `-`. The
mark `^` stands for upper case, and `#` for the case that is not usual. What is
no part is kept as it is.
-/

set_option autoImplicit false

namespace ClearNames

structure PartStyle where
  padding : Option Char := none
  upper : Bool := false
  swapped : Bool := false
  width : Nat := 0
  deriving DecidableEq, Repr

inductive MomentPart where
  /-- A number, with the digits that it has at least, and whether it is filled up with blanks. -/
  | number (value digits : Nat) (withBlanks : Bool)
  | name (text : String) (swap : Char → Char)
  | fixed (text : String)
  | zone
  | offset
  | pattern (text : String)
  deriving Inhabited

namespace Moment

def weekdayNames : List String := ["Sunday", "Monday", "Tuesday", "Wednesday", "Thursday", "Friday", "Saturday"]

def monthNames : List String := [
  "January", "February", "March", "April", "May", "June", "July", "August", "September", "October",
  "November", "December"]

def weekdayName (moment : Moment) : String := weekdayNames.getD moment.weekday ""

def monthName (moment : Moment) : String := monthNames.getD (moment.month - 1) ""

def short (name : String) : String := String.ofList (name.toList.take 3)

def clockHour (moment : Moment) : Nat := (moment.hour + 11) % 12 + 1

def halfDay (moment : Moment) : String := if moment.hour < 12 then "AM" else "PM"

def part? (moment : Moment) (letter : Char) : Option MomentPart :=
  let two := fun value => some (.number value 2 false)
  let one := fun value => some (.number value 1 false)
  let blanks := fun value => some (.number value 2 true)
  let name := fun text => some (.name text Char.toUpper)
  let fixed := fun text => some (.fixed text)
  let pattern := fun text => some (.pattern text)
  match letter with
  | 'a' => name (short moment.weekdayName)
  | 'A' => name moment.weekdayName
  | 'b' | 'h' => name (short moment.monthName)
  | 'B' => name moment.monthName
  | 'c' => pattern "%a %b %e %H:%M:%S %Y"
  | 'C' => one (moment.year / 100)
  | 'd' => two moment.day
  | 'D' | 'x' => pattern "%m/%d/%y"
  | 'e' => blanks moment.day
  | 'F' => pattern "%Y-%m-%d"
  | 'g' => two (moment.week.1 % 100)
  | 'G' => one moment.week.1
  | 'H' => two moment.hour
  | 'I' => two moment.clockHour
  | 'j' => some (.number (moment.yearDay + 1) 3 false)
  | 'k' => blanks moment.hour
  | 'l' => blanks moment.clockHour
  | 'm' => two moment.month
  | 'M' => two moment.minute
  | 'n' => fixed "\n"
  | 'p' => some (.name moment.halfDay Char.toLower)
  | 'P' => fixed (moment.halfDay.map Char.toLower)
  | 'r' => pattern "%I:%M:%S %p"
  | 'R' => pattern "%H:%M"
  | 's' => fixed (toString moment.unixSeconds)
  | 'S' => two moment.second
  | 't' => fixed "\t"
  | 'T' | 'X' => pattern "%H:%M:%S"
  | 'u' => one ((moment.weekday + 6) % 7 + 1)
  | 'U' => two ((moment.yearDay + 7 - moment.weekday) / 7)
  | 'V' => two moment.week.2
  | 'w' => one moment.weekday
  | 'W' => two ((moment.yearDay + 7 - (moment.weekday + 6) % 7) / 7)
  | 'y' => two (moment.year % 100)
  | 'Y' => one moment.year
  | 'z' => some .offset
  | 'Z' => some .zone
  | '%' => fixed "%"
  | _ => none

def allows (modifier letter : Char) : Bool :=
  if "aADF".toList.contains letter then false
  else if modifier = 'E' then !"bhBdeHIkljMmSUVgGWw".toList.contains letter
  else !"cxXY".toList.contains letter

def takeMarks (style : PartStyle) : List Char → PartStyle × List Char
  | '^' :: rest => takeMarks { style with upper := true } rest
  | '#' :: rest => takeMarks { style with swapped := true } rest
  | '_' :: rest => takeMarks { style with padding := some '_' } rest
  | '-' :: rest => takeMarks { style with padding := some '-' } rest
  | '0' :: rest => takeMarks { style with padding := some '0' } rest
  | rest => (style, rest)

def filledUp (style : PartStyle) (text : List Char) : List Char :=
  List.replicate (style.width - text.length) (if style.padding = some '0' then '0' else ' ') ++ text

def numberText (style : PartStyle) (value least : Nat) (withBlanks : Bool) : List Char :=
  let digits := Nat.toDigits 10 value
  let fill := fun filler => List.replicate (max least style.width - digits.length) filler ++ digits
  match style.padding, withBlanks with
  | some '-', _ => filledUp style digits
  | some '_', _ => fill ' '
  | none, true => fill ' '
  | _, _ => fill '0'

/-- Put the parts of a moment into a pattern, to a depth of patterns in patterns. -/
def fill (moment : Moment) : (depth fuel : Nat) → List Char → List Char
  | 0, _, text | _ + 1, 0, text => text
  | _ + 1, _ + 1, [] => []
  | depth + 1, fuel + 1, '%' :: text =>
    let (style, rest) := takeMarks {} text
    let width := (rest.takeWhile Char.isDigit).foldl (fun total digit => 10 * total + (digit.toNat - '0'.toNat)) 0
    let style := { style with width }
    let rest := rest.dropWhile Char.isDigit
    let (modifier, rest) : Option Char × List Char := match rest with
      | 'E' :: rest => (some 'E', rest)
      | 'O' :: rest => (some 'O', rest)
      | _ => (none, rest)
    let cased := fun (swap : Char → Char) (text : List Char) =>
      if style.swapped then text.map swap else if style.upper then text.map Char.toUpper else text
    let part := rest.head?.bind fun letter =>
      if modifier.all (allows · letter) then moment.part? letter else none
    let shown := match part with
      | some (.number value least withBlanks) => numberText style value least withBlanks
      | some (.name text swap) => filledUp style (cased swap text.toList)
      | some (.fixed text) => filledUp style text.toList
      | some .zone =>
        let zone := ['U', 'T', 'C']
        if style.padding = some '-' then zone else filledUp style zone
      | some .offset => filledUp style ['+'] ++ numberText style 0 4 false
      | some (.pattern text) =>
        let inner := fill moment depth text.length text.toList
        filledUp style (if style.upper then inner.map Char.toUpper else inner)
      | none =>
        let kept := '%' :: (text.take (text.length - rest.length)) ++ rest.take 1
        let raises := style.upper || style.swapped && rest.head?.any "bBh".toList.contains
        filledUp style (if raises then kept.map Char.toUpper else kept)
    shown ++ fill moment (depth + 1) fuel (rest.drop 1)
  | depth + 1, fuel + 1, char :: rest => char :: fill moment (depth + 1) fuel rest

def standardPattern : String := "%Y-%m-%d %H:%M:%S"

def inPattern (moment : Moment) (pattern : String) : List Char := moment.fill 2 pattern.length pattern.toList

/-- A moment in a pattern; without a pattern, with its milliseconds. A pattern
that holds a null character cannot be filled. -/
def text? (moment : Moment) (pattern : String) : Option String :=
  if pattern.isEmpty then
    let milliseconds := numberText {} moment.millisecond 3 false
    some (String.ofList (moment.inPattern standardPattern ++ ',' :: milliseconds))
  else if pattern.toList.contains '\x00' then none
  else some (String.ofList (moment.inPattern pattern))

end Moment

end ClearNames
