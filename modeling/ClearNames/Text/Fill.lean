import ClearNames.Text.Split

/-! Filling lines of a given width with the words of a text.

A line may end at a blank and after a hyphen. A word that is longer than a line
begins on the line in hand and goes on over the following ones.
-/

set_option autoImplicit false

namespace ClearNames.Text

def hyphenated (word : List Char) : List (List Char) :=
  match (splitAt '-' word).reverse with
  | [] => []
  | last :: before => before.reverse.map (· ++ ['-']) ++ [last]

def fillings (text : String) : List (List Char) :=
  ([[' ']].intercalate ((splitAt ' ' text.toList).map hyphenated))

/-- The pieces that fit into a line, and those that are left. -/
def takeLine (room : Nat) : List (List Char) → List (List Char) × List (List Char)
  | [] => ([], [])
  | piece :: rest =>
    if piece.length ≤ room then
      let (line, rest) := takeLine (room - piece.length) rest
      (piece :: line, rest)
    else ([], piece :: rest)

def trimmedLine (line : List (List Char)) : List Char :=
  match line.reverse with
  | [' '] :: before => before.reverse.flatten
  | _ => line.flatten

def fillPieces (width : Nat) : (fuel : Nat) → List (List Char) → List (List Char)
  | 0, _ => []
  | fuel + 1, pieces =>
    match takeLine width pieces with
    | (line, []) => [trimmedLine line]
    | (line, [' '] :: rest) => line.flatten :: fillPieces width fuel rest
    | (line, piece :: rest) =>
      if width < piece.length then
        let room := width - line.flatten.length
        (line.flatten ++ piece.take room) :: fillPieces width fuel (piece.drop room :: rest)
      else trimmedLine line :: fillPieces width fuel (piece :: rest)

/-- A text on lines of a width. Each line takes a character at least, so there
are no more lines than characters. -/
def fill (width : Nat) (text : String) : List String :=
  (fillPieces width (text.length + 1) (fillings text)).map String.ofList

/-- Parts on lines of a width, with a blank between neighbours; a part that is
longer than a line has one for itself. -/
def packed (width : Int) (parts : List String) : List String :=
  (parts.foldl (fun lines part =>
    match lines with
    | [] => [part]
    | line :: done =>
      if (line.length + 1 + part.length : Int) ≤ width then (line ++ " " ++ part) :: done
      else part :: line :: done) []).reverse

end ClearNames.Text
