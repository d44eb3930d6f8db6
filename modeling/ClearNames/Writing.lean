import ClearNames.Breakdown

/-! Writing in pieces.

A document or a report is written one piece after the other. A piece may not be
told at all, and one that is told may have no encoding in the stream that it is
written to. What was written before it stays.
-/

set_option autoImplicit false

namespace ClearNames

abbrev Piece := Except Breakdown LooseText

namespace Piece

def ofInt (number : Int) : Piece :=
  match Text.decimal? number with
  | some digits => .ok digits
  | none => .error .tooManyDigits

def together : List Piece → Piece
  | [] => .ok ""
  | piece :: rest => do return (← piece) ++ (← together rest)

/-- What gets into a stream of UTF-8, and the breakdown at which the writing ends. -/
def written : List Piece → String × Option Breakdown
  | [] => ("", none)
  | .error breakdown :: _ => ("", some breakdown)
  | .ok text :: rest =>
    match text.encoded with
    | .error fault => ("", some (.unencodable fault))
    | .ok text =>
      let (more, stop) := written rest
      (text ++ more, stop)

end Piece

end ClearNames
