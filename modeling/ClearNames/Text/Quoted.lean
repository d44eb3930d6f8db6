import ClearNames.Text.Hex
import ClearNames.Text.Printable

/-! Quoted text, as messages show it.

The quote mark is single unless the text holds a single quote and no double
one. The mark in use, the backslash and the common control characters are
escaped by a backslash, and any other unprintable character by its code in
the shortest of three widths.
-/

set_option autoImplicit false

namespace ClearNames.Text

def quoteMark (text : List Char) : Char :=
  if text.contains '\'' && !text.contains '"' then '"' else '\''

def codeEscape (char : Char) : List Char :=
  if char.toNat < 0x100 then '\\' :: 'x' :: fixedHex 2 char.toNat
  else if char.toNat < 0x10000 then '\\' :: 'u' :: fixedHex 4 char.toNat
  else '\\' :: 'U' :: fixedHex 8 char.toNat

def quoteChar (mark char : Char) : List Char :=
  if char = mark ∨ char = '\\' then ['\\', char]
  else if char = '\n' then ['\\', 'n']
  else if char = '\r' then ['\\', 'r']
  else if char = '\t' then ['\\', 't']
  else if isPrintable char then [char]
  else codeEscape char

/-- A text between quote marks, with no character left unprintable. -/
def quoted (text : String) : String :=
  let chars := text.toList
  let mark := quoteMark chars
  String.ofList (mark :: chars.flatMap (quoteChar mark) ++ [mark])

end ClearNames.Text
