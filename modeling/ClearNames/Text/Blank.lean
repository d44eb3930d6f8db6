/-! Blank characters and the trimming of text.

Blanks are the characters that Unicode counts as white space together with
the four information separators. Trimming removes blanks at the ends only.
-/

set_option autoImplicit false

namespace ClearNames.Text

/-- Unicode white space and the information separators U+001C to U+001F. -/
def isBlank (char : Char) : Bool :=
  let code := char.toNat
  (0x09 ≤ code && code ≤ 0x0D) || (0x1C ≤ code && code ≤ 0x20) || code == 0x85 || code == 0xA0 ||
    code == 0x1680 || (0x2000 ≤ code && code ≤ 0x200A) || code == 0x2028 || code == 0x2029 ||
    code == 0x202F || code == 0x205F || code == 0x3000

section
variable {α : Type} (test : α → Bool)

def dropEndWhile (list : List α) : List α := (list.reverse.dropWhile test).reverse

def strip (list : List α) : List α := dropEndWhile test (list.dropWhile test)

end

def trimStart (text : List Char) : List Char := text.dropWhile isBlank

def trim (text : List Char) : List Char := strip isBlank text

def trimmed (text : String) : String := String.ofList (trim text.toList)

end ClearNames.Text
