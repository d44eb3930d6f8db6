import ClearNames.NameTree.Lookup

/-! The obfuscation of an inner class that is spelled with dollar signs.

A log gives the obfuscation of the innermost segment only. The name in the
obfuscated program begins with the obfuscation of the outermost class, or with
its clear name where it has none, and keeps the segments in between.
-/

set_option autoImplicit false

namespace ClearNames.NameTree

def splitLast (identifier : String) : String × String :=
  match Text.cutLast? '.' identifier.toList with
  | none => ("", identifier)
  | some (front, last) => (String.ofList front, String.ofList last)

def knownObfuscation (tree : NameTree) (identifier : String) : Option String := do
  let id ← tree.findClass? identifier
  let obfuscation ← (tree.javaClass id).obfuscation
  if obfuscation.isEmpty then none else some obfuscation

/-- The whole obfuscation of a class from that of its innermost segment. -/
def innerObfuscation (tree : NameTree) (identifier obfuscation : String) : String :=
  let (enclosing, simple) := splitLast identifier
  match Text.pieces '$' simple with
  | outermost :: inner :: rest =>
    let outerName := if enclosing.isEmpty then outermost else enclosing ++ "." ++ outermost
    let first := (tree.knownObfuscation outerName).getD outermost
    "$".intercalate (first :: (inner :: rest).dropLast ++ [obfuscation])
  | _ => obfuscation

end ClearNames.NameTree
