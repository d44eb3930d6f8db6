/-! The built-in Java types. -/

set_option autoImplicit false

namespace ClearNames

inductive Primitive where
  | boolean | byte | char | short | int | long | float | double | void
  deriving DecidableEq, Repr

namespace Primitive

def name : Primitive → String
  | boolean => "boolean"
  | byte => "byte"
  | char => "char"
  | short => "short"
  | int => "int"
  | long => "long"
  | float => "float"
  | double => "double"
  | void => "void"

def all : List Primitive := [boolean, byte, char, short, int, long, float, double, void]

def named? (text : String) : Option Primitive := all.find? (·.name = text)

theorem named?_name (primitive : Primitive) : named? primitive.name = some primitive := by
  cases primitive <;> decide

theorem name_of_named?_eq_some {text : String} {primitive : Primitive} (named : named? text = some primitive) :
    primitive.name = text := by
  have fits := List.find?_some named
  exact of_decide_eq_true fits

theorem named?_eq_none {text : String} (dotted : '.' ∈ text.toList) : named? text = none := by
  have plain (primitive : Primitive) : '.' ∉ primitive.name.toList := by cases primitive <;> decide
  refine List.find?_eq_none.mpr fun primitive _ named => ?_
  rw [← of_decide_eq_true named] at dotted
  exact plain primitive dotted

end Primitive

end ClearNames
