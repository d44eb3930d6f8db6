/-! XML elements: their names, attributes and inner elements.

A name in a namespace is written with the namespace in braces before it. Text
between elements is not kept.
-/

set_option autoImplicit false

namespace ClearNames.Xml

inductive Element where
  | node (name : String) (attributes : List (String × String)) (children : List Element)
  deriving Repr, Inhabited

namespace Element

def name : Element → String
  | .node name _ _ => name

def attributes : Element → List (String × String)
  | .node _ attributes _ => attributes

def children : Element → List Element
  | .node _ _ children => children

def attributeValue? (element : Element) (name : String) : Option String := element.attributes.lookup name

def childrenNamed (element : Element) (name : String) : List Element :=
  element.children.filter (·.name = name)

mutual

def all : Element → List Element
  | .node name attributes children => .node name attributes children :: allOf children

def allOf : List Element → List Element
  | [] => []
  | element :: rest => element.all ++ allOf rest

end

def allNamed (element : Element) (name : String) : List Element := element.all.filter (·.name = name)

end Element

end ClearNames.Xml
