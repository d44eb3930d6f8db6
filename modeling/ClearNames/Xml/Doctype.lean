import ClearNames.Xml.Markup

/-! What the declarations of a document type say: entities, and the attributes
that elements have by default. Declarations outside the document are not looked for. -/

set_option autoImplicit false

namespace ClearNames.Xml

inductive Entity where
  | internal (text : List Char)
  | external
  deriving DecidableEq, Repr

/-- A declared attribute of an element: whether its value is plain text, and
the value that it has where none is given. -/
structure AttributeRule where
  element : String
  name : QualifiedName
  isPlain : Bool
  given : Option (List Char)
  deriving DecidableEq, Repr

structure Doctype where
  entities : OrderedTable String Entity
  rules : List AttributeRule
  isPartial : Bool
  /-- Whether further declarations are taken up: not after a reference to
  declarations that are not read. -/
  takesUp : Bool
  deriving Repr

def Doctype.none : Doctype := ⟨[], [], false, true⟩

def Doctype.declare (doctype : Doctype) (name : String) (entity : Entity) : Doctype :=
  if doctype.takesUp && (OrderedTable.find? name doctype.entities).isNone then
    { doctype with entities := doctype.entities.put name entity }
  else doctype

def Doctype.addRule (doctype : Doctype) (rule : AttributeRule) : Doctype :=
  if doctype.takesUp && !doctype.rules.any fun other => other.element = rule.element ∧ other.name = rule.name then
    { doctype with rules := doctype.rules ++ [rule] }
  else doctype

structure Place where
  alphabet : Alphabet
  entities : OrderedTable String Entity
  isPartial : Bool
  /-- The entities whose text is under way. -/
  within : List String := []
  deriving Repr

/-- Where text outside of entities stands. A document that stands alone needs no
declarations from elsewhere. -/
def Doctype.place (doctype : Doctype) (alphabet : Alphabet) (standalone : Bool) : Place :=
  { alphabet, entities := doctype.entities, isPartial := doctype.isPartial && !standalone }

def Place.inside (place : Place) (name : String) : Place :=
  { place with alphabet := .plain, within := name :: place.within }

abbrev Expanding (α : Type) := StateT Nat Option α

/-- How many characters the texts of entities may come to. -/
def expansionLimit : Nat := 8388608

def expand (text : List Char) : Expanding Unit := do
  let spent := (← get) + text.length
  guard (spent < expansionLimit)
  set spent

/-- The text of an entity that is referred to in content or in a value; `none`
where it is not known but may be declared elsewhere. An entity does not occur
in its own text, and it has a text here. -/
def Place.entityText (place : Place) (name : String) : Expanding (Option (List Char)) := do
  match OrderedTable.find? name place.entities with
  | none =>
    guard place.isPartial
    return none
  | some .external => failure
  | some (.internal text) =>
    guard !(place.within.contains name)
    expand text
    return some text

/-- The value of an attribute from its literal, put behind what is done of it
in reverse: white space becomes spaces, and references are resolved; `level`
bounds how deep entities may hold entities. -/
def attributeFrom (place : Place) (level fuel : Nat) (done text : List Char) : Expanding (List Char) :=
  match fuel, text with
  | 0, _ => failure
  | _ + 1, [] => pure done
  | _ + 1, '<' :: _ => failure
  | fuel + 1, '&' :: rest => do
    let (reference, rest) ← takeReference? place.alphabet rest
    match reference with
    | .char char => attributeFrom place level fuel (char :: done) rest
    | .entity name =>
      if let some char := predefined? name then attributeFrom place level fuel (char :: done) rest
      else
        match level with
        | 0 => failure
        | inner + 1 => do
          let text := (← place.entityText name).getD []
          let done ← attributeFrom (place.inside name) inner (text.length + 1) done text
          attributeFrom place (inner + 1) fuel done rest
  | fuel + 1, char :: rest => attributeFrom place level fuel ((if isSpace char then ' ' else char) :: done) rest
termination_by (level, fuel)

def attributeText (place : Place) (literal : List Char) : Expanding (List Char) := do
  return (← attributeFrom place (place.entities.length + 1) (literal.length + 1) [] literal).reverse

def collapseSpaces (text : List Char) : List Char :=
  Text.joinWith ' ' ((Text.splitAt ' ' text).filter fun piece => !piece.isEmpty)

end ClearNames.Xml
