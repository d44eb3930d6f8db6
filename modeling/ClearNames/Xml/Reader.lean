import ClearNames.Xml.Declarations
import ClearNames.Xml.Element
import ClearNames.Xml.Encoding

/-! Reading XML documents with namespaces.

A document that is not well-formed is refused as a whole. References to
entities are replaced by their text, which may hold elements. No entity occurs
in its own text, and the texts of all of them come to a bounded size.
-/

set_option autoImplicit false

namespace ClearNames.Xml

abbrev Bindings := List (String × String)

def xmlNamespace : String := "/".intercalate ["http:", "", "www.w3.org", "XML", "1998", "namespace"]

/-- The namespace of declarations, to which no qualifier may be bound. -/
def xmlnsNamespace : String := "/".intercalate ["http:", "", "www.w3.org", "2000", "xmlns", ""]

abbrev WrittenAttribute := QualifiedName × List Char

def takeAttributes? (alphabet : Alphabet) : (fuel : Nat) → (done : List WrittenAttribute) → List Char →
    Option (List WrittenAttribute × Bool × List Char)
  | 0, _, _ => none
  | fuel + 1, done, text =>
    match skipSpace text with
    | '>' :: rest => some (done.reverse, false, rest)
    | '/' :: '>' :: rest => some (done.reverse, true, rest)
    | _ => do
      let (name, rest) ← takeQualifiedName? alphabet (← afterSpace? text)
      let rest ← Text.after? ['='] (skipSpace rest)
      let (literal, rest) ← takeLiteral? (skipSpace rest)
      takeAttributes? alphabet fuel ((name, literal) :: done) rest

def attributeValues (rules : List AttributeRule) (place : Place) (element : String)
    (written : List WrittenAttribute) : Expanding (List (QualifiedName × String)) := do
  let rules := rules.filter (·.element = element)
  let given ← written.mapM fun (name, literal) => do return (name, ← attributeText place literal)
  let added := rules.filterMap fun rule =>
    if written.any (·.1 = rule.name) then none else rule.given.map (rule.name, ·)
  return (given ++ added).map fun (name, value) =>
    let isPlain := (rules.find? (·.name = name)).all (·.isPlain)
    (name, String.ofList (if isPlain then value else collapseSpaces value))

def declaredQualifier? (name : QualifiedName) : Option String :=
  if name.qualifier = some "xmlns" then some name.base
  else if name.qualifier = none ∧ name.base = "xmlns" then some ""
  else none

def mayBind (qualifier uri : String) : Bool :=
  qualifier ≠ "xmlns" && uri ≠ xmlnsNamespace && decide (qualifier = "xml") == decide (uri = xmlNamespace) &&
    !(uri.isEmpty && !qualifier.isEmpty) && !uri.toList.contains '\x7d'

def bind? (bindings : Bindings) (attributes : List (QualifiedName × String)) : Option Bindings :=
  attributes.foldlM (fun bindings (name, value) =>
    match declaredQualifier? name with
    | none => some bindings
    | some qualifier => if mayBind qualifier value then some ((qualifier, value) :: bindings) else none) bindings

def inNamespace (uri base : String) : String := if uri.isEmpty then base else "\x7b" ++ uri ++ "\x7d" ++ base

def elementName? (bindings : Bindings) (name : QualifiedName) : Option String := do
  match name.qualifier with
  | none => return inNamespace ((bindings.lookup "").getD "") name.base
  | some qualifier => return inNamespace (← bindings.lookup qualifier) name.base

def attributeName? (bindings : Bindings) (name : QualifiedName) : Option String := do
  match name.qualifier with
  | none => return name.base
  | some qualifier => return inNamespace (← bindings.lookup qualifier) name.base

def hasDuplicates : List String → Bool
  | [] => false
  | first :: rest => rest.contains first || hasDuplicates rest

/-- A start tag after its opening mark: the name as written, the element without
its content, the bindings inside it, and whether it ends with the tag. -/
structure StartTag where
  written : QualifiedName
  name : String
  attributes : List (String × String)
  bindings : Bindings
  isEmpty : Bool

def takeStartTag (rules : List AttributeRule) (place : Place) (bindings : Bindings) (text : List Char) :
    Expanding (StartTag × List Char) := do
  let (written, rest) ← takeQualifiedName? place.alphabet text
  let (writtenAttributes, isEmpty, rest) ← takeAttributes? place.alphabet (rest.length + 1) [] rest
  guard !(hasDuplicates (writtenAttributes.map (·.1.text)))
  let values ← attributeValues rules place written.text writtenAttributes
  let bindings ← bind? bindings values
  let name ← elementName? bindings written
  let attributes ← ((values.filter fun (name, _) => (declaredQualifier? name).isNone).mapM
    fun (name, value) => do return (← attributeName? bindings name, value) : Option (List (String × String)))
  guard !(hasDuplicates (attributes.map Prod.fst))
  return (⟨written, name, attributes, bindings, isEmpty⟩, rest)

def afterEndTag? (alphabet : Alphabet) (written : QualifiedName) (text : List Char) : Option (List Char) := do
  let rest ← Text.after? ['<', '/'] text
  let (name, rest) ← takeQualifiedName? alphabet rest
  if name ≠ written then none
  Text.after? ['>'] (skipSpace rest)

mutual

/-- The elements of content up to an end tag or the end of the text; `level`
bounds how deep entities may hold entities, and `done` holds the elements
before, the latest first. -/
def takeContent (rules : List AttributeRule) (level fuel : Nat) (place : Place) (bindings : Bindings)
    (done : List Element) (text : List Char) : Expanding (List Element × List Char) :=
  match fuel, text with
  | 0, _ => failure
  | _ + 1, [] => pure (done.reverse, [])
  | fuel + 1, '<' :: rest =>
    if rest.head? = some '/' then pure (done.reverse, text)
    else if let some rest := Text.after? "!--".toList rest then do
      takeContent rules level fuel place bindings done (← afterComment? rest)
    else if let some rest := Text.after? "![CDATA[".toList rest then do
      let (_, rest) ← takeUntil? "]]>".toList [] rest
      takeContent rules level fuel place bindings done rest
    else if let some rest := Text.after? ['?'] rest then do
      takeContent rules level fuel place bindings done (← afterInstruction? place.alphabet rest)
    else do
      let (element, rest) ← takeElement rules level fuel place bindings rest
      takeContent rules level fuel place bindings (element :: done) rest
  | fuel + 1, '&' :: rest => do
    let (reference, rest) ← takeReference? place.alphabet rest
    match reference with
    | .char _ => takeContent rules level fuel place bindings done rest
    | .entity name =>
      if (predefined? name).isSome then takeContent rules level fuel place bindings done rest
      else
        match level with
        | 0 => failure
        | inner + 1 => do
          match ← place.entityText name with
          | none => failure
          | some text => do
            let (elements, unread) ←
              takeContent rules inner (2 * text.length + 2) (place.inside name) bindings [] text
            if unread.isEmpty then
              takeContent rules (inner + 1) fuel place bindings (elements.reverse ++ done) rest
            else failure
  | fuel + 1, char :: rest =>
    if char = ']' ∧ (Text.after? [']', '>'] rest).isSome then failure
    else takeContent rules level fuel place bindings done rest
termination_by (level, fuel)

def takeElement (rules : List AttributeRule) (level fuel : Nat) (place : Place) (bindings : Bindings)
    (text : List Char) : Expanding (Element × List Char) :=
  match fuel with
  | 0 => failure
  | fuel + 1 => do
    let (tag, rest) ← takeStartTag rules place bindings text
    if tag.isEmpty then return (.node tag.name tag.attributes [], rest)
    let (children, rest) ← takeContent rules level fuel place tag.bindings [] rest
    let rest ← afterEndTag? place.alphabet tag.written rest
    return (.node tag.name tag.attributes children, rest)
termination_by (level, fuel)

end

structure Declaration where
  encoding : Option String
  standalone : Bool
  deriving DecidableEq, Repr

def isDeclarationChar (char : Char) : Bool :=
  ('a' ≤ char && char ≤ 'z') || ('A' ≤ char && char ≤ 'Z') || ('0' ≤ char && char ≤ '9') ||
    char == '.' || char == '-' || char == '_'

def takeSetting? (name : String) (text : List Char) : Option (String × List Char) := do
  let rest ← Text.after? name.toList (← afterSpace? text)
  let rest ← Text.after? ['='] (skipSpace rest)
  let (value, rest) ← takeLiteral? (skipSpace rest)
  if value.all isDeclarationChar then return (String.ofList value, rest) else none

def takeDeclaration? (alphabet : Alphabet) (text : List Char) : Option (Declaration × List Char) :=
  match Text.after? "<?xml".toList text with
  | none => some (⟨none, false⟩, text)
  | some rest =>
    if (rest.head?.any fun char => alphabet.contains char || char == ':') then some (⟨none, false⟩, text)
    else do
      let (_, rest) ← takeSetting? "version" rest
      let (encoding, rest) := match takeSetting? "encoding" rest with
        | some (value, rest) => (some value, rest)
        | none => (none, rest)
      if encoding.any fun value => !(value.toList.head?.any fun char => char.isAlpha) then none
      let (standalone, rest) ← match takeSetting? "standalone" rest with
        | some ("yes", rest) => some (true, rest)
        | some ("no", rest) => some (false, rest)
        | some _ => none
        | none => some (false, rest)
      let rest ← Text.after? ['?', '>'] (skipSpace rest)
      return (⟨encoding, standalone⟩, rest)

def afterMisc? (alphabet : Alphabet) : (fuel : Nat) → List Char → Option (List Char)
  | 0, _ => none
  | fuel + 1, text =>
    let text := skipSpace text
    match Text.after? "<!--".toList text with
    | some rest => do afterMisc? alphabet fuel (← afterComment? rest)
    | none =>
      match Text.after? "<?".toList text with
      | some rest => do afterMisc? alphabet fuel (← afterInstruction? alphabet rest)
      | none => some text

def readBody (alphabet : Alphabet) (standalone : Bool) (text : List Char) : Expanding Element := do
  let text ← afterMisc? alphabet (text.length + 1) text
  let (doctype, text) ← match Text.after? "<!DOCTYPE".toList text with
    | none => pure (Doctype.none, text)
    | some rest => do
      let (doctype, rest) ← takeDoctype alphabet standalone rest
      pure (doctype, ← afterMisc? alphabet (rest.length + 1) rest)
  let rest ← Text.after? ['<'] text
  let (element, rest) ← takeElement doctype.rules (doctype.entities.length + 1) (2 * rest.length + 2)
    (doctype.place alphabet standalone) [("xml", xmlNamespace)] rest
  match ← afterMisc? alphabet (rest.length + 1) rest with
  | [] => return element
  | _ :: _ => failure

/-- The text of a document: carriage returns become line feeds, and all
characters have to be ones that documents may contain. -/
def documentText? (decoded : Decoded) : Option (List Char) :=
  if decoded.isWhole && decoded.chars.all isDocumentChar then some (Text.unifyLineEnds decoded.chars) else none

inductive ReadFault where
  | malformed
  | encoding (fault : EncodingFault)
  deriving DecidableEq, Repr

def encodingOf (bytes : List UInt8) : Except ReadFault (Encoding × List UInt8) := do
  let (detected, bytes) := Encoding.detect bytes
  match takeDeclaration? detected.alphabet (detected.decode bytes).chars with
  | none => throw .malformed
  | some (declaration, _) =>
    match declaration.encoding with
    | none => return (detected, bytes)
    | some name =>
      match detected.declared name with
      | .ok (some encoding) => return (encoding, bytes)
      | .ok none => throw .malformed
      | .error fault => throw (.encoding fault)

def readIn? (encoding : Encoding) (bytes : List UInt8) : Option Element := do
  let text ← documentText? (encoding.decode bytes)
  let (declaration, body) ← takeDeclaration? encoding.alphabet text
  return (← (readBody encoding.alphabet declaration.standalone body).run 0).1

def read (bytes : List UInt8) : Except ReadFault Element := do
  let (encoding, bytes) ← encodingOf bytes
  match readIn? encoding bytes with
  | some root => return root
  | none => throw .malformed

end ClearNames.Xml
