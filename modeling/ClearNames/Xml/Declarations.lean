import ClearNames.Xml.ContentModel
import ClearNames.Xml.Doctype

/-! Reading the declarations of a document type. -/

set_option autoImplicit false

namespace ClearNames.Xml

/-- The replacement text of an entity from its literal: references to characters
are resolved, references to entities stay. -/
def entityText? (alphabet : Alphabet) : (fuel : Nat) → (done : List Char) → List Char → Option (List Char)
  | 0, _, _ => none
  | _ + 1, done, [] => some done.reverse
  | _ + 1, _, '%' :: _ => none
  | fuel + 1, done, '&' :: rest => do
    let (reference, rest) ← takeReference? alphabet rest
    match reference with
    | .char char => entityText? alphabet fuel (char :: done) rest
    | .entity name => entityText? alphabet fuel (';' :: name.toList.reverse ++ '&' :: done) rest
  | fuel + 1, done, char :: rest => entityText? alphabet fuel (char :: done) rest

def isPublicChar (char : Char) : Bool :=
  ('a' ≤ char && char ≤ 'z') || ('A' ≤ char && char ≤ 'Z') || ('0' ≤ char && char ≤ '9') ||
    char == ' ' || char == '\n' || char == '\r' || "-'()+,./:=?;!*#@$_%".toList.contains char

def afterPublicLiteral? (text : List Char) : Option (List Char) := do
  let (literal, rest) ← takeLiteral? text
  if literal.all isPublicChar then some rest else none

def afterExternalId? (text : List Char) : Option (List Char) :=
  match Text.after? "SYSTEM".toList text with
  | some rest => do
    let (_, rest) ← takeLiteral? (← afterSpace? rest)
    return rest
  | none => do
    let rest ← Text.after? "PUBLIC".toList text
    let rest ← afterPublicLiteral? (← afterSpace? rest)
    let (_, rest) ← takeLiteral? (← afterSpace? rest)
    return rest

def takeEntity? (alphabet : Alphabet) (doctype : Doctype) (text : List Char) : Option (Doctype × List Char) := do
  let text ← afterSpace? text
  let (isParameter, text) ← (match text with
    | '%' :: rest => do return (true, ← afterSpace? rest)
    | _ => some (false, text) : Option (Bool × List Char))
  let (name, rest) ← takeName? alphabet text
  let rest ← afterSpace? rest
  match takeLiteral? rest with
  | some (literal, rest) =>
    let rest ← Text.after? ['>'] (skipSpace rest)
    if !doctype.takesUp then return (doctype, rest)
    let text ← entityText? alphabet (literal.length + 1) [] literal
    return (if isParameter then doctype else doctype.declare name (.internal text), rest)
  | none =>
    let rest ← afterExternalId? rest
    let rest ← match (do Text.after? "NDATA".toList (← afterSpace? rest) : Option (List Char)) with
      | some unparsed => do
        if isParameter then none
        let (_, rest) ← takeName? alphabet (← afterSpace? unparsed)
        some rest
      | none => some rest
    let rest ← Text.after? ['>'] (skipSpace rest)
    return (if isParameter then doctype else doctype.declare name .external, rest)

def isTokenChar (alphabet : Alphabet) (char : Char) : Bool := alphabet.contains char || char == ':'

/-- The text after tokens between bars and the closing parenthesis; the tokens
are names, or any tokens. -/
def afterEnumeration? (alphabet : Alphabet) (onlyNames : Bool) : (fuel : Nat) → List Char → Option (List Char)
  | 0, _ => none
  | fuel + 1, text => do
    let text := skipSpace text
    let token := text.takeWhile (isTokenChar alphabet)
    if token.isEmpty then none
    if onlyNames && (takeName? alphabet token).map Prod.snd != some [] then none
    match skipSpace (text.dropWhile (isTokenChar alphabet)) with
    | '|' :: rest => afterEnumeration? alphabet onlyNames fuel rest
    | ')' :: rest => return rest
    | _ => none

def takeAttributeType? (alphabet : Alphabet) (text : List Char) : Option (Bool × List Char) :=
  match text with
  | '(' :: rest => do return (false, ← afterEnumeration? alphabet false (rest.length + 1) rest)
  | _ => do
    let (word, rest) ← takeName? alphabet text
    if word = "CDATA" then return (true, rest)
    else if word = "NOTATION" then
      let rest ← Text.after? ['('] (← afterSpace? rest)
      return (false, ← afterEnumeration? alphabet true (rest.length + 1) rest)
    else if word ∈ ["ID", "IDREF", "IDREFS", "ENTITY", "ENTITIES", "NMTOKEN", "NMTOKENS"] then
      return (false, rest)
    else none

def takeDefault? (alphabet : Alphabet) (text : List Char) : Option (Option (List Char) × List Char) :=
  match text with
  | '#' :: rest => do
    let (word, rest) ← takeName? alphabet rest
    if word = "REQUIRED" ∨ word = "IMPLIED" then return (none, rest)
    else if word = "FIXED" then
      let (value, rest) ← takeLiteral? (← afterSpace? rest)
      return (some value, rest)
    else none
  | _ => do
    let (value, rest) ← takeLiteral? text
    return (some value, rest)

/-- The value of a written default, with its references resolved. It is not
looked at where declarations are not taken up any more. -/
def defaultValue (alphabet : Alphabet) (standalone : Bool) (doctype : Doctype) (written : Option (List Char)) :
    Expanding (Option (List Char)) :=
  match written with
  | some literal =>
    if doctype.takesUp then do
      return some (← attributeText (doctype.place alphabet standalone) literal)
    else pure none
  | none => pure none

def takeRules (alphabet : Alphabet) (standalone : Bool) (element : String) :
    (fuel : Nat) → Doctype → List Char → Expanding (Doctype × List Char)
  | 0, _, _ => failure
  | fuel + 1, doctype, text =>
    match skipSpace text with
    | '>' :: rest => pure (doctype, rest)
    | _ => do
      let (name, rest) ← takeDeclaredName? alphabet (← afterSpace? text)
      let (isPlain, rest) ← takeAttributeType? alphabet (← afterSpace? rest)
      let (written, rest) ← takeDefault? alphabet (← afterSpace? rest)
      let given ← defaultValue alphabet standalone doctype written
      takeRules alphabet standalone element fuel (doctype.addRule ⟨element, name, isPlain, given⟩) rest

def afterElementDeclaration? (alphabet : Alphabet) (text : List Char) : Option (List Char) := do
  let (_, rest) ← takeDeclaredName? alphabet (← afterSpace? text)
  let rest ← afterContentModel? alphabet (← afterSpace? rest)
  Text.after? ['>'] (skipSpace rest)

def afterNotation? (alphabet : Alphabet) (text : List Char) : Option (List Char) := do
  let (_, rest) ← takeName? alphabet (← afterSpace? text)
  let rest ← afterSpace? rest
  match afterExternalId? rest with
  | some rest => Text.after? ['>'] (skipSpace rest)
  | none =>
    let rest ← Text.after? "PUBLIC".toList rest
    Text.after? ['>'] (skipSpace (← afterPublicLiteral? (← afterSpace? rest)))

def takeDeclarations (alphabet : Alphabet) (standalone : Bool) :
    (fuel : Nat) → Doctype → List Char → Expanding (Doctype × List Char)
  | 0, _, _ => failure
  | _ + 1, _, [] => failure
  | fuel + 1, doctype, char :: rest =>
    let text := char :: rest
    if isSpace char then takeDeclarations alphabet standalone fuel doctype rest
    else if char = ']' then pure (doctype, rest)
    else if char = '%' then do
      let (_, rest) ← takeName? alphabet rest
      let rest ← Text.after? [';'] rest
      takeDeclarations alphabet standalone fuel { doctype with isPartial := true, takesUp := standalone } rest
    else if let some rest := Text.after? "<!--".toList text then do
      takeDeclarations alphabet standalone fuel doctype (← afterComment? rest)
    else if let some rest := Text.after? "<?".toList text then do
      takeDeclarations alphabet standalone fuel doctype (← afterInstruction? alphabet rest)
    else if let some rest := Text.after? "<!ENTITY".toList text then do
      let (doctype, rest) ← takeEntity? alphabet doctype rest
      takeDeclarations alphabet standalone fuel doctype rest
    else if let some rest := Text.after? "<!ATTLIST".toList text then do
      let (element, rest) ← takeDeclaredName? alphabet (← afterSpace? rest)
      let (doctype, rest) ← takeRules alphabet standalone element.text (rest.length + 1) doctype rest
      takeDeclarations alphabet standalone fuel doctype rest
    else if let some rest := Text.after? "<!ELEMENT".toList text then do
      takeDeclarations alphabet standalone fuel doctype (← afterElementDeclaration? alphabet rest)
    else if let some rest := Text.after? "<!NOTATION".toList text then do
      takeDeclarations alphabet standalone fuel doctype (← afterNotation? alphabet rest)
    else failure

def takeDoctype (alphabet : Alphabet) (standalone : Bool) (text : List Char) : Expanding (Doctype × List Char) := do
  let (_, rest) ← takeDeclaredName? alphabet (← afterSpace? text)
  let external := do afterExternalId? (← afterSpace? rest)
  let doctype := { Doctype.none with isPartial := external.isSome }
  let rest := skipSpace (external.getD rest)
  let (doctype, rest) ← match rest with
    | '[' :: rest => do
      let (doctype, rest) ← takeDeclarations alphabet standalone (rest.length + 1) doctype rest
      pure (doctype, skipSpace rest)
    | _ => pure (doctype, rest)
  let rest ← Text.after? ['>'] rest
  return (doctype, rest)

end ClearNames.Xml
