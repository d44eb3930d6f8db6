import ClearNames.Xml.Markup

/-! The content that an element is declared to have. Only the shape of the
declaration is looked at; documents are not held to it.

Content is empty, anything, text with named elements, or a group: names and
inner groups in sequence or in choice, each with a sign for how often it occurs.
-/

set_option autoImplicit false

namespace ClearNames.Xml

def isOccurrenceSign (char : Char) : Bool := char == '?' || char == '*' || char == '+'

/-- The text after a closing parenthesis and its sign; without a sign, a part
of a declaration has to end here. -/
def afterClosing? : List Char → Option (List Char)
  | [] => none
  | char :: rest =>
    if isOccurrenceSign char then some rest
    else if isSpace char || char == '>' || char == ',' || char == '|' || char == ')' then some (char :: rest)
    else none

def afterItemName? (alphabet : Alphabet) (text : List Char) : Option (List Char) := do
  let (_, rest) ← takeDeclaredName? alphabet text
  match rest with
  | [] => none
  | char :: after =>
    if isOccurrenceSign char then some after
    else if isSpace char || char == ')' || char == ',' || char == '|' then some rest
    else none

/-- The text after the groups that are open. `connectors` holds the connector of
each, the innermost first, once it is known; `isItem` tells whether an item or
what follows one is read. -/
def afterGroups? (alphabet : Alphabet) :
    (fuel : Nat) → (connectors : List (Option Char)) → (isItem : Bool) → List Char → Option (List Char)
  | 0, _, _, _ => none
  | _ + 1, [], _, text => some text
  | fuel + 1, connector :: outer, true, text =>
    match skipSpace text with
    | '(' :: rest => afterGroups? alphabet fuel (none :: connector :: outer) true rest
    | text => do afterGroups? alphabet fuel (connector :: outer) false (← afterItemName? alphabet text)
  | fuel + 1, connector :: outer, false, text =>
    match skipSpace text with
    | ')' :: rest => do afterGroups? alphabet fuel outer false (← afterClosing? rest)
    | char :: rest =>
      if (char = ',' ∨ char = '|') ∧ (connector.all (· = char)) then
        afterGroups? alphabet fuel (some char :: outer) true rest
      else none
    | [] => none

/-- The text after the names that may stand among text, with the closing
parenthesis. Where there are names, a star has to follow it; where there are
none, nothing else may. -/
def afterMixed? (alphabet : Alphabet) : (fuel : Nat) → (named : Bool) → List Char → Option (List Char)
  | 0, _, _ => none
  | fuel + 1, named, text =>
    match skipSpace text with
    | ')' :: '*' :: rest => some rest
    | ')' :: rest => if named || rest.head?.any isOccurrenceSign then none else afterClosing? rest
    | '|' :: rest => do
      let (_, rest) ← takeDeclaredName? alphabet (skipSpace rest)
      match rest with
      | char :: _ =>
        if isSpace char || char == ')' || char == '|' then afterMixed? alphabet fuel true rest else none
      | [] => none
    | _ => none

def afterContentModel? (alphabet : Alphabet) (text : List Char) : Option (List Char) :=
  match text with
  | '(' :: rest =>
    match Text.after? "#PCDATA".toList (skipSpace rest) with
    | some rest => afterMixed? alphabet (rest.length + 1) false rest
    | none => afterGroups? alphabet (2 * rest.length + 2) [none] true rest
  | _ => do
    let (word, rest) ← takeName? alphabet text
    if word = "EMPTY" ∨ word = "ANY" then return rest else none

end ClearNames.Xml
