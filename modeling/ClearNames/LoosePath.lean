import ClearNames.Breakdown
import ClearNames.Path

/-! Paths as they are given: with lone surrogates, a home directory at the front,
and variables.

The home directory is put in first. What a variable is replaced by is not
searched again.
-/

set_option autoImplicit false

namespace ClearNames.LooseText

/-! ## Normalising, and the extension -/

def split (path : LooseText) : List LooseText := (Text.splitAt (.char '/') path.points).map LooseText.mk

def isAbsolute (path : LooseText) : Bool := path.points.head? == some (.char '/')

def leadingSlashes (path : LooseText) : String :=
  Path.leadingSlashes (String.ofList (List.replicate (path.points.takeWhile (· == .char '/')).length '/'))

def normalStep : Bool → List LooseText → LooseText → List LooseText :=
  Path.addComponent (ofString "") (ofString ".") (ofString "..")

def normalComponents (path : LooseText) : List LooseText :=
  (path.split.foldl (normalStep path.isAbsolute) []).reverse

def normalize (path : LooseText) : LooseText :=
  let text : LooseText := path.leadingSlashes ++ ⟨[.char '/'].intercalate (path.normalComponents.map points)⟩
  if text.isEmpty then "." else text

def absolute (directory : String) (path : LooseText) : LooseText :=
  if path.isAbsolute then path.normalize else (Path.join directory "" ++ path : LooseText).normalize

/-- The extension with its dot; dots that begin the file name belong to the name. -/
def extension (path : LooseText) : LooseText :=
  match Text.cutLast? (.char '.') ((path.split.getLastD "").points.dropWhile (· == .char '.')) with
  | some (_, ending) => ⟨.char '.' :: ending⟩
  | none => ""

/-! ## Home directories -/

/-- The user whose home directory a path begins at: what is between a leading
tilde and the first slash. Nothing there means the user who runs the program. -/
def homeUser? (path : LooseText) : Option LooseText :=
  match path.points with
  | .char '~' :: rest => some ⟨rest.takeWhile (· != .char '/')⟩
  | _ => none

def expandHome (path user : LooseText) (home : String) : LooseText :=
  let text : LooseText :=
    String.ofList (Text.dropEndWhile (· == '/') home.toList) ++ ⟨path.points.drop (user.points.length + 1)⟩
  if text.isEmpty then "/" else text

/-! ## Variables -/

def isVariablePoint : CodePoint → Bool
  | .char char =>
    ('a' ≤ char && char ≤ 'z') || ('A' ≤ char && char ≤ 'Z') || ('0' ≤ char && char ≤ '9') || char == '_'
  | .lone _ => false

/-- The variable at the front of what follows a dollar sign: its name, its
spelling, and the rest. -/
def takeVariable (text : List CodePoint) : Option (LooseText × List CodePoint × List CodePoint) :=
  match text with
  | .char '\x7b' :: inner =>
    let name := inner.takeWhile (· != .char '\x7d')
    match inner.dropWhile (· != .char '\x7d') with
    | closing :: rest => some (⟨name⟩, .char '\x7b' :: name ++ [closing], rest)
    | [] => none
  | _ =>
    match text.takeWhile isVariablePoint with
    | [] => none
    | name => some (⟨name⟩, name, text.dropWhile isVariablePoint)

inductive Part where
  | single (point : CodePoint)
  | named (name : LooseText) (spelling : List CodePoint)

def parts : (fuel : Nat) → List CodePoint → List Part
  | 0, _ | _, [] => []
  | fuel + 1, .char '$' :: text =>
    match takeVariable text with
    | none => .single (.char '$') :: parts fuel text
    | some (name, spelling, rest) => .named name (.char '$' :: spelling) :: parts fuel rest
  | fuel + 1, point :: text => .single point :: parts fuel text

def Part.expand (value : LooseText → Except Breakdown (Option String)) : Part → Except Breakdown (List CodePoint)
  | .single point => .ok [point]
  | .named name spelling => (value name).map fun found => found.elim spelling fun text => (ofString text).points

def expandVariables (value : LooseText → Except Breakdown (Option String)) (path : LooseText) :
    Except Breakdown LooseText := do
  return ⟨(← (parts path.points.length path.points).mapM (Part.expand value)).flatten⟩

def variableNames (path : LooseText) : List LooseText :=
  (parts path.points.length path.points).filterMap fun
    | .single _ => none
    | .named name _ => some name

end ClearNames.LooseText
