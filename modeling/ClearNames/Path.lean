import ClearNames.Text.Blank
import ClearNames.Text.Split

/-! Paths as text: joining, normalising, and taking apart.

A path is normalised by its spelling alone. Two leading slashes, and exactly
two, are kept.
-/

set_option autoImplicit false

namespace ClearNames.Path

def split (path : String) : List String := Text.pieces '/' path

def isAbsolute (path : String) : Bool := path.toList.head? == some '/'

/-- A path below a directory; an absolute path stands for itself. -/
def join (directory path : String) : String :=
  if isAbsolute path then path
  else if directory.isEmpty || directory.toList.getLast? == some '/' then directory ++ path
  else directory ++ "/" ++ path

def leadingSlashes (path : String) : String :=
  match path.toList with
  | '/' :: '/' :: '/' :: _ => "/"
  | '/' :: '/' :: _ => "//"
  | '/' :: _ => "/"
  | _ => ""

/-- Add a component to those kept so far, the latest first. Which of them are
the empty one, a dot and two dots depends on how components are spelled. -/
def addComponent {α : Type} [DecidableEq α] (empty dot dots : α) (rooted : Bool) (kept : List α) (component : α) :
    List α :=
  if component = empty ∨ component = dot then kept
  else if component = dots then
    match kept with
    | [] => if rooted then [] else [component]
    | last :: before => if last = dots then component :: kept else before
  else component :: kept

def normalStep : Bool → List String → String → List String := addComponent "" "." ".."

/-- The components of a path without empty ones, dots, and names followed by two dots. -/
def normalComponents (path : String) : List String :=
  ((split path).foldl (normalStep (isAbsolute path)) []).reverse

def normalize (path : String) : String :=
  let text := leadingSlashes path ++ "/".intercalate (normalComponents path)
  if text.isEmpty then "." else text

def absolute (directory path : String) : String := normalize (join directory path)

def fileName (path : String) : String := (split path).getLastD ""

/-- The text before the last slash; the root where the slash is the first character. -/
def parent (path : String) : String :=
  match Text.cutLast? '/' path.toList with
  | none => ""
  | some (front, _) =>
    let kept := Text.dropEndWhile (· == '/') front
    if kept.isEmpty then String.ofList (front ++ ['/']) else String.ofList kept

end ClearNames.Path
