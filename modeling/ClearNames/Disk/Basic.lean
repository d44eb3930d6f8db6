import ClearNames.Breakdown
import ClearNames.OrderedTable
import ClearNames.Path
import ClearNames.Text.Quoted

/-! A file system as a value: a tree of directories and files without links. -/

set_option autoImplicit false

namespace ClearNames

inductive DiskEntry where
  | file (content : ByteArray)
  | directory (entries : List (String × DiskEntry))

instance : Inhabited DiskEntry := ⟨.directory []⟩

inductive DiskProblem where
  | notFound
  | exists
  | notDirectory
  | isDirectory
  | nameTooLong
  | nullCharacter
  deriving DecidableEq, Repr

structure DiskFault where
  problem : DiskProblem
  path : String
  deriving DecidableEq, Repr

def DiskProblem.message : DiskProblem → String
  | .notFound => "[Errno 2] No such file or directory"
  | .exists => "[Errno 17] File exists"
  | .notDirectory => "[Errno 20] Not a directory"
  | .isDirectory => "[Errno 21] Is a directory"
  | .nameTooLong => "[Errno 36] File name too long"
  | .nullCharacter => "embedded null byte"

def DiskFault.message (fault : DiskFault) : String :=
  if fault.problem = .nullCharacter then fault.problem.message
  else fault.problem.message ++ ": " ++ Text.quoted fault.path

/-- The breakdown on a path that is none; all other faults are dealt with. -/
def DiskFault.breakdown? (fault : DiskFault) : Option Breakdown :=
  if fault.problem = .nullCharacter then some (.badValue fault.message) else none

namespace DiskEntry

def isFile : DiskEntry → Bool
  | .file _ => true
  | .directory _ => false

def isDirectory (entry : DiskEntry) : Bool := !entry.isFile

def child? (name : String) : DiskEntry → Option DiskEntry
  | .file _ => none
  | .directory entries => OrderedTable.find? name entries

/-- Replace, add or remove the entry at a path of names. Directories that are
missing on the way are made; a file on the way stays as it is. -/
def alter (entry : DiskEntry) (change : Option DiskEntry → Option DiskEntry) : List String → DiskEntry
  | [] => (change (some entry)).getD entry
  | name :: rest =>
    match entry with
    | .file content => .file content
    | .directory entries =>
      match rest with
      | [] =>
        match change (OrderedTable.find? name entries) with
        | some changed => .directory (OrderedTable.put name changed entries)
        | none => .directory (entries.filter fun (other, _) => other ≠ name)
      | _ :: _ =>
        let inner := (OrderedTable.find? name entries).getD (.directory [])
        .directory (OrderedTable.put name (inner.alter change rest) entries)

def find? (entry : DiskEntry) : List String → Option DiskEntry
  | [] => some entry
  | name :: rest => do (← entry.child? name).find? rest

end DiskEntry

structure Disk where
  root : DiskEntry
  workingDirectory : String

namespace Disk

def nameLimit : Nat := 255

def pathLimit : Nat := 4095

/-- The entries passed on the way down from the root, with their names, the latest first. -/
abbrev Trail := List (String × DiskEntry)

def arrival (disk : Disk) (trail : Trail) : DiskEntry :=
  match trail with
  | [] => disk.root
  | (_, entry) :: _ => entry

def follow (disk : Disk) (trail : Trail) : List String → Except DiskProblem Trail
  | [] => .ok trail
  | component :: rest =>
    if (disk.arrival trail).isFile then .error .notDirectory
    else if component = "" ∨ component = "." then disk.follow trail rest
    else if component = ".." then disk.follow trail.tail rest
    else if nameLimit < component.utf8ByteSize then .error .nameTooLong
    else
      match (disk.arrival trail).child? component with
      | none => .error .notFound
      | some inner => disk.follow ((component, inner) :: trail) rest

/-- The names that lead to the entry of a path, and the entry. Each directory
on the way has to be there, also where two dots leave it again. -/
def locate (disk : Disk) (path : String) : Except DiskProblem (List String × DiskEntry) :=
  if path.toList.contains '\x00' then .error .nullCharacter
  else if path.isEmpty then .error .notFound
  else if pathLimit < path.utf8ByteSize then .error .nameTooLong
  else
    (disk.follow [] (Path.split (Path.join disk.workingDirectory path))).map fun trail =>
      ((trail.map Prod.fst).reverse, disk.arrival trail)

def entry? (disk : Disk) (path : String) : Option DiskEntry :=
  match disk.locate path with
  | .ok (_, entry) => some entry
  | .error _ => none

def isFile (disk : Disk) (path : String) : Bool := (disk.entry? path).any DiskEntry.isFile

def isDirectory (disk : Disk) (path : String) : Bool := (disk.entry? path).any DiskEntry.isDirectory

def pathExists (disk : Disk) (path : String) : Bool := (disk.entry? path).isSome

def read (disk : Disk) (path : String) : Except DiskFault ByteArray :=
  match disk.locate path with
  | .error problem => .error ⟨problem, path⟩
  | .ok (_, .directory _) => .error ⟨.isDirectory, path⟩
  | .ok (_, .file content) => .ok content

def partition (path : String) : String × String :=
  match Text.cutLast? '/' path.toList with
  | none => ("", path)
  | some (front, last) => (String.ofList (front ++ ['/']), String.ofList last)

/-- The names that lead to a file which is to be written: its directory has to
be there, and it must not be a directory itself. -/
def locateForWriting (disk : Disk) (path : String) : Except DiskFault (List String) :=
  match disk.locate path with
  | .ok (names, .file _) => .ok names
  | .ok (_, .directory _) => .error ⟨.isDirectory, path⟩
  | .error .notFound =>
    let (directory, name) := partition (Path.join disk.workingDirectory path)
    if path.isEmpty then .error ⟨.notFound, path⟩
    else if name.isEmpty then .error ⟨.isDirectory, path⟩
    else
      match disk.locate directory with
      | .ok (names, _) => .ok (names ++ [name])
      | .error problem => .error ⟨problem, path⟩
  | .error problem => .error ⟨problem, path⟩

def putFile (disk : Disk) (names : List String) (content : ByteArray) : Disk :=
  { disk with root := disk.root.alter (fun _ => some (.file content)) names }

def write (disk : Disk) (path : String) (content : ByteArray) : Except DiskFault Disk :=
  (disk.locateForWriting path).map (disk.putFile · content)

def append (disk : Disk) (path : String) (content : ByteArray) : Except DiskFault Disk :=
  (disk.locateForWriting path).map fun names =>
    let earlier := match disk.root.find? names with
      | some (.file earlier) => earlier
      | _ => ByteArray.empty
    disk.putFile names (earlier ++ content)

def size (disk : Disk) (path : String) : Nat :=
  match disk.entry? path with
  | some (.file content) => content.size
  | _ => 0

def remove (disk : Disk) (path : String) : Disk :=
  match disk.locate path with
  | .ok (names, _) => { disk with root := disk.root.alter (fun _ => none) names }
  | .error _ => disk

def rename? (disk : Disk) (path target : String) : Option Disk := do
  let (_, entry) ← (disk.locate path).toOption
  let (directory, name) := partition (Path.join disk.workingDirectory target)
  let (names, _) ← (disk.locate directory).toOption
  if disk.isDirectory target ∨ nameLimit < name.utf8ByteSize then none
  else
    let emptied := disk.remove path
    some { emptied with root := emptied.root.alter (fun _ => some entry) (names ++ [name]) }

def ancestry (path : String) : List String :=
  let start := Path.leadingSlashes path
  let components := Path.normalComponents path
  (List.range components.length).map fun count => start ++ "/".intercalate (components.take (count + 1))

/-- Make the directories among some paths that are missing, from the front on,
up to the first fault. Each path is that of a directory in the one before it. A
file in place of a directory is a fault at the next path, or at itself when it
is the last. -/
def makeMissing (disk : Disk) : List String → Disk × Option DiskFault
  | [] => (disk, none)
  | path :: below =>
    match disk.locate path with
    | .ok (_, .directory _) => disk.makeMissing below
    | .ok (_, .file _) =>
      match below with
      | [] => (disk, some ⟨.exists, path⟩)
      | next :: _ => (disk, some ⟨.notDirectory, next⟩)
    | .error .notFound =>
      let made := disk.root.alter (fun entry => some (entry.getD (.directory []))) (Path.normalComponents path)
      { disk with root := made }.makeMissing below
    | .error problem => (disk, some ⟨problem, path⟩)

def makeDirectories (disk : Disk) (path : String) : Disk × Option DiskFault := disk.makeMissing (ancestry path)

end Disk

end ClearNames
