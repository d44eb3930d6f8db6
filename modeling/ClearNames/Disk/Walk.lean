import ClearNames.Disk.Basic

/-! The files below a directory, in a fixed order.

The files of a directory come before those of the directories inside it, each
kind in the order of code points. Directories whose name begins with a dot are
not entered; files of such a name are listed.
-/

set_option autoImplicit false

namespace ClearNames

def isHidden (name : String) : Bool := name.toList.head? == some '.'

mutual

def DiskEntry.sourceFiles : DiskEntry → List (List String)
  | .file _ => []
  | .directory entries =>
    let listed := DiskEntry.listings entries
    let inOrder := listed.mergeSort fun left right => left.1 ≤ right.1
    let files := inOrder.filterMap fun (name, below) => if below.isNone then some [name] else none
    let inner := inOrder.flatMap fun (name, below) =>
      if isHidden name then [] else (below.getD []).map (name :: ·)
    files ++ inner

def DiskEntry.listings : List (String × DiskEntry) → List (String × Option (List (List String)))
  | [] => []
  | (name, .file _) :: rest => (name, none) :: DiskEntry.listings rest
  | (name, .directory entries) :: rest =>
    (name, some (DiskEntry.sourceFiles (.directory entries))) :: DiskEntry.listings rest

end

/-- The paths of the files below a directory, relative to it; none where there
is no such directory. -/
def Disk.sourceFiles (disk : Disk) (directory : String) : Except DiskFault (List String) :=
  let path := Path.absolute disk.workingDirectory directory
  match disk.locate path with
  | .ok (_, entry) => .ok (entry.sourceFiles.map "/".intercalate)
  | .error .nullCharacter => .error ⟨.nullCharacter, path⟩
  | .error _ => .ok []

end ClearNames
