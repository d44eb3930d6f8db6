import ClearNames.RenameLog.Reading
import ClearNames.Xml.Reader
import ClearNames.YGuardLog.InnerClass

/-! Reading a rename log as yGuard writes it.

    <yguard version="1.5">
      <expose>
        <class name="com.foo.Main"/>
      </expose>
      <map>
        <package name="com.foo.util" map="A"/>
        <class name="com.foo.util.Helper" map="B"/>
        <method class="com.foo.util.Helper" name="void run(int[])" map="C"/>
      </map>
    </yguard>

The entries of all `map` sections come first, then the classes of all `expose`
sections, which keep their names. A `map` attribute holds the obfuscation of
the last name segment. A method whose obfuscation is taken is a fault.
-/

set_option autoImplicit false

namespace ClearNames.YGuardLog

structure Counts where
  packages : Nat
  classes : Nat
  methods : Nat
  exposed : Nat
  deriving DecidableEq, Repr

/-- The sections of a name directly inside `yguard` elements at any depth. -/
def sections (root : Xml.Element) (name : String) : List Xml.Element :=
  (root.allNamed "yguard").flatMap (·.childrenNamed name)

def required (element : Xml.Element) (name : String) : Reading String :=
  match element.attributeValue? name with
  | some value =>
    if value.isEmpty then throw (.missingAttribute element.name name) else pure value
  | none => throw (.missingAttribute element.name name)

def readPackage (element : Xml.Element) : Reading Unit := do
  let name ← required element "name"
  let obfuscation ← required element "map"
  let _ ← Reading.grow (NameTree.aliasScope name obfuscation)

def readClass (element : Xml.Element) : Reading Unit := do
  let name ← required element "name"
  let obfuscation ← required element "map"
  let state ← get
  let _ ← Reading.grow (NameTree.aliasScope name (state.tree.innerObfuscation name obfuscation))

/-- Record the obfuscation of a method; a duplicate is noted before it is a fault. -/
def readMethod (element : Xml.Element) : Reading Unit := do
  let name ← required element "name"
  let obfuscation ← required element "map"
  let className ← required element "class"
  let owner ← Reading.grow (NameTree.resolveClass className)
  match ← Reading.grow (NameTree.registerMethod owner name obfuscation) with
  | .registered _ => pure ()
  | .duplicate holder =>
    let state ← get
    Reading.note (.of .debug .nameTree (state.tree.duplicateNote owner name obfuscation holder))
    throw (.naming (state.tree.duplicateFault owner name obfuscation holder))

/-- Take up an entry of a `map` section; elements of other names are passed over. -/
def readEntry (counts : Counts) (element : Xml.Element) : Reading Counts := do
  match element.name with
  | "package" =>
    readPackage element
    pure { counts with packages := counts.packages + 1 }
  | "class" =>
    readClass element
    pure { counts with classes := counts.classes + 1 }
  | "method" =>
    readMethod element
    pure { counts with methods := counts.methods + 1 }
  | _ => pure counts

def readExposed (counts : Counts) (element : Xml.Element) : Reading Counts := do
  let name ← required element "name"
  let _ ← Reading.grow (NameTree.resolve name)
  pure { counts with exposed := counts.exposed + 1 }

def summary (counts : Counts) : Record :=
  .of .info .renameXml ("Parsed yGuard log: " ++ toString counts.packages ++ " packages, " ++
    toString counts.classes ++ " classes, " ++ toString counts.methods ++ " methods, " ++
    toString counts.exposed ++ " exposed classes")

def readDocument (root : Xml.Element) : Reading Unit := do
  let counts ← ((sections root "map").flatMap (·.children)).foldlM readEntry ⟨0, 0, 0, 0⟩
  let counts ← ((sections root "expose").flatMap (·.childrenNamed "class")).foldlM readExposed counts
  Reading.note (summary counts)

def malformed : String := "not a well-formed document"

def readBytes (path : LooseText) (bytes : ByteArray) : Reading Unit :=
  match Xml.read bytes.toList with
  | .ok root => readDocument root
  | .error .malformed => throw (.malformedXml path malformed)
  | .error (.encoding fault) => throw (.encoding fault)

end ClearNames.YGuardLog
