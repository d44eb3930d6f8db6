import ClearNames.Journal.Record
import ClearNames.NameTree.Obfuscation
import ClearNames.RenameLog.Fault

/-! Reading a rename log: a tree that grows, and the records written meanwhile. -/

set_option autoImplicit false

namespace ClearNames

structure ReadingState where
  tree : NameTree
  records : List Record
  deriving Repr

/-- A step of reading; what it did to the state stays when it fails. -/
abbrev Reading (α : Type) := ExceptT RenameLogFault (StateM ReadingState) α

structure ReadingResult where
  outcome : Except RenameLogFault NameTree
  records : List Record

namespace Reading

def note (record : Record) : Reading Unit :=
  modify fun state => { state with records := state.records ++ [record] }

def grow {α : Type} (step : Growth α) : Reading α := do
  let state ← get
  let (result, tree) := step.on state.tree
  set { state with tree }
  match result with
  | .ok value => pure value
  | .error fault => throw (.naming fault)

def result (reading : Reading Unit) : ReadingResult :=
  let (outcome, state) := (reading.run.run ⟨.empty, []⟩ : Id _).run
  ⟨outcome.map fun _ => state.tree, state.records⟩

end Reading

end ClearNames
