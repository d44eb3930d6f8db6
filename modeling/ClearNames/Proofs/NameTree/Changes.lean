import ClearNames.Proofs.NameTree.Resolution
import Mathlib.Logic.Relation

/-! What a request by names changes in a tree.

Whatever such a request does, and also where it fails, it takes a tree through
changes of one node each: a node is made where none is entered, or is given an
obfuscation. The methods that it makes are as its signature spells them, and no
class is given a path. Any way to move that admits these changes is one that
requests move in.
-/

set_option autoImplicit false

namespace ClearNames

namespace NameTree

/-- One change that a request makes which spells given argument types. -/
inductive Change (descriptors : List String) (tree : NameTree) : NameTree → Prop where
  | named {addition : Addition} (named : Named AnyPath tree addition) : Change descriptors tree (tree.add addition)
  | method {owner : ClassId} {name : String} {returns : TypeUse} {arguments : List TypeUse}
      (grounded : tree.Grounded (.method owner name returns arguments))
      (vacant : tree.Vacant (.method owner name returns arguments))
      (spelled : List.Forall₂ tree.Spells descriptors arguments) :
      Change descriptors tree (tree.add (.method owner name returns arguments))
  | mark {later : NameTree} (mark : Mark tree later)
      (samePaths : ∀ id, (later.javaClass id).path = (tree.javaClass id).path) : Change descriptors tree later

abbrev Changed (descriptors : List String) : NameTree → NameTree → Prop := Relation.ReflTransGen (Change descriptors)

def HoldsReference (tree : NameTree) : ClassReference → Prop
  | .node id => tree.HasClass id
  | .named _ => True

section
variable {descriptors : List String} {tree later : NameTree}

theorem Change.edit (change : Change descriptors tree later) : Edit tree later := by
  cases change with
  | named named => exact .add named.grounded
  | method grounded _ _ => exact .add grounded
  | mark mark _ => exact .mark mark

theorem Changed.formed (changed : Changed descriptors tree later) (formed : tree.Formed) : later.Formed := by
  induction changed with
  | refl => exact formed
  | tail _ change ih => exact ih.edit change.edit

theorem Changed.keeps (changed : Changed descriptors tree later) : tree.Keeps later := by
  induction changed with
  | refl => exact .refl tree
  | tail _ change ih => exact ih.trans change.edit.extends.keeps

theorem Grown.changed (grown : Grown AnyPath tree later) : Changed descriptors tree later := by
  induction grown with
  | refl => exact .refl
  | add _ named ih => exact ih.tail (.named named)

end

/-- A way to move between trees that admits what a request for the method of a
signature does: growth by names, an obfuscation that is recorded, and the method
made as the signature spells it. -/
structure Admits (moves : NameTree → NameTree → Prop) (asked : Option Signature) : Prop where
  keeps : ∀ {tree later}, moves tree later → tree.Keeps later
  formed : ∀ {tree later}, moves tree later → tree.Formed → later.Formed
  grown : ∀ {tree later}, Grown AnyPath tree later → moves tree later
  mark : ∀ {tree later}, Mark tree later → (∀ id, (later.javaClass id).path = (tree.javaClass id).path) →
    moves tree later
  method : ∀ {tree signature owner returns arguments}, signature ∈ asked →
    tree.Grounded (.method owner signature.name returns arguments) →
    tree.Vacant (.method owner signature.name returns arguments) → tree.Spells signature.returns returns →
    List.Forall₂ tree.Spells signature.arguments arguments →
    moves tree (tree.add (.method owner signature.name returns arguments))

theorem admits_changed {asked : Option Signature} {descriptors : List String}
    (spelled : ∀ signature ∈ asked, signature.arguments = descriptors) : Admits (Changed descriptors) asked where
  keeps := Changed.keeps
  formed := Changed.formed
  grown := Grown.changed
  mark mark samePaths := .single (.mark mark samePaths)
  method {_ signature _ _ _} given grounded vacant _ argued := by
    rw [spelled signature given] at argued
    exact .single (.method grounded vacant argued)

theorem admits_changed_none (descriptors : List String) : Admits (Changed descriptors) none :=
  admits_changed fun _ given => by cases given

end NameTree

namespace Growth
open NameTree

variable {tree : NameTree}

theorem readSignature_leads {moves : NameTree → NameTree → Prop} [Std.Refl moves] (text : String) :
    Leads moves (readSignature text) tree fun signature later =>
      Signature.parse? text = some signature ∧ later = tree := by
  unfold readSignature
  cases parsed : Signature.parse? text with
  | none => exact .throw _
  | some signature => exact .pure ⟨rfl, rfl⟩

/-- The argument types that a signature spells; text that is no signature spells none. -/
def spelledTypes (text : String) : List String := ((Signature.parse? text).map Signature.arguments).getD []

theorem admits_changed_spelled (text : String) : Admits (Changed (spelledTypes text)) (Signature.parse? text) :=
  admits_changed fun signature parsed => by simp [spelledTypes, Option.mem_def.mp parsed]

/-- What a registration does once the types of the arguments are resolved. -/
def recordMethod (owner : ClassId) (signature : Signature) (arguments : List TypeUse) (obfuscation : String) :
    Growth Registration := do
  match (← get).otherHolder owner signature.name obfuscation arguments with
  | some holder => pure (.duplicate holder)
  | none =>
    let id ← findOrAddMethod owner signature arguments
    obfuscateMethod id (some obfuscation)
    pure (.registered id)

theorem registerMethod_eq (owner : ClassId) (text obfuscation : String) :
    registerMethod owner text obfuscation = (readSignature text >>= fun signature =>
      resolveTypes signature.arguments >>= fun arguments =>
        recordMethod owner signature arguments obfuscation) := rfl

theorem path_putClassObfuscation {id : ClassId} (known : tree.HasClass id) (obfuscation : Option String)
    (other : ClassId) :
    ((tree.putClassObfuscation id obfuscation).javaClass other).path = (tree.javaClass other).path := by
  simp only [putClassObfuscation, javaClass_updateClass known]
  split
  · next same => rw [same]
  · rfl

theorem resolveReference_grows (formed : tree.Formed) {reference : ClassReference}
    (held : tree.HoldsReference reference) :
    (resolveReference reference).Grows AnyPath tree fun id later =>
      later.HasClass id ∧ (tree.HasClass id → later = tree) := by
  cases reference with
  | node id => exact .pure ⟨held, fun _ => rfl⟩
  | named identifier =>
    exact (resolveClass_grows formed identifier fun _ _ => trivial).imp fun id later _ reached =>
      ⟨reached.known, reached.settled⟩

/-! ## Requests move in every way that admits them -/

section
variable {moves : NameTree → NameTree → Prop} {asked : Option Signature}

/-! ### Obfuscations -/

section
variable (admits : Admits moves asked)
include admits

theorem resolve_leads (formed : tree.Formed) (identifier : String) :
    Leads moves (resolve identifier) tree fun scope later => later.HasScope scope := by
  have grows : (resolve identifier).Grows AnyPath tree _ := resolve_grows formed identifier fun _ _ => trivial
  exact (grows.mono admits.grown).imp fun _ _ _ reached => reached.known

theorem obfuscateClass_leads {id : ClassId} (known : tree.HasClass id) (obfuscation : Option String) :
    Leads moves (obfuscateClass id obfuscation) tree fun _ _ => True :=
  .modifyGet (admits.mark (.javaClass known (marks_obfuscation obfuscation))
    (path_putClassObfuscation known obfuscation)) trivial

variable [Std.Refl moves]

theorem obfuscatePackage_leads {id : PackageId} (known : tree.HasPackage id) (obfuscation : Option String) :
    Leads moves (obfuscatePackage id obfuscation) tree fun _ _ => True := by
  unfold obfuscatePackage
  apply Leads.get
  split
  · exact .throw _
  · next free =>
    refine .set (admits.mark (.package known ?_) fun _ => rfl) trivial
    rintro text rfl
    simpa using free

theorem obfuscateScope_leads {scope : Scope} (known : tree.HasScope scope) (obfuscation : Option String) :
    Leads moves (obfuscateScope scope obfuscation) tree fun _ _ => True := by
  cases scope with
  | package id => exact obfuscatePackage_leads admits known obfuscation
  | javaClass id => exact obfuscateClass_leads admits known obfuscation

theorem obfuscateMethod_leads {id : MethodId} (known : tree.HasMethod id) (obfuscation : Option String) :
    Leads moves (obfuscateMethod id obfuscation) tree fun _ _ => True := by
  unfold obfuscateMethod
  apply Leads.get
  split
  · exact .throw _
  · next free =>
    refine .set (admits.mark (.method known ?_) fun _ => rfl) trivial
    rintro text rfl
    simpa using free

variable [Trans moves moves moves]

theorem aliasScope_leads (formed : tree.Formed) (identifier obfuscation : String) :
    Leads moves (aliasScope identifier obfuscation) tree fun scope later => later.HasScope scope := by
  unfold aliasScope
  refine (resolve_leads admits formed identifier).bind fun scope between _ known => ?_
  refine (obfuscateScope_leads admits known _).bind fun _ _ moved _ => ?_
  exact .pure ((admits.keeps moved).hasScope known)

/-! ### Methods -/

theorem findOrAddMethod_leads {owner : ClassId} {signature : Signature} {arguments : List TypeUse}
    (given : signature ∈ asked) (formed : tree.Formed) (known : tree.HasClass owner)
    (spelled : List.Forall₂ tree.Spells signature.arguments arguments) :
    Leads moves (findOrAddMethod owner signature arguments) tree fun id later => later.HasMethod id := by
  have finds : Leads moves (findOrAddMethod owner signature arguments) tree _ :=
    findOrAddMethod_leads_of formed known (hasType_of_spelled spelled) (fun _ _ => trivial) admits.grown
      fun grown spells grounded vacant =>
        admits.method given grounded vacant spells (spelled.imp fun _ _ => grown.keeps.spells formed.founded)
  exact finds.imp fun _ _ _ found => found.1

theorem recordMethod_leads {owner : ClassId} {signature : Signature} {arguments : List TypeUse}
    (given : signature ∈ asked) (formed : tree.Formed) (known : tree.HasClass owner)
    (spelled : List.Forall₂ tree.Spells signature.arguments arguments) (obfuscation : String) :
    Leads moves (recordMethod owner signature arguments obfuscation) tree fun _ _ => True := by
  unfold recordMethod
  apply Leads.get
  split
  · exact .pure trivial
  · refine (findOrAddMethod_leads admits given formed known spelled).bind fun id later _ made => ?_
    refine (obfuscateMethod_leads admits made _).bind fun _ _ _ _ => ?_
    exact .pure trivial

end

section
variable [Std.Refl moves] [Trans moves moves moves] {text : String} (admits : Admits moves (Signature.parse? text))
include admits

theorem argued_leads {α : Type} {next : Signature → List TypeUse → Growth α} {post : α → NameTree → Prop}
    (formed : tree.Formed)
    (rest : ∀ signature ∈ Signature.parse? text, ∀ arguments between, between.Formed → tree.Keeps between →
      List.Forall₂ between.Spells signature.arguments arguments →
      Leads moves (next signature arguments) between post) :
    Leads moves
      (readSignature text >>= fun signature =>
        resolveTypes signature.arguments >>= fun arguments => next signature arguments) tree post := by
  refine (readSignature_leads text).bind fun signature between _ read => ?_
  obtain ⟨parsed, rfl⟩ := read
  refine ((resolveTypes_grows_any formed _).mono admits.grown).bind fun arguments later moved holds => ?_
  exact rest signature parsed arguments later (admits.formed moved formed) (admits.keeps moved) holds.1

theorem resolveMethod_leads {owner : ClassId} (formed : tree.Formed) (known : tree.HasClass owner) :
    Leads moves (resolveMethod owner text) tree fun id later => later.HasMethod id :=
  argued_leads admits formed fun _ given _ _ formed keeps spelled =>
    findOrAddMethod_leads admits given formed (keeps.hasClass known) spelled

theorem registerMethod_leads {owner : ClassId} (formed : tree.Formed) (known : tree.HasClass owner)
    (obfuscation : String) : Leads moves (registerMethod owner text obfuscation) tree fun _ _ => True := by
  rw [registerMethod_eq]
  exact argued_leads admits formed fun _ given _ _ formed keeps spelled =>
    recordMethod_leads admits given formed (keeps.hasClass known) spelled obfuscation

theorem aliasMethod_leads {owner : ClassId} (formed : tree.Formed) (known : tree.HasClass owner)
    (obfuscation : String) : Leads moves (aliasMethod owner text obfuscation) tree fun _ _ => True := by
  unfold aliasMethod
  refine (registerMethod_leads admits formed known obfuscation).bind fun outcome between _ _ => ?_
  cases outcome with
  | registered id => exact .pure trivial
  | duplicate holder => exact .get (.throw _)

variable {reference : ClassReference} (formed : tree.Formed) (held : tree.HoldsReference reference)
include formed held

theorem registerMethodOf_leads (obfuscation : String) :
    Leads moves (registerMethodOf reference text obfuscation) tree fun _ _ => True := by
  unfold registerMethodOf
  refine ((resolveReference_grows formed held).mono admits.grown).bind fun owner between moved found => ?_
  exact registerMethod_leads admits (admits.formed moved formed) found.1 obfuscation

theorem aliasMethodOf_leads (obfuscation : String) :
    Leads moves (aliasMethodOf reference text obfuscation) tree fun _ _ => True := by
  unfold aliasMethodOf
  refine ((resolveReference_grows formed held).mono admits.grown).bind fun owner between moved found => ?_
  exact aliasMethod_leads admits (admits.formed moved formed) found.1 obfuscation

end

end

end Growth

end ClearNames
