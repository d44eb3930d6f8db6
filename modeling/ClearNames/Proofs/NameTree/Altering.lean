import ClearNames.Proofs.NameTree.Changes

/-! The changes that operations by name come to.

Whatever such an operation does, and also where it fails, it takes a tree
through changes of one node each: a node is made where none is entered, or a
node is marked. It never replaces an entry.
-/

set_option autoImplicit false

namespace ClearNames

namespace NameTree

/-- One change that operations by name make. -/
inductive Alteration (tree : NameTree) : NameTree → Prop where
  | named {fits : List String → Prop} {addition : Addition} (named : Named fits tree addition) :
      Alteration tree (tree.add addition)
  | method {owner : ClassId} {name : String} {returns : TypeUse} {arguments : List TypeUse}
      (grounded : tree.Grounded (.method owner name returns arguments))
      (vacant : tree.Vacant (.method owner name returns arguments)) :
      Alteration tree (tree.add (.method owner name returns arguments))
  | mark {later : NameTree} (mark : Mark tree later) : Alteration tree later

abbrev Altered : NameTree → NameTree → Prop := Relation.ReflTransGen Alteration

section
variable {tree later : NameTree}

theorem Alteration.edit (alteration : Alteration tree later) : Edit tree later := by
  cases alteration with
  | named named => exact .add named.grounded
  | method grounded _ => exact .add grounded
  | mark mark => exact .mark mark

theorem Altered.formed (altered : Altered tree later) (formed : tree.Formed) : later.Formed := by
  induction altered with
  | refl => exact formed
  | tail _ alteration ih => exact ih.edit alteration.edit

theorem Altered.keeps (altered : Altered tree later) : tree.Keeps later := by
  induction altered with
  | refl => exact .refl tree
  | tail _ alteration ih => exact ih.trans alteration.edit.extends.keeps

theorem Grown.altered {fits : List String → Prop} (grown : Grown fits tree later) : Altered tree later := by
  induction grown with
  | refl => exact .refl
  | add _ named ih => exact ih.tail (.named named)

theorem Change.alteration {descriptors : List String} (change : Change descriptors tree later) :
    Alteration tree later := by
  cases change with
  | named named => exact .named named
  | method grounded vacant _ => exact .method grounded vacant
  | mark mark _ => exact .mark mark

theorem Changed.altered {descriptors : List String} (changed : Changed descriptors tree later) :
    Altered tree later := Relation.ReflTransGen.mono (fun _ _ => Change.alteration) _ _ changed

theorem admits_altered (asked : Option Signature) : Admits Altered asked where
  keeps := Altered.keeps
  formed := Altered.formed
  grown := Grown.altered
  mark mark _ := .single (.mark mark)
  method _ grounded vacant _ _ := .single (.method grounded vacant)

end

end NameTree

namespace Growth
open NameTree

variable {tree : NameTree}

section
variable {owner : ClassId} {signature : Signature} {arguments : List TypeUse}

theorem on_findOrAddMethod_of_found {id : MethodId}
    (found : tree.findMethod owner signature.name arguments = some id) :
    (findOrAddMethod owner signature arguments).on tree = (.ok id, tree) := by
  unfold findOrAddMethod
  rw [on_get_bind, found]
  rfl

theorem on_findOrAddMethod_of_missing {returns : TypeUse} {between : NameTree}
    (missing : tree.findMethod owner signature.name arguments = none)
    (resolved : (resolveType signature.returns).on tree = (.ok returns, between)) :
    (findOrAddMethod owner signature arguments).on tree =
      (.ok ⟨between.methods.size⟩, between.add (.method owner signature.name returns arguments)) := by
  unfold findOrAddMethod
  rw [on_get_bind, missing]
  exact on_bind_of_ok resolved _

end

theorem aliasScope_alters (formed : tree.Formed) (identifier obfuscation : String) :
    Leads Altered (aliasScope identifier obfuscation) tree fun _ _ => True := by
  have leads : Leads Altered (aliasScope identifier obfuscation) tree _ :=
    aliasScope_leads (admits_altered none) formed identifier obfuscation
  exact leads.imp fun _ _ _ _ => trivial

theorem registerMethod_alters {owner : ClassId} (formed : tree.Formed) (known : tree.HasClass owner)
    (text obfuscation : String) :
    Leads Altered (registerMethod owner text obfuscation) tree fun _ _ => True :=
  registerMethod_leads (admits_altered _) formed known obfuscation

end Growth

end ClearNames
