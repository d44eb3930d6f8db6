import ClearNames.Proofs.NameTree.Altering

/-! Growth and obfuscation give no class a path.

Classes are made without a path, and only the search for sources sets one. A
tree that names alone lead to is unlocated and stays so.
-/

set_option autoImplicit false

namespace ClearNames

namespace NameTree
variable {tree later : NameTree}

/-- A tree with its invariants in which no source file was looked for. -/
structure Unlocated (tree : NameTree) : Prop where
  formed : tree.Formed
  bare : ∀ id, (tree.javaClass id).path = none

theorem unlocated_empty : Unlocated empty := ⟨formed_empty, fun _ => rfl⟩

theorem freshClass_path (owner : Scope) (name : String) : (tree.freshClass owner name).path = none := by
  cases owner <;> rfl

theorem path_add {addition : Addition} (grounded : tree.Grounded addition) (id : ClassId) :
    ((tree.add addition).javaClass id).path = (tree.javaClass id).path := by
  cases addition with
  | root name => rfl
  | package parent name => rfl
  | javaClass owner name =>
    simp only [add, javaClass_addClass grounded]
    split
    · next last =>
      rw [javaClass_of_eq_size last, freshClass_path]
      rfl
    · split <;> rfl
  | method owner name returns arguments =>
    simp only [add, javaClass_addMethod grounded.1]
    split
    · next same => rw [same]
    · rfl

theorem Changed.path {descriptors : List String} (changed : Changed descriptors tree later) (id : ClassId) :
    (later.javaClass id).path = (tree.javaClass id).path := by
  induction changed with
  | refl => rfl
  | tail _ change ih =>
    cases change with
    | named named => rw [path_add named.grounded, ih]
    | method grounded => rw [path_add grounded, ih]
    | mark _ samePaths => rw [samePaths, ih]

theorem Unlocated.changed (unlocated : tree.Unlocated) {descriptors : List String}
    (changed : Changed descriptors tree later) : later.Unlocated :=
  ⟨changed.formed unlocated.formed, fun id => (changed.path id).trans (unlocated.bare id)⟩

end NameTree

namespace NameTree.Unlocated
open Growth

/-! ## Steps that leave a tree unlocated -/

section
variable {tree later : NameTree} (unlocated : tree.Unlocated)
include unlocated

theorem resolve {identifier : String} {result : Except NamingFault Scope}
    (ran : (NameTree.resolve identifier).on tree = (result, later)) : later.Unlocated := by
  have changes : Leads (Changed []) (NameTree.resolve identifier) tree _ :=
    resolve_leads (admits_changed_none []) unlocated.formed identifier
  exact unlocated.changed (changes.moved_to ran)

theorem resolveClass {identifier : String} {id : ClassId}
    (ran : (NameTree.resolveClass identifier).on tree = (.ok id, later)) : later.Unlocated ∧ later.HasClass id := by
  have grows : (NameTree.resolveClass identifier).Grows AnyPath tree _ :=
    resolveClass_grows unlocated.formed identifier fun _ _ => trivial
  have changed : Changed [] tree later := (grows.moved_to ran).changed
  exact ⟨unlocated.changed changed, (grows.returns ran).known⟩

theorem aliasScope {identifier obfuscation : String} {scope : Scope}
    (ran : (NameTree.aliasScope identifier obfuscation).on tree = (.ok scope, later)) :
    later.Unlocated ∧ later.HasScope scope := by
  have changes : Leads (Changed []) (NameTree.aliasScope identifier obfuscation) tree _ :=
    aliasScope_leads (admits_changed_none []) unlocated.formed identifier obfuscation
  exact ⟨unlocated.changed (changes.moved_to ran), changes.returns ran⟩

theorem registerMethod {owner : ClassId} (known : tree.HasClass owner) {text obfuscation : String}
    {result : Except NamingFault Registration}
    (ran : (NameTree.registerMethod owner text obfuscation).on tree = (result, later)) : later.Unlocated :=
  unlocated.changed
    ((registerMethod_leads (admits_changed_spelled text) unlocated.formed known obfuscation).moved_to ran)

end

end NameTree.Unlocated

end ClearNames
