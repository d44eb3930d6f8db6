import ClearNames.Proofs.NameTree.Natural

/-! Which full names a tree holds.

Growth by a name makes the nodes on the way from the root to the node of the
name where they are missing, and no others. Resolving a type does so for its
base, and makes nothing for a primitive.
-/

set_option autoImplicit false

namespace ClearNames

namespace NameTree

def HoldsPath (tree : NameTree) (path : List String) : Prop :=
  ∃ scope, tree.HasScope scope ∧ tree.scopeSegments scope = path

/-- The full names of the node of a name and of those around it. -/
def OnWay (name : String) (path : List String) : Prop := path ≠ [] ∧ path <+: segments name

/-- The full names of the nodes that a type needs. -/
def OnTypeWay (descriptor : String) (path : List String) : Prop :=
  Primitive.named? (Descriptor.ofString descriptor).base = none ∧ OnWay (Descriptor.ofString descriptor).base path

section
variable {tree later : NameTree} {path : List String}

theorem Founded.holdsPath_front (founded : tree.Founded) (held : tree.HoldsPath path) {part : List String}
    (nonempty : part ≠ []) (front : part <+: path) : tree.HoldsPath part := by
  obtain ⟨scope, known, rfl⟩ := held
  refine founded.owner_induction (motive := fun scope => part <+: tree.scopeSegments scope → tree.HoldsPath part)
    (fun scope known above front => ?_) known front
  have split := founded.scopeSegments_eq known
  rw [split] at front
  rcases List.prefix_concat_iff.mp front with whole | inside
  · exact ⟨scope, known, split.trans whole.symm⟩
  · cases owned : tree.ownerOf scope with
    | none =>
      rw [owned] at inside
      exact absurd (List.prefix_nil.mp inside) nonempty
    | some owner =>
      rw [owned] at inside
      exact above owner owned inside

theorem Keeps.holdsPath (keeps : tree.Keeps later) (founded : tree.Founded) (held : tree.HoldsPath path) :
    later.HoldsPath path := by
  obtain ⟨scope, known, rfl⟩ := held
  exact ⟨scope, keeps.hasScope known, keeps.scopeSegments founded known⟩

theorem Keeps.holdsPath_iff (keeps : tree.Keeps later) (founded : tree.Founded)
    (scopes : ∀ {scope}, later.HasScope scope → tree.HasScope scope) : later.HoldsPath path ↔ tree.HoldsPath path := by
  refine ⟨?_, keeps.holdsPath founded⟩
  rintro ⟨scope, known, rfl⟩
  exact ⟨scope, scopes known, (keeps.scopeSegments founded (scopes known)).symm⟩

theorem Alike.holdsPath (alike : tree.Alike later) (founded : tree.Founded) :
    later.HoldsPath path ↔ tree.HoldsPath path := alike.keeps.holdsPath_iff founded alike.hasScope.mp

theorem holdsPath_addMethod {owner : ClassId} {name : String} {returns : TypeUse} {arguments : List TypeUse}
    (founded : tree.Founded) (grounded : tree.Grounded (.method owner name returns arguments)) :
    (tree.add (.method owner name returns arguments)).HoldsPath path ↔ tree.HoldsPath path :=
  (keeps_add grounded).holdsPath_iff founded hasScope_of_addMethod

theorem Spells.holdsPath (founded : tree.Founded) {descriptor : String} {type : TypeUse}
    (spells : tree.Spells descriptor type) (onWay : OnTypeWay descriptor path) : tree.HoldsPath path := by
  obtain ⟨unnamed, nonempty, front⟩ := onWay
  obtain ⟨primitive | scope, dimension⟩ := type
  · have named : Primitive.named? (Descriptor.ofString descriptor).base = some primitive := spells.1
    rw [unnamed] at named
    cases named
  · obtain ⟨⟨-, known, full⟩, -⟩ := spells
    exact founded.holdsPath_front ⟨scope, known, full⟩ nonempty front

end

end NameTree

/-! ## Growth -/

namespace Growth
open NameTree

section
variable {tree later : NameTree}

theorem resolve_holds (formed : tree.Formed) {name : String} {scope : Scope}
    (ran : (resolve name).on tree = (.ok scope, later)) (path : List String) :
    later.HoldsPath path ↔ tree.HoldsPath path ∨ OnWay name path := by
  have grows : (resolve name).Grows (fun part => tree.HoldsPath part ∨ part <+: segments name) tree _ :=
    resolve_grows formed name fun _ front => .inr front
  have grown := grows.moved_to ran
  have founded := (grown.formed formed).founded
  have reached := grows.returns ran
  constructor
  · rintro ⟨other, known, rfl⟩
    -- Whatever is new stands on the way to the name.
    refine (grown.fits_all formed (fun {old} there => .inl ⟨old, there, rfl⟩) known).imp_right fun front => ?_
    exact ⟨later.scopeSegments_ne_nil other, front⟩
  · rintro (held | ⟨nonempty, front⟩)
    · exact grown.keeps.holdsPath formed.founded held
    · exact founded.holdsPath_front ⟨scope, reached.known, reached.segments⟩ nonempty front

theorem resolveType_holds (formed : tree.Formed) {descriptor : String} {type : TypeUse}
    (ran : (resolveType descriptor).on tree = (.ok type, later)) (path : List String) :
    later.HoldsPath path ↔ tree.HoldsPath path ∨ OnTypeWay descriptor path := by
  obtain ⟨base, between, resolved, ends⟩ := on_bind_eq_ok ran
  cases ends
  unfold resolveBase at resolved
  unfold OnTypeWay
  cases named : Primitive.named? (Descriptor.ofString descriptor).base with
  | some primitive =>
    rw [named] at resolved
    cases resolved
    simp
  | none =>
    rw [named] at resolved
    obtain ⟨scope, reached, -⟩ := on_map_eq_ok resolved
    simpa using resolve_holds formed reached path

end

theorem resolveTypes_holds {descriptors : List String} {types : List TypeUse} {tree later : NameTree}
    (formed : tree.Formed) (ran : (resolveTypes descriptors).on tree = (.ok types, later)) (path : List String) :
    later.HoldsPath path ↔ tree.HoldsPath path ∨ ∃ descriptor ∈ descriptors, OnTypeWay descriptor path := by
  induction descriptors generalizing tree types with
  | nil =>
    cases ran
    simp
  | cons descriptor rest ih =>
    unfold resolveTypes at ran
    obtain ⟨type, between, first, others⟩ := on_bind_eq_ok ran
    obtain ⟨more, _, resolved, ends⟩ := on_bind_eq_ok others
    cases ends
    have grown := (resolveType_grows_any formed descriptor).moved_to first
    rw [ih (grown.formed formed) resolved, resolveType_holds formed first, or_assoc]
    simp

end Growth

end ClearNames
