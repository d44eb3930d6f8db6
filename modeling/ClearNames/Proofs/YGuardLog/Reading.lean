import ClearNames.Proofs.Steps
import ClearNames.YGuardLog.Reader

/-! What reading one element of an XML log does to the tree.

An entry that is read to its end gives a package or a class an obfuscation,
registers a method with a class, or is passed over; an exposed class is only
resolved. A law of a whole log is by the cases of `Entered`.
-/

set_option autoImplicit false

namespace ClearNames

namespace YGuardLog
open NameTree

/-- What an entry that was read to its end did to the tree. -/
inductive Entered (entry : Xml.Element) (before after : NameTree) : Prop
  | package {name obfuscation : String} {scope : Scope} (kind : entry.name = "package")
      (named : entry.attributeValue? "name" = some name) (mapped : entry.attributeValue? "map" = some obfuscation)
      (solid : obfuscation ≠ "") (ran : (aliasScope name obfuscation).on before = (.ok scope, after))
  | javaClass {name obfuscation : String} {scope : Scope} (kind : entry.name = "class")
      (named : entry.attributeValue? "name" = some name) (mapped : entry.attributeValue? "map" = some obfuscation)
      (solid : obfuscation ≠ "")
      (ran : (aliasScope name (before.innerObfuscation name obfuscation)).on before = (.ok scope, after))
  | method {text obfuscation className : String} {owner : ClassId} {id : MethodId} {between : NameTree}
      (kind : entry.name = "method") (resolved : (resolveClass className).on before = (.ok owner, between))
      (registered : (registerMethod owner text obfuscation).on between = (.ok (.registered id), after))
  | passed (kind : entry.name ≠ "package" ∧ entry.name ≠ "class" ∧ entry.name ≠ "method") (same : after = before)

section
variable {element : Xml.Element} {before after : ReadingState}

theorem on_required_bind_eq_ok {α : Type} {name : String} {next : String → Reading α} {result : α}
    (ran : (required element name >>= next).on before = (.ok result, after)) :
    ∃ value, element.attributeValue? name = some value ∧ value ≠ "" ∧ (next value).on before = (.ok result, after) := by
  obtain ⟨value, between, given, rest⟩ := Reading.on_bind_eq_ok ran
  unfold required at given
  split at given
  · next found =>
    split at given
    · cases given
    · next solid =>
      cases given
      exact ⟨_, found, by simpa using solid, rest⟩
  · cases given

theorem readPackage_entered (kind : element.name = "package")
    (ran : (readPackage element).on before = (.ok (), after)) : Entered element before.tree after.tree := by
  obtain ⟨name, named, -, rest⟩ := on_required_bind_eq_ok ran
  obtain ⟨obfuscation, mapped, solid, rest⟩ := on_required_bind_eq_ok rest
  obtain ⟨scope, between, grown, ends⟩ := Reading.on_bind_eq_ok rest
  cases ends
  exact .package kind named mapped solid (Reading.on_grow_eq_ok grown)

theorem readClass_entered (kind : element.name = "class")
    (ran : (readClass element).on before = (.ok (), after)) : Entered element before.tree after.tree := by
  obtain ⟨name, named, -, rest⟩ := on_required_bind_eq_ok ran
  obtain ⟨obfuscation, mapped, solid, rest⟩ := on_required_bind_eq_ok rest
  rw [Reading.on_get_bind] at rest
  obtain ⟨scope, between, grown, ends⟩ := Reading.on_bind_eq_ok rest
  cases ends
  exact .javaClass kind named mapped solid (Reading.on_grow_eq_ok grown)

theorem readMethod_entered (kind : element.name = "method")
    (ran : (readMethod element).on before = (.ok (), after)) : Entered element before.tree after.tree := by
  obtain ⟨text, -, -, rest⟩ := on_required_bind_eq_ok ran
  obtain ⟨obfuscation, -, -, rest⟩ := on_required_bind_eq_ok rest
  obtain ⟨className, -, -, rest⟩ := on_required_bind_eq_ok rest
  obtain ⟨owner, resolvedState, resolved, rest⟩ := Reading.on_bind_eq_ok rest
  obtain ⟨outcome, registeredState, registered, ends⟩ := Reading.on_bind_eq_ok rest
  cases outcome with
  | registered id =>
    cases ends
    exact .method kind (Reading.on_grow_eq_ok resolved) (Reading.on_grow_eq_ok registered)
  | duplicate holder => cases ends

theorem readEntry_entered {counts next : Counts} (ran : (readEntry counts element).on before = (.ok next, after)) :
    Entered element before.tree after.tree := by
  unfold readEntry at ran
  split at ran
  · next isPackage =>
    obtain ⟨_, _, read, ends⟩ := Reading.on_bind_eq_ok ran
    cases ends
    exact readPackage_entered isPackage read
  · next isClass =>
    obtain ⟨_, _, read, ends⟩ := Reading.on_bind_eq_ok ran
    cases ends
    exact readClass_entered isClass read
  · next isMethod =>
    obtain ⟨_, _, read, ends⟩ := Reading.on_bind_eq_ok ran
    cases ends
    exact readMethod_entered isMethod read
  · next noPackage noClass noMethod =>
    cases ran
    exact .passed ⟨noPackage, noClass, noMethod⟩ rfl

theorem readExposed_resolves {counts next : Counts}
    (ran : (readExposed counts element).on before = (.ok next, after)) :
    ∃ name scope, (resolve name).on before.tree = (.ok scope, after.tree) := by
  obtain ⟨name, -, -, rest⟩ := on_required_bind_eq_ok ran
  obtain ⟨scope, between, grown, ends⟩ := Reading.on_bind_eq_ok rest
  cases ends
  exact ⟨name, scope, Reading.on_grow_eq_ok grown⟩

end

end YGuardLog

end ClearNames
