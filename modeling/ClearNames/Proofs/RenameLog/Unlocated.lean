import ClearNames.Proofs.Mapping.Reading
import ClearNames.Proofs.NameTree.Unlocated
import ClearNames.Proofs.YGuardLog.Reading
import ClearNames.RenameLog.Basic

/-! A rename log of either format gives a tree with its invariants and without paths.

Each line of a mapping and each entry of an XML log grows the tree by a step of
names and obfuscations, or leaves it.
-/

set_option autoImplicit false

namespace ClearNames

open NameTree

/-! ## Mappings -/

namespace Mapping

def UnlocatedTo (current : Option Scope) (tree : NameTree) : Prop :=
  tree.Unlocated ∧ ∀ scope, current = some scope → tree.HasScope scope

theorem UnlocatedTo.takeUp {current next : Option Scope} {line : List Char} {tree grown : NameTree}
    (unlocated : UnlocatedTo current tree) (ran : (takeUp current line).on tree = (.ok next, grown)) :
    UnlocatedTo next grown := by
  obtain ⟨unlocated, known⟩ := unlocated
  rcases takeUp_eq_ok ran with ⟨-, rfl, rfl⟩ | ⟨shape, -, performed⟩
  · exact ⟨unlocated, known⟩
  · cases performed with
    | field => exact ⟨unlocated, known⟩
    | aside outside => exact ⟨unlocated, known⟩
    | javaClass aliased =>
      obtain ⟨later, there⟩ := unlocated.aliasScope aliased
      exact ⟨later, fun _ same => Option.some.inj same ▸ there⟩
    | @method owner range text obfuscation outcome _ _ registered =>
      have there : tree.HasClass owner := known _ rfl
      have keeps := ((Growth.registerMethod_alters unlocated.formed there text obfuscation).moved_to registered).keeps
      exact ⟨unlocated.registerMethod there registered, fun scope same => keeps.hasScope (known scope same)⟩

section
variable {before after : ReadingState} (unlocated : before.tree.Unlocated)
include unlocated

theorem readLines_unlocated {lines : List (List Char)} (ran : (readLines lines).on before = (.ok (), after)) :
    after.tree.Unlocated := by
  obtain ⟨progress, between, taken, summarised⟩ := Reading.on_bind_eq_ok ran
  have start : UnlocatedTo none before.tree := ⟨unlocated, nofun⟩
  have kept := @readFrom_keeps (fun _ current tree => UnlocatedTo current tree) (fun unlocated ran => unlocated.takeUp ran)
    [] lines 1 .start progress before between start taken
  cases summarised
  exact kept.1

theorem readBytes_unlocated {path : LooseText} {bytes : ByteArray}
    (ran : (readBytes path bytes).on before = (.ok (), after)) : after.tree.Unlocated := by
  unfold readBytes at ran
  cases fault : (Text.decodeUtf8 bytes).fault with
  | none =>
    simp only [fault] at ran
    exact readLines_unlocated unlocated ran
  | some broken =>
    -- A fault of the encoding ends the reading, whether lines were read before it or not.
    simp only [fault] at ran
    split at ran
    · obtain ⟨_, _, -, refused⟩ := Reading.on_bind_eq_ok ran
      cases refused
    · cases ran

end

end Mapping

/-! ## XML logs -/

namespace YGuardLog

theorem Entered.unlocated {entry : Xml.Element} {before after : NameTree} (entered : Entered entry before after)
    (unlocated : before.Unlocated) : after.Unlocated := by
  cases entered with
  | package _ _ _ _ ran => exact (unlocated.aliasScope ran).1
  | javaClass _ _ _ _ ran => exact (unlocated.aliasScope ran).1
  | method _ resolved registered =>
    obtain ⟨later, known⟩ := unlocated.resolveClass resolved
    exact later.registerMethod known registered
  | passed _ same => exact same ▸ unlocated

section
variable {element : Xml.Element} {counts next : Counts} {before after : ReadingState} (unlocated : before.tree.Unlocated)
include unlocated

theorem readEntry_unlocated (ran : (readEntry counts element).on before = (.ok next, after)) :
    after.tree.Unlocated := (readEntry_entered ran).unlocated unlocated

theorem readExposed_unlocated (ran : (readExposed counts element).on before = (.ok next, after)) :
    after.tree.Unlocated := by
  obtain ⟨name, scope, resolved⟩ := readExposed_resolves ran
  exact unlocated.resolve resolved

end

theorem readBytes_unlocated {path : LooseText} {bytes : ByteArray} {before after : ReadingState}
    (unlocated : before.tree.Unlocated) (ran : (readBytes path bytes).on before = (.ok (), after)) :
    after.tree.Unlocated := by
  unfold readBytes at ran
  cases parsed : Xml.read bytes.toList with
  | error fault =>
    rw [parsed] at ran
    cases fault <;> cases ran
  | ok root =>
    rw [parsed] at ran
    obtain ⟨counts, mapped, entries, rest⟩ := Reading.on_bind_eq_ok ran
    obtain ⟨exposed, last, classes, summarised⟩ := Reading.on_bind_eq_ok rest
    have afterEntries := Reading.foldlM_keeps readEntry_unlocated unlocated entries
    have afterClasses := Reading.foldlM_keeps readExposed_unlocated afterEntries classes
    cases summarised
    exact afterClasses

end YGuardLog

namespace RenameLog

theorem readFile_unlocated {disk : Disk} {format : LogFormat} {path : LooseText} {before after : ReadingState}
    (unlocated : before.tree.Unlocated) (ran : (readFile disk format path).on before = (.ok (), after)) :
    after.tree.Unlocated := by
  obtain ⟨_, between, noted, rest⟩ := Reading.on_bind_eq_ok ran
  have started : between.tree.Unlocated := by
    cases noted
    exact unlocated
  cases given : disk.read path.systemPath with
  | error fault =>
    rw [given] at rest
    cases rest
  | ok bytes =>
    rw [given] at rest
    cases format with
    | mapping => exact Mapping.readBytes_unlocated started rest
    | yguard => exact YGuardLog.readBytes_unlocated started rest

/-- The tree of a rename log is one in which no source file was looked for. -/
theorem read_unlocated {disk : Disk} {path : LooseText} {tree : NameTree}
    (parsed : (read disk path).tree = .ok (some tree)) : tree.Unlocated := by
  unfold read at parsed
  split at parsed
  · cases parsed
  · next format _ =>
    cases outcome : (readFile disk format path).result.outcome with
    | error fault =>
      rw [LogAttempt.tree, outcome] at parsed
      cases parsed
    | ok result =>
      rw [LogAttempt.tree, outcome] at parsed
      cases parsed
      obtain ⟨state, ran, rfl⟩ := Reading.on_of_result_eq_ok outcome
      exact readFile_unlocated unlocated_empty ran

end RenameLog

end ClearNames
